import Mathlib.Data.List.Forall2
import ProtoPascal.Proofs.LayoutLines

/-!
The sections of a class can be read back from its text. Who reads the lines of a class keeps the last
header at the depth of the class and the last of the words `const`, `type` and `var` after it. A class
inside has headers of its own, but they stand deeper. A header or a word is left out only where it
would repeat what the reader knows, so each member is read with its own visibility and kind.

* `declaration_fits`: the lines of a declaration stand at its depth or deeper;
* `role_of_header`, `role_of_word`, `member_inside`: what the reader takes a line for;
* `readFrom_linesFrom`: the members of a class are read under their own headers and words;
* `headers_differ`, `headers_filled`: there is no header without need;
* `class_sections_shown`: reading the text of a class.
-/

namespace ProtoPascal.Pascal

open Text

/-! ### The strings of a declaration -/

/-- The strings of which a method heading is made. -/
def Method.strings (method : Method) : List String :=
  method.name :: (method.parameters.flatMap (fun parameter => [parameter.name, parameter.typeName])
    ++ method.returnType.toList)

/-- The strings of which an item is made. -/
def Item.strings : Item → List String
  | .constant name value => [name, value]
  | .field name typeName => [name, typeName]
  | .property name typeName getter setter => [name, typeName, getter, setter]
  | .method declared => declared.strings

/-- The strings of which an enumeration is made. -/
def EnumDeclaration.strings (declaration : EnumDeclaration) : List String :=
  declaration.name :: (declaration.comment ++ declaration.values.map EnumMember.name)

mutual

/-- The strings of which the declaration of a type is made. -/
def TypeDeclaration.strings : TypeDeclaration → List String
  | .forwardClass name => [name]
  | .enumType declaration => declaration.strings
  | .classType name ancestor comment members =>
    name :: ancestor :: (comment ++ Member.stringsAll members)

/-- The strings of which a member is made. -/
def Member.strings : Member → List String
  | .item _ comment declared => comment ++ declared.strings
  | .nestedType _ comment declared => comment ++ declared.strings

/-- The strings of which members are made. -/
def Member.stringsAll : List Member → List String
  | [] => []
  | member :: rest => member.strings ++ Member.stringsAll rest

end

/-! ### The lines of a declaration -/

/-- A line that stands at a depth or deeper and is one line of text. -/
structure Line.Fits (depth : Nat) (line : Line) : Prop where
  within : line.Within depth
  oneLine : OneLine line.text

theorem Line.Fits.mono {outer inner : Nat} (deeper : outer ≤ inner) {line : Line}
    (fits : line.Fits inner) : line.Fits outer :=
  ⟨fits.within.mono deeper, fits.oneLine⟩

theorem Line.fits {depth : Nat} {text : String} (filled : text ≠ "") (single : OneLine text) :
    (Line.mk depth text).Fits depth :=
  ⟨⟨Nat.le_refl _, filled⟩, single⟩

theorem oneLine_toString (value : Int) : OneLine (toString value) := by
  have digits (number : Nat) : '\n' ∉ Nat.toDigits 10 number := fun inside =>
    absurd (Nat.isDigit_of_mem_toDigits (by decide) (by decide) inside) (by decide)
  cases value with
  | ofNat number =>
    have shown : (toString (Int.ofNat number)).toList = Nat.toDigits 10 number := Nat.toList_repr
    rw [OneLine, shown]
    exact digits number
  | negSucc number =>
    show OneLine ("-" ++ (number + 1).repr)
    rw [oneLine_append, OneLine, OneLine, Nat.toList_repr]
    exact ⟨by decide, digits (number + 1)⟩

theorem commentLine_eq (depth : Nat) (text : String) :
    ∃ rest, commentLine depth "///" text = ⟨depth, "///" ++ rest⟩ ∧ (OneLine text → OneLine rest) := by
  unfold commentLine
  split
  · exact ⟨"", rfl, fun _ => by decide⟩
  · refine ⟨" " ++ text, by rw [String.append_assoc], fun single => ?_⟩
    exact oneLine_append.mpr ⟨by decide, single⟩

theorem commentLines_fits {depth : Nat} {comment : List String}
    (single : ∀ text ∈ comment, OneLine text) :
    ∀ line ∈ commentLines depth comment, line.Fits depth := by
  refine List.forall_mem_map.mpr fun text inside => ?_
  obtain ⟨rest, spelled, ofRest⟩ := commentLine_eq depth text
  rw [spelled]
  exact Line.fits (by simp) (oneLine_append.mpr ⟨by decide, ofRest (single text inside)⟩)

theorem separatedLines_fits {depth : Nat} {separator final : String} {entries : List String}
    (separator_single : OneLine separator) (final_single : OneLine final)
    (filled : ∀ entry ∈ entries, entry ≠ "") (single : ∀ entry ∈ entries, OneLine entry) :
    ∀ line ∈ separatedLines depth separator final entries, line.Fits depth := by
  fun_induction separatedLines depth separator final entries with
  | case1 => exact List.forall_mem_nil _
  | case2 entry =>
    rw [List.forall_mem_singleton] at filled single ⊢
    exact Line.fits (by simp [filled]) (oneLine_append.mpr ⟨single, final_single⟩)
  | case3 entry rest _ ih =>
    rw [List.forall_mem_cons] at filled single ⊢
    exact ⟨Line.fits (by simp [filled.1]) (oneLine_append.mpr ⟨single.1, separator_single⟩),
      ih filled.2 single.2⟩

theorem enumeration_fits {depth : Nat} {declaration : EnumDeclaration}
    (single : ∀ text ∈ declaration.strings, OneLine text) :
    ∀ line ∈ declaration.lines depth, line.Fits depth := by
  rw [EnumDeclaration.strings, List.forall_mem_cons, List.forall_mem_append,
    List.forall_mem_map] at single
  obtain ⟨name, comment, values⟩ := single
  simp only [EnumDeclaration.lines, List.forall_mem_append, List.forall_mem_singleton]
  refine ⟨⟨⟨commentLines_fits comment, ?_⟩, ?_⟩, Line.fits (by decide) (by decide)⟩
  · exact Line.fits (by simp) (oneLine_append.mpr ⟨name, by decide⟩)
  · have entries : ∀ line ∈ separatedLines (depth + 1) "," "" (declaration.values.map fun value =>
        value.name ++ " = " ++ toString value.ordinal), line.Fits (depth + 1) := by
      refine separatedLines_fits (by decide) (by decide) ?_ ?_
      · exact List.forall_mem_map.mpr fun value _ => by simp
      · refine List.forall_mem_map.mpr fun value inside => ?_
        simp only [oneLine_append]
        exact ⟨⟨values value inside, by decide⟩, oneLine_toString value.ordinal⟩
    exact fun line inside => (entries line inside).mono (Nat.le_succ _)

theorem heading_oneLine {method : Method} (single : ∀ text ∈ method.strings, OneLine text) :
    OneLine (method.heading method.name) := by
  rw [Method.strings, List.forall_mem_cons, List.forall_mem_append] at single
  obtain ⟨name, parameters, returned⟩ := single
  have kind : OneLine method.kind.word := by
    cases method.kind <;> decide
  have listed : OneLine (parameterText method.parameters) := by
    unfold parameterText
    split
    · decide
    · simp only [oneLine_append]
      refine ⟨⟨by decide, ?_⟩, by decide⟩
      refine notMem_join (by decide) (List.forall_mem_map.mpr fun parameter inside => ?_)
      show OneLine parameter.text
      simp only [Parameter.text, oneLine_append]
      exact ⟨⟨parameters _ (List.mem_flatMap.mpr ⟨parameter, inside, by simp⟩), by decide⟩,
        parameters _ (List.mem_flatMap.mpr ⟨parameter, inside, by simp⟩)⟩
  unfold Method.heading
  simp only [oneLine_append]
  refine ⟨⟨⟨⟨kind, by decide⟩, name⟩, listed⟩, ?_⟩
  split
  next type found =>
    rw [found] at returned
    exact oneLine_append.mpr ⟨by decide, returned type (by simp)⟩
  next => decide

theorem item_oneLine {item : Item} (single : ∀ text ∈ item.strings, OneLine text) :
    OneLine item.text := by
  cases item with
  | constant name value =>
    rw [Item.strings, List.forall_mem_cons, List.forall_mem_singleton] at single
    exact ((single.1.append (by decide)).append single.2).append (by decide)
  | field name typeName =>
    rw [Item.strings, List.forall_mem_cons, List.forall_mem_singleton] at single
    exact ((single.1.append (by decide)).append single.2).append (by decide)
  | property name typeName getter setter =>
    rw [Item.strings, List.forall_mem_cons, List.forall_mem_cons, List.forall_mem_cons,
      List.forall_mem_singleton] at single
    obtain ⟨ofName, ofType, ofGetter, ofSetter⟩ := single
    have declared : OneLine ("property " ++ name ++ ": " ++ typeName) :=
      ((OneLine.append (by decide) ofName).append (by decide)).append ofType
    exact ((((declared.append (by decide)).append ofGetter).append (by decide)).append
      ofSetter).append (by decide)
  | method declared =>
    have directive : OneLine declared.binding.directive := by
      cases declared.binding <;> decide
    exact ((heading_oneLine single).append (by decide)).append directive

/-- The line of an item ends a declaration. -/
theorem semicolon_mem_text (item : Item) : ';' ∈ item.text.toList := by
  have closed (front : String) : ';' ∈ (front ++ ";").toList := by
    rw [String.toList_append]
    exact List.mem_append_right _ (by decide)
  cases item with
  | constant => exact closed _
  | field => exact closed _
  | property => exact closed _
  | method declared =>
    show ';' ∈ (declared.heading declared.name ++ ";" ++ declared.binding.directive).toList
    rw [String.toList_append]
    exact List.mem_append_left _ (closed _)

/-- The line with the word of a group, where it has one. -/
def wordLines (depth : Nat) (group : MemberGroup) : List Line :=
  group.word?.toList.map fun word => ⟨depth + 1, word⟩

/-- **What stands above a member**: nothing where it continues a section, a word where only its kind
changes, and a header where its visibility changes. -/
theorem sectionLines_cases (depth : Nat) (current : Section) (visibility : Visibility)
    (group : MemberGroup) :
    current = some (visibility, group) ∧ sectionLines depth current visibility group = [] ∨
    current.map Prod.fst = some visibility ∧
      sectionLines depth current visibility group = wordLines depth group ∨
    current.map Prod.fst ≠ some visibility ∧
      sectionLines depth current visibility group =
        ⟨depth, visibility.word⟩ :: wordLines depth group := by
  by_cases stays : current.map Prod.fst = some visibility
  · by_cases continued : current.map Prod.snd = some group
    · left
      cases current with
      | none => cases stays
      | some pair =>
        cases stays
        cases continued
        exact ⟨rfl, by simp [sectionLines]⟩
    · right
      left
      exact ⟨stays, by simp [sectionLines, wordLines, stays, continued]⟩
  · right
    right
    exact ⟨stays, by simp [sectionLines, wordLines, stays]⟩

theorem wordLines_fits (depth : Nat) (group : MemberGroup) :
    ∀ line ∈ wordLines depth group, line.Fits (depth + 1) := by
  have words : ∀ word ∈ group.word?.toList, word ≠ "" ∧ OneLine word := by
    cases group <;> decide
  exact List.forall_mem_map.mpr fun word inside =>
    Line.fits (words word inside).1 (words word inside).2

theorem sectionLines_fits (depth : Nat) (current : Section) (visibility : Visibility)
    (group : MemberGroup) :
    ∀ line ∈ sectionLines depth current visibility group, line.Fits depth := by
  have words : ∀ line ∈ wordLines depth group, line.Fits depth := fun line inside =>
    (wordLines_fits depth group line inside).mono (Nat.le_succ _)
  have header : (Line.mk depth visibility.word).Fits depth := by
    cases visibility <;> exact Line.fits (by decide) (by decide)
  obtain ⟨-, none⟩ | ⟨-, word⟩ | ⟨-, both⟩ := sectionLines_cases depth current visibility group
  · rw [none]
    exact List.forall_mem_nil _
  · rwa [word]
  · rw [both, List.forall_mem_cons]
    exact ⟨header, words⟩

mutual

/-- **The lines of a declaration stand at its depth or deeper**, and none of them is empty. -/
theorem declaration_fits (depth : Nat) : ∀ (declaration : TypeDeclaration),
    (∀ text ∈ declaration.strings, OneLine text) →
      ∀ line ∈ declaration.lines depth, line.Fits depth
  | .forwardClass name, single => by
    rw [TypeDeclaration.strings, List.forall_mem_singleton] at single
    rw [TypeDeclaration.lines, List.forall_mem_singleton]
    exact Line.fits (by simp) (oneLine_append.mpr ⟨single, by decide⟩)
  | .enumType declaration, single => by
    rw [TypeDeclaration.strings] at single
    rw [TypeDeclaration.lines]
    exact enumeration_fits single
  | .classType name ancestor comment members, single => by
    rw [TypeDeclaration.strings, List.forall_mem_cons, List.forall_mem_cons,
      List.forall_mem_append] at single
    obtain ⟨ofName, ofAncestor, ofComment, ofMembers⟩ := single
    simp only [TypeDeclaration.lines, List.forall_mem_append, List.forall_mem_singleton]
    refine ⟨⟨⟨commentLines_fits ofComment, Line.fits (by simp) ?_⟩,
      members_fit depth none members ofMembers⟩, Line.fits (by decide) (by decide)⟩
    simp only [oneLine_append]
    exact ⟨⟨⟨ofName, by decide⟩, ofAncestor⟩, by decide⟩

theorem member_fits (depth : Nat) : ∀ (member : Member),
    (∀ text ∈ member.strings, OneLine text) → ∀ line ∈ member.lines depth, line.Fits depth
  | .item visibility comment declared, single => by
    rw [Member.strings, List.forall_mem_append] at single
    rw [Member.lines, List.forall_mem_append, List.forall_mem_singleton]
    refine ⟨commentLines_fits single.1, Line.fits ?_ (item_oneLine single.2)⟩
    intro empty
    exact absurd (empty ▸ semicolon_mem_text declared) (by decide)
  | .nestedType visibility comment declared, single => by
    rw [Member.strings, List.forall_mem_append] at single
    rw [Member.lines, List.forall_mem_append]
    exact ⟨commentLines_fits single.1, declaration_fits depth declared single.2⟩

theorem members_fit (depth : Nat) (current : Section) : ∀ (members : List Member),
    (∀ text ∈ Member.stringsAll members, OneLine text) →
      ∀ line ∈ Member.linesFrom depth current members, line.Fits depth
  | [], _ => by
    rw [Member.linesFrom]
    exact List.forall_mem_nil _
  | member :: rest, single => by
    rw [Member.stringsAll, List.forall_mem_append] at single
    simp only [Member.linesFrom, List.forall_mem_append]
    refine ⟨⟨sectionLines_fits depth current _ _, fun line inside => ?_⟩,
      members_fit depth _ rest single.2⟩
    exact (member_fits _ member single.1 line inside).mono (Nat.le_add_right _ _)

end

/-! ### What a line is for the reader of a class -/

/-- What the reader of a class takes a line for. -/
inductive Role where
  | header (visibility : Visibility)
  | word (group : MemberGroup)
  | inside
deriving DecidableEq, Repr

/-- The visibility that a line announces, if it is a header. -/
def Role.visibility? : Role → Option Visibility
  | .header visibility => some visibility
  | _ => none

/-- The role of a line by its text after the blanks of the class. -/
def textRole : String → Role
  | "private" => .header .privateSection
  | "protected" => .header .protectedSection
  | "public" => .header .publicSection
  | "  const" => .word .constants
  | "  type" => .word .types
  | "  var" => .word .variables
  | _ => .inside

/-- The role of a line of text for the reader of a class at a depth. -/
def role (depth : Nat) (content : String) : Role :=
  match (indentation depth).isPrefixOf? content.toList with
  | some text => textRole (String.ofList text)
  | none => .inside

/-- The texts of headers and words after the blanks of the class. -/
def sectionTexts : List String :=
  ["private", "protected", "public", "  const", "  type", "  var"]

theorem textRole_inside {text : String} (other : text ∉ sectionTexts) : textRole text = .inside := by
  unfold textRole
  split
  · exact absurd other (by decide)
  · exact absurd other (by decide)
  · exact absurd other (by decide)
  · exact absurd other (by decide)
  · exact absurd other (by decide)
  · exact absurd other (by decide)
  · rfl

theorem role_of_append {depth : Nat} {content : String} {text : List Char}
    (spelled : content.toList = indentation depth ++ text) :
    role depth content = textRole (String.ofList text) := by
  unfold role
  rw [List.isPrefixOf?_eq_some_iff_append_eq.mpr spelled.symm]

theorem role_of_line (depth more : Nat) {text : String} (filled : text ≠ "") :
    role depth (Line.mk (depth + more) text).content =
      textRole (String.ofList (indentation more ++ text.toList)) := by
  refine role_of_append ?_
  rw [Line.toList_content filled, indentation_add, List.append_assoc]

theorem role_of_header (depth : Nat) (visibility : Visibility) :
    role depth (Line.mk depth visibility.word).content = .header visibility := by
  refine (role_of_line depth 0 ?_).trans ?_
  · cases visibility <;> decide
  · cases visibility <;> rfl

theorem role_of_word (depth : Nat) {group : MemberGroup} {word : String}
    (spelled : group.word? = some word) :
    role depth (Line.mk (depth + 1) word).content = .word group := by
  have listed : word ≠ "" ∧ textRole (String.ofList (indentation 1 ++ word.toList)) = .word group := by
    cases group <;> cases spelled <;> exact ⟨by decide, rfl⟩
  exact (role_of_line depth 1 listed.1).trans listed.2

/-- A line that stands two levels deeper than the class. -/
theorem role_inside_of_indented {depth : Nat} {content : String} (deep : Indented (depth + 2) content) :
    role depth content = .inside := by
  obtain ⟨rest, spelled⟩ := deep
  rw [indentation_add, List.append_assoc] at spelled
  rw [role_of_append spelled.symm]
  refine textRole_inside fun listed => ?_
  have third : ∀ text ∈ sectionTexts, text.toList[2]? ≠ some ' ' := by decide
  refine third _ listed ?_
  rw [String.toList_ofList]
  rfl

/-- A line with a character that no header and no word has. -/
theorem role_inside_of_mem {depth : Nat} {line : Line} (character : Char)
    (mark : character ∈ ['/', ';', '(']) (there : character ∈ line.text.toList) :
    role depth line.content = .inside := by
  have unmarked : ∀ text ∈ sectionTexts, (['/', ';', '('].all (· ∉ text.toList)) = true := by decide
  have filled : line.text ≠ "" := by
    intro empty
    rw [empty] at there
    cases there
  have shown : character ∈ line.content.toList := by
    rw [Line.toList_content filled]
    exact List.mem_append_right _ there
  unfold role
  split
  next text found =>
    refine textRole_inside fun listed => ?_
    refine of_decide_eq_true (List.all_eq_true.mp (unmarked _ listed) character mark) ?_
    rw [String.toList_ofList]
    rw [← List.isPrefixOf?_eq_some_iff_append_eq.mp found, List.mem_append] at shown
    rcases shown with blank | rest
    · rw [indentation, List.mem_replicate] at blank
      exact absurd (blank.2 ▸ mark) (by decide)
    · exact rest
  next => rfl

/-! ### The lines of a member -/

theorem MemberGroup.word?_eq_none {group : MemberGroup} : group.word? = none ↔ group = .routines := by
  cases group <;> decide

theorem MemberGroup.depth_of_ne {group : MemberGroup} (worded : group ≠ .routines) : group.depth = 2 :=
  if_pos (Option.isSome_iff_ne_none.mpr (mt MemberGroup.word?_eq_none.mp worded))

/-- The line of a method or property starts with something visible. -/
theorem routine_text_head {item : Item} (routine : item.group = .routines) :
    ∃ first, item.text.toList.head? = some first ∧ first ≠ ' ' := by
  cases item with
  | constant name value => cases routine
  | field name typeName => cases routine
  | property name typeName getter setter =>
    refine ⟨'p', ?_, by decide⟩
    show ("property " ++ name ++ ": " ++ typeName ++ " read " ++ getter ++ " write " ++ setter
      ++ ";").toList.head? = some 'p'
    simp only [String.toList_append, List.append_assoc]
    rfl
  | method declared =>
    have start : ∃ first, declared.kind.word.toList.head? = some first ∧ first ≠ ' ' := by
      cases declared.kind <;> exact ⟨_, rfl, by decide⟩
    obtain ⟨first, found, visible⟩ := start
    refine ⟨first, ?_, visible⟩
    show (declared.heading declared.name ++ ";" ++ declared.binding.directive).toList.head? = some first
    simp only [Method.heading, String.toList_append, List.append_assoc, List.head?_append, found,
      Option.some_or]

/-- The lines of a method or property start with something visible, and each of them has a character
that no header and no word has. -/
theorem routine_lines {depth : Nat} {member : Member} (routine : member.group = .routines) :
    ∀ line ∈ member.lines depth, line.depth = depth ∧
      (∃ first, line.text.toList.head? = some first ∧ first ≠ ' ') ∧
      ∃ character ∈ ['/', ';', '('], character ∈ line.text.toList := by
  cases member with
  | nestedType visibility comment declared => cases routine
  | item visibility comment declared =>
    rw [Member.lines, List.forall_mem_append, List.forall_mem_singleton]
    constructor
    · refine List.forall_mem_map.mpr fun text _ => ?_
      obtain ⟨rest, spelled, -⟩ := commentLine_eq depth text
      rw [spelled, String.toList_append]
      exact ⟨rfl, ⟨'/', rfl, by decide⟩, '/', by decide, List.mem_append_left _ (by decide)⟩
    · exact ⟨rfl, routine_text_head routine, ';', by decide, semicolon_mem_text declared⟩

/-- The lines of a method or property stand one level deeper than the class. -/
theorem routine_shallow {depth : Nat} {member : Member} (routine : member.group = .routines) :
    ∀ line ∈ member.lines (depth + member.group.depth),
      Indented (depth + 1) line.content ∧ ¬ Indented (depth + 2) line.content := by
  intro line inside
  obtain ⟨level, ⟨first, start, visible⟩, -⟩ := routine_lines routine line inside
  rw [routine] at level
  obtain ⟨_, text⟩ := line
  obtain rfl : _ = depth + 1 := level
  refine ⟨Line.Within.indented ⟨Nat.le_refl _, ?_⟩, not_indented_of_head start visible⟩
  rintro rfl
  cases start

section

variable {depth : Nat} {member : Member} (single : ∀ text ∈ member.strings, OneLine text)

include single

/-- The lines of a constant, a nested type or a field stand two levels deeper than the class. -/
theorem worded_deep (worded : member.group ≠ .routines) :
    ∀ line ∈ member.lines (depth + member.group.depth), Indented (depth + 2) line.content := by
  rw [MemberGroup.depth_of_ne worded]
  exact fun line inside => (member_fits _ member single line inside).within.indented

/-- The reader takes no line of a member for a header or a word. -/
theorem member_inside :
    ∀ line ∈ member.lines (depth + member.group.depth), role depth line.content = .inside := by
  intro line inside
  by_cases routine : member.group = .routines
  · obtain ⟨-, -, character, mark, there⟩ := routine_lines routine line inside
    exact role_inside_of_mem character mark there
  · exact role_inside_of_indented (worded_deep single routine line inside)

end

/-! ### Reading a class -/

/-- A line inside a class as it is read: under the last header and the last word after it. -/
structure Reading where
  content : String
  visibility : Option Visibility
  keyword : Option MemberGroup

/-- Reads the lines of a class at a depth, after a header and a word. -/
def readFrom (depth : Nat) (visibility : Option Visibility) (keyword : Option MemberGroup) :
    List String → List Reading
  | [] => []
  | content :: rest =>
    match role depth content with
    | .header visibility => readFrom depth (some visibility) none rest
    | .word group => readFrom depth visibility (some group) rest
    | .inside => ⟨content, visibility, keyword⟩ :: readFrom depth visibility keyword rest

/-- A member is read as what it is: all of its lines under its own visibility, those of a constant, a
nested type or a field under the word of its group and a level deeper than those of a method or
property. -/
structure ReadAs (depth : Nat) (member : Member) (readings : List Reading) : Prop where
  lines : readings.map Reading.content =
    (member.lines (depth + member.group.depth)).map Line.content
  found : readings ≠ []
  visibility : ∀ reading ∈ readings, reading.visibility = some member.visibility
  worded : member.group ≠ .routines → ∀ reading ∈ readings,
    reading.keyword = some member.group ∧ Indented (depth + 2) reading.content
  routine : member.group = .routines → ∀ reading ∈ readings,
    Indented (depth + 1) reading.content ∧ ¬ Indented (depth + 2) reading.content

/-- What the reader knows after a member: its visibility, and its kind where that has a word. -/
def Known (current : Section) (visibility : Option Visibility) (keyword : Option MemberGroup) : Prop :=
  ∀ pair ∈ current, visibility = some pair.1 ∧ (pair.2 ≠ .routines → keyword = some pair.2)

section

variable {depth : Nat}

theorem readFrom_inside {contents : List String} (rest : List String)
    (inside : ∀ content ∈ contents, role depth content = .inside) (visibility : Option Visibility)
    (keyword : Option MemberGroup) :
    readFrom depth visibility keyword (contents ++ rest) =
      contents.map (⟨·, visibility, keyword⟩) ++ readFrom depth visibility keyword rest := by
  induction contents with
  | nil => rfl
  | cons content others ih =>
    rw [List.forall_mem_cons] at inside
    rw [List.cons_append, readFrom, inside.1, List.map_cons, List.cons_append, ih inside.2]

/-- The word of a group is kept until the next; methods and properties have none. -/
theorem readFrom_wordLines (group : MemberGroup) (visibility : Option Visibility)
    (keyword : Option MemberGroup) :
    ∃ next, (group ≠ .routines → next = some group) ∧ ∀ rest,
      readFrom depth visibility keyword ((wordLines depth group).map Line.content ++ rest) =
        readFrom depth visibility next rest := by
  cases spelled : group.word? with
  | none =>
    exact ⟨keyword, fun worded => absurd (MemberGroup.word?_eq_none.mp spelled) worded,
      fun rest => by simp [wordLines, spelled]⟩
  | some word =>
    refine ⟨some group, fun _ => rfl, fun rest => ?_⟩
    simp only [wordLines, spelled, Option.toList_some, List.map_cons, List.map_nil, List.cons_append,
      List.nil_append]
    rw [readFrom, role_of_word depth spelled]

/-- **What stands above a member tells the reader its visibility and kind**, or the reader knows. -/
theorem readFrom_section (depth : Nat) {current : Section} {visibility : Option Visibility}
    {keyword : Option MemberGroup} (known : Known current visibility keyword) (own : Visibility)
    (group : MemberGroup) :
    ∃ next, Known (some (own, group)) (some own) next ∧ ∀ rest,
      readFrom depth visibility keyword
          ((sectionLines depth current own group).map Line.content ++ rest) =
        readFrom depth (some own) next rest := by
  have told {next : Option MemberGroup} (worded : group ≠ .routines → next = some group) :
      Known (some (own, group)) (some own) next := by
    rintro pair ⟨⟩
    exact ⟨rfl, worded⟩
  obtain ⟨rfl, lines⟩ | ⟨stays, lines⟩ | ⟨-, lines⟩ := sectionLines_cases depth current own group
  · obtain ⟨rfl, worded⟩ := known (own, group) rfl
    exact ⟨keyword, told worded, fun rest => by rw [lines, List.map_nil, List.nil_append]⟩
  · obtain ⟨pair, rfl, rfl⟩ := Option.map_eq_some_iff.mp stays
    obtain ⟨rfl, -⟩ := known pair rfl
    obtain ⟨next, worded, reads⟩ := readFrom_wordLines group (some pair.1) keyword
    exact ⟨next, told worded, fun rest => by rw [lines, reads]⟩
  · obtain ⟨next, worded, reads⟩ := readFrom_wordLines group (some own) none
    refine ⟨next, told worded, fun rest => ?_⟩
    rw [lines, List.map_cons, List.cons_append, readFrom, role_of_header]
    exact reads rest

theorem declaration_lines_ne_nil (depth : Nat) (declaration : TypeDeclaration) :
    declaration.lines depth ≠ [] := by
  cases declaration <;> simp [TypeDeclaration.lines, EnumDeclaration.lines]

theorem member_lines_ne_nil (depth : Nat) (member : Member) : member.lines depth ≠ [] := by
  cases member with
  | item => simp [Member.lines]
  | nestedType visibility comment declared =>
    simp [Member.lines, declaration_lines_ne_nil depth declared]

theorem readAs_of_known {member : Member} (single : ∀ text ∈ member.strings, OneLine text)
    {keyword : Option MemberGroup}
    (known : Known (some (member.visibility, member.group)) (some member.visibility) keyword) :
    ReadAs depth member (((member.lines (depth + member.group.depth)).map Line.content).map
      (⟨·, some member.visibility, keyword⟩)) where
  lines := by rw [List.map_map]; exact List.map_id _
  found := by simp [member_lines_ne_nil]
  visibility := List.forall_mem_map.mpr fun _ _ => rfl
  worded worded := List.forall_mem_map.mpr (List.forall_mem_map.mpr fun line inside =>
    ⟨(known _ rfl).2 worded, worded_deep single worded line inside⟩)
  routine routine := List.forall_mem_map.mpr (List.forall_mem_map.mpr fun line inside =>
    routine_shallow routine line inside)

/-- **The members of a class are read under their own headers and words.** -/
theorem readFrom_linesFrom {members : List Member} {current : Section}
    {visibility : Option Visibility} {keyword : Option MemberGroup}
    (single : ∀ text ∈ Member.stringsAll members, OneLine text)
    (known : Known current visibility keyword) :
    ∃ readings, readFrom depth visibility keyword
        ((Member.linesFrom depth current members).map Line.content) = readings.flatten ∧
      List.Forall₂ (ReadAs depth) members readings := by
  induction members generalizing current visibility keyword with
  | nil =>
    rw [Member.linesFrom]
    exact ⟨[], rfl, .nil⟩
  | cons member rest ih =>
    rw [Member.stringsAll, List.forall_mem_append] at single
    obtain ⟨next, own, reads⟩ := readFrom_section depth known member.visibility member.group
    obtain ⟨readings, later, each⟩ := ih single.2 own
    refine ⟨_ :: readings, ?_, .cons (readAs_of_known single.1 own) each⟩
    rw [Member.linesFrom, List.map_append, List.map_append, List.append_assoc, reads,
      readFrom_inside _ (List.forall_mem_map.mpr (member_inside single.1)), later, List.flatten_cons]

end

/-! ### Headers -/

/-- Whether a line of a member follows before the next header. -/
def Role.opensMember : List Role → Bool
  | .word _ :: rest => Role.opensMember rest
  | .inside :: _ => true
  | _ => false

/-- The roles of lines for the reader of a class at a depth. -/
def roles (depth : Nat) (lines : List Line) : List Role :=
  lines.map fun line => role depth line.content

section

variable {depth : Nat}

theorem roles_append (left right : List Line) :
    roles depth (left ++ right) = roles depth left ++ roles depth right :=
  List.map_append

/-- The lines above a member are words, after a header where the visibility changes. -/
theorem roles_sectionLines (depth : Nat) (current : Section) (visibility : Visibility)
    (group : MemberGroup) :
    ∃ words, (∀ here ∈ words, ∃ group, here = .word group) ∧
      roles depth (sectionLines depth current visibility group) =
        (if current.map Prod.fst = some visibility then [] else [.header visibility]) ++ words := by
  have worded : ∀ here ∈ roles depth (wordLines depth group), ∃ group, here = .word group :=
    List.forall_mem_map.mpr (List.forall_mem_map.mpr fun word listed =>
      ⟨group, role_of_word depth (Option.mem_toList.mp listed)⟩)
  obtain ⟨rfl, lines⟩ | ⟨stays, lines⟩ | ⟨changes, lines⟩ :=
    sectionLines_cases depth current visibility group
  · exact ⟨[], List.forall_mem_nil _, by rw [lines, Option.map_some, if_pos rfl]; rfl⟩
  · exact ⟨_, worded, by rw [lines, if_pos stays, List.nil_append]⟩
  · refine ⟨_, worded, ?_⟩
    rw [lines, if_neg changes, roles, List.map_cons, role_of_header]
    rfl

theorem opensMember_append {words own : List Role} (worded : ∀ here ∈ words, ∃ group, here = .word group)
    (found : own ≠ []) (inside : ∀ here ∈ own, here = .inside) (rest : List Role) :
    Role.opensMember (words ++ own ++ rest) = true := by
  induction words with
  | nil =>
    cases own with
    | nil => exact absurd rfl found
    | cons first others =>
      rw [inside first (List.mem_cons_self ..)]
      rfl
  | cons word others ih =>
    rw [List.forall_mem_cons] at worded
    obtain ⟨⟨group, rfl⟩, others_worded⟩ := worded
    exact ih others_worded

/-- **The lines up to the end of a member**: a header where the visibility changes, then no other
header before the member. -/
theorem roles_linesFrom_cons {member : Member} (single : ∀ text ∈ member.strings, OneLine text)
    (current : Section) (rest : List Member) :
    ∃ front, (∀ here ∈ front, here.visibility? = none) ∧
      (∀ later, Role.opensMember (front ++ later) = true) ∧
      roles depth (Member.linesFrom depth current (member :: rest)) =
        (if current.map Prod.fst = some member.visibility then [] else [.header member.visibility]) ++
          (front ++
            roles depth (Member.linesFrom depth (some (member.visibility, member.group)) rest)) := by
  obtain ⟨words, worded, above⟩ := roles_sectionLines depth current member.visibility member.group
  have inside : ∀ here ∈ roles depth (member.lines (depth + member.group.depth)), here = .inside :=
    List.forall_mem_map.mpr (member_inside single)
  have found : roles depth (member.lines (depth + member.group.depth)) ≠ [] := by
    simp [roles, member_lines_ne_nil]
  refine ⟨words ++ roles depth (member.lines (depth + member.group.depth)), ?_,
    opensMember_append worded found inside, ?_⟩
  · refine List.forall_mem_append.mpr ⟨fun here listed => ?_, fun here listed => ?_⟩
    · obtain ⟨group, rfl⟩ := worded here listed
      rfl
    · rw [inside here listed]
      rfl
  · rw [Member.linesFrom, roles_append, roles_append, above]
    simp only [List.append_assoc]

/-- **Headers differ from those before them.** -/
theorem headers_differ {members : List Member}
    (single : ∀ text ∈ Member.stringsAll members, OneLine text) (current : Section) :
    ((current.map Prod.fst).toList ++
      (roles depth (Member.linesFrom depth current members)).filterMap Role.visibility?).IsChain
        (· ≠ ·) := by
  induction members generalizing current with
  | nil =>
    rw [Member.linesFrom, roles, List.map_nil, List.filterMap_nil, List.append_nil]
    cases current with
    | none => exact .nil
    | some pair => exact .singleton pair.1
  | cons member rest ih =>
    rw [Member.stringsAll, List.forall_mem_append] at single
    have later := ih single.2 (some (member.visibility, member.group))
    obtain ⟨front, plain, -, lines⟩ := roles_linesFrom_cons single.1 current rest
    rw [lines, List.filterMap_append, List.filterMap_append, List.filterMap_eq_nil_iff.mpr plain]
    split
    next stays =>
      rw [stays]
      exact later
    next changes =>
      cases current with
      | none => exact later
      | some pair => exact .cons_cons (fun same => changes (congrArg some same)) later

/-- A header among lines that start with others stands behind these. -/
theorem header_suffix_of_append {front rest later : List Role} {visibility : Visibility}
    (plain : ∀ here ∈ front, here.visibility? = none)
    (follows : .header visibility :: later <:+ front ++ rest) :
    .header visibility :: later <:+ rest := by
  induction front with
  | nil => exact follows
  | cons first others ih =>
    rw [List.forall_mem_cons] at plain
    rw [List.cons_append, List.suffix_cons_iff] at follows
    rcases follows with same | behind
    · cases same
      cases plain.1
    · exact ih plain.2 behind

/-- **A member follows each header.** -/
theorem headers_filled {members : List Member}
    (single : ∀ text ∈ Member.stringsAll members, OneLine text) (current : Section)
    {visibility : Visibility} {later : List Role}
    (follows : .header visibility :: later <:+ roles depth (Member.linesFrom depth current members)) :
    Role.opensMember later = true := by
  induction members generalizing current with
  | nil =>
    rw [Member.linesFrom] at follows
    exact absurd (List.suffix_nil.mp follows) (List.cons_ne_nil _ _)
  | cons member rest ih =>
    rw [Member.stringsAll, List.forall_mem_append] at single
    obtain ⟨front, plain, opens, lines⟩ := roles_linesFrom_cons single.1 current rest
    rw [lines] at follows
    split at follows
    next => exact ih single.2 _ (header_suffix_of_append plain follows)
    next =>
      rw [List.singleton_append, List.suffix_cons_iff] at follows
      rcases follows with same | behind
      · cases same
        exact opens _
      · exact ih single.2 _ (header_suffix_of_append plain behind)

end

/-! ### The text of a class -/

/-- The lines of a class before its members. -/
def classOpening (depth : Nat) (name ancestor : String) (comment : List String) : List Line :=
  commentLines depth comment ++ [⟨depth, name ++ " = class(" ++ ancestor ++ ")"⟩]

/-- The lines of text of the members of a class. -/
def classBody (depth : Nat) (members : List Member) : List String :=
  (Member.linesFrom depth none members).map Line.content

theorem opening_inside (depth : Nat) (name ancestor : String) (comment : List String) :
    ∀ line ∈ classOpening depth name ancestor comment, role depth line.content = .inside := by
  rw [classOpening, List.forall_mem_append, List.forall_mem_singleton]
  constructor
  · refine List.forall_mem_map.mpr fun text _ => ?_
    obtain ⟨rest, spelled, -⟩ := commentLine_eq depth text
    rw [spelled]
    exact role_inside_of_mem '/' (by decide) (by simp)
  · exact role_inside_of_mem '(' (by decide) (by simp)

/-- The body of a class shows its members to a reader, and every header in it is needed. -/
structure SectionsShown (depth : Nat) (members : List Member) (body : List String) : Prop where
  attributed : ∃ readings, readFrom depth none none body = readings.flatten ∧
    List.Forall₂ (ReadAs depth) members readings
  differing : ((body.map (role depth)).filterMap Role.visibility?).IsChain (· ≠ ·)
  filled : ∀ visibility later, .header visibility :: later <:+ body.map (role depth) →
    Role.opensMember later = true

theorem sectionsShown_classBody (depth : Nat) {members : List Member}
    (single : ∀ text ∈ Member.stringsAll members, OneLine text) :
    SectionsShown depth members (classBody depth members) := by
  have ofRoles : (classBody depth members).map (role depth) =
      roles depth (Member.linesFrom depth none members) := List.map_map
  refine ⟨readFrom_linesFrom single fun pair impossible => ?_, ?_, ?_⟩
  · cases impossible
  · rw [ofRoles]
    exact headers_differ single none
  · rw [ofRoles]
    exact fun visibility later => headers_filled single none

/-- **Reading the text of a class.** Its body stands between lines that are neither headers nor words,
and shows each member with its own visibility and kind. -/
theorem class_sections_shown (depth : Nat) (name ancestor : String) (comment : List String)
    (members : List Member)
    (single : ∀ text ∈ (TypeDeclaration.classType name ancestor comment members).strings,
      OneLine text) :
    pieces '\n' (layoutText ((TypeDeclaration.classType name ancestor comment members).lines depth)) =
        (classOpening depth name ancestor comment).map Line.content ++
          classBody depth members ++ [(Line.mk depth "end;").content, ""] ∧
      (∀ line ∈ classOpening depth name ancestor comment ++ [⟨depth, "end;"⟩],
        role depth line.content = .inside) ∧
      SectionsShown depth members (classBody depth members) := by
  have ofMembers : ∀ text ∈ Member.stringsAll members, OneLine text := by
    simp only [TypeDeclaration.strings, List.forall_mem_cons, List.forall_mem_append] at single
    exact single.2.2.2
  refine ⟨?_, ?_, sectionsShown_classBody depth ofMembers⟩
  · rw [pieces_layoutText fun line inside => (declaration_fits depth _ single line inside).oneLine,
      TypeDeclaration.lines, classOpening, classBody]
    simp
  · rw [List.forall_mem_append, List.forall_mem_singleton]
    exact ⟨opening_inside depth name ancestor comment,
      role_inside_of_mem ';' (by decide) (by simp)⟩

/-- A class with a word that is repeated after a method, and with a class inside that has a header of
its own. -/
theorem nested_class_sections_shown :
    SectionsShown 1
      [.item .privateSection [] (.field "FName" "string"),
        .item .privateSection [] (.method ⟨.procedure, "Clear", [], none, .virtual⟩),
        .item .privateSection ["const"] (.field "FSize" "Integer"),
        .nestedType .publicSection [] (.classType "TPart" "TObject" []
          [.item .privateSection [] (.constant "Limit" "5")]),
        .item .publicSection [] (.property "Name" "string" "FName" "FName")]
      ["  private", "    var", "      FName: string;", "    procedure Clear; virtual;", "    var",
        "      /// const", "      FSize: Integer;", "  public", "    type",
        "      TPart = class(TObject)", "      private", "        const", "          Limit = 5;",
        "      end;", "    property Name: string read FName write FName;"] :=
  (class_sections_shown 1 "TWhole" "TObject" ["private"]
    [.item .privateSection [] (.field "FName" "string"),
      .item .privateSection [] (.method ⟨.procedure, "Clear", [], none, .virtual⟩),
      .item .privateSection ["const"] (.field "FSize" "Integer"),
      .nestedType .publicSection [] (.classType "TPart" "TObject" []
        [.item .privateSection [] (.constant "Limit" "5")]),
      .item .publicSection [] (.property "Name" "string" "FName" "FName")] (by decide)).2.2

end ProtoPascal.Pascal
