import ProtoPascal.Proofs.LegalNames
import ProtoPascal.Proofs.TypeCollisions

/-!
The values of an enumeration and their names. Values are told apart by their forms, the names in the style
of Pascal without capitals. They take their names in one scope, in order: the first value of a form gets
the plain name, the second one the marked name, and for a third one there is none. A reserved word is a
form that has its first value already. A mark is part of no styled name, so the names of one form never
stand in the way of another form, and counting is all that matters.

* `Scope.Occupied`: a scope in which the names of forms are taken as often as the forms occur in a list;
* `Scope.Occupied.insert_generated`: what one claim does to such a scope;
* `runIn_mapM_enumMembers`: exactly when all values of a list get names, and which;
* `enumeration_declared_iff`: exactly when an enumeration is declared, and how;
* `enumeration_named_like_case_type`: an enumeration with the name of a case type.
-/

namespace ProtoPascal

theorem Text.fold_append (left right : String) : fold (left ++ right) = fold left ++ fold right := by
  apply String.ext
  simp only [toList_fold, String.toList_append, foldChars_append]

namespace Schema

/-- The form of a value: its name in the style of Pascal, without capitals. -/
def EnumValue.form (value : EnumValue) : String :=
  Text.fold (Text.CaseStyle.pascal.apply value.name)

/-- The values of an enumeration with a form. -/
def EnumType.group (enumType : EnumType) (form : String) : List EnumValue :=
  enumType.values.filter fun value => value.form == form

theorem EnumType.length_group (enumType : EnumType) (form : String) :
    (enumType.group form).length = (enumType.values.map EnumValue.form).count form := by
  rw [List.count, List.countP_map, List.countP_eq_length_filter]
  rfl

end Schema

namespace Naming

open Text
open Schema (EnumType EnumValue)

/-! ### Plain and marked names -/

theorem plain_enumValue (name : String) :
    Rule.enumValue.plain name = CaseStyle.pascal.apply name := by
  simp [Rule.plain, Rule.enumValue]

theorem marked_enumValue (name : String) :
    Rule.enumValue.marked name = CaseStyle.pascal.apply name ++ "_" := by
  simp [Rule.marked, Rule.enumValue]

theorem fold_plain_enumValue (value : EnumValue) : fold (Rule.enumValue.plain value.name) = value.form := by
  rw [plain_enumValue, EnumValue.form]

theorem fold_marked_enumValue (value : EnumValue) :
    fold (Rule.enumValue.marked value.name) = value.form ++ "_" := by
  rw [marked_enumValue, fold_append, EnumValue.form]
  rfl

/-- The style of Pascal leaves no underscores, so a form has none. -/
theorem underscore_notMem_form (value : EnumValue) : '_' ∉ value.form.toList := by
  rw [EnumValue.form, toList_fold, underscore_mem_foldChars]
  exact notMem_apply_pascal isDivider_underscore value.name

/-- A marked name has the form of no value. -/
theorem form_ne_marked (value : EnumValue) (text : String) : value.form ≠ text ++ "_" := by
  intro same
  refine underscore_notMem_form value ?_
  rw [same, String.toList_append]
  exact List.mem_append_right _ (by decide)

/-! ### Occupied scopes -/

/-- A scope in which the names of each form are taken as often as the form occurs in a list: the plain
one from the first time on, and the marked one from the second time on. -/
structure Scope.Occupied (scope : Scope) (forms : List String) : Prop where
  plain : ∀ value : EnumValue,
    scope.contains (Rule.enumValue.plain value.name) false = true ↔ value.form ∈ forms
  marked : ∀ value : EnumValue,
    scope.contains (Rule.enumValue.marked value.name) false = true ↔ 2 ≤ forms.count value.form

theorem keywords_nodup : keywords.Nodup := by
  decide +kernel

/-- In the scope of the reserved words each of them is taken once. -/
theorem keywordScope_occupied : keywordScope.Occupied keywords := by
  have small : ∀ keyword ∈ keywords, fold keyword = keyword := by decide +kernel
  have unmarked : ∀ keyword ∈ keywords, '_' ∉ keyword.toList := by decide +kernel
  have taken (identifier : String) :
      keywordScope.contains identifier false = true ↔ fold identifier ∈ keywords := by
    rw [contains_iff_fold]
    constructor
    · rintro ⟨keyword, inside, same⟩
      rwa [← same, small keyword inside]
    · exact fun inside => ⟨fold identifier, inside, small _ inside⟩
  refine ⟨fun value => ?_, fun value => ?_⟩
  · rw [taken, fold_plain_enumValue]
  · rw [taken, fold_marked_enumValue]
    refine iff_of_false (fun inside => ?_) ?_
    · refine unmarked _ inside ?_
      rw [String.toList_append]
      exact List.mem_append_right _ (by decide)
    · have once := List.nodup_iff_count_le_one.mp keywords_nodup value.form
      omega

theorem contains_insert (scope : Scope) (identifier other : String) :
    (scope.insert identifier).contains other false = true ↔
      scope.contains other false = true ∨ fold identifier = fold other := by
  simp [contains_iff_fold, Scope.insert, or_and_right, exists_or]

section

variable {scope : Scope} {forms : List String} (occupied : scope.Occupied forms)

include occupied

/-- **The name of a value in an occupied scope**: the plain one, if the form does not occur, the marked
one, if it occurs once, and otherwise none. -/
theorem Scope.Occupied.generate_eq_ok_iff (value : EnumValue) {identifier : String} :
    scope.generate .enumValue [] value.name = .ok identifier ↔
      forms.count value.form < 2 ∧
        (if value.form ∈ forms then Rule.enumValue.marked value.name
          else Rule.enumValue.plain value.name) = identifier := by
  have collides (text : String) :
      scope.collides .enumValue [] text = scope.contains text false := by
    rw [Scope.collides, List.any_nil, Bool.or_false]
    rfl
  rw [Scope.generate, collides, collides]
  by_cases present : value.form ∈ forms
  · rw [(occupied.plain value).mpr present, if_pos present]
    by_cases twice : 2 ≤ forms.count value.form
    · rw [(occupied.marked value).mpr twice]
      exact iff_of_false (by simp) fun free => absurd free.1 (by omega)
    · have free := Bool.eq_false_iff.mpr fun taken => twice ((occupied.marked value).mp taken)
      simp [free, Nat.not_le.mp twice]
  · have free := Bool.eq_false_iff.mpr fun taken => present ((occupied.plain value).mp taken)
    simp [free, present, List.count_eq_zero.mpr present]

/-- **A claim adds the form of its value** to those that are taken, and leaves the other forms alone. -/
theorem Scope.Occupied.insert_generated {value : EnumValue} {identifier : String}
    (generated : scope.generate .enumValue [] value.name = .ok identifier) :
    (scope.insert identifier).Occupied (value.form :: forms) := by
  obtain ⟨free, rfl⟩ := (occupied.generate_eq_ok_iff value).mp generated
  by_cases present : value.form ∈ forms
  · rw [if_pos present]
    refine ⟨fun other => ?_, fun other => ?_⟩
    · rw [contains_insert, occupied.plain, fold_marked_enumValue, fold_plain_enumValue, List.mem_cons,
        or_iff_left (form_ne_marked other value.form).symm]
      refine ⟨.inr, ?_⟩
      rintro (same | held)
      · rwa [same]
      · exact held
    · have occurs := List.one_le_count_iff.mpr present
      rw [contains_insert, occupied.marked, fold_marked_enumValue, fold_marked_enumValue,
        String.append_left_inj]
      by_cases same : value.form = other.form
      · rw [← same, List.count_cons_self]
        exact iff_of_true (.inr rfl) (by omega)
      · rw [List.count_cons_of_ne same, or_iff_left same]
  · rw [if_neg present]
    refine ⟨fun other => ?_, fun other => ?_⟩
    · rw [contains_insert, occupied.plain, fold_plain_enumValue, fold_plain_enumValue, List.mem_cons,
        or_comm, eq_comm]
    · have absent := List.count_eq_zero.mpr present
      rw [contains_insert, occupied.marked, fold_plain_enumValue, fold_marked_enumValue,
        or_iff_left (form_ne_marked value other.form)]
      by_cases same : value.form = other.form
      · rw [← same, List.count_cons_self]
        omega
      · rw [List.count_cons_of_ne same]

end

end Naming

open Naming Pascal Text
open Schema (EnumType EnumValue)

/-! ### Lists of values -/

/-- The declared value for a value that comes after the given forms. -/
def memberAfter (forms : List String) (value : EnumValue) : EnumMember :=
  { name := if value.form ∈ forms then Rule.enumValue.marked value.name
      else Rule.enumValue.plain value.name
    ordinal := value.number }

/-- The declared values for a list of values that comes after the given forms. -/
def membersAfter (forms : List String) : List EnumValue → List EnumMember
  | [] => []
  | value :: rest => memberAfter forms value :: membersAfter (value.form :: forms) rest

/-- The declared value at a position depends on the forms before the position. -/
theorem getElem?_membersAfter (forms : List String) (values : List EnumValue) (position : Nat) :
    (membersAfter forms values)[position]? = values[position]?.map fun value =>
      memberAfter ((values.take position).map EnumValue.form ++ forms) value := by
  induction values generalizing forms position with
  | nil => rfl
  | cons first rest ih =>
    cases position with
    | zero => rfl
    | succ position =>
      rw [membersAfter, List.getElem?_cons_succ, List.getElem?_cons_succ, ih]
      refine congrArg (Option.map · _) (funext fun value => ?_)
      simp [memberAfter, or_left_comm]

theorem length_membersAfter (forms : List String) (values : List EnumValue) :
    (membersAfter forms values).length = values.length := by
  induction values generalizing forms with
  | nil => rfl
  | cons value rest ih => rw [membersAfter, List.length_cons, ih, List.length_cons]

theorem runIn_claimEnumMember {value : EnumValue} {member : EnumMember} {scope final : Scope} :
    (claimEnumMember value).runIn scope = (.ok member, final) ↔
      scope.generate .enumValue [] value.name = .ok member.name ∧
        member.ordinal = value.number ∧ final = scope.insert member.name := by
  simp only [claimEnumMember, runIn_bind_eq_ok, runIn_claim_eq_ok, runIn_pure, Prod.mk.injEq,
    Except.ok.injEq]
  constructor
  · rintro ⟨name, middle, ⟨generated, rfl⟩, rfl, rfl⟩
    exact ⟨generated, rfl, rfl⟩
  · rintro ⟨generated, same, rfl⟩
    exact ⟨member.name, _, ⟨generated, rfl⟩, by rw [← same], rfl⟩

/-- **Exactly when all values of a list get names**: no form occurs more than twice, those that are taken
counted as well. -/
theorem runIn_mapM_enumMembers {scope : Scope} {forms : List String} (occupied : scope.Occupied forms)
    {values : List EnumValue} {members : List EnumMember} :
    (∃ final, (values.mapM claimEnumMember).runIn scope = (.ok members, final)) ↔
      (∀ value ∈ values, forms.count value.form + (values.map EnumValue.form).count value.form ≤ 2) ∧
        members = membersAfter forms values := by
  induction values generalizing scope forms members with
  | nil => simp [membersAfter]
  | cons value rest ih =>
    -- The first value gets its name if its form occurs at most once before it, and then counts for the
    -- values behind it.
    have counts : (∀ other ∈ value :: rest,
        forms.count other.form + ((value :: rest).map EnumValue.form).count other.form ≤ 2) ↔
          forms.count value.form < 2 ∧ ∀ other ∈ rest,
            (value.form :: forms).count other.form + (rest.map EnumValue.form).count other.form ≤ 2 := by
      simp only [List.map_cons, List.count_cons, List.forall_mem_cons, beq_self_eq_true, if_true]
      constructor
      · rintro ⟨first, others⟩
        exact ⟨by omega, fun other inside => by have := others other inside; omega⟩
      · rintro ⟨free, others⟩
        refine ⟨?_, fun other inside => by have := others other inside; omega⟩
        by_cases again : value.form ∈ rest.map EnumValue.form
        · obtain ⟨other, inside, same⟩ := List.mem_map.mp again
          have := others other inside
          rw [same, if_pos (beq_self_eq_true _)] at this
          omega
        · rw [List.count_eq_zero.mpr again]
          omega
    rw [counts, and_assoc]
    constructor
    · rintro ⟨final, computed⟩
      obtain ⟨first, middle, others, head, tail, rfl⟩ := runIn_mapM_cons_eq_ok.mp computed
      obtain ⟨generated, ordinal, rfl⟩ := runIn_claimEnumMember.mp head
      obtain ⟨free, name⟩ := (occupied.generate_eq_ok_iff value).mp generated
      obtain ⟨bounded, rfl⟩ := (ih (occupied.insert_generated generated)).mp ⟨final, tail⟩
      refine ⟨free, bounded, congrArg (· :: _) ?_⟩
      rw [memberAfter, name, ← ordinal]
    · rintro ⟨free, bounded, rfl⟩
      have generated := (occupied.generate_eq_ok_iff value).mpr ⟨free, rfl⟩
      obtain ⟨final, tail⟩ := (ih (occupied.insert_generated generated)).mpr ⟨bounded, rfl⟩
      exact ⟨final, runIn_mapM_cons_eq_ok.mpr ⟨memberAfter forms value, _, _,
        runIn_claimEnumMember.mpr ⟨generated, rfl, rfl⟩, tail, rfl⟩⟩

/-! ### Enumerations -/

/-- A declaration has the values of an enumeration in order, with their numbers, under names that tell
them apart, and stands under a name of its own. -/
structure Represents (declaration : EnumDeclaration) (enumType : EnumType) : Prop where
  length_eq : declaration.values.length = enumType.values.length
  /-- The first value of a form that is no reserved word gets its name in the style of Pascal. The others
  get this name with a mark. -/
  value : ∀ position value, enumType.values[position]? = some value →
    ∃ member, declaration.values[position]? = some member ∧ member.ordinal = value.number ∧
      member.name =
        if value.form ∉ keywords ∧ ∀ earlier ∈ enumType.values.take position, earlier.form ≠ value.form
        then CaseStyle.pascal.apply value.name else CaseStyle.pascal.apply value.name ++ "_"
  apart : Apart (declaration.values.map EnumMember.name)
  unreserved : ∀ member ∈ declaration.values, Unreserved member.name
  typeName : ∀ reserved ∈ reservedTypes, fold reserved ≠ fold declaration.name

/-- The values of a declared enumeration have names that extend the scope of the reserved words. -/
theorem enumMembers_extends {values : List EnumValue} {members : List EnumMember} {scope final : Scope}
    (claimed : (values.mapM claimEnumMember).runIn scope = (.ok members, final)) :
    scope.Extends (members.map EnumMember.name) final := by
  have granted := runIn_mapM_grants valueRequests (fun member => [member.name])
    (fun _ _ _ _ => enumMember_granted) claimed
  rw [← List.map_eq_flatMap] at granted
  refine granted.extends (List.forall_mem_flatMap.mpr fun value _ => ?_)
  exact List.forall_mem_singleton.mpr rfl

/-- An enumeration is declared exactly if it and its values get names. -/
theorem enumDeclaration_eq_ok {enumType : EnumType} {declaration : EnumDeclaration} :
    enumDeclaration enumType = .ok declaration ↔
      typeIdentifier enumType.name = .ok declaration.name ∧
      (enumType.values.mapM claimEnumMember).resultIn keywordScope = .ok declaration.values ∧
      declaration.comment = summaryComment ("Protobuf enum <c>" ++ enumType.name ++ "</c>.") := by
  simp only [enumDeclaration, bind_eq_ok, pure_eq_ok]
  constructor
  · rintro ⟨name, named, values, claimed, rfl⟩
    exact ⟨named, claimed, rfl⟩
  · rintro ⟨named, claimed, comment⟩
    exact ⟨_, named, _, claimed, by rw [← comment]⟩

/-- No form occurs more than twice among the reserved words and the forms of the values exactly if the
groups of values are small, those of reserved words smaller. -/
theorem forms_bounded_iff (enumType : EnumType) :
    (∀ value ∈ enumType.values,
      keywords.count value.form + (enumType.values.map EnumValue.form).count value.form ≤ 2) ↔
    ∀ form, (enumType.group form).length ≤ 2 ∧
      (form ∈ keywords → (enumType.group form).length ≤ 1) := by
  simp only [EnumType.length_group]
  constructor
  · intro bounded form
    by_cases occurs : form ∈ enumType.values.map EnumValue.form
    · obtain ⟨value, inside, rfl⟩ := List.mem_map.mp occurs
      have bound := bounded value inside
      refine ⟨by omega, fun reserved => ?_⟩
      have once := List.one_le_count_iff.mpr reserved
      omega
    · rw [List.count_eq_zero.mpr occurs]
      exact ⟨Nat.zero_le _, fun _ => Nat.zero_le _⟩
  · intro small value _
    obtain ⟨two, one⟩ := small value.form
    by_cases reserved : value.form ∈ keywords
    · have once := List.nodup_iff_count_le_one.mp keywords_nodup value.form
      have single := one reserved
      omega
    · rw [List.count_eq_zero.mpr reserved]
      omega

/-- A declared enumeration is represented by its declaration. -/
theorem represents_of_enumDeclaration {enumType : EnumType} {declaration : EnumDeclaration}
    (declared : enumDeclaration enumType = .ok declaration) : Represents declaration enumType := by
  obtain ⟨named, claimed, -⟩ := enumDeclaration_eq_ok.mp declared
  obtain ⟨final, claimed⟩ := resultIn_eq_ok.mp claimed
  have extended := enumMembers_extends claimed
  obtain ⟨-, members⟩ := (runIn_mapM_enumMembers keywordScope_occupied).mp ⟨final, claimed⟩
  exact {
    length_eq := by rw [members, length_membersAfter]
    value := by
      intro position value found
      rw [members, getElem?_membersAfter, found]
      refine ⟨_, rfl, rfl, ?_⟩
      dsimp only [memberAfter]
      rw [plain_enumValue, marked_enumValue, ← ite_not]
      refine if_congr ?_ rfl rfl
      rw [List.mem_append, not_or, and_comm, List.mem_map]
      simp only [not_exists, not_and, ne_eq]
    apart := extended.apart
    unreserved := fun member inside keyword reserved =>
      extended.fresh member.name (List.mem_map_of_mem inside) keyword reserved
    typeName := fun reserved inside =>
      fold_ne_of_generate rfl named reserved (List.mem_append_right _ inside) }

/-- **Exactly when an enumeration is declared, and how.** Among the values of one form there are at most two,
and at most one if the form is a reserved word. Then the declaration has all values in order, with their
numbers and with names that tell them apart. The first value of a form has its name in the style of Pascal,
unless that is a reserved word, and the others have a mark. The name of the type is none of a reserved type.
It has the shape of a case type exactly if the name of the enumeration hides a case, which an ASCII name
does if it ends with the word for a case and a capital in front of that does not open a word. -/
theorem enumeration_declared_iff (enumType : EnumType) :
    ((∃ declaration, enumDeclaration enumType = .ok declaration) ↔
      ∀ form, (enumType.group form).length ≤ 2 ∧
        (form ∈ keywords → (enumType.group form).length ≤ 1)) ∧
    ∀ declaration, enumDeclaration enumType = .ok declaration →
      Represents declaration enumType ∧
      (Rule.caseType.CanBuild declaration.name ↔ HidesCase enumType.name) ∧
      (Ascii enumType.name → (Rule.caseType.CanBuild declaration.name ↔
        ∃ inner tail, styled enumType.name = inner ++ tail ∧ inner ≠ [] ∧
          foldChars tail = "case".toList ∧ ¬ CapitalsOpenWords inner)) := by
  constructor
  · rw [← forms_bounded_iff]
    constructor
    · rintro ⟨declaration, declared⟩
      obtain ⟨-, claimed, -⟩ := enumDeclaration_eq_ok.mp declared
      exact ((runIn_mapM_enumMembers keywordScope_occupied).mp (resultIn_eq_ok.mp claimed)).1
    · intro bounded
      obtain ⟨name, named⟩ : ∃ name, typeIdentifier enumType.name = .ok name :=
        ⟨_, typeIdentifier_eq enumType.name⟩
      have claimed := (runIn_mapM_enumMembers keywordScope_occupied).mpr ⟨bounded, rfl⟩
      exact ⟨{ name, values := membersAfter keywords enumType.values, comment := _ },
        enumDeclaration_eq_ok.mpr ⟨named, resultIn_eq_ok.mpr claimed, rfl⟩⟩
  · intro declaration declared
    have named := canBuild_typeIdentifier_iff (enumDeclaration_eq_ok.mp declared).1
    exact ⟨represents_of_enumDeclaration declared, named,
      fun ascii => named.trans (hidesCase_iff_of_ascii ascii)⟩

/-- An enumeration with two values of one form, a value whose form is a reserved word, and one without
letters and digits. -/
def modeEnum : EnumType :=
  { name := "Mode"
    values := [{ name := "MODE_A", number := 0 }, { name := "END", number := -1 },
      { name := "mode_a", number := 7 }, { name := "_", number := 2 }] }

/-- The values of this enumeration are declared, and its name is not that of a case type. Under another
name it is. With a third value of a form, or a second one whose form is a reserved word, there is no
declaration. -/
theorem mode_declared :
    (∃ declaration, enumDeclaration modeEnum = .ok declaration ∧
      declaration.values.map EnumMember.name = ["ModeA", "End_", "ModeA_", ""] ∧
      Represents declaration modeEnum ∧ ¬ Rule.caseType.CanBuild declaration.name) ∧
    (∃ declaration, enumDeclaration { modeEnum with name := "a_b_case" } = .ok declaration ∧
      Rule.caseType.CanBuild declaration.name) ∧
    (¬ ∃ declaration, enumDeclaration { modeEnum with
      values := modeEnum.values ++ [{ name := "ModeA", number := 3 }] } = .ok declaration) ∧
    ¬ ∃ declaration, enumDeclaration { modeEnum with
      values := modeEnum.values ++ [{ name := "end", number := 3 }] } = .ok declaration := by
  have evaluated : (do
      let declaration ← enumDeclaration modeEnum
      return declaration.values.map EnumMember.name) = .ok ["ModeA", "End_", "ModeA_", ""] := by
    decide +kernel
  obtain ⟨declaration, declared, names⟩ := bind_eq_ok.mp evaluated
  refine ⟨?_, ?_, fun declared => ?_, fun declared => ?_⟩
  · obtain ⟨represents, -, shape⟩ := (enumeration_declared_iff modeEnum).2 declaration declared
    refine ⟨declaration, declared, pure_eq_ok.mp names, represents, ?_⟩
    rw [shape (by decide)]
    rintro ⟨inner, tail, joined, filled, trails, -⟩
    -- The name has four letters, and the word for a case leaves none of them.
    have form : (styled modeEnum.name).length = 4 := by decide +kernel
    have short : tail.length = 4 := by
      rw [← List.length_map Char.toLower]
      exact congrArg List.length trails
    rw [joined, List.length_append, short] at form
    exact filled (List.length_eq_zero_iff.mp (by omega))
  · obtain ⟨renamed, declared⟩ : ∃ renamed,
        enumDeclaration { modeEnum with name := "a_b_case" } = .ok renamed :=
      (enumeration_declared_iff _).1.mpr ((enumeration_declared_iff modeEnum).1.mp ⟨_, declared⟩)
    obtain ⟨-, -, shape⟩ := (enumeration_declared_iff _).2 renamed declared
    refine ⟨renamed, declared, (shape (by decide)).mpr ⟨['A', 'B'], "Case".toList,
      by decide +kernel, by decide, by decide +kernel, fun opens => ?_⟩⟩
    obtain ⟨letter, last, small | small⟩ := opens ['A'] 'B' [] rfl (by decide) rfl
    · cases last
      exact absurd small (by decide)
    · exact absurd small (by decide)
  · have small := ((enumeration_declared_iff _).1.mp declared "modea").1
    revert small
    decide +kernel
  · have small := ((enumeration_declared_iff _).1.mp declared "end").2 (by decide +kernel)
    revert small
    decide +kernel

/-- **The enumeration `a_b_case` is named like a case type**, that of a oneof `a_b`. -/
theorem enumeration_named_like_case_type :
    ∃ declaration, enumDeclaration
        { name := "a_b_case", values := [{ name := "ZERO", number := 0 }] } = .ok declaration ∧
      declaration.name = "TABCase" ∧ declaration.name = Rule.caseType.plain "a_b" ∧
      Rule.caseType.CanBuild declaration.name := by
  have evaluated : (do
      let declaration ← enumDeclaration
        { name := "a_b_case", values := [{ name := "ZERO", number := 0 }] }
      return declaration.name) = .ok "TABCase" := by
    decide +kernel
  obtain ⟨declaration, declared, named⟩ := bind_eq_ok.mp evaluated
  rw [pure_eq_ok] at named
  have form : Rule.caseType.style.apply "a_b" = "AB" := by decide +kernel
  refine ⟨declaration, declared, named, named.trans (by decide +kernel), "a_b", ?_, "T", "Case", ?_,
    rfl, rfl⟩
  · rw [form]
    decide
  · rw [named, form]
    rfl

end ProtoPascal
