import Mathlib.Tactic.MkIffOfInductiveProp
import ProtoPascal.Proofs.OutputPaths
import ProtoPascal.Proofs.RuleShapes

/-!
Names as identifiers of Pascal. An identifier starts with a letter or an underscore, and letters, digits
and underscores follow. A naming rule that begins with a fixed text always builds identifiers from names
that are identifiers themselves. A rule without a fixed text does so exactly if the first letter or digit
of the name is a letter: the words of a name leave out its underscores, so what stands behind them comes
first.

* `isIdentifier_iff`: what an identifier is, said character by character;
* `flatten_words`: the words of a name are its letters and digits;
* `generate_isIdentifier_iff`: when a rule builds an identifier;
* `Scope.Grants.legalFrom`: when all names that a scope grants are identifiers.
-/

namespace ProtoPascal.Text

/-! ### Identifiers -/

/-- Whether a character may stand in an identifier: a letter, a digit or an underscore. -/
def isWordCharacter (character : Char) : Bool :=
  character.isAlphanum || character == '_'

/-- A text of letters, digits and underscores. -/
def Spelled (name : String) : Prop :=
  ∀ character ∈ name.toList, isWordCharacter character = true

instance (name : String) : Decidable (Spelled name) :=
  decidable_of_iff (name.toList.all isWordCharacter = true) List.all_eq_true

/-- Whether a text is an identifier: a letter or an underscore, followed by letters, digits and
underscores. -/
def isIdentifier (name : String) : Bool :=
  match name.toList with
  | [] => false
  | first :: rest => (first.isAlpha || first == '_') && rest.all isWordCharacter

/-- Whether the first letter or digit of a name is there and is a letter. -/
def startsWithLetter (name : String) : Bool :=
  (name.toList.find? Char.isAlphanum).any Char.isAlpha

theorem spelled_append {left right : String} :
    Spelled (left ++ right) ↔ Spelled left ∧ Spelled right := by
  simp only [Spelled, String.toList_append, List.forall_mem_append]

/-- What follows the first letter or digit of a name does not matter. -/
theorem startsWithLetter_append {left : String} (starts : startsWithLetter left = true)
    (right : String) : startsWithLetter (left ++ right) = true := by
  unfold startsWithLetter at starts ⊢
  obtain ⟨first, found, letter⟩ := (Option.any_eq_true _ _).mp starts
  rw [String.toList_append, List.find?_append, found]
  exact letter

theorem toNat_lt_of_isWordCharacter {character : Char} (word : isWordCharacter character = true) :
    character.toNat < 128 := by
  have upper : 'Z'.val.toNat = 90 := rfl
  have lower : 'z'.val.toNat = 122 := rfl
  have digit : '9'.val.toNat = 57 := rfl
  rw [isWordCharacter, Bool.or_eq_true, beq_iff_eq] at word
  rcases word with alphanumeric | rfl
  · delta Char.isAlphanum Char.isAlpha Char.isUpper Char.isLower Char.isDigit at alphanumeric
    simp only [Bool.or_eq_true, Bool.and_eq_true, decide_eq_true_eq, UInt32.le_iff_toNat_le, ge_iff_le]
      at alphanumeric
    show character.val.toNat < 128
    omega
  · decide

/-- What may stand in an identifier is among the first 128 characters. -/
theorem of_isWordCharacter (property : Char → Prop)
    (each : ∀ code < 128, isWordCharacter (Char.ofNat code) = true → property (Char.ofNat code))
    {character : Char} (word : isWordCharacter character = true) : property character := by
  have holds := each character.toNat (toNat_lt_of_isWordCharacter word)
  rw [Char.ofNat_toNat] at holds
  exact holds word

/-- A letter is no digit, nor is an underscore. -/
theorem isAlpha_or_underscore_iff {character : Char} :
    (character.isAlpha || character == '_') = true ↔
      isWordCharacter character = true ∧ character.isDigit = false := by
  have each (word : isWordCharacter character = true) :
      (character.isAlpha || character == '_') = true ↔ character.isDigit = false :=
    of_isWordCharacter (fun character => (character.isAlpha || character == '_') = true ↔
      character.isDigit = false) (by decide +kernel) word
  constructor
  · intro starts
    have word : isWordCharacter character = true := by
      unfold isWordCharacter Char.isAlphanum
      grind
    exact ⟨word, (each word).mp starts⟩
  · rintro ⟨word, digitless⟩
    exact (each word).mpr digitless

/-- **What an identifier is**: it is not empty, it consists of letters, digits and underscores, and it
does not start with a digit. -/
theorem isIdentifier_iff {name : String} :
    isIdentifier name = true ↔
      Spelled name ∧ ∃ first, name.toList.head? = some first ∧ first.isDigit = false := by
  unfold isIdentifier Spelled
  cases name.toList with
  | nil => simp
  | cons first rest =>
    rw [Bool.and_eq_true, isAlpha_or_underscore_iff, List.all_eq_true, List.forall_mem_cons]
    simp only [List.head?_cons, Option.some.injEq, exists_eq_left']
    tauto

/-- What follows an identifier need not start like one. -/
theorem isIdentifier_append {left right : String} (filled : left ≠ "") :
    isIdentifier (left ++ right) = true ↔ isIdentifier left = true ∧ Spelled right := by
  have some_character : left.toList ≠ [] := fun empty => filled (String.toList_inj.mp empty)
  rw [isIdentifier_iff, isIdentifier_iff, spelled_append, String.toList_append,
    List.head?_append_of_ne_nil _ some_character]
  tauto

/-! ### Words of letters and digits -/

theorem flatten_piecesBy (divides : Char → Bool) (characters : List Char) :
    (piecesBy divides characters).flatten = characters.filter fun character => !divides character := by
  induction characters with
  | nil => rfl
  | cons character rest ih =>
    rw [piecesBy]
    by_cases divided : divides character = true
    · rw [if_pos divided, List.flatten_cons, ih, List.filter_cons_of_neg (by simp [divided])]
      rfl
    · obtain ⟨piece, pieces, found⟩ := List.exists_cons_of_ne_nil (piecesBy_ne_nil divides rest)
      rw [found, List.flatten_cons] at ih
      rw [if_neg divided, found, List.filter_cons_of_pos (by simp [divided]), ← ih]
      rfl

/-- **The words of a name are its letters and digits**, in order. -/
theorem flatten_words (characters : List Char) :
    (words characters).flatten = characters.filter isAlphanumeric := by
  have run (piece : List Char) : (caseWords piece).flatten = piece := by
    cases piece with
    | nil => rfl
    | cons first rest => exact flatten_caseWordsFrom (List.cons_ne_nil _ _)
  have pieces := flatten_piecesBy (fun character => !isAlphanumeric character) characters
  simp only [Bool.not_not] at pieces
  rw [words, List.flatMap, List.flatten_flatten, List.map_map, ← pieces]
  exact congrArg List.flatten ((List.map_congr_left fun piece _ => run piece).trans (List.map_id _))

/-- What the tables of characters say of letters, digits and underscores: the same as the ranges of
letters and digits, and no change of case leads out of these ranges. -/
@[mk_iff]
structure Tabulated (character : Char) : Prop where
  alphanumeric : isAlphanumeric character = character.isAlphanum
  upper : character.isAlphanum = true →
    (upperCase character).all Char.isAlphanum = true ∧
      (upperCase character).head?.any Char.isAlpha = character.isAlpha
  lower : character.isAlphanum = true → (lowerCase character).all Char.isAlphanum = true

instance (character : Char) : Decidable (Tabulated character) :=
  decidable_of_iff _ (tabulated_iff character).symm

theorem tabulated {character : Char} (word : isWordCharacter character = true) :
    Tabulated character :=
  of_isWordCharacter Tabulated (by decide +kernel) word

theorem isWordCharacter_of_isAlphanum {character : Char} (alphanumeric : character.isAlphanum = true) :
    isWordCharacter character = true := by
  rw [isWordCharacter, alphanumeric, Bool.true_or]

theorem isAlphanum_lowerTail {characters : List Char}
    (alphanumeric : ∀ character ∈ characters, character.isAlphanum = true) :
    ∀ character ∈ lowerTail characters, character.isAlphanum = true := by
  fun_induction lowerTail characters with
  | case1 => exact alphanumeric
  | case2 => exact absurd (alphanumeric 'Σ' (List.mem_singleton_self _)) (by decide)
  | case3 first rest _ ih =>
    rw [List.forall_mem_cons] at alphanumeric
    have table := tabulated (isWordCharacter_of_isAlphanum alphanumeric.1)
    rw [List.forall_mem_append]
    exact ⟨List.all_eq_true.mp (table.lower alphanumeric.1), ih alphanumeric.2⟩

theorem isAlphanum_capitalize {word : List Char}
    (alphanumeric : ∀ character ∈ word, character.isAlphanum = true) :
    ∀ character ∈ capitalize word, character.isAlphanum = true := by
  cases word with
  | nil => exact alphanumeric
  | cons first rest =>
    rw [List.forall_mem_cons] at alphanumeric
    have table := tabulated (isWordCharacter_of_isAlphanum alphanumeric.1)
    rw [capitalize, List.forall_mem_append]
    exact ⟨List.all_eq_true.mp (table.upper alphanumeric.1).1, isAlphanum_lowerTail alphanumeric.2⟩

theorem isAlphanum_capitals {word : List Char}
    (alphanumeric : ∀ character ∈ word, character.isAlphanum = true) :
    ∀ character ∈ capitals word, character.isAlphanum = true := by
  rw [capitals, List.forall_mem_flatMap]
  intro character inside
  have table := tabulated (isWordCharacter_of_isAlphanum (alphanumeric character inside))
  exact List.all_eq_true.mp (table.upper (alphanumeric character inside)).1

/-- Capitalised words start as the first of them does. -/
theorem head_flatMap_capitalize {texts : List (List Char)}
    (alphanumeric : ∀ word ∈ texts, ∀ character ∈ word, character.isAlphanum = true) :
    (texts.flatMap capitalize).head?.any Char.isAlpha = texts.flatten.head?.any Char.isAlpha := by
  induction texts with
  | nil => rfl
  | cons word rest ih =>
    rw [List.forall_mem_cons] at alphanumeric
    cases word with
    | nil => exact ih alphanumeric.2
    | cons first others =>
      have letter := alphanumeric.1 first (List.mem_cons_self ..)
      have table := tabulated (isWordCharacter_of_isAlphanum letter)
      rw [List.flatMap_cons, capitalize, List.append_assoc,
        List.head?_append_of_ne_nil _ (upperCase_ne_nil first), (table.upper letter).2]
      rfl

theorem isWordCharacter_intercalate {texts : List (List Char)}
    (spelled : ∀ text ∈ texts, ∀ character ∈ text, isWordCharacter character = true) :
    ∀ character ∈ ['_'].intercalate texts, isWordCharacter character = true := by
  induction texts with
  | nil => exact fun _ impossible => absurd impossible List.not_mem_nil
  | cons text rest ih =>
    rw [List.forall_mem_cons] at spelled
    cases rest with
    | nil => simpa using spelled.1
    | cons next others =>
      rw [List.intercalate_cons_cons, List.forall_mem_append, List.forall_mem_append]
      exact ⟨⟨spelled.1, List.forall_mem_singleton.mpr rfl⟩, ih spelled.2⟩

section

variable {name : String} (spelled : Spelled name)

include spelled

theorem isAlphanum_of_mem_words {word : List Char} (inside : word ∈ words name.toList) :
    ∀ character ∈ word, character.isAlphanum = true := by
  intro character here
  have kept : character ∈ (words name.toList).flatten := List.mem_flatten.mpr ⟨word, inside, here⟩
  rw [flatten_words, List.mem_filter] at kept
  rw [← (tabulated (spelled character kept.1)).alphanumeric]
  exact kept.2

/-- In the style of Pascal only letters and digits of a name are left. -/
theorem isAlphanum_apply_pascal :
    ∀ character ∈ (CaseStyle.pascal.apply name).toList, character.isAlphanum = true := by
  rw [CaseStyle.apply, String.toList_ofList, CaseStyle.applyChars, List.forall_mem_flatMap]
  intro word found
  exact isAlphanum_capitalize (isAlphanum_of_mem_words spelled found)

/-- **A name of letters, digits and underscores stays one in every style.** -/
theorem spelled_apply (style : CaseStyle) : Spelled (style.apply name) := by
  intro character inside
  cases style with
  | pascal => exact isWordCharacter_of_isAlphanum (isAlphanum_apply_pascal spelled character inside)
  | screamingSnake =>
    rw [CaseStyle.apply, String.toList_ofList] at inside
    refine isWordCharacter_intercalate ?_ character inside
    rw [List.forall_mem_map]
    intro word found letter here
    exact isWordCharacter_of_isAlphanum
      (isAlphanum_capitals (isAlphanum_of_mem_words spelled found) letter here)
  | verbatim =>
    rw [CaseStyle.apply, String.toList_ofList] at inside
    exact spelled character inside

/-- **In the style of Pascal a name is an identifier exactly if its first letter or digit is a
letter.** -/
theorem isIdentifier_apply_pascal :
    isIdentifier (CaseStyle.pascal.apply name) = true ↔ startsWithLetter name = true := by
  have found : name.toList.find? isAlphanumeric = name.toList.find? Char.isAlphanum := by
    rw [← List.head?_filter, ← List.head?_filter]
    exact congrArg List.head? (List.filter_congr fun character inside =>
      (tabulated (spelled character inside)).alphanumeric)
  have head := head_flatMap_capitalize fun word inside => isAlphanum_of_mem_words spelled inside
  rw [flatten_words, List.head?_filter, found] at head
  have start : startsWithLetter name =
      (CaseStyle.pascal.apply name).toList.head?.any Char.isAlpha := by
    rw [startsWithLetter, ← head, CaseStyle.apply, String.toList_ofList, CaseStyle.applyChars]
  rw [isIdentifier_iff, and_iff_right (spelled_apply spelled .pascal), start, Option.any_eq_true]
  refine exists_congr fun first => and_congr_right fun starts => ?_
  have alphanumeric := isAlphanum_apply_pascal spelled first (List.mem_of_head? starts)
  have digitless (letter : first.isAlpha = true) : first.isDigit = false :=
    (isAlpha_or_underscore_iff.mp (by rw [letter, Bool.true_or])).2
  rw [Char.isAlphanum, Bool.or_eq_true] at alphanumeric
  grind

end

end ProtoPascal.Text

namespace ProtoPascal.Naming

open Text

/-! ### Identifiers of a rule -/

/-- What the rules for the names of a unit have in common: their fixed texts consist of letters, digits
and underscores, and where no fixed text stands before the name, the name is in the style of Pascal and
none stands after it. -/
@[mk_iff]
structure Rule.Regular (rule : Rule) : Prop where
  led : rule.lead ≠ "" → isIdentifier rule.lead = true
  bare : rule.lead = "" → rule.style = .pascal ∧ rule.trail = ""
  trail : Spelled rule.trail
  mark : Spelled rule.retryMark
  insensitive : rule.caseSensitive = false

instance (rule : Rule) : Decidable rule.Regular :=
  decidable_of_iff _ (rule.regular_iff).symm

/-- The rules for the names of a unit. -/
def vocabulary : List Rule :=
  [.backingField, .property, .getter, .setter, .presence, .presenceGetter, .presenceSetter, .fieldNumber,
    .fieldName, .typeName, .caseType, .caseValue, .enumValue, .unitName, .namespaceSegment]

theorem vocabulary_regular : ∀ rule ∈ vocabulary, rule.Regular := by
  decide

theorem couldProduce_empty (rule : Rule) : rule.couldProduce "" = false := by
  by_contra shaped
  rw [Bool.not_eq_false, couldProduce_iff] at shaped
  obtain ⟨head, inner, tail, joined, -, -, filled, -⟩ := shaped
  have nothing : [] = head ++ (inner ++ tail) := joined
  simp [filled] at nothing

section

variable {scope : Scope} {rule : Rule} {colliding : List Rule} {core identifier : String}

/-- **An identifier of a regular rule consists of letters, digits and underscores**, if the name does. -/
theorem spelled_of_generate (regular : rule.Regular) (spelled : Spelled core)
    (generated : scope.generate rule colliding core = .ok identifier) : Spelled identifier := by
  have lead : Spelled rule.lead := by
    by_cases bare : rule.lead = ""
    · rw [bare]
      decide
    · exact (isIdentifier_iff.mp (regular.led bare)).1
  have styled := spelled_apply spelled rule.style
  obtain ⟨-, rfl | rfl⟩ := generate_eq_ok generated
  · simp only [Rule.plain, spelled_append]
    exact ⟨⟨lead, styled⟩, regular.trail⟩
  · simp only [Rule.marked, spelled_append]
    exact ⟨⟨⟨lead, styled⟩, regular.mark⟩, regular.trail⟩

/-- A rule with a fixed text before the name builds identifiers from all names. -/
theorem isIdentifier_of_lead (regular : rule.Regular) (spelled : Spelled core) (led : rule.lead ≠ "")
    (generated : scope.generate rule colliding core = .ok identifier) :
    isIdentifier identifier = true := by
  have styled := spelled_apply spelled rule.style
  obtain ⟨-, rfl | rfl⟩ := generate_eq_ok generated
  · rw [Rule.plain, String.append_assoc, isIdentifier_append led, spelled_append]
    exact ⟨regular.led led, styled, regular.trail⟩
  · rw [Rule.marked, String.append_assoc, String.append_assoc, isIdentifier_append led, spelled_append,
      spelled_append]
    exact ⟨regular.led led, styled, regular.mark, regular.trail⟩

/-- A name without words gets the empty text, where this is not taken. -/
theorem generate_wordless (bare : rule.lead = "") (regular : rule.Regular)
    (unempty : "" ∉ scope.taken) (wordless : CaseStyle.pascal.apply core = "")
    (generated : scope.generate rule colliding core = .ok identifier) : identifier = "" := by
  have plain : rule.plain core = "" := by
    rw [Rule.plain, bare, (regular.bare bare).1, (regular.bare bare).2, wordless]
    rfl
  have free : scope.contains "" false = false := by
    by_contra taken
    rw [Bool.not_eq_false, contains_iff_fold] at taken
    obtain ⟨name, inside, same⟩ := taken
    have empty : name = "" := by
      rw [← String.toList_inj]
      simpa [foldChars] using (fold_eq_iff name "").mp same
    exact unempty (empty ▸ inside)
  have open_plain : scope.collides rule colliding "" = false := by
    rw [Scope.collides, regular.insensitive, free, Bool.false_or, List.any_eq_false]
    exact fun other _ shaped => Bool.false_ne_true ((couldProduce_empty other).symm.trans shaped)
  rw [Scope.generate, plain, open_plain, Bool.not_false, if_pos rfl, Except.ok.injEq] at generated
  exact generated.symm

/-- A rule without a fixed text before the name builds an identifier exactly if the style of Pascal does,
since a mark behind the name does not change its start. -/
theorem isIdentifier_of_bare (bare : rule.lead = "") (regular : rule.Regular)
    (unempty : "" ∉ scope.taken)
    (generated : scope.generate rule colliding core = .ok identifier) :
    isIdentifier identifier = true ↔ isIdentifier (CaseStyle.pascal.apply core) = true := by
  by_cases wordless : CaseStyle.pascal.apply core = ""
  · rw [generate_wordless bare regular unempty wordless generated, wordless]
  · obtain ⟨style, trail⟩ := regular.bare bare
    obtain ⟨-, rfl | rfl⟩ := generate_eq_ok generated
    · rw [Rule.plain, bare, style, trail, String.empty_append, String.append_empty]
    · rw [Rule.marked, bare, style, trail, String.empty_append, String.append_empty,
        isIdentifier_append wordless]
      exact and_iff_left regular.mark

/-- **When a rule builds an identifier**: always, if a fixed text stands before the name, and otherwise
exactly if the first letter or digit of the name is a letter. -/
theorem generate_isIdentifier_iff (regular : rule.Regular) (spelled : Spelled core)
    (unempty : "" ∉ scope.taken)
    (generated : scope.generate rule colliding core = .ok identifier) :
    isIdentifier identifier = true ↔ (rule.lead = "" → startsWithLetter core = true) := by
  by_cases bare : rule.lead = ""
  · rw [forall_prop_of_true bare, isIdentifier_of_bare bare regular unempty generated]
    exact isIdentifier_apply_pascal spelled
  · refine iff_of_true (isIdentifier_of_lead regular spelled bare generated) ?_
    exact fun impossible => absurd impossible bare

end

/-! ### Legal names -/

/-- No reserved word agrees with a name. -/
def Unreserved (name : String) : Prop :=
  ∀ keyword ∈ keywords, fold keyword ≠ fold name

/-- Reserved words of another size need no look at their letters. -/
instance (name : String) : Decidable (Unreserved name) :=
  decidable_of_iff (∀ keyword ∈ keywords, ¬ sameLetters keyword name = true)
    (forall₂_congr fun keyword _ => not_congr (sameLetters_iff_fold keyword name))

/-- Names that were made for a list of names of a schema. They consist of letters, digits and
underscores, and are no reserved words. All of them are identifiers exactly if the names in the list
have a letter before all digits. -/
structure LegalFrom (cores names : List String) : Prop where
  spelled : ∀ name ∈ names, Spelled name ∧ Unreserved name
  identifiers : (∀ name ∈ names, isIdentifier name = true) ↔
    ∀ core ∈ cores, startsWithLetter core = true

theorem LegalFrom.nil : LegalFrom [] [] :=
  ⟨by simp, by simp⟩

theorem LegalFrom.append {cores names otherCores otherNames : List String}
    (left : LegalFrom cores names) (right : LegalFrom otherCores otherNames) :
    LegalFrom (cores ++ otherCores) (names ++ otherNames) := by
  refine ⟨List.forall_mem_append.mpr ⟨left.spelled, right.spelled⟩, ?_⟩
  rw [List.forall_mem_append, List.forall_mem_append, left.identifiers, right.identifiers]

/-- Further names that are identifiers whenever the names before them are. -/
theorem LegalFrom.absorb {cores names implied others : List String} (legal : LegalFrom cores names)
    (further : LegalFrom implied others)
    (follows : (∀ core ∈ cores, startsWithLetter core = true) →
      ∀ core ∈ implied, startsWithLetter core = true) : LegalFrom cores (names ++ others) := by
  refine ⟨List.forall_mem_append.mpr ⟨legal.spelled, further.spelled⟩, ?_⟩
  rw [List.forall_mem_append, legal.identifiers, further.identifiers]
  exact and_iff_left_of_imp follows

/-- Only which names are there matters, not in which order. -/
theorem LegalFrom.of_mem_iff {cores names others : List String} (legal : LegalFrom cores names)
    (same : ∀ name, name ∈ names ↔ name ∈ others) : LegalFrom cores others := by
  obtain ⟨spelled, identifiers⟩ := legal
  simp only [same] at spelled identifiers
  exact ⟨spelled, identifiers⟩

theorem LegalFrom.flatMap {α β : Type} {relation : α → β → Prop} {items : List α} {results : List β}
    (cores : α → List String) (names : β → List String) (related : List.Forall₂ relation items results)
    (each : ∀ item ∈ items, ∀ result, relation item result → LegalFrom (cores item) (names result)) :
    LegalFrom (items.flatMap cores) (results.flatMap names) := by
  induction related with
  | nil => exact .nil
  | cons first _ ih =>
    rw [List.forall_mem_cons] at each
    exact (each.1 _ first).append (ih each.2)

theorem LegalFrom.of_lead {scope : Scope} {rule : Rule} {colliding : List Rule}
    {core identifier : String} (listed : rule ∈ vocabulary) (led : rule.lead ≠ "")
    (spelled : Spelled core) (reserved : keywords ⊆ scope.taken)
    (generated : scope.generate rule colliding core = .ok identifier) : LegalFrom [] [identifier] := by
  have regular := vocabulary_regular rule listed
  refine ⟨List.forall_mem_singleton.mpr ⟨spelled_of_generate regular spelled generated, ?_⟩, ?_⟩
  · exact fun keyword inside => fold_ne_of_generate regular.insensitive generated keyword (reserved inside)
  · refine iff_of_true (List.forall_mem_singleton.mpr ?_) (by simp)
    exact isIdentifier_of_lead regular spelled led generated

/-- A request under one of the rules for the names of a unit, for a name of letters, digits and
underscores. -/
structure NameRequest.Proper (request : NameRequest) : Prop where
  listed : request.rule ∈ vocabulary
  spelled : Spelled request.core

theorem NameRequest.Proper.regular {request : NameRequest} (proper : request.Proper) :
    request.rule.Regular :=
  vocabulary_regular request.rule proper.listed

/-- The names in a list of requests whose rules have no fixed text before the name. -/
def bareCores (requests : List NameRequest) : List String :=
  (requests.filter fun request => request.rule.lead == "").map NameRequest.core

theorem forall_bareCores (property : String → Prop) {requests : List NameRequest} :
    (∀ core ∈ bareCores requests, property core) ↔
      ∀ request ∈ requests, request.rule.lead = "" → property request.core := by
  simp only [bareCores, List.forall_mem_map, List.mem_filter, beq_iff_eq, and_imp]

theorem bareCores_append (left right : List NameRequest) :
    bareCores (left ++ right) = bareCores left ++ bareCores right := by
  rw [bareCores, List.filter_append, List.map_append, bareCores, bareCores]

theorem bareCores_flatMap {α : Type} (requests : α → List NameRequest) (items : List α) :
    bareCores (items.flatMap requests) = items.flatMap fun item => bareCores (requests item) := by
  induction items with
  | nil => rfl
  | cons item rest ih => rw [List.flatMap_cons, bareCores_append, ih, List.flatMap_cons]

section

variable {scope final : Scope} {requests : List NameRequest} {names : List String}

/-- Names that a scope with the reserved words grants are no reserved words, and consist of letters,
digits and underscores. -/
theorem Scope.Grants.spelled (granted : scope.Grants requests names final)
    (proper : ∀ request ∈ requests, request.Proper) (reserved : keywords ⊆ scope.taken) :
    ∀ name ∈ names, Spelled name ∧ Unreserved name := by
  induction granted with
  | nil => exact fun _ impossible => absurd impossible List.not_mem_nil
  | cons generated _ ih =>
    rw [List.forall_mem_cons] at proper ⊢
    refine ⟨⟨spelled_of_generate proper.1.regular proper.1.spelled generated, fun keyword inside => ?_⟩,
      ih proper.2 fun keyword inside => List.mem_append_left _ (reserved inside)⟩
    exact fold_ne_of_generate proper.1.regular.insensitive generated keyword (reserved inside)

/-- **When all names that a scope grants are identifiers.** The first request that gets no identifier
decides; before it no name is empty. -/
theorem Scope.Grants.identifiers_iff (granted : scope.Grants requests names final)
    (proper : ∀ request ∈ requests, request.Proper) (unempty : "" ∉ scope.taken) :
    (∀ name ∈ names, isIdentifier name = true) ↔
      ∀ request ∈ requests, request.rule.lead = "" → startsWithLetter request.core = true := by
  induction granted with
  | nil => simp
  | @cons scope _ request rest identifier names generated _ ih =>
    rw [List.forall_mem_cons] at proper
    have first := generate_isIdentifier_iff proper.1.regular proper.1.spelled unempty generated
    rw [List.forall_mem_cons, List.forall_mem_cons, ← first]
    refine and_congr_right fun legal => ih proper.2 fun taken => ?_
    rcases List.mem_append.mp taken with earlier | now
    · exact unempty earlier
    · rw [← List.mem_singleton.mp now] at legal
      exact absurd legal (by decide)

theorem Scope.Grants.legalFrom (granted : scope.Grants requests names final)
    (proper : ∀ request ∈ requests, request.Proper) (reserved : keywords ⊆ scope.taken)
    (unempty : "" ∉ scope.taken) : LegalFrom (bareCores requests) names := by
  refine ⟨granted.spelled proper reserved, ?_⟩
  rw [granted.identifiers_iff proper unempty]
  exact (forall_bareCores fun core => startsWithLetter core = true).symm

end

end ProtoPascal.Naming
