import ProtoPascal.Proofs.DescriptorRules
import ProtoPascal.Proofs.RuleShapes
import ProtoPascal.Proofs.StyledForms
import ProtoPascal.Proofs.TypeReferences

/-!
Types of one unit with one name. The types at the top of a unit are named one by one, each apart from
the reserved identifiers and from what is recognised as a case type, but not apart from each other. So
the name of a type depends on the name in the schema alone, and two types have names that agree up to
the case of letters exactly if the style of Pascal makes their names in the schema agree, and both or
neither of them look like the name of a case type. Not every name of a case type is recognised, so some
types are named like one.

* `typeIdentifier_eq`: the identifier of every name, which always exists;
* `fold_typeIdentifier_eq_iff`: exactly when two identifiers agree;
* `canBuild_typeIdentifier_iff`: exactly when a type is named like a case type;
* `type_names_apart_iff`: exactly when no two types of a unit share a name;
* `names_in_different_case_collide`: types with different names in the schema that share one.
-/

namespace ProtoPascal

namespace Text

/-- Only an underscore folds to an underscore. -/
theorem eq_underscore_of_toLower {character : Char} (same : character.toLower = '_') :
    character = '_' := by
  unfold Char.toLower at same
  split at same
  · next capital =>
    have code := congrArg (fun letter : Char => letter.val.toNat) same
    have low := UInt32.le_iff_toNat_le.mp capital.1
    have high := UInt32.le_iff_toNat_le.mp capital.2
    simp at code low high
    omega
  · exact same

theorem underscore_mem_foldChars {characters : List Char} :
    '_' ∈ foldChars characters ↔ '_' ∈ characters := by
  rw [foldChars, List.mem_map]
  constructor
  · rintro ⟨character, inside, folded⟩
    exact eq_underscore_of_toLower folded ▸ inside
  · exact fun inside => ⟨'_', inside, rfl⟩

theorem foldChars_append (left right : List Char) :
    foldChars (left ++ right) = foldChars left ++ foldChars right :=
  List.map_append

end Text

namespace Naming

open Text

/-! ### Names in the style of Pascal -/

/-- The characters of a name in the style of Pascal. -/
def styled (name : String) : List Char :=
  CaseStyle.pascal.applyChars name.toList

/-- A name in the style of Pascal is another name in that style and the word for a case. -/
def LooksLikeCase (name : String) : Prop :=
  ∃ inner tail, styled name = inner ++ tail ∧ inner ≠ [] ∧
    CaseStyle.pascal.applyChars inner = inner ∧ foldChars tail = "case".toList

/-- Two names agree in the style of Pascal, and both or neither of them look like a case. -/
@[mk_iff]
structure Alike (name other : String) : Prop where
  letters : foldChars (styled name) = foldChars (styled other)
  shape : LooksLikeCase name ↔ LooksLikeCase other

theorem toList_plain (name : String) : (Rule.typeName.plain name).toList = 'T' :: styled name := by
  simp [Rule.plain, Rule.typeName, CaseStyle.apply, styled]

theorem toList_marked (name : String) :
    (Rule.typeName.marked name).toList = 'T' :: (styled name ++ ['_']) := by
  simp [Rule.marked, Rule.typeName, CaseStyle.apply, styled]

/-! ### Identifiers of types -/

theorem caseType_couldProduce_plain (name : String) :
    Rule.caseType.couldProduce (Rule.typeName.plain name) = true ↔ LooksLikeCase name := by
  rw [couldProduce_iff, toList_plain]
  constructor
  · rintro ⟨head, inner, tail, joined, leads, trails, filled, styled⟩
    obtain ⟨letter, rfl, -⟩ := List.map_eq_singleton_iff.mp (beq_iff_eq.mp leads)
    exact ⟨inner, tail, (List.cons.inj joined).2, filled, styled, beq_iff_eq.mp trails⟩
  · rintro ⟨inner, tail, joined, filled, styled, trails⟩
    exact ⟨['T'], inner, tail, by rw [joined]; rfl, rfl, beq_iff_eq.mpr trails, filled, styled⟩

/-- A marked name does not end with the word for a case. -/
theorem toList_marked_ne (name : String) {before tail : List Char}
    (trails : foldChars tail = "case".toList) :
    (Rule.typeName.marked name).toList ≠ before ++ tail := by
  rw [toList_marked]
  intro joined
  have last := congrArg (fun characters => (foldChars characters).getLast?) joined
  simp only [← List.cons_append, foldChars_append, trails, List.getLast?_append] at last
  cases last

theorem caseType_couldProduce_marked (name : String) :
    Rule.caseType.couldProduce (Rule.typeName.marked name) = false := by
  rw [Bool.eq_false_iff, Ne, couldProduce_iff]
  rintro ⟨head, inner, tail, joined, -, trails, -, -⟩
  rw [← List.append_assoc] at joined
  exact toList_marked_ne name (beq_iff_eq.mp trails) joined

theorem typeScope_contains_marked (name : String) :
    typeScope.contains (Rule.typeName.marked name) false = false := by
  rw [Bool.eq_false_iff, Ne, contains_iff_fold]
  rintro ⟨taken, inside, same⟩
  have unmarked : ∀ taken ∈ typeScope.taken, '_' ∉ taken.toList := by decide +kernel
  refine unmarked taken inside (underscore_mem_foldChars.mp ?_)
  rw [(fold_eq_iff _ _).mp same, toList_marked, underscore_mem_foldChars]
  simp

/-- A name that ends with the word for a case is not the name of a reserved type. -/
theorem not_contains_of_case_tail {name : String} {inner tail : List Char}
    (joined : styled name = inner ++ tail) (trails : foldChars tail = "case".toList) :
    typeScope.contains (Rule.typeName.plain name) false = false := by
  rw [Bool.eq_false_iff, Ne, contains_iff_fold]
  rintro ⟨taken, inside, same⟩
  rw [fold_eq_iff, toList_plain, joined] at same
  have reserved : ∀ taken ∈ typeScope.taken, (foldChars taken.toList).head? = some 't' →
      ¬ "case".toList <:+ foldChars taken.toList := by decide +kernel
  refine reserved taken inside (by rw [same]; rfl) ⟨foldChars ('T' :: inner), ?_⟩
  rw [same, ← trails, ← foldChars_append]
  rfl

theorem collides_typeName (identifier : String) :
    typeScope.collides .typeName typeColliding identifier =
      (typeScope.contains identifier false || Rule.caseType.couldProduce identifier) := by
  rw [Scope.collides, typeColliding, List.any_cons, List.any_nil, Bool.or_false]
  rfl

/-- **The identifier of a type.** It is marked exactly if the plain one is taken. A marked identifier
is never taken, so there is one for every name. -/
theorem typeIdentifier_eq (name : String) :
    typeIdentifier name = .ok (if typeScope.collides .typeName typeColliding (Rule.typeName.plain name)
      then Rule.typeName.marked name else Rule.typeName.plain name) := by
  have free : typeScope.collides .typeName typeColliding (Rule.typeName.marked name) = false := by
    rw [collides_typeName, caseType_couldProduce_marked, typeScope_contains_marked]
    rfl
  rw [typeIdentifier, Scope.generate, free]
  cases typeScope.collides .typeName typeColliding (Rule.typeName.plain name) <;> rfl

theorem fold_plain_eq_iff {name other : String} :
    fold (Rule.typeName.plain name) = fold (Rule.typeName.plain other) ↔
      foldChars (styled name) = foldChars (styled other) := by
  rw [fold_eq_iff, toList_plain, toList_plain]
  exact List.cons_inj_right _

theorem fold_marked_eq_iff {name other : String} :
    fold (Rule.typeName.marked name) = fold (Rule.typeName.marked other) ↔
      foldChars (styled name) = foldChars (styled other) := by
  rw [fold_eq_iff, toList_marked, toList_marked, ← List.cons_append, ← List.cons_append,
    foldChars_append, foldChars_append, List.append_left_inj]
  exact List.cons_inj_right _

theorem fold_plain_ne_marked (name other : String) :
    fold (Rule.typeName.plain name) ≠ fold (Rule.typeName.marked other) := by
  intro same
  rw [fold_eq_iff, toList_plain, toList_marked] at same
  have marked : '_' ∈ foldChars ('T' :: (styled other ++ ['_'])) := by
    rw [underscore_mem_foldChars]
    simp
  rw [← same, underscore_mem_foldChars, List.mem_cons] at marked
  exact marked.elim (by decide) (notMem_pascal isDivider_underscore name.toList)

/-- Of names that agree in the style of Pascal, both or neither are marked exactly if both or neither
look like a case. -/
theorem collides_eq_iff_of_letters {name other : String}
    (letters : foldChars (styled name) = foldChars (styled other)) :
    typeScope.collides .typeName typeColliding (Rule.typeName.plain name) =
      typeScope.collides .typeName typeColliding (Rule.typeName.plain other) ↔
    (LooksLikeCase name ↔ LooksLikeCase other) := by
  have reserved : typeScope.contains (Rule.typeName.plain name) false =
      typeScope.contains (Rule.typeName.plain other) false := by
    rw [Bool.eq_iff_iff, contains_iff_fold, contains_iff_fold, fold_plain_eq_iff.mpr letters]
  rw [collides_typeName, collides_typeName, ← caseType_couldProduce_plain,
    ← caseType_couldProduce_plain, ← Bool.eq_iff_iff]
  cases taken : typeScope.contains (Rule.typeName.plain name) false with
  | false => rw [← reserved, taken, Bool.false_or, Bool.false_or]
  | true =>
    -- Both names are reserved, and neither looks like a case.
    have shape {text : String} (taken : typeScope.contains (Rule.typeName.plain text) false = true) :
        Rule.caseType.couldProduce (Rule.typeName.plain text) = false := by
      rw [Bool.eq_false_iff, Ne, caseType_couldProduce_plain]
      rintro ⟨inner, tail, joined, -, -, trails⟩
      rw [not_contains_of_case_tail joined trails] at taken
      cases taken
    rw [← reserved, taken, shape taken, shape (reserved ▸ taken)]
    exact iff_of_true rfl rfl

/-- **Two identifiers of types agree** exactly if the names are alike. -/
theorem fold_typeIdentifier_eq_iff {name other identifier result : String}
    (named : typeIdentifier name = .ok identifier) (other_named : typeIdentifier other = .ok result) :
    fold identifier = fold result ↔ Alike name other := by
  rw [typeIdentifier_eq, Except.ok.injEq] at named other_named
  subst named other_named
  have alike : Alike name other ↔ foldChars (styled name) = foldChars (styled other) ∧
      typeScope.collides .typeName typeColliding (Rule.typeName.plain name) =
        typeScope.collides .typeName typeColliding (Rule.typeName.plain other) := by
    rw [alike_iff]
    exact and_congr_right fun letters => (collides_eq_iff_of_letters letters).symm
  rw [alike]
  cases typeScope.collides .typeName typeColliding (Rule.typeName.plain name) <;>
    cases typeScope.collides .typeName typeColliding (Rule.typeName.plain other)
  · simp [fold_plain_eq_iff]
  · simp [fold_plain_ne_marked]
  · simp [(fold_plain_ne_marked _ _).symm]
  · simp [fold_marked_eq_iff]

/-! ### Types that are named like case types -/

/-- A name in the style of Pascal is that of a oneof and the word for a case, and the name of the oneof
changes when it is styled again. -/
def HidesCase (name : String) : Prop :=
  ∃ oneof tail, styled name = styled oneof ++ tail ∧ styled oneof ≠ [] ∧
    foldChars tail = "case".toList ∧ CaseStyle.pascal.applyChars (styled oneof) ≠ styled oneof

/-- The rule for case types builds the plain name of a type exactly if the name ends with the word for a
case, after the name of the oneof. -/
theorem caseType_builds_plain {oneof name : String} :
    Rule.caseType.Builds oneof (Rule.typeName.plain name) ↔
      ∃ tail, styled name = styled oneof ++ tail ∧ foldChars tail = "case".toList := by
  have form : (Rule.caseType.style.apply oneof).toList = styled oneof := String.toList_ofList
  constructor
  · rintro ⟨head, tail, joined, leads, trails⟩
    have characters := congrArg String.toList joined
    rw [toList_plain, String.toList_append, String.toList_append, form] at characters
    obtain ⟨letter, single, -⟩ := List.map_eq_singleton_iff.mp ((fold_eq_iff _ _).mp leads)
    rw [single] at characters
    exact ⟨tail.toList, (List.cons.inj characters).2, (fold_eq_iff _ _).mp trails⟩
  · rintro ⟨tail, joined, trails⟩
    refine ⟨"T", String.ofList tail, ?_, rfl, ?_⟩
    · rw [← String.toList_inj, toList_plain, joined, String.toList_append, String.toList_append, form]
      simp
    · exact (fold_eq_iff _ _).mpr (by rw [String.toList_ofList, trails]; rfl)

theorem not_caseType_builds_marked (oneof name : String) :
    ¬ Rule.caseType.Builds oneof (Rule.typeName.marked name) := by
  rintro ⟨head, tail, joined, -, trails⟩
  have characters := congrArg String.toList joined
  rw [String.toList_append] at characters
  exact toList_marked_ne name ((fold_eq_iff _ _).mp trails) characters

/-- A name hides a case exactly if it ends with the word for a case, after the name of some oneof, and
does not look like a case. -/
theorem hidesCase_iff {name : String} :
    HidesCase name ↔ ¬ LooksLikeCase name ∧
      ∃ oneof tail, styled name = styled oneof ++ tail ∧ styled oneof ≠ [] ∧
        foldChars tail = "case".toList := by
  constructor
  · rintro ⟨oneof, tail, joined, filled, trails, changes⟩
    refine ⟨?_, oneof, tail, joined, filled, trails⟩
    rintro ⟨inner, other, split, -, unchanged, folded⟩
    -- Both ends have four letters, so they are the same.
    have lengths := congrArg List.length (trails.trans folded.symm)
    rw [foldChars, foldChars, List.length_map, List.length_map] at lengths
    obtain ⟨rfl, -⟩ := List.append_inj' (joined.symm.trans split) lengths
    exact changes unchanged
  · rintro ⟨differs, oneof, tail, joined, filled, trails⟩
    exact ⟨oneof, tail, joined, filled, trails,
      fun unchanged => differs ⟨styled oneof, tail, joined, filled, unchanged, trails⟩⟩

/-- **Which types are named like case types.** The identifier of a type has the shape of a case type
exactly if the name hides a case. -/
theorem canBuild_typeIdentifier_iff {name identifier : String}
    (named : typeIdentifier name = .ok identifier) :
    Rule.caseType.CanBuild identifier ↔ HidesCase name := by
  have filled_iff (oneof : String) : Rule.caseType.style.apply oneof ≠ "" ↔ styled oneof ≠ [] := by
    rw [Ne, ← String.toList_inj]
    exact not_congr (Eq.congr_left String.toList_ofList)
  rw [typeIdentifier_eq, Except.ok.injEq] at named
  subst named
  rw [hidesCase_iff, ← caseType_couldProduce_plain, Bool.not_eq_true]
  split
  · next collides =>
    -- The name is marked, since it is that of a reserved type or looks like a case.
    refine iff_of_false ?_ ?_
    · rintro ⟨oneof, -, built⟩
      exact not_caseType_builds_marked oneof name built
    · rintro ⟨unlike, oneof, tail, joined, -, trails⟩
      rw [collides_typeName, unlike, not_contains_of_case_tail joined trails] at collides
      exact Bool.false_ne_true collides
  · next free =>
    rw [Bool.not_eq_true, collides_typeName, Bool.or_eq_false_iff] at free
    rw [and_iff_right free.2]
    constructor
    · rintro ⟨oneof, filled, built⟩
      obtain ⟨tail, joined, trails⟩ := caseType_builds_plain.mp built
      exact ⟨oneof, tail, joined, (filled_iff oneof).mp filled, trails⟩
    · rintro ⟨oneof, tail, joined, filled, trails⟩
      exact ⟨oneof, (filled_iff oneof).mpr filled, caseType_builds_plain.mpr ⟨tail, joined, trails⟩⟩

/-- An ASCII name hides a case exactly if it ends with the word for a case, and not all capitals in
front of that open words. -/
theorem hidesCase_iff_of_ascii {name : String} (ascii : Ascii name) :
    HidesCase name ↔ ∃ inner tail, styled name = inner ++ tail ∧ inner ≠ [] ∧
      foldChars tail = "case".toList ∧ ¬ CapitalsOpenWords inner := by
  have letters : ∀ character ∈ styled name, character.isAlphanum = true :=
    isAlphanum_applyChars_pascal ascii
  have large : StartsLarge (styled name) := startsLarge_applyChars_pascal ascii
  -- What stands in front of the word for a case is a form, which only has to be its own one.
  have front {inner tail : List Char} (joined : styled name = inner ++ tail) (filled : inner ≠ []) :
      (∀ character ∈ inner, character.isAlphanum = true) ∧ StartsLarge inner := by
    rw [joined] at letters large
    rw [List.forall_mem_append] at letters
    refine ⟨letters.1, ?_⟩
    rwa [StartsLarge, List.head?_append_of_ne_nil _ filled] at large
  have changes_iff {inner tail : List Char} (joined : styled name = inner ++ tail)
      (filled : inner ≠ []) :
      CaseStyle.pascal.applyChars inner ≠ inner ↔ ¬ CapitalsOpenWords inner := by
    obtain ⟨inner_letters, inner_large⟩ := front joined filled
    rw [Ne, applyChars_pascal_eq_self_iff inner_letters, and_iff_right inner_large]
  constructor
  · rintro ⟨oneof, tail, joined, filled, trails, changes⟩
    exact ⟨styled oneof, tail, joined, filled, trails, (changes_iff joined filled).mp changes⟩
  · rintro ⟨inner, tail, joined, filled, trails, hidden⟩
    obtain ⟨oneof, -, form⟩ := exists_applyChars_pascal_eq_iff.mpr (front joined filled)
    have styled_eq : styled (String.ofList oneof) = inner := by
      rw [styled, String.toList_ofList, form]
    refine ⟨String.ofList oneof, tail, ?_⟩
    rw [styled_eq]
    exact ⟨joined, filled, trails, (changes_iff joined filled).mpr hidden⟩

end Naming

open Naming Pascal Text

/-! ### Types at the top of a unit -/

/-- The names that a file gives to its enumerations and messages, in order. -/
def Schema.File.typeNames (file : Schema.File) : List String :=
  file.enums.map Schema.EnumType.name ++ file.messages.map Schema.MessageType.name

/-- The names of the types that a unit declares, in order. A class that is only announced is not
declared yet. -/
def Pascal.CodeUnit.declaredTypes (unit : CodeUnit) : List String :=
  (Pascal.typeNames unit.types).map Prod.fst

theorem declaredTypes_named {index : TypeIndex} {runtime : Runtime} {file : Schema.File}
    {unit : CodeUnit} (generated : (generateUnit index runtime file).result = .ok unit) :
    List.Forall₂ (fun name identifier => typeIdentifier name = .ok identifier) file.typeNames
      unit.declaredTypes := by
  obtain ⟨identifier, declarations, classes, parts⟩ := generateUnit_parts generated
  have declared : unit.declaredTypes =
      declarations.map EnumDeclaration.name ++ classes.map Message.MessageClass.name := by
    rw [CodeUnit.declaredTypes, parts.types, typeNames_unitTypes]
    simp [typeEntries, Function.comp_def]
  rw [declared, Schema.File.typeNames]
  refine List.rel_append ?_ ?_
  · rw [List.forall₂_map_left_iff, List.forall₂_map_right_iff]
    exact parts.declared.imp fun _ _ => Message.enumDeclaration_name
  · rw [List.forall₂_map_left_iff, List.forall₂_map_right_iff]
    exact parts.made.imp fun _ _ => Message.generateMessage_name

/-- **No two types of a unit share a name** exactly if no two names of the schema are alike. -/
theorem type_names_apart_iff {index : TypeIndex} {runtime : Runtime} {file : Schema.File}
    {unit : CodeUnit} (generated : (generateUnit index runtime file).result = .ok unit) :
    List.Forall₂ (fun name identifier => typeIdentifier name = .ok identifier) file.typeNames
      unit.declaredTypes ∧
    (Apart unit.declaredTypes ↔ file.typeNames.Pairwise fun name other => ¬ Alike name other) := by
  have named := declaredTypes_named generated
  refine ⟨named, ?_⟩
  rw [Apart, List.Nodup, List.pairwise_map]
  exact (pairwise_iff_of_forall₂ named fun _ _ _ _ first second =>
    not_congr (fold_typeIdentifier_eq_iff first second).symm).symm

/-- Names with the same letters in the style of Pascal, of which only the second looks like a case, and a
name of a reserved type. -/
def casesFile : Schema.File :=
  { name := "sample.proto"
    enums := [{ name := "a_b_case", values := [{ name := "none", number := 0 }] }]
    messages := [{ name := "ab_case" }, { name := "object" }] }

/-- The types of the file have different names. -/
theorem cases_type_names_apart :
    ∃ index unit, TypeIndex.build [casesFile] = .ok index ∧
      (generateUnit index .reference casesFile).result = .ok unit ∧
      unit.declaredTypes = ["TABCase", "TAbCase_", "TObject_"] ∧
      foldChars (styled "a_b_case") = foldChars (styled "ab_case") ∧
      casesFile.typeNames.Pairwise fun name other => ¬ Alike name other := by
  have evaluated : (do
      let index ← TypeIndex.build [casesFile]
      let unit ← (generateUnit index .reference casesFile).result
      return unit.declaredTypes) = .ok ["TABCase", "TAbCase_", "TObject_"] := by
    decide +kernel
  obtain ⟨index, built, evaluated⟩ := bind_eq_ok.mp evaluated
  obtain ⟨unit, generated, declared⟩ := bind_eq_ok.mp evaluated
  rw [pure_eq_ok] at declared
  refine ⟨index, unit, built, generated, declared, by decide +kernel,
    (type_names_apart_iff generated).2.mp ?_⟩
  rw [declared, Apart]
  decide

/-! ### Two types with one name -/

/-- The name of the enumeration and that of the message differ in the case of one letter. -/
def differentCase : Schema.FileDescriptor :=
  { name := some "sample.proto"
    enums := [{ name := some "FooBar", values := [{ name := some "ZERO", number := some 0 }] }]
    messages := [{ name := some "Foobar" }]
    languageVersion := some "proto3" }

/-- **Names in different case collide.** The file is accepted and its names are different, and its unit
is generated, with two types whose names agree up to the case of letters. -/
theorem names_in_different_case_collide :
    ∃ file index unit, Schema.File.ofDescriptor differentCase = .ok file ∧
      file.typeNames = ["FooBar", "Foobar"] ∧ file.typeNames.Nodup ∧
      TypeIndex.build [file] = .ok index ∧
      (generateUnit index .reference file).result = .ok unit ∧
      unit.declaredTypes = ["TFooBar", "TFoobar"] ∧ ¬ Apart unit.declaredTypes := by
  have evaluated : (do
      let file ← Schema.File.ofDescriptor differentCase
      let index ← TypeIndex.build [file]
      let unit ← (generateUnit index .reference file).result
      return (file.typeNames, unit.declaredTypes)) =
        .ok (["FooBar", "Foobar"], ["TFooBar", "TFoobar"]) := by
    decide +kernel
  obtain ⟨file, accepted, evaluated⟩ := bind_eq_ok.mp evaluated
  obtain ⟨index, built, evaluated⟩ := bind_eq_ok.mp evaluated
  obtain ⟨unit, generated, facts⟩ := bind_eq_ok.mp evaluated
  rw [pure_eq_ok, Prod.mk.injEq] at facts
  refine ⟨file, index, unit, accepted, facts.1, ?_, built, generated, facts.2, ?_⟩
  · rw [facts.1]
    decide
  · rw [facts.2, Apart]
    decide

end ProtoPascal
