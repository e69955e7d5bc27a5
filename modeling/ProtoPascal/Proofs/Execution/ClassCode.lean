import ProtoPascal.Proofs.Execution.Interpreter
import ProtoPascal.Proofs.MemberNames

/-!
Lookups in the code of a generated class. The names of its members are apart, and the code of a
nested class stands under a longer name, so every name is found where it is declared.

* `member?_of_mem`: a member is found under its name;
* `method?_of_mem`: a method of the class itself is found under its name;
* `method?_hasUnparsedField`: the class leaves the lookup of records to its ancestor.
-/

namespace ProtoPascal.Execution

open Message
open Naming
open Pascal
open Schema (MessageType)

/-- The code of the class of a message at a place. -/
def classCode (place : Place) (generated : MessageClass) : ClassCode :=
  { className := nestedIn place.parentClass generated.name
    members := generated.members
    implementation := generated.implementation }

/-! ### Members -/

/-- **A member is found under its name.** -/
theorem member?_of_mem {code : ClassCode} (apart : Apart (declaredNames code.members))
    {member : Member} (inside : member ∈ code.members) (proper : member.isForward = false) :
    code.member? member.name = some member := by
  refine find?_eq_some_of_unique inside (by simp [proper]) ?_
  intro other other_inside same
  simp only [Bool.and_eq_true, Bool.not_eq_true', Text.sameLetters_iff_fold] at same
  rw [Apart, declaredNames, List.map_map] at apart
  refine List.inj_on_of_nodup_map apart ?_ ?_ same.2
  · exact List.mem_filter.mpr ⟨other_inside, by simp [same.1]⟩
  · exact List.mem_filter.mpr ⟨inside, by simp [proper]⟩

theorem item?_of_mem {code : ClassCode} (apart : Apart (declaredNames code.members))
    {visibility : Visibility} {comment : List String} {item : Item}
    (inside : .item visibility comment item ∈ code.members) :
    code.item? item.name = some item := by
  rw [ClassCode.item?, show item.name = (Member.item visibility comment item).name from rfl,
    member?_of_mem apart inside rfl]

/-- A value of a nested enumeration is found under the names of both, if no other value of the
enumeration has its name. -/
theorem enumValue?_of_mem {code : ClassCode} (apart : Apart (declaredNames code.members))
    {visibility : Visibility} {comment : List String} {declaration : EnumDeclaration}
    (inside : .nestedType visibility comment (.enumType declaration) ∈ code.members)
    {value : EnumMember} (declared : value ∈ declaration.values)
    (valuesApart : Apart (declaration.values.map EnumMember.name)) :
    code.enumValue? declaration.name value.name =
      some (.enumeration declaration.name value.ordinal) := by
  have found := member?_of_mem apart inside rfl
  have valueFound : declaration.values.find? (fun member =>
      Text.sameLetters member.name value.name) = some value := by
    refine find?_eq_some_of_unique declared (Text.sameLetters_self _) ?_
    intro other other_declared same
    rw [Apart, List.map_map] at valuesApart
    exact List.inj_on_of_nodup_map valuesApart other_declared declared
      ((Text.sameLetters_iff_fold _ _).mp same)
  rw [ClassCode.enumValue?]
  simp only [Member.name, TypeDeclaration.name] at found
  rw [found]
  simp only [valueFound, Option.map_some]

/-! ### Methods -/

/-- The name of the method that is implemented. -/
def methodName (implementation : Implementation Action Expr) : String :=
  implementation.method.name

theorem fieldImplementations_names (plan : FieldPlan) :
    (plan.implementations.map methodName).Sublist (plan.declarations.map Member.name) := by
  refine List.IsInfix.sublist ⟨[plan.names.numberConstant, plan.names.nameConstant,
    plan.names.backing], plan.names.property ::
      (plan.names.presence.map PresenceNames.property).toList, ?_⟩
  dsimp only [FieldPlan.implementations, FieldPlan.declarations]
  cases plan.names.presence with
  | none => rfl
  | some presence => rfl

theorem oneofImplementations_names (plan : OneofPlan) :
    (plan.implementations.map methodName).Sublist (plan.declarations.map Member.name) :=
  List.IsInfix.sublist ⟨[plan.names.caseType, plan.names.backing], [plan.names.property], rfl⟩

theorem fieldImplementations_className (plan : FieldPlan) :
    ∀ implementation ∈ plan.implementations, implementation.className = plan.className := by
  intro implementation inside
  unfold FieldPlan.implementations at inside
  cases present : plan.names.presence with
  | none =>
    rw [present, List.append_nil] at inside
    rcases List.mem_pair.mp inside with rfl | rfl <;> rfl
  | some presence =>
    rw [present] at inside
    rcases List.mem_append.mp inside with accessor | ofPresence
    · rcases List.mem_pair.mp accessor with rfl | rfl <;> rfl
    · rcases List.mem_pair.mp ofPresence with rfl | rfl <;> rfl

theorem oneofImplementations_className (plan : OneofPlan) :
    ∀ implementation ∈ plan.implementations, implementation.className = plan.className := by
  intro implementation inside
  rcases List.mem_pair.mp inside with rfl | rfl <;> rfl

/-- A class implements methods that its fields, its oneofs and its lifecycle declare. -/
theorem ownImplementation_names (parts : ClassParts) :
    (parts.ownImplementation.map methodName).Sublist
      (parts.derivedMembers.map Member.name ++ lifecycleNames) := by
  rw [ClassParts.ownImplementation, List.map_append]
  refine List.Sublist.append ?_ (List.Sublist.refl _)
  rw [ClassParts.derivedMembers, map_flatMapSlots, map_flatMapSlots]
  exact flatMapSlots_sublist _ fieldImplementations_names oneofImplementations_names

section

variable {parts : ClassParts} {context : Context} {place : Place} {message : MessageType}

theorem ownImplementation_apart (apart : Apart (declaredNames parts.members)) :
    Apart (parts.ownImplementation.map methodName) := by
  have declared : declaredNames parts.members =
      parts.typeNames ++ (parts.derivedMembers.map Member.name ++ lifecycleNames) := by
    rw [ClassParts.members, declaredNames_append, declaredNames_append, declaredNames_typeMembers,
      declaredNames_lifecycleMembers, declaredNames_eq_map fun member inside =>
        isForward_eq_false (derivedMembers_classless parts member inside), List.append_assoc]
  rw [declared] at apart
  exact (apart_append.mp apart).2.1.sublist ((ownImplementation_names parts).map Text.fold)

theorem ownImplementation_className (of : parts.PartsOf context place message) :
    ∀ implementation ∈ parts.ownImplementation,
      implementation.className = parts.className := by
  have covers := of.covers
  intro implementation inside
  rcases List.mem_append.mp inside with derived | lifecycle
  · rcases exists_of_mem_flatMapSlots derived with
      ⟨field, field_inside, implemented⟩ | ⟨oneof, oneof_inside, implemented⟩
    · rw [fieldImplementations_className field implementation implemented]
      exact (covers.planned field field_inside).className_eq
    · obtain ⟨position, found⟩ := List.mem_iff_getElem?.mp oneof_inside
      rw [oneofImplementations_className oneof implementation implemented]
      exact (covers.oneofs_eq position oneof found).1
  · obtain ⟨method, -, rfl⟩ := List.mem_map.mp lifecycle
    rfl

end

theorem length_nestedIn_some (parent identifier : String) :
    (nestedIn (some parent) identifier).length = parent.length + 1 + identifier.length := by
  rw [nestedIn, String.length_append, String.length_append]
  rfl

/-- The methods of a class and of the classes in it are implemented under names that are not shorter
than that of the class. -/
theorem length_le_className {context : Context} (message : MessageType) :
    ∀ (place : Place) (generated : MessageClass),
      (generateMessage context place message).result = .ok generated →
      ∀ implementation ∈ generated.implementation,
        (nestedIn place.parentClass generated.name).length ≤
          implementation.className.length := by
  induction message using nested_induction with
  | step message ih =>
    intro place generated success implementation inside
    obtain ⟨parts, found, -, rfl⟩ := generateMessage_eq_ok.mp success
    have of := classParts_eq_ok.mp found
    rcases List.mem_append.mp inside with deeper | own
    · obtain ⟨nested, nested_inside, deeper⟩ := List.mem_flatMap.mp deeper
      obtain ⟨inner, inner_inside, inner_success⟩ :=
        exists_left_of_forall₂ of.nested nested_inside
      have longer := ih inner inner_inside _ nested inner_success implementation deeper
      rw [Place.inside, length_nestedIn_some] at longer
      show (nestedIn place.parentClass parts.identifier).length ≤ _
      omega
    · rw [ownImplementation_className of implementation own, of.className_eq]
      exact Nat.le_refl _

section

variable {parts : ClassParts} {context : Context} {place : Place} {message : MessageType}

/-- Texts that agree up to the case of letters have one length. -/
theorem length_eq_of_sameLetters {left right : String}
    (same : Text.sameLetters left right = true) : left.length = right.length := by
  have folded := congrArg List.length ((Text.sameLetters_iff left right).mp same)
  rwa [Text.foldChars, Text.foldChars, List.length_map, List.length_map, String.length_toList,
    String.length_toList] at folded

/-- What is implemented under the name of a class is implemented by the class itself. -/
theorem mem_ownImplementation_of_sameLetters (of : parts.PartsOf context place message)
    (shownName : String) {implementation : Implementation Action Expr}
    (inside : implementation ∈ (parts.assemble shownName).implementation)
    (same : Text.sameLetters implementation.className parts.className = true) :
    implementation ∈ parts.ownImplementation := by
  rcases List.mem_append.mp inside with deeper | own
  · obtain ⟨nested, nested_inside, deeper⟩ := List.mem_flatMap.mp deeper
    obtain ⟨inner, -, inner_success⟩ := exists_left_of_forall₂ of.nested nested_inside
    have longer := length_le_className inner _ nested inner_success implementation deeper
    rw [Place.inside, length_nestedIn_some, length_eq_of_sameLetters same, of.className_eq] at longer
    omega
  · exact own

/-- **A method of the class itself is found under its name.** -/
theorem method?_of_mem (of : parts.PartsOf context place message)
    (apart : Apart (declaredNames parts.members)) (shownName : String)
    {implementation : Implementation Action Expr}
    (inside : implementation ∈ parts.ownImplementation) :
    (classCode place (parts.assemble shownName)).method? implementation.method.name =
      some implementation := by
  have className_eq : (classCode place (parts.assemble shownName)).className = parts.className :=
    of.className_eq.symm
  refine find?_eq_some_of_unique (List.mem_append_right _ inside) ?_ ?_
  · rw [className_eq, ownImplementation_className of implementation inside]
    simp
  · intro other other_inside same
    rw [className_eq, Bool.and_eq_true] at same
    have own := mem_ownImplementation_of_sameLetters of shownName other_inside same.1
    have namesApart := ownImplementation_apart apart
    rw [Apart, List.map_map] at namesApart
    exact List.inj_on_of_nodup_map namesApart own inside
      ((Text.sameLetters_iff_fold _ _).mp same.2)

/-- **The class leaves the lookup of records to its ancestor.** -/
theorem method?_hasUnparsedField (of : parts.PartsOf context place message) (shownName : String) :
    (classCode place (parts.assemble shownName)).method? "HasUnparsedField" = none := by
  have className_eq : (classCode place (parts.assemble shownName)).className = parts.className :=
    of.className_eq.symm
  refine List.find?_eq_none.mpr fun implementation inside same => ?_
  rw [className_eq, Bool.and_eq_true] at same
  have own := mem_ownImplementation_of_sameLetters of shownName inside same.1
  have sameName := (Text.sameLetters_iff_fold _ _).mp same.2
  have named := (ownImplementation_names parts).subset (List.mem_map_of_mem own)
  rcases List.mem_append.mp named with derived | lifecycle
  · refine (derivedMembers_extends of).2 _ derived "HasUnparsedField" ?_ sameName.symm
    refine List.mem_append_left _ ?_
    decide
  · have different : ∀ name ∈ lifecycleNames, Text.fold name ≠ Text.fold "HasUnparsedField" := by
      decide
    exact different _ lifecycle sameName

end

end ProtoPascal.Execution
