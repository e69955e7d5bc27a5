import Mathlib.Data.List.Perm.Basic
import ProtoPascal.Proofs.ClassParts

/-!
The names of the members of a class. They come from three sources: the nested types, the fields and
oneofs, and the methods that every class has. The fields and oneofs take their names in a scope in
which the other two are taken, and the name of a type starts with another letter than that of any
method, so only two nested types can clash with each other.

* `declaredNames_apart_iff`: the names of the members are apart exactly if those of the nested types
  are;
* `derivedMembers_fresh`: no name of a field or a oneof is reserved in a class;
* `typeMembers_fresh`: no name of a nested type is reserved for types;
* `HasClass.exists_parts`: every class inside a class is made of the parts of a nested message.
-/

namespace ProtoPascal.Message

open Naming
open Pascal
open Schema (EnumType MessageType)

/-! ### Names of fields and oneofs -/

theorem fieldDeclarations_names (plan : FieldPlan) :
    (plan.declarations.map Member.name).Perm plan.names.all := by
  rw [List.perm_iff_count]
  intro name
  cases present : plan.names.presence with
  | none =>
    simp only [FieldPlan.declarations, FieldNames.all, present, List.map_append, List.map_cons,
      Option.map_none, Option.getD_none, Option.toList_none, List.map_nil, List.count_append,
      List.count_cons, List.count_nil, Member.name, plainMember, Item.name,
      FieldPlan.getterMethod, FieldPlan.setterMethod, getterMethod, setterMethod]
    omega
  | some presence =>
    simp only [FieldPlan.declarations, FieldNames.all, present, List.map_append, List.map_cons,
      Option.map_some, Option.getD_some, Option.toList_some, List.map_nil, List.count_append,
      List.count_cons, List.count_nil, Member.name, plainMember, Item.name, PresenceNames.all,
      PresenceNames.methodMembers, PresenceNames.propertyMember, PresenceNames.getterMethod,
      PresenceNames.setterMethod, FieldPlan.getterMethod, FieldPlan.setterMethod, getterMethod,
      setterMethod]
    omega

theorem oneofDeclarations_names (plan : OneofPlan) :
    (plan.declarations.map Member.name).Perm plan.names.all := by
  refine List.Perm.cons _ (List.Perm.cons _ ?_)
  exact List.perm_append_singleton plan.names.property [plan.names.getter, plan.names.setter]

theorem caseEnum_names (names : OneofNames) :
    names.caseEnum.values.map EnumMember.name = names.valueNames := by
  refine List.ext_getElem? fun position => ?_
  show ((names.valueNames.mapIdx _).map EnumMember.name)[position]? = _
  rw [List.getElem?_map, List.getElem?_mapIdx, Option.map_map]
  exact Option.map_id'

/-- **The fields and oneofs of a class declare the names that they take**, in another order. -/
theorem derivedMembers_names {plan : ClassPlan} {className : String} {scope : Scope}
    {message : MessageType} (covers : plan.Covers className scope message) :
    ((plan.flatMapSlots FieldPlan.declarations OneofPlan.declarations).map Member.name).Perm
      (derivedNames (plan.fields.map FieldPlan.names) (plan.oneofs.map OneofPlan.names)) := by
  refine ((flatMapSlots_perm covers.slots_perm _ _).map Member.name).trans ?_
  rw [List.map_append, List.map_flatMap, List.map_flatMap, derivedNames, List.flatMap_map,
    List.flatMap_map]
  exact (List.Perm.flatMap_left _ fun field _ => fieldDeclarations_names field).append
    (List.Perm.flatMap_left _ fun oneof _ => oneofDeclarations_names oneof)

/-- Whether a member announces or declares a class. -/
def isClass : Member → Bool
  | .item _ _ _ => false
  | .nestedType _ _ (.enumType _) => false
  | .nestedType _ _ (.forwardClass _) => true
  | .nestedType _ _ (.classType _ _ _ _) => true

theorem isForward_eq_false {member : Member} (classless : isClass member = false) :
    member.isForward = false := by
  rcases member with ⟨_, _, _⟩ | ⟨_, _, _ | _ | _⟩
  · rfl
  · exact absurd classless Bool.noConfusion
  · rfl
  · rfl

theorem fieldDeclarations_classless (plan : FieldPlan) :
    (plan.declarations.all fun member => !isClass member) = true := by
  dsimp only [FieldPlan.declarations]
  cases plan.names.presence with
  | none => rfl
  | some presence => rfl

theorem oneofDeclarations_classless (plan : OneofPlan) :
    (plan.declarations.all fun member => !isClass member) = true := rfl

theorem derivedMembers_classless (parts : ClassParts) :
    ∀ member ∈ parts.derivedMembers, isClass member = false := by
  intro member inside
  rcases exists_of_mem_flatMapSlots inside with ⟨field, -, declared⟩ | ⟨oneof, -, declared⟩
  · simpa using List.all_eq_true.mp (fieldDeclarations_classless field) member declared
  · simpa using List.all_eq_true.mp (oneofDeclarations_classless oneof) member declared

theorem lifecycleMembers_classless (parts : ClassParts) :
    ∀ member ∈ parts.lifecycleMembers, isClass member = false := by
  intro member inside
  obtain ⟨method, -, rfl⟩ := List.mem_map.mp inside
  rfl

/-! ### Names of nested types -/

/-- The names of the types nested in a class: the enumerations, then the classes. -/
def ClassParts.typeNames (parts : ClassParts) : List String :=
  parts.enums.map EnumDeclaration.name ++ parts.nested.map MessageClass.name

theorem declaredNames_typeMembers (parts : ClassParts) :
    declaredNames parts.typeMembers = parts.typeNames := by
  have enums : declaredNames (parts.enums.map fun declaration =>
      .nestedType .publicSection [] (.enumType declaration)) =
      parts.enums.map EnumDeclaration.name := by
    rw [declaredNames_eq_map, List.map_map]
    · rfl
    · intro member inside
      obtain ⟨declaration, -, rfl⟩ := List.mem_map.mp inside
      rfl
  have announced : declaredNames (parts.nested.map fun generated =>
      .nestedType .publicSection [] (.forwardClass generated.name)) = [] := by
    rw [declaredNames, List.filter_eq_nil_iff.mpr, List.map_nil]
    intro member inside
    obtain ⟨generated, -, rfl⟩ := List.mem_map.mp inside
    exact Bool.false_ne_true
  have classes : declaredNames (parts.nested.map fun generated =>
      .nestedType .publicSection [] generated.declaration) =
      parts.nested.map MessageClass.name := by
    rw [declaredNames_eq_map, List.map_map]
    · rfl
    · intro member inside
      obtain ⟨generated, -, rfl⟩ := List.mem_map.mp inside
      rfl
  rw [ClassParts.typeMembers, nestedMembers, declaredNames_append, declaredNames_append, enums,
    announced, classes, List.append_nil, ClassParts.typeNames]

theorem typeMembers_name {parts : ClassParts} {member : Member}
    (inside : member ∈ parts.typeMembers) : member.name ∈ parts.typeNames := by
  simp only [ClassParts.typeMembers, nestedMembers, List.mem_append, List.mem_map] at inside
  rw [ClassParts.typeNames, List.mem_append]
  rcases inside with (⟨declaration, found, rfl⟩ | ⟨generated, found, rfl⟩) | ⟨generated, found, rfl⟩
  · exact .inl (List.mem_map_of_mem found)
  · exact .inr (List.mem_map_of_mem found)
  · exact .inr (List.mem_map_of_mem found)

/-- The names of the types nested in a message, in the schema. -/
def nestedTypeNames (message : MessageType) : List String :=
  message.nestedEnums.map EnumType.name ++ message.nestedMessages.map MessageType.name

theorem enumDeclaration_name {enumType : EnumType} {declaration : EnumDeclaration}
    (declared : enumDeclaration enumType = .ok declaration) :
    typeIdentifier enumType.name = .ok declaration.name := by
  obtain ⟨name, named, declared⟩ := bind_eq_ok.mp declared
  obtain ⟨values, -, declared⟩ := bind_eq_ok.mp declared
  rw [pure_eq_ok] at declared
  subst declared
  exact named

theorem generateMessage_name {context : Context} {place : Place} {message : MessageType}
    {generated : MessageClass}
    (success : (generateMessage context place message).result = .ok generated) :
    typeIdentifier message.name = .ok generated.name := by
  obtain ⟨parts, found, -, rfl⟩ := generateMessage_eq_ok.mp success
  exact (classParts_eq_ok.mp found).identifier

/-- **The types nested in a class have the identifiers of the types nested in its message.** -/
theorem typeNames_identifiers {parts : ClassParts} {context : Context} {place : Place}
    {message : MessageType} (of : parts.PartsOf context place message) :
    List.Forall₂ (fun name identifier => typeIdentifier name = .ok identifier)
      (nestedTypeNames message) parts.typeNames := by
  refine List.rel_append ?_ ?_
  · rw [List.forall₂_map_left_iff, List.forall₂_map_right_iff]
    exact (mapM_eq_ok.mp of.enums).imp fun _ _ => enumDeclaration_name
  · rw [List.forall₂_map_left_iff, List.forall₂_map_right_iff]
    exact of.nested.imp fun _ _ => generateMessage_name

/-- The identifier of a type starts with its letter, in either case. -/
theorem typeIdentifier_head {name identifier : String}
    (named : typeIdentifier name = .ok identifier) :
    (Text.fold identifier).toList.head? = some 't' := by
  obtain ⟨-, rfl | rfl⟩ := generate_eq_ok named
  · simp only [Rule.plain, Text.toList_fold, String.toList_append]
    rfl
  · simp only [Rule.marked, Text.toList_fold, String.toList_append]
    rfl

/-! ### Names of methods -/

/-- The names of the methods that every class has. -/
def lifecycleNames : List String :=
  ["Create", "Destroy", "Clear", "Encode", "Decode", "MergeFrom", "Assign", "ClearOwnFields",
    "MergeFromOwnFields", "AssignOwnFields"]

theorem declaredNames_lifecycleMembers (parts : ClassParts) :
    declaredNames parts.lifecycleMembers = lifecycleNames := rfl

theorem lifecycleNames_apart : Apart lifecycleNames := by
  unfold Apart
  decide

theorem lifecycleNames_reserved : ∀ name ∈ lifecycleNames, name ∈ classScope.taken := by
  decide

/-- No method that every class has is named like a type. -/
theorem lifecycleNames_head :
    ∀ name ∈ lifecycleNames, (Text.fold name).toList.head? ≠ some 't' := by
  decide

/-! ### All names of a class -/

section

variable {parts : ClassParts} {context : Context} {place : Place} {message : MessageType}

/-- The names of nested types are apart from those of the methods that every class has. -/
theorem typeNames_ne_lifecycleNames (of : parts.PartsOf context place message) {type name : String}
    (nested : type ∈ parts.typeNames) (method : name ∈ lifecycleNames) :
    Text.fold type ≠ Text.fold name := by
  obtain ⟨source, -, named⟩ := exists_left_of_forall₂ (typeNames_identifiers of) nested
  intro same
  refine lifecycleNames_head name method ?_
  rw [← same]
  exact typeIdentifier_head named

/-- **No name of a nested type is reserved for types.** -/
theorem typeMembers_fresh (of : parts.PartsOf context place message) :
    ∀ member ∈ parts.typeMembers, ∀ reserved ∈ typeScope.taken,
      Text.fold reserved ≠ Text.fold member.name := by
  intro member inside
  obtain ⟨source, -, named⟩ :=
    exists_left_of_forall₂ (typeNames_identifiers of) (typeMembers_name inside)
  exact fold_ne_of_generate rfl named

/-- The names of fields and oneofs are apart from each other, from those reserved in a class and
from those of the nested types. -/
theorem derivedMembers_extends (of : parts.PartsOf context place message) :
    Apart (parts.derivedMembers.map Member.name) ∧
      ∀ name ∈ parts.derivedMembers.map Member.name,
        ∀ taken ∈ classScope.taken ++ parts.typeMembers.map Member.name,
          Text.fold taken ≠ Text.fold name := by
  have names := derivedMembers_names of.covers
  obtain ⟨final, extension⟩ := of.covers.named.extension
  refine ⟨(names.map Text.fold).nodup_iff.mpr extension.apart, ?_⟩
  intro name inside
  exact extension.fresh name (names.subset inside)

/-- **No name of a field or a oneof is reserved in a class.** -/
theorem derivedMembers_fresh (of : parts.PartsOf context place message) :
    ∀ member ∈ parts.derivedMembers, ∀ reserved ∈ classScope.taken,
      Text.fold reserved ≠ Text.fold member.name := by
  intro member inside reserved taken
  exact (derivedMembers_extends of).2 member.name (List.mem_map_of_mem inside) reserved
    (List.mem_append_left _ taken)

/-- Names that are apart in two lists are apart in both together, if no name of one agrees with one
of the other. -/
theorem apart_append {left right : List String} :
    Apart (left ++ right) ↔ Apart left ∧ Apart right ∧
      ∀ name ∈ left, ∀ other ∈ right, Text.fold name ≠ Text.fold other := by
  simp only [Apart, List.map_append, List.nodup_append, List.mem_map, forall_exists_index, and_imp,
    forall_apply_eq_imp_iff₂]

/-- **The names of the members of a class are apart exactly if those of its nested types are.** -/
theorem declaredNames_apart_iff (of : parts.PartsOf context place message) :
    Apart (declaredNames parts.members) ↔ Apart parts.typeNames := by
  obtain ⟨derivedApart, fresh⟩ := derivedMembers_extends of
  rw [ClassParts.members, declaredNames_append, declaredNames_append, declaredNames_typeMembers,
    declaredNames_lifecycleMembers, declaredNames_eq_map fun member inside =>
      isForward_eq_false (derivedMembers_classless parts member inside),
    apart_append, apart_append]
  constructor
  · rintro ⟨⟨typesApart, -⟩, -⟩
    exact typesApart
  · intro typesApart
    refine ⟨⟨typesApart, derivedApart, ?_⟩, lifecycleNames_apart, ?_⟩
    · intro type nested name derived
      rw [← declaredNames_typeMembers, declaredNames] at nested
      obtain ⟨member, inside, rfl⟩ := List.mem_map.mp nested
      exact fresh name derived _
        (List.mem_append_right _ (List.mem_map_of_mem (List.mem_filter.mp inside).1))
    · intro name inside method lifecycle
      rcases List.mem_append.mp inside with nested | derived
      · exact typeNames_ne_lifecycleNames of nested lifecycle
      · exact (fresh name derived method
          (List.mem_append_left _ (lifecycleNames_reserved method lifecycle))).symm

end

/-! ### Classes inside classes -/

/-- A type declaration is, or holds at some depth, a class with the given members. -/
inductive HasClass : TypeDeclaration → List Member → Prop
  | self {name ancestor : String} {comment : List String} {members : List Member} :
    HasClass (.classType name ancestor comment members) members
  | nested {name ancestor : String} {comment note : List String} {outer members : List Member}
    {visibility : Visibility} {inner : TypeDeclaration}
    (inside : .nestedType visibility note inner ∈ outer) (deeper : HasClass inner members) :
    HasClass (.classType name ancestor comment outer) members

/-- A message at a place is, or holds at some depth, a message at a place inside it. -/
inductive Holds : Place → MessageType → Place → MessageType → Prop
  | self {place : Place} {message : MessageType} : Holds place message place message
  | nested {place place' : Place} {message inner message' : MessageType} {identifier : String}
    (named : typeIdentifier message.name = .ok identifier)
    (inside : inner ∈ message.nestedMessages)
    (deeper : Holds (place.inside message identifier) inner place' message') :
    Holds place message place' message'

/-- A type without classes holds no class. -/
theorem HasClass.isClass (visibility : Visibility) (note : List String) {inner : TypeDeclaration}
    {members : List Member} (inside : HasClass inner members) :
    isClass (.nestedType visibility note inner) = true := by
  cases inside with
  | self => rfl
  | nested => rfl

/-- A class among the members of a class is that of a nested message. -/
theorem exists_nested_of_hasClass {parts : ClassParts} {visibility : Visibility}
    {note : List String} {inner : TypeDeclaration} {members : List Member}
    (inside : .nestedType visibility note inner ∈ parts.members)
    (deeper : HasClass inner members) :
    ∃ generated ∈ parts.nested, inner = generated.declaration := by
  have isClass := deeper.isClass visibility note
  simp only [ClassParts.members, List.mem_append] at inside
  rcases inside with (type | derived) | lifecycle
  · simp only [ClassParts.typeMembers, nestedMembers, List.mem_append, List.mem_map,
      Member.nestedType.injEq] at type
    rcases type with (⟨declaration, -, -, -, rfl⟩ | ⟨generated, -, -, -, rfl⟩) |
      ⟨generated, found, -, -, rfl⟩
    · cases deeper
    · cases deeper
    · exact ⟨generated, found, rfl⟩
  · rw [derivedMembers_classless parts _ derived] at isClass
    exact absurd isClass Bool.noConfusion
  · rw [lifecycleMembers_classless parts _ lifecycle] at isClass
    exact absurd isClass Bool.noConfusion

/-- **Every class inside the class of a message is made of the parts of a message inside it.** -/
theorem HasClass.exists_parts {context : Context} {declaration : TypeDeclaration}
    {members : List Member} (inside : HasClass declaration members) :
    ∀ {place : Place} {message : MessageType} {generated : MessageClass},
      (generateMessage context place message).result = .ok generated →
      declaration = generated.declaration →
      ∃ place' message' parts, Holds place message place' message' ∧
        classParts context place' message' = .ok parts ∧ Apart (declaredNames parts.members) ∧
        members = parts.members := by
  induction inside with
  | self =>
    intro place message generated success same
    obtain ⟨parts, found, apart, rfl⟩ := generateMessage_eq_ok.mp success
    cases same
    exact ⟨place, message, parts, .self, found, apart, rfl⟩
  | nested inside deeper ih =>
    -- Only the classes of nested messages hold classes; the other members hold none.
    intro place message generated success same
    obtain ⟨parts, found, -, rfl⟩ := generateMessage_eq_ok.mp success
    have of := classParts_eq_ok.mp found
    cases same
    obtain ⟨generated, nested, rfl⟩ := exists_nested_of_hasClass inside deeper
    obtain ⟨inner, inner_inside, inner_success⟩ := exists_left_of_forall₂ of.nested nested
    obtain ⟨place', message', parts', holds, found', apart, rfl⟩ := ih inner_success rfl
    exact ⟨place', message', parts', .nested of.identifier inner_inside holds, found', apart, rfl⟩

/-! ### No two members clash -/

/-- Two positions of a list of names that are not apart hold names that agree. -/
theorem exists_agreeing_of_not_apart {names : List String} (clash : ¬ Apart names) :
    ∃ (i j : Nat) (first second : String), i < j ∧ names[i]? = some first ∧ names[j]? = some second ∧
      Text.fold first = Text.fold second := by
  rw [Apart, List.nodup_iff_getElem?_ne_getElem?] at clash
  push Not at clash
  obtain ⟨i, j, before, below, same⟩ := clash
  rw [List.length_map] at below
  rw [List.getElem?_map, List.getElem?_map, List.getElem?_eq_getElem (Nat.lt_trans before below),
    List.getElem?_eq_getElem below, Option.map_some, Option.map_some, Option.some.injEq] at same
  exact ⟨i, j, _, _, before, List.getElem?_eq_getElem _, List.getElem?_eq_getElem _, same⟩

/-- A class whose parts are there is not generated exactly if the comparison of its members fails. -/
theorem generateMessage_eq_error_iff {context : Context} {place : Place} {message : MessageType}
    {parts : ClassParts} (found : classParts context place message = .ok parts) {error : Error} :
    (generateMessage context place message).result = .error error ↔
      checkUniqueFrom (place.shownName message) [] parts.members = .error error := by
  rw [generateMessage_result, found]
  cases compared : checkUniqueFrom (place.shownName message) [] parts.members with
  | ok => simp [bind, Except.bind, compared, pure, Except.pure]
  | error other => simp [bind, Except.bind, compared]

/-- **Member names never clash.** In every class inside the class of a message the declared names
are apart, the names of fields and oneofs are not reserved in classes, and those of nested types are
not reserved for types. The comparison of the members can fail only for two types that are nested
directly in the message and have one identifier, up to the case of letters. -/
theorem member_names_never_clash (context : Context) (place : Place) (message : MessageType) :
    (∀ generated, (generateMessage context place message).result = .ok generated →
      ∀ members, HasClass generated.declaration members →
        Apart (declaredNames members) ∧
        ∃ place' message' parts, Holds place message place' message' ∧
          classParts context place' message' = .ok parts ∧
          members = parts.typeMembers ++ parts.derivedMembers ++ parts.lifecycleMembers ∧
          (∀ member ∈ parts.derivedMembers, ∀ reserved ∈ classScope.taken,
            Text.fold reserved ≠ Text.fold member.name) ∧
          ∀ member ∈ parts.typeMembers, ∀ reserved ∈ typeScope.taken,
            Text.fold reserved ≠ Text.fold member.name) ∧
    ∀ parts error, classParts context place message = .ok parts →
      ((generateMessage context place message).result = .error error ↔
        checkUniqueFrom (place.shownName message) [] parts.members = .error error) ∧
      (checkUniqueFrom (place.shownName message) [] parts.members = .error error →
        ∃ (i j : Nat) (first second firstIdentifier secondIdentifier : String), i < j ∧
          (nestedTypeNames message)[i]? = some first ∧
          (nestedTypeNames message)[j]? = some second ∧
          typeIdentifier first = .ok firstIdentifier ∧
          typeIdentifier second = .ok secondIdentifier ∧
          Text.fold firstIdentifier = Text.fold secondIdentifier) := by
  constructor
  · intro generated success members inside
    obtain ⟨place', message', parts, holds, found, apart, rfl⟩ := inside.exists_parts success rfl
    have of := classParts_eq_ok.mp found
    exact ⟨apart, place', message', parts, holds, found, rfl, derivedMembers_fresh of,
      typeMembers_fresh of⟩
  · intro parts error found
    refine ⟨generateMessage_eq_error_iff found, fun failed => ?_⟩
    have of := classParts_eq_ok.mp found
    have clash : ¬ Apart parts.typeNames := by
      intro apart
      have passed : checkUniqueFrom (place.shownName message) [] parts.members = .ok () :=
        checkUniqueFrom_eq_ok.mpr
          ⟨(declaredNames_apart_iff of).mpr apart, fun _ _ => List.not_mem_nil⟩
      rw [passed] at failed
      cases failed
    obtain ⟨i, j, first, second, before, atFirst, atSecond, same⟩ :=
      exists_agreeing_of_not_apart clash
    have identifiers := typeNames_identifiers of
    obtain ⟨source, atSource, named⟩ := exists_left_getElem? identifiers atFirst
    obtain ⟨other, atOther, otherNamed⟩ := exists_left_getElem? identifiers atSecond
    exact ⟨i, j, source, other, first, second, before, atSource, atOther, named, otherNamed, same⟩

/-- A message with a nested type and a field whose property would have the name of its class. -/
def nestingMessage : MessageType :=
  { name := "Outer"
    fields := [{ name := "t_inner", number := 1, type := .scalar .int32 }]
    nestedMessages := [{ name := "Inner" }] }

/-- A message with two nested types of one identifier. -/
def clashingMessage : MessageType :=
  { name := "Outer", nestedMessages := [{ name := "Foo_bar" }, { name := "FooBar" }] }

/-- The types of no file. -/
def emptyContext : Context :=
  { index := { types := [] }, runtime := .reference, unit := "uSample" }

/-- The one message has a class whose member names are apart. The other one has none, since its
nested types clash. -/
theorem nesting_and_clashing_names :
    (∃ generated, (generateMessage emptyContext ⟨"", none⟩ nestingMessage).result = .ok generated ∧
      Apart (declaredNames generated.members)) ∧
    ∃ parts error, classParts emptyContext ⟨"", none⟩ clashingMessage = .ok parts ∧
      (generateMessage emptyContext ⟨"", none⟩ clashingMessage).result = .error error ∧
      ∃ (i j : Nat) (first second firstIdentifier secondIdentifier : String), i < j ∧
        (nestedTypeNames clashingMessage)[i]? = some first ∧
        (nestedTypeNames clashingMessage)[j]? = some second ∧
        typeIdentifier first = .ok firstIdentifier ∧
        typeIdentifier second = .ok secondIdentifier ∧
        Text.fold firstIdentifier = Text.fold secondIdentifier := by
  constructor
  · have evaluated : (do
        let generated ← (generateMessage emptyContext ⟨"", none⟩ nestingMessage).result
        return generated.name) = .ok "TOuter" := by
      decide +kernel
    obtain ⟨generated, success, -⟩ := bind_eq_ok.mp evaluated
    obtain ⟨classes, -⟩ := member_names_never_clash emptyContext ⟨"", none⟩ nestingMessage
    exact ⟨generated, success, (classes generated success _ .self).1⟩
  · have evaluated : (do
        let parts ← classParts emptyContext ⟨"", none⟩ clashingMessage
        return (checkUniqueFrom (Place.shownName ⟨"", none⟩ clashingMessage) []
          parts.members).toOption) = .ok none := by
      decide +kernel
    obtain ⟨parts, found, failed⟩ := bind_eq_ok.mp evaluated
    obtain ⟨-, clash⟩ := member_names_never_clash emptyContext ⟨"", none⟩ clashingMessage
    cases compared : checkUniqueFrom (Place.shownName ⟨"", none⟩ clashingMessage) []
        parts.members with
    | ok =>
      rw [compared] at failed
      cases failed
    | error error =>
      obtain ⟨fails, agree⟩ := clash parts error found
      exact ⟨parts, error, found, fails.mpr compared, agree compared⟩

end ProtoPascal.Message
