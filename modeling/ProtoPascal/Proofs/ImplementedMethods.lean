import ProtoPascal.Proofs.Execution.ClassCode
import ProtoPascal.Proofs.TypeReferences

/-!
Declared methods and their implementations. A unit declares methods in classes, which can be nested,
and implements all of them in one list. `unitMethods` goes through the declarations of a unit and
visits nested classes at their place.

* `typeMethods_of_generated`: a class implements the methods that it declares, in order;
* `filter_members_eq`: the name of what a field or a oneof declares stands for it alone;
* `methods_implemented_once`: a unit implements the methods that it declares, each once and in order,
  and the accessors of each property are methods of its class.
-/

namespace ProtoPascal

open Message
open Naming
open Pascal
open Schema (MessageType)

/-! ### Methods in the order of their declaration -/

namespace Pascal

/-- The method that an item declares. -/
def Item.method? : Item → Option Method
  | .method declared => some declared
  | _ => none

/-- The method that a member declares, those of nested types apart. -/
def Member.method? : Member → Option Method
  | .item _ _ declared => declared.method?
  | .nestedType _ _ _ => none

mutual

/-- The methods that a type declares inside classes with names, each with the path of its class. -/
def typeMethods (outer : List String) : TypeDeclaration → List (String × Method)
  | .forwardClass _ => []
  | .enumType _ => []
  | .classType name _ _ members => memberMethods (outer ++ [name]) members

/-- The methods that the members of the class with a path declare, those of nested classes at their
place. -/
def memberMethods (path : List String) : List Member → List (String × Method)
  | [] => []
  | .item _ _ declared :: rest =>
    (declared.method?.map fun method => (Text.join "." path, method)).toList
      ++ memberMethods path rest
  | .nestedType _ _ declared :: rest => typeMethods path declared ++ memberMethods path rest

end

/-- The methods that a unit declares, each with the path of its class. -/
def unitMethods (unit : CodeUnit) : List (String × Method) :=
  unit.types.flatMap (typeMethods [])

end Pascal

/-- The class and the method that are implemented. -/
def signature (implementation : Implementation Action Expr) : String × Method :=
  (implementation.className, implementation.method)

theorem memberMethods_append (path : List String) (left right : List Member) :
    memberMethods path (left ++ right) = memberMethods path left ++ memberMethods path right := by
  induction left with
  | nil => rfl
  | cons member rest ih =>
    cases member with
    | item => rw [List.cons_append, memberMethods, memberMethods, ih, List.append_assoc]
    | nestedType => rw [List.cons_append, memberMethods, memberMethods, ih, List.append_assoc]

/-- Members without classes declare their own methods only. -/
theorem memberMethods_classless {path : List String} {members : List Member}
    (classless : ∀ member ∈ members, isClass member = false) :
    memberMethods path members =
      (members.filterMap Member.method?).map fun method => (Text.join "." path, method) := by
  induction members with
  | nil => rfl
  | cons member rest ih =>
    rw [List.forall_mem_cons] at classless
    rcases member with ⟨visibility, comment, item⟩ | ⟨visibility, comment, name | declaration | _⟩
    · rw [memberMethods, ih classless.2, List.filterMap_cons, Member.method?]
      cases item.method? <;> rfl
    · exact absurd classless.1 Bool.noConfusion
    · rw [memberMethods, ih classless.2]
      rfl
    · exact absurd classless.1 Bool.noConfusion

/-- The types nested in a class declare the methods of the nested classes. -/
theorem memberMethods_typeMembers (path : List String) (parts : ClassParts) :
    memberMethods path parts.typeMembers =
      parts.nested.flatMap fun generated => typeMethods path generated.declaration := by
  have enums : memberMethods path (parts.enums.map fun declaration =>
      .nestedType .publicSection [] (.enumType declaration)) = [] := by
    induction parts.enums with
    | nil => rfl
    | cons declaration rest ih => rw [List.map_cons, memberMethods, ih, typeMethods]; rfl
  have announced : memberMethods path (parts.nested.map fun generated =>
      .nestedType .publicSection [] (.forwardClass generated.name)) = [] := by
    induction parts.nested with
    | nil => rfl
    | cons generated rest ih => rw [List.map_cons, memberMethods, ih, typeMethods]; rfl
  have classes : memberMethods path (parts.nested.map fun generated =>
      .nestedType .publicSection [] generated.declaration) =
        parts.nested.flatMap fun generated => typeMethods path generated.declaration := by
    induction parts.nested with
    | nil => rfl
    | cons generated rest ih => rw [List.map_cons, memberMethods, ih, List.flatMap_cons]
  rw [ClassParts.typeMembers, nestedMembers, memberMethods_append, memberMethods_append, enums,
    announced, classes, List.nil_append, List.nil_append]

/-! ### The methods of a class -/

theorem fieldImplementations_methods (plan : FieldPlan) :
    plan.implementations.map Implementation.method =
      plan.declarations.filterMap Member.method? := by
  dsimp only [FieldPlan.implementations, FieldPlan.declarations]
  cases plan.names.presence with
  | none => rfl
  | some presence => rfl

theorem oneofImplementations_methods (plan : OneofPlan) :
    plan.implementations.map Implementation.method =
      plan.declarations.filterMap Member.method? := rfl

/-- **A class implements the methods that its own members declare**, in order. -/
theorem ownImplementation_methods (parts : ClassParts) :
    parts.ownImplementation.map Implementation.method =
      (parts.derivedMembers ++ parts.lifecycleMembers).filterMap Member.method? := by
  have lifecycle : (parts.plan.methods.map (ClassMethod.implementation parts.className)).map
      Implementation.method = parts.lifecycleMembers.filterMap Member.method? := rfl
  rw [ClassParts.ownImplementation, List.map_append, List.filterMap_append, lifecycle,
    ClassParts.derivedMembers, map_flatMapSlots, filterMap_flatMapSlots]
  simp only [fieldImplementations_methods, oneofImplementations_methods]

/-- **A class implements the methods that it declares**, in order, those of nested classes first. -/
theorem typeMethods_of_generated {context : Context} (message : MessageType) :
    ∀ {place : Place} {generated : MessageClass} {outer : List String},
      (generateMessage context place message).result = .ok generated →
      place.parentClass = outerName outer →
      typeMethods outer generated.declaration = generated.implementation.map signature := by
  induction message using nested_induction with
  | step message ih =>
    intro place generated outer success placed
    obtain ⟨parts, found, -, rfl⟩ := generateMessage_eq_ok.mp success
    have of := classParts_eq_ok.mp found
    have className_eq : Text.join "." (outer ++ [parts.identifier]) = parts.className := by
      rw [of.className_eq, placed, nestedIn_outerName]
    -- The path of a nested class goes on from that of the class around it.
    have deeper : parts.nested.flatMap (fun inner =>
        typeMethods (outer ++ [parts.identifier]) inner.declaration) =
          (parts.nested.flatMap MessageClass.implementation).map signature := by
      rw [List.map_flatMap]
      refine List.flatMap_congr fun inner inside => ?_
      obtain ⟨source, declared, inner_success⟩ := exists_left_of_forall₂ of.nested inside
      refine ih source declared inner_success ?_
      rw [Place.inside, placed, nestedIn_outerName, outerName_concat]
    have own : parts.ownImplementation.map signature =
        (parts.ownImplementation.map Implementation.method).map
          fun method => (parts.className, method) := by
      rw [List.map_map]
      refine List.map_congr_left fun implementation inside => ?_
      rw [signature, Execution.ownImplementation_className of implementation inside]
      rfl
    have classless (member : Member)
        (inside : member ∈ parts.derivedMembers ++ parts.lifecycleMembers) :
        isClass member = false := by
      rcases List.mem_append.mp inside with derived | lifecycle
      · exact derivedMembers_classless parts member derived
      · exact lifecycleMembers_classless parts member lifecycle
    show memberMethods (outer ++ [parts.identifier]) parts.members =
      (parts.nested.flatMap MessageClass.implementation ++ parts.ownImplementation).map signature
    rw [ClassParts.members, List.append_assoc, memberMethods_append, memberMethods_typeMembers, deeper,
      memberMethods_classless classless, ← ownImplementation_methods, className_eq, List.map_append, own]

/-! ### The accessors of properties -/

/-- A name stands for one member of a class alone, which is a method. -/
def NamesMethod (members : List Member) (name : String) (method : Method) : Prop :=
  method.name = name ∧ ∃ visibility comment,
    members.filter (fun member => Text.sameLetters member.name name) =
      [.item visibility comment (.method method)]

/-- A property of a class is read by a function without parameters and written by a procedure with one
parameter, both methods of the class and of the type of the property. -/
structure Accessible (members : List Member) (type getter setter : String) : Prop where
  getter : ∃ method, NamesMethod members getter method ∧ method.kind = .function ∧
    method.parameters = [] ∧ method.returnType = some type
  setter : ∃ method parameter, NamesMethod members setter method ∧ method.kind = .procedure ∧
    method.parameters = [⟨parameter, type⟩] ∧ method.returnType = none

/-- What has a key that no other item has is all that is found under the key. -/
theorem filter_eq_singleton {α β : Type} [DecidableEq β] {key : α → β} {items : List α} {item : α}
    (different : (items.map key).Nodup) (inside : item ∈ items) :
    items.filter (fun other => key other = key item) = [item] := by
  induction items with
  | nil => cases inside
  | cons first rest ih =>
    rw [List.map_cons, List.nodup_cons] at different
    rcases List.mem_cons.mp inside with rfl | later
    · rw [List.filter_cons, if_pos (decide_eq_true rfl), List.filter_eq_nil_iff.mpr]
      intro other other_inside same
      exact different.1 (List.mem_map.mpr ⟨other, other_inside, of_decide_eq_true same⟩)
    · rw [List.filter_cons, if_neg, ih different.2 later]
      intro same
      exact different.1 (List.mem_map.mpr ⟨item, later, (of_decide_eq_true same).symm⟩)

section

variable {parts : ClassParts} {context : Context} {place : Place} {message : MessageType}

/-- **The name of what a field or a oneof declares stands for it alone** in its class. -/
theorem filter_members_eq (of : parts.PartsOf context place message) {member : Member}
    (inside : member ∈ parts.derivedMembers) :
    parts.members.filter (fun other => Text.sameLetters other.name member.name) = [member] := by
  obtain ⟨apart, fresh⟩ := derivedMembers_extends of
  have agree : (fun other : Member => Text.sameLetters other.name member.name) =
      fun other => decide (Text.fold other.name = Text.fold member.name) := by
    funext other
    rw [Bool.eq_iff_iff, Text.sameLetters_iff_fold, decide_eq_true_eq]
  have types : parts.typeMembers.filter (fun other =>
      decide (Text.fold other.name = Text.fold member.name)) = [] := by
    refine List.filter_eq_nil_iff.mpr fun other nested same => ?_
    exact fresh member.name (List.mem_map_of_mem inside) other.name
      (List.mem_append_right _ (List.mem_map_of_mem nested)) (of_decide_eq_true same)
  have lifecycle : parts.lifecycleMembers.filter (fun other =>
      decide (Text.fold other.name = Text.fold member.name)) = [] := by
    refine List.filter_eq_nil_iff.mpr fun other method same => ?_
    have reserved := lifecycleNames_reserved other.name (List.mem_map_of_mem method)
    exact fresh member.name (List.mem_map_of_mem inside) other.name
      (List.mem_append_left _ reserved) (of_decide_eq_true same)
  have derived : parts.derivedMembers.filter (fun other =>
      decide (Text.fold other.name = Text.fold member.name)) = [member] := by
    rw [Apart, List.map_map] at apart
    exact filter_eq_singleton apart inside
  rw [agree, ClassParts.members, List.filter_append, List.filter_append, types, derived, lifecycle]
  rfl

/-- The accessors of a property are among members. -/
def HasAccessors (members : List Member) (type getter setter : String) : Prop :=
  plainMember .protectedSection (.method (getterMethod getter type)) ∈ members ∧
    plainMember .protectedSection (.method (setterMethod setter type)) ∈ members

variable {visibility : Visibility} {comment : List String} {name type getter setter : String}

theorem fieldDeclarations_accessors (plan : FieldPlan)
    (declared : .item visibility comment (.property name type getter setter) ∈ plan.declarations) :
    HasAccessors plan.declarations type getter setter := by
  unfold HasAccessors
  cases present : plan.names.presence with
  | none =>
    simp only [FieldPlan.declarations, plainMember, present, Option.map_none, Option.getD_none,
      Option.toList_none, List.append_nil, List.cons_append, List.nil_append, List.mem_cons,
      List.not_mem_nil, or_false, Member.item.injEq, Item.property.injEq, reduceCtorEq, and_false,
      false_or] at declared ⊢
    obtain ⟨-, -, -, rfl, rfl, rfl⟩ := declared
    simp [FieldPlan.getterMethod, FieldPlan.setterMethod]
  | some presence =>
    simp only [FieldPlan.declarations, plainMember, present, Option.map_some, Option.getD_some,
      Option.toList_some, PresenceNames.methodMembers, PresenceNames.propertyMember, List.cons_append,
      List.nil_append, List.mem_cons, List.not_mem_nil, or_false, Member.item.injEq,
      Item.property.injEq, reduceCtorEq, and_false, false_or] at declared ⊢
    rcases declared with ⟨-, -, -, rfl, rfl, rfl⟩ | ⟨-, -, -, rfl, rfl, rfl⟩
    · simp [FieldPlan.getterMethod, FieldPlan.setterMethod]
    · simp [PresenceNames.getterMethod, PresenceNames.setterMethod]

theorem oneofDeclarations_accessors (plan : OneofPlan)
    (declared : .item visibility comment (.property name type getter setter) ∈ plan.declarations) :
    HasAccessors plan.declarations type getter setter := by
  simp only [HasAccessors, OneofPlan.declarations, plainMember, List.mem_cons, List.not_mem_nil, or_false,
    Member.item.injEq, Item.property.injEq, reduceCtorEq, and_false, false_or] at declared ⊢
  obtain ⟨-, -, -, rfl, rfl, rfl⟩ := declared
  simp [OneofNames.getterMethod, OneofNames.setterMethod]

/-- The properties of a class are those that its fields and oneofs declare, with their accessors. -/
theorem derivedMembers_accessors (of : parts.PartsOf context place message)
    (declared : .item visibility comment (.property name type getter setter) ∈ parts.members) :
    HasAccessors parts.derivedMembers type getter setter := by
  have inside_iff {member : Member} : member ∈ parts.derivedMembers ↔ _ :=
    mem_flatMapSlots of.covers.slots_perm
  simp only [ClassParts.members, List.mem_append] at declared
  rcases declared with (nested | derived) | lifecycle
  · simp [ClassParts.typeMembers, nestedMembers] at nested
  · rcases inside_iff.mp derived with ⟨field, inside, declared⟩ | ⟨oneof, inside, declared⟩
    · obtain ⟨reads, writes⟩ := fieldDeclarations_accessors field declared
      exact ⟨inside_iff.mpr (.inl ⟨field, inside, reads⟩), inside_iff.mpr (.inl ⟨field, inside, writes⟩)⟩
    · obtain ⟨reads, writes⟩ := oneofDeclarations_accessors oneof declared
      exact ⟨inside_iff.mpr (.inr ⟨oneof, inside, reads⟩), inside_iff.mpr (.inr ⟨oneof, inside, writes⟩)⟩
  · obtain ⟨method, -, same⟩ := List.mem_map.mp lifecycle
    cases same

/-- **The properties of a class are accessible.** -/
theorem properties_accessible (of : parts.PartsOf context place message)
    (declared : .item visibility comment (.property name type getter setter) ∈ parts.members) :
    Accessible parts.members type getter setter := by
  obtain ⟨reads, writes⟩ := derivedMembers_accessors of declared
  refine ⟨⟨getterMethod getter type, ⟨rfl, _, _, filter_members_eq of reads⟩, rfl, rfl, rfl⟩, ?_⟩
  exact ⟨setterMethod setter type, "aValue", ⟨rfl, _, _, filter_members_eq of writes⟩, rfl, rfl, rfl⟩

end

/-! ### Units -/

/-- **Declared methods are implemented once.** A unit implements the methods that its classes declare,
each under the path of its class, in the order of the declarations. In each class, at any depth, the
properties are accessible. -/
theorem methods_implemented_once {index : TypeIndex} {runtime : Runtime} {file : Schema.File}
    {unit : CodeUnit} (generated : (generateUnit index runtime file).result = .ok unit) :
    unit.implementation.map signature = unitMethods unit ∧
      ∀ declaration ∈ unit.types, ∀ members, HasClass declaration members →
        ∀ visibility comment name type getter setter,
          .item visibility comment (.property name type getter setter) ∈ members →
            Accessible members type getter setter := by
  obtain ⟨identifier, declarations, classes, parts⟩ := generateUnit_parts generated
  have ofClass (result : MessageClass) (inside : result ∈ classes) :=
    exists_left_of_forall₂ parts.made inside
  rw [unitMethods, parts.types, parts.implementation, unitTypes]
  constructor
  · have enums : (declarations.map TypeDeclaration.enumType).flatMap (typeMethods []) = [] := by
      simp [typeMethods]
    have announced : (classes.map fun result => TypeDeclaration.forwardClass result.name).flatMap
        (typeMethods []) = [] := by
      simp [typeMethods]
    rw [List.flatMap_append, List.flatMap_append, enums, announced, List.nil_append,
      List.nil_append, List.map_flatMap, List.flatMap_map]
    refine List.flatMap_congr fun result inside => ?_
    obtain ⟨message, -, success⟩ := ofClass result inside
    exact (typeMethods_of_generated message success rfl).symm
  · intro declaration inside members holds visibility comment name type getter setter declared
    simp only [List.mem_append, List.mem_map] at inside
    rcases inside with (⟨enumeration, -, rfl⟩ | ⟨result, -, rfl⟩) | ⟨result, inside, rfl⟩
    · cases holds
    · cases holds
    · obtain ⟨message, -, success⟩ := ofClass result inside
      obtain ⟨_, _, classParts, -, found, -, rfl⟩ := holds.exists_parts success rfl
      exact properties_accessible (classParts_eq_ok.mp found) declared

/-- A file with a oneof in a nested message. -/
def wiredFile : Schema.File :=
  { name := "wired.proto"
    messages :=
      [{ name := "Outer"
         fields := [{ name := "items", number := 1, type := .scalar .int32, repeated := true }]
         nestedMessages :=
           [{ name := "Inner"
              fields :=
                [{ name := "text", number := 1, type := .scalar .string, oneofIndex := some 0 }]
              oneofs := [{ name := "choice" }] }] }] }

/-- The names of the accessors that a unit declares, each with the path of its class. -/
def accessorNames (unit : CodeUnit) : List (String × String) :=
  ((unitMethods unit).filter fun entry => entry.2.binding = .virtual).map
    fun entry => (entry.1, entry.2.name)

/-- The accessors of the nested class are implemented before those of the class around it. -/
theorem wired_methods_implemented_once :
    ∃ unit, (generateUnit { units := [("wired.proto", ⟨[], "uWired"⟩)] } .reference
        wiredFile).result = .ok unit ∧
      accessorNames unit =
        [("TOuter.TInner", "GetChoice"), ("TOuter.TInner", "SetChoice"),
         ("TOuter.TInner", "GetText"), ("TOuter.TInner", "SetText"),
         ("TOuter.TInner", "GetHasText"), ("TOuter.TInner", "SetHasText"),
         ("TOuter", "GetItems"), ("TOuter", "SetItems")] ∧
      unit.implementation.map signature = unitMethods unit ∧
      ∀ declaration ∈ unit.types, ∀ members, HasClass declaration members →
        ∀ visibility comment name type getter setter,
          .item visibility comment (.property name type getter setter) ∈ members →
            Accessible members type getter setter := by
  have evaluated : (do
      let unit ← (generateUnit { units := [("wired.proto", ⟨[], "uWired"⟩)] } .reference
        wiredFile).result
      return accessorNames unit) = .ok
        [("TOuter.TInner", "GetChoice"), ("TOuter.TInner", "SetChoice"),
         ("TOuter.TInner", "GetText"), ("TOuter.TInner", "SetText"),
         ("TOuter.TInner", "GetHasText"), ("TOuter.TInner", "SetHasText"),
         ("TOuter", "GetItems"), ("TOuter", "SetItems")] := by
    decide +kernel
  obtain ⟨unit, generated, accessors⟩ := bind_eq_ok.mp evaluated
  exact ⟨unit, generated, pure_eq_ok.mp accessors, methods_implemented_once generated⟩

end ProtoPascal
