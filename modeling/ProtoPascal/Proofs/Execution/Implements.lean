import ProtoPascal.Proofs.Execution.ClassCode
import ProtoPascal.Proofs.Execution.Instance

/-!
The code of a plan. `Implements` says that the code of a class is the one that a plan describes:
every name that the plan gives to a field or a oneof is found as the plan declares it, and every
method has the body that the plan gives it.

Main statement: `Generated.implements`, the code that is generated for a message of a file from a
descriptor is the one that its plan describes.
-/

namespace ProtoPascal.Execution

open Message
open Naming (Apart)
open Pascal
open Schema (MessageType)

/-- The code of a class is the one that a plan describes: names are found where the plan declares
them, and methods have the bodies that the plan gives them. -/
structure Implements (code : ClassCode) (plan : ClassPlan) : Prop where
  wellFormed : plan.WellFormed
  fieldItem : ∀ field ∈ plan.fields, ∀ visibility comment item,
    .item visibility comment item ∈ field.declarations → code.item? item.name = some item
  oneofItem : ∀ oneof ∈ plan.oneofs, ∀ visibility comment item,
    .item visibility comment item ∈ oneof.declarations → code.item? item.name = some item
  caseValue : ∀ oneof ∈ plan.oneofs, ∀ value ∈ oneof.names.caseEnum.values,
    code.enumValue? oneof.names.caseType value.name =
      some (.enumeration oneof.names.caseType value.ordinal)
  fieldMethod : ∀ field ∈ plan.fields, ∀ implementation ∈ field.implementations,
    code.method? implementation.method.name = some implementation
  oneofMethod : ∀ oneof ∈ plan.oneofs, ∀ implementation ∈ oneof.implementations,
    code.method? implementation.method.name = some implementation
  classMethod : ∀ method ∈ plan.methods,
    code.method? method.method.name = some (method.implementation plan.className)
  ancestor : code.method? "HasUnparsedField" = none

/-- The code has a method with a name, parameters and a body. -/
def ClassCode.Has (code : ClassCode) (name : String) (parameters : List Parameter) (body : Body) :
    Prop :=
  ∃ implementation, code.method? name = some implementation ∧
    implementation.method.parameters = parameters ∧ implementation.body = body

/-- The name at a position among the case values names the value of this ordinal. -/
theorem mem_caseEnum {names : OneofNames} (position : Nat) {name : String}
    (found : names.valueNames[position]? = some name) :
    { name, ordinal := position : EnumMember } ∈ names.caseEnum.values := by
  refine List.mem_of_getElem? (i := position) ?_
  show (names.valueNames.mapIdx _)[position]? = _
  rw [List.getElem?_mapIdx, found, Option.map_some]

/-- The code of the class of an accepted message is the one that its plan describes. -/
theorem implements_of_partsOf {parts : ClassParts} {context : Context} {place : Place}
    {message : MessageType} (of : parts.PartsOf context place message)
    (apart : Apart (declaredNames parts.members)) (accepted : message.Accepted)
    (shownName : String) : Implements (classCode place (parts.assemble shownName)) parts.plan := by
  have covers := of.covers
  have wellFormed := covers.wellFormed accepted
  have derived : ∀ member ∈ parts.derivedMembers,
      member ∈ (classCode place (parts.assemble shownName)).members := by
    intro member inside
    exact List.mem_append_left _ (List.mem_append_right _ inside)
  have ofField : ∀ field ∈ parts.plan.fields, ∀ member ∈ field.declarations,
      member ∈ (classCode place (parts.assemble shownName)).members := by
    intro field inside member member_inside
    exact derived member
      ((mem_flatMapSlots covers.slots_perm).mpr (.inl ⟨field, inside, member_inside⟩))
  have ofOneof : ∀ oneof ∈ parts.plan.oneofs, ∀ member ∈ oneof.declarations,
      member ∈ (classCode place (parts.assemble shownName)).members := by
    intro oneof inside member member_inside
    exact derived member
      ((mem_flatMapSlots covers.slots_perm).mpr (.inr ⟨oneof, inside, member_inside⟩))
  refine ⟨wellFormed, ?_, ?_, ?_, ?_, ?_, ?_, method?_hasUnparsedField of shownName⟩
  · intro field inside visibility comment item item_inside
    exact item?_of_mem apart (ofField field inside _ item_inside)
  · intro oneof inside visibility comment item item_inside
    exact item?_of_mem apart (ofOneof oneof inside _ item_inside)
  · intro oneof inside value value_inside
    refine enumValue?_of_mem apart (ofOneof oneof inside _ (List.mem_cons_self ..)) value_inside ?_
    rw [caseEnum_names]
    exact wellFormed.values oneof inside
  · intro field inside implementation implementation_inside
    refine method?_of_mem of apart shownName (List.mem_append_left _ ?_)
    exact (mem_flatMapSlots covers.slots_perm).mpr (.inl ⟨field, inside, implementation_inside⟩)
  · intro oneof inside implementation implementation_inside
    refine method?_of_mem of apart shownName (List.mem_append_left _ ?_)
    exact (mem_flatMapSlots covers.slots_perm).mpr (.inr ⟨oneof, inside, implementation_inside⟩)
  · intro method inside
    have own : method.implementation parts.className ∈ parts.ownImplementation :=
      List.mem_append_right _ (List.mem_map_of_mem inside)
    rw [covers.className_eq]
    exact method?_of_mem of apart shownName own

/-- The code of the class that is generated for a message, and the plan of this class. The message
is declared at any depth in a file that a descriptor describes. -/
inductive Generated (message : MessageType) : ClassCode → ClassPlan → Prop where
  | ofMessage {descriptor : Schema.FileDescriptor} {file : Schema.File} {outer : MessageType}
      {context : Context} {place : Place} {generated : MessageClass} {parts : ClassParts}
      (accepted : Schema.File.ofDescriptor descriptor = .ok file)
      (declared : outer ∈ file.messages) (within : message.Within outer)
      (generates : (generateMessage context place message).result = .ok generated)
      (planned : classParts context place message = .ok parts) :
      Generated message (classCode place generated) parts.plan

/-- **Generated code is the one that its plan describes.** -/
theorem Generated.implements {message : MessageType} {code : ClassCode} {plan : ClassPlan}
    (generated : Generated message code plan) : Implements code plan := by
  obtain ⟨accepted, declared, within, generates, planned⟩ := generated
  obtain ⟨parts, sameParts, apart, rfl⟩ := generateMessage_eq_ok.mp generates
  rw [planned, Except.ok.injEq] at sameParts
  subst sameParts
  exact implements_of_partsOf (classParts_eq_ok.mp planned) apart
    (Schema.File.ofDescriptor_accepted accepted declared within) _

/-- The plan has the fields and the oneofs of the message, in order. -/
theorem Generated.members {message : MessageType} {code : ClassCode} {plan : ClassPlan}
    (generated : Generated message code plan) :
    plan.fields.map FieldPlan.field = message.fields ∧
      plan.oneofs.map (fun oneof => oneof.members.map FieldPlan.field) =
        (List.range message.oneofs.length).map message.oneofMembers := by
  obtain ⟨-, -, -, -, planned⟩ := generated
  have covers := (classParts_eq_ok.mp planned).covers
  refine ⟨covers.fields_eq, List.ext_getElem? fun position => ?_⟩
  rw [List.getElem?_map, List.getElem?_map, ← covers.oneofs_length]
  cases found : ClassParts.plan _ |>.oneofs[position]? with
  | none =>
    rw [List.getElem?_eq_none_iff] at found
    rw [List.getElem?_eq_none (by rwa [List.length_range])]
    rfl
  | some oneof =>
    have below := (List.getElem?_eq_some_iff.mp found).1
    rw [List.getElem?_range below, Option.map_some, Option.map_some, covers.members_eq found]

/-! ### Names of fields and oneofs -/

namespace Implements

variable {code : ClassCode} {plan : ClassPlan} (implements : Implements code plan)
  {field : FieldPlan} (inside : field ∈ plan.fields) {oneof : OneofPlan}
  (inside' : oneof ∈ plan.oneofs)

include implements inside in
theorem backing : code.item? field.names.backing =
    some (.field field.names.backing field.internalType) :=
  implements.fieldItem field inside .privateSection [] (.field _ _) (by
    simp [FieldPlan.declarations, plainMember])

include implements inside in
theorem property : code.item? field.names.property =
    some (.property field.names.property field.publicType field.names.getter
      field.names.setter) :=
  implements.fieldItem field inside .publicSection field.propertyComment (.property _ _ _ _) (by
    simp [FieldPlan.declarations, plainMember])

include implements inside in
theorem number : code.item? field.names.numberConstant =
    some (.constant field.names.numberConstant (toString field.field.number)) :=
  implements.fieldItem field inside .publicSection [] (.constant _ _) (by
    simp [FieldPlan.declarations, plainMember])

include implements inside in
theorem presenceProperty {presence : PresenceNames}
    (present : field.names.presence = some presence) :
    code.item? presence.property =
      some (.property presence.property "Boolean" presence.getter presence.setter) :=
  implements.fieldItem field inside .publicSection field.presenceComment (.property _ _ _ _) (by
    simp [FieldPlan.declarations, plainMember, present, PresenceNames.propertyMember])

include implements inside in
theorem getter : code.method? field.names.getter =
    some (field.implement field.getterMethod field.getterBody) :=
  implements.fieldMethod field inside (field.implement field.getterMethod field.getterBody) (by
    simp [FieldPlan.implementations])

include implements inside in
theorem setter : code.method? field.names.setter =
    some (field.implement field.setterMethod field.setterBody) :=
  implements.fieldMethod field inside (field.implement field.setterMethod field.setterBody) (by
    simp [FieldPlan.implementations])

include implements inside in
theorem presenceGetter {presence : PresenceNames}
    (present : field.names.presence = some presence) : code.method? presence.getter =
      some (field.implement presence.getterMethod field.presenceGetterBody) :=
  implements.fieldMethod field inside
    (field.implement presence.getterMethod field.presenceGetterBody) (by
      simp [FieldPlan.implementations, present])

include implements inside in
theorem presenceSetter {presence : PresenceNames}
    (present : field.names.presence = some presence) : code.method? presence.setter =
      some (field.implement presence.setterMethod field.presenceSetterBody) :=
  implements.fieldMethod field inside
    (field.implement presence.setterMethod field.presenceSetterBody) (by
      simp [FieldPlan.implementations, present])

include implements inside' in
theorem caseBacking : code.item? oneof.names.backing =
    some (.field oneof.names.backing oneof.names.caseType) :=
  implements.oneofItem oneof inside' .privateSection [] (.field _ _) (by
    simp [OneofPlan.declarations, plainMember])

include implements inside' in
theorem caseProperty : code.item? oneof.names.property =
    some (.property oneof.names.property oneof.names.caseType oneof.names.getter
      oneof.names.setter) :=
  implements.oneofItem oneof inside' .publicSection oneof.names.propertyComment
    (.property _ _ _ _) (by simp [OneofPlan.declarations, plainMember])

include implements inside' in
theorem caseGetter : code.method? oneof.names.getter = some
    { className := oneof.className, method := oneof.names.getterMethod,
      body := oneof.getterBody } :=
  implements.oneofMethod oneof inside' _ (List.mem_cons_self ..)

include implements inside' in
theorem caseSetter : code.method? oneof.names.setter = some
    { className := oneof.className, method := oneof.names.setterMethod,
      body := oneof.setterBody } :=
  implements.oneofMethod oneof inside' _ (List.mem_cons_of_mem _ (List.mem_cons_self ..))

include implements inside' in
theorem noneValue : code.enumValue? oneof.names.caseType oneof.names.noneValue =
    some (caseAt oneof 0) :=
  implements.caseValue oneof inside' _ (mem_caseEnum 0 rfl)

include implements inside' in
theorem memberValue {position : Nat} {value : CaseValue}
    (found : oneof.names.caseValues[position]? = some value) :
    code.enumValue? oneof.names.caseType value.name = some (caseAt oneof (position + 1)) := by
  refine implements.caseValue oneof inside' _ (mem_caseEnum (position + 1) ?_)
  rw [OneofNames.valueNames, List.getElem?_cons_succ, List.getElem?_map, found, Option.map_some]

section

include implements

/-- A method of the life of an instance is found under its name. -/
theorem lifecycle {name : String} {parameters : List Parameter} {body : Body}
    (inside : ∃ method ∈ plan.methods, method.method.name = name ∧
      method.method.parameters = parameters ∧ method.body = body) :
    code.Has name parameters body := by
  obtain ⟨method, inside, rfl, sameParameters, sameBody⟩ := inside
  exact ⟨_, implements.classMethod method inside, sameParameters, sameBody⟩

theorem create : code.Has "Create" [] plan.createBody :=
  implements.lifecycle (by simp [ClassPlan.methods, overriding])

theorem destroy : code.Has "Destroy" [] plan.destroyBody :=
  implements.lifecycle (by simp [ClassPlan.methods, overriding])

theorem clear : code.Has "Clear" [] [inheritCall "Clear" [], callOwn "ClearOwnFields" []] :=
  implements.lifecycle (by simp [ClassPlan.methods, overriding])

theorem clearOwnFields :
    code.Has "ClearOwnFields" [] (plan.concatFields FieldPlan.clearBody) :=
  implements.lifecycle (by simp [ClassPlan.methods, overriding])

theorem encode : code.Has "Encode" [⟨"aDest", "TStream"⟩]
    (inheritCall "Encode" [.localName "aDest"] :: plan.concatFields FieldPlan.encodeBody) :=
  implements.lifecycle (by simp [ClassPlan.methods, overriding])

theorem decode : code.Has "Decode" [⟨"aSource", "TStream"⟩]
    (inheritCall "Decode" [sourceMessage] :: plan.concatFields FieldPlan.decodeBody) :=
  implements.lifecycle (by simp [ClassPlan.methods, overriding])

theorem mergeFrom : code.Has "MergeFrom" [⟨"aSource", ancestorClass⟩]
    (plan.delegateBody "MergeFrom" "MergeFromOwnFields") :=
  implements.lifecycle (by simp [ClassPlan.methods, overriding])

theorem mergeFromOwnFields : code.Has "MergeFromOwnFields" [⟨"aSource", plan.className⟩]
    (plan.concatFields FieldPlan.mergeBody) :=
  implements.lifecycle (by simp [ClassPlan.methods, overriding])

theorem assign : code.Has "Assign" [⟨"aSource", "TPersistent"⟩]
    (plan.delegateBody "Assign" "AssignOwnFields") :=
  implements.lifecycle (by simp [ClassPlan.methods, overriding])

theorem assignOwnFields : code.Has "AssignOwnFields" [⟨"aSource", plan.className⟩]
    (plan.concatFields FieldPlan.assignBody) :=
  implements.lifecycle (by simp [ClassPlan.methods, overriding])

end

end Implements

end ProtoPascal.Execution
