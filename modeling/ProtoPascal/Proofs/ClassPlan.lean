import ProtoPascal.Message.Class
import ProtoPascal.Proofs.ClassNames
import ProtoPascal.Proofs.Slots

/-!
The plan of a class. `FieldPlan.Plans` and `ClassPlan.Covers` say what the plan of a field and that
of a class hold of the message from which they are made.

* `planField_plans`: a field is planned with its names;
* `make_claims`: the names in a plan are those that its message takes;
* `make_fields`: each field in a plan is planned on its own;
* `make_covers`: a plan covers the fields and the oneofs of its message;
* `make_values`: the values of the case types of a plan extend the scope of the reserved words.
-/

namespace ProtoPascal.Message

open Naming
open Pascal
open Schema (EnumType Field FieldType MessageType Oneof)

/-! ### The plan of a field -/

/-- What the runtime library has for a type of field, declared types under the reference by which
they are known. -/
inductive Supported : FieldType → TypeSupport → Prop
  | scalar (runtime : Runtime) (type : Schema.ScalarType) :
    Supported (.scalar type) (runtime.scalarSupport type)
  | declared (runtime : Runtime) (kind : Schema.TypeKind) (typeName reference : String) :
    Supported (.reference kind typeName) (runtime.referenceSupport kind reference)

/-- The plan of a field holds what it is made from, and the support for the type of the field. -/
theorem fieldPlan_make {context : Context} {className messageName : String}
    {membership : Option Membership} {names : FieldNames} {field : Field} {plan : FieldPlan}
    (made : FieldPlan.make context className messageName membership names field = .ok plan) :
    plan.field = field ∧ plan.names = names ∧ plan.membership = membership ∧
      plan.className = className ∧ Supported field.type plan.support := by
  unfold FieldPlan.make at made
  obtain ⟨resolved, -, made⟩ := bind_eq_ok.mp made
  obtain ⟨support, supported, made⟩ := bind_eq_ok.mp made
  rw [pure_eq_ok] at made
  subst made
  refine ⟨rfl, rfl, rfl, rfl, ?_⟩
  unfold Runtime.support at supported
  split at supported
  · next type isScalar =>
    cases supported
    rw [isScalar]
    exact .scalar context.runtime type
  · next kind typeName reference isDeclared isReferred =>
    cases supported
    rw [isDeclared]
    exact .declared context.runtime kind typeName reference
  · cases supported

/-- The oneof to which a field belongs, among the names of all oneofs of its message. -/
def MembershipIn (oneofs : List OneofNames) (field : Field) : Option Membership → Prop
  | none => field.oneofIndex = none
  | some membership => ∃ position, field.oneofIndex = some position ∧
      oneofs[position]? = some membership.oneof ∧
      membership.oneof.caseValue? field.number = some membership.caseValue

/-- A membership that is found is that of the field. -/
theorem membershipOf_eq_ok {fullName : String} {oneofs : List OneofNames} {field : Field}
    {membership : Option Membership}
    (found : membershipOf fullName oneofs field = .ok membership) :
    MembershipIn oneofs field membership := by
  unfold membershipOf at found
  split at found
  · next outside =>
    cases found
    exact outside
  · next position inside =>
    split at found
    · cases found
    · next oneof declared =>
      split at found
      · cases found
      · next caseValue selects =>
        cases found
        exact ⟨position, inside, declared, selects⟩

/-- What the plan of a field says of the field and its names. -/
structure FieldPlan.Plans (plan : FieldPlan) (className : String) (oneofs : List OneofNames)
    (field : Field) (names : FieldNames) : Prop where
  field_eq : plan.field = field
  names_eq : plan.names = names
  className_eq : plan.className = className
  membership : MembershipIn oneofs field plan.membership
  supported : Supported field.type plan.support

/-- A field is planned with its names. -/
theorem planField_plans {context : Context} {className fullName : String}
    {oneofs : List OneofNames} {named : Field × FieldNames} {plan : FieldPlan}
    (planned : planField context className fullName oneofs named = .ok plan) :
    plan.Plans className oneofs named.1 named.2 := by
  unfold planField at planned
  obtain ⟨membership, found, made⟩ := bind_eq_ok.mp planned
  obtain ⟨field_eq, names_eq, membership_eq, className_eq, supported⟩ := fieldPlan_make made
  refine ⟨field_eq, names_eq, className_eq, ?_, supported⟩
  rw [membership_eq]
  exact membershipOf_eq_ok found

/-! ### The plan of a class -/

/-- What the plan of a class says of the fields and oneofs of its message, whose names are taken in
a scope. -/
structure ClassPlan.Covers (plan : ClassPlan) (className : String) (scope : Scope)
    (message : MessageType) : Prop where
  className_eq : plan.className = className
  fields_eq : plan.fields.map FieldPlan.field = message.fields
  planned : ∀ field ∈ plan.fields,
    field.Plans className (plan.oneofs.map OneofPlan.names) field.field field.names
  named : NamedMessage message scope (plan.fields.map FieldPlan.names)
    (plan.oneofs.map OneofPlan.names)
  oneofs_length : plan.oneofs.length = message.oneofs.length
  oneofs_eq : ∀ position oneof, plan.oneofs[position]? = some oneof →
    oneof.className = className ∧
      oneof.members = plan.fields.filter fun field => field.field.oneofIndex == some position
  slots_perm : plan.slots.Perm ((List.range plan.fields.length).map Slot.field ++
    (List.range plan.oneofs.length).map Slot.oneof)

/-- A field has a presence exactly if it is not repeated. -/
theorem ClassPlan.Covers.presence {plan : ClassPlan} {className : String} {scope : Scope}
    {message : MessageType} (covers : plan.Covers className scope message) :
    ∀ field ∈ plan.fields, field.names.presence.isSome = !field.field.repeated := by
  have related := covers.named.presence
  rwa [← covers.fields_eq, List.forall₂_map_left_iff, List.forall₂_map_right_iff,
    List.forall₂_same] at related

/-- The members of a oneof are the fields of the message that belong to it, in order. -/
theorem ClassPlan.Covers.members_eq {plan : ClassPlan} {className : String} {scope : Scope}
    {message : MessageType} (covers : plan.Covers className scope message) {position : Nat}
    {oneof : OneofPlan} (found : plan.oneofs[position]? = some oneof) :
    oneof.members.map FieldPlan.field = message.oneofMembers position := by
  rw [(covers.oneofs_eq position oneof found).2, MessageType.oneofMembers, ← covers.fields_eq,
    List.filter_map]
  rfl

/-- A planned field belongs to a oneof that has names. -/
theorem FieldPlan.Plans.position_lt {plan : FieldPlan} {className : String}
    {oneofs : List OneofNames} {field : Schema.Field} {names : FieldNames}
    (plans : plan.Plans className oneofs field names) {position : Nat}
    (belongs : field.oneofIndex = some position) : position < oneofs.length := by
  have membership := plans.membership
  cases stored : plan.membership with
  | none =>
    rw [stored] at membership
    exact absurd (membership.symm.trans belongs) (by simp)
  | some member =>
    rw [stored] at membership
    obtain ⟨position', belongs', declared, -⟩ := membership
    rw [belongs, Option.some.injEq] at belongs'
    subst belongs'
    exact (List.getElem?_eq_some_iff.mp declared).1

/-- Plans that keep the names of their oneofs, in the order of the oneofs. -/
theorem map_names_zipIdx {plan : OneofNames × Nat → OneofPlan}
    (keeps : ∀ entry, (plan entry).names = entry.1) (names : List OneofNames) :
    (names.zipIdx.map plan).map OneofPlan.names = names := by
  have names_fst : OneofPlan.names ∘ plan = Prod.fst := funext keeps
  rw [List.map_map, names_fst]
  exact List.zipIdx_map_fst 0 names

/-- A plan is made of the names that the fields and oneofs of its message take, and of the plans of the
fields with these names. -/
theorem make_eq_ok {context : Context} {className fullName : String} {scope : Scope}
    {message : MessageType} {plan : ClassPlan}
    (made : ClassPlan.make context className fullName scope message = .ok plan) :
    ∃ fieldNames oneofNames fields,
      (claimNames message).resultIn scope = .ok (fieldNames, oneofNames) ∧
      (message.fields.zip fieldNames).mapM (planField context className fullName oneofNames) =
        .ok fields ∧
      plan = {
        className, fields
        oneofs := oneofNames.zipIdx.map fun (names, position) =>
          planOneof className fields names position
        slots := declarationSlots message.fields message.oneofs.length } := by
  unfold ClassPlan.make at made
  obtain ⟨⟨fieldNames, oneofNames⟩, claimed, made⟩ := bind_eq_ok.mp made
  obtain ⟨fields, planned, made⟩ := bind_eq_ok.mp made
  exact ⟨fieldNames, oneofNames, fields, claimed, planned, (pure_eq_ok.mp made).symm⟩

/-- The names in a plan are those that the fields and oneofs of its message take. -/
theorem make_claims {context : Context} {className fullName : String} {scope : Scope}
    {message : MessageType} {plan : ClassPlan}
    (made : ClassPlan.make context className fullName scope message = .ok plan) :
    (claimNames message).resultIn scope =
      .ok (plan.fields.map FieldPlan.names, plan.oneofs.map OneofPlan.names) := by
  obtain ⟨fieldNames, oneofNames, fields, claimed, planned, rfl⟩ := make_eq_ok made
  have sameLength : message.fields.length = fieldNames.length :=
    (claimNames_extends claimed).presence.length_eq
  have names_eq : fields.map FieldPlan.names = fieldNames := by
    rw [map_eq_of_forall₂ Prod.snd FieldPlan.names ((mapM_eq_ok.mp planned).imp fun _ _ success =>
      (planField_plans success).names_eq), List.map_snd_zip (Nat.le_of_eq sameLength.symm)]
  rw [names_eq, map_names_zipIdx fun _ => rfl]
  exact claimed

/-- Each field in a plan is planned on its own, and the slots are those of the message. -/
theorem make_fields {context : Context} {className fullName : String} {scope : Scope}
    {message : MessageType} {plan : ClassPlan}
    (made : ClassPlan.make context className fullName scope message = .ok plan) :
    (∀ field ∈ plan.fields,
      FieldPlan.make context className fullName field.membership field.names field.field =
        .ok field) ∧
      plan.slots = declarationSlots message.fields message.oneofs.length := by
  obtain ⟨fieldNames, oneofNames, fields, -, planned, rfl⟩ := make_eq_ok made
  refine ⟨fun field inside => ?_, rfl⟩
  obtain ⟨named, -, planned⟩ := exists_left_of_forall₂ (mapM_eq_ok.mp planned) inside
  obtain ⟨membership, -, made⟩ := bind_eq_ok.mp planned
  obtain ⟨field_eq, names_eq, membership_eq, -, -⟩ := fieldPlan_make made
  rwa [field_eq, names_eq, membership_eq]

/-- **A plan covers the fields and the oneofs of its message.** -/
theorem make_covers {context : Context} {className fullName : String} {scope : Scope}
    {message : MessageType} {plan : ClassPlan}
    (made : ClassPlan.make context className fullName scope message = .ok plan) :
    plan.Covers className scope message := by
  have claims := make_claims made
  obtain ⟨fieldNames, oneofNames, fields, claimed, planned, rfl⟩ := make_eq_ok made
  have named := claimNames_extends claimed
  have sameLength : message.fields.length = fieldNames.length := named.presence.length_eq
  have each : List.Forall₂ (fun pair plan => plan.Plans className oneofNames pair.1 pair.2)
      (message.fields.zip fieldNames) fields :=
    (mapM_eq_ok.mp planned).imp fun _ _ => planField_plans
  have fromFields := forall₂_zip (fun field names (plan : FieldPlan) =>
    plan.Plans className oneofNames field names) sameLength each
  have fields_eq : fields.map FieldPlan.field = message.fields := by
    have related := map_eq_of_forall₂ id FieldPlan.field
      (fromFields.imp fun _ _ planned => planned.elim fun _ plans => plans.field_eq)
    rwa [List.map_id] at related
  have oneofs_length : oneofNames.length = message.oneofs.length := by
    rw [← named.values.length_eq, List.length_range]
  have all_planned : ∀ field ∈ fields,
      field.Plans className oneofNames field.field field.names := by
    intro field inside
    obtain ⟨original, -, names, plans⟩ := exists_left_of_forall₂ fromFields inside
    rw [plans.field_eq, plans.names_eq]
    exact plans
  refine ⟨rfl, fields_eq, ?_, claimNames_extends claims, ?_, ?_, ?_⟩
  · rw [map_names_zipIdx]
    · exact all_planned
    · exact fun _ => rfl
  · simpa using oneofs_length
  · intro position oneof found
    simp only [List.getElem?_map, List.getElem?_zipIdx, Option.map_map,
      Option.map_eq_some_iff, Function.comp_apply] at found
    obtain ⟨names, -, rfl⟩ := found
    exact ⟨rfl, by simp [planOneof]⟩
  · have declared : ∀ field ∈ message.fields, ∀ position, field.oneofIndex = some position →
        position < message.oneofs.length := by
      intro field inside position belongs
      rw [← fields_eq] at inside
      obtain ⟨plan, plan_inside, rfl⟩ := List.mem_map.mp inside
      rw [← oneofs_length]
      exact (all_planned plan plan_inside).position_lt belongs
    have perm := declarationSlots_perm declared
    rw [← fields_eq, List.length_map] at perm
    simpa [oneofs_length, fields_eq] using perm

/-- The values of the case types of a plan extend the scope of the reserved words. -/
theorem make_values {context : Context} {className fullName : String} {scope : Scope}
    {message : MessageType} {plan : ClassPlan}
    (made : ClassPlan.make context className fullName scope message = .ok plan) :
    ∀ oneof ∈ plan.oneofs, ∃ last, keywordScope.Extends oneof.names.valueNames last := by
  intro oneof inside
  exact ((claimNames_granted (make_claims made)).2 oneof.names (List.mem_map_of_mem inside)).2

end ProtoPascal.Message
