import ProtoPascal.Proofs.Execution.Bodies

/-!
Accessors in consistent states. A write to a property or to a presence property always comes to an
end, and what it does depends on whether the field is a member of a oneof.

* `invoke_getter`: a property shows what the field stores;
* `invoke_setter`: a write to a property stores the value;
* `exec_unmark`: a field that is marked as absent loses its value.
-/

namespace ProtoPascal.Execution

open Message
open Pascal

variable {Content Payload : Type} {program : Program Content Payload} {plan : ClassPlan}
  {self : Address} {machine final : Machine Content Payload} {field : FieldPlan}

/-! ### What writes do -/

/-- A field is given a value, and nothing else changes but the oneof of which it is a member. An
object that is given to the field keeps its content. -/
inductive Assigns (plan : ClassPlan) (self : Address) (field : FieldPlan) (value : Value)
    (machine final : Machine Content Payload) : Prop where
  | outside (outside : field.membership = none) (touches : Touches plan self field machine final)
      (stores : stored self final field = toStored value)
      (content : ∀ address, value = .object address →
        final.objects address = machine.objects address)
  | member {oneof : OneofPlan} {current position : Nat} (inside : oneof ∈ plan.oneofs)
      (found : memberAt oneof position = some field) (selects : Selects self machine oneof current)
      (moves : Moves plan self oneof (assignedCase field current position value) machine final)
      (stores : (field.field.type.isMessage = true → value ≠ .nil) →
        stored self final field = toStored value)
      (content : ∀ address, value = .object address →
        final.objects address = machine.objects address)

/-- A field is marked as absent, and nothing else changes but the oneof of which it is a member. The
oneof changes only if it has selected the field. -/
inductive Unmarks (plan : ClassPlan) (self : Address) (field : FieldPlan)
    (machine final : Machine Content Payload) : Prop where
  | outside (outside : field.membership = none) (touches : Touches plan self field machine final)
      (stores : stored self final field = absent field)
  | member {oneof : OneofPlan} {current position : Nat} (inside : oneof ∈ plan.oneofs)
      (found : memberAt oneof position = some field) (selects : Selects self machine oneof current)
      (moves : Moves plan self oneof (markedCase current position false) machine final)
      (idle : current ≠ position → final = machine)

section

variable (wellFormed : plan.WellFormed)
include wellFormed

theorem Assigns.consistent {value : Value} (assigns : Assigns plan self field value machine final)
    (consistent : Consistent plan self machine) : Consistent plan self final := by
  cases assigns with
  | outside outside touches _ _ => exact touches.consistent wellFormed outside consistent
  | member inside _ _ moves _ _ => exact moves.consistent wellFormed inside consistent

theorem Assigns.filled {value : Value} (assigns : Assigns plan self field value machine final)
    (filled : Filled plan self machine) (there : field.field.repeated = true → value ≠ .nil) :
    Filled plan self final := by
  cases assigns with
  | outside _ touches stores _ =>
    refine touches.filled filled fun repeated nil => there repeated ?_
    rw [stores] at nil
    cases value with
    | nil => rfl
    | _ => cases nil
  | member inside _ _ moves _ _ => exact moves.filled wellFormed inside filled

omit wellFormed in
theorem Assigns.objects {address : Address}
    (assigns : Assigns plan self field (.object address) machine final) :
    final.objects address = machine.objects address := by
  cases assigns with
  | outside _ _ _ content => exact content address rfl
  | member _ _ _ _ _ content => exact content address rfl

theorem Unmarks.consistent (unmarks : Unmarks plan self field machine final)
    (consistent : Consistent plan self machine) : Consistent plan self final := by
  cases unmarks with
  | outside outside touches _ => exact touches.consistent wellFormed outside consistent
  | member inside _ _ moves _ => exact moves.consistent wellFormed inside consistent

theorem Unmarks.filled (unmarks : Unmarks plan self field machine final)
    (single : field.field.repeated = false) (filled : Filled plan self machine) :
    Filled plan self final := by
  cases unmarks with
  | outside _ touches _ =>
    refine touches.filled filled fun repeated => ?_
    rw [single] at repeated
    cases repeated
  | member inside _ _ moves _ => exact moves.filled wellFormed inside filled

/-- A field stands outside oneofs, or it is a member of one. -/
theorem outside_or_member (inside : field ∈ plan.fields) :
    field.membership = none ∨
      ∃ oneof ∈ plan.oneofs, ∃ position, memberAt oneof position = some field := by
  cases membership : field.membership with
  | none => exact .inl rfl
  | some member =>
    obtain ⟨oneof, oneof_inside, field_inside⟩ :=
      wellFormed.membership field inside member membership
    obtain ⟨position, found⟩ := List.mem_iff_getElem?.mp field_inside
    exact .inr ⟨oneof, oneof_inside, position + 1, found⟩

end

/-! ### Values -/

theorem toStored_of_isAlive {value : Value} (alive : IsAlive machine value) :
    toStored value = value := by
  rcases alive.object with rfl | ⟨_, rfl⟩ <;> rfl

theorem stored_assignOutside {value : Value} (accepts : Accepts plan self machine field value) :
    stored self (assignOutside self machine field value) field = toStored value := by
  unfold assignOutside
  split
  · next objects =>
    rw [toStored_of_isAlive (accepts.alive objects)]
    split
    · next same => exact same.symm
    · rw [replace, stored_put_same]
  · rw [stored_put_same]

theorem stored_assignMember {oneof : OneofPlan} {current position : Nat}
    {library : Library Content Payload} {value : Value}
    (accepts : Accepts plan self machine field value)
    (there : field.field.type.isMessage = true → value ≠ .nil) :
    stored self (assignMember self machine library oneof current position field value) field =
      toStored value := by
  cases message : field.field.type.isMessage with
  | false => rw [assignMember_plain message, stored_put_same]
  | true =>
    rw [toStored_of_isAlive (accepts.alive (holdsObjects_of_isMessage message))]
    by_cases same : value = stored self machine field
    · rw [assignMember_same message (there message) same]
      exact same.symm
    · rw [assignMember_changed message (there message) same, replace, stored_put_same]

/-- Only fields with objects accept objects. -/
theorem holdsObjects_of_accepts {address : Address}
    (accepts : Accepts plan self machine field (.object address)) : holdsObjects field = true := by
  by_contra plain
  have fits := accepts.fits
  rw [Fits, if_neg plain] at fits
  exact fits.ne_object address rfl

theorem objects_assignOutside {address : Address} (inside : field ∈ plan.fields)
    (accepts : Accepts plan self machine field (.object address)) :
    (assignOutside self machine field (.object address)).objects address =
      machine.objects address := by
  have objects := holdsObjects_of_accepts accepts
  rw [assignOutside, if_pos objects]
  split
  · rfl
  · next changed =>
    rw [replace, objects_put, objects_freeValue]
    exact accepts.free objects changed field inside address rfl

theorem objects_assignMember (wellFormed : plan.WellFormed) {oneof : OneofPlan}
    (inside : oneof ∈ plan.oneofs) {current position : Nat} {library : Library Content Payload}
    (found : memberAt oneof position = some field) (owns : Owns plan self machine)
    {address : Address} (accepts : Accepts plan self machine field (.object address)) :
    (assignMember self machine library oneof current position field (.object address)).objects
      address = machine.objects address := by
  have objects := holdsObjects_of_accepts accepts
  have message : field.field.type.isMessage = true := by
    rwa [holdsObjects, (memberAt_presence wellFormed inside found).1, Bool.false_or] at objects
  by_cases same : .object address = stored self machine field
  · rw [assignMember_same message Value.noConfusion same]
  · have kept : (markMember self machine library oneof current position true).objects address =
        machine.objects address ∧ _ :=
      replaceable_markMember wellFormed inside owns objects accepts same address rfl
    rw [assignMember_changed message Value.noConfusion same, replace, objects_put,
      objects_freeValue (kept.2 field (memberAt_mem wellFormed inside found)), kept.1]

section

variable (implements : Implements program.code plan) (inside : field ∈ plan.fields)
include implements inside

/-- **A write to the property of a field stores the value**, after the oneof of the field, if any, has
chosen it. -/
theorem invoke_setter {value : Value} (consistent : Consistent plan self machine)
    (accepts : Accepts plan self machine field value) :
    ∃ final, (∀ depth, (invokeMethod program (depth + 3) self field.names.setter [value]).on machine =
      (.ok .nil, final)) ∧ Assigns plan self field value machine final := by
  have wellFormed := implements.wellFormed
  have owns := consistent.owns
  rcases outside_or_member wellFormed inside with outside | ⟨oneof, oneof_inside, position, found⟩
  · refine ⟨assignOutside self machine field value, fun depth =>
      invoke_setter_outside implements inside (depth + 2) outside owns accepts, ?_⟩
    refine .outside outside (touches_assignOutside wellFormed inside owns accepts)
      (stored_assignOutside accepts) ?_
    rintro address rfl
    exact objects_assignOutside inside accepts
  · obtain ⟨current, selects⟩ := consistent.selects oneof oneof_inside
    refine ⟨assignMember self machine program.library oneof current position field value,
      fun depth =>
        invoke_setter_member implements oneof_inside depth found owns selects accepts, ?_⟩
    refine .member oneof_inside found selects
      (moves_assignMember wellFormed oneof_inside found owns selects accepts)
      (stored_assignMember accepts) ?_
    rintro address rfl
    exact objects_assignMember wellFormed oneof_inside found owns accepts

/-- **A write of `False` to the presence property of a field takes its value away**, or, in a oneof
that has selected the field, selects nothing. -/
theorem invoke_presenceSetter_false {presence : PresenceNames}
    (present : field.names.presence = some presence) (consistent : Consistent plan self machine) :
    ∃ final, (∀ depth, (invokeMethod program (depth + 2) self presence.setter
      [.truth false]).on machine = (.ok .nil, final)) ∧ Unmarks plan self field machine final := by
  have wellFormed := implements.wellFormed
  have owns := consistent.owns
  have single := single_of_presence wellFormed inside present
  rcases outside_or_member wellFormed inside with outside | ⟨oneof, oneof_inside, position, found⟩
  · refine ⟨release self machine field, fun depth =>
      invoke_presenceSetter implements inside depth present outside owns false, ?_⟩
    exact .outside outside (touches_release wellFormed inside owns single) (stored_release field)
  · obtain ⟨current, selects⟩ := consistent.selects oneof oneof_inside
    refine ⟨markMember self machine program.library oneof current position false, fun depth =>
      invoke_presenceSetter_member implements oneof_inside depth found present owns selects false,
      ?_⟩
    refine .member oneof_inside found selects
      (moves_markMember wellFormed oneof_inside found owns selects false) fun other => ?_
    rw [markMember, if_neg Bool.false_ne_true, if_neg other]

/-- A field that is not repeated is marked as absent. -/
theorem exec_unmark {frame : Frame} (single : field.field.repeated = false)
    (consistent : Consistent plan frame.self machine) :
    ∃ final, Completes program 2 [assign field.has falseValue] frame machine final ∧
      Unmarks plan frame.self field machine final := by
  obtain ⟨presence, present⟩ := exists_presence implements.wellFormed inside single
  obtain ⟨final, invoked, unmarks⟩ :=
    invoke_presenceSetter_false implements inside present consistent
  refine ⟨final, fun depth => ?_, unmarks⟩
  rw [FieldPlan.has, FieldPlan.presenceName, present, falseValue, execAll_singleton]
  exact exec_assign_property (implements.presenceProperty inside present)
    (eval_constant literal?_false) (invoked depth)

end

/-! ### Reading -/

/-- A stored value as the property of a field shows it. -/
def shown (field : FieldPlan) (value : Value) : Value :=
  match field.field.type, value with
  | .reference .enumeration _, .integer ordinal => .enumeration field.support.publicType ordinal
  | _, value => value

theorem shown_object (address : Address) : shown field (.object address) = .object address := by
  unfold shown
  split <;> simp_all

theorem shown_of_isAlive {value : Value} (alive : IsAlive machine value) :
    shown field value = value := by
  unfold shown
  rcases alive.object with rfl | ⟨address, rfl⟩ <;> split <;> simp_all

theorem toStored_shown {value : Value} (fits : FitsType field.field.type value) :
    toStored (shown field value) = value := by
  unfold shown
  cases type : field.field.type with
  | scalar scalar =>
    rw [type] at fits
    exact toStored_of_fitsScalar fits
  | reference kind typeName =>
    rw [type] at fits
    obtain ⟨ordinal, -, rfl⟩ := fits
    cases kind <;> rfl

/-- The property of a field accepts what it shows. -/
theorem accepts_shown (single : field.field.repeated = false)
    (plain : field.field.type.isMessage = false) {value : Value}
    (fits : FitsType field.field.type value) :
    Accepts plan self machine field (shown field value) := by
  rw [Accepts, holdsObjects, single, plain, if_neg (by simp)]
  unfold shown
  cases type : field.field.type with
  | scalar scalar =>
    rw [type] at fits
    exact fits
  | reference kind typeName =>
    rw [type] at fits plain
    obtain ⟨ordinal, signed, rfl⟩ := fits
    cases kind with
    | message => cases plain
    | enumeration => exact ⟨ordinal, signed, rfl⟩

theorem eval_toPublic {call : Caller Content Payload} {frame : Frame}
    (supported : Supported field.field.type field.support) {expression : Expr} {value : Value}
    (fits : FitsType field.field.type value ∨ field.field.type.isMessage = true)
    (valueOf : (eval program call frame expression).on machine = (.ok value, machine)) :
    (eval program call frame (field.support.toPublic expression)).on machine =
      (.ok (shown field value), machine) := by
  unfold shown
  generalize field.support = support at supported
  generalize field.field.type = type at supported fits
  cases supported with
  | scalar runtime scalar =>
    by_cases bytes : scalar = .bytes
    · subst bytes
      exact valueOf
    · simp only [TypeSupport.toPublic, Runtime.scalarSupport, bytes, if_false]
      exact valueOf
  | declared runtime kind typeName reference =>
    cases kind with
    | message => exact valueOf
    | enumeration =>
      obtain ⟨ordinal, -, rfl⟩ := fits.resolve_right (by simp [Schema.FieldType.isMessage])
      exact eval_convert valueOf rfl

/-- **The property of a field shows what the field stores.** -/
theorem invoke_getter (implements : Implements program.code plan) (inside : field ∈ plan.fields)
    (owns : Owns plan self machine) (depth : Nat) :
    (invokeMethod program (depth + 1) self field.names.getter []).on machine =
      (.ok (shown field (stored self machine field)), machine) := by
  refine invokeMethod_function (implements.getter inside) rfl ?_
  have fits := owns.fits field inside
  cases repeated : field.field.repeated with
  | true =>
    rw [Fits, holdsObjects, repeated, Bool.true_or, if_pos rfl] at fits
    rw [if_pos rfl, shown_of_isAlive fits]
    exact eval_convertCollection (eval_backing implements inside) fits.object
  | false =>
    rw [if_neg Bool.false_ne_true]
    refine eval_toPublic (implements.wellFormed.supported field inside) ?_
      (eval_backing implements inside)
    rw [Fits, holdsObjects, repeated, Bool.false_or] at fits
    split at fits
    · next message => exact .inr message
    · exact .inl fits

end ProtoPascal.Execution
