import ProtoPascal.Proofs.Execution.Confinement

/-!
How an instance takes care of objects: those that its fields hold, those that are given to it and
those that its code makes. None of them gets lost. An object that is alive after a change and that no
field holds is one with which the instance had nothing to do before.

* `Manages`: a change is confined to an instance and loses no object;
* `invoke_setter_manages`, `exec_unmark_manages`: writes to properties lose no object.
-/

namespace ProtoPascal.Execution

open Message
open Pascal

variable {Content Payload : Type} {program : Program Content Payload} {plan : ClassPlan}
  {self : Address} {machine middle final : Machine Content Payload}
  {library : Library Content Payload} {field : FieldPlan} {given : Value}

/-! ### Changes that lose no object -/

/-- An object is alive and no field of an instance holds it. -/
structure IsLoose (plan : ClassPlan) (owner : Address) (machine : Machine Content Payload)
    (address : Address) : Prop where
  alive : (machine.objects address).isSome = true
  free : ∀ field ∈ plan.fields, stored owner machine field ≠ .object address

/-- A change is confined to an instance and loses no object. What is loose afterwards was loose
before, and it is not the object that was given to the instance. -/
structure Manages (plan : ClassPlan) (owner : Address) (given : Value)
    (machine final : Machine Content Payload) : Prop extends
    Confined plan owner given machine final where
  loose : ∀ address, IsLoose plan owner final address →
    IsLoose plan owner machine address ∧ given ≠ .object address

theorem Manages.refl
    (held : ∀ address, given = .object address →
      ∃ field ∈ plan.fields, stored self machine field = .object address) :
    Manages plan self given machine machine where
  toConfined := .refl
  loose address loose := by
    refine ⟨loose, fun same => ?_⟩
    obtain ⟨field, inside, holds⟩ := held address same
    exact loose.free field inside holds

theorem Manages.idle : Manages plan self .nil machine machine :=
  .refl fun _ impossible => Value.noConfusion impossible

theorem Manages.trans (first : Manages plan self .nil machine middle)
    (second : Manages plan self given middle final) : Manages plan self given machine final where
  toConfined := first.toConfined.trans second.toConfined
  loose address loose := by
    obtain ⟨between, other⟩ := second.loose address loose
    exact ⟨(first.loose address between).1, other⟩

/-- What was given need not be told if it is no object. -/
theorem Manages.alone (manages : Manages plan self given machine final)
    (plain : ∀ address, given ≠ .object address) : Manages plan self .nil machine final where
  toConfined := manages.toConfined.alone fun address object => absurd object (plain address)
  loose address loose := ⟨(manages.loose address loose).1, Value.noConfusion⟩

theorem Manages.weaken (manages : Manages plan self .nil machine final)
    (plain : ∀ address, given ≠ .object address) : Manages plan self given machine final where
  toConfined := manages.toConfined.weaken
  loose address loose := ⟨(manages.loose address loose).1, plain address⟩

/-- A new object that is given to the instance at once is not lost. -/
theorem Manages.ofNew {content : Content}
    (manages : Manages plan self (.object machine.fresh) (machine.allocate content) final) :
    Manages plan self .nil machine final where
  toConfined := by
    refine ((confined_allocate content).trans manages.toConfined).alone ?_
    rintro address ⟨⟩
    exact Nat.le_refl _
  loose address loose := by
    obtain ⟨between, other⟩ := manages.loose address loose
    have known : address ≠ machine.fresh := fun same => other (by rw [same])
    refine ⟨⟨?_, between.free⟩, Value.noConfusion⟩
    rw [← Machine.objects_allocate_other machine content known]
    exact between.alive

/-- A change loses no object and leaves the instance in a sound state. -/
structure Handles (plan : ClassPlan) (owner : Address) (given : Value)
    (machine final : Machine Content Payload) : Prop extends
    Manages plan owner given machine final where
  sound : Sound plan owner final

theorem Handles.trans (first : Handles plan self .nil machine middle)
    (second : Handles plan self given middle final) : Handles plan self given machine final :=
  ⟨first.toManages.trans second.toManages, second.sound⟩

/-! ### Changes of single fields -/

theorem Owns.plain (owns : Owns plan self machine) (inside : field ∈ plan.fields)
    (single : field.field.repeated = false) (plain : field.field.type.isMessage = false)
    (address : Address) : stored self machine field ≠ .object address := by
  have fits := owns.fits field inside
  rw [Fits, holdsObjects, single, plain, if_neg (by simp)] at fits
  exact fits.ne_object address

/-- A new content of an object of the instance loses no object. -/
theorem manages_setObject (inside : field ∈ plan.fields) {address : Address}
    (holds : stored self machine field = .object address) (content : Option Content) :
    Manages plan self .nil machine (machine.setObject address content) where
  toConfined := confined_setObject inside holds content
  loose other loose := by
    have elsewhere : other ≠ address := fun same => loose.free field inside (same ▸ holds)
    refine ⟨⟨?_, loose.free⟩, Value.noConfusion⟩
    rw [← Machine.objects_setObject_other machine address content elsewhere]
    exact loose.alive

section

variable (wellFormed : plan.WellFormed) (inside : field ∈ plan.fields)
include wellFormed inside

/-- What is loose after a field is given a value was loose before, unless the field held it. -/
theorem IsLoose.ofPut {value : Value} {address : Address}
    (loose : IsLoose plan self (put self machine field value) address)
    (free : stored self machine field ≠ .object address) : IsLoose plan self machine address := by
  refine ⟨loose.alive, fun other other_inside holds => ?_⟩
  by_cases same : other = field
  · subst same
    exact free holds
  · refine loose.free other other_inside ?_
    rw [(keeps_put wellFormed inside other_inside same value).same, holds]

/-- A field that holds no object is given a value. -/
theorem manages_put (empty : ∀ address, stored self machine field ≠ .object address)
    (value : Value) : Manages plan self value machine (put self machine field value) where
  toConfined := confined_store _ _
  loose address loose := by
    refine ⟨loose.ofPut wellFormed inside (empty address), fun same => ?_⟩
    exact loose.free field inside ((stored_put_same field value).trans same)

/-- An object that is replaced is freed, so it is not lost. -/
theorem manages_replace (value : Value) :
    Manages plan self value machine (replace self machine field value) where
  toConfined := confined_replace inside value
  loose address loose := by
    have alive : ((freeValue machine (stored self machine field)).objects address).isSome = true :=
      loose.alive
    have before : stored self machine field ≠ .object address := by
      intro freed
      rw [freed, freeValue, Machine.objects_setObject_same] at alive
      cases alive
    have after : IsLoose plan self (freeValue machine (stored self machine field)) address := by
      refine loose.ofPut wellFormed inside ?_
      rwa [stored, fields_freeValue]
    refine ⟨⟨isSome_of_freeValue alive, fun other other_inside holds => ?_⟩, fun same => ?_⟩
    · refine after.free other other_inside ?_
      rwa [stored, fields_freeValue]
    · exact loose.free field inside ((stored_put_same field value).trans same)

theorem manages_release (owns : Owns plan self machine) (single : field.field.repeated = false) :
    Manages plan self .nil machine (release self machine field) := by
  unfold release
  cases message : field.field.type.isMessage with
  | true => exact manages_replace wellFormed inside .nil
  | false =>
    exact (manages_put wellFormed inside (owns.plain inside single message) _).alone
      (absent_ne_object field)

theorem manages_renew (empty : ∀ address, stored self machine field ≠ .object address) :
    Manages plan self .nil machine (renew self machine library field) := by
  unfold renew
  split
  · have still (address : Address) :
        stored self (machine.allocate (library.create field.support.publicType)) field ≠
          .object address := empty address
    exact .ofNew (manages_put wellFormed inside still _)
  · exact (manages_put wellFormed inside empty _).alone (absent_ne_object field)

end

/-! ### Changes of oneofs -/

section

variable (wellFormed : plan.WellFormed) {oneof : OneofPlan} (inside : oneof ∈ plan.oneofs)
  {current position : Nat} (owns : Owns plan self machine)
  (selects : Selects self machine oneof current)
include wellFormed inside

theorem manages_putCase (position : Nat) :
    Manages plan self .nil machine (putCase self machine oneof position) where
  toConfined := (confined_store _ _).alone fun _ => Value.noConfusion
  loose address loose := by
    refine ⟨⟨loose.alive, fun field field_inside holds => ?_⟩, Value.noConfusion⟩
    refine loose.free field field_inside ?_
    rw [(keeps_putCase wellFormed inside field_inside position).same, holds]

include owns selects

/-- **A choice loses no object.** The member that leaves is released, and the one that enters held
nothing before. -/
theorem manages_choose (new : Nat) :
    Manages plan self .nil machine (choose self machine library oneof current new) := by
  have left : Manages plan self .nil machine (leave self machine oneof current) := by
    unfold leave
    cases found : memberAt oneof current with
    | none => exact .idle
    | some field =>
      exact manages_release wellFormed (memberAt_mem wellFormed inside found) owns
        (memberAt_presence wellFormed inside found).1
  unfold choose
  split
  · exact .idle
  · next different =>
    refine (left.trans (manages_putCase wellFormed inside new)).trans ?_
    unfold enter
    cases found : memberAt oneof new with
    | none => exact .idle
    | some field =>
      have field_inside := memberAt_mem wellFormed inside found
      have stays : memberAt oneof current ≠ some field := fun again =>
        different (memberAt_unique wellFormed inside inside again found).2
      refine manages_renew wellFormed field_inside fun address => ?_
      rw [(keeps_putCase wellFormed inside field_inside new).same,
        (keeps_leave wellFormed inside owns field_inside stays).same,
        selects.unselected new field found (Ne.symm different)]
      exact absent_ne_object field address

theorem manages_markMember (value : Bool) :
    Manages plan self .nil machine
      (markMember self machine library oneof current position value) := by
  unfold markMember
  split
  · exact manages_choose wellFormed inside owns selects _
  · split
    · exact manages_choose wellFormed inside owns selects _
    · exact .idle

theorem manages_assignMember (found : memberAt oneof position = some field) {value : Value}
    (accepts : Accepts plan self machine field value) :
    Manages plan self value machine
      (assignMember self machine library oneof current position field value) := by
  have field_inside := memberAt_mem wellFormed inside found
  have marked : Manages plan self .nil machine
      (markMember self machine library oneof current position true) :=
    manages_markMember wellFormed inside owns selects true
  cases message : field.field.type.isMessage with
  | false =>
    have single := (memberAt_presence wellFormed inside found).1
    have moves : Moves plan self oneof (markedCase current position true) machine
        (markMember self machine library oneof current position true) :=
      moves_markMember wellFormed inside found owns selects true
    have fits := accepts.fits
    rw [Fits, holdsObjects, single, message, if_neg (by simp)] at fits
    have stores : Manages plan self .nil (markMember self machine library oneof current position true)
        (put self (markMember self machine library oneof current position true) field
          (toStored value)) :=
      (manages_put wellFormed field_inside (moves.owns.plain field_inside single message) _).alone
        fits.ne_object
    rw [assignMember_plain message]
    refine (marked.trans stores).weaken ?_
    rintro address rfl
    exact fits.ne_object address rfl
  | true =>
    by_cases nil : value = .nil
    · subst nil
      rw [assignMember_nil message]
      exact manages_markMember wellFormed inside owns selects false
    · by_cases same : value = stored self machine field
      · rw [assignMember_same message nil same]
        exact .refl fun address object => ⟨field, field_inside, same.symm.trans object⟩
      · rw [assignMember_changed message nil same]
        exact marked.trans (manages_replace wellFormed field_inside value)

end

theorem manages_assignOutside (wellFormed : plan.WellFormed) (inside : field ∈ plan.fields)
    (owns : Owns plan self machine) {value : Value}
    (accepts : Accepts plan self machine field value) :
    Manages plan self value machine (assignOutside self machine field value) := by
  unfold assignOutside
  split
  · split
    · next same => exact .refl fun address object => ⟨field, inside, same.symm.trans object⟩
    · exact manages_replace wellFormed inside value
  · next plain =>
    have fits := accepts.fits
    have before := owns.fits field inside
    rw [Fits, if_neg plain] at fits before
    refine ((manages_put wellFormed inside before.ne_object _).alone fits.ne_object).weaken ?_
    rintro address rfl
    exact fits.ne_object address rfl

/-! ### Writes to properties -/

section

variable (implements : Implements program.code plan) (inside : field ∈ plan.fields)
include implements inside

/-- **A write to the property of a field stores the value and loses no object.** -/
theorem invoke_setter_manages {value : Value} (consistent : Consistent plan self machine)
    (accepts : Accepts plan self machine field value) :
    ∃ final, (∀ depth, (invokeMethod program (depth + 3) self field.names.setter [value]).on machine =
      (.ok .nil, final)) ∧ Assigns plan self field value machine final ∧
        Manages plan self value machine final := by
  have wellFormed := implements.wellFormed
  have owns := consistent.owns
  obtain ⟨final, written, assigns⟩ := invoke_setter implements inside consistent accepts
  refine ⟨final, written, assigns, ?_⟩
  -- A write ends in one way only, so it suffices to look at the two forms that it has.
  rcases outside_or_member wellFormed inside with outside | ⟨oneof, oneof_inside, position, found⟩
  · have same := (written 0).symm.trans
      (invoke_setter_outside implements inside 2 outside owns accepts)
    rw [(Prod.mk.inj same).2]
    exact manages_assignOutside wellFormed inside owns accepts
  · obtain ⟨current, selects⟩ := consistent.selects oneof oneof_inside
    have same := (written 0).symm.trans
      (invoke_setter_member implements oneof_inside 0 found owns selects accepts)
    rw [(Prod.mk.inj same).2]
    exact manages_assignMember wellFormed oneof_inside owns selects found accepts

/-- **A field that is marked as absent loses its value, but no object.** -/
theorem invoke_presenceSetter_false_manages {presence : PresenceNames}
    (present : field.names.presence = some presence) (consistent : Consistent plan self machine) :
    ∃ final, (∀ depth, (invokeMethod program (depth + 2) self presence.setter
      [.truth false]).on machine = (.ok .nil, final)) ∧ Unmarks plan self field machine final ∧
        Manages plan self .nil machine final := by
  have wellFormed := implements.wellFormed
  have owns := consistent.owns
  obtain ⟨final, written, unmarks⟩ :=
    invoke_presenceSetter_false implements inside present consistent
  refine ⟨final, written, unmarks, ?_⟩
  rcases outside_or_member wellFormed inside with outside | ⟨oneof, oneof_inside, position, found⟩
  · have same := (written 0).symm.trans
      (invoke_presenceSetter implements inside 0 present outside owns false)
    rw [(Prod.mk.inj same).2]
    exact manages_release wellFormed inside owns (single_of_presence wellFormed inside present)
  · obtain ⟨current, selects⟩ := consistent.selects oneof oneof_inside
    have same := (written 0).symm.trans
      (invoke_presenceSetter_member implements oneof_inside 0 found present owns selects false)
    rw [(Prod.mk.inj same).2]
    exact manages_markMember wellFormed oneof_inside owns selects false

/-- A field that is not repeated is marked as absent. -/
theorem exec_unmark_manages {frame : Frame} (single : field.field.repeated = false)
    (consistent : Consistent plan frame.self machine) :
    ∃ final, Completes program 2 [assign field.has falseValue] frame machine final ∧
      Unmarks plan frame.self field machine final ∧ Manages plan frame.self .nil machine final := by
  obtain ⟨presence, present⟩ := exists_presence implements.wellFormed inside single
  obtain ⟨final, written, unmarks, manages⟩ :=
    invoke_presenceSetter_false_manages implements inside present consistent
  refine ⟨final, fun depth => ?_, unmarks, manages⟩
  rw [FieldPlan.has, FieldPlan.presenceName, present, falseValue, execAll_singleton]
  exact exec_assign_property (implements.presenceProperty inside present)
    (eval_constant literal?_false) (written depth)

end

end ProtoPascal.Execution
