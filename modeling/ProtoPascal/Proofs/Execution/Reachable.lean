import ProtoPascal.Proofs.Execution.Lifecycle

/-!
States that an instance can reach. A client creates the instance, writes its properties and clears
it, in any order, while the rest of the program goes on.

* `Operation.settles`: every operation comes to an end, with a result or an exception, and keeps the
  state consistent;
* `Reachable.consistent`: so every state that can be reached is consistent;
* `Reachable.sound`: and all collections are there, if no operation takes one away.
-/

namespace ProtoPascal.Execution

open Message
open Pascal

variable {Content Payload α : Type} {program : Program Content Payload} {plan : ClassPlan}
  {self : Address} {machine final : Machine Content Payload}

/-! ### Operations -/

/-- What a client does with an instance. -/
inductive Operation where
  /-- A value is written to the property of a field. -/
  | write (field : FieldPlan) (value : Value)
  /-- A value is written to the presence property of a field. -/
  | mark (field : FieldPlan) (value : Bool)
  /-- The value at a position is written to the case property of a oneof. -/
  | choose (oneof : OneofPlan) (position : Nat)
  | clear

/-- The code that runs in an operation. -/
def Operation.run (program : Program Content Payload) (self : Address) :
    Operation → Nat → Run Content Payload Unit
  | .write field value => writeProperty program self field.names.property value
  | .mark field value => writeProperty program self field.presenceName (.truth value)
  | .choose oneof position => writeProperty program self oneof.names.property (caseAt oneof position)
  | .clear => callMethod program self "Clear" []

/-- What a client may do with an instance of a class. Values have the types of their properties, and
an object that is written is not yet owned. -/
def Operation.Permitted (plan : ClassPlan) (self : Address) (machine : Machine Content Payload) :
    Operation → Prop
  | .write field value => field ∈ plan.fields ∧ Accepts plan self machine field value
  | .mark field _ => field ∈ plan.fields ∧ field.field.repeated = false
  | .choose oneof position => oneof ∈ plan.oneofs ∧ position ≤ oneof.members.length
  | .clear => True

/-- Whether an operation takes no collection away. -/
def Operation.SparesCollections : Operation → Prop
  | .write field value => field.field.repeated = true → value ≠ .nil
  | _ => True

/-- Whether a computation gives a result or raises an exception. -/
def IsProper (outcome : Except Fault α) : Prop :=
  (∃ result, outcome = .ok result) ∨
    ∃ exceptionType text, outcome = .error (.raised exceptionType text)

/-- Whether a computation succeeds or refuses what it was told. -/
def IsOrderly (outcome : Except Fault Unit) : Prop :=
  outcome = .ok () ∨ ∃ text, outcome = .error (.raised "EProtobufInvalidOperation" text)

theorem IsOrderly.proper {outcome : Except Fault Unit} (orderly : IsOrderly outcome) :
    IsProper outcome := by
  rcases orderly with rfl | ⟨text, rfl⟩
  · exact .inl ⟨(), rfl⟩
  · exact .inr ⟨_, text, rfl⟩

/-- What all bounds from some depth on agree in is how a computation ends. -/
theorem Settles.of_forall {computation : Nat → Run Content Payload α} {outcome : Except Fault α}
    (bound : Nat)
    (ends : ∀ depth, (computation (depth + bound)).on machine = (outcome, final)) :
    Settles computation machine outcome final := by
  refine ⟨bound, fun depth deep => ?_⟩
  rw [← Nat.sub_add_cancel deep]
  exact ends (depth - bound)

theorem settles_callMethod {method : String} {arguments : List Value} {answer : Value} (bound : Nat)
    (called : ∀ depth, (invokeMethod program (depth + bound) self method arguments).on machine =
      (.ok answer, final)) :
    Settles (callMethod program self method arguments) machine (.ok ()) final :=
  .of_forall bound fun depth => Run.on_bind_ok (called depth)

theorem settles_writeProperty {identifier name type getter setter : String} {value answer : Value}
    (found : program.code.item? identifier = some (.property name type getter setter))
    (bound : Nat) (written : ∀ depth, (invokeMethod program (depth + bound) self setter
      [value]).on machine = (.ok answer, final)) :
    Settles (writeProperty program self identifier value) machine (.ok ()) final := by
  refine .of_forall bound fun depth => ?_
  rw [writeProperty, writeMember, found]
  exact Run.on_bind_ok (written depth)

theorem settles_writeProperty_error {identifier name type getter setter : String} {value : Value}
    {fault : Fault}
    (found : program.code.item? identifier = some (.property name type getter setter))
    (bound : Nat) (failed : ∀ depth, (invokeMethod program (depth + bound) self setter
      [value]).on machine = (.error fault, final)) :
    Settles (writeProperty program self identifier value) machine (.error fault) final := by
  refine .of_forall bound fun depth => ?_
  rw [writeProperty, writeMember, found]
  exact Run.on_bind_error (failed depth)

theorem settles_readProperty {identifier name type getter setter : String} {value : Value}
    (found : program.code.item? identifier = some (.property name type getter setter))
    (bound : Nat) (read : ∀ depth, (invokeMethod program (depth + bound) self getter
      []).on machine = (.ok value, final)) :
    Settles (readProperty program self identifier) machine (.ok value) final := by
  refine .of_forall bound fun depth => ?_
  rw [readProperty, readMember, found]
  exact read depth

/-! ### One operation -/

/-- How an operation may end: with a result or an exception, in a consistent state, and with all
collections if it takes none away. -/
structure Operation.Ends (plan : ClassPlan) (owner : Address) (operation : Operation)
    (machine : Machine Content Payload) (outcome : Except Fault Unit)
    (final : Machine Content Payload) : Prop where
  proper : IsProper outcome
  consistent : Consistent plan owner final
  filled : operation.SparesCollections → Filled plan owner machine → Filled plan owner final

section

variable (implements : Implements program.code plan) (consistent : Consistent plan self machine)
  {field : FieldPlan}
include implements consistent

theorem settles_write {value : Value} (inside : field ∈ plan.fields)
    (accepts : Accepts plan self machine field value) :
    ∃ outcome final, Settles ((Operation.write field value).run program self) machine outcome final ∧
      (Operation.write field value).Ends plan self machine outcome final := by
  have wellFormed := implements.wellFormed
  obtain ⟨final, written, assigns⟩ := invoke_setter implements inside consistent accepts
  refine ⟨.ok (), final, settles_writeProperty (implements.property inside) 3 written, ?_⟩
  exact ⟨.inl ⟨(), rfl⟩, assigns.consistent wellFormed consistent,
    fun spares filled => assigns.filled wellFormed filled spares⟩

/-- A field that is marked as present is a member of a oneof, which comes to select it, or it stays
what it is. Outside oneofs this is refused if the field has no value. -/
theorem settles_mark_true (inside : field ∈ plan.fields) {presence : PresenceNames}
    (present : field.names.presence = some presence) :
    ∃ outcome final, Settles ((Operation.mark field true).run program self) machine outcome final ∧
      IsOrderly outcome ∧ (final = machine ∨ ∃ oneof ∈ plan.oneofs, ∃ current position,
        Selects self machine oneof current ∧ position ≤ oneof.members.length ∧
          final = Execution.choose self machine program.library oneof current position) := by
  have wellFormed := implements.wellFormed
  have owns := consistent.owns
  have property := implements.presenceProperty inside present
  rw [Operation.run, FieldPlan.presenceName, present]
  rcases outside_or_member wellFormed inside with outside | ⟨oneof, oneof_inside, position, found⟩
  · have written (depth : Nat) :=
      invoke_presenceSetter implements inside depth present outside owns true
    rw [if_pos rfl] at written
    by_cases same : stored self machine field = absent field
    · simp only [if_pos same] at written
      exact ⟨_, machine, settles_writeProperty_error property 2 written, .inr ⟨_, rfl⟩, .inl rfl⟩
    · simp only [if_neg same] at written
      exact ⟨.ok (), machine, settles_writeProperty property 2 written, .inl rfl, .inl rfl⟩
  · obtain ⟨current, selects⟩ := consistent.selects oneof oneof_inside
    exact ⟨.ok (), _, settles_writeProperty property 2 fun depth =>
      invoke_presenceSetter_member implements oneof_inside depth found present owns selects true,
      .inl rfl, .inr ⟨oneof, oneof_inside, current, position, selects, memberAt_bound found, rfl⟩⟩

theorem settles_mark (inside : field ∈ plan.fields) (single : field.field.repeated = false)
    (value : Bool) :
    ∃ outcome final, Settles ((Operation.mark field value).run program self) machine outcome final ∧
      (Operation.mark field value).Ends plan self machine outcome final := by
  have wellFormed := implements.wellFormed
  obtain ⟨presence, present⟩ := exists_presence wellFormed inside single
  cases value with
  | false =>
    obtain ⟨final, written, unmarks⟩ :=
      invoke_presenceSetter_false implements inside present consistent
    rw [Operation.run, FieldPlan.presenceName, present]
    exact ⟨.ok (), final,
      settles_writeProperty (implements.presenceProperty inside present) 2 written, .inl ⟨(), rfl⟩,
      unmarks.consistent wellFormed consistent, fun _ => unmarks.filled wellFormed single⟩
  | true =>
    obtain ⟨outcome, final, settles, orderly, rfl | ⟨oneof, oneof_inside, current, position, selects,
      bound, rfl⟩⟩ := settles_mark_true implements consistent inside present
    · exact ⟨outcome, final, settles, orderly.proper, consistent, fun _ => id⟩
    · have moves : Moves plan self oneof position machine
          (Execution.choose self machine program.library oneof current position) :=
        moves_choose wellFormed oneof_inside consistent.owns selects bound
      exact ⟨outcome, _, settles, orderly.proper,
        moves.consistent wellFormed oneof_inside consistent,
        fun _ => moves.filled wellFormed oneof_inside⟩

theorem settles_choose {oneof : OneofPlan} {position : Nat} (inside : oneof ∈ plan.oneofs)
    (bound : position ≤ oneof.members.length) :
    ∃ outcome final,
      Settles ((Operation.choose oneof position).run program self) machine outcome final ∧
        (Operation.choose oneof position).Ends plan self machine outcome final := by
  have wellFormed := implements.wellFormed
  have owns := consistent.owns
  obtain ⟨current, selects⟩ := consistent.selects oneof inside
  have moves : Moves plan self oneof position machine
      (Execution.choose self machine program.library oneof current position) :=
    moves_choose wellFormed inside owns selects bound
  exact ⟨.ok (), _, settles_writeProperty (implements.caseProperty inside) 1 fun depth =>
    invoke_caseSetter implements inside depth owns selects, .inl ⟨(), rfl⟩,
    moves.consistent wellFormed inside consistent, fun _ => moves.filled wellFormed inside⟩

theorem settles_clear :
    ∃ outcome final, Settles (Operation.clear.run program self) machine outcome final ∧
      Operation.clear.Ends plan self machine outcome final := by
  obtain ⟨outcome, final, cleared, ends⟩ := invoke_clear implements consistent
  have filled := fun (_ : Operation.clear.SparesCollections) before => (ends.filled before).2
  rcases ends.proper with rfl | ⟨exceptionType, text, rfl⟩
  · exact ⟨.ok (), final, settles_callMethod 4 cleared, .inl ⟨(), rfl⟩,
      ends.consistent, filled⟩
  · exact ⟨.error _, final, .of_forall 4 fun depth => Run.on_bind_error (cleared depth),
      .inr ⟨_, _, rfl⟩, ends.consistent, filled⟩

/-- **Every operation comes to an end and keeps the state consistent.** -/
theorem Operation.settles {operation : Operation}
    (permitted : operation.Permitted plan self machine) :
    ∃ outcome final, Settles (operation.run program self) machine outcome final ∧
      operation.Ends plan self machine outcome final := by
  cases operation with
  | write field value => exact settles_write implements consistent permitted.1 permitted.2
  | mark field value => exact settles_mark implements consistent permitted.1 permitted.2 value
  | choose oneof position => exact settles_choose implements consistent permitted.1 permitted.2
  | clear => exact settles_clear implements consistent

end

/-! ### Sequences of operations -/

/-- What the rest of the program may do: it makes objects, changes their contents and frees those
that the instance does not own. -/
structure Elsewhere (plan : ClassPlan) (owner : Address) (machine final : Machine Content Payload) :
    Prop where
  fields : final.fields owner = machine.fields owner
  alive : ∀ field ∈ plan.fields, ∀ address, stored owner machine field = .object address →
    (final.objects address).isSome = true
  below : ∀ address, (final.objects address).isSome = true → address < final.fresh

theorem Elsewhere.consistent (elsewhere : Elsewhere plan self machine final)
    (consistent : Consistent plan self machine) : Consistent plan self final := by
  have same : ∀ field, stored self final field = stored self machine field := fun field =>
    congrFun elsewhere.fields field.names.backing
  refine ⟨⟨elsewhere.below, fun field inside => ?_, ?_⟩, fun oneof inside => ?_⟩
  · have fits := consistent.owns.fits field inside
    rw [same]
    unfold Fits at fits ⊢
    split
    · next objects =>
      rw [if_pos objects] at fits
      rcases fits with nil | ⟨address, object, -⟩
      · exact .inl nil
      · exact .inr ⟨address, object, elsewhere.alive field inside address object⟩
    · next plain =>
      rw [if_neg plain] at fits
      exact fits
  · intro field inside other other_inside address holds other_holds
    rw [same] at holds other_holds
    exact consistent.owns.apart field inside other other_inside address holds other_holds
  · obtain ⟨position, selects⟩ := consistent.selects oneof inside
    refine ⟨position, selects.bound, ?_, fun field found message => ?_,
      fun index field found different => ?_⟩
    · rw [elsewhere.fields]
      exact selects.backing
    · rw [same]
      exact selects.selected field found message
    · rw [same]
      exact selects.unselected index field found different

theorem Elsewhere.filled (elsewhere : Elsewhere plan self machine final)
    (filled : Filled plan self machine) : Filled plan self final := by
  intro field inside repeated
  rw [stored, elsewhere.fields]
  exact filled field inside repeated

theorem elsewhere_allocate (owns : Owns plan self machine) (content : Content) :
    Elsewhere plan self machine (machine.allocate content) := by
  refine ⟨rfl, fun field inside address object => ?_, fun address alive => ?_⟩
  · rw [(keeps_allocate owns inside content).objects address object]
    exact owns.object_alive inside object
  · rw [Machine.fresh_allocate]
    by_cases new : address = machine.fresh
    · rw [new]
      exact Nat.lt_succ_self _
    · rw [Machine.objects_allocate_other _ _ new] at alive
      exact Nat.lt_succ_of_lt (owns.below address alive)

/-- An object that changes its content leaves the fields of an instance as they were. -/
theorem elsewhere_setObject (owns : Owns plan self machine) {address : Address}
    (alive : (machine.objects address).isSome = true) (content : Content) :
    Elsewhere plan self machine (machine.setObject address (some content)) := by
  have same (other : Address) :
      ((machine.setObject address (some content)).objects other).isSome =
        (machine.objects other).isSome := by
    by_cases equal : other = address
    · rw [equal, Machine.objects_setObject_same, alive, Option.isSome_some]
    · rw [Machine.objects_setObject_other _ _ _ equal]
  refine ⟨rfl, fun field inside other object => ?_, fun other alive => ?_⟩
  · rw [same]
    exact owns.object_alive inside object
  · rw [same] at alive
    exact owns.below other alive

theorem elsewhere_write (owns : Owns plan self machine) (destination : Address)
    (records : List (Record Payload)) :
    Elsewhere plan self machine (machine.write destination records) :=
  ⟨rfl, fun _ inside _ object => owns.object_alive inside object, owns.below⟩

/-- The states that an instance reaches from its creation by operations of a kind, whether they end
with a result or with an exception. -/
inductive Reachable (program : Program Content Payload) (plan : ClassPlan) (self : Address)
    (allowed : Operation → Prop) : Machine Content Payload → Prop where
  | created {start machine : Machine Content Payload} (new : IsNew plan self start)
      (ends : Settles (callMethod program self "Create" []) start (.ok ()) machine) :
      Reachable program plan self allowed machine
  | operated {machine final : Machine Content Payload} {operation : Operation}
      {outcome : Except Fault Unit} (before : Reachable program plan self allowed machine)
      (allows : allowed operation) (permitted : operation.Permitted plan self machine)
      (ends : Settles (operation.run program self) machine outcome final) :
      Reachable program plan self allowed final
  | elsewhere {machine final : Machine Content Payload}
      (before : Reachable program plan self allowed machine)
      (elsewhere : Elsewhere plan self machine final) : Reachable program plan self allowed final

/-- An instance is in a consistent state and has all its collections. -/
structure Sound (plan : ClassPlan) (owner : Address) (machine : Machine Content Payload) : Prop where
  consistent : Consistent plan owner machine
  filled : Filled plan owner machine

theorem Elsewhere.sound (elsewhere : Elsewhere plan self machine final)
    (sound : Sound plan self machine) : Sound plan self final :=
  ⟨elsewhere.consistent sound.consistent, elsewhere.filled sound.filled⟩

/-- A collection of an instance in a sound state is an object that is alive. -/
theorem Sound.collection (sound : Sound plan self machine) {field : FieldPlan}
    (inside : field ∈ plan.fields) (repeated : field.field.repeated = true) :
    ∃ address content, stored self machine field = .object address ∧
      machine.objects address = some content := by
  have objects : holdsObjects field = true := by rw [holdsObjects, repeated, Bool.true_or]
  obtain ⟨address, holds, alive⟩ := (sound.consistent.owns.alive inside objects).resolve_left
    (sound.filled field inside repeated)
  obtain ⟨content, found⟩ := Option.isSome_iff_exists.mp alive
  exact ⟨address, content, holds, found⟩

section

variable (implements : Implements program.code plan)
include implements

theorem settles_create (new : IsNew plan self machine) :
    ∃ final, Settles (callMethod program self "Create" []) machine (.ok ()) final ∧
      Consistent plan self final ∧ Filled plan self final := by
  obtain ⟨final, created, consistent, filled⟩ := invoke_create implements new
  exact ⟨final, settles_callMethod 4 created, consistent, filled⟩

/-- **Every state that can be reached is consistent.** -/
theorem Reachable.consistent {allowed : Operation → Prop}
    (reachable : Reachable program plan self allowed machine) : Consistent plan self machine := by
  -- A call ends in one way only, so the state that was reached is the one that the step lemma gives.
  induction reachable with
  | created new ends =>
    obtain ⟨final, settles, consistent, -⟩ := settles_create implements new
    rwa [(ends.unique settles).2]
  | operated _ _ permitted ends ih =>
    obtain ⟨_, final, settles, operation_ends⟩ := Operation.settles implements ih permitted
    rw [(ends.unique settles).2]
    exact operation_ends.consistent
  | elsewhere _ elsewhere ih => exact elsewhere.consistent ih

/-- **Collections stay there** if no operation takes one away. -/
theorem Reachable.filled
    (reachable : Reachable program plan self Operation.SparesCollections machine) :
    Filled plan self machine := by
  induction reachable with
  | created new ends =>
    obtain ⟨final, settles, -, filled⟩ := settles_create implements new
    rwa [(ends.unique settles).2]
  | operated before spares permitted ends ih =>
    obtain ⟨_, final, settles, operation_ends⟩ :=
      Operation.settles implements (before.consistent implements) permitted
    rw [(ends.unique settles).2]
    exact operation_ends.filled spares ih
  | elsewhere _ elsewhere ih => exact elsewhere.filled ih

/-- **Every state that can be reached is sound** if no operation takes a collection away. -/
theorem Reachable.sound
    (reachable : Reachable program plan self Operation.SparesCollections machine) :
    Sound plan self machine :=
  ⟨reachable.consistent implements, reachable.filled implements⟩

end

end ProtoPascal.Execution
