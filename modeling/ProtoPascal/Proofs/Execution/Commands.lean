import Mathlib.Order.Interval.Set.Defs
import ProtoPascal.Proofs.Execution.Handling

/-!
All that a client does with an instance while it lives: it writes properties and clears the instance,
lets it read streams, and merges or assigns other instances into it.

* `Command.settles`: every command comes to an end, leaves the instance in a sound state and loses no
  object;
* `Accounts`: the instance holds the objects that have come to it and are alive, and no others;
* `Life.accounts`: so it does at every moment of its life.
-/

namespace ProtoPascal.Execution

open Message
open Pascal

variable {Content Payload : Type} {program : Program Content Payload} {plan : ClassPlan}
  {self : Address} {machine final : Machine Content Payload} {field : FieldPlan}

/-! ### Commands -/

/-- What a client does with an instance. -/
inductive Command where
  | operate (operation : Operation)
  | decode (arrival : Address)
  | mergeFrom (source : Address)
  | assign (source : Address)

/-- The code that runs in a command. -/
def Command.run (program : Program Content Payload) (self : Address) :
    Command → Nat → Run Content Payload Unit
  | .operate operation => operation.run program self
  | .decode arrival => callMethod program self "Decode" [.stream arrival]
  | .mergeFrom source => callMethod program self "MergeFrom" [.object source]
  | .assign source => callMethod program self "Assign" [.object source]

/-- What a client hands over to an instance. -/
def Command.given : Command → Value
  | .operate (.write _ value) => value
  | _ => .nil

/-- What a client may do with an instance of a class. It takes no collection away, and another
instance has objects of its own. -/
def Command.Permitted (plan : ClassPlan) (self : Address) (machine : Machine Content Payload) :
    Command → Prop
  | .operate operation => operation.Permitted plan self machine ∧ operation.SparesCollections
  | .decode _ => True
  | .mergeFrom source | .assign source =>
    source ≠ self ∧ Sound plan source machine ∧ Separate plan self source machine

/-- What a client hands over is alive, if it is an object. -/
theorem Command.Permitted.alive {command : Command}
    (permitted : command.Permitted plan self machine) {address : Address}
    (given : command.given = .object address) : (machine.objects address).isSome = true := by
  match command with
  | .operate (.write field value) =>
    have accepts : Accepts plan self machine field value := permitted.1.2
    rw [show value = .object address from given] at accepts
    rcases accepts.alive (holdsObjects_of_accepts accepts) with nil | ⟨_, same, alive⟩
    · cases nil
    · cases same
      exact alive
  | .operate (.mark _ _) | .operate (.choose _ _) | .operate .clear | .decode _ | .mergeFrom _
  | .assign _ => cases given

section

variable (implements : Implements program.code plan) (sound : Sound plan self machine)
include implements sound

theorem settles_write_handles {value : Value} (inside : field ∈ plan.fields)
    (accepts : Accepts plan self machine field value)
    (spares : field.field.repeated = true → value ≠ .nil) :
    ∃ final, Settles ((Operation.write field value).run program self) machine (.ok ()) final ∧
      Handles plan self value machine final := by
  have wellFormed := implements.wellFormed
  obtain ⟨final, written, assigns, manages⟩ :=
    invoke_setter_manages implements inside sound.consistent accepts
  exact ⟨final, settles_writeProperty (implements.property inside) 3 written, manages,
    assigns.consistent wellFormed sound.consistent, assigns.filled wellFormed sound.filled spares⟩

theorem handles_choose {oneof : OneofPlan} (inside : oneof ∈ plan.oneofs) {current position : Nat}
    (selects : Selects self machine oneof current) (bound : position ≤ oneof.members.length) :
    Handles plan self .nil machine
      (choose self machine program.library oneof current position) := by
  have wellFormed := implements.wellFormed
  have owns := sound.consistent.owns
  have moves : Moves plan self oneof position machine
      (choose self machine program.library oneof current position) :=
    moves_choose wellFormed inside owns selects bound
  exact ⟨manages_choose wellFormed inside owns selects position,
    moves.consistent wellFormed inside sound.consistent,
    moves.filled wellFormed inside sound.filled⟩

theorem settles_mark_handles (inside : field ∈ plan.fields) (single : field.field.repeated = false)
    (value : Bool) :
    ∃ outcome final, Settles ((Operation.mark field value).run program self) machine outcome final ∧
      IsOrderly outcome ∧ Handles plan self .nil machine final := by
  have wellFormed := implements.wellFormed
  have consistent := sound.consistent
  obtain ⟨presence, present⟩ := exists_presence wellFormed inside single
  cases value with
  | false =>
    obtain ⟨final, written, unmarks, manages⟩ :=
      invoke_presenceSetter_false_manages implements inside present consistent
    rw [Operation.run, FieldPlan.presenceName, present]
    exact ⟨.ok (), final,
      settles_writeProperty (implements.presenceProperty inside present) 2 written, .inl rfl,
      unmarks.handles wellFormed sound single manages⟩
  | true =>
    obtain ⟨outcome, final, settles, orderly, rfl | ⟨oneof, oneof_inside, current, position, selects,
      bound, rfl⟩⟩ := settles_mark_true implements consistent inside present
    · exact ⟨outcome, final, settles, orderly, .idle, sound⟩
    · exact ⟨outcome, _, settles, orderly,
        handles_choose implements sound oneof_inside selects bound⟩

/-- An operation loses no object, and neither what is handed over in it. -/
theorem Operation.settles_handles {operation : Operation}
    (permitted : operation.Permitted plan self machine) (spares : operation.SparesCollections) :
    ∃ outcome final, Settles (operation.run program self) machine outcome final ∧
      IsOrderly outcome ∧ Handles plan self (Command.operate operation).given machine final := by
  cases operation with
  | write field value =>
    obtain ⟨final, settles, handles⟩ :=
      settles_write_handles implements sound permitted.1 permitted.2 spares
    exact ⟨.ok (), final, settles, .inl rfl, handles⟩
  | mark field value => exact settles_mark_handles implements sound permitted.1 permitted.2 value
  | choose oneof position =>
    obtain ⟨current, selects⟩ := sound.consistent.selects oneof permitted.1
    exact ⟨.ok (), _, settles_writeProperty (implements.caseProperty permitted.1) 1 fun depth =>
      invoke_caseSetter implements permitted.1 depth sound.consistent.owns selects, .inl rfl,
      handles_choose implements sound permitted.1 selects permitted.2⟩
  | clear =>
    obtain ⟨final, cleared, handles⟩ := invoke_clear_handles implements sound
    exact ⟨.ok (), final, settles_callMethod 4 cleared, .inl rfl, handles⟩

/-- **Every command comes to an end and loses no object.** -/
theorem Command.settles (typed : program.library.Typed plan) {command : Command}
    (permitted : command.Permitted plan self machine) :
    ∃ outcome final, Settles (command.run program self) machine outcome final ∧
      IsOrderly outcome ∧ Handles plan self command.given machine final := by
  cases command with
  | operate operation => exact operation.settles_handles implements sound permitted.1 permitted.2
  | decode arrival =>
    obtain ⟨final, ran, handles⟩ := invoke_decode_handles implements typed sound arrival
    exact ⟨.ok (), final, settles_callMethod 4 ran, .inl rfl, handles⟩
  | mergeFrom source =>
    obtain ⟨final, ran, handles, -⟩ :=
      invoke_merge implements permitted.1 sound permitted.2.1 permitted.2.2
    exact ⟨.ok (), final, settles_callMethod 5 ran, .inl rfl, handles⟩
  | assign source =>
    obtain ⟨final, ran, handles⟩ :=
      invoke_assign_handles implements permitted.1 sound permitted.2.1 permitted.2.2
    exact ⟨.ok (), final, settles_callMethod 5 ran, .inl rfl, handles⟩

end

/-! ### Accounts of objects -/

/-- The objects that have come to an instance are accounted for: it holds those of them that are
alive, and no others. -/
structure Accounts (plan : ClassPlan) (owner : Address) (came : Set Address)
    (machine : Machine Content Payload) : Prop where
  known : ∀ address ∈ came, address < machine.fresh
  held : ∀ field ∈ plan.fields, ∀ address, stored owner machine field = .object address →
    address ∈ came
  kept : ∀ address ∈ came, (machine.objects address).isSome = true →
    ∃ field ∈ plan.fields, stored owner machine field = .object address

variable {came : Set Address}

/-- **A change that loses no object keeps the accounts.** What is given to the instance and what its
code makes come to it. -/
theorem Accounts.handle {given : Value} (accounts : Accounts plan self came machine)
    (below : ∀ address, (machine.objects address).isSome = true → address < machine.fresh)
    (alive : ∀ address, given = .object address → (machine.objects address).isSome = true)
    (handles : Handles plan self given machine final) :
    Accounts plan self
      (came ∪ {address | given = .object address} ∪ Set.Ico machine.fresh final.fresh) final where
  known address member := by
    rcases member with (old | given) | new
    · exact Nat.lt_of_lt_of_le (accounts.known address old) handles.fresh
    · exact Nat.lt_of_lt_of_le (below address (alive address given)) handles.fresh
    · exact new.2
  held field inside address holds := by
    rcases handles.holds field inside address holds with new | given | ⟨before, before_inside, old⟩
    · exact .inr ⟨new, handles.sound.consistent.owns.object_below inside holds⟩
    · exact .inl (.inr given)
    · exact .inl (.inl (accounts.held before before_inside address old))
  kept address member living := by
    by_contra lost
    -- Nobody would hold the object, so it had nothing to do with the instance before.
    have free : ∀ field ∈ plan.fields, stored self final field ≠ .object address :=
      fun field inside holds => lost ⟨field, inside, holds⟩
    obtain ⟨loose, other⟩ := handles.loose address ⟨living, free⟩
    rcases member with (old | given) | new
    · obtain ⟨field, inside, holds⟩ := accounts.kept address old loose.alive
      exact loose.free field inside holds
    · exact other given
    · exact absurd (below address loose.alive) (Nat.not_lt.mpr new.1)

/-! ### Lives -/

/-- What the rest of the program may do meanwhile: it makes objects, changes their contents and frees
those that the instance does not own. An object that was freed does not come back. -/
structure Meanwhile (plan : ClassPlan) (owner : Address) (machine final : Machine Content Payload) :
    Prop extends Elsewhere plan owner machine final where
  dead : ∀ address < machine.fresh, machine.objects address = none → final.objects address = none
  fresh : machine.fresh ≤ final.fresh

/-- The life of an instance, with the objects that have come to it so far: those that its code has
made and those that were handed over to it. -/
inductive Life (program : Program Content Payload) (plan : ClassPlan) (self : Address) :
    Set Address → Machine Content Payload → Prop where
  | created {start machine : Machine Content Payload} (new : IsNew plan self start)
      (ends : Settles (callMethod program self "Create" []) start (.ok ()) machine) :
      Life program plan self (Set.Ico start.fresh machine.fresh) machine
  | commanded {came : Set Address} {machine final : Machine Content Payload} {command : Command}
      {outcome : Except Fault Unit} (before : Life program plan self came machine)
      (permitted : command.Permitted plan self machine)
      (ends : Settles (command.run program self) machine outcome final) :
      Life program plan self (came ∪ {address | command.given = .object address} ∪
        Set.Ico machine.fresh final.fresh) final
  | passed {came : Set Address} {machine final : Machine Content Payload}
      (before : Life program plan self came machine)
      (meanwhile : Meanwhile plan self machine final) :
      Life program plan self came final

theorem Meanwhile.accounts (meanwhile : Meanwhile plan self machine final)
    (accounts : Accounts plan self came machine) : Accounts plan self came final where
  known address member := Nat.lt_of_lt_of_le (accounts.known address member) meanwhile.fresh
  held field inside address holds := by
    rw [stored, meanwhile.fields] at holds
    exact accounts.held field inside address holds
  kept address member living := by
    have before : (machine.objects address).isSome = true := by
      rw [Option.isSome_iff_ne_none] at living ⊢
      exact fun dead => living (meanwhile.dead address (accounts.known address member) dead)
    obtain ⟨field, inside, holds⟩ := accounts.kept address member before
    refine ⟨field, inside, ?_⟩
    rw [stored, meanwhile.fields]
    exact holds

theorem meanwhile_allocate (owns : Owns plan self machine) (content : Content) :
    Meanwhile plan self machine (machine.allocate content) where
  toElsewhere := elsewhere_allocate owns content
  dead address known dead := by
    rwa [Machine.objects_allocate_other machine content (Nat.ne_of_lt known)]
  fresh := Nat.le_succ _

/-- **At every moment of its life an instance is in a sound state**, and it accounts for all objects
that have come to it. -/
theorem Life.accounts (implements : Implements program.code plan)
    (typed : program.library.Typed plan) (life : Life program plan self came machine) :
    Sound plan self machine ∧ Accounts plan self came machine := by
  -- A call ends in one way only, so the state that is reached is the one that the step lemmas give.
  induction life with
  | @created start machine new ends =>
    obtain ⟨final, created, handles⟩ := invoke_create_handles implements new
    obtain ⟨-, rfl⟩ := ends.unique (settles_callMethod 4 created)
    have nothing : Accounts plan self ∅ start :=
      ⟨fun _ impossible => impossible.elim, fun field inside address holds =>
        absurd holds (new.ne_object inside address), fun _ impossible => impossible.elim⟩
    have accounts := nothing.handle new.below (fun _ impossible => Value.noConfusion impossible)
      handles
    simp only [reduceCtorEq, Set.ofPred_false, Set.union_empty, Set.empty_union] at accounts
    exact ⟨handles.sound, accounts⟩
  | commanded before permitted ends ih =>
    obtain ⟨sound, accounts⟩ := ih
    obtain ⟨outcome, final, settles, -, handles⟩ := Command.settles implements sound typed permitted
    obtain ⟨-, rfl⟩ := ends.unique settles
    exact ⟨handles.sound, accounts.handle sound.consistent.owns.below
      (fun _ given => permitted.alive given) handles⟩
  | passed before meanwhile ih => exact ⟨meanwhile.sound ih.1, meanwhile.accounts ih.2⟩

end ProtoPascal.Execution
