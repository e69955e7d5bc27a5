import ProtoPascal.Proofs.Execution.Commands
import ProtoPascal.Proofs.OneofExclusivity

/-!
Ownership of objects by instances of generated classes. Messages and collections come to an instance
when its code makes them or when a client hands them over. From then on the instance takes care of
them, until it frees them.

Main statement: `objects_have_one_owner`.
-/

namespace ProtoPascal.Execution

open Message
open Schema (MessageType)

variable {Content Payload : Type} {plan : ClassPlan} {self : Address} {came : Set Address}
  {machine final : Machine Content Payload}

/-- A change brings no freed object back, and leaves alone the objects that have not come to an
instance. -/
structure Respects (came : Set Address) (machine final : Machine Content Payload) : Prop where
  dead : ∀ address < machine.fresh, machine.objects address = none → final.objects address = none
  foreign : ∀ address < machine.fresh, address ∉ came →
    final.objects address = machine.objects address

/-- A change that leaves alone what the instance does not hold brings no freed object back: what it
holds is alive. -/
theorem Accounts.respects (accounts : Accounts plan self came machine)
    (owns : Owns plan self machine)
    (others : ∀ address < machine.fresh,
      (∀ field ∈ plan.fields, stored self machine field ≠ .object address) →
        final.objects address = machine.objects address) : Respects came machine final where
  dead address known dead := by
    rw [others address known, dead]
    intro field inside holds
    have alive := owns.object_alive inside holds
    rw [dead] at alive
    cases alive
  foreign address known elsewhere := others address known fun field inside holds =>
    elsewhere (accounts.held field inside address holds)

/-- What has come to an instance is dead or held by one field. -/
theorem Accounts.dead_or_held (accounts : Accounts plan self came machine)
    (owns : Owns plan self machine) {address : Address} (member : address ∈ came) :
    machine.objects address = none ∨
      ∃! field, field ∈ plan.fields ∧ stored self machine field = .object address := by
  cases found : machine.objects address with
  | none => exact .inl rfl
  | some content =>
    obtain ⟨field, inside, holds⟩ := accounts.kept address member (by rw [found]; rfl)
    refine .inr ⟨field, ⟨inside, holds⟩, ?_⟩
    rintro other ⟨other_inside, other_holds⟩
    exact owns.apart other other_inside field inside address other_holds holds

theorem useValue_free_dead (library : Library Content Payload) {address : Address}
    (dead : machine.objects address = none) :
    (useValue library (.object address) "Free" []).on machine =
      (.error (.raised "EAccessViolation" "Access violation"), machine) := by
  rw [useValue, Run.on_bind, Run.on_look, dead]
  rfl

/-- **Every object has one owner.** A client creates an instance of a generated class, and then
writes its properties, clears it, lets it read streams, and merges or assigns other instances into
it, in any order. Freeing a dead object is an access violation, and no command ends with one, so no
object is freed twice. Between commands the fields hold no freed object, and each object that has
come to the instance is freed or held by exactly one field. Objects that have not come to it stay
what they are. When the instance is destroyed, all that has come to it is freed. -/
theorem objects_have_one_owner {program : Program Content Payload} {message : MessageType}
    {plan : ClassPlan} (generated : Generated message program.code plan)
    (typed : program.library.Typed plan) :
    plan.fields.map FieldPlan.field = message.fields ∧
      plan.oneofs.map (fun oneof => oneof.members.map FieldPlan.field) =
        (List.range message.oneofs.length).map message.oneofMembers ∧
      (∀ (machine : Machine Content Payload) address, machine.objects address = none →
        (useValue program.library (.object address) "Free" []).on machine =
          (.error (.raised "EAccessViolation" "Access violation"), machine)) ∧
      (∀ self start, IsNew plan self start → ∃ machine,
        Settles (callMethod program self "Create" []) start (.ok ()) machine) ∧
      ∀ self came machine, Life program plan self came machine →
        (∀ field ∈ plan.fields, ∀ address, stored self machine field = .object address →
          address ∈ came ∧ (machine.objects address).isSome = true) ∧
        (∀ address ∈ came, machine.objects address = none ∨
          ∃! field, field ∈ plan.fields ∧ stored self machine field = .object address) ∧
        (∀ command : Command, command.Permitted plan self machine → ∃ outcome final,
          Settles (command.run program self) machine outcome final ∧ IsOrderly outcome ∧
            Respects came machine final) ∧
        ∃ final, Settles (callMethod program self "Destroy" []) machine (.ok ()) final ∧
          (∀ address ∈ came, final.objects address = none) ∧ Respects came machine final := by
  have implements := generated.implements
  refine ⟨generated.members.1, generated.members.2,
    fun machine address dead => useValue_free_dead program.library dead,
    fun self start new => ?_, fun self came machine life => ?_⟩
  · obtain ⟨machine, settles, -, -⟩ := settles_create implements new
    exact ⟨machine, settles⟩
  obtain ⟨sound, accounts⟩ := life.accounts implements typed
  have owns := sound.consistent.owns
  refine ⟨fun field inside address holds => ⟨accounts.held field inside address holds,
    owns.object_alive inside holds⟩, fun address => accounts.dead_or_held owns,
    fun command permitted => ?_, ?_⟩
  · obtain ⟨outcome, final, settles, orderly, handles⟩ :=
      Command.settles implements sound typed permitted
    exact ⟨outcome, final, settles, orderly, accounts.respects owns handles.objects⟩
  · obtain ⟨final, destroyed, freed, others⟩ := invoke_destroy implements owns
    have respects : Respects came machine final :=
      accounts.respects owns fun address _ => others address
    refine ⟨final, settles_callMethod 1 destroyed, fun address member => ?_, respects⟩
    rcases accounts.dead_or_held owns member with dead | ⟨field, ⟨inside, holds⟩, -⟩
    · exact respects.dead address (accounts.known address member) dead
    · exact freed field inside address holds

/-! ### A class with a oneof -/

/-- A library like the transparent one, whose codecs read numbers of 32 bits. -/
def Library.wrapping : Library (List Value) (Value × List Value) :=
  { Library.transparent with
    decodeScalar := fun _ payloads =>
      match payloads.headD (.nil, []) with
      | (.integer value, _) => .integer (value.bmod (2 ^ 32))
      | _ => .integer 0 }

theorem isSigned_bmod (value : Int) : IsSigned 31 (value.bmod (2 ^ 32)) := by
  have low := @Int.le_bmod value (2 ^ 32) (by decide)
  have high := @Int.bmod_lt value (2 ^ 32) (by decide)
  unfold IsSigned
  omega

/-- The only codec of the sample message is that of its number. -/
theorem Library.wrapping_typed {code : ClassCode} {plan : ClassPlan}
    (generated : Generated sampleMessage code plan) : Library.wrapping.Typed plan := by
  intro field inside single codec coded payloads
  have plain : field.field.type.isMessage = false := by
    rcases wireCodec_cases (generated.implements.wellFormed.supported field inside) with
      ⟨missing, -⟩ | ⟨_, -, plain⟩
    · rw [missing] at coded
      cases coded
    · exact plain
  have declared : field.field ∈ sampleMessage.fields :=
    generated.members.1 ▸ List.mem_map_of_mem inside
  have number : field.field.type = .scalar .int32 := by
    simp only [sampleMessage, List.mem_cons, List.not_mem_nil, or_false] at declared
    rcases declared with same | same | same
    · rw [same]
    · rw [same] at plain
      cases plain
    · rw [same] at single
      cases single
  rw [number]
  show FitsScalar .int32 (Library.wrapping.decodeScalar codec payloads)
  unfold Library.wrapping
  dsimp only
  split
  · exact isSigned_bmod _
  · exact ⟨by decide, by decide⟩

/-- A client makes a message and hands it over to a new instance of the class, whose oneof selects
nothing. One field of the instance holds it then, and it is freed with the instance. -/
theorem sample_objects_have_one_owner :
    ∃ (program : Program (List Value) (Value × List Value)) (plan : ClassPlan) (child : FieldPlan)
      (before machine final : Machine (List Value) (Value × List Value))
      (earlier came : Set Address) (given : Address),
      Generated sampleMessage program.code plan ∧ program.library.Typed plan ∧
        child ∈ plan.fields ∧ child.field.type = .reference .message ".Sample" ∧
        Life program plan 0 earlier before ∧ given ∉ earlier ∧
        (Command.operate (.write child (.object given))).Permitted plan 0 before ∧
        Settles (writeProperty program 0 child.names.property (.object given)) before (.ok ())
          machine ∧
        Life program plan 0 came machine ∧ given ∈ came ∧
        (∃! field, field ∈ plan.fields ∧ stored 0 machine field = .object given) ∧
        Settles (callMethod program 0 "Destroy" []) machine (.ok ()) final ∧
        final.objects given = none := by
  obtain ⟨code, plan, generated, -⟩ := sample_generated
  let program : Program (List Value) (Value × List Value) := ⟨code, .wrapping⟩
  have ofProgram : Generated sampleMessage program.code plan := generated
  have typed : program.library.Typed plan := Library.wrapping_typed generated
  have implements := ofProgram.implements
  obtain ⟨child, inside, declared⟩ : ∃ child ∈ plan.fields, child.field =
      { name := "child", number := 2, type := .reference .message ".Sample",
        oneofIndex := some 0 } :=
    List.mem_map.mp (generated.members.1 ▸ by simp [sampleMessage])
  obtain ⟨-, -, -, creates, owners⟩ := objects_have_one_owner ofProgram typed
  obtain ⟨start, created⟩ := creates 0 _ (isNew_zeroed implements.wellFormed 0)
  have born : Life program plan 0 (Set.Ico 0 start.fresh) start :=
    .created (isNew_zeroed implements.wellFormed 0) created
  have owns := (born.accounts implements typed).1.consistent.owns
  -- The rest of the program makes the message.
  have made : Life program plan 0 (Set.Ico 0 start.fresh) (start.allocate []) :=
    born.passed (meanwhile_allocate owns [])
  have sound := (made.accounts implements typed).1
  have accepts : Accepts plan 0 (start.allocate []) child (.object start.fresh) :=
    accepts_allocated owns (by rw [declared]; rfl) []
  have spares : child.field.repeated = true → Value.object start.fresh ≠ .nil := fun _ =>
    Value.noConfusion
  obtain ⟨machine, settles, handles⟩ :=
    settles_write_handles implements sound inside accepts spares
  have permitted : (Command.operate (.write child (.object start.fresh))).Permitted plan 0
      (start.allocate []) := ⟨⟨inside, accepts⟩, spares⟩
  have handed := made.commanded permitted settles
  obtain ⟨-, held, -, final, destroyed, freed, -⟩ := owners 0 _ _ handed
  have member : start.fresh ∈ Set.Ico 0 start.fresh ∪
      {address | (Command.operate (.write child (.object start.fresh))).given = .object address} ∪
        Set.Ico (start.allocate []).fresh machine.fresh := .inl (.inr rfl)
  have alive : machine.objects start.fresh = some [] := by
    rw [handles.objects start.fresh (Nat.lt_succ_self _) fun field field_inside holds =>
      absurd (owns.object_below field_inside holds) (Nat.lt_irrefl _)]
    exact Machine.objects_allocate_fresh ..
  refine ⟨program, plan, child, _, machine, final, _, _, start.fresh, ofProgram, typed, inside,
    by rw [declared], made, fun early => Nat.lt_irrefl _ early.2, permitted, settles, handed, member,
    (held _ member).resolve_left fun dead => ?_, destroyed, freed _ member⟩
  rw [alive] at dead
  cases dead

end ProtoPascal.Execution
