import ProtoPascal.Proofs.Execution.Decoding
import ProtoPascal.Proofs.OneofExclusivity

/-!
Instances of generated classes on the wire. An instance that reads what another one has written shows
the same as that one, whatever it held before.

Main statement: `decode_undoes_encode`.
-/

namespace ProtoPascal.Execution

open Message
open Schema (MessageType)

variable {Content Payload : Type}

/-- Two instances show the same to a client: the same values of properties, up to the addresses of
objects, the same presence of fields and the same cases of oneofs. -/
structure ShowsSame (program : Program Content Payload) (plan : ClassPlan) (source : Address)
    (origin : Machine Content Payload) (target : Address) (machine : Machine Content Payload) :
    Prop where
  property : ∀ field ∈ plan.fields, ∃ value value',
    Settles (readProperty program source field.names.property) origin (.ok value) origin ∧
      Settles (readProperty program target field.names.property) machine (.ok value') machine ∧
      seen origin value = seen machine value'
  presence : ∀ field ∈ plan.fields, field.field.repeated = false → ∃ value : Bool,
    Settles (readProperty program source field.presenceName) origin (.ok (.truth value)) origin ∧
      Settles (readProperty program target field.presenceName) machine (.ok (.truth value)) machine
  choice : ∀ oneof ∈ plan.oneofs, ∃ position ≤ oneof.members.length,
    Settles (readProperty program source oneof.names.property) origin
        (.ok (caseAt oneof position)) origin ∧
      Settles (readProperty program target oneof.names.property) machine
        (.ok (caseAt oneof position)) machine

section

variable {program : Program Content Payload} {plan : ClassPlan} {source self : Address}
  {origin machine : Machine Content Payload} {field : FieldPlan}

/-- What is seen of a value decides what is seen of it through a property. -/
theorem seen_shown {value value' : Value} (same : seen origin value = seen machine value') :
    seen origin (shown field value) = seen machine (shown field value') := by
  cases value' with
  | object address' =>
    cases value with
    | object address => rwa [shown_object, shown_object]
    | _ => cases same
  | _ =>
    obtain rfl := eq_of_seen_eq (fun _ => Value.noConfusion) same
    unfold shown
    split <;> rfl

/-- A property shows the object that its field holds. -/
theorem seen_shown_of_content {value : Value} {content : Option Content}
    (shows : seen machine value = .content content) :
    seen machine (shown field value) = .content content := by
  cases value with
  | object address => rwa [shown_object]
  | _ => cases shows

/-- Instances that show the same hold objects with the same contents. -/
theorem ShowsSame.content_eq (implements : Implements program.code plan)
    (same : ShowsSame program plan source origin self machine) (origin_owns : Owns plan source origin)
    (owns : Owns plan self machine) (inside : field ∈ plan.fields) {content content' : Option Content}
    (origin_shows : seen origin (stored source origin field) = .content content)
    (shows : seen machine (stored self machine field) = .content content') : content = content' := by
  obtain ⟨value, value', read, read', equal⟩ := same.property field inside
  have getter := settles_readProperty (implements.property inside) 1
    (invoke_getter implements inside origin_owns)
  have getter' := settles_readProperty (implements.property inside) 1
    (invoke_getter implements inside owns)
  obtain rfl := Except.ok.inj (read.unique getter).1
  obtain rfl := Except.ok.inj (read'.unique getter').1
  rw [seen_shown_of_content origin_shows, seen_shown_of_content shows] at equal
  exact Seen.content.inj equal

/-- Only the first value of a case type stands for no member. -/
theorem eq_zero_of_memberAt {oneof : OneofPlan} {position : Nat}
    (bound : position ≤ oneof.members.length) (missing : memberAt oneof position = none) :
    position = 0 := by
  cases position with
  | zero => rfl
  | succ position => exact absurd (List.getElem?_eq_none_iff.mp missing) (Nat.not_le.mpr bound)

/-- A oneof whose members agree with those of the source selects what the source selects. -/
theorem position_eq_of_members {oneof : OneofPlan} (inside : oneof ∈ plan.oneofs)
    (copied : ∀ index member, memberAt oneof index = some member →
      Copied plan source origin self machine member) {current position : Nat}
    (origin_selects : Selects source origin oneof current)
    (selects : Selects self machine oneof position) : current = position := by
  have agree {index : Nat} {member : FieldPlan} (found : memberAt oneof index = some member) :
      position = index ↔ current = index := by
    have chosen := (copied index member found).chosen oneof inside index found
    rwa [selects.backing, origin_selects.backing, caseAt_inj, caseAt_inj] at chosen
  -- A oneof that selects no member is at the first position, so one of the two tells it.
  cases found : memberAt oneof position with
  | some member => exact (agree found).mp rfl
  | none =>
    cases origin_found : memberAt oneof current with
    | some member => exact ((agree origin_found).mpr rfl).symm
    | none =>
      rw [eq_zero_of_memberAt selects.bound found,
        eq_zero_of_memberAt origin_selects.bound origin_found]

theorem position_eq_of_copied (wellFormed : plan.WellFormed)
    (copied : ∀ field ∈ plan.fields, Copied plan source origin self machine field)
    {oneof : OneofPlan} (inside : oneof ∈ plan.oneofs) {current position : Nat}
    (origin_selects : Selects source origin oneof current)
    (selects : Selects self machine oneof position) : current = position :=
  position_eq_of_members inside (fun _ member found =>
    copied member (memberAt_mem wellFormed inside found)) origin_selects selects

/-- Two instances show the same presence of a field that is present in both or in none. -/
theorem shows_presence (implements : Implements program.code plan) (inside : field ∈ plan.fields)
    (single : field.field.repeated = false) (origin_consistent : Consistent plan source origin)
    (consistent : Consistent plan self machine)
    (same : Present plan self machine field ↔ Present plan source origin field) : ∃ value : Bool,
      Settles (readProperty program source field.presenceName) origin (.ok (.truth value)) origin ∧
        Settles (readProperty program self field.presenceName) machine (.ok (.truth value))
          machine := by
  obtain ⟨presence, present⟩ := exists_presence implements.wellFormed inside single
  have property := implements.presenceProperty inside present
  obtain ⟨value, here, read⟩ := invoke_presence implements inside present origin_consistent
  obtain ⟨value', here', read'⟩ := invoke_presence implements inside present consistent
  have equal : value' = value := by rw [Bool.eq_iff_iff, here, here', same]
  subst equal
  rw [FieldPlan.presenceName, present]
  exact ⟨value', settles_readProperty property 1 read, settles_readProperty property 1 read'⟩

/-- **An instance whose fields agree with those of another one shows the same as that one.** -/
theorem showsSame_of_copied (implements : Implements program.code plan)
    (origin_consistent : Consistent plan source origin)
    (consistent : Consistent plan self machine)
    (copied : ∀ field ∈ plan.fields, Copied plan source origin self machine field) :
    ShowsSame program plan source origin self machine where
  property field inside :=
    ⟨_, _, settles_readProperty (implements.property inside) 1
      (invoke_getter implements inside origin_consistent.owns),
      settles_readProperty (implements.property inside) 1
        (invoke_getter implements inside consistent.owns), seen_shown (copied field inside).same⟩
  presence field inside single := shows_presence implements inside single origin_consistent
    consistent (copied field inside).present_iff
  choice oneof inside := by
    obtain ⟨current, origin_selects⟩ := origin_consistent.selects oneof inside
    obtain ⟨position, selects⟩ := consistent.selects oneof inside
    obtain rfl :=
      position_eq_of_copied implements.wellFormed copied inside origin_selects selects
    exact ⟨current, selects.bound, (origin_selects.showsCase implements inside).property,
      (selects.showsCase implements inside).property⟩

end

/-- **Decoding undoes encoding.** An instance of a generated class is written to a stream, and any
other instance of the class, in whatever state, reads it from there and then shows the same. Both
methods succeed. All instances are in states that they reach from their creation by operations of
their clients, of which none takes a collection away, and their objects have contents of the classes
that their fields declare. -/
theorem decode_undoes_encode {program : Program Content Payload} {message : MessageType}
    {plan : ClassPlan} {ofClass : String → Content → Prop}
    (generated : Generated message program.code plan)
    (faithful : program.library.Faithful plan ofClass) :
    plan.fields.map FieldPlan.field = message.fields ∧
      plan.oneofs.map (fun oneof => oneof.members.map FieldPlan.field) =
        (List.range message.oneofs.length).map message.oneofMembers ∧
      ∀ source origin, Reachable program plan source Operation.SparesCollections origin →
        ∀ destination, ∃ wire,
          Settles (callMethod program source "Encode" [.stream destination]) origin (.ok ())
            (origin.write destination wire) ∧
          (Typed ofClass plan source origin → ∀ target machine arrival,
            Reachable program plan target Operation.SparesCollections machine →
            TypedCollections ofClass plan target machine →
            machine.streams arrival = wire → ∃ final,
              Settles (callMethod program target "Decode" [.stream arrival]) machine (.ok ())
                final ∧ ShowsSame program plan source origin target final) := by
  have implements := generated.implements
  refine ⟨generated.members.1, generated.members.2, fun source origin reached destination => ?_⟩
  have origin_consistent := reached.consistent implements
  obtain ⟨payloadsOf, written, encoded⟩ :=
    invoke_encode implements origin_consistent (reached.filled implements) destination
  refine ⟨_, .of_forall 2 fun depth => Run.on_bind_ok (encoded depth), ?_⟩
  intro origin_typed target machine arrival reachable typed arrives
  obtain ⟨final, decoded, consistent, copied⟩ := invoke_decode implements faithful
    origin_consistent origin_typed written (reachable.consistent implements)
    (reachable.filled implements) typed arrives
  exact ⟨final, .of_forall 4 fun depth => Run.on_bind_ok (decoded depth),
    showsSame_of_copied implements origin_consistent consistent copied⟩

/-! ### A class with a oneof -/

theorem Library.transparent_faithful (plan : ClassPlan) (ofClass : String → List Value → Prop) :
    Library.transparent.Faithful plan ofClass where
  scalar _ _ _ _ _ _ _ := rfl
  message _ _ _ _ _ _ := rfl
  collection _ _ _ content _ _ _ := by
    simp [Library.transparent, Function.comp_def]
  ancestor _ impossible := absurd impossible List.not_mem_nil

/-- An instance whose oneof was told to select its second member, a message, is written. A new
instance, whose oneof selects nothing, reads it and then selects that member too. Every list of values
is the content of an object. -/
theorem sample_decode_undoes_encode :
    ∃ (program : Program (List Value) (Value × List Value)) (plan : ClassPlan) (oneof : OneofPlan)
      (origin machine final : Machine (List Value) (Value × List Value))
      (wire : List (Record (Value × List Value))),
      Generated sampleMessage program.code plan ∧ program.library.Faithful plan (fun _ _ => True) ∧
        oneof ∈ plan.oneofs ∧ oneof.members.length = 2 ∧
        Reachable program plan 0 Operation.SparesCollections origin ∧
        Settles (callMethod program 0 "Encode" [.stream 0]) origin (.ok ())
          (origin.write 0 wire) ∧
        Reachable program plan 1 Operation.SparesCollections machine ∧
        machine.streams 0 = wire ∧
        Settles (callMethod program 1 "Decode" [.stream 0]) machine (.ok ()) final ∧
        ShowsSame program plan 0 origin 1 final ∧
        Settles (readProperty program 1 oneof.names.property) final (.ok (caseAt oneof 2))
          final := by
  obtain ⟨code, plan, generated, lengths⟩ := sample_generated
  let program : Program (List Value) (Value × List Value) := ⟨code, .transparent⟩
  have ofProgram : Generated sampleMessage program.code plan := generated
  have implements := ofProgram.implements
  have wellFormed := implements.wellFormed
  have faithful : program.library.Faithful plan (fun _ _ => True) :=
    Library.transparent_faithful plan _
  obtain ⟨oneof, inside, two⟩ : ∃ oneof ∈ plan.oneofs, oneof.members.length = 2 :=
    List.mem_map.mp (lengths ▸ List.mem_singleton_self 2)
  have creates (self : Address) : ∃ machine,
      Reachable program plan self Operation.SparesCollections machine := by
    obtain ⟨machine, created, -, -⟩ := settles_create implements (isNew_zeroed wellFormed self)
    exact ⟨machine, .created (isNew_zeroed wellFormed self) created⟩
  -- The source selects the second member.
  obtain ⟨start, reached⟩ := creates 0
  have consistent := reached.consistent implements
  obtain ⟨current, selects⟩ := consistent.selects oneof inside
  have bound : 2 ≤ oneof.members.length := Nat.le_of_eq two.symm
  have chosen : Selects 0 (choose 0 start program.library oneof current 2) oneof 2 :=
    (moves_choose wellFormed inside consistent.owns selects bound).selects
  have told : Settles ((Operation.choose oneof 2).run program 0) start (.ok ())
      (choose 0 start program.library oneof current 2) :=
    settles_writeProperty (implements.caseProperty inside) 1 fun depth =>
      invoke_caseSetter implements inside depth consistent.owns selects
  have permitted : (Operation.choose oneof 2).Permitted plan 0 start := ⟨inside, bound⟩
  have spares : (Operation.choose oneof 2).SparesCollections := trivial
  have origin_reached := reached.operated spares permitted told
  obtain ⟨-, -, exchange⟩ := decode_undoes_encode ofProgram faithful
  obtain ⟨wire, encoded, reads⟩ := exchange 0 _ origin_reached 0
  -- The wire arrives where a new instance is.
  obtain ⟨created, target_reached⟩ := creates 1
  have owns := (target_reached.consistent implements).owns
  have arrived : Reachable program plan 1 Operation.SparesCollections
      { created with streams := fun _ => wire } :=
    target_reached.elsewhere
      ⟨rfl, fun _ inside _ object => owns.object_alive inside object, owns.below⟩
  obtain ⟨final, decoded, same⟩ := reads
    ⟨fun _ _ _ _ _ => trivial, fun _ _ _ _ _ => trivial⟩ 1 _ 0 arrived (fun _ _ _ _ _ => trivial) rfl
  obtain ⟨position, -, shows, shows'⟩ := same.choice oneof inside
  have second : caseAt oneof position = caseAt oneof 2 :=
    Except.ok.inj (shows.unique (chosen.showsCase implements inside).property).1
  rw [second] at shows'
  exact ⟨program, plan, oneof, _, _, final, wire, ofProgram, faithful, inside, two, origin_reached,
    encoded, arrived, rfl, decoded, same, shows'⟩

end ProtoPascal.Execution
