import ProtoPascal.Proofs.Execution.Reachable

/-!
Oneofs of instances of generated classes. Whatever a client does with an instance, a oneof selects
nothing or one of its members, only this member shows as present, and all others hold the default
values of their types.

Main statement: `oneof_members_exclude_each_other`.
-/

namespace ProtoPascal.Execution

open Message
open Schema (MessageType)

variable {Content Payload : Type}

/-- What a oneof of an instance and its members show, if the oneof selects the value at a
position. -/
structure ShowsCase (program : Program Content Payload) (owner : Address)
    (machine : Machine Content Payload) (oneof : OneofPlan) (position : Nat) : Prop where
  bound : position ≤ oneof.members.length
  backing : machine.fields owner oneof.names.backing = caseAt oneof position
  property : Settles (readProperty program owner oneof.names.property) machine
    (.ok (caseAt oneof position)) machine
  noneValue : program.code.enumValue? oneof.names.caseType oneof.names.noneValue =
    some (caseAt oneof 0)
  /-- The value at the position of a member is the one that the class declares for the member. -/
  memberValue : ∀ index field, memberAt oneof index = some field →
    ∃ membership, field.membership = some membership ∧ membership.oneof = oneof.names ∧
      program.code.enumValue? oneof.names.caseType membership.caseValue = some (caseAt oneof index)
  presence : ∀ index field, memberAt oneof index = some field →
    Settles (readProperty program owner field.presenceName) machine
      (.ok (.truth (decide (position = index)))) machine
  unselected : ∀ index field, memberAt oneof index = some field → index ≠ position →
    stored owner machine field = absent field
  selected : ∀ field, memberAt oneof position = some field → field.field.type.isMessage = true →
    stored owner machine field ≠ .nil

/-- A oneof that selects the value at a position shows it. -/
theorem Selects.showsCase {program : Program Content Payload} {plan : ClassPlan}
    (implements : Implements program.code plan) {self : Address}
    {machine : Machine Content Payload} {oneof : OneofPlan} (inside : oneof ∈ plan.oneofs)
    {position : Nat} (selects : Selects self machine oneof position) :
    ShowsCase program self machine oneof position where
  bound := selects.bound
  backing := selects.backing
  property := by
    refine settles_readProperty (implements.caseProperty inside) 1 fun depth => ?_
    rw [invoke_caseGetter implements inside depth, selects.backing]
  noneValue := implements.noneValue inside
  memberValue index field found := by
    cases index with
    | zero => cases found
    | succ index =>
      obtain ⟨-, value, value_found, membership, -⟩ :=
        implements.wellFormed.member oneof inside index field found
      exact ⟨_, membership, rfl, implements.memberValue inside value_found⟩
  presence index field found := by
    have field_inside := memberAt_mem implements.wellFormed inside found
    obtain ⟨-, -, presence, present⟩ := memberAt_presence implements.wellFormed inside found
    rw [FieldPlan.presenceName, present]
    exact settles_readProperty (implements.presenceProperty field_inside present) 1 fun depth =>
      invoke_presenceGetter_member implements inside depth found present selects
  unselected := selects.unselected
  selected := selects.selected

/-- **A oneof selects at most one member, and only this one holds a value.** In every state that an
instance of a generated class reaches from its creation, by any operations of its clients, each
oneof shows the case of nothing or of one member. Creation succeeds, and every operation comes to an
end, with a result or an exception. -/
theorem oneof_members_exclude_each_other {program : Program Content Payload}
    {message : MessageType} {plan : ClassPlan} (generated : Generated message program.code plan)
    (self : Address) (allowed : Operation → Prop) :
    plan.oneofs.map (fun oneof => oneof.members.map FieldPlan.field) =
        (List.range message.oneofs.length).map message.oneofMembers ∧
      (∀ start, IsNew plan self start → ∃ machine,
        Settles (callMethod program self "Create" []) start (.ok ()) machine) ∧
      ∀ machine, Reachable program plan self allowed machine →
        (∀ operation : Operation, operation.Permitted plan self machine → ∃ outcome final,
          IsProper outcome ∧ Settles (operation.run program self) machine outcome final) ∧
        ∀ oneof ∈ plan.oneofs, ∃ position, ShowsCase program self machine oneof position := by
  have implements := generated.implements
  refine ⟨generated.members.2, fun start new => ?_, fun machine reachable => ⟨?_, ?_⟩⟩
  · obtain ⟨machine, settles, -, -⟩ := settles_create implements new
    exact ⟨machine, settles⟩
  · intro operation permitted
    obtain ⟨outcome, final, settles, ends⟩ :=
      Operation.settles implements (reachable.consistent implements) permitted
    exact ⟨outcome, final, ends.proper, settles⟩
  · intro oneof inside
    obtain ⟨position, selects⟩ := (reachable.consistent implements).selects oneof inside
    exact ⟨position, selects.showsCase implements inside⟩

/-! ### A class with a oneof -/

/-- A file with one message, whose oneof has a number and a message as its members. -/
def sampleDescriptor : Schema.FileDescriptor :=
  { name := some "sample.proto"
    messages :=
      [{ name := some "Sample"
         fields :=
           [{ name := some "count", number := some 1, type := some 5, oneofIndex := some 0 },
            { name := some "child", number := some 2, type := some 11, typeName := some ".Sample",
              oneofIndex := some 0 },
            { name := some "names", number := some 3, label := some 3, type := some 9 }]
         oneofs := [{ name := some "choice" }] }] }

/-- The message that the file declares. -/
def sampleMessage : MessageType :=
  { name := "Sample"
    fields :=
      [{ name := "count", number := 1, type := .scalar .int32, oneofIndex := some 0 },
       { name := "child", number := 2, type := .reference .message ".Sample",
         oneofIndex := some 0 },
       { name := "names", number := 3, type := .scalar .string, repeated := true }]
    oneofs := [{ name := "choice" }] }

/-- The types of the file. -/
def sampleContext : Context :=
  { index := { types := [(".Sample", ⟨.message, "uSample", "TSample"⟩)] }
    runtime := .reference
    unit := "uSample" }

/-- The class of the message is generated if its plan can be looked at. -/
theorem sample_generated_of {α : Type} {look : ClassPlan → α} {shown : α}
    (evaluated : (do
      let parts ← classParts sampleContext ⟨"", none⟩ sampleMessage
      checkUniqueFrom (Place.shownName ⟨"", none⟩ sampleMessage) [] parts.members
      return look parts.plan) = .ok shown) :
    ∃ code plan, Generated sampleMessage code plan ∧ look plan = shown := by
  obtain ⟨parts, planned, evaluated⟩ := bind_eq_ok.mp evaluated
  obtain ⟨⟨⟩, unique, looks⟩ := bind_eq_ok.mp evaluated
  have accepted : Schema.File.ofDescriptor sampleDescriptor =
      .ok { name := "sample.proto", messages := [sampleMessage] } := rfl
  exact ⟨_, parts.plan, .ofMessage accepted (List.mem_cons_self ..) .self
    (generateMessage_eq_ok.mpr ⟨parts, planned, (checkUniqueFrom_eq_ok.mp unique).1, rfl⟩) planned,
    pure_eq_ok.mp looks⟩

/-- The class of the message is generated, and its oneof has two members. -/
theorem sample_generated : ∃ code plan, Generated sampleMessage code plan ∧
    plan.oneofs.map (fun oneof => oneof.members.length) = [2] :=
  sample_generated_of (by decide +kernel)

/-- An instance of the class reaches a state in which its oneof was told to select its second
member, and shows one case there. -/
theorem sample_members_exclude_each_other :
    ∃ (program : Program (List Value) (Value × List Value)) (plan : ClassPlan) (oneof : OneofPlan)
      (machine : Machine (List Value) (Value × List Value)) (position : Nat),
      Generated sampleMessage program.code plan ∧ oneof ∈ plan.oneofs ∧
        Reachable program plan 0 (fun _ => True) machine ∧
        ShowsCase program 0 machine oneof position := by
  obtain ⟨code, plan, generated, lengths⟩ := sample_generated
  let program : Program (List Value) (Value × List Value) := ⟨code, .transparent⟩
  have ofProgram : Generated sampleMessage program.code plan := generated
  obtain ⟨-, creates, exclude⟩ :=
    oneof_members_exclude_each_other ofProgram 0 fun _ => True
  obtain ⟨oneof, inside, two⟩ : ∃ oneof ∈ plan.oneofs, oneof.members.length = 2 :=
    List.mem_map.mp (lengths ▸ List.mem_singleton_self 2)
  obtain ⟨machine, created⟩ := creates _ (isNew_zeroed generated.implements.wellFormed 0)
  have reachable : Reachable program plan 0 (fun _ => True) machine :=
    .created (isNew_zeroed generated.implements.wellFormed 0) created
  have permitted : (Operation.choose oneof 2).Permitted plan 0 machine := ⟨inside, Nat.le_of_eq two.symm⟩
  obtain ⟨outcome, final, -, settles⟩ := (exclude machine reachable).1 _ permitted
  have chosen := reachable.operated trivial permitted settles
  obtain ⟨position, shows⟩ := (exclude final chosen).2 oneof inside
  exact ⟨program, plan, oneof, final, position, ofProgram, inside, chosen, shows⟩

end ProtoPascal.Execution
