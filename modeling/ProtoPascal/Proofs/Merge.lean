import ProtoPascal.Proofs.Assignment
import ProtoPascal.Proofs.Execution.MergedContents

/-!
Merging between instances of a generated class, with the messages in them.

* `Displays`: what the properties of an instance show;
* `Family.Merges`: what merging does to the fields and oneofs of an instance, one kind of field after
  the other;
* `merge_joins`: an instance into which another one is merged has what it had and what the other one
  has, and the other one stays as it was.
-/

namespace ProtoPascal.Execution

open Message

/-- The properties of an instance show what its fields hold, whether they are present, and what its
oneofs select. -/
structure Displays {Content Payload : Type} (program : Program Content Payload) (plan : ClassPlan)
    (self : Address) (machine : Machine Content Payload) : Prop where
  property : ∀ field ∈ plan.fields, Settles (readProperty program self field.names.property) machine
    (.ok (shown field (stored self machine field))) machine
  presence : ∀ field ∈ plan.fields, field.field.repeated = false → ∃ value : Bool,
    (value = true ↔ Present plan self machine field) ∧
      Settles (readProperty program self field.presenceName) machine (.ok (.truth value)) machine
  choice : ∀ oneof ∈ plan.oneofs, ∃ position, Selects self machine oneof position ∧
    Settles (readProperty program self oneof.names.property) machine (.ok (caseAt oneof position))
      machine

theorem Sound.displays {Content Payload : Type} {program : Program Content Payload}
    {plan : ClassPlan} (implements : Implements program.code plan) {self : Address}
    {machine : Machine Content Payload} (sound : Sound plan self machine) :
    Displays program plan self machine where
  property field inside := settles_readProperty (implements.property inside) 1
    (invoke_getter implements inside sound.consistent.owns)
  presence field inside single := by
    obtain ⟨presence, named⟩ := exists_presence implements.wellFormed inside single
    obtain ⟨value, present, read⟩ := invoke_presence implements inside named sound.consistent
    rw [FieldPlan.presenceName, named]
    exact ⟨value, present, settles_readProperty (implements.presenceProperty inside named) 1 read⟩
  choice oneof inside := by
    obtain ⟨position, selects⟩ := sound.consistent.selects oneof inside
    exact ⟨position, selects, (selects.showsCase implements inside).property⟩

variable {Class Element Payload : Type}

namespace Family

/-- The messages that two instances have for a field are merged. -/
def JoinsMessages (family : Family Class Element Payload) (target source : Address)
    (machine final : Machine (Snapshot Class Element) Payload) (field : FieldPlan) : Prop :=
  ∃ before content, seen machine (stored target machine field) = .content (some before) ∧
    seen machine (stored source machine field) = .content (some content) ∧
    seen final (stored target final field) =
      .content (some (before.merged family.plan content))

/-- What merging does to an instance. The elements of the source are appended to those of the
collections. A field outside oneofs takes over what the source has, or it is merged if both have a
message, and stays what it is if the source has nothing. A oneof does so as a whole: if the source
selects a member, that member is selected and treated alike. -/
structure Merges (family : Family Class Element Payload) (type : Class) (target source : Address)
    (machine final : Machine (Snapshot Class Element) Payload) : Prop where
  collection : ∀ field ∈ (family.plan type).fields, field.field.repeated = true →
    ∃ elements others,
      seen machine (stored target machine field) = .content (some (.collection elements)) ∧
      seen machine (stored source machine field) = .content (some (.collection others)) ∧
      seen final (stored target final field) = .content (some (.collection (elements ++ others)))
  lacking : ∀ field ∈ (family.plan type).fields, field.field.repeated = false →
    field.membership = none → ¬ Present (family.plan type) source machine field →
      seen final (stored target final field) = seen machine (stored target machine field)
  taking : ∀ field ∈ (family.plan type).fields, field.field.repeated = false →
    field.membership = none → Present (family.plan type) source machine field →
      (field.field.type.isMessage = true → ¬ Present (family.plan type) target machine field) →
        seen final (stored target final field) = seen machine (stored source machine field)
  joining : ∀ field ∈ (family.plan type).fields, field.field.repeated = false →
    field.membership = none → Present (family.plan type) source machine field →
      field.field.type.isMessage = true → Present (family.plan type) target machine field →
        family.JoinsMessages target source machine final field
  unselecting : ∀ oneof ∈ (family.plan type).oneofs, Selects source machine oneof 0 →
    (∀ position, Selects target machine oneof position → Selects target final oneof position) ∧
      ∀ index member, memberAt oneof index = some member →
        seen final (stored target final member) = seen machine (stored target machine member)
  selecting : ∀ oneof ∈ (family.plan type).oneofs, ∀ position member,
    memberAt oneof position = some member → Selects source machine oneof position →
      Selects target final oneof position ∧
        ((member.field.type.isMessage = true → ¬ Selects target machine oneof position) →
          seen final (stored target final member) = seen machine (stored source machine member)) ∧
        (member.field.type.isMessage = true → Selects target machine oneof position →
          family.JoinsMessages target source machine final member)

section

variable {family : Family Class Element Payload} {type : Class} {target source : Address}
  {machine final : Machine (Snapshot Class Element) Payload} {field : FieldPlan}
  (target_intact : family.Intact type target machine)
  (source_intact : family.Intact type source machine)
  (same : seen final (stored target final field) =
    family.mergedAt type target source machine field)
  (inside : field ∈ (family.plan type).fields)
  (present : Present (family.plan type) source machine field)
include target_intact source_intact same inside present

/-- A field takes over what the source has, unless both have a message. -/
theorem seen_of_taken (single : field.field.repeated = false)
    (alone : field.field.type.isMessage = true →
      ¬ Present (family.plan type) target machine field) :
    seen final (stored target final field) = seen machine (stored source machine field) := by
  have consistent := source_intact.sound.consistent
  refine same.trans (mergedAt_of_alone inside consistent present ?_)
  cases message : field.field.type.isMessage with
  | true =>
    exact .inl ⟨_, by rw [stored_of_gone (family.implements type).wellFormed inside
      target_intact.sound.consistent (alone message), seen_of_ne_object (absent_ne_object field)]⟩
  | false => exact .inr ⟨_, seen_of_ne_object (consistent.owns.plain inside single message)⟩

theorem joinsMessages_of_present (message : field.field.type.isMessage = true)
    (own : Present (family.plan type) target machine field) :
    family.JoinsMessages target source machine final field := by
  have wellFormed := (family.implements type).wellFormed
  obtain ⟨address, before, holds, alive⟩ :=
    own.object wellFormed inside target_intact.sound.consistent message
  obtain ⟨address', content, source_holds, source_alive⟩ :=
    present.object wellFormed inside source_intact.sound.consistent message
  have shows : seen machine (stored target machine field) = .content (some before) := by
    rw [holds, seen, alive]
  have source_shows : seen machine (stored source machine field) = .content (some content) := by
    rw [source_holds, seen, source_alive]
  exact ⟨before, content, shows, source_shows,
    same.trans (mergedAt_of_both shows source_shows)⟩

end

/-- An instance that has the content of one into which another one was merged is merged, field by
field. -/
theorem merges_of_snapshot {family : Family Class Element Payload} {type : Class}
    {target source : Address} {machine final : Machine (Snapshot Class Element) Payload}
    (target_intact : family.Intact type target machine)
    (source_intact : family.Intact type source machine)
    (sound : Sound (family.plan type) target final)
    (same : family.snapshot type target final = Snapshot.merged family.plan
      (family.snapshot type target machine) (family.snapshot type source machine)) :
    family.Merges type target source machine final := by
  have wellFormed := (family.implements type).wellFormed
  have consistent := target_intact.sound.consistent
  have source_consistent := source_intact.sound.consistent
  obtain ⟨fields, cases⟩ := snapshot_eq_merged_iff.mp same
  -- The case that a oneof has at the end tells what it selects.
  have selecting {oneof : OneofPlan} (inside : oneof ∈ (family.plan type).oneofs) {position : Nat}
      (chosen : final.fields target oneof.names.backing = caseAt oneof position) :
      Selects target final oneof position := by
    obtain ⟨current, selects⟩ := sound.consistent.selects oneof inside
    obtain rfl := caseAt_inj.mp (selects.backing.symm.trans chosen)
    exact selects
  refine ⟨?_, ?_, ?_, ?_, ?_, ?_⟩
  · intro field inside repeated
    obtain ⟨before, shows⟩ := target_intact.sound.exists_collection inside repeated
    obtain ⟨content, source_shows⟩ := source_intact.sound.exists_collection inside repeated
    obtain ⟨elements, rfl⟩ := target_intact.collection inside shows repeated
    obtain ⟨others, rfl⟩ := source_intact.collection inside source_shows repeated
    refine ⟨elements, others, shows, source_shows, (fields field inside).trans ?_⟩
    rw [mergedAt_of_both shows source_shows, Snapshot.merged]
  · intro field inside _ outside gone
    exact (fields field inside).trans
      (mergedAt_of_idle inside source_consistent (.ofOutside wellFormed outside gone))
  · intro field inside single _ present alone
    exact seen_of_taken target_intact source_intact (fields field inside) inside present single alone
  · intro field inside _ _ present message own
    exact joinsMessages_of_present target_intact source_intact (fields field inside) inside present
      message own
  · intro oneof inside idle
    refine ⟨fun position selects => selecting inside ?_, fun index member found => ?_⟩
    · rw [cases oneof inside, idle.backing, if_pos rfl, selects.backing]
    · have member_inside := memberAt_mem wellFormed inside found
      exact (fields member member_inside).trans (mergedAt_of_idle member_inside source_consistent
        (.ofMember wellFormed inside found idle))
  · intro oneof inside position member found source_selects
    have member_inside := memberAt_mem wellFormed inside found
    have present := (present_iff_of_member wellFormed inside found source_selects).mpr rfl
    have chosen : position ≠ 0 := by
      rintro rfl
      cases found
    refine ⟨selecting inside ?_, fun alone => ?_, fun message selects => ?_⟩
    · rw [cases oneof inside, source_selects.backing, if_neg (caseAt_inj.not.mpr chosen)]
    · exact seen_of_taken target_intact source_intact (fields member member_inside) member_inside
        present (memberAt_presence wellFormed inside found).1 fun message own =>
          alone message (own.selects wellFormed inside found consistent)
    · exact joinsMessages_of_present target_intact source_intact (fields member member_inside)
        member_inside present message
        ((present_iff_of_member wellFormed inside found selects).mpr rfl)

end Family

/-- **Merging joins two instances.** Another instance that shares no objects with an instance of a
generated class is merged into it. The method succeeds. Collections then hold their elements and
those of the other one, messages that both have are merged in turn, with all that is in them, and
otherwise the fields and oneofs take over what the other one has, and stay what they are if it has
nothing. The other one and its objects stay as they were. This holds in all sound states in which the
messages in the instances, and those in them, are in sound states too. Such are the states that
instances and the messages in them reach from their creation by operations of their clients, of which
none takes a collection away. In sound states the properties show what the fields hold. -/
theorem merge_joins (family : Family Class Element Payload) (joined : family.Joined)
    (type : Class) :
    (family.plan type).fields.map FieldPlan.field = (family.message type).fields ∧
      (family.plan type).oneofs.map (fun oneof => oneof.members.map FieldPlan.field) =
        (List.range (family.message type).oneofs.length).map (family.message type).oneofMembers ∧
      (∀ self machine, Reachable (family.program type) (family.plan type) self
        Operation.SparesCollections machine → Sound (family.plan type) self machine) ∧
      (∀ self machine, Reachable (family.program type) (family.plan type) self
        Operation.SparesCollections machine →
          family.Attained type (family.snapshot type self machine) →
            family.Intact type self machine) ∧
      (∀ self machine, Sound (family.plan type) self machine →
        Displays (family.program type) (family.plan type) self machine) ∧
      ∀ target source machine, target ≠ source → family.Intact type target machine →
        family.Intact type source machine → Separate (family.plan type) target source machine →
        ∃ final,
          Settles (callMethod (family.program type) target "MergeFrom" [.object source]) machine
            (.ok ()) final ∧
          family.Intact type target final ∧
          family.Merges type target source machine final ∧
          family.snapshot type target final = Snapshot.merged family.plan
            (family.snapshot type target machine) (family.snapshot type source machine) ∧
          Unchanged (family.plan type) source machine final ∧
          Separate (family.plan type) target source final := by
  have implements := family.implements type
  have members := (family.generated type).members
  refine ⟨members.1, members.2, fun self machine reachable => reachable.sound implements,
    fun self machine reachable attained => attained.intact reachable,
    fun self machine sound => sound.displays implements, ?_⟩
  intro target source machine different target_intact source_intact separate
  obtain ⟨final, settles, intact, same, unchanged, still_separate⟩ :=
    joined.toLinked.exists_merged (joined.mergeCollection type) different target_intact
      source_intact separate fun field inside single content shows typeName reference =>
        joined.absorbs (source_intact.message inside shows single reference) type
  exact ⟨final, settles, intact,
    Family.merges_of_snapshot target_intact source_intact intact.sound same, same, unchanged,
    still_separate⟩

/-! ### A class with a oneof -/

/-- A library that merges messages as `Snapshot.merged` says merges them as their classes do. -/
theorem Family.Linked.joined {family : Family Class Element Payload} (linked : family.Linked)
    (merging : ∀ type, (family.library type).merge = Snapshot.merged family.plan) :
    family.Joined := by
  have appends (type : Class) (before elements : List Element) :
      (family.library type).merge (.collection before) (.collection elements) =
        .collection (before ++ elements) := by
    rw [merging, Snapshot.merged]
  refine ⟨linked, ?_, appends⟩
  intro user type machine target source final different target_intact source_intact separate settles
  have absorbed : ∀ field ∈ (family.plan type).fields,
      family.Absorbed type source machine field := by
    intro field inside single content shows typeName reference
    refine linked.absorbs appends ?_ (source_intact.message inside shows single reference) type
    intro user type machine target source final _ _ _ _ _ merged
    rw [merging, merged]
  obtain ⟨final', settles', -, merged, -⟩ := linked.exists_merged (appends type) different
    target_intact source_intact separate absorbed
  obtain ⟨-, rfl⟩ := settles.unique settles'
  rw [merging, merged]

/-- Two instances select a message, and the message of the second one selects a message itself. The
second instance is merged into the first one. -/
theorem sample_merge_joins :
    ∃ (family : Family Unit Value Unit) (oneof : OneofPlan) (child : FieldPlan)
      (machine final : Machine (Snapshot Unit Value) Unit),
      family.message () = sampleMessage ∧ family.Joined ∧ oneof ∈ (family.plan ()).oneofs ∧
        memberAt oneof 2 = some child ∧
        family.Intact () 0 machine ∧ family.Intact () 1 machine ∧
        Separate (family.plan ()) 0 1 machine ∧
        Selects 0 machine oneof 2 ∧ Selects 1 machine oneof 2 ∧
        Settles (callMethod (family.program ()) 0 "MergeFrom" [.object 1]) machine (.ok ()) final ∧
        Selects 0 final oneof 2 ∧
        family.JoinsMessages 0 1 machine final child ∧
        family.Merges () 0 1 machine final ∧
        Unchanged (family.plan ()) 1 machine final := by
  obtain ⟨family, oneof, child, message, linked, inside, found, reference, merging⟩ :=
    sample_family_of Snapshot.merged
  have joined := linked.joined merging
  have wellFormed := (family.implements ()).wellFormed
  have child_inside := memberAt_mem wellFormed inside found
  obtain ⟨first, -, first_attained, first_selects, -⟩ :=
    linked.exists_attained inside found reference (linked.attained_blank _)
  obtain ⟨second, -, second_attained, second_selects, -⟩ :=
    linked.exists_attained inside found reference first_attained
  obtain ⟨machine, target, source, separate, target_same, same⟩ :=
    first_attained.proper.exists_beside second_attained.proper
  -- Beside each other they select what they selected before.
  have selects {self : Address} {origin : Machine (Snapshot Unit Value) Unit}
      (intact : family.Intact () self machine)
      (equal : family.snapshot () self machine = family.snapshot () 0 origin)
      (selects : Selects 0 origin oneof 2) : Selects self machine oneof 2 := by
    refine Present.selects wellFormed inside found intact.sound.consistent ?_
    rw [← (Family.copied_of_snapshot_eq equal child_inside).present_iff]
    exact (present_iff_of_member wellFormed inside found selects).mpr rfl
  have target_selects := selects target target_same first_selects
  have source_selects := selects source same second_selects
  obtain ⟨-, -, -, -, -, merge⟩ := merge_joins family joined ()
  obtain ⟨final, settles, -, merges, -, unchanged, -⟩ :=
    merge 0 1 machine Nat.zero_ne_one target source separate
  obtain ⟨final_selects, -, joins⟩ := merges.selecting oneof inside 2 child found source_selects
  exact ⟨family, oneof, child, machine, final, message, joined, inside, found, target, source,
    separate, target_selects, source_selects, settles, final_selects,
    joins (by rw [reference]; rfl) target_selects, merges, unchanged⟩

end ProtoPascal.Execution
