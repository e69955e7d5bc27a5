import ProtoPascal.Proofs.Execution.Family
import ProtoPascal.Proofs.Execution.SelfAssigning

/-!
Assignment between instances of a generated class, with the messages in them.

* `assign_copies`: an instance that is assigned another one shows the same as that one, and the other
  one stays as it was;
* `assign_itself_shows_same_iff`: an instance that is assigned itself loses the messages that it
  holds, and shows the same as before exactly if these were new ones.
-/

namespace ProtoPascal.Execution

open Message
open Schema (MessageType)

variable {Class Element Payload : Type}

/-! ### Families with messages as values -/

/-- A library whose messages and collections are copied as a whole. -/
def Library.copying (create : String → Snapshot Class Element) :
    Library (Snapshot Class Element) Unit where
  create := create
  clear
    | .collection _ => .collection []
    | message => message
  assign _ other := other
  merge _ other := other
  encodeScalar _ _ := ()
  decodeScalar _ _ := .nil
  encodeMessage _ := ()
  decodeMessage _ content := content
  encodeCollection _ _ := []
  decodeCollection _ _ content := content
  ancestorRecords := []

/-- **A library that copies contents as a whole treats messages as their classes do** if it makes
messages that have the content of new instances. -/
theorem Family.linked_of_copying {family : Family Class Element Payload}
    (copies : ∀ type before content, (family.library type).assign before content = content)
    (clears : ∀ type elements,
      (family.library type).clear (.collection elements) = .collection [])
    (messages : ∀ type, ∀ field ∈ (family.plan type).fields, field.field.repeated = false →
      ∀ typeName, field.field.type = .reference .message typeName →
        (family.library type).create field.support.publicType =
          family.blank (family.classOf typeName))
    (collections : ∀ type, ∀ field ∈ (family.plan type).fields, field.field.repeated = true →
      (family.library type).create field.internalType = .collection []) : family.Linked where
  create type field inside single typeName reference self start final new settles := by
    have implements := family.implements (family.classOf typeName)
    obtain ⟨final', created, vacant⟩ := invoke_create_vacant implements new
    obtain ⟨-, rfl⟩ := settles.unique (settles_callMethod 4 created)
    refine (messages type field inside single typeName reference).trans
      (Family.snapshot_of_vacant vacant fun other other_inside repeated => ?_).symm
    rw [collections _ other other_inside repeated, clears]
  assign user type machine target source final different target_intact source_intact separate
      settles := by
    have same : ∀ field ∈ (family.plan type).fields,
        (family.program type).library.Copies target machine source machine field := fun _ _ =>
      ⟨fun _ _ _ => copies .., fun _ _ _ _ _ => copies ..⟩
    obtain ⟨final', ran, sound, -, copied⟩ := invoke_assign (family.implements type)
      different.symm target_intact.sound source_intact.sound separate same
    obtain ⟨-, rfl⟩ := settles.unique (settles_callMethod 5 ran)
    rw [copies]
    exact Family.snapshot_eq_of_copied source_intact.sound.consistent sound.consistent copied
  createCollection := collections
  clearCollection := clears
  assignCollection type before elements := copies type (.collection before) (.collection elements)

section

variable {family : Family Class Element Payload} (linked : family.Linked) {type : Class}
  {oneof : OneofPlan} (oneof_inside : oneof ∈ (family.plan type).oneofs) {position : Nat}
  {member : FieldPlan} (found : memberAt oneof position = some member)
include linked oneof_inside found

/-- A oneof of a new instance can be told to select a member. All other fields stay empty. -/
theorem Family.Linked.exists_selecting : ∃ machine,
    Reachable (family.program type) (family.plan type) 0 Operation.SparesCollections machine ∧
      Selects 0 machine oneof position ∧
      (∀ field ∈ (family.plan type).fields, field.field.repeated = true →
        seen machine (stored 0 machine field) = .content (some (.collection []))) ∧
      ∀ field ∈ (family.plan type).fields, field.field.repeated = false → field ≠ member →
        stored 0 machine field = absent field := by
  have implements := family.implements type
  have wellFormed := implements.wellFormed
  have new : IsNew (family.plan type) 0
      (zeroed (family.plan type) : Machine (Snapshot Class Element) Payload) :=
    isNew_zeroed wellFormed 0
  obtain ⟨start, created, vacant⟩ := invoke_create_vacant implements new
  have reached : Reachable (family.program type) (family.plan type) 0 Operation.SparesCollections
      start := .created new (settles_callMethod 4 created)
  have consistent := vacant.consistent
  obtain ⟨current, selects⟩ := consistent.selects oneof oneof_inside
  have bound : position ≤ oneof.members.length := memberAt_bound found
  have moves : Moves (family.plan type) 0 oneof position start
      (choose 0 start (family.library type) oneof current position) :=
    moves_choose wellFormed oneof_inside consistent.owns selects bound
  have permitted : (Operation.choose oneof position).Permitted (family.plan type) 0 start :=
    ⟨oneof_inside, bound⟩
  have spares : (Operation.choose oneof position).SparesCollections := trivial
  have told : Settles ((Operation.choose oneof position).run (family.program type) 0) start (.ok ())
      (choose 0 start (family.library type) oneof current position) :=
    settles_writeProperty (implements.caseProperty oneof_inside) 1 fun depth =>
      invoke_caseSetter implements oneof_inside depth consistent.owns selects
  refine ⟨_, reached.operated spares permitted told, moves.selects, ?_, ?_⟩
  · intro field inside repeated
    have outside : ∀ index, memberAt oneof index ≠ some field := fun index found => by
      rw [(memberAt_presence wellFormed oneof_inside found).1] at repeated
      cases repeated
    rw [(moves.keeps field inside outside).seen, vacant.collections field inside repeated]
    exact congrArg (Seen.content ∘ some) (linked.collections type field inside repeated)
  · intro field inside single different
    by_cases outside : ∀ index, memberAt oneof index ≠ some field
    · rw [(moves.keeps field inside outside).same]
      exact stored_of_gone wellFormed inside consistent (vacant.gone field inside single)
    · obtain ⟨index, other_found⟩ := not_forall.mp outside
      rw [not_not] at other_found
      refine moves.selects.unselected index field other_found ?_
      rintro rfl
      exact different (Option.some.inj (other_found.symm.trans found))

/-- An instance reaches a state in which it selects a message, with every content that such a message
reaches. -/
theorem Family.Linked.exists_attained {typeName : String}
    (reference : member.field.type = .reference .message typeName)
    {content : Snapshot Class Element}
    (attained : family.Attained (family.classOf typeName) content) :
    ∃ machine,
      Reachable (family.program type) (family.plan type) 0 Operation.SparesCollections machine ∧
        family.Attained type (family.snapshot type 0 machine) ∧ Selects 0 machine oneof position ∧
        seen machine (stored 0 machine member) = .content (some content) := by
  have implements := family.implements type
  have wellFormed := implements.wellFormed
  obtain ⟨machine, reached, selects, collections, empty⟩ := linked.exists_selecting oneof_inside found
  have consistent := reached.consistent implements
  have owns := consistent.owns
  have member_inside := memberAt_mem wellFormed oneof_inside found
  obtain ⟨address, -, holds, -⟩ := Present.object wellFormed member_inside consistent
    (by rw [reference]; rfl)
    ((present_iff_of_member wellFormed oneof_inside found selects).mpr rfl)
  -- The rest of the program gives the message its content.
  have changed := reached.elsewhere
    (elsewhere_setObject owns (owns.object_alive member_inside holds) content)
  have shows : seen (machine.setObject address (some content))
      (stored 0 (machine.setObject address (some content)) member) = .content (some content) := by
    show seen _ (stored 0 machine member) = _
    rw [holds, seen, Machine.objects_setObject_same]
  refine ⟨_, changed, .message changed (fun field inside repeated other other_shows => ?_)
    (fun field inside single other other_shows => ?_),
    ⟨selects.bound, selects.backing, selects.selected, selects.unselected⟩, shows⟩
  · have different : field ≠ member := by
      rintro rfl
      rw [(memberAt_presence wellFormed oneof_inside found).1] at repeated
      cases repeated
    have keeps : Keeps 0 machine (machine.setObject address (some content)) field := by
      refine ⟨rfl, fun other object => Machine.objects_setObject_other _ _ _ ?_⟩
      rintro rfl
      exact different (owns.apart field inside member member_inside other object holds)
    rw [keeps.seen, collections field inside repeated] at other_shows
    cases other_shows
    exact ⟨[], rfl⟩
  · intro otherName other_reference
    by_cases same : field = member
    · subst same
      rw [shows] at other_shows
      cases other_shows
      rw [reference] at other_reference
      cases other_reference
      exact attained
    · have plain : stored 0 (machine.setObject address (some content)) field = absent field :=
        empty field inside single same
      rw [plain, seen_of_ne_object (absent_ne_object field)] at other_shows
      cases other_shows

end

/-- An instance that selects a member has another content than a new one. -/
theorem Family.snapshot_ne_blank {family : Family Class Element Payload} {type : Class}
    {self : Address} {machine : Machine (Snapshot Class Element) Payload} {oneof : OneofPlan}
    (inside : oneof ∈ (family.plan type).oneofs) {position : Nat}
    (selects : Selects self machine oneof position) (chosen : position ≠ 0) :
    family.snapshot type self machine ≠ family.blank type := by
  intro same
  rw [Family.snapshot, Family.blank, Snapshot.message.injEq] at same
  have first := List.map_inj_left.mp same.2.2 oneof inside
  rw [selects.backing, caseAt_inj] at first
  exact chosen first

/-- The class of the sample message is generated with these types of its fields. -/
theorem sample_types : ∃ code plan, Generated sampleMessage code plan ∧
    plan.fields.map (fun field => (field.support.publicType, field.internalType)) =
      [("Int32", "Int32"), ("TSample", "TSample"),
        ("UnicodeString", "TProtobufRepeatedField<UnicodeString>")] :=
  sample_generated_of (by decide +kernel)

/-- The class of the sample message makes a family of its own: its only messages are of that class.
The second member of its oneof is such a message. However the library merges messages, it can treat
them otherwise as their class does. -/
theorem sample_family_of
    (merge : (Unit → ClassPlan) → Snapshot Unit Value → Snapshot Unit Value → Snapshot Unit Value) :
    ∃ (family : Family Unit Value Unit) (oneof : OneofPlan) (child : FieldPlan),
      family.message () = sampleMessage ∧ family.Linked ∧ oneof ∈ (family.plan ()).oneofs ∧
        memberAt oneof 2 = some child ∧ child.field.type = .reference .message ".Sample" ∧
        ∀ type, (family.library type).merge = merge family.plan := by
  obtain ⟨code, plan, generated, types⟩ := sample_types
  let plain : Family Unit Value Unit :=
    ⟨fun _ => sampleMessage, fun _ => code, fun _ => plan, fun _ => generated, fun _ => (),
      fun _ => .copying fun _ => .collection []⟩
  let create (name : String) : Snapshot Unit Value :=
    if name = "TSample" then plain.blank () else .collection []
  let family : Family Unit Value Unit :=
    { plain with library := fun _ => { Library.copying create with merge := merge fun _ => plan } }
  obtain ⟨inside, oneofs⟩ := generated.members
  obtain ⟨count, rest, whole, count_field, inside⟩ := List.map_eq_cons_iff.mp inside
  obtain ⟨child, rest, rfl, child_field, inside⟩ := List.map_eq_cons_iff.mp inside
  obtain ⟨names, rest, rfl, names_field, inside⟩ := List.map_eq_cons_iff.mp inside
  obtain rfl := List.map_eq_nil_iff.mp inside
  simp only [whole, List.map_cons, List.map_nil, List.cons.injEq, Prod.mk.injEq] at types
  have each : ∀ field ∈ plan.fields, field = count ∨ field = child ∨ field = names := by
    simp [whole]
  have linked : family.Linked := by
    refine Family.linked_of_copying (fun _ _ _ => rfl) (fun _ _ => rfl) ?_ ?_
    · intro _ field field_inside single typeName reference
      rcases each field field_inside with rfl | rfl | rfl
      · rw [count_field] at reference
        cases reference
      · exact if_pos types.2.1.1
      · rw [names_field] at single
        cases single
    · intro _ field field_inside repeated
      rcases each field field_inside with rfl | rfl | rfl
      · rw [count_field] at repeated
        cases repeated
      · rw [child_field] at repeated
        cases repeated
      · exact if_neg (types.2.2.1.2 ▸ by decide)
  obtain ⟨oneof, _, oneofs_whole, members, -⟩ := List.map_eq_cons_iff.mp oneofs
  obtain ⟨first, _, members_whole, -, members⟩ := List.map_eq_cons_iff.mp members
  obtain ⟨second, _, rfl, second_field, -⟩ := List.map_eq_cons_iff.mp members
  refine ⟨family, oneof, second, rfl, linked, ?_, ?_, ?_, fun _ => rfl⟩
  · rw [show (family.plan ()).oneofs = _ from oneofs_whole]
    exact List.mem_cons_self ..
  · rw [memberAt, members_whole]
    rfl
  · rw [second_field]

theorem sample_family : ∃ (family : Family Unit Value Unit) (oneof : OneofPlan) (child : FieldPlan),
    family.message () = sampleMessage ∧ family.Linked ∧ oneof ∈ (family.plan ()).oneofs ∧
      memberAt oneof 2 = some child ∧ child.field.type = .reference .message ".Sample" := by
  obtain ⟨family, oneof, child, message, linked, inside, found, reference, -⟩ :=
    sample_family_of fun _ _ other => other
  exact ⟨family, oneof, child, message, linked, inside, found, reference⟩

/-! ### Another instance -/

/-- **Assignment copies.** An instance of a generated class is assigned another one that shares no
objects with it. The method succeeds, and then the instance has the content of the other one and
shows the same, whatever it held before. The other one and its objects stay as they were. This holds
in all sound states in which the messages in the instances, and those in them, are in sound states too.
Such are the states that instances and the messages in them reach from their creation by operations of
their clients, of which none takes a collection away. -/
theorem assign_copies (family : Family Class Element Payload) (linked : family.Linked)
    (type : Class) :
    (family.plan type).fields.map FieldPlan.field = (family.message type).fields ∧
      (family.plan type).oneofs.map (fun oneof => oneof.members.map FieldPlan.field) =
        (List.range (family.message type).oneofs.length).map (family.message type).oneofMembers ∧
      (∀ self machine, Reachable (family.program type) (family.plan type) self
        Operation.SparesCollections machine → Sound (family.plan type) self machine) ∧
      (∀ self machine, Reachable (family.program type) (family.plan type) self
        Operation.SparesCollections machine →
          family.Attained type (family.snapshot type self machine) →
            family.Intact type self machine) ∧
      ∀ target source machine, target ≠ source → family.Intact type target machine →
        family.Intact type source machine → Separate (family.plan type) target source machine →
        ∃ final,
          Settles (callMethod (family.program type) target "Assign" [.object source]) machine
            (.ok ()) final ∧
          family.Intact type target final ∧
          family.snapshot type target final = family.snapshot type source machine ∧
          ShowsSame (family.program type) (family.plan type) source machine target final ∧
          Unchanged (family.plan type) source machine final := by
  have implements := family.implements type
  have members := (family.generated type).members
  refine ⟨members.1, members.2, fun self machine reachable => reachable.sound implements,
    fun self machine reachable attained => attained.intact reachable, ?_⟩
  intro target source machine different target_intact source_intact separate
  have copies : ∀ field ∈ (family.plan type).fields,
      (family.program type).library.Copies target machine source machine field := by
    refine fun field inside => linked.copies target_intact source_intact inside ?_
    intro single content shows typeName reference before before_proper
    exact linked.assign_eq (source_intact.message inside shows single reference) type before_proper
  obtain ⟨final, ran, sound, unchanged, copied⟩ := invoke_assign implements
    different.symm target_intact.sound source_intact.sound separate copies
  have same :=
    Family.snapshot_eq_of_copied source_intact.sound.consistent sound.consistent copied
  exact ⟨final, .of_forall 5 fun depth => Run.on_bind_ok (ran depth),
    ⟨sound, same ▸ source_intact.proper⟩, same.symm,
    showsSame_of_copied implements source_intact.sound.consistent sound.consistent copied, unchanged⟩

/-- An instance whose oneof selects a message is assigned another one. The other one selects a message
that selects a message itself. -/
theorem sample_assign_copies :
    ∃ (family : Family Unit Value Unit) (oneof : OneofPlan)
      (machine final : Machine (Snapshot Unit Value) Unit),
      family.message () = sampleMessage ∧ family.Linked ∧ oneof ∈ (family.plan ()).oneofs ∧
        family.Intact () 0 machine ∧ family.Intact () 1 machine ∧
        Separate (family.plan ()) 0 1 machine ∧
        family.snapshot () 0 machine ≠ family.snapshot () 1 machine ∧
        Settles (callMethod (family.program ()) 0 "Assign" [.object 1]) machine (.ok ()) final ∧
        family.snapshot () 0 final = family.snapshot () 1 machine ∧
        ShowsSame (family.program ()) (family.plan ()) 1 machine 0 final ∧
        Unchanged (family.plan ()) 1 machine final := by
  obtain ⟨family, oneof, child, message, linked, inside, found, reference⟩ := sample_family
  obtain ⟨first, -, first_attained, first_selects, first_shows⟩ :=
    linked.exists_attained inside found reference (linked.attained_blank _)
  obtain ⟨second, -, second_attained, -, second_shows⟩ :=
    linked.exists_attained inside found reference first_attained
  obtain ⟨machine, target, source, separate, target_same, same⟩ :=
    first_attained.proper.exists_beside second_attained.proper
  obtain ⟨-, -, -, -, copies⟩ := assign_copies family linked ()
  obtain ⟨final, settles, -, copied, shows, unchanged⟩ :=
    copies 0 1 machine Nat.zero_ne_one target source separate
  refine ⟨family, oneof, machine, final, message, linked, inside, target, source, separate, ?_,
    settles, copied, shows, unchanged⟩
  -- The messages that they select differ: only the second one selects a message itself.
  rw [target_same, same]
  intro equal
  have child_same := (Family.copied_of_snapshot_eq equal
    (memberAt_mem (family.implements ()).wellFormed inside found)).same
  rw [first_shows, second_shows, Seen.content.injEq, Option.some.injEq] at child_same
  exact Family.snapshot_ne_blank inside first_selects (Nat.succ_ne_zero 1) child_same.symm

/-! ### The same instance -/

section

variable {family : Family Class Element Payload} {type : Class} {self : Address}
  {machine final : Machine (Snapshot Class Element) Payload} {field : FieldPlan}

/-- What is seen of a field after its message was replaced by a new one. -/
def Family.refreshed (family : Family Class Element Payload) (field : FieldPlan) :
    Seen (Snapshot Class Element) → Seen (Snapshot Class Element)
  | .content content =>
    match field.field.repeated, field.field.type with
    | false, .reference .message typeName => .content (some (family.blank (family.classOf typeName)))
    | _, _ => .content content
  | shown => shown

/-- A message that the library makes is still a new one after it is assigned itself. -/
theorem Family.Linked.newContent_eq (linked : family.Linked)
    (inside : field ∈ (family.plan type).fields) (single : field.field.repeated = false)
    {typeName : String} (reference : field.field.type = .reference .message typeName) :
    newContent (family.library type) field = family.blank (family.classOf typeName) := by
  have blank := linked.proper_blank (family.classOf typeName)
  rw [newContent, linked.create_eq inside single reference, linked.assign_eq blank type blank]

/-- What is seen of a field on the machine on which the messages of an instance are new ones. -/
theorem Family.Linked.seen_renewed (linked : family.Linked)
    (owns : Owns (family.plan type) self machine) (inside : field ∈ (family.plan type).fields) :
    seen (renewed (family.library type) (family.plan type) self machine)
        (stored self (renewed (family.library type) (family.plan type) self machine) field) =
      family.refreshed field (seen machine (stored self machine field)) := by
  cases shows : seen machine (stored self machine field) with
  | value value =>
    rw [seen_renewed_other owns inside (.inr (by simp [shows])), shows]
    rfl
  | content content =>
    cases repeated : field.field.repeated with
    | true =>
      rw [seen_renewed_other owns inside (.inl repeated), shows]
      simp only [Family.refreshed, repeated]
    | false =>
      obtain ⟨typeName, reference⟩ := Family.exists_reference owns inside repeated shows
      rw [seen_renewed_message owns inside repeated shows,
        linked.newContent_eq inside repeated reference]
      simp only [Family.refreshed, repeated, reference]

/-- An instance that held no other messages than new ones has what it had. -/
theorem Family.refreshed_eq_self (owns : Owns (family.plan type) self machine)
    (inside : field ∈ (family.plan type).fields)
    (new : field.field.repeated = false → ∀ typeName,
      field.field.type = .reference .message typeName → ∀ content,
        seen machine (stored self machine field) = .content (some content) →
          content = family.blank (family.classOf typeName)) :
    family.refreshed field (seen machine (stored self machine field)) =
      seen machine (stored self machine field) := by
  cases holds : stored self machine field with
  | object address =>
    obtain ⟨content, alive⟩ := Option.isSome_iff_exists.mp (owns.object_alive inside holds)
    rw [holds, seen, alive] at new
    rw [seen, alive, Family.refreshed]
    split
    · next typeName single reference => rw [new single typeName reference content rfl]
    · rfl
  | _ => rfl

end

/-- **Assignment to itself loses messages.** An instance of a generated class is assigned itself. The
method succeeds, and the presence of the fields and the cases of the oneofs are as before. So is what
the fields hold, but a field with a message then holds a new one. Thus the instance shows the same as
before exactly if all messages in it were as new ones. -/
theorem assign_itself_shows_same_iff (family : Family Class Element Payload)
    (linked : family.Linked) (type : Class) (self : Address)
    (machine : Machine (Snapshot Class Element) Payload) (intact : family.Intact type self machine) :
    ∃ final,
      Settles (callMethod (family.program type) self "Assign" [.object self]) machine (.ok ())
        final ∧
      (∀ field ∈ (family.plan type).fields, field.field.repeated = false → ∃ value : Bool,
        Settles (readProperty (family.program type) self field.presenceName) machine
            (.ok (.truth value)) machine ∧
          Settles (readProperty (family.program type) self field.presenceName) final
            (.ok (.truth value)) final) ∧
      (∀ oneof ∈ (family.plan type).oneofs, ∃ position ≤ oneof.members.length,
        Settles (readProperty (family.program type) self oneof.names.property) machine
            (.ok (caseAt oneof position)) machine ∧
          Settles (readProperty (family.program type) self oneof.names.property) final
            (.ok (caseAt oneof position)) final) ∧
      (∀ field ∈ (family.plan type).fields, seen final (stored self final field) =
        family.refreshed field (seen machine (stored self machine field))) ∧
      (ShowsSame (family.program type) (family.plan type) self machine self final ↔
        ∀ field ∈ (family.plan type).fields, field.field.repeated = false → ∀ typeName,
          field.field.type = .reference .message typeName → ∀ content,
            seen machine (stored self machine field) = .content (some content) →
              content = family.blank (family.classOf typeName)) := by
  have implements := family.implements type
  have consistent := intact.sound.consistent
  have renewed_consistent : Consistent (family.plan type) self
      (renewed (family.library type) (family.plan type) self machine) := consistent.renewed
  have collections : ∀ field ∈ (family.plan type).fields, field.field.repeated = true → ∀ content,
      seen machine (stored self machine field) = .content (some content) →
        (family.program type).library.assign content content = content := by
    intro field inside repeated content shows
    obtain ⟨elements, rfl⟩ := intact.collection inside shows repeated
    exact linked.assignCollection type elements elements
  obtain ⟨final, ran, final_consistent, -, copied⟩ :=
    invoke_assign_itself implements consistent collections intact.sound.filled
  have settles : Settles (callMethod (family.program type) self "Assign" [.object self]) machine
      (.ok ()) final := .of_forall 5 fun depth => Run.on_bind_ok (ran depth)
  have shows : ∀ field ∈ (family.plan type).fields, seen final (stored self final field) =
      family.refreshed field (seen machine (stored self machine field)) := fun field inside =>
    (copied field inside).same.symm.trans (linked.seen_renewed consistent.owns inside)
  refine ⟨final, settles, ?_, ?_, shows, ?_⟩
  · exact fun field inside single => shows_presence implements inside single consistent
      final_consistent (copied field inside).present_iff
  · intro oneof inside
    obtain ⟨current, selects⟩ := consistent.selects oneof inside
    obtain ⟨position, renewed_selects⟩ := renewed_consistent.selects oneof inside
    obtain ⟨position', final_selects⟩ := final_consistent.selects oneof inside
    obtain rfl :=
      position_eq_of_copied implements.wellFormed copied inside renewed_selects final_selects
    obtain rfl : current = position :=
      caseAt_inj.mp (selects.backing.symm.trans renewed_selects.backing)
    exact ⟨current, selects.bound, (selects.showsCase implements inside).property,
      (final_selects.showsCase implements inside).property⟩
  · constructor
    · intro same field inside single typeName reference content held
      have after := shows field inside
      rw [held] at after
      simp only [Family.refreshed, single, reference] at after
      exact Option.some.inj
        (same.content_eq implements consistent.owns final_consistent.owns inside held after)
    · intro new
      refine showsSame_of_copied implements consistent final_consistent fun field inside => ⟨?_, ?_⟩
      · rw [shows field inside,
          Family.refreshed_eq_self consistent.owns inside (new field inside)]
      · exact (copied field inside).chosen

/-- An instance selects a message that selects a message itself. It is assigned itself, and then the
message that it selects is a new one. -/
theorem sample_assign_itself :
    ∃ (family : Family Unit Value Unit) (oneof : OneofPlan) (child : FieldPlan)
      (machine final : Machine (Snapshot Unit Value) Unit) (content : Snapshot Unit Value),
      family.message () = sampleMessage ∧ family.Linked ∧ oneof ∈ (family.plan ()).oneofs ∧
        memberAt oneof 2 = some child ∧
        Reachable (family.program ()) (family.plan ()) 0 Operation.SparesCollections machine ∧
        family.Intact () 0 machine ∧
        seen machine (stored 0 machine child) = .content (some content) ∧
        Settles (callMethod (family.program ()) 0 "Assign" [.object 0]) machine (.ok ()) final ∧
        seen final (stored 0 final child) = .content (some (family.blank ())) ∧
        content ≠ family.blank () ∧
        ¬ ShowsSame (family.program ()) (family.plan ()) 0 machine 0 final := by
  obtain ⟨family, oneof, child, message, linked, inside, found, reference⟩ := sample_family
  obtain ⟨first, -, first_attained, first_selects, -⟩ :=
    linked.exists_attained inside found reference (linked.attained_blank _)
  obtain ⟨machine, reachable, attained, -, holds⟩ :=
    linked.exists_attained inside found reference first_attained
  have intact := attained.intact reachable
  have wellFormed := (family.implements ()).wellFormed
  have child_inside := memberAt_mem wellFormed inside found
  have single := (memberAt_presence wellFormed inside found).1
  have used : family.snapshot () 0 first ≠ family.blank () :=
    Family.snapshot_ne_blank inside first_selects (Nat.succ_ne_zero 1)
  obtain ⟨final, settles, -, -, shows, same_iff⟩ :=
    assign_itself_shows_same_iff family linked () 0 machine intact
  refine ⟨family, oneof, child, machine, final, _, message, linked, inside, found, reachable, intact,
    holds, settles, ?_, used, fun same => ?_⟩
  · rw [shows child child_inside, holds]
    simp only [Family.refreshed, single, reference]
  · exact used (same_iff.mp same child child_inside single ".Sample" reference _ holds)

end ProtoPascal.Execution
