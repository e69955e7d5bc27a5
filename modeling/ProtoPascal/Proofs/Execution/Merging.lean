import ProtoPascal.Proofs.Execution.Assigning

/-!
How another instance is merged into an instance. The fields are treated one after the other. A field
that the source has is merged: objects that both have are merged by the library, and otherwise the
field takes over what the source has. A field that the source lacks stays what it is, unless the
source selects another member of its oneof.

* `Library.merged`: what is seen of a field into which that of a source is merged;
* `Gains`: a field is merged with that of a source;
* `invoke_merge`: after merging, the fields that the source has are merged with those of the source,
  and the fields that have nothing to do with them stay what they are.
-/

namespace ProtoPascal.Execution

open Message
open Pascal

variable {Content Payload : Type} {program : Program Content Payload} {plan : ClassPlan}
  {source self : Address} {origin machine middle final : Machine Content Payload}
  {field other : FieldPlan}

/-! ### What is merged -/

/-- What is seen of a field into which that of a source is merged, if the source has it. -/
def Library.merged (library : Library Content Payload) (field : FieldPlan) :
    Seen Content → Seen Content → Seen Content
  | .content (some before), .content (some content) =>
    .content (some (library.merge before content))
  | _, .content (some content) =>
    .content (some (library.assign (library.create field.support.publicType) content))
  | _, other => other

theorem Library.merged_value {library : Library Content Payload} (before : Seen Content)
    (value : Value) : library.merged field before (.value value) = .value value := by
  unfold Library.merged
  split <;> simp_all

/-- A field is merged with that of a source, and if it is a member of a oneof, it is selected. -/
structure Gains (library : Library Content Payload) (plan : ClassPlan) (source : Address)
    (origin : Machine Content Payload) (owner : Address) (machine final : Machine Content Payload)
    (field : FieldPlan) : Prop where
  same : seen final (stored owner final field) = library.merged field
    (seen machine (stored owner machine field)) (seen origin (stored source origin field))
  chosen : ∀ oneof ∈ plan.oneofs, ∀ position, memberAt oneof position = some field →
    final.fields owner oneof.names.backing = caseAt oneof position

/-- A field is another one, and no oneof has both for members. -/
structure Unrelated (plan : ClassPlan) (field other : FieldPlan) : Prop where
  different : other ≠ field
  oneofs : ∀ oneof ∈ plan.oneofs, ∀ position, memberAt oneof position = some field →
    ∀ index, memberAt oneof index ≠ some other

/-- Different fields that an instance has are not members of one oneof. -/
theorem Present.unrelated (wellFormed : plan.WellFormed) (consistent : Consistent plan source origin)
    (present : Present plan source origin field) (other_present : Present plan source origin other)
    (different : other ≠ field) : Unrelated plan field other := by
  refine ⟨different, fun oneof inside position found index other_found => different ?_⟩
  have selects := present.selects wellFormed inside found consistent
  have other_selects := other_present.selects wellFormed inside other_found consistent
  obtain rfl : position = index :=
    caseAt_inj.mp (selects.backing.symm.trans other_selects.backing)
  exact Option.some.inj (other_found.symm.trans found)

/-- A field that is given a value leaves alone those that have nothing to do with it. -/
theorem Receives.keeps_unrelated (receives : Receives plan self field machine final)
    (inside : other ∈ plan.fields) (unrelated : Unrelated plan field other) :
    Copied plan self machine self final other := by
  cases receives with
  | outside _ touches => exact Copied.refl.touch touches inside unrelated.different
  | member oneof_inside found moves =>
    exact Copied.refl.move moves inside (unrelated.oneofs _ oneof_inside _ found)

theorem Receives.chosen (wellFormed : plan.WellFormed)
    (receives : Receives plan self field machine final) :
    ∀ oneof ∈ plan.oneofs, ∀ position, memberAt oneof position = some field →
      final.fields self oneof.names.backing = caseAt oneof position := by
  intro oneof inside position found
  cases receives with
  | outside outside _ =>
    exact absurd rfl (memberAt_ne_of_outside wellFormed outside inside found)
  | member other_inside other_found moves =>
    obtain ⟨rfl, rfl⟩ := memberAt_unique wellFormed inside other_inside found other_found
    exact moves.selects.backing

/-- A field that is merged stays so while others change that have nothing to do with it. -/
theorem Gains.keep {library : Library Content Payload}
    (gains : Gains library plan source origin self machine middle field)
    (copied : Copied plan self middle self final field) :
    Gains library plan source origin self machine final field :=
  ⟨copied.same.symm.trans gains.same, fun oneof inside position found =>
    (copied.chosen oneof inside position found).mpr (gains.chosen oneof inside position found)⟩

/-- It does not matter for a field what happens before to others that have nothing to do with it. -/
theorem Gains.after {library : Library Content Payload}
    (gains : Gains library plan source origin self middle final field)
    (copied : Copied plan self machine self middle field) :
    Gains library plan source origin self machine final field :=
  ⟨copied.same.symm ▸ gains.same, gains.chosen⟩

/-- A change of a field that is present and stays there is one that gives it a value. -/
theorem Present.receives (wellFormed : plan.WellFormed) (inside : field ∈ plan.fields)
    (consistent : Consistent plan self machine) (present : Present plan self machine field)
    (touches : Touches plan self field machine final)
    (there : field.field.type.isMessage = true → stored self final field ≠ .nil) :
    Receives plan self field machine final := by
  rcases outside_or_member wellFormed inside with outside | ⟨oneof, oneof_inside, position, found⟩
  · exact .outside outside touches
  · have selects := present.selects wellFormed oneof_inside found consistent
    exact .member oneof_inside found
      ((Moves.refl consistent.owns selects).touch wellFormed oneof_inside found touches there)

/-! ### The parts of the fields -/

section

variable (implements : Implements program.code plan) (inside : field ∈ plan.fields)
include implements inside

/-- A field is merged if the source has it. A message of the instance is merged if it is there, and
else copied. -/
theorem completes_mergeBody (single : field.field.repeated = false)
    (source_consistent : Consistent plan source machine)
    (present : Present plan source machine field → Completes program 3
      (if field.field.type.isMessage then
        [.ifElse field.has [invoke field.backing "MergeFrom" [field.sourceBacking]]
          field.deepCopyBody]
      else field.valueCopyBody) (argumentFrame self "aSource" (.object source)) machine final)
    (gone : ¬ Present plan source machine field → final = machine) :
    Completes program 3 field.mergeBody (argumentFrame self "aSource" (.object source)) machine
      final := by
  have branch {body : Body} (ran : Present plan source machine field → Completes program 3 body
      (argumentFrame self "aSource" (.object source)) machine final) :
      Completes program 3 [ifThen field.sourceHas body]
        (argumentFrame self "aSource" (.object source)) machine final := by
    refine completes_ifElse (eval_sourceHas implements inside single source_consistent) ran
      fun absent => ?_
    rw [gone absent]
    exact completes_nil
  rw [FieldPlan.mergeBody, if_neg (by simp [single]),
    isMessage_eq (implements.wellFormed.supported field inside)]
  cases message : field.field.type.isMessage with
  | true =>
    rw [message] at present
    exact branch present
  | false =>
    rw [message] at present
    exact branch present

theorem execAll_mergeObject {address address' : Address} {content content' : Content}
    (consistent : Consistent plan self machine) (present : Present plan self machine field)
    (holds : stored self machine field = .object address)
    (alive : machine.objects address = some content)
    (source_holds : stored source machine field = .object address')
    (source_alive : machine.objects address' = some content') :
    ∃ final, Completes program 3 [invoke field.backing "MergeFrom" [field.sourceBacking]]
        (argumentFrame self "aSource" (.object source)) machine final ∧
        Receives plan self field machine final ∧ stored self final field ≠ .nil ∧
        seen final (stored self final field) =
          .content (some (program.library.merge content content')) ∧
        Manages plan self .nil machine final := by
  have wellFormed := implements.wellFormed
  have touches := touches_setObject inside consistent.owns holds
    (program.library.merge content content')
  have there : stored self (machine.setObject address
      (some (program.library.merge content content'))) field ≠ .nil :=
    holds.trans_ne Value.noConfusion
  refine ⟨_, fun depth => ?_, present.receives wellFormed inside consistent touches fun _ => there,
    there, seen_setObject holds _, manages_setObject inside holds _⟩
  rw [execAll_singleton]
  refine exec_useSource implements inside holds alive source_holds ?_
  show (Run.look (·.objects address') >>= _).on machine = _
  rw [Run.on_bind, Run.on_look, source_alive]
  rfl

end

/-! ### Merging with another instance -/

section

variable (implements : Implements program.code plan) (different : source ≠ self)
  (origin_sound : Sound plan source origin)
include implements different origin_sound

omit origin_sound in
/-- A field that another instance has, and that is no collection, is merged. -/
theorem completes_mergePresent (inside : field ∈ plan.fields) (single : field.field.repeated = false)
    (consistent : Consistent plan self machine) (source_consistent : Consistent plan source machine)
    (separate : Separate plan self source machine) (here : Present plan source machine field) :
    ∃ final, Completes program 3 field.mergeBody (argumentFrame self "aSource" (.object source))
        machine final ∧ Receives plan self field machine final ∧
        seen final (stored self final field) = program.library.merged field
          (seen machine (stored self machine field)) (seen machine (stored source machine field)) ∧
        Manages plan self .nil machine final := by
  have wellFormed := implements.wellFormed
  suffices ∃ final, Completes program 3
      (if field.field.type.isMessage then
        [.ifElse field.has [invoke field.backing "MergeFrom" [field.sourceBacking]]
          field.deepCopyBody]
      else field.valueCopyBody) (argumentFrame self "aSource" (.object source)) machine final ∧
      Receives plan self field machine final ∧ _ ∧ Manages plan self .nil machine final by
    obtain ⟨final, ran, rest⟩ := this
    exact ⟨final, completes_mergeBody implements inside single source_consistent (fun _ => ran)
      (absurd here), rest⟩
  cases message : field.field.type.isMessage with
  | true =>
    obtain ⟨address', content', source_holds, source_alive⟩ :=
      here.object wellFormed inside source_consistent message
    have start : Consistent plan (argumentFrame self "aSource" (.object source)).self machine :=
      consistent
    have decided := eval_has_iff implements inside single start
    by_cases own : Present plan self machine field
    · obtain ⟨address, content, holds, alive⟩ := own.object wellFormed inside consistent message
      obtain ⟨final, ran, receives, there, after, manages⟩ := execAll_mergeObject implements inside
        consistent own holds alive source_holds source_alive
      refine ⟨final, completes_ifElse decided (fun _ => ran) (absurd own), receives, ?_, manages⟩
      rw [after, holds, source_holds, seen, alive, seen, source_alive, Library.merged]
    · -- The new message of the instance leaves that of the source as it is.
      obtain ⟨final, ran, receives, after, manages⟩ :=
        execAll_deepCopy implements inside source message consistent fun middle _ _ manages =>
          have kept := (manages.unchanged different source_consistent.owns separate).1
          ⟨address', (kept.keeps inside).same.trans source_holds,
            (kept.objects field inside address' source_holds).trans source_alive⟩
      refine ⟨final, completes_ifElse decided (absurd · own) fun _ => ran, receives, ?_, manages⟩
      rw [after, stored_of_gone wellFormed inside consistent own,
        seen_of_ne_object (absent_ne_object field), source_holds, seen, source_alive]
      rfl
  | false =>
    obtain ⟨final, ran, receives, stores, manages⟩ :=
      execAll_valueCopy implements inside message single consistent source_consistent.owns
    have plain := source_consistent.owns.plain inside single message
    refine ⟨final, ran, receives, ?_, manages⟩
    rw [stores, seen_of_ne_object plain, seen_of_ne_object plain, Library.merged_value]

/-- **A field is merged with that of another instance if that one has it**, and else nothing
changes. -/
theorem execAll_mergeBody (inside : field ∈ plan.fields)
    (unchanged : Unchanged plan source origin machine)
    (separate : Separate plan self source machine) (sound : Sound plan self machine) :
    ∃ final, Completes program 3 field.mergeBody (argumentFrame self "aSource" (.object source))
        machine final ∧ Handles plan self .nil machine final ∧
        (Present plan source origin field → Receives plan self field machine final ∧
          Gains program.library plan source origin self machine final field) ∧
        (¬ Present plan source origin field → final = machine) := by
  have wellFormed := implements.wellFormed
  have consistent := sound.consistent
  have source_sound := unchanged.sound origin_sound consistent.owns.below
  have source_consistent := source_sound.consistent
  have same : seen machine (stored source machine field) = seen origin (stored source origin field) :=
    (unchanged.keeps inside).seen
  cases repeated : field.field.repeated with
  | true =>
    obtain ⟨address, content, holds, alive⟩ := sound.collection inside repeated
    obtain ⟨address', content', source_holds, source_alive⟩ :=
      source_sound.collection inside repeated
    have shows : seen machine (stored self machine field) = .content (some content) := by
      rw [holds, seen, alive]
    have source_shows : seen origin (stored source origin field) = .content (some content') := by
      rw [← same, source_holds, seen, source_alive]
    obtain ⟨final, ran, receives, there, after, manages⟩ :=
      execAll_mergeObject implements inside consistent
        (present_of_collection wellFormed inside repeated shows) holds alive source_holds
        source_alive
    refine ⟨final, ?_, receives.handles wellFormed sound (fun _ => there) manages,
      fun _ => ⟨receives, ?_, receives.chosen wellFormed⟩, fun gone => absurd
        (present_of_collection wellFormed inside repeated source_shows) gone⟩
    · rw [FieldPlan.mergeBody, if_pos repeated]
      exact ran
    · rw [after, shows, source_shows, Library.merged]
  | false =>
    by_cases present : Present plan source origin field
    · obtain ⟨final, ran, receives, after, manages⟩ := completes_mergePresent implements different
        inside repeated consistent source_consistent separate (unchanged.present_iff.mpr present)
      rw [same] at after
      exact ⟨final, ran, receives.handles wellFormed sound (by simp [repeated]) manages,
        fun _ => ⟨receives, after, receives.chosen wellFormed⟩, absurd present⟩
    · exact ⟨machine, completes_mergeBody implements inside repeated source_consistent
        (fun here => absurd (unchanged.present_iff.mp here) present) fun _ => rfl,
        ⟨.idle, sound⟩, (absurd · present), fun _ => rfl⟩

/-- **All fields are merged with those of another instance**, one after the other. -/
theorem execAll_merge (fields : List FieldPlan) (part : ∀ field ∈ fields, field ∈ plan.fields)
    (once : fields.Nodup) (unchanged : Unchanged plan source origin machine)
    (separate : Separate plan self source machine) (sound : Sound plan self machine) :
    ∃ final, Completes program 3 (fields.flatMap FieldPlan.mergeBody)
        (argumentFrame self "aSource" (.object source)) machine final ∧
        Handles plan self .nil machine final ∧
        (∀ field ∈ fields, Present plan source origin field →
          Gains program.library plan source origin self machine final field) ∧
        ∀ other ∈ plan.fields,
          (∀ field ∈ fields, Present plan source origin field → Unrelated plan field other) →
            Copied plan self machine self final other := by
  induction fields generalizing machine with
  | nil =>
    exact ⟨machine, completes_nil, ⟨.idle, sound⟩,
      fun _ impossible => absurd impossible List.not_mem_nil, fun _ _ _ => .refl⟩
  | cons field rest ih =>
    have wellFormed := implements.wellFormed
    have inside := part field (List.mem_cons_self ..)
    obtain ⟨missing, rest_once⟩ := List.nodup_cons.mp once
    obtain ⟨middle, first_ran, first, merged, skipped⟩ := execAll_mergeBody implements different
      origin_sound inside unchanged separate sound
    have source_sound := unchanged.sound origin_sound sound.consistent.owns.below
    obtain ⟨kept, middle_separate⟩ :=
      first.unchanged different source_sound.consistent.owns separate
    obtain ⟨final, ran, second, gains, copied⟩ :=
      ih (fun other later => part other (List.mem_cons_of_mem _ later)) rest_once
        (unchanged.trans kept) middle_separate first.sound
    -- A field that has nothing to do with the first one is the same before and after its part.
    have before {other : FieldPlan} (other_inside : other ∈ plan.fields)
        (unrelated : Present plan source origin field → Unrelated plan field other) :
        Copied plan self machine self middle other := by
      by_cases present : Present plan source origin field
      · exact (merged present).1.keeps_unrelated other_inside (unrelated present)
      · rw [skipped present]
        exact .refl
    have ne_first {other : FieldPlan} (later : other ∈ rest) : other ≠ field := fun same =>
      missing (same ▸ later)
    refine ⟨final, first_ran.append ran, first.trans second, fun other member present => ?_,
      fun other other_inside unrelated => ?_⟩
    · rcases List.mem_cons.mp member with rfl | later
      · refine (merged present).2.keep (copied other inside fun next next_later next_present => ?_)
        exact next_present.unrelated wellFormed origin_sound.consistent present
          (ne_first next_later).symm
      · refine (gains other later present).after (before (part other member) fun first_present => ?_)
        exact first_present.unrelated wellFormed origin_sound.consistent present (ne_first later)
    · exact (before other_inside (unrelated field (List.mem_cons_self ..))).trans
        (copied other other_inside fun next later => unrelated next (List.mem_cons_of_mem _ later))

end

/-- **Another instance is merged into an instance.** The fields that it has are merged, and those that
have nothing to do with them stay what they are. -/
theorem invoke_merge (implements : Implements program.code plan) (different : source ≠ self)
    (sound : Sound plan self machine) (source_sound : Sound plan source machine)
    (separate : Separate plan self source machine) :
    ∃ final, (∀ depth, (invokeMethod program (depth + 5) self "MergeFrom" [.object source]).on
      machine = (.ok .nil, final)) ∧ Handles plan self .nil machine final ∧
        (∀ field ∈ plan.fields, Present plan source machine field →
          Gains program.library plan source machine self machine final field) ∧
        ∀ other ∈ plan.fields,
          (∀ field ∈ plan.fields, Present plan source machine field → Unrelated plan field other) →
            Copied plan self machine self final other := by
  obtain ⟨final, ran, handles, gains, copied⟩ := execAll_merge implements different source_sound
    plan.fields (fun _ => id) (fields_nodup implements.wellFormed) .refl separate sound
  exact ⟨final, invoke_delegate implements.mergeFrom implements.mergeFromOwnFields rfl ran, handles,
    gains, copied⟩

end ProtoPascal.Execution
