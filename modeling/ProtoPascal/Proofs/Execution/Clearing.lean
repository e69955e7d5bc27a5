import ProtoPascal.Proofs.Execution.Decoding

/-!
What clearing leaves of an instance that has all its collections: no field is present, and every
collection is cleared. So a new instance has no present fields and cleared new collections.

* `invoke_clearOwnFields_filled`: the own fields of an instance are cleared;
* `invoke_create_vacant`: a new instance is vacant.
-/

namespace ProtoPascal.Execution

open Message
open Pascal

variable {Content Payload : Type} {program : Program Content Payload} {plan : ClassPlan}
  {self : Address} {machine middle final : Machine Content Payload} {field other : FieldPlan}
  {frame : Frame}

/-- Some fields of an instance are cleared, and all others stay what they are. -/
structure Clears (library : Library Content Payload) (plan : ClassPlan) (owner : Address)
    (fields : List FieldPlan) (machine final : Machine Content Payload) : Prop where
  consistent : Consistent plan owner final
  filled : Filled plan owner final
  gone : ∀ field ∈ fields, field.field.repeated = false → ¬ Present plan owner final field
  emptied : ∀ field ∈ fields, field.field.repeated = true → ∀ content,
    seen machine (stored owner machine field) = .content (some content) →
      seen final (stored owner final field) = .content (some (library.clear content))
  kept : ∀ field ∈ plan.fields, field ∉ fields → Copied plan owner machine owner final field

theorem Unmarks.gone (wellFormed : plan.WellFormed) (unmarks : Unmarks plan self field machine final) :
    ¬ Present plan self final field := by
  cases unmarks with
  | outside outside _ stores => rwa [present_iff_of_outside outside, not_not]
  | @member oneof current position inside found _ moves _ =>
    rw [present_iff_of_member wellFormed inside found moves.selects, markedCase,
      if_neg Bool.false_ne_true]
    split
    · rintro rfl
      cases found
    · next elsewhere => exact elsewhere

section

variable (implements : Implements program.code plan)
include implements

theorem execAll_clearField (inside : field ∈ plan.fields)
    (consistent : Consistent plan frame.self machine) (filled : Filled plan frame.self machine) :
    ∃ final, Completes program 2 field.clearBody frame machine final ∧
        Clears program.library plan frame.self [field] machine final := by
  have wellFormed := implements.wellFormed
  cases repeated : field.field.repeated with
  | false =>
    obtain ⟨final, ran, unmarks⟩ := exec_unmark implements inside repeated consistent
    refine ⟨final, fun depth => ?_, unmarks.consistent wellFormed consistent,
      unmarks.filled wellFormed repeated filled, ?_, ?_, fun other other_inside different => ?_⟩
    · rw [FieldPlan.clearBody, if_neg (by simp [repeated]), ran depth]
    · intro other same _
      rw [List.mem_singleton.mp same]
      exact unmarks.gone wellFormed
    · intro other same other_repeated
      rw [List.mem_singleton.mp same, repeated] at other_repeated
      cases other_repeated
    · exact unmarks.keeps_copied wellFormed consistent other_inside
        (fun same => different (List.mem_singleton.mpr same)) .refl
  | true =>
    obtain ⟨address, content, holds, alive⟩ :=
      Sound.collection ⟨consistent, filled⟩ inside repeated
    have touches := touches_setObject inside consistent.owns holds (program.library.clear content)
    have outside := wellFormed.repeated field inside repeated
    refine ⟨_, fun depth => execAll_clearCollection implements inside repeated holds alive,
      touches.consistent wellFormed outside consistent,
      touches.filled filled fun _ => holds.trans_ne Value.noConfusion, ?_, ?_,
      fun other other_inside different => ?_⟩
    · intro other same single
      rw [List.mem_singleton.mp same, repeated] at single
      cases single
    · intro other same _ before shows
      rw [List.mem_singleton.mp same, holds, seen, alive] at shows
      cases shows
      rw [List.mem_singleton.mp same, seen_setObject holds]
    · exact Copied.refl.touch touches other_inside fun same =>
        different (List.mem_singleton.mpr same)

/-- **Fields are cleared** one after the other. -/
theorem execAll_clearFields (fields : List FieldPlan) (part : ∀ field ∈ fields, field ∈ plan.fields)
    (once : fields.Nodup) (consistent : Consistent plan frame.self machine)
    (filled : Filled plan frame.self machine) :
    ∃ final, Completes program 2 (fields.flatMap FieldPlan.clearBody) frame machine final ∧
        Clears program.library plan frame.self fields machine final := by
  induction fields generalizing machine with
  | nil =>
    exact ⟨machine, completes_nil, consistent, filled,
      fun _ impossible => absurd impossible List.not_mem_nil,
      fun _ impossible => absurd impossible List.not_mem_nil, fun _ _ _ => .refl⟩
  | cons field rest ih =>
    have inside := part field (List.mem_cons_self ..)
    obtain ⟨missing, rest_once⟩ := List.nodup_cons.mp once
    obtain ⟨middle, first_ran, first⟩ := execAll_clearField implements inside consistent filled
    obtain ⟨final, ran, clears⟩ := ih (fun other later => part other (List.mem_cons_of_mem _ later))
      rest_once first.consistent first.filled
    -- The first field stays cleared while the others are, and these are still what they were.
    have stays := clears.kept field inside missing
    have before {other : FieldPlan} (later : other ∈ rest) :
        Copied plan frame.self machine frame.self middle other :=
      first.kept other (part other (List.mem_cons_of_mem _ later)) fun same =>
        missing (List.mem_singleton.mp same ▸ later)
    refine ⟨final, first_ran.append ran, clears.consistent, clears.filled, ?_, ?_, ?_⟩
    · intro other cleared single
      rcases List.mem_cons.mp cleared with rfl | later
      · rw [stays.present_iff]
        exact first.gone other (List.mem_singleton_self _) single
      · exact clears.gone other later single
    · intro other cleared repeated content shows
      rcases List.mem_cons.mp cleared with rfl | later
      · rw [← stays.same]
        exact first.emptied other (List.mem_singleton_self _) repeated content shows
      · refine clears.emptied other later repeated content ?_
        rw [← (before later).same, shows]
    · intro other other_inside elsewhere
      rw [List.mem_cons, not_or] at elsewhere
      exact (first.kept other other_inside fun same => elsewhere.1 (List.mem_singleton.mp same)).trans
        (clears.kept other other_inside elsewhere.2)

/-- **The own fields of an instance with all its collections are cleared.** -/
theorem invoke_clearOwnFields_filled (consistent : Consistent plan self machine)
    (filled : Filled plan self machine) :
    ∃ final, (∀ depth, (invokeMethod program (depth + 3) self "ClearOwnFields" []).on machine =
      (.ok .nil, final)) ∧ Clears program.library plan self plan.fields machine final := by
  obtain ⟨implementation, found, parameters, body⟩ := implements.clearOwnFields
  have start : Consistent plan (Frame.mk self []).self machine := consistent
  obtain ⟨final, ran, clears⟩ := execAll_clearFields implements plan.fields (fun _ => id)
    (fields_nodup implements.wellFormed) start filled
  refine ⟨final, fun depth => invokeMethod_bare found ?_, clears⟩
  rw [body]
  exact ran depth

/-! ### New instances -/

omit implements in
/-- An instance has no present fields, and its collections are new and cleared. -/
structure Vacant (library : Library Content Payload) (plan : ClassPlan) (owner : Address)
    (machine : Machine Content Payload) : Prop where
  consistent : Consistent plan owner machine
  filled : Filled plan owner machine
  gone : ∀ field ∈ plan.fields, field.field.repeated = false → ¬ Present plan owner machine field
  collections : ∀ field ∈ plan.fields, field.field.repeated = true →
    seen machine (stored owner machine field) =
      .content (some (library.clear (library.create field.internalType)))

/-- **A new instance is vacant.** -/
theorem invoke_create_vacant (new : IsNew plan self machine) :
    ∃ final, (∀ depth, (invokeMethod program (depth + 4) self "Create" []).on machine =
      (.ok .nil, final)) ∧ Vacant program.library plan self final := by
  obtain ⟨middle, -, blank, -, collections, created⟩ := invoke_create_of_clear implements new
  have shows {field : FieldPlan} (inside : field ∈ plan.fields)
      (repeated : field.field.repeated = true) : seen middle (stored self middle field) =
        .content (some (program.library.create field.internalType)) := by
    obtain ⟨address, holds, alive⟩ := collections field inside repeated
    rw [holds, seen, alive]
  obtain ⟨final, cleared, clears⟩ := invoke_clearOwnFields_filled implements blank.consistent
    (filled_of_holdsContent collections)
  exact ⟨final, created final cleared, clears.consistent, clears.filled, clears.gone,
    fun field inside repeated => clears.emptied field inside repeated _ (shows inside repeated)⟩

end

end ProtoPascal.Execution
