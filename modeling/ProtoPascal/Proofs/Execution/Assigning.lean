import ProtoPascal.Proofs.Execution.Decoding

/-!
How an instance is assigned another one. The fields are copied one after the other, as in reading
from a stream: each of them takes over what that of the source has, and keeps it while the others are
copied. A message that the source holds is copied into a new one.

Main statement: `invoke_assign`, after an assignment all fields agree with those of the source, which
stays as it was.
-/

namespace ProtoPascal.Execution

open Message
open Pascal

variable {Content Payload : Type} {program : Program Content Payload} {plan : ClassPlan}
  {source self : Address} {origin machine middle final : Machine Content Payload}
  {field other : FieldPlan}

/-! ### The source in expressions -/

section

variable (implements : Implements program.code plan) (inside : field ∈ plan.fields)
  {call : Caller Content Payload}
include implements inside

theorem eval_sourceBacking :
    (eval program call (argumentFrame self "aSource" (.object source)) field.sourceBacking).on
      machine = (.ok (stored source machine field), machine) :=
  eval_member_field (eval_stream (by decide)) (implements.backing inside)

theorem eval_sourceHas (single : field.field.repeated = false)
    (consistent : Consistent plan source machine) :
    ∃ has : Bool, (has = true ↔ Present plan source machine field) ∧
      ∀ depth, (eval program (invokeMethod program (depth + 1))
        (argumentFrame self "aSource" (.object source)) field.sourceHas).on machine =
          (.ok (.truth has), machine) := by
  obtain ⟨presence, named⟩ := exists_presence implements.wellFormed inside single
  obtain ⟨has, iff, read⟩ := invoke_presence implements inside named consistent
  refine ⟨has, iff, fun depth => ?_⟩
  rw [FieldPlan.sourceHas, FieldPlan.presenceName, named]
  exact (eval_member_property (eval_stream (by decide))
    (implements.presenceProperty inside named)).trans (read depth)

/-- A field is copied if the source has it, and else marked as absent. -/
theorem completes_assignBody (single : field.field.repeated = false)
    (consistent : Consistent plan source machine)
    (present : Present plan source machine field → Completes program 3
      (if field.field.type.isMessage then field.deepCopyBody else field.valueCopyBody)
      (argumentFrame self "aSource" (.object source)) machine final)
    (gone : ¬ Present plan source machine field → Completes program 3
      [assign field.has falseValue] (argumentFrame self "aSource" (.object source)) machine final) :
    Completes program 3 field.assignBody (argumentFrame self "aSource" (.object source)) machine
      final := by
  rw [FieldPlan.assignBody, if_neg (by simp [single]),
    isMessage_eq (implements.wellFormed.supported field inside)]
  exact completes_ifElse (eval_sourceHas implements inside single consistent) present gone

/-- The object of a field is given that of the source in a call of one of its methods. -/
theorem exec_useSource {method : String} {address address' : Address} {content result : Content}
    (holds : stored self machine field = .object address)
    (alive : machine.objects address = some content)
    (source_holds : stored source machine field = .object address')
    (used : (useContent program.library address content method [.object address']).on machine =
      (.ok .nil, machine.setObject address (some result))) :
    (exec program call (invoke field.backing method [field.sourceBacking])
      (argumentFrame self "aSource" (.object source))).on machine =
        (.ok (argumentFrame self "aSource" (.object source)),
          machine.setObject address (some result)) := by
  have called : (useValue program.library (stored self machine field) method
      [.object address']).on machine = (.ok .nil, machine.setObject address (some result)) := by
    rw [holds, useValue, Run.on_bind, Run.on_look, alive]
    exact used
  refine exec_invoke_backing implements inside (evalAll_cons ?_ (by rw [evalAll_nil, Run.on_pure]))
    called
  rw [eval_sourceBacking implements inside, source_holds]

theorem exec_assignObject {address address' : Address} {content content' : Content}
    (holds : stored self machine field = .object address)
    (alive : machine.objects address = some content)
    (source_holds : stored source machine field = .object address')
    (source_alive : machine.objects address' = some content') :
    (exec program call (invoke field.backing "Assign" [field.sourceBacking])
      (argumentFrame self "aSource" (.object source))).on machine =
        (.ok (argumentFrame self "aSource" (.object source)),
          machine.setObject address (some (program.library.assign content content'))) := by
  refine exec_useSource implements inside holds alive source_holds ?_
  show (Run.look (·.objects address') >>= _).on machine = _
  rw [Run.on_bind, Run.on_look, source_alive]
  rfl

/-! ### Copies of single fields -/

theorem execAll_valueCopy (plain : field.field.type.isMessage = false)
    (single : field.field.repeated = false) (consistent : Consistent plan self machine)
    (source_owns : Owns plan source machine) :
    ∃ final, Completes program 3 field.valueCopyBody (argumentFrame self "aSource" (.object source))
        machine final ∧ Receives plan self field machine final ∧
        stored self final field = stored source machine field ∧
        Manages plan self .nil machine final := by
  have fits := source_owns.fits field inside
  rw [Fits, holdsObjects, single, plain, if_neg (by simp)] at fits
  have start : Consistent plan (argumentFrame self "aSource" (.object source)).self machine :=
    consistent
  refine completes_putValue implements inside plain single start fits fun depth => ?_
  exact (eval_member_property (eval_stream (by decide)) (implements.property inside)).trans
    (invoke_getter implements inside source_owns (depth + 2))

/-- A message is copied into a new one. What it is assigned is what the field of the source holds
once the field has the new message. -/
theorem execAll_deepCopy (source : Address) (message : field.field.type.isMessage = true)
    (consistent : Consistent plan self machine) {content : Content}
    (found : ∀ middle, stored self middle field = .object machine.fresh →
      middle.objects machine.fresh = some (program.library.create field.support.publicType) →
      Manages plan self .nil machine middle →
        ∃ address, stored source middle field = .object address ∧
          middle.objects address = some content) :
    ∃ final, Completes program 3 field.deepCopyBody (argumentFrame self "aSource" (.object source))
        machine final ∧ Receives plan self field machine final ∧
        seen final (stored self final field) = .content (some (program.library.assign
          (program.library.create field.support.publicType) content)) ∧
        Manages plan self .nil machine final := by
  have wellFormed := implements.wellFormed
  have start : Consistent plan (argumentFrame self "aSource" (.object source)).self machine :=
    consistent
  obtain ⟨middle, assigned, receives, stores, alive, manages⟩ :=
    exec_putMessage implements inside message start
  obtain ⟨address, source_holds, source_alive⟩ := found middle stores alive manages
  have owns := (receives.consistent wellFormed consistent).owns
  have holds : stored self middle field = .object machine.fresh := stores
  have touches := touches_setObject inside owns holds (program.library.assign
    (program.library.create field.support.publicType) content)
  refine ⟨_, fun depth => ?_, receives.touch wellFormed touches
    fun _ => holds.trans_ne Value.noConfusion, seen_setObject holds _,
    manages.trans (manages_setObject inside holds _)⟩
  rw [FieldPlan.deepCopyBody, execAll_cons (assigned depth), execAll_singleton]
  exact exec_assignObject implements inside holds alive source_holds source_alive

theorem execAll_assignCollection (repeated : field.field.repeated = true)
    (sound : Sound plan self machine) (source_sound : Sound plan source machine) :
    ∃ content content' final, seen machine (stored self machine field) = .content (some content) ∧
      seen machine (stored source machine field) = .content (some content') ∧
      Completes program 3 field.assignBody (argumentFrame self "aSource" (.object source)) machine
        final ∧ Receives plan self field machine final ∧
      seen final (stored self final field) = .content (some (program.library.assign content content')) ∧
      Manages plan self .nil machine final := by
  obtain ⟨address, content, holds, alive⟩ := sound.collection inside repeated
  obtain ⟨address', content', source_holds, source_alive⟩ := source_sound.collection inside repeated
  have touches := touches_setObject inside sound.consistent.owns holds
    (program.library.assign content content')
  refine ⟨content, content', _, by rw [holds, seen, alive], by rw [source_holds, seen, source_alive],
    fun depth => ?_, .outside (implements.wellFormed.repeated field inside repeated) touches,
    seen_setObject holds _, manages_setObject inside holds _⟩
  rw [FieldPlan.assignBody, if_pos repeated, execAll_singleton]
  exact exec_assignObject implements inside holds alive source_holds source_alive

end

/-! ### Assignment of another instance -/

theorem Unchanged.present_iff (unchanged : Unchanged plan source origin machine) :
    Present plan source machine field ↔ Present plan source origin field := by
  unfold Present stored
  rw [unchanged.fields]

/-- A collection that is there is present. -/
theorem present_of_collection (wellFormed : plan.WellFormed) (inside : field ∈ plan.fields)
    (repeated : field.field.repeated = true) {content : Content}
    (shows : seen machine (stored self machine field) = .content (some content)) :
    Present plan self machine field := by
  rw [present_iff_of_outside (wellFormed.repeated field inside repeated)]
  intro gone
  rw [gone, seen_of_ne_object (absent_ne_object field)] at shows
  cases shows

/-- What the library has to do for a field to be copied: the object of the source is copied into a new
message, or into the collection that is there. -/
structure Library.Copies (library : Library Content Payload) (owner : Address)
    (machine : Machine Content Payload) (source : Address) (origin : Machine Content Payload)
    (field : FieldPlan) : Prop where
  message : field.field.repeated = false → ∀ content,
    seen origin (stored source origin field) = .content (some content) →
      library.assign (library.create field.support.publicType) content = content
  collection : field.field.repeated = true → ∀ before content,
    seen machine (stored owner machine field) = .content (some before) →
      seen origin (stored source origin field) = .content (some content) →
        library.assign before content = content

section

variable (implements : Implements program.code plan) (different : source ≠ self)
  (origin_sound : Sound plan source origin)
include implements different origin_sound

/-- **A field takes over what that of another instance has**, if the library copies it. In any case the
state stays sound, and no object is lost. -/
theorem execAll_assignBody (inside : field ∈ plan.fields)
    (unchanged : Unchanged plan source origin machine)
    (separate : Separate plan self source machine) (sound : Sound plan self machine) :
    ∃ final, Completes program 3 field.assignBody (argumentFrame self "aSource" (.object source))
        machine final ∧ Handles plan self .nil machine final ∧
        (program.library.Copies self machine source origin field →
          Takes plan source origin self field machine final) := by
  have wellFormed := implements.wellFormed
  have consistent := sound.consistent
  have source_sound := unchanged.sound origin_sound consistent.owns.below
  have source_consistent := source_sound.consistent
  have same : seen machine (stored source machine field) = seen origin (stored source origin field) :=
    (unchanged.keeps inside).seen
  cases repeated : field.field.repeated with
  | true =>
    obtain ⟨before, content, final, shows, source_shows, ran, receives, after, manages⟩ :=
      execAll_assignCollection implements inside repeated sound source_sound
    rw [same] at source_shows
    have present := present_of_collection wellFormed inside repeated source_shows
    have there : field.field.repeated = true → stored self final field ≠ .nil := by
      intro _ nil
      rw [nil] at after
      cases after
    refine ⟨final, ran, receives.handles wellFormed sound there manages,
      fun copies => .value receives present ?_ there⟩
    rw [after, source_shows, copies.collection repeated _ _ shows source_shows]
  | false =>
    by_cases present : Present plan source origin field
    · have here := unchanged.present_iff.mpr present
      have copied : ∃ final, Completes program 3
          (if field.field.type.isMessage then field.deepCopyBody else field.valueCopyBody)
          (argumentFrame self "aSource" (.object source)) machine final ∧
          Receives plan self field machine final ∧ Manages plan self .nil machine final ∧
          (program.library.Copies self machine source origin field →
            seen origin (stored source origin field) = seen final (stored self final field)) := by
        cases message : field.field.type.isMessage with
        | true =>
          obtain ⟨address, content, holds, alive⟩ :=
            here.object wellFormed inside source_consistent message
          have shows : seen origin (stored source origin field) = .content (some content) := by
            rw [← same, holds, seen, alive]
          -- The new message of the instance leaves that of the source as it is.
          obtain ⟨final, ran, receives, after, manages⟩ :=
            execAll_deepCopy implements inside source message consistent fun middle _ _ manages =>
              have kept := (manages.unchanged different source_consistent.owns separate).1
              ⟨address, (kept.keeps inside).same.trans holds,
                (kept.objects field inside address holds).trans alive⟩
          refine ⟨final, ran, receives, manages, fun copies => ?_⟩
          rw [shows, after, copies.message repeated _ shows]
        | false =>
          obtain ⟨final, ran, receives, stores, manages⟩ :=
            execAll_valueCopy implements inside message repeated consistent source_consistent.owns
          have plain := source_consistent.owns.plain inside repeated message
          refine ⟨final, ran, receives, manages, fun _ => ?_⟩
          rw [stores, ← same, seen_of_ne_object plain, seen_of_ne_object plain]
      obtain ⟨final, ran, receives, manages, shows⟩ := copied
      exact ⟨final, completes_assignBody implements inside repeated source_consistent
        (fun _ => ran) (absurd here), receives.handles wellFormed sound (by simp [repeated]) manages,
        fun copies => .value receives present (shows copies) (by simp [repeated])⟩
    · have start : Consistent plan (argumentFrame self "aSource" (.object source)).self machine :=
        consistent
      obtain ⟨final, ran, unmarks, manages⟩ :=
        exec_unmark_manages implements inside repeated start
      exact ⟨final, completes_assignBody implements inside repeated source_consistent
        (fun here => absurd (unchanged.present_iff.mp here) present) fun _ => ran.deeper,
        unmarks.handles wellFormed sound repeated manages, fun _ => .absence unmarks repeated present⟩

omit implements different origin_sound in
/-- What a field needs to be copied stays the same while its collection stays what it is. -/
theorem Library.Copies.keep {library : Library Content Payload}
    (copies : library.Copies self machine source origin field)
    (keeps : field.field.repeated = true → Keeps self machine middle field) :
    library.Copies self middle source origin field :=
  ⟨copies.message, fun repeated before content shows source_shows =>
    copies.collection repeated before content ((keeps repeated).seen ▸ shows) source_shows⟩

/-- **All fields take over what those of another instance have**, one after the other. -/
theorem execAll_assign (separate : Separate plan self source origin) (sound : Sound plan self origin)
    (copies : ∀ field ∈ plan.fields, program.library.Copies self origin source origin field) :
    ∃ final, Completes program 3 (plan.concatFields FieldPlan.assignBody)
      (argumentFrame self "aSource" (.object source)) origin final ∧
        Unchanged plan source origin final ∧ AgreesBut plan source origin self [] final := by
  have wellFormed := implements.wellFormed
  obtain ⟨final, ran, -, unchanged, -, -, agrees⟩ := completes_flatMap
    (fun rest now => rest.Nodup ∧ Unchanged plan source origin now ∧
      Separate plan self source now ∧
      (∀ field ∈ rest, program.library.Copies self now source origin field) ∧
      AgreesBut plan source origin self rest now)
    (fun field rest now ⟨once, unchanged, separate, copies, before⟩ => by
      obtain ⟨missing, rest_once⟩ := List.nodup_cons.mp once
      have sound : Sound plan self now := ⟨before.consistent, before.filled⟩
      obtain ⟨middle, ran, handles, takes⟩ := execAll_assignBody implements different
        origin_sound (before.inside (List.mem_cons_self ..)) unchanged separate sound
      have takes := takes (copies field (List.mem_cons_self ..))
      have reads := takes.reads wellFormed origin_sound.consistent sound.consistent sound.filled
      -- The source stays as it is, so the next fields take over the same.
      have source_sound := unchanged.sound origin_sound sound.consistent.owns.below
      obtain ⟨kept, middle_separate⟩ :=
        handles.unchanged different source_sound.consistent.owns separate
      refine ⟨middle, ran, rest_once, unchanged.trans kept, middle_separate, fun other later => ?_,
        before.next reads⟩
      have later_inside := List.mem_cons_of_mem field later
      exact (copies other later_inside).keep (takes.keeps_collection wellFormed
        (before.inside later_inside) fun same => missing (same ▸ later)))
    ⟨fields_nodup wellFormed, .refl, separate, copies, List.Subset.refl plan.fields,
      sound.consistent, sound.filled, fun _ => .inl⟩
  exact ⟨final, ran, unchanged, agrees⟩

end

/-! ### The method -/

/-- A method that leaves the own fields to another one runs the body of that one on the source. -/
theorem invoke_delegate {method ownFields type : String} {body : Body}
    (declared : program.code.Has method [⟨"aSource", type⟩] (plan.delegateBody method ownFields))
    (ownDeclared : program.code.Has ownFields [⟨"aSource", plan.className⟩] body)
    (idle : (useAncestor program.library self method [.object source]).on machine =
      (.ok (), machine))
    (ran : Completes program 3 body (argumentFrame self "aSource" (.object source)) machine final)
    (depth : Nat) :
    (invokeMethod program (depth + 5) self method [.object source]).on machine =
      (.ok .nil, final) := by
  obtain ⟨implementation, found, parameters, body⟩ := declared
  obtain ⟨own, ownFound, ownParameters, ownBody⟩ := ownDeclared
  have own_ran : (invokeMethod program (depth + 4) self ownFields [.object source]).on
      machine = (.ok .nil, final) :=
    invokeMethod_procedure ownFound ownParameters (by decide) (ownBody ▸ ran depth)
  let entered := argumentFrame self "aSource" (.object source)
  let named := entered.assign "lSource" (.object source)
  -- The local names that the body reads, of which none is the result.
  have readParameter : named.read? "aSource" = some (.object source) := by
    have notSelf : Text.sameLetters "aSource" "Self" = false := by decide
    have other : Text.sameLetters "lSource" "aSource" = false := by decide
    simp [named, entered, argumentFrame, Frame.assign, Frame.read?, notSelf, other]
  have readLocal : named.read? "lSource" = some (.object source) := by
    have notSelf : Text.sameLetters "lSource" "Self" = false := by decide
    simp [named, Frame.assign, Frame.read?, notSelf]
  have noResult : named.read? "Result" = none := by
    have notSelf : Text.sameLetters "Result" "Self" = false := by decide
    have first : Text.sameLetters "lSource" "Result" = false := by decide
    have second : Text.sameLetters "aSource" "Result" = false := by decide
    simp [named, entered, argumentFrame, Frame.assign, Frame.read?, notSelf, first, second]
  have all : (execAll program (invokeMethod program (depth + 4))
      (plan.delegateBody method ownFields) entered).on machine = (.ok named, final) := by
    have cast : (exec program (invokeMethod program (depth + 4))
        (assign (.localName "lSource") (.downcast sourceMessage plan.className)) entered).on machine =
          (.ok named, machine) := by
      refine exec_assign_local ?_
      rw [eval]
      exact eval_stream (by decide)
    have inherited : (exec program (invokeMethod program (depth + 4))
        (inheritCall method [sourceMessage]) named).on machine = (.ok named, machine) :=
      exec_inheritCall (evalAll_cons (eval_local readParameter) (by rw [evalAll_nil, Run.on_pure]))
        idle
    rw [ClassPlan.delegateBody, execAll_cons cast, execAll_cons inherited, execAll_singleton]
    exact exec_callOwn_arguments
      (evalAll_cons (eval_local readLocal) (by rw [evalAll_nil, Run.on_pure])) ownFound own_ran
  have locals : (implementation.method.parameters.map Parameter.name).zip [.object source] =
      entered.locals := by
    rw [parameters]
    rfl
  have invoked := invokeMethod_of_exec found locals (body ▸ all)
  rwa [Except.map, noResult, Option.getD_none] at invoked

/-- An assignment runs the parts of the fields on the source. -/
theorem invoke_assign_of_exec (implements : Implements program.code plan)
    (ran : Completes program 3 (plan.concatFields FieldPlan.assignBody)
      (argumentFrame self "aSource" (.object source)) machine final) (depth : Nat) :
    (invokeMethod program (depth + 5) self "Assign" [.object source]).on machine =
      (.ok .nil, final) :=
  invoke_delegate implements.assign implements.assignOwnFields rfl ran depth

/-- **An instance is assigned another one**, and agrees with it in all fields. The other one stays as
it was. -/
theorem invoke_assign (implements : Implements program.code plan) (different : source ≠ self)
    (sound : Sound plan self machine) (source_sound : Sound plan source machine)
    (separate : Separate plan self source machine)
    (copies : ∀ field ∈ plan.fields, program.library.Copies self machine source machine field) :
    ∃ final, (∀ depth, (invokeMethod program (depth + 5) self "Assign" [.object source]).on machine =
      (.ok .nil, final)) ∧ Sound plan self final ∧ Unchanged plan source machine final ∧
        ∀ field ∈ plan.fields, Copied plan source machine self final field := by
  obtain ⟨final, ran, unchanged, agrees⟩ :=
    execAll_assign implements different source_sound separate sound copies
  exact ⟨final, invoke_assign_of_exec implements ran, ⟨agrees.consistent, agrees.filled⟩, unchanged,
    fun field inside => (agrees.copied field inside).resolve_left List.not_mem_nil⟩

end ProtoPascal.Execution
