import ProtoPascal.Proofs.Execution.Merging

/-!
How the methods of an instance take care of objects, from the constructor to the destructor. Each of
them leaves the instance in a sound state and loses no object, and the destructor frees those that
the fields hold.

* `execAll_handles`: parts of fields that lose no object lose none together;
* `invoke_create_handles`, `invoke_clear_handles`, `invoke_decode_handles`, `invoke_assign_handles`:
  the constructor and the methods that change an instance lose no object;
* `invoke_destroy`: the destructor frees the objects that the instance holds, and no others.
-/

namespace ProtoPascal.Execution

open Message
open Pascal

variable {Content Payload : Type} {program : Program Content Payload} {plan : ClassPlan}
  {source self : Address} {machine middle final : Machine Content Payload} {field : FieldPlan}
  {frame : Frame}

/-- **Parts of fields that lose no object lose none together.** Each of them may rely on what holds
beforehand, if all of them keep it. -/
theorem execAll_handles {part : FieldPlan → Body} {bound : Nat}
    (Kept : Machine Content Payload → Prop)
    (step : ∀ field ∈ plan.fields, ∀ machine, Sound plan frame.self machine → Kept machine →
      ∃ final, Completes program bound (part field) frame machine final ∧
          Handles plan frame.self .nil machine final ∧ Kept final)
    (sound : Sound plan frame.self machine) (kept : Kept machine) :
    ∃ final, Completes program bound (plan.fields.flatMap part) frame machine final ∧
        Handles plan frame.self .nil machine final := by
  obtain ⟨final, ran, -, handles, -⟩ := completes_flatMap
    (fun rest now => rest ⊆ plan.fields ∧ Handles plan frame.self .nil machine now ∧ Kept now)
    (fun field rest now ⟨inside, before, kept⟩ => by
      obtain ⟨middle, ran, handles, middle_kept⟩ :=
        step field (inside (List.mem_cons_self ..)) now before.sound kept
      exact ⟨middle, ran, List.Subset.trans (List.subset_cons_self ..) inside,
        before.trans handles, middle_kept⟩)
    ⟨List.Subset.refl plan.fields, ⟨.idle, sound⟩, kept⟩
  exact ⟨final, ran, handles⟩

/-- Likewise for parts that rely on nothing but a sound state, over all fields. -/
theorem execAll_fields_handles {part : FieldPlan → Body} {bound : Nat}
    (step : ∀ field ∈ plan.fields, ∀ machine, Sound plan frame.self machine →
      ∃ final, Completes program bound (part field) frame machine final ∧
        Handles plan frame.self .nil machine final)
    (sound : Sound plan frame.self machine) :
    ∃ final, Completes program bound (plan.fields.flatMap part) frame machine final ∧
        Handles plan frame.self .nil machine final := by
  refine execAll_handles (fun _ => True) (fun field inside machine sound _ => ?_) sound trivial
  obtain ⟨final, ran, handles⟩ := step field inside machine sound
  exact ⟨final, ran, handles, trivial⟩

section

variable (implements : Implements program.code plan)
include implements

/-! ### Clearing -/

theorem handles_setObject {address : Address} (inside : field ∈ plan.fields)
    (repeated : field.field.repeated = true) (sound : Sound plan self machine)
    (holds : stored self machine field = .object address) (content : Content) :
    Handles plan self .nil machine (machine.setObject address (some content)) := by
  have wellFormed := implements.wellFormed
  have touches := touches_setObject inside sound.consistent.owns holds content
  exact Receives.handles wellFormed (.outside (wellFormed.repeated field inside repeated) touches)
    sound (fun _ => holds.trans_ne Value.noConfusion) (manages_setObject inside holds _)

theorem execAll_clearBody_handles (inside : field ∈ plan.fields)
    (sound : Sound plan frame.self machine) :
    ∃ final, Completes program 2 field.clearBody frame machine final ∧
      Handles plan frame.self .nil machine final := by
  cases repeated : field.field.repeated with
  | false =>
    obtain ⟨final, ran, unmarks, manages⟩ :=
      exec_unmark_manages implements inside repeated sound.consistent
    refine ⟨final, fun depth => ?_, unmarks.handles implements.wellFormed sound repeated manages⟩
    rw [FieldPlan.clearBody, if_neg (by simp [repeated]), ran depth]
  | true =>
    obtain ⟨address, content, holds, alive⟩ := sound.collection inside repeated
    exact ⟨_, fun depth => execAll_clearCollection implements inside repeated holds alive,
      handles_setObject implements inside repeated sound holds _⟩

theorem invoke_clearOwnFields_handles (sound : Sound plan self machine) :
    ∃ final, (∀ depth, (invokeMethod program (depth + 3) self "ClearOwnFields" []).on machine =
      (.ok .nil, final)) ∧ Handles plan self .nil machine final := by
  obtain ⟨implementation, found, -, body⟩ := implements.clearOwnFields
  have start : Sound plan (Frame.mk self []).self machine := sound
  obtain ⟨final, ran, handles⟩ := execAll_fields_handles
    (fun _ inside _ => execAll_clearBody_handles implements inside) start
  refine ⟨final, fun depth => invokeMethod_bare found ?_, handles⟩
  rw [body]
  exact ran depth

/-- **Clearing an instance loses no object.** -/
theorem invoke_clear_handles (sound : Sound plan self machine) :
    ∃ final, (∀ depth, (invokeMethod program (depth + 4) self "Clear" []).on machine =
      (.ok .nil, final)) ∧ Handles plan self .nil machine final := by
  obtain ⟨implementation, found, -, body⟩ := implements.clear
  obtain ⟨final, ran, handles⟩ := invoke_clearOwnFields_handles implements sound
  exact ⟨final, fun depth => invokeMethod_bare found
    (body ▸ execAll_clearMethod implements (ran depth)), handles⟩

/-! ### Reading -/

omit implements in
/-- The codecs give values of the types of their fields, whatever they read. -/
def Library.Typed (library : Library Content Payload) (plan : ClassPlan) : Prop :=
  ∀ field ∈ plan.fields, field.field.repeated = false → ∀ codec,
    field.support.wireCodec = some codec → ∀ payloads,
      FitsType field.field.type (library.decodeScalar codec payloads)

theorem execAll_decodeBody_handles (typed : program.library.Typed plan)
    (inside : field ∈ plan.fields) (sound : Sound plan frame.self machine) :
    ∃ final, Completes program 3 field.decodeBody frame machine final ∧
      Handles plan frame.self .nil machine final := by
  have wellFormed := implements.wellFormed
  have consistent := sound.consistent
  unfold FieldPlan.decodeBody
  cases repeated : field.field.repeated with
  | true =>
    obtain ⟨address, content, holds, alive⟩ := sound.collection inside repeated
    refine ⟨machine.setObject address (some (program.library.decodeCollection
      field.support.wireCodec (machine.payloads frame.self field.field.number) content)),
      fun depth => ?_, handles_setObject implements inside repeated sound holds _⟩
    rw [if_pos rfl, execAll_singleton]
    exact exec_decodeCollection implements inside holds alive
  | false =>
    have again (final : Machine Content Payload) :
        field.field.repeated = true → stored frame.self final field ≠ .nil := by simp [repeated]
    rw [if_neg Bool.false_ne_true]
    by_cases unread : machine.payloads frame.self field.field.number = []
    · obtain ⟨final, ran, unmarks, manages⟩ :=
        exec_unmark_manages implements inside repeated consistent
      exact ⟨final, completes_ifUnparsed implements inside (absurd unread) fun _ => ran.deeper,
        unmarks.handles wellFormed sound repeated manages⟩
    · rcases wireCodec_cases (wellFormed.supported field inside) with
        ⟨coded, message⟩ | ⟨codec, coded, plain⟩
      · obtain ⟨final, ran, receives, -, manages⟩ :=
          execAll_decodeMessage implements inside message consistent
        rw [coded]
        exact ⟨final, completes_ifUnparsed implements inside (fun _ => ran) (absurd unread),
          receives.handles wellFormed sound (again final) manages⟩
      · obtain ⟨final, ran, receives, -, manages⟩ := execAll_decodeValue implements inside plain
          repeated consistent (typed field inside repeated codec coded _) rfl
        rw [coded]
        exact ⟨final, completes_ifUnparsed implements inside (fun _ => ran) (absurd unread),
          receives.handles wellFormed sound (again final) manages⟩

/-- **Reading a stream loses no object**, whatever there is in it. -/
theorem invoke_decode_handles (typed : program.library.Typed plan) (sound : Sound plan self machine)
    (arrival : Address) :
    ∃ final, (∀ depth, (invokeMethod program (depth + 4) self "Decode" [.stream arrival]).on
      machine = (.ok .nil, final)) ∧ Handles plan self .nil machine final := by
  have start : Sound plan (argumentFrame self "aSource" (.stream arrival)).self
      (machine.receive self arrival) := (elsewhere_receive sound.consistent.owns arrival).sound sound
  have received : Manages plan self .nil machine (machine.receive self arrival) :=
    ⟨⟨fun _ _ => rfl, fun _ _ _ => rfl,
      fun field inside _ object => .inr (.inr ⟨field, inside, object⟩), Nat.le_refl _⟩,
      fun _ loose => ⟨⟨loose.alive, loose.free⟩, Value.noConfusion⟩⟩
  obtain ⟨final, ran, handles⟩ := execAll_fields_handles
    (fun _ inside _ => execAll_decodeBody_handles implements typed inside) start
  exact ⟨final, invoke_decode_of_exec implements ran, received.trans handles.toManages,
    handles.sound⟩

/-! ### Assignment -/

/-- **An assignment of another instance loses no object**, whatever the library does with the
contents. -/
theorem invoke_assign_handles (different : source ≠ self) (sound : Sound plan self machine)
    (source_sound : Sound plan source machine) (separate : Separate plan self source machine) :
    ∃ final, (∀ depth, (invokeMethod program (depth + 5) self "Assign" [.object source]).on
      machine = (.ok .nil, final)) ∧ Handles plan self .nil machine final := by
  have start : Sound plan (argumentFrame self "aSource" (.object source)).self machine := sound
  obtain ⟨final, ran, handles⟩ := execAll_handles
    (fun now => Unchanged plan source machine now ∧ Separate plan self source now)
    (fun field inside now sound kept => by
      obtain ⟨final, ran, handles, -⟩ := execAll_assignBody implements different
        source_sound inside kept.1 kept.2 sound
      have owns := (kept.1.sound source_sound sound.consistent.owns.below).consistent.owns
      obtain ⟨unchanged, still_separate⟩ := handles.unchanged different owns kept.2
      exact ⟨final, ran, handles, kept.1.trans unchanged, still_separate⟩)
    start ⟨.refl, separate⟩
  exact ⟨final, invoke_assign_of_exec implements ran, handles⟩

/-! ### Creation -/

omit implements in
/-- The name to which a statement assigns. -/
def assignedName : Statement Action Expr → String
  | .simple (.assign (.own name) _) => name
  | _ => ""

omit implements in
/-- The constructor gives no field and no oneof a value twice. -/
theorem createStatements_nodup (wellFormed : plan.WellFormed) :
    (plan.flatMapSlots FieldPlan.createBody OneofPlan.createBody).Nodup := by
  have names : (plan.flatMapSlots (fun field => [field.names.backing])
      fun oneof => [oneof.names.backing]).Nodup := by
    refine (flatMapSlots_perm wellFormed.slots _ _).nodup_iff.mpr ?_
    rw [← List.map_eq_flatMap, ← List.map_eq_flatMap]
    exact wellFormed.backings
  refine List.Nodup.of_map assignedName ?_
  rw [map_flatMapSlots]
  refine names.sublist (flatMapSlots_sublist plan (fun field => ?_) fun oneof => ?_)
  · unfold FieldPlan.createBody
    split
    · exact List.Sublist.refl _
    · exact List.nil_sublist _
  · exact List.Sublist.refl _

omit implements in
/-- At most one statement of the constructor is for a field. -/
theorem eq_of_mem_createBody {first second : Statement Action Expr}
    (inside : first ∈ field.createBody) (other_inside : second ∈ field.createBody) :
    first = second := by
  unfold FieldPlan.createBody at inside other_inside
  split at inside
  · next repeated =>
    rw [if_pos repeated, List.mem_singleton] at other_inside
    rw [List.mem_singleton.mp inside, other_inside]
  · cases inside

/-- A statement of the constructor loses no object if its field held none. -/
theorem exec_createStatement_manages {statement : Statement Action Expr}
    (inside : statement ∈ plan.flatMapSlots FieldPlan.createBody OneofPlan.createBody)
    (empty : ∀ field ∈ plan.fields, statement ∈ field.createBody →
      stored frame.self machine field = .nil) :
    ∃ final, (∀ call, (exec program call statement frame).on machine = (.ok frame, final)) ∧
      Manages plan frame.self .nil machine final ∧
      ∀ field ∈ plan.fields, statement ∉ field.createBody →
        stored frame.self final field = stored frame.self machine field := by
  have wellFormed := implements.wellFormed
  rcases exists_of_mem_flatMapSlots inside with
    ⟨field, field_inside, part⟩ | ⟨oneof, oneof_inside, part⟩
  · have whole := part
    unfold FieldPlan.createBody at part
    split at part
    · obtain rfl := List.mem_singleton.mp part
      have nothing (address : Address) : stored frame.self
          (machine.allocate (program.library.create field.internalType)) field ≠
            .object address := by
        show stored frame.self machine field ≠ .object address
        rw [empty field field_inside whole]
        exact Value.noConfusion
      refine ⟨_, fun call => exec_put implements field_inside eval_create,
        .ofNew (manages_put wellFormed field_inside nothing _),
        fun other other_inside elsewhere => ?_⟩
      have different : other ≠ field := by
        rintro rfl
        exact elsewhere whole
      exact (keeps_put wellFormed field_inside other_inside different _).same
    · cases part
  · rw [OneofPlan.createBody, List.mem_singleton] at part
    subst part
    refine ⟨_, fun call => exec_putCase implements oneof_inside
      (eval_enumValue (implements.noneValue oneof_inside)),
      manages_putCase wellFormed oneof_inside 0, fun field field_inside _ => ?_⟩
    exact (keeps_putCase wellFormed oneof_inside field_inside 0).same

/-- Statements of the constructor lose no object if their fields held none. -/
theorem execAll_create_manages (statements : List (Statement Action Expr))
    (inside : ∀ statement ∈ statements,
      statement ∈ plan.flatMapSlots FieldPlan.createBody OneofPlan.createBody)
    (once : statements.Nodup)
    (empty : ∀ field ∈ plan.fields, ∀ statement ∈ statements, statement ∈ field.createBody →
      stored frame.self machine field = .nil) :
    ∃ final, (∀ call, (execAll program call statements frame).on machine = (.ok frame, final)) ∧
      Manages plan frame.self .nil machine final := by
  induction statements generalizing machine with
  | nil => exact ⟨machine, fun call => by rw [execAll_nil, Run.on_pure], .idle⟩
  | cons statement rest ih =>
    obtain ⟨missing, rest_once⟩ := List.nodup_cons.mp once
    obtain ⟨middle, first_ran, first, kept⟩ :=
      exec_createStatement_manages implements (inside statement (List.mem_cons_self ..))
        fun field field_inside part =>
          empty field field_inside statement (List.mem_cons_self ..) part
    -- The fields of the later statements are other ones, so they still hold nothing.
    have still : ∀ field ∈ plan.fields, ∀ other ∈ rest, other ∈ field.createBody →
        stored frame.self middle field = .nil := by
      intro field field_inside other later part
      have elsewhere : statement ∉ field.createBody := fun again =>
        missing (eq_of_mem_createBody again part ▸ later)
      rw [kept field field_inside elsewhere]
      exact empty field field_inside other (List.mem_cons_of_mem _ later) part
    obtain ⟨final, ran, second⟩ :=
      ih (fun other later => inside other (List.mem_cons_of_mem _ later)) rest_once still
    exact ⟨final, fun call => by rw [execAll_cons (first_ran call), ran call], first.trans second⟩

/-- **The constructor loses no object.** All that it makes are the collections of the instance. -/
theorem invoke_create_handles (new : IsNew plan self machine) :
    ∃ final, (∀ depth, (invokeMethod program (depth + 4) self "Create" []).on machine =
      (.ok .nil, final)) ∧ Handles plan self .nil machine final := by
  have wellFormed := implements.wellFormed
  obtain ⟨middle, made, blank, -, collections, created⟩ := invoke_create_of_clear implements new
  have empty : ∀ field ∈ plan.fields, ∀ statement ∈ plan.flatMapSlots FieldPlan.createBody
      OneofPlan.createBody, statement ∈ field.createBody →
        stored (Frame.mk self []).self machine field = .nil := by
    intro field inside statement _ part
    show stored self machine field = .nil
    rw [new.fields field inside, if_pos]
    by_contra single
    rw [FieldPlan.createBody, if_neg single] at part
    cases part
  obtain ⟨middle', made', manages⟩ := execAll_create_manages implements _ (fun _ => id)
    (createStatements_nodup wellFormed) empty
  obtain rfl : middle = middle' :=
    (Prod.mk.inj ((made (invokeMethod program 0)).symm.trans (made' _))).2
  obtain ⟨final, cleared, handles⟩ := invoke_clearOwnFields_handles implements
    ⟨blank.consistent, filled_of_holdsContent collections⟩
  exact ⟨final, created final cleared, manages.trans handles.toManages, handles.sound⟩

/-! ### Destruction -/

/-- The part of a field in the destructor frees the object of the field, if it holds one. -/
theorem execAll_destroyBody {call : Caller Content Payload} (inside : field ∈ plan.fields)
    (fits : Fits machine field (stored frame.self machine field)) :
    (execAll program call field.destroyBody frame).on machine =
      (.ok frame, freeValue machine (stored frame.self machine field)) := by
  rw [FieldPlan.destroyBody, isMessage_eq (implements.wellFormed.supported field inside)]
  unfold Fits at fits
  split
  · next objects =>
    rw [holdsObjects, if_pos objects] at fits
    rw [execAll_singleton]
    exact exec_free implements inside fits
  · next plain =>
    rw [holdsObjects, if_neg plain] at fits
    rw [execAll_nil, Run.on_pure]
    cases holds : stored frame.self machine field with
    | object address => exact absurd holds (fits.ne_object address)
    | _ => rfl

/-- Fields are destroyed one after the other. No two of them hold one object, so each object is still
alive when its turn comes. -/
theorem execAll_destroy (owns : Owns plan frame.self machine) (fields : List FieldPlan)
    (part : ∀ field ∈ fields, field ∈ plan.fields) (once : fields.Nodup)
    {now : Machine Content Payload} (kept : ∀ field ∈ fields, Keeps frame.self machine now field) :
    ∃ final, (∀ call, (execAll program call (fields.flatMap FieldPlan.destroyBody) frame).on now =
      (.ok frame, final)) ∧
      (∀ field ∈ fields, ∀ address, stored frame.self machine field = .object address →
        final.objects address = none) ∧
      ∀ address, (∀ field ∈ fields, stored frame.self machine field ≠ .object address) →
        final.objects address = now.objects address := by
  induction fields generalizing now with
  | nil =>
    exact ⟨now, fun call => by rw [List.flatMap_nil, execAll_nil, Run.on_pure],
      fun _ impossible => absurd impossible List.not_mem_nil, fun _ _ => rfl⟩
  | cons field rest ih =>
    have inside := part field (List.mem_cons_self ..)
    have here := kept field (List.mem_cons_self ..)
    obtain ⟨missing, rest_once⟩ := List.nodup_cons.mp once
    have apart {other : FieldPlan} (later : other ∈ rest) {address : Address}
        (holds : stored frame.self machine other = .object address) :
        stored frame.self machine field ≠ .object address := by
      intro again
      refine missing ?_
      rwa [owns.apart field inside other (part other (List.mem_cons_of_mem _ later)) address again
        holds]
    have fits : Fits now field (stored frame.self now field) := by
      rw [here.same]
      exact (owns.fits field inside).congr here.objects
    have still : ∀ other ∈ rest,
        Keeps frame.self machine (freeValue now (stored frame.self now field)) other := by
      intro other later
      have before := kept other (List.mem_cons_of_mem _ later)
      refine ⟨?_, fun address holds => ?_⟩
      · rw [stored, fields_freeValue]
        exact before.same
      · rw [here.same, objects_freeValue (apart later holds), before.objects address holds]
    obtain ⟨final, ran, freed, others⟩ :=
      ih (fun other later => part other (List.mem_cons_of_mem _ later)) rest_once still
    refine ⟨final, fun call => ?_, fun other member address holds => ?_, fun address free => ?_⟩
    · rw [List.flatMap_cons, execAll_append (execAll_destroyBody implements inside fits), ran call]
    · rcases List.mem_cons.mp member with rfl | later
      · -- The object is freed here, and the later fields hold others.
        rw [others address fun next next_later next_holds => apart next_later next_holds holds,
          here.same, holds, freeValue, Machine.objects_setObject_same]
      · exact freed other later address holds
    · rw [others address fun next later => free next (List.mem_cons_of_mem _ later), here.same,
        objects_freeValue (free field (List.mem_cons_self ..))]

/-- **The destructor frees the objects that the instance holds**, and no others. -/
theorem invoke_destroy (owns : Owns plan self machine) :
    ∃ final, (∀ depth, (invokeMethod program (depth + 1) self "Destroy" []).on machine =
      (.ok .nil, final)) ∧
      (∀ field ∈ plan.fields, ∀ address, stored self machine field = .object address →
        final.objects address = none) ∧
      ∀ address, (∀ field ∈ plan.fields, stored self machine field ≠ .object address) →
        final.objects address = machine.objects address := by
  obtain ⟨implementation, found, -, body⟩ := implements.destroy
  have start : Owns plan (Frame.mk self []).self machine := owns
  obtain ⟨final, ran, freed, others⟩ := execAll_destroy implements start plan.fields.reverse
    (fun _ => List.mem_reverse.mp) (List.nodup_reverse.mpr (fields_nodup implements.wellFormed))
    fun field _ => .refl field
  refine ⟨final, fun depth => invokeMethod_bare found ?_,
    fun field inside => freed field (List.mem_reverse.mpr inside),
    fun address free => others address fun field inside => free field (List.mem_reverse.mp inside)⟩
  have inherited : (exec program (invokeMethod program depth) (inheritCall "Destroy" [])
      { self, locals := [] }).on final = (.ok { self, locals := [] }, final) :=
    exec_inheritCall (by rw [evalAll_nil, Run.on_pure]) rfl
  rw [body, ClassPlan.destroyBody, execAll_append (ran _), execAll_singleton, inherited]

end

end ProtoPascal.Execution
