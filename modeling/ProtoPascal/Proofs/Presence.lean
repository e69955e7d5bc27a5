import ProtoPascal.Proofs.Execution.Clearing
import ProtoPascal.Proofs.OneofExclusivity

/-!
What a client reads after it has written. A property shows the value that was written to it, and the
presence property tells whether the field is present: in a oneof, whether it is selected, and
elsewhere, whether its value is another than the default of its type. A write to one field does not
show in fields outside the oneof of the field.

* `showsValue_iff`, `showsPresence_iff`: what the properties of a field show in a consistent state;
* `Assigns.shown_eq`, `Assigns.present_iff`: a value that is written, and the presence that follows;
* `settles_clear_iff`: clearing succeeds exactly if all collections are there;
* `presence_follows_writes`: what every write to a field does, in every state that can be reached.
-/

namespace ProtoPascal.Execution

open Message
open Schema (MessageType)

variable {Content Payload : Type} {program : Program Content Payload} {plan : ClassPlan}
  {self : Address} {machine final : Machine Content Payload} {field other : FieldPlan}

/-! ### What properties show -/

/-- The property of a field shows a value. -/
def ShowsValue (program : Program Content Payload) (owner : Address)
    (machine : Machine Content Payload) (field : FieldPlan) (value : Value) : Prop :=
  Settles (readProperty program owner field.names.property) machine (.ok value) machine

/-- The presence property of a field shows a value. -/
def ShowsPresence (program : Program Content Payload) (owner : Address)
    (machine : Machine Content Payload) (field : FieldPlan) (value : Bool) : Prop :=
  Settles (readProperty program owner field.presenceName) machine (.ok (.truth value)) machine

/-- The default of the type of a field, as its property shows it. -/
def defaultOf (field : FieldPlan) : Value :=
  shown field (absent field)

section

variable (implements : Implements program.code plan) (consistent : Consistent plan self machine)
  (inside : field ∈ plan.fields)
include implements consistent inside

/-- **The property of a field shows what the field stores.** -/
theorem showsValue_iff {value : Value} :
    ShowsValue program self machine field value ↔ value = shown field (stored self machine field) := by
  have reads : ShowsValue program self machine field (shown field (stored self machine field)) :=
    settles_readProperty (implements.property inside) 1
      (invoke_getter implements inside consistent.owns)
  constructor
  · intro other
    exact Except.ok.inj (other.unique reads).1
  · rintro rfl
    exact reads

/-- **The presence property of a field shows whether it is present.** -/
theorem showsPresence_iff (single : field.field.repeated = false) {value : Bool} :
    ShowsPresence program self machine field value ↔ (value = true ↔ Present plan self machine field) := by
  obtain ⟨presence, present⟩ := exists_presence implements.wellFormed inside single
  obtain ⟨answer, answer_iff, answered⟩ := invoke_presence implements inside present consistent
  have has : ShowsPresence program self machine field answer := by
    rw [ShowsPresence, FieldPlan.presenceName, present]
    exact settles_readProperty (implements.presenceProperty inside present) 1 answered
  rw [← answer_iff, Bool.eq_iff_iff.symm]
  constructor
  · intro other
    exact Value.truth.inj (Except.ok.inj (other.unique has).1)
  · rintro rfl
    exact has

theorem showsValue_of_gone (gone : ¬ Present plan self machine field) :
    ShowsValue program self machine field (defaultOf field) := by
  rw [showsValue_iff implements consistent inside,
    stored_of_gone implements.wellFormed inside consistent gone, defaultOf]

theorem showsPresence_of_gone (single : field.field.repeated = false)
    (gone : ¬ Present plan self machine field) : ShowsPresence program self machine field false := by
  rw [showsPresence_iff implements consistent inside single]
  exact iff_of_false Bool.false_ne_true gone

end

/-! ### What is written is read -/

/-- The property of a field shows what it was given. -/
theorem shown_toStored {value : Value} (accepts : Accepts plan self machine field value) :
    shown field (toStored value) = value := by
  rw [Accepts] at accepts
  split at accepts
  · rw [toStored_of_isAlive accepts.1, shown_of_isAlive accepts.1]
  · next plain =>
    unfold shown
    split at accepts
    · next type is => rw [toStored_of_fitsScalar accepts, is]
    · next kind name is =>
      obtain ⟨ordinal, -, rfl⟩ := accepts
      rw [is]
      cases kind with
      | enumeration => rfl
      | message =>
        refine absurd ?_ plain
        rw [holdsObjects, is, Bool.or_eq_true]
        exact .inr rfl

/-- Only an object is shown as an object. -/
theorem object_of_shown {value : Value} {address : Address}
    (object : shown field value = .object address) : value = .object address := by
  unfold shown at object
  split at object
  · cases object
  · exact object

/-- Whether a value makes its field present: in a oneof every value does but an absent message, and
elsewhere every value but the default of the type. -/
def Marks (field : FieldPlan) (value : Value) : Prop :=
  match field.membership with
  | none => value ≠ defaultOf field
  | some _ => ¬ (field.field.type.isMessage = true ∧ value = .nil)

/-- The default of a type is stored as the value that stands for absence. -/
theorem toStored_defaultOf (field : FieldPlan) : toStored (defaultOf field) = absent field := by
  unfold defaultOf shown absent
  cases field.field.type with
  | scalar type => exact toStored_of_fitsScalar (fitsScalar_absentValue type)
  | reference kind name => cases kind <;> rfl

section

variable (wellFormed : plan.WellFormed) {value : Value}
  (accepts : Accepts plan self machine field value)
  (assigns : Assigns plan self field value machine final)
include wellFormed accepts assigns

/-- **A value makes its field present** unless it stands for absence. -/
theorem Assigns.present_iff :
    Present plan self final field ↔ Marks field value := by
  cases assigns with
  | outside outside _ stores _ =>
    rw [present_iff_of_outside outside, Marks, outside, stores]
    refine not_congr ⟨fun same => ?_, fun same => ?_⟩
    · rw [defaultOf, ← same, shown_toStored accepts]
    · rw [same, toStored_defaultOf]
  | @member oneof current position inside found _ moves _ _ =>
    obtain ⟨membership, member⟩ :=
      Option.isSome_iff_exists.mp (memberAt_presence wellFormed inside found).2.1
    rw [present_iff_of_member wellFormed inside found moves.selects, Marks, member, assignedCase]
    split
    · next absent =>
      refine iff_of_false ?_ (not_not.mpr absent)
      rw [markedCase, if_neg Bool.false_ne_true]
      split
      · rintro rfl
        cases found
      · next different => exact different
    · next there => exact iff_of_true rfl there

/-- **The property of a field shows the value that was written.** -/
theorem Assigns.shown_eq (inside : field ∈ plan.fields) (consistent : Consistent plan self machine) :
    shown field (stored self final field) = value := by
  have kept := assigns.consistent wellFormed consistent
  have stores : stored self final field = toStored value := by
    cases assigns with
    | outside _ _ stores _ => exact stores
    | @member oneof current position oneof_inside found selects moves stores content =>
      by_cases absent : field.field.type.isMessage = true ∧ value = .nil
      · -- An absent message clears the oneof, so the field stores nothing.
        have gone : ¬ Present plan self final field := by
          have assigns : Assigns plan self field value machine final :=
            .member oneof_inside found selects moves stores content
          obtain ⟨membership, member⟩ :=
            Option.isSome_iff_exists.mp (memberAt_presence wellFormed oneof_inside found).2.1
          rw [assigns.present_iff wellFormed accepts, Marks, member]
          exact not_not.mpr absent
        rw [stored_of_gone wellFormed inside kept gone, absent_of_isMessage absent.1, absent.2]
        rfl
      · exact stores fun message nil => absent ⟨message, nil⟩
  rw [stores, shown_toStored accepts]

end

/-! ### What is not written stays -/

/-- A field is neither the written one nor a member of its oneof. -/
def SeparateFrom (plan : ClassPlan) (field other : FieldPlan) : Prop :=
  other ≠ field ∧ ∀ oneof ∈ plan.oneofs, field ∈ oneof.members → other ∉ oneof.members

theorem mem_members_iff {oneof : OneofPlan} :
    field ∈ oneof.members ↔ ∃ position, memberAt oneof position = some field := by
  rw [List.mem_iff_getElem?]
  constructor
  · rintro ⟨position, found⟩
    exact ⟨position + 1, found⟩
  · rintro ⟨position, found⟩
    cases position with
    | zero => cases found
    | succ position => exact ⟨position, found⟩

/-- A field that stays what it is, with the oneof of which it is a member, stays present or absent. -/
theorem present_congr (keeps : Keeps self machine final field)
    (cases : ∀ oneof ∈ plan.oneofs, field ∈ oneof.members →
      final.fields self oneof.names.backing = machine.fields self oneof.names.backing) :
    Present plan self final field ↔ Present plan self machine field := by
  unfold Present
  split
  · rw [keeps.same]
  · refine exists_congr fun oneof => and_congr_right fun inside => exists_congr fun position =>
      and_congr_right fun found => ?_
    rw [cases oneof inside (mem_members_iff.mpr ⟨position, found⟩)]

/-- A field stays what it is, present or absent. -/
structure Stays (plan : ClassPlan) (owner : Address) (machine final : Machine Content Payload)
    (field : FieldPlan) : Prop where
  keeps : Keeps owner machine final field
  presence : Present plan owner final field ↔ Present plan owner machine field

theorem Touches.stays (touches : Touches plan self field machine final)
    (inside : other ∈ plan.fields) (separate : SeparateFrom plan field other) :
    Stays plan self machine final other := by
  have keeps := touches.keeps other inside separate.1
  exact ⟨keeps, present_congr keeps fun oneof oneof_inside _ => touches.cases oneof oneof_inside⟩

theorem Moves.stays {oneof : OneofPlan} {position index : Nat}
    (moves : Moves plan self oneof position machine final) (oneof_inside : oneof ∈ plan.oneofs)
    (found : memberAt oneof index = some field) (inside : other ∈ plan.fields)
    (separate : SeparateFrom plan field other) : Stays plan self machine final other := by
  have elsewhere : other ∉ oneof.members :=
    separate.2 oneof oneof_inside (mem_members_iff.mpr ⟨index, found⟩)
  have keeps : Keeps self machine final other := by
    refine moves.keeps other inside fun position here => elsewhere ?_
    exact mem_members_iff.mpr ⟨position, here⟩
  refine ⟨keeps, present_congr keeps fun second second_inside member => ?_⟩
  refine moves.cases second second_inside ?_
  rintro rfl
  exact elsewhere member

/-- A write to a field does not change fields outside its oneof. -/
theorem Assigns.stays {value : Value} (assigns : Assigns plan self field value machine final)
    (inside : other ∈ plan.fields) (separate : SeparateFrom plan field other) :
    Stays plan self machine final other := by
  cases assigns with
  | outside _ touches _ _ => exact touches.stays inside separate
  | member oneof_inside found _ moves _ _ => exact moves.stays oneof_inside found inside separate

/-- A field that is marked as absent does not change fields outside its oneof. -/
theorem Unmarks.stays (unmarks : Unmarks plan self field machine final)
    (inside : other ∈ plan.fields) (separate : SeparateFrom plan field other) :
    Stays plan self machine final other := by
  cases unmarks with
  | outside _ touches _ => exact touches.stays inside separate
  | member oneof_inside found _ moves _ => exact moves.stays oneof_inside found inside separate

/-- A field shows the same value and the same presence in two states, and the object that it shows has
one content in both. -/
structure Undisturbed (program : Program Content Payload) (owner : Address)
    (machine final : Machine Content Payload) (field : FieldPlan) : Prop where
  value : ∃ value, ShowsValue program owner machine field value ∧
    ShowsValue program owner final field value ∧
      ∀ address, value = .object address → final.objects address = machine.objects address
  presence : field.field.repeated = false → ∃ value,
    ShowsPresence program owner machine field value ∧ ShowsPresence program owner final field value

section

variable (implements : Implements program.code plan) (consistent : Consistent plan self machine)
include implements consistent

/-- A field that stays what it is shows the same as before. -/
theorem Stays.undisturbed (stays : Stays plan self machine final field)
    (kept : Consistent plan self final) (inside : field ∈ plan.fields) :
    Undisturbed program self machine final field := by
  refine ⟨⟨shown field (stored self machine field), ?_, ?_, fun address object => ?_⟩,
    fun single => ?_⟩
  · exact (showsValue_iff implements consistent inside).mpr rfl
  · rw [showsValue_iff implements kept inside, stays.keeps.same]
  · exact stays.keeps.objects address (object_of_shown object)
  · classical
    refine ⟨decide (Present plan self machine field), ?_, ?_⟩
    · rw [showsPresence_iff implements consistent inside single, decide_eq_true_iff]
    · rw [showsPresence_iff implements kept inside single, decide_eq_true_iff, stays.presence]

end

/-! ### Clearing -/

section

variable (implements : Implements program.code plan)
include implements

/-- Code that clears fields comes to its end only if their collections are there. -/
theorem collections_of_clear {frame next : Frame} {depth : Nat} (fields : List FieldPlan)
    (part : ∀ field ∈ fields, field ∈ plan.fields)
    (consistent : Consistent plan frame.self machine)
    (ran : (execAll program (invokeMethod program (depth + 2)) (fields.flatMap FieldPlan.clearBody)
      frame).on machine = (.ok next, final)) :
    ∀ field ∈ fields, field.field.repeated = true → stored frame.self machine field ≠ .nil := by
  have wellFormed := implements.wellFormed
  induction fields generalizing machine with
  | nil => exact fun _ impossible => absurd impossible List.not_mem_nil
  | cons first rest ih =>
    rw [List.forall_mem_cons] at part ⊢
    rw [List.flatMap_cons] at ran
    cases repeated : first.field.repeated with
    | false =>
      obtain ⟨middle, unmarked, unmarks⟩ := exec_unmark implements part.1 repeated consistent
      have first_ran : (execAll program (invokeMethod program (depth + 2)) first.clearBody
          frame).on machine = (.ok frame, middle) := by
        rw [FieldPlan.clearBody, if_neg (by simp [repeated]), unmarked depth]
      rw [execAll_append first_ran] at ran
      refine ⟨fun impossible => absurd impossible Bool.false_ne_true,
        fun field inside field_repeated => ?_⟩
      -- Collections are not members of oneofs, so the first field does not touch them.
      have separate : SeparateFrom plan first field := by
        refine ⟨?_, fun oneof oneof_inside _ member => ?_⟩
        · rintro rfl
          cases repeated.symm.trans field_repeated
        · obtain ⟨position, found⟩ := mem_members_iff.mp member
          cases (memberAt_presence wellFormed oneof_inside found).1.symm.trans field_repeated
      rw [← (unmarks.stays (part.2 field inside) separate).keeps.same]
      exact ih part.2 (unmarks.consistent wellFormed consistent) ran field inside field_repeated
    | true =>
      have alive := consistent.owns.alive part.1 (by rw [holdsObjects, repeated, Bool.true_or])
      rcases alive with nil | ⟨address, holds, isSome⟩
      · rw [execAll_append_error (execAll_clearMissing implements part.1 repeated nil)] at ran
        cases ran
      · obtain ⟨content, found⟩ := Option.isSome_iff_exists.mp isSome
        have touches := touches_setObject part.1 consistent.owns holds (program.library.clear content)
        rw [execAll_append (execAll_clearCollection implements part.1 repeated holds found)] at ran
        refine ⟨fun _ nil => ?_, fun field inside field_repeated => ?_⟩
        · cases nil.symm.trans holds
        · exact ih part.2 (touches.consistent wellFormed (wellFormed.repeated first part.1 repeated)
            consistent) ran field inside field_repeated

/-- **Clearing succeeds exactly if all collections are there**, and then all fields are cleared. -/
theorem settles_clear_iff (consistent : Consistent plan self machine) :
    ∃ outcome final, Settles (callMethod program self "Clear" []) machine outcome final ∧
      (outcome = .ok () ↔ Filled plan self machine) ∧
      (outcome = .ok () → Clears program.library plan self plan.fields machine final) := by
  obtain ⟨implementation, found, parameters, body⟩ := implements.clear
  by_cases filled : Filled plan self machine
  · obtain ⟨final, cleared, clears⟩ := invoke_clearOwnFields_filled implements consistent filled
    refine ⟨.ok (), final, settles_callMethod 4 fun depth => invokeMethod_bare found ?_,
      iff_of_true rfl filled, fun _ => clears⟩
    rw [body]
    exact execAll_clearMethod implements (cleared depth)
  · obtain ⟨ownImplementation, ownFound, ownParameters, ownBody⟩ := implements.clearOwnFields
    have start : Consistent plan (Frame.mk self []).self machine := consistent
    obtain ⟨outcome, final, ran, ends⟩ := execAll_clear implements plan.fields (fun _ => id) start
    rcases ends.proper with rfl | ⟨exceptionType, text, rfl⟩
    · exact absurd (collections_of_clear implements plan.fields (fun _ => id) start (ran 0)) filled
    · refine ⟨.error (.raised exceptionType text), final, .of_forall 4 fun depth => ?_,
        iff_of_false (by simp) filled, fun impossible => absurd impossible (by simp)⟩
      have body_failed : (execAll program (invokeMethod program (depth + 2)) ownImplementation.body
          (Frame.mk self [])).on machine = (.error (.raised exceptionType text), final) := by
        rw [ownBody]
        exact ran depth
      have failed := invokeMethod_of_exec found (List.zip_nil_right ..) (body ▸
        execAll_clearMethod implements (invokeMethod_of_exec ownFound (List.zip_nil_right ..)
          body_failed))
      exact Run.on_bind_error failed

end

/-- An instance shows no values: its fields show defaults and are not present, its oneofs show that
nothing is selected, and its collections are empty. -/
structure ShowsNothing (program : Program Content Payload) (plan : ClassPlan)
    (IsEmpty : Content → Prop) (owner : Address) (machine : Machine Content Payload) : Prop where
  values : ∀ field ∈ plan.fields, field.field.repeated = false →
    ShowsValue program owner machine field (defaultOf field) ∧
      ShowsPresence program owner machine field false
  cases : ∀ oneof ∈ plan.oneofs, ShowsCase program owner machine oneof 0
  collections : ∀ field ∈ plan.fields, field.field.repeated = true → ∃ address content,
    ShowsValue program owner machine field (.object address) ∧
      machine.objects address = some content ∧ IsEmpty content

/-- An instance without present fields shows no values. -/
theorem showsNothing_of_gone (implements : Implements program.code plan)
    (consistent : Consistent plan self machine) {IsEmpty : Content → Prop}
    (gone : ∀ field ∈ plan.fields, field.field.repeated = false →
      ¬ Present plan self machine field)
    (emptied : ∀ field ∈ plan.fields, field.field.repeated = true → ∃ content,
      seen machine (stored self machine field) = .content (some content) ∧ IsEmpty content) :
    ShowsNothing program plan IsEmpty self machine := by
  have wellFormed := implements.wellFormed
  refine ⟨fun field inside single => ?_, fun oneof inside => ?_, fun field inside repeated => ?_⟩
  · have missing := gone field inside single
    exact ⟨showsValue_of_gone implements consistent inside missing,
      showsPresence_of_gone implements consistent inside single missing⟩
  · obtain ⟨position, selects⟩ := consistent.selects oneof inside
    cases position with
    | zero => exact selects.showsCase implements inside
    | succ position =>
      -- A oneof that selects a member has one that is present.
      have found : memberAt oneof (position + 1) = some _ := List.getElem?_eq_getElem selects.bound
      have present := (present_iff_of_member wellFormed inside found selects).mpr rfl
      exact absurd present (gone _ (memberAt_mem wellFormed inside found)
        (memberAt_presence wellFormed inside found).1)
  · obtain ⟨content, shows, empty⟩ := emptied field inside repeated
    cases holds : stored self machine field with
    | object address =>
      rw [holds] at shows
      refine ⟨address, content, ?_, Seen.content.inj shows, empty⟩
      have alive := consistent.owns.alive inside (by rw [holdsObjects, repeated, Bool.true_or])
      rw [showsValue_iff implements consistent inside, shown_of_isAlive alive, holds]
    | _ =>
      rw [holds] at shows
      cases shows

/-! ### Writes -/

/-- What writes to the properties of a field that is not repeated do. -/
structure FollowsWrites (program : Program Content Payload) (plan : ClassPlan) (owner : Address)
    (machine : Machine Content Payload) (field : FieldPlan) : Prop where
  /-- The property shows the value that is written to it, and an object keeps its content. -/
  write : ∀ value, Accepts plan owner machine field value → ∃ final present,
    Settles ((Operation.write field value).run program owner) machine (.ok ()) final ∧
      ShowsValue program owner final field value ∧
      (∀ address, value = .object address → final.objects address = machine.objects address) ∧
      ShowsPresence program owner final field present ∧ (present = true ↔ Marks field value) ∧
      ∀ other ∈ plan.fields, SeparateFrom plan field other →
        Undisturbed program owner machine final other
  /-- A field that is marked as absent shows its default. -/
  unmark : ∃ final,
    Settles ((Operation.mark field false).run program owner) machine (.ok ()) final ∧
      ShowsValue program owner final field (defaultOf field) ∧
      ShowsPresence program owner final field false ∧
      ∀ other ∈ plan.fields, SeparateFrom plan field other →
        Undisturbed program owner machine final other
  /-- Outside oneofs an absent field cannot be marked as present. -/
  refuse : field.membership = none → ShowsPresence program owner machine field false →
    ∃ text, Settles ((Operation.mark field true).run program owner) machine
      (.error (.raised "EProtobufInvalidOperation" text)) machine
  /-- A oneof selects an absent member that is marked as present, with a new value. -/
  select : ShowsPresence program owner machine field false → ∀ oneof ∈ plan.oneofs,
    ∀ position, memberAt oneof position = some field → ∃ final,
      Settles ((Operation.mark field true).run program owner) machine (.ok ()) final ∧
        ShowsCase program owner final oneof position ∧
        (field.field.type.isMessage = false →
          ShowsValue program owner final field (defaultOf field)) ∧
        (field.field.type.isMessage = true → ∃ address,
          ShowsValue program owner final field (.object address) ∧
            machine.objects address = none ∧
            final.objects address = some (program.library.create field.support.publicType)) ∧
        ∀ other ∈ plan.fields, SeparateFrom plan field other →
          Undisturbed program owner machine final other
  /-- A present field that is marked as present stays what it is. -/
  keep : ShowsPresence program owner machine field true →
    Settles ((Operation.mark field true).run program owner) machine (.ok ()) machine

/-- The message that a oneof makes for a member has the content of a new one. -/
theorem objects_choose_new {library : Library Content Payload} {oneof : OneofPlan} {old new : Nat}
    (found : memberAt oneof new = some field) (message : field.field.type.isMessage = true)
    (different : old ≠ new) :
    (choose self machine library oneof old new).objects machine.fresh =
      some (library.create field.support.publicType) := by
  have fresh : (putCase self (leave self machine oneof old) oneof new).fresh = machine.fresh := by
    rw [putCase, Machine.fresh_store, fresh_leave]
  rw [choose, if_neg different, enter, found, Option.elim_some, renew, if_pos message, putNew,
    objects_put, ← fresh, Machine.objects_allocate_fresh]

section

variable (implements : Implements program.code plan) (consistent : Consistent plan self machine)
  (inside : field ∈ plan.fields) (single : field.field.repeated = false)
include implements consistent inside single

theorem settles_write_shows {value : Value} (accepts : Accepts plan self machine field value) :
    ∃ final present,
      Settles ((Operation.write field value).run program self) machine (.ok ()) final ∧
        ShowsValue program self final field value ∧
        (∀ address, value = .object address → final.objects address = machine.objects address) ∧
        ShowsPresence program self final field present ∧ (present = true ↔ Marks field value) ∧
        ∀ other ∈ plan.fields, SeparateFrom plan field other →
          Undisturbed program self machine final other := by
  have wellFormed := implements.wellFormed
  obtain ⟨final, written, assigns⟩ := invoke_setter implements inside consistent accepts
  have kept := assigns.consistent wellFormed consistent
  classical
  refine ⟨final, decide (Marks field value),
    settles_writeProperty (implements.property inside) 3 written, ?_, ?_, ?_, decide_eq_true_iff,
    fun other other_inside separate =>
      (assigns.stays other_inside separate).undisturbed implements consistent kept other_inside⟩
  · rw [showsValue_iff implements kept inside, assigns.shown_eq wellFormed accepts inside consistent]
  · rintro address rfl
    exact assigns.objects
  · rw [showsPresence_iff implements kept inside single, decide_eq_true_iff,
      assigns.present_iff wellFormed accepts]

theorem settles_unmark_shows :
    ∃ final, Settles ((Operation.mark field false).run program self) machine (.ok ()) final ∧
      ShowsValue program self final field (defaultOf field) ∧
      ShowsPresence program self final field false ∧
      ∀ other ∈ plan.fields, SeparateFrom plan field other →
        Undisturbed program self machine final other := by
  have wellFormed := implements.wellFormed
  obtain ⟨presence, present⟩ := exists_presence wellFormed inside single
  obtain ⟨final, written, unmarks⟩ :=
    invoke_presenceSetter_false implements inside present consistent
  have kept := unmarks.consistent wellFormed consistent
  have gone := unmarks.gone wellFormed
  refine ⟨final, ?_, showsValue_of_gone implements kept inside gone,
    showsPresence_of_gone implements kept inside single gone, fun other other_inside separate =>
      (unmarks.stays other_inside separate).undisturbed implements consistent kept other_inside⟩
  rw [Operation.run, FieldPlan.presenceName, present]
  exact settles_writeProperty (implements.presenceProperty inside present) 2 written

/-- A field outside oneofs is marked as present only if it is so. -/
theorem settles_mark_outside (outside : field.membership = none) :
    (¬ Present plan self machine field → ∃ text,
      Settles ((Operation.mark field true).run program self) machine
        (.error (.raised "EProtobufInvalidOperation" text)) machine) ∧
      (Present plan self machine field →
        Settles ((Operation.mark field true).run program self) machine (.ok ()) machine) := by
  obtain ⟨presence, present⟩ := exists_presence implements.wellFormed inside single
  have property := implements.presenceProperty inside present
  have written (depth : Nat) :=
    invoke_presenceSetter implements inside depth present outside consistent.owns true
  rw [if_pos rfl] at written
  rw [Operation.run, FieldPlan.presenceName, present, present_iff_of_outside outside, not_not]
  refine ⟨fun same => ?_, fun there => ?_⟩
  · simp only [if_pos same] at written
    exact ⟨_, settles_writeProperty_error property 2 written⟩
  · simp only [if_neg there] at written
    exact settles_writeProperty property 2 written

omit inside single in
theorem settles_mark_member {oneof : OneofPlan} (oneof_inside : oneof ∈ plan.oneofs)
    {current position : Nat} (found : memberAt oneof position = some field)
    (selects : Selects self machine oneof current) :
    Settles ((Operation.mark field true).run program self) machine (.ok ())
      (Execution.choose self machine program.library oneof current position) := by
  have inside := memberAt_mem implements.wellFormed oneof_inside found
  obtain ⟨-, -, presence, present⟩ := memberAt_presence implements.wellFormed oneof_inside found
  rw [Operation.run, FieldPlan.presenceName, present]
  exact settles_writeProperty (implements.presenceProperty inside present) 2 fun depth =>
    invoke_presenceSetter_member implements oneof_inside depth found present consistent.owns selects
      true

/-- **Properties follow the writes of a client.** -/
theorem followsWrites : FollowsWrites program plan self machine field := by
  have wellFormed := implements.wellFormed
  have gone (shows : ShowsPresence program self machine field false) :
      ¬ Present plan self machine field := fun present =>
    Bool.false_ne_true (((showsPresence_iff implements consistent inside single).mp shows).mpr present)
  refine ⟨fun value => settles_write_shows implements consistent inside single,
    settles_unmark_shows implements consistent inside single, fun outside shows =>
      (settles_mark_outside implements consistent inside single outside).1 (gone shows), ?_, ?_⟩
  · intro shows oneof oneof_inside position found
    obtain ⟨current, selects⟩ := consistent.selects oneof oneof_inside
    have different : current ≠ position := fun same =>
      gone shows ((present_iff_of_member wellFormed oneof_inside found selects).mpr same)
    have moves : Moves plan self oneof position machine
        (Execution.choose self machine program.library oneof current position) :=
      moves_choose wellFormed oneof_inside consistent.owns selects (memberAt_bound found)
    have kept := moves.consistent wellFormed oneof_inside consistent
    have stores : stored self (Execution.choose self machine program.library oneof current position)
        field = if field.field.type.isMessage then .object machine.fresh else absent field :=
      stored_choose_new found different
    refine ⟨_, settles_mark_member implements consistent oneof_inside found selects,
      moves.selects.showsCase implements oneof_inside, fun plain => ?_, fun message => ?_,
      fun other other_inside separate =>
        (moves.stays oneof_inside found other_inside separate).undisturbed implements consistent kept
          other_inside⟩
    · rw [showsValue_iff implements kept inside, stores, plain, if_neg Bool.false_ne_true, defaultOf]
    · refine ⟨machine.fresh, ?_, ?_, objects_choose_new found message different⟩
      · rw [showsValue_iff implements kept inside, stores, if_pos message, shown_object]
      · by_contra known
        exact Nat.lt_irrefl _ (consistent.owns.below _ (Option.isSome_iff_ne_none.mpr known))
  · intro shows
    have present := ((showsPresence_iff implements consistent inside single).mp shows).mp rfl
    rcases outside_or_member wellFormed inside with outside | ⟨oneof, oneof_inside, position, found⟩
    · exact (settles_mark_outside implements consistent inside single outside).2 present
    · obtain ⟨current, selects⟩ := consistent.selects oneof oneof_inside
      have same := (present_iff_of_member wellFormed oneof_inside found selects).mp present
      have settles := settles_mark_member implements consistent oneof_inside found selects
      rwa [Execution.choose, if_pos same] at settles

end

/-- States that are reached by some operations are reached by more of them. -/
theorem Reachable.mono {allowed permissive : Operation → Prop}
    (more : ∀ operation, allowed operation → permissive operation)
    (reachable : Reachable program plan self allowed machine) :
    Reachable program plan self permissive machine := by
  induction reachable with
  | created new ends => exact .created new ends
  | operated _ allows permitted ends ih => exact .operated ih (more _ allows) permitted ends
  | elsewhere _ elsewhere ih => exact .elsewhere ih elsewhere

/-- **Presence follows the writes of a client.** A new instance shows no values, and neither does one
that has been cleared. Clearing succeeds exactly if all collections are there, as they are if no
operation has taken one away. In every state that an instance reaches, each property of a field that
is not repeated shows what is written to it, its presence property tells whether that is a value, and
no field outside its oneof is disturbed. -/
theorem presence_follows_writes {program : Program Content Payload} {message : MessageType}
    {plan : ClassPlan} (generated : Generated message program.code plan) (IsEmpty : Content → Prop)
    (empties : ∀ content, IsEmpty (program.library.clear content)) (self : Address)
    (allowed : Operation → Prop) :
    plan.fields.map FieldPlan.field = message.fields ∧
      plan.oneofs.map (fun oneof => oneof.members.map FieldPlan.field) =
        (List.range message.oneofs.length).map message.oneofMembers ∧
      (∀ start, IsNew plan self start → ∃ machine,
        Settles (callMethod program self "Create" []) start (.ok ()) machine ∧
          ShowsNothing program plan IsEmpty self machine) ∧
      ∀ machine, Reachable program plan self allowed machine →
        (∃ outcome final, Settles (callMethod program self "Clear" []) machine outcome final ∧
          (outcome = .ok () ↔ Filled plan self machine) ∧
          (outcome = .ok () → ShowsNothing program plan IsEmpty self final)) ∧
        ((∀ operation, allowed operation → operation.SparesCollections) →
          Filled plan self machine) ∧
        ∀ field ∈ plan.fields, field.field.repeated = false →
          FollowsWrites program plan self machine field := by
  have implements := generated.implements
  refine ⟨generated.members.1, generated.members.2, fun start new => ?_,
    fun machine reachable => ⟨?_, ?_, ?_⟩⟩
  · obtain ⟨final, created, vacant⟩ := invoke_create_vacant implements new
    refine ⟨final, settles_callMethod 4 created, showsNothing_of_gone implements vacant.consistent
      vacant.gone fun field inside repeated => ?_⟩
    exact ⟨_, vacant.collections field inside repeated, empties _⟩
  · have consistent := reachable.consistent implements
    obtain ⟨outcome, final, settles, succeeds_iff, clears⟩ := settles_clear_iff implements consistent
    refine ⟨outcome, final, settles, succeeds_iff, fun succeeds => ?_⟩
    have cleared := clears succeeds
    refine showsNothing_of_gone implements cleared.consistent cleared.gone
      fun field inside repeated => ?_
    obtain ⟨address, content, holds, alive⟩ :=
      Sound.collection ⟨consistent, succeeds_iff.mp succeeds⟩ inside repeated
    refine ⟨_, cleared.emptied field inside repeated content ?_, empties _⟩
    rw [holds, seen, alive]
  · exact fun spares => (reachable.mono spares).filled implements
  · exact fun field inside single =>
      followsWrites implements (reachable.consistent implements) inside single

/-- A new instance of the sample class shows no values, and then it shows the number that is written to
a member of its oneof. -/
theorem sample_presence_follows_writes :
    ∃ (program : Program (List Value) (Value × List Value)) (plan : ClassPlan) (field : FieldPlan)
      (machine final : Machine (List Value) (Value × List Value)),
      Generated sampleMessage program.code plan ∧ field ∈ plan.fields ∧
        field.field.name = "count" ∧ Reachable program plan 0 (fun _ => True) machine ∧
        ShowsNothing program plan (· = []) 0 machine ∧
        Settles ((Operation.write field (.integer 5)).run program 0) machine (.ok ()) final ∧
        ShowsValue program 0 final field (.integer 5) ∧ ShowsPresence program 0 final field true := by
  obtain ⟨code, plan, generated, -⟩ := sample_generated
  let program : Program (List Value) (Value × List Value) := ⟨code, .transparent⟩
  have ofProgram : Generated sampleMessage program.code plan := generated
  obtain ⟨fields_eq, -, creates, follows⟩ := presence_follows_writes ofProgram (· = [])
    (fun _ => rfl) 0 fun _ => True
  obtain ⟨field, inside, is⟩ : ∃ field ∈ plan.fields, field.field =
      { name := "count", number := 1, type := .scalar .int32, oneofIndex := some 0 } :=
    List.mem_map.mp (fields_eq ▸ List.mem_cons_self ..)
  obtain ⟨machine, created, shows⟩ := creates _ (isNew_zeroed generated.implements.wellFormed 0)
  have reachable : Reachable program plan 0 (fun _ => True) machine :=
    .created (isNew_zeroed generated.implements.wellFormed 0) created
  have single : field.field.repeated = false := by rw [is]
  have accepts : Accepts plan 0 machine field (.integer 5) := by
    rw [Accepts, holdsObjects, is]
    exact ⟨by decide, by decide⟩
  have marks : Marks field (.integer 5) := by
    unfold Marks defaultOf shown absent
    rw [is]
    split
    · exact fun same => by cases same
    · exact fun impossible => by cases impossible.2
  obtain ⟨final, present, settles, value, -, presence, present_iff, -⟩ :=
    ((follows machine reachable).2.2 field inside single).write _ accepts
  cases present_iff.mpr marks
  exact ⟨program, plan, field, machine, final, ofProgram, inside, by rw [is], reachable, shows,
    settles, value, presence⟩

end ProtoPascal.Execution
