import ProtoPascal.Proofs.Execution.Accessors

/-!
The life of an instance: how it is cleared and how it is created.

* `invoke_clear`: clearing ends in a consistent state, and raises an exception only if a collection
  is missing;
* `invoke_create`: an instance whose memory is zero is created with all its collections, in a
  consistent state.
-/

namespace ProtoPascal.Execution

open Message
open Pascal

variable {Content Payload α β : Type} {program : Program Content Payload} {plan : ClassPlan}
  (implements : Implements program.code plan) {frame : Frame} {self : Address}
  {machine middle final : Machine Content Payload} {field : FieldPlan}

/-- How code that treats all fields may end: it gives its result or raises an exception, and the
state is consistent. If all collections are there, it gives its result and they stay there. -/
structure Ends (plan : ClassPlan) (owner : Address) (result : α)
    (machine : Machine Content Payload) (outcome : Except Fault α)
    (final : Machine Content Payload) : Prop where
  proper : outcome = .ok result ∨
    ∃ exceptionType text, outcome = .error (.raised exceptionType text)
  consistent : Consistent plan owner final
  filled : Filled plan owner machine → outcome = .ok result ∧ Filled plan owner final

theorem Ends.ok {result : α} (consistent : Consistent plan self final)
    (filled : Filled plan self machine → Filled plan self final) :
    Ends plan self result machine (.ok result) final :=
  ⟨.inl rfl, consistent, fun before => ⟨rfl, filled before⟩⟩

theorem Ends.map {result : α} {outcome : Except Fault α} (image : α → β)
    (ends : Ends plan self result machine outcome final) :
    Ends plan self (image result) machine (outcome.map image) final := by
  refine ⟨?_, ends.consistent, fun before => ?_⟩
  · rcases ends.proper with rfl | ⟨exceptionType, text, rfl⟩
    · exact .inl rfl
    · exact .inr ⟨exceptionType, text, rfl⟩
  · obtain ⟨rfl, after⟩ := ends.filled before
    exact ⟨rfl, after⟩

/-- A procedure without parameters ends as its body ends. -/
theorem Ends.procedure {outcome : Except Fault Frame}
    (ends : Ends plan self (Frame.mk self []) machine outcome final) :
    Ends plan self Value.nil machine (outcome.map fun last => (last.read? "Result").getD .nil)
      final := by
  have other : Text.sameLetters "Result" "Self" = false := by decide
  have nothing : ((Frame.mk self []).read? "Result").getD .nil = .nil := by
    simp [Frame.read?, other]
  have mapped := ends.map fun last => (last.read? "Result").getD .nil
  rwa [nothing] at mapped

/-! ### Clearing -/

include implements in
theorem execAll_clearCollection {call : Caller Content Payload} (inside : field ∈ plan.fields)
    (repeated : field.field.repeated = true) {address : Address} {content : Content}
    (holds : stored frame.self machine field = .object address)
    (alive : machine.objects address = some content) :
    (execAll program call field.clearBody frame).on machine =
      (.ok frame, machine.setObject address (some (program.library.clear content))) := by
  have cleared : (useValue program.library (stored frame.self machine field) "Clear" []).on machine =
      (.ok .nil, machine.setObject address (some (program.library.clear content))) := by
    rw [holds, useValue, Run.on_bind, Run.on_look, alive]
    rfl
  rw [FieldPlan.clearBody, if_pos repeated, execAll_singleton]
  exact exec_invoke ((eval_invoke (eval_backing implements inside)
    (by rw [evalAll_nil, Run.on_pure])).trans cleared)

include implements in
/-- A collection that is missing cannot be cleared. -/
theorem execAll_clearMissing {call : Caller Content Payload} (inside : field ∈ plan.fields)
    (repeated : field.field.repeated = true) (nil : stored frame.self machine field = .nil) :
    (execAll program call field.clearBody frame).on machine =
      (.error (.raised "EAccessViolation" "Access violation"), machine) := by
  rw [FieldPlan.clearBody, if_pos repeated, execAll_singleton]
  refine exec_invoke_error ((eval_invoke (eval_backing implements inside)
    (by rw [evalAll_nil, Run.on_pure])).trans ?_)
  rw [nil]
  rfl

include implements in
theorem execAll_clearBody (inside : field ∈ plan.fields)
    (consistent : Consistent plan frame.self machine) :
    ∃ outcome final, (∀ depth, (execAll program (invokeMethod program (depth + 2)) field.clearBody
      frame).on machine = (outcome, final)) ∧
        Ends plan frame.self frame machine outcome final := by
  have wellFormed := implements.wellFormed
  have owns := consistent.owns
  cases repeated : field.field.repeated with
  | false =>
    obtain ⟨final, ran, unmarks⟩ := exec_unmark implements inside repeated consistent
    refine ⟨.ok frame, final, fun depth => ?_, .ok (unmarks.consistent wellFormed consistent)
      (unmarks.filled wellFormed repeated)⟩
    rw [FieldPlan.clearBody, if_neg (by simp [repeated]), ran depth]
  | true =>
    have alive := owns.alive inside (by rw [holdsObjects, repeated, Bool.true_or])
    rcases alive with nil | ⟨address, object, isSome⟩
    · exact ⟨_, machine, fun depth => execAll_clearMissing implements inside repeated nil,
        .inr ⟨_, _, rfl⟩, consistent, fun filled => absurd nil (filled field inside repeated)⟩
    · obtain ⟨content, found⟩ := Option.isSome_iff_exists.mp isSome
      have touches := touches_setObject inside owns object (program.library.clear content)
      have outside := wellFormed.repeated field inside repeated
      exact ⟨.ok frame, _, fun depth =>
        execAll_clearCollection implements inside repeated object found,
        .ok (touches.consistent wellFormed outside consistent)
          fun filled => touches.filled filled fun _ => object.trans_ne Value.noConfusion⟩

include implements in
theorem execAll_clear (fields : List FieldPlan) (inside : ∀ field ∈ fields, field ∈ plan.fields)
    (consistent : Consistent plan frame.self machine) :
    ∃ outcome final, (∀ depth, (execAll program (invokeMethod program (depth + 2))
      (fields.flatMap FieldPlan.clearBody) frame).on machine = (outcome, final)) ∧
        Ends plan frame.self frame machine outcome final := by
  induction fields generalizing machine with
  | nil => exact ⟨.ok frame, machine, fun _ => by rw [List.flatMap_nil, execAll_nil, Run.on_pure],
      .ok consistent id⟩
  | cons field rest ih =>
    obtain ⟨first, middle, first_ran, first_ends⟩ :=
      execAll_clearBody implements (inside field (List.mem_cons_self ..)) consistent
    rcases first_ends.proper with rfl | ⟨exceptionType, text, rfl⟩
    · obtain ⟨outcome, final, ran, ends⟩ :=
        ih (fun other later => inside other (List.mem_cons_of_mem _ later)) first_ends.consistent
      refine ⟨outcome, final, fun depth => ?_, ends.proper, ends.consistent,
        fun filled => ends.filled (first_ends.filled filled).2⟩
      rw [List.flatMap_cons, execAll_append (first_ran depth), ran depth]
    · refine ⟨_, middle, fun depth => ?_, first_ends⟩
      rw [List.flatMap_cons, execAll_append_error (first_ran depth)]

include implements in
/-- **The own fields of an instance are cleared.** -/
theorem invoke_clearOwnFields (consistent : Consistent plan self machine) :
    ∃ outcome final, (∀ depth, (invokeMethod program (depth + 3) self "ClearOwnFields" []).on machine =
      (outcome, final)) ∧ Ends plan self Value.nil machine outcome final := by
  obtain ⟨implementation, found, parameters, body⟩ := implements.clearOwnFields
  have start : Consistent plan (Frame.mk self []).self machine := consistent
  obtain ⟨outcome, final, ran, ends⟩ :=
    execAll_clear implements plan.fields (fun _ inside => inside) start
  refine ⟨_, final, fun depth => ?_, ends.procedure⟩
  exact invokeMethod_of_exec found (List.zip_nil_right ..) (body ▸ ran depth)

include implements in
/-- An instance is cleared by its ancestor, which has nothing to do, and then its own fields are. -/
theorem execAll_clearMethod {outcome : Except Fault Value} {depth : Nat}
    (ran : (invokeMethod program (depth + 3) self "ClearOwnFields" []).on machine =
      (outcome, final)) :
    (execAll program (invokeMethod program (depth + 3))
      [inheritCall "Clear" [], callOwn "ClearOwnFields" []] { self, locals := [] }).on machine =
        (outcome.map fun _ => { self, locals := [] }, final) := by
  obtain ⟨_, ownFound, -⟩ := implements.clearOwnFields
  have inherited : (exec program (invokeMethod program (depth + 3)) (inheritCall "Clear" [])
      { self, locals := [] }).on machine = (.ok { self, locals := [] }, machine) :=
    exec_inheritCall (by rw [evalAll_nil, Run.on_pure]) rfl
  rw [execAll_cons inherited, execAll_singleton]
  exact exec_callOwn ownFound ran

include implements in
/-- **An instance is cleared.** -/
theorem invoke_clear (consistent : Consistent plan self machine) :
    ∃ outcome final, (∀ depth, (invokeMethod program (depth + 4) self "Clear" []).on machine =
      (outcome, final)) ∧ Ends plan self Value.nil machine outcome final := by
  obtain ⟨implementation, found, parameters, body⟩ := implements.clear
  obtain ⟨outcome, final, ran, ends⟩ := invoke_clearOwnFields implements consistent
  exact ⟨_, final, fun depth => invokeMethod_of_exec found (List.zip_nil_right ..)
    (body ▸ execAll_clearMethod implements (ran depth)),
    (ends.map fun _ => Frame.mk self []).procedure⟩

/-! ### Creation -/

/-- A new instance, whose memory is zero. -/
structure IsNew (plan : ClassPlan) (owner : Address) (machine : Machine Content Payload) :
    Prop where
  below : ∀ address, (machine.objects address).isSome = true → address < machine.fresh
  fields : ∀ field ∈ plan.fields, stored owner machine field =
    if field.field.repeated then .nil else absent field
  cases : ∀ oneof ∈ plan.oneofs, machine.fields owner oneof.names.backing = caseAt oneof 0

/-- The value of a field of a new instance. -/
def zeroOf (plan : ClassPlan) (name : String) : Value :=
  match plan.fields.find? fun field => field.names.backing == name with
  | some field => if field.field.repeated then .nil else absent field
  | none =>
    match plan.oneofs.find? fun oneof => oneof.names.backing == name with
    | some oneof => caseAt oneof 0
    | none => .nil

/-- The machine without objects, on which every instance is new. -/
def zeroed (plan : ClassPlan) : Machine Content Payload where
  fields _ name := zeroOf plan name
  objects _ := none
  fresh := 0
  streams _ := []
  unparsed _ := []

theorem isNew_zeroed (wellFormed : plan.WellFormed) (self : Address) :
    IsNew plan self (zeroed plan : Machine Content Payload) := by
  refine ⟨fun address impossible => ?_, fun field inside => ?_, fun oneof inside => ?_⟩
  · cases impossible
  · have found : (plan.fields.find? fun other => other.names.backing == field.names.backing) =
        some field := by
      refine find?_eq_some_of_unique inside (beq_self_eq_true _) fun other other_inside same => ?_
      by_contra different
      exact field_backing_ne wellFormed other_inside inside different (beq_iff_eq.mp same)
    show zeroOf plan field.names.backing = _
    rw [zeroOf, found]
  · have notField : (plan.fields.find? fun field => field.names.backing == oneof.names.backing) =
        none := by
      refine List.find?_eq_none.mpr fun field field_inside same => ?_
      exact field_oneof_backing_ne wellFormed field_inside inside (beq_iff_eq.mp same)
    have found : (plan.oneofs.find? fun other => other.names.backing == oneof.names.backing) =
        some oneof := by
      refine find?_eq_some_of_unique inside (beq_self_eq_true _) fun other other_inside same => ?_
      by_contra different
      exact oneof_backing_ne wellFormed other_inside inside different (beq_iff_eq.mp same)
    show zeroOf plan oneof.names.backing = _
    rw [zeroOf, notField, found]

/-- An instance whose oneofs select nothing. -/
structure Blank (plan : ClassPlan) (owner : Address) (machine : Machine Content Payload) :
    Prop where
  owns : Owns plan owner machine
  selects : ∀ oneof ∈ plan.oneofs, Selects owner machine oneof 0

theorem Blank.consistent (blank : Blank plan self machine) : Consistent plan self machine :=
  ⟨blank.owns, fun oneof inside => ⟨0, blank.selects oneof inside⟩⟩

theorem IsNew.ne_object (new : IsNew plan self machine) (inside : field ∈ plan.fields)
    (address : Address) : stored self machine field ≠ .object address := by
  intro object
  rw [new.fields field inside] at object
  split at object
  · cases object
  · exact absent_ne_object field address object

theorem IsNew.blank (wellFormed : plan.WellFormed) (new : IsNew plan self machine) :
    Blank plan self machine := by
  refine ⟨⟨new.below, ?_, ?_⟩, fun oneof inside => ⟨Nat.zero_le _, new.cases oneof inside, ?_, ?_⟩⟩
  · intro field inside
    rw [new.fields field inside]
    cases repeated : field.field.repeated with
    | true => rw [if_pos rfl, Fits, holdsObjects, repeated, Bool.true_or]; exact .inl rfl
    | false => exact fits_absent repeated
  · intro field inside _ _ address object
    exact absurd object (new.ne_object inside address)
  · intro field found
    cases found
  · intro position field found _
    rw [new.fields field (memberAt_mem wellFormed inside found),
      (memberAt_presence wellFormed inside found).1, if_neg Bool.false_ne_true]

/-- A field holds an object with a given content. -/
def HoldsContent (self : Address) (machine : Machine Content Payload) (field : FieldPlan)
    (content : Content) : Prop :=
  ∃ address, stored self machine field = .object address ∧ machine.objects address = some content

theorem Keeps.holdsContent (keeps : Keeps self machine final field) {content : Content}
    (holds : HoldsContent self machine field content) : HoldsContent self final field content := by
  obtain ⟨address, object, alive⟩ := holds
  exact ⟨address, keeps.same.trans object, (keeps.objects address object).trans alive⟩

/-- An instance has all its collections if their contents are known. -/
theorem filled_of_holdsContent {contentOf : FieldPlan → Content}
    (collections : ∀ field ∈ plan.fields, field.field.repeated = true →
      HoldsContent self machine field (contentOf field)) : Filled plan self machine := by
  intro field inside repeated nil
  obtain ⟨address, object, -⟩ := collections field inside repeated
  cases nil.symm.trans object

include implements in
/-- A statement of the constructor for a field or a oneof. It makes the collection of a repeated
field, and leaves all other fields and the oneofs as they are. -/
theorem exec_createStatement {statement : Statement Action Expr}
    (inside : statement ∈ plan.flatMapSlots FieldPlan.createBody OneofPlan.createBody)
    (blank : Blank plan frame.self machine) :
    ∃ final, (∀ call, (exec program call statement frame).on machine = (.ok frame, final)) ∧
      Blank plan frame.self final ∧
      (∀ field ∈ plan.fields, field.field.repeated = false →
        stored frame.self final field = stored frame.self machine field) ∧
      ∀ field ∈ plan.fields, field.field.repeated = true →
        HoldsContent frame.self machine field (program.library.create field.internalType) ∨
          statement ∈ field.createBody →
            HoldsContent frame.self final field (program.library.create field.internalType) := by
  have wellFormed := implements.wellFormed
  rcases exists_of_mem_flatMapSlots inside with
    ⟨field, field_inside, part⟩ | ⟨oneof, oneof_inside, part⟩
  · unfold FieldPlan.createBody at part
    split at part
    · next repeated =>
      have outside := wellFormed.repeated field field_inside repeated
      have touches := touches_putNew wellFormed field_inside blank.owns
        (by rw [holdsObjects, repeated, Bool.true_or])
        (program.library.create field.internalType)
      rw [List.mem_singleton] at part
      subst part
      refine ⟨_, fun call => exec_put implements field_inside eval_create,
        ⟨touches.owns, fun oneof oneof_inside =>
          touches.selects wellFormed outside oneof_inside (blank.selects oneof oneof_inside)⟩,
        ?_, ?_⟩
      · intro other other_inside single
        refine (touches.keeps other other_inside ?_).same
        rintro rfl
        rw [repeated] at single
        cases single
      · intro other other_inside other_repeated there
        by_cases same : other = field
        · subst same
          exact ⟨machine.fresh, stored_put_same .., by
            rw [objects_put, Machine.objects_allocate_fresh]⟩
        · refine (touches.keeps other other_inside same).holdsContent
            (there.resolve_right fun again => ?_)
          rw [FieldPlan.createBody, if_pos other_repeated, List.mem_singleton] at again
          simp only [assign, FieldPlan.backing, Statement.simple.injEq, Action.assign.injEq,
            Expr.own.injEq] at again
          exact field_backing_ne wellFormed field_inside other_inside (Ne.symm same) again.1
    · cases part
  · rw [OneofPlan.createBody, List.mem_singleton] at part
    subst part
    have unchanged : machine.store frame.self oneof.names.backing (caseAt oneof 0) = machine :=
      machine.store_eq_self _ _ _ (blank.selects oneof oneof_inside).backing
    refine ⟨machine, fun call => ?_, blank, fun _ _ _ => rfl,
      fun field field_inside repeated there => ?_⟩
    · rw [OneofNames.qualify, exec_putCase implements oneof_inside
        (eval_enumValue (implements.noneValue oneof_inside)), unchanged]
    · refine there.resolve_right fun part => ?_
      rw [FieldPlan.createBody, if_pos repeated, List.mem_singleton] at part
      simp [assign, OneofNames.qualify] at part

include implements in
/-- Statements of the constructor make the collections of their fields. -/
theorem execAll_create (statements : List (Statement Action Expr))
    (inside : ∀ statement ∈ statements,
      statement ∈ plan.flatMapSlots FieldPlan.createBody OneofPlan.createBody)
    (blank : Blank plan frame.self machine) :
    ∃ final, (∀ call, (execAll program call statements frame).on machine = (.ok frame, final)) ∧
      Blank plan frame.self final ∧
      (∀ field ∈ plan.fields, field.field.repeated = false →
        stored frame.self final field = stored frame.self machine field) ∧
      ∀ field ∈ plan.fields, field.field.repeated = true →
        HoldsContent frame.self machine field (program.library.create field.internalType) ∨
          (∃ statement ∈ statements, statement ∈ field.createBody) →
            HoldsContent frame.self final field (program.library.create field.internalType) := by
  induction statements generalizing machine with
  | nil =>
    refine ⟨machine, fun call => by rw [execAll_nil, Run.on_pure], blank, fun _ _ _ => rfl, ?_⟩
    intro field _ _ there
    refine there.resolve_right ?_
    rintro ⟨_, impossible, -⟩
    cases impossible
  | cons statement rest ih =>
    obtain ⟨middle, ran, middle_blank, kept, made⟩ :=
      exec_createStatement implements (inside statement (List.mem_cons_self ..)) blank
    obtain ⟨final, rest_ran, final_blank, rest_kept, rest_made⟩ :=
      ih (fun other later => inside other (List.mem_cons_of_mem _ later)) middle_blank
    refine ⟨final, fun call => by rw [execAll_cons (ran call), rest_ran call], final_blank,
      fun field field_inside single => (rest_kept field field_inside single).trans
        (kept field field_inside single), ?_⟩
    intro field field_inside repeated there
    refine rest_made field field_inside repeated ?_
    rcases there with there | ⟨other, other_inside, part⟩
    · exact .inl (made field field_inside repeated (.inl there))
    · rcases List.mem_cons.mp other_inside with rfl | later
      · exact .inl (made field field_inside repeated (.inr part))
      · exact .inr ⟨other, later, part⟩

include implements in
/-- **The constructor makes all collections of a new instance**, and then clears its own fields. -/
theorem invoke_create_of_clear (new : IsNew plan self machine) :
    ∃ middle, (∀ call, (execAll program call
        (plan.flatMapSlots FieldPlan.createBody OneofPlan.createBody) (Frame.mk self [])).on machine =
          (.ok (Frame.mk self []), middle)) ∧
      Blank plan self middle ∧
      (∀ field ∈ plan.fields, field.field.repeated = false →
        stored self middle field = absent field) ∧
      (∀ field ∈ plan.fields, field.field.repeated = true →
        HoldsContent self middle field (program.library.create field.internalType)) ∧
      ∀ final, (∀ depth, (invokeMethod program (depth + 3) self "ClearOwnFields" []).on middle =
          (.ok .nil, final)) → ∀ depth, (invokeMethod program (depth + 4) self "Create" []).on machine =
        (.ok .nil, final) := by
  have wellFormed := implements.wellFormed
  obtain ⟨implementation, found, parameters, body⟩ := implements.create
  obtain ⟨_, ownFound, -⟩ := implements.clearOwnFields
  have blank : Blank plan (Frame.mk self []).self machine := new.blank wellFormed
  obtain ⟨middle, made, middle_blank, kept, collections⟩ :=
    execAll_create implements _ (fun _ inside => inside) blank
  refine ⟨middle, made, middle_blank, fun field inside single => ?_,
    fun field inside repeated => ?_, fun final cleared depth => ?_⟩
  · rw [kept field inside single, new.fields field inside, single, if_neg Bool.false_ne_true]
  · refine collections field inside repeated (.inr ⟨assign field.backing (.create field.internalType),
      (flatMapSlots_perm wellFormed.slots _ _).mem_iff.mpr (List.mem_append_left _ ?_), ?_⟩)
    · exact List.mem_flatMap.mpr ⟨field, inside, by simp [FieldPlan.createBody, repeated]⟩
    · simp [FieldPlan.createBody, repeated]
  · have inherited : (exec program (invokeMethod program (depth + 3)) (inheritCall "Create" [])
        { self, locals := [] }).on machine = (.ok { self, locals := [] }, machine) :=
      exec_inheritCall (by rw [evalAll_nil, Run.on_pure]) rfl
    have last : (exec program (invokeMethod program (depth + 3)) (callOwn "ClearOwnFields" [])
        { self, locals := [] }).on middle =
          ((Except.ok Value.nil).map fun _ => { self, locals := [] }, final) :=
      exec_callOwn ownFound (cleared depth)
    refine invokeMethod_bare found ?_
    rw [body, ClassPlan.createBody, List.append_assoc, List.singleton_append,
      execAll_cons inherited, execAll_append (made _), execAll_singleton]
    exact last

include implements in
/-- **A new instance is created** with all its collections. -/
theorem invoke_create (new : IsNew plan self machine) :
    ∃ final, (∀ depth, (invokeMethod program (depth + 4) self "Create" []).on machine =
      (.ok .nil, final)) ∧ Consistent plan self final ∧ Filled plan self final := by
  obtain ⟨middle, -, blank, -, collections, created⟩ := invoke_create_of_clear implements new
  obtain ⟨outcome, final, cleared, ends⟩ := invoke_clearOwnFields implements blank.consistent
  obtain ⟨rfl, final_filled⟩ := ends.filled (filled_of_holdsContent collections)
  exact ⟨final, created final cleared, ends.consistent, final_filled⟩

end ProtoPascal.Execution
