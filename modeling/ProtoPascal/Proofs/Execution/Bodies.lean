import ProtoPascal.Proofs.Execution.Changes
import ProtoPascal.Proofs.Execution.Implements
import ProtoPascal.Proofs.Execution.Steps

/-!
What the accessors of fields and oneofs do. Each lemma runs one body, or one part of a body, on an
instance that owns its objects, and says what it makes of the machine.

* `invoke_caseSetter`: the setter of a case property lets the oneof choose another member;
* `invoke_presenceGetter`: the getter of a presence property tells whether the field is present;
* `invoke_presenceSetter_member`: the setter of the presence property of a member lets the oneof
  choose it or nothing;
* `invoke_setter_outside`, `invoke_setter_member`: the setter of a property stores the value, after
  the oneof of the field, if any, has chosen it.
-/

namespace ProtoPascal.Execution

open Message
open Pascal

variable {Content Payload : Type} {program : Program Content Payload} {plan : ClassPlan}
  (implements : Implements program.code plan) {call : Caller Content Payload} {frame : Frame}
  {machine middle : Machine Content Payload} {field : FieldPlan} (inside : field ∈ plan.fields)

/-! ### Parts of bodies -/

include implements inside in
theorem eval_backing : (eval program call frame field.backing).on machine =
    (.ok (stored frame.self machine field), machine) :=
  eval_field (implements.backing inside)

include implements inside in
theorem exec_put {value : Expr} {result : Value}
    (valueOf : (eval program call frame value).on machine = (.ok result, middle)) :
    (exec program call (assign field.backing value) frame).on machine =
      (.ok frame, put frame.self middle field result) :=
  exec_assign_field (implements.backing inside) valueOf

theorem useValue_free (library : Library Content Payload) {value : Value}
    (alive : IsAlive machine value) :
    (useValue library value "Free" []).on machine = (.ok .nil, freeValue machine value) := by
  rcases alive with rfl | ⟨address, rfl, alive⟩
  · rfl
  · obtain ⟨content, found⟩ := Option.isSome_iff_exists.mp alive
    rw [useValue, Run.on_bind, Run.on_look, found]
    rfl

include implements inside in
theorem exec_free (alive : IsAlive machine (stored frame.self machine field)) :
    (exec program call (invoke field.backing "Free" []) frame).on machine =
      (.ok frame, freeValue machine (stored frame.self machine field)) := by
  refine exec_invoke ((eval_invoke (eval_backing implements inside) ?_).trans
    (useValue_free program.library alive))
  rw [evalAll_nil, Run.on_pure]

include implements inside in
/-- The object of a field is replaced by another one, which is known beforehand. -/
theorem execAll_replaceOwned {value : Expr} {result : Value}
    (alive : IsAlive machine (stored frame.self machine field))
    (valueOf : ∀ machine : Machine Content Payload,
      (eval program call frame value).on machine = (.ok result, machine)) :
    (execAll program call (field.replaceOwned value) frame).on machine =
      (.ok frame, replace frame.self machine field result) := by
  rw [FieldPlan.replaceOwned, execAll_cons (exec_free implements inside alive),
    execAll_singleton, exec_put implements inside (valueOf _), replace]

theorem isMessage_eq (supported : Supported field.field.type field.support) :
    field.isMessage = field.field.type.isMessage := by
  rw [FieldPlan.isMessage, Bool.eq_iff_iff, beq_iff_eq, kind_eq_message_iff supported]

theorem holdsObjects_of_isMessage (message : field.field.type.isMessage = true) :
    holdsObjects field = true := by
  rw [holdsObjects, message, Bool.or_true]

include implements inside in
theorem execAll_releaseBody (owns : Owns plan frame.self machine) :
    (execAll program call field.releaseBody frame).on machine =
      (.ok frame, release frame.self machine field) := by
  have supported := implements.wellFormed.supported field inside
  rw [FieldPlan.releaseBody, release, isMessage_eq supported]
  cases message : field.field.type.isMessage with
  | true =>
    exact execAll_replaceOwned implements inside
      (owns.alive inside (holdsObjects_of_isMessage message)) fun _ => eval_constant literal?_nil
  | false =>
    rw [if_neg Bool.false_ne_true, if_neg Bool.false_ne_true, execAll_singleton]
    exact exec_put implements inside (eval_constant (literal?_defaultValue supported))

include implements inside in
theorem execAll_initializeBody :
    (execAll program call field.initializeBody frame).on machine =
      (.ok frame, renew frame.self machine program.library field) := by
  have supported := implements.wellFormed.supported field inside
  rw [FieldPlan.initializeBody, renew, isMessage_eq supported]
  cases message : field.field.type.isMessage with
  | true =>
    rw [if_pos rfl, if_pos rfl, execAll_singleton]
    exact exec_put implements inside eval_create
  | false =>
    rw [if_neg Bool.false_ne_true, if_neg Bool.false_ne_true, execAll_singleton]
    exact exec_put implements inside (eval_constant (literal?_defaultValue supported))

/-! ### Cases of oneofs -/

/-- Arms whose labels have ascending ordinals, after `offset` other ones: the arm with the selected
ordinal runs, if there is one. -/
theorem execArms_from (names : OneofNames) (body : FieldPlan → Body) (selected : Nat)
    (fields : List FieldPlan) (offset : Nat)
    (labels : ∀ (position : Nat) field, fields[position]? = some field →
      ∃ value, names.caseValue? field.field.number = some value ∧
        program.code.enumValue? names.caseType value =
          some (.enumeration names.caseType (offset + position + 1 : Nat))) :
    (execArms program call (.enumeration names.caseType selected)
        (fields.filterMap fun member => (names.caseValue? member.field.number).map fun value =>
          .arm (names.qualify value) (body member)) frame).on machine =
      if selected ≤ offset then (.ok frame, machine)
      else (fields[selected - offset - 1]?).elim (.ok frame, machine) fun field =>
        (execAll program call (body field) frame).on machine := by
  induction fields generalizing offset with
  | nil => simp
  | cons field rest ih =>
    obtain ⟨value, named, denotes⟩ := labels 0 field rfl
    rw [List.filterMap_cons_some (by rw [named]; rfl), execArms, OneofNames.qualify,
      Run.on_bind_ok (eval_enumValue denotes)]
    by_cases here : selected = offset + 0 + 1
    · subst here
      rw [if_pos rfl, if_neg (by omega), show offset + 0 + 1 - offset - 1 = 0 by omega]
      rfl
    · have different : Value.enumeration names.caseType (offset + 0 + 1 : Nat) ≠
          .enumeration names.caseType selected := by
        intro same
        rw [Value.enumeration.injEq] at same
        exact here (by omega)
      rw [if_neg different, ih (offset + 1) ?_]
      · by_cases before : selected ≤ offset
        · rw [if_pos before, if_pos (by omega)]
        · rw [if_neg before, if_neg (by omega),
            show selected - offset - 1 = (selected - (offset + 1) - 1) + 1 by omega,
            List.getElem?_cons_succ]
      · intro position other found
        obtain ⟨value, named, denotes⟩ := labels (position + 1) other found
        refine ⟨value, named, ?_⟩
        rw [denotes, show offset + (position + 1) + 1 = offset + 1 + position + 1 by omega]

include implements in
/-- **Of the arms for the members of a oneof, the one for the selected member runs.** -/
theorem execArms_arms {oneof : OneofPlan} (inside : oneof ∈ plan.oneofs) (body : FieldPlan → Body)
    (selected : Nat) :
    (execArms program call (caseAt oneof selected) (oneof.arms body) frame).on machine =
      (memberAt oneof selected).elim (.ok frame, machine) fun field =>
        (execAll program call (body field) frame).on machine := by
  have labels : ∀ (position : Nat) field, oneof.members[position]? = some field →
      ∃ value, oneof.names.caseValue? field.field.number = some value ∧
        program.code.enumValue? oneof.names.caseType value =
          some (.enumeration oneof.names.caseType (0 + position + 1 : Nat)) := by
    intro position field found
    obtain ⟨-, value, value_found, -, named⟩ :=
      implements.wellFormed.member oneof inside position field found
    refine ⟨value.name, named, ?_⟩
    rw [implements.memberValue inside value_found, caseAt, Nat.zero_add]
  rw [caseAt, OneofPlan.arms, execArms_from oneof.names body selected oneof.members 0 labels]
  cases selected with
  | zero => rfl
  | succ position => rfl

theorem eval_incoming {self : Address} {value : Value} :
    (eval program call (argumentFrame self "aValue" value) incomingValue).on machine =
      (.ok value, machine) := by
  refine eval_local ?_
  have other : Text.sameLetters "aValue" "Self" = false := by decide
  simp [Frame.read?, argumentFrame, other]

include implements in
theorem exec_putCase {oneof : OneofPlan} (inside : oneof ∈ plan.oneofs) {value : Expr}
    {result : Value}
    (valueOf : (eval program call frame value).on machine = (.ok result, middle)) :
    (exec program call (assign oneof.backing value) frame).on machine =
      (.ok frame, middle.store frame.self oneof.names.backing result) :=
  exec_assign_field (implements.caseBacking inside) valueOf

include implements in
theorem invoke_caseGetter {oneof : OneofPlan} (inside : oneof ∈ plan.oneofs) {self : Address}
    (depth : Nat) : (invokeMethod program (depth + 1) self oneof.names.getter []).on machine =
      (.ok (machine.fields self oneof.names.backing), machine) :=
  invokeMethod_function (implements.caseGetter inside) rfl
    (eval_field (implements.caseBacking inside))

include implements in
/-- **The setter of a case property lets the oneof choose another member.** -/
theorem invoke_caseSetter {oneof : OneofPlan} (inside : oneof ∈ plan.oneofs) {self : Address}
    {old new : Nat} (depth : Nat) (owns : Owns plan self machine)
    (selects : Selects self machine oneof old) :
    (invokeMethod program (depth + 1) self oneof.names.setter [caseAt oneof new]).on machine =
      (.ok .nil, choose self machine program.library oneof old new) := by
  refine invokeMethod_procedure (implements.caseSetter inside) rfl (by decide) ?_
  have readCase (machine : Machine Content Payload) :
      (eval program (invokeMethod program depth) (argumentFrame self "aValue" (caseAt oneof new))
        oneof.backing).on machine = (.ok (machine.fields self oneof.names.backing), machine) :=
    eval_field (implements.caseBacking inside)
  have changed : (eval program (invokeMethod program depth)
      (argumentFrame self "aValue" (caseAt oneof new))
      (.compare incomingValue .different oneof.backing)).on machine =
        (.ok (.truth (decide (old ≠ new))), machine) := by
    rw [eval_different eval_incoming (readCase machine)
      (by rw [selects.backing]; exact caseAt_ne_notANumber _ _), selects.backing]
    simp only [ne_eq, caseAt_inj, eq_comm]
  rw [OneofPlan.setterBody, ifThen, execAll_singleton, exec_ifElse changed, choose]
  by_cases same : old = new
  · rw [if_pos same, if_neg (by simp [same]), execAll_nil, Run.on_pure]
  · rw [if_neg same, if_pos (by simp [same])]
    -- The member that leaves is released.
    have left : (exec program (invokeMethod program depth)
        (.caseOf oneof.backing (oneof.arms FieldPlan.releaseBody))
        (argumentFrame self "aValue" (caseAt oneof new))).on machine =
          (.ok (argumentFrame self "aValue" (caseAt oneof new)),
            leave self machine oneof old) := by
      rw [exec_caseOf (readCase machine), selects.backing, execArms_arms implements inside, leave]
      cases found : memberAt oneof old with
      | none => rfl
      | some field =>
        exact execAll_releaseBody implements (memberAt_mem implements.wellFormed inside found) owns
    -- The one that enters is given a new value.
    have entered (between : Machine Content Payload)
        (stored : between.fields self oneof.names.backing = caseAt oneof new) :
        (exec program (invokeMethod program depth)
          (.caseOf oneof.backing (oneof.arms FieldPlan.initializeBody))
          (argumentFrame self "aValue" (caseAt oneof new))).on between =
            (.ok (argumentFrame self "aValue" (caseAt oneof new)),
              enter self between program.library oneof new) := by
      rw [exec_caseOf (readCase between), stored, execArms_arms implements inside, enter]
      cases found : memberAt oneof new with
      | none => rfl
      | some field =>
        exact execAll_initializeBody implements (memberAt_mem implements.wellFormed inside found)
    rw [execAll_cons left, execAll_cons (exec_putCase implements inside eval_incoming),
      execAll_singleton]
    exact entered _ (Machine.fields_store_same ..)

/-! ### Presence -/

/-- The value that stands for absence is a number if it is a floating-point value. -/
theorem absentValue_ne_notANumber (type : Schema.FieldType) :
    absentValue type ≠ .floating .notANumber := by
  rcases type with type | ⟨kind, typeName⟩
  · cases type <;> simp [absentValue]
  · cases kind <;> simp [absentValue]

/-- Outside oneofs a value is present when it is not the one that stands for absence. -/
theorem eval_presenceExpression {type : Schema.FieldType} {support : TypeSupport}
    (supported : Supported type support) {expression : Expr} {value : Value}
    (valueOf : (eval program call frame expression).on machine = (.ok value, machine))
    (fits : ∀ scalar, type = .scalar scalar → FitsScalar scalar value) :
    (eval program call frame (support.presenceExpression expression)).on machine =
      (.ok (.truth (decide (value ≠ absentValue type))), machine) := by
  have compared (different : support.presenceExpression expression =
      .parenthesized (.compare expression .different (.constant support.defaultValue))) :
      (eval program call frame (support.presenceExpression expression)).on machine =
        (.ok (.truth (decide (value ≠ absentValue type))), machine) := by
    rw [different, eval_parenthesized]
    exact eval_different valueOf (eval_constant (literal?_defaultValue supported))
      (absentValue_ne_notANumber type)
  cases supported with
  | scalar runtime scalar =>
    by_cases bytes : scalar = .bytes
    · subst bytes
      show (eval program call frame (.parenthesized (.compare (.builtin "Length" [expression])
        .greater (.constant "0")))).on machine = _
      rw [eval_parenthesized]
      have length : ∃ count : Nat, builtin? "Length" [value] = some (.integer count) ∧
          (0 < count ↔ value ≠ .nil) := by
        have bytesOrNil := fits .bytes rfl
        cases value with
        | nil => exact ⟨0, rfl, by simp⟩
        | bytes first rest => exact ⟨rest.length + 1, rfl, by simp⟩
        | _ => exact bytesOrNil.elim
      obtain ⟨count, counted, positive⟩ := length
      rw [eval_compare (eval_builtin valueOf counted) (eval_constant literal?_zero) rfl]
      simp only [absentValue, ← positive, Int.natCast_pos]
    · refine compared ?_
      simp [TypeSupport.presenceExpression, Runtime.scalarSupport, bytes]
  | declared runtime kind typeName reference =>
    cases kind with
    | enumeration => exact compared rfl
    | message => exact eval_builtin valueOf rfl

theorem single_of_presence (wellFormed : plan.WellFormed) (inside : field ∈ plan.fields)
    {presence : PresenceNames} (present : field.names.presence = some presence) :
    field.field.repeated = false := by
  have isSome := wellFormed.presence field inside
  rw [present, Option.isSome_some] at isSome
  simpa using isSome

include implements inside in
/-- **Outside oneofs the presence property tells whether the field stores another value than the one
that stands for absence.** -/
theorem invoke_presenceGetter {presence : PresenceNames} {self : Address} (depth : Nat)
    (present : field.names.presence = some presence) (outside : field.membership = none)
    (owns : Owns plan self machine) :
    (invokeMethod program (depth + 1) self presence.getter []).on machine =
      (.ok (.truth (decide (stored self machine field ≠ absent field))), machine) := by
  refine invokeMethod_function (implements.presenceGetter inside present)
    (by simp only [FieldPlan.implement, FieldPlan.presenceGetterBody, outside]; rfl) ?_
  exact eval_presenceExpression (implements.wellFormed.supported field inside)
    (eval_backing implements inside) fun _ type =>
      owns.fitsScalar inside (single_of_presence implements.wellFormed inside present) type

include implements in
/-- **The presence property of a member tells whether the oneof selects it.** -/
theorem invoke_presenceGetter_member {oneof : OneofPlan} (inside : oneof ∈ plan.oneofs)
    {presence : PresenceNames} {self : Address} {current position : Nat} (depth : Nat)
    (found : memberAt oneof position = some field)
    (present : field.names.presence = some presence)
    (selects : Selects self machine oneof current) :
    (invokeMethod program (depth + 1) self presence.getter []).on machine =
      (.ok (.truth (decide (current = position))), machine) := by
  cases position with
  | zero => cases found
  | succ position =>
    obtain ⟨field_inside, value, value_found, membership, -⟩ :=
      implements.wellFormed.member oneof inside position field found
    refine invokeMethod_function (implements.presenceGetter field_inside present)
      (by simp only [FieldPlan.implement, FieldPlan.presenceGetterBody, membership]; rfl) ?_
    rw [eval_parenthesized, Membership.qualifiedCase, OneofNames.qualify,
      eval_equal (eval_field (implements.caseBacking inside))
        (eval_enumValue (implements.memberValue inside value_found)) (caseAt_ne_notANumber _ _)]
    simp only [selects.backing, caseAt_inj]

include implements inside in
theorem eval_has {presence : PresenceNames} (present : field.names.presence = some presence) :
    eval program call frame field.has = call frame.self presence.getter [] := by
  rw [FieldPlan.has, FieldPlan.presenceName, present]
  exact eval_property (implements.presenceProperty inside present)

/-- The text of the exception for a field that is marked as present without a value. -/
def presenceText (field : FieldPlan) : String :=
  "Cannot mark field " ++ field.field.name ++ " as present without assigning a value"

include implements inside in
/-- **Outside oneofs the presence property can be set to `False`, which releases the field**, and to
`True` only if the field is present. -/
theorem invoke_presenceSetter {presence : PresenceNames} {self : Address} (depth : Nat)
    (present : field.names.presence = some presence) (outside : field.membership = none)
    (owns : Owns plan self machine) (value : Bool) :
    (invokeMethod program (depth + 2) self presence.setter [.truth value]).on machine =
      if value then
        if stored self machine field = absent field then
          (.error (.raised "EProtobufInvalidOperation" (presenceText field)), machine)
        else (.ok .nil, machine)
      else (.ok .nil, release self machine field) := by
  have body : (field.implement presence.setterMethod field.presenceSetterBody).body =
      [.ifElse incomingValue
        [ifThen (.negate field.has)
          [.simple (.raise "EProtobufInvalidOperation" (.quoted (presenceText field)))]]
        field.releaseBody] := by
    simp only [FieldPlan.implement, FieldPlan.presenceSetterBody, outside]
    rfl
  have found := implements.presenceSetter inside present
  cases value with
  | false =>
    rw [if_neg Bool.false_ne_true]
    refine invokeMethod_procedure found rfl (by decide) ?_
    rw [body, execAll_singleton, exec_ifElse eval_incoming, if_neg Bool.false_ne_true]
    exact execAll_releaseBody implements inside owns
  | true =>
    have has : (eval program (invokeMethod program (depth + 1))
        (argumentFrame self "aValue" (.truth true)) field.has).on machine =
          (.ok (.truth (decide (stored self machine field ≠ absent field))), machine) := by
      rw [eval_has implements inside present]
      exact invoke_presenceGetter implements inside depth present outside owns
    have branch : (execAll program (invokeMethod program (depth + 1))
        (field.implement presence.setterMethod field.presenceSetterBody).body
        (argumentFrame self "aValue" (.truth true))).on machine =
          (execAll program (invokeMethod program (depth + 1))
            (if (!decide (stored self machine field ≠ absent field)) = true then
              [.simple (.raise "EProtobufInvalidOperation" (.quoted (presenceText field)))] else [])
            (argumentFrame self "aValue" (.truth true))).on machine := by
      rw [body, execAll_singleton, exec_ifElse eval_incoming, if_pos rfl, execAll_singleton, ifThen,
        exec_ifElse (eval_negate has)]
    rw [if_pos rfl]
    by_cases same : stored self machine field = absent field
    · rw [if_pos (by simp [same]), execAll_singleton, exec_raise] at branch
      rw [if_pos same]
      exact invokeMethod_procedure_error found rfl branch
    · rw [if_neg (by simp [same]), execAll_nil, Run.on_pure] at branch
      rw [if_neg same]
      exact invokeMethod_procedure found rfl (by decide) branch

include implements in
/-- **The presence property of a member lets the oneof choose the member, or nothing if the member
was selected.** -/
theorem invoke_presenceSetter_member {oneof : OneofPlan} (inside : oneof ∈ plan.oneofs)
    {presence : PresenceNames} {self : Address} {current position : Nat} (depth : Nat)
    (found : memberAt oneof position = some field)
    (present : field.names.presence = some presence) (owns : Owns plan self machine)
    (selects : Selects self machine oneof current) (value : Bool) :
    (invokeMethod program (depth + 2) self presence.setter [.truth value]).on machine =
      (.ok .nil, markMember self machine program.library oneof current position value) := by
  have field_inside := memberAt_mem implements.wellFormed inside found
  have has : (eval program (invokeMethod program (depth + 1))
      (argumentFrame self "aValue" (.truth value)) field.has).on machine =
        (.ok (.truth (decide (current = position))), machine) := by
    rw [eval_has implements field_inside present]
    exact invoke_presenceGetter_member implements inside depth found present selects
  -- A write to the case property lets the oneof choose.
  have write {expression : Expr} {new : Nat}
      (valueOf : (eval program (invokeMethod program (depth + 1))
        (argumentFrame self "aValue" (.truth value)) expression).on machine =
          (.ok (caseAt oneof new), machine)) :
      (execAll program (invokeMethod program (depth + 1))
        [assign (.own oneof.names.property) expression]
        (argumentFrame self "aValue" (.truth value))).on machine =
          (.ok (argumentFrame self "aValue" (.truth value)),
            choose self machine program.library oneof current new) := by
    rw [execAll_singleton]
    exact exec_assign_property (implements.caseProperty inside) valueOf
      (invoke_caseSetter implements inside depth owns selects)
  refine invokeMethod_procedure (implements.presenceSetter field_inside present) rfl
    (by decide) ?_
  cases position with
  | zero => cases found
  | succ position =>
    obtain ⟨-, caseValue, value_found, membership, -⟩ :=
      implements.wellFormed.member oneof inside position field found
    simp only [FieldPlan.implement, FieldPlan.presenceSetterBody, membership]
    rw [execAll_singleton, exec_ifElse eval_incoming, markMember]
    cases value with
    | true =>
      rw [if_pos rfl, if_pos rfl, execAll_singleton, ifThen, exec_ifElse (eval_negate has)]
      by_cases same : current = position + 1
      · rw [if_neg (by simp [same]), execAll_nil, Run.on_pure, choose, if_pos same]
      · rw [if_pos (by simp [same])]
        exact write (eval_enumValue (implements.memberValue inside value_found))
    | false =>
      rw [if_neg Bool.false_ne_true, if_neg Bool.false_ne_true, execAll_singleton, ifThen,
        exec_ifElse has]
      by_cases same : current = position + 1
      · rw [if_pos (by simp [same]), if_pos same]
        exact write (eval_enumValue (implements.noneValue inside))
      · rw [if_neg (by simp [same]), if_neg same, execAll_nil, Run.on_pure]

/-! ### Values -/

/-- A collection or its absence stays what it is when it is seen as another type. -/
theorem eval_convertCollection {target actual : String} {expression : Expr} {value : Value}
    (valueOf : (eval program call frame expression).on machine = (.ok value, machine))
    (object : value = .nil ∨ ∃ address, value = .object address) :
    (eval program call frame (convertCollection target actual expression)).on machine =
      (.ok value, machine) := by
  unfold convertCollection
  split
  · exact valueOf
  · rcases object with rfl | ⟨address, rfl⟩
    · exact eval_convert valueOf rfl
    · exact eval_convert valueOf rfl

/-- A value that is alive is an object or its absence. -/
theorem IsAlive.object {value : Value} (alive : IsAlive machine value) :
    value = .nil ∨ ∃ address, value = .object address := by
  rcases alive with rfl | ⟨address, rfl, -⟩
  · exact .inl rfl
  · exact .inr ⟨address, rfl⟩

/-- A value that is alive is no floating-point value. -/
theorem IsAlive.number {value : Value} (alive : IsAlive machine value) :
    value ≠ .floating .notANumber := by
  rintro rfl
  rcases alive.object with impossible | ⟨_, impossible⟩ <;> cases impossible

include implements inside in
/-- The object of a field is replaced by another one, unless it is the one already held. -/
theorem execAll_replaceChanged {expression : Expr} {value : Value}
    (valueOf : ∀ machine : Machine Content Payload,
      (eval program call frame expression).on machine = (.ok value, machine))
    (alive : IsAlive machine (stored frame.self machine field)) :
    (execAll program call [ifThen (.compare expression .different field.backing)
      (field.replaceOwned expression)] frame).on machine =
        (.ok frame, if value = stored frame.self machine field then machine
          else replace frame.self machine field value) := by
  rw [execAll_singleton, ifThen, exec_ifElse (eval_different (valueOf machine)
    (eval_backing implements inside) alive.number)]
  by_cases same : value = stored frame.self machine field
  · rw [if_neg (by simp [same]), if_pos same, execAll_nil, Run.on_pure]
  · rw [if_pos (by simp [same]), if_neg same]
    exact execAll_replaceOwned implements inside alive valueOf

/-- A value of a property is stored in the form of the backing field. -/
theorem eval_toInternal {self : Address} {expression : Expr} {value : Value}
    (supported : Supported field.field.type field.support)
    (plain : holdsObjects field = false) (accepts : Accepts plan self machine field value)
    (valueOf : (eval program call frame expression).on middle = (.ok value, middle)) :
    (eval program call frame (field.support.toInternal expression)).on middle =
      (.ok (toStored value), middle) := by
  rw [Accepts, plain, if_neg Bool.false_ne_true] at accepts
  rw [holdsObjects, Bool.or_eq_false_iff] at plain
  generalize field.support = support at supported accepts
  generalize field.field.type = type at supported accepts plain
  cases supported with
  | scalar runtime scalar =>
    rw [toStored_of_fitsScalar accepts]
    by_cases bytes : scalar = .bytes
    · subst bytes
      exact valueOf
    · simp only [TypeSupport.toInternal, Runtime.scalarSupport, bytes, if_false]
      exact valueOf
  | declared runtime kind typeName reference =>
    cases kind with
    | message => exact absurd plain.2 (by simp [Schema.FieldType.isMessage])
    | enumeration =>
      obtain ⟨ordinal, -, rfl⟩ := accepts
      exact eval_builtin valueOf rfl

include implements inside in
/-- **Outside oneofs the setter of a property stores the value**, and frees the object that the field
held if it is given another one. -/
theorem invoke_setter_outside {self : Address} {value : Value} (depth : Nat)
    (outside : field.membership = none) (owns : Owns plan self machine)
    (accepts : Accepts plan self machine field value) :
    (invokeMethod program (depth + 1) self field.names.setter [value]).on machine =
      (.ok .nil, assignOutside self machine field value) := by
  have supported := implements.wellFormed.supported field inside
  refine invokeMethod_procedure (implements.setter inside) rfl (by decide) ?_
  show (execAll program (invokeMethod program depth) field.setterBody _).on machine = _
  rw [FieldPlan.setterBody, assignOutside]
  cases repeated : field.field.repeated with
  | true =>
    have objects : holdsObjects field = true := by rw [holdsObjects, repeated, Bool.true_or]
    rw [if_pos rfl, objects, if_pos rfl]
    exact execAll_replaceChanged implements inside
      (fun _ => eval_convertCollection eval_incoming (accepts.alive objects).object)
      (owns.alive inside objects)
  | false =>
    rw [if_neg Bool.false_ne_true, isMessage_eq supported, outside]
    have objects : holdsObjects field = field.field.type.isMessage := by
      rw [holdsObjects, repeated, Bool.false_or]
    cases message : field.field.type.isMessage with
    | true =>
      rw [objects, message, if_pos rfl]
      exact execAll_replaceChanged implements inside (fun _ => eval_incoming)
        (owns.alive inside (objects.trans message))
    | false =>
      rw [objects, message, if_neg Bool.false_ne_true]
      show (execAll program _ [assign field.backing (field.support.toInternal incomingValue)]
        _).on machine = _
      rw [execAll_singleton]
      exact exec_put implements inside
        (eval_toInternal supported (objects.trans message) accepts eval_incoming)

include implements in
theorem exec_mark_member {oneof : OneofPlan} (inside : oneof ∈ plan.oneofs)
    {current position : Nat} (depth : Nat) (found : memberAt oneof position = some field)
    (owns : Owns plan frame.self machine) (selects : Selects frame.self machine oneof current)
    {text : String} {value : Bool} (denotes : literal? text = some (.truth value)) :
    (exec program (invokeMethod program (depth + 2)) (assign field.has (.constant text))
      frame).on machine =
        (.ok frame, markMember frame.self machine program.library oneof current position value) := by
  obtain ⟨-, -, presence, present⟩ := memberAt_presence implements.wellFormed inside found
  have field_inside := memberAt_mem implements.wellFormed inside found
  rw [FieldPlan.has, FieldPlan.presenceName, present]
  exact exec_assign_property (implements.presenceProperty field_inside present)
    (eval_constant denotes)
    (invoke_presenceSetter_member implements inside depth found present owns selects value)

include implements in
/-- **The setter of the property of a member lets the oneof choose the member and stores the value.**
An absent message clears the oneof. -/
theorem invoke_setter_member {oneof : OneofPlan} (inside : oneof ∈ plan.oneofs) {self : Address}
    {value : Value} {current position : Nat} (depth : Nat)
    (found : memberAt oneof position = some field) (owns : Owns plan self machine)
    (selects : Selects self machine oneof current)
    (accepts : Accepts plan self machine field value) :
    (invokeMethod program (depth + 3) self field.names.setter [value]).on machine =
      (.ok .nil, assignMember self machine program.library oneof current position field value) := by
  have field_inside := memberAt_mem implements.wellFormed inside found
  have supported := implements.wellFormed.supported field field_inside
  obtain ⟨single, membership, -⟩ := memberAt_presence implements.wellFormed inside found
  have objects : holdsObjects field = field.field.type.isMessage := by
    rw [holdsObjects, single, Bool.false_or]
  have chosen : Owns plan self
      (markMember self machine program.library oneof current position true) :=
    (moves_markMember implements.wellFormed inside found owns selects true).owns
  refine invokeMethod_procedure (implements.setter field_inside) rfl (by decide) ?_
  show (execAll program (invokeMethod program (depth + 2)) field.setterBody _).on machine = _
  rw [FieldPlan.setterBody, single, if_neg Bool.false_ne_true, isMessage_eq supported, membership,
    assignMember]
  cases message : field.field.type.isMessage with
  | true =>
    rw [if_pos rfl, nilValue, trueValue, falseValue, execAll_singleton,
      exec_ifElse (eval_equal eval_incoming (eval_constant literal?_nil) Value.noConfusion)]
    by_cases nil : value = .nil
    · rw [if_pos (by simp [nil]), if_pos nil, execAll_singleton]
      exact exec_mark_member implements inside depth found owns selects literal?_false
    · rw [if_neg (by simp [nil]), if_neg nil, execAll_singleton, ifThen,
        exec_ifElse (eval_different eval_incoming (eval_backing implements field_inside)
          (owns.alive field_inside (objects.trans message)).number)]
      by_cases same : value = stored self machine field
      · rw [if_neg (by simp [same, argumentFrame]), if_pos same, execAll_nil, Run.on_pure]
      · rw [if_pos (by simp [same, argumentFrame]), if_neg same, execAll_cons
          (exec_mark_member implements inside depth found owns selects literal?_true)]
        exact execAll_replaceOwned implements field_inside
          (chosen.alive field_inside (objects.trans message)) fun _ => eval_incoming
  | false =>
    rw [if_neg Bool.false_ne_true]
    show (execAll program _ [assign field.has (.constant "True"),
      assign field.backing (field.support.toInternal incomingValue)] _).on machine = _
    rw [execAll_cons (exec_mark_member implements inside depth found owns selects literal?_true),
      execAll_singleton]
    exact exec_put implements field_inside
      (eval_toInternal supported (objects.trans message) accepts eval_incoming)

end ProtoPascal.Execution
