import ProtoPascal.Proofs.Execution.Reachable

/-!
How an instance is written to a stream. Each field writes the records that go with what it holds, and
nothing else changes.

* `Written`: what a field has on the wire;
* `invoke_encode`: an instance with all its collections is written field by field.
-/

namespace ProtoPascal.Execution

open Message
open Pascal
open Schema (FieldType)

variable {Content Payload : Type} {program : Program Content Payload} {plan : ClassPlan}
  {self : Address} {machine : Machine Content Payload} {field : FieldPlan}

/-! ### Presence -/

/-- Whether a field is present: outside oneofs it stores another value than the one that stands for
absence, and in a oneof it is selected. -/
def Present (plan : ClassPlan) (self : Address) (machine : Machine Content Payload)
    (field : FieldPlan) : Prop :=
  match field.membership with
  | none => stored self machine field ≠ absent field
  | some _ => ∃ oneof ∈ plan.oneofs, ∃ position, memberAt oneof position = some field ∧
      machine.fields self oneof.names.backing = caseAt oneof position

theorem present_iff_of_outside (outside : field.membership = none) :
    Present plan self machine field ↔ stored self machine field ≠ absent field := by
  rw [Present, outside]

theorem present_iff_of_member (wellFormed : plan.WellFormed) {oneof : OneofPlan}
    (inside : oneof ∈ plan.oneofs) {current position : Nat}
    (found : memberAt oneof position = some field) (selects : Selects self machine oneof current) :
    Present plan self machine field ↔ current = position := by
  obtain ⟨membership, member⟩ :=
    Option.isSome_iff_exists.mp (memberAt_presence wellFormed inside found).2.1
  rw [Present, member]
  constructor
  · rintro ⟨other, other_inside, index, other_found, chosen⟩
    obtain ⟨rfl, rfl⟩ := memberAt_unique wellFormed other_inside inside other_found found
    rwa [selects.backing, caseAt_inj] at chosen
  · rintro rfl
    exact ⟨oneof, inside, current, found, selects.backing⟩

/-- A field that is not present stores the value that stands for absence. -/
theorem stored_of_gone (wellFormed : plan.WellFormed) (inside : field ∈ plan.fields)
    (consistent : Consistent plan self machine) (gone : ¬ Present plan self machine field) :
    stored self machine field = absent field := by
  rcases outside_or_member wellFormed inside with outside | ⟨oneof, oneof_inside, position, found⟩
  · rwa [present_iff_of_outside outside, not_not] at gone
  · obtain ⟨current, selects⟩ := consistent.selects oneof oneof_inside
    rw [present_iff_of_member wellFormed oneof_inside found selects] at gone
    exact selects.unselected position field found (Ne.symm gone)

/-- **The presence property tells whether the field is present.** -/
theorem invoke_presence (implements : Implements program.code plan) (inside : field ∈ plan.fields)
    {presence : PresenceNames} (present : field.names.presence = some presence)
    (consistent : Consistent plan self machine) :
    ∃ value : Bool, (value = true ↔ Present plan self machine field) ∧
      ∀ depth, (invokeMethod program (depth + 1) self presence.getter []).on machine =
        (.ok (.truth value), machine) := by
  have wellFormed := implements.wellFormed
  rcases outside_or_member wellFormed inside with outside | ⟨oneof, oneof_inside, position, found⟩
  · refine ⟨decide (stored self machine field ≠ absent field), ?_, fun depth =>
      invoke_presenceGetter implements inside depth present outside consistent.owns⟩
    rw [decide_eq_true_iff, present_iff_of_outside outside]
  · obtain ⟨current, selects⟩ := consistent.selects oneof oneof_inside
    refine ⟨decide (current = position), ?_, fun depth =>
      invoke_presenceGetter_member implements oneof_inside depth found present selects⟩
    rw [decide_eq_true_iff, present_iff_of_member wellFormed oneof_inside found selects]

theorem Present.object (wellFormed : plan.WellFormed) (inside : field ∈ plan.fields)
    (consistent : Consistent plan self machine) (message : field.field.type.isMessage = true)
    (present : Present plan self machine field) :
    ∃ address content, stored self machine field = .object address ∧
      machine.objects address = some content := by
  have there : stored self machine field ≠ .nil := by
    rcases outside_or_member wellFormed inside with outside | ⟨oneof, oneof_inside, position, found⟩
    · rw [present_iff_of_outside outside, absent_of_isMessage message] at present
      exact present
    · obtain ⟨current, selects⟩ := consistent.selects oneof oneof_inside
      rw [present_iff_of_member wellFormed oneof_inside found selects] at present
      subst present
      exact selects.selected field found message
  rcases consistent.owns.alive inside (holdsObjects_of_isMessage message) with
    nil | ⟨address, object, alive⟩
  · exact absurd nil there
  · obtain ⟨content, found⟩ := Option.isSome_iff_exists.mp alive
    exact ⟨address, content, object, found⟩

/-! ### What is written -/

/-- What a field of an instance has on the wire. -/
inductive Written (library : Library Content Payload) (plan : ClassPlan) (self : Address)
    (machine : Machine Content Payload) (field : FieldPlan) : List Payload → Prop where
  | collection {address : Address} {content : Content} (repeated : field.field.repeated = true)
      (holds : stored self machine field = .object address)
      (alive : machine.objects address = some content) :
      Written library plan self machine field
        (library.encodeCollection field.support.wireCodec content)
  | missing (single : field.field.repeated = false) (gone : ¬ Present plan self machine field) :
      Written library plan self machine field []
  | message {address : Address} {content : Content} (single : field.field.repeated = false)
      (present : Present plan self machine field) (message : field.field.type.isMessage = true)
      (holds : stored self machine field = .object address)
      (alive : machine.objects address = some content) :
      Written library plan self machine field [library.encodeMessage content]
  | value {codec : String} (single : field.field.repeated = false)
      (present : Present plan self machine field) (plain : field.field.type.isMessage = false)
      (coded : field.support.wireCodec = some codec) :
      Written library plan self machine field
        [library.encodeScalar codec (stored self machine field)]

theorem Written.unique {library : Library Content Payload} {payloads payloads' : List Payload}
    (first : Written library plan self machine field payloads)
    (second : Written library plan self machine field payloads') : payloads = payloads' := by
  cases first <;> cases second <;> simp_all

/-- The records of a field for what it has on the wire. -/
def recordsOf (field : FieldPlan) (payloads : List Payload) : List (Record Payload) :=
  payloads.map fun payload => ⟨field.field.number, payload⟩

/-- Messages, and they alone, have no codec. -/
theorem wireCodec_cases {type : FieldType} {support : TypeSupport}
    (supported : Supported type support) :
    (support.wireCodec = none ∧ type.isMessage = true) ∨
      ∃ codec, support.wireCodec = some codec ∧ type.isMessage = false := by
  cases supported with
  | scalar runtime type => exact .inr ⟨_, rfl, rfl⟩
  | declared runtime kind typeName reference =>
    cases kind with
    | message => exact .inl ⟨rfl, rfl⟩
    | enumeration => exact .inr ⟨_, rfl, rfl⟩

/-- A codec leaves out exactly the value that stands for absence. -/
theorem isDefault_iff {type : FieldType} (plain : type.isMessage = false) {value : Value}
    (fits : FitsType type value) : value.isDefault = true ↔ value = absentValue type := by
  cases type with
  | scalar type =>
    rw [FitsType] at fits
    cases type <;> cases value <;> simp_all [FitsScalar, Value.isDefault, absentValue]
  | reference kind typeName =>
    obtain ⟨ordinal, -, rfl⟩ := fits
    cases kind with
    | message => cases plain
    | enumeration => simp [Value.isDefault, absentValue]

theorem eval_stream {call : Caller Content Payload} {name : String} {value : Value}
    (other : Text.sameLetters name "Self" = false) :
    (eval program call (argumentFrame self name value) (.localName name)).on machine =
      (.ok value, machine) := by
  refine eval_local ?_
  simp [Frame.read?, argumentFrame, other]

theorem eval_fieldNumber (implements : Implements program.code plan) (inside : field ∈ plan.fields)
    {call : Caller Content Payload} {frame : Frame} :
    (eval program call frame field.number).on machine =
      (.ok (.integer field.field.number), machine) :=
  eval_number (implements.number inside)

theorem evalAll_codecArgument {call : Caller Content Payload} {frame : Frame} :
    (evalAll program call frame field.codecArgument).on machine =
      (.ok (field.support.wireCodec.map Value.codec).toList, machine) := by
  unfold FieldPlan.codecArgument
  cases field.support.wireCodec with
  | none => exact congrArg (Run.on · machine) (evalAll_nil ..)
  | some codec =>
    have codecValue : (eval program call frame (.runtimeObject codec)).on machine =
        (.ok (.codec codec), machine) := by
      rw [eval, Run.on_pure]
    exact evalAll_cons codecValue (congrArg (Run.on · machine) (evalAll_nil ..))

/-! ### Calls of the library -/

section

variable (library : Library Content Payload) {address : Address} {content : Content}
  (found : machine.objects address = some content) (destination : Address) (number : Int)

include found in
theorem useValue_encodeCollection (codec : Option String) :
    (useValue library (.object address) "EncodeAsRepeatedField" (.stream destination ::
      .integer number :: (codec.map Value.codec).toList)).on machine =
        (.ok .nil, machine.write destination
          ((library.encodeCollection codec content).map (⟨number, ·⟩))) := by
  rw [useValue, Run.on_bind, Run.on_look, found]
  cases codec <;> rfl

include found in
theorem useValue_encodeMessage : (useValue library (.object address) "EncodeAsSingularField"
    [.stream destination, .integer number]).on machine =
      (.ok .nil, machine.write destination [⟨number, library.encodeMessage content⟩]) := by
  rw [useValue, Run.on_bind, Run.on_look, found]
  rfl

theorem useCodec_encodeSingular (codec : String) (value : Value) :
    (useCodec library codec "EncodeSingularField"
      [value, .integer number, .stream destination]).on machine =
        (.ok .nil, machine.write destination
          (if value.isDefault then [] else [⟨number, library.encodeScalar codec value⟩])) :=
  rfl

end

/-! ### Encoding -/

section

variable (implements : Implements program.code plan) (inside : field ∈ plan.fields)
  {destination : Address} {records : List (Record Payload)} {call : Caller Content Payload}

include implements inside in
theorem exec_invoke_backing {frame : Frame} {method : String} {arguments : List Expr}
    {values : List Value} {answer : Value} {final : Machine Content Payload}
    (argumentValues : (evalAll program call frame arguments).on machine = (.ok values, machine))
    (used : (useValue program.library (stored frame.self machine field) method values).on machine =
      (.ok answer, final)) :
    (exec program call (invoke field.backing method arguments) frame).on machine =
      (.ok frame, final) :=
  exec_invoke ((eval_invoke (eval_backing implements inside) argumentValues).trans used)

include implements inside in
theorem exec_encodeCollection {address : Address} {content : Content}
    (holds : stored self machine field = .object address)
    (alive : machine.objects address = some content) :
    (exec program call (invoke field.backing "EncodeAsRepeatedField"
      ([.localName "aDest", field.number] ++ field.codecArgument))
      (argumentFrame self "aDest" (.stream destination))).on machine =
        (.ok (argumentFrame self "aDest" (.stream destination)),
          machine.write destination (recordsOf field
            (program.library.encodeCollection field.support.wireCodec content))) := by
  have arguments : (evalAll program call (argumentFrame self "aDest" (.stream destination))
      ([.localName "aDest", field.number] ++ field.codecArgument)).on machine =
        (.ok (.stream destination :: .integer field.field.number ::
          (field.support.wireCodec.map Value.codec).toList), machine) :=
    evalAll_cons (eval_stream (by decide))
      (evalAll_cons (eval_fieldNumber implements inside) evalAll_codecArgument)
  have used := useValue_encodeCollection program.library alive destination field.field.number
    field.support.wireCodec
  rw [← holds] at used
  exact exec_invoke_backing implements inside arguments used

include implements inside in
theorem exec_encodeMessage {address : Address} {content : Content}
    (holds : stored self machine field = .object address)
    (alive : machine.objects address = some content) :
    (exec program call (invoke field.backing "EncodeAsSingularField"
      [.localName "aDest", field.number])
      (argumentFrame self "aDest" (.stream destination))).on machine =
        (.ok (argumentFrame self "aDest" (.stream destination)),
          machine.write destination (recordsOf field [program.library.encodeMessage content])) := by
  have arguments : (evalAll program call (argumentFrame self "aDest" (.stream destination))
      [.localName "aDest", field.number]).on machine =
        (.ok [.stream destination, .integer field.field.number], machine) :=
    evalAll_cons (eval_stream (by decide))
      (evalAll_cons (eval_fieldNumber implements inside) (by rw [evalAll_nil, Run.on_pure]))
  have used := useValue_encodeMessage program.library alive destination field.field.number
  rw [← holds] at used
  exact exec_invoke_backing implements inside arguments used

include implements inside in
theorem exec_encodeValue {codec method : String} {final : Machine Content Payload}
    (written : (useCodec program.library codec method [stored self machine field,
      .integer field.field.number, .stream destination]).on machine = (.ok .nil, final)) :
    (exec program call (invoke (.runtimeObject codec) method
      [field.backing, field.number, .localName "aDest"])
      (argumentFrame self "aDest" (.stream destination))).on machine =
        (.ok (argumentFrame self "aDest" (.stream destination)), final) := by
  have codecValue : (eval program call (argumentFrame self "aDest" (.stream destination))
      (.runtimeObject codec)).on machine = (.ok (.codec codec), machine) := by
    rw [eval, Run.on_pure]
  have arguments : (evalAll program call (argumentFrame self "aDest" (.stream destination))
      [field.backing, field.number, .localName "aDest"]).on machine =
        (.ok [stored self machine field, .integer field.field.number, .stream destination],
          machine) :=
    evalAll_cons (eval_backing implements inside) (evalAll_cons
      (eval_fieldNumber implements inside) (evalAll_cons (eval_stream (by decide))
        (by rw [evalAll_nil, Run.on_pure])))
  exact exec_invoke ((eval_invoke codecValue arguments).trans written)

include implements inside in
theorem eval_has_iff {frame : Frame} (single : field.field.repeated = false)
    (consistent : Consistent plan frame.self machine) :
    ∃ value : Bool, (value = true ↔ Present plan frame.self machine field) ∧
      ∀ depth, (eval program (invokeMethod program (depth + 1)) frame field.has).on machine =
        (.ok (.truth value), machine) := by
  obtain ⟨presence, named⟩ := exists_presence implements.wellFormed inside single
  obtain ⟨value, iff, read⟩ := invoke_presence implements inside named consistent
  refine ⟨value, iff, fun depth => ?_⟩
  rw [eval_has implements inside named]
  exact read depth

include implements inside in
/-- A field that writes one record if it is present, and nothing otherwise. -/
theorem execAll_encodePresent {statement : Statement Action Expr}
    (single : field.field.repeated = false) (consistent : Consistent plan self machine)
    (writes : Present plan self machine field → ∃ payload,
      Written program.library plan self machine field [payload] ∧ ∀ call, (exec program call
        statement (argumentFrame self "aDest" (.stream destination))).on machine =
          (.ok (argumentFrame self "aDest" (.stream destination)),
            machine.write destination (recordsOf field [payload]))) :
    ∃ payloads, Written program.library plan self machine field payloads ∧
      Completes program 1 [ifThen field.has [statement]]
        (argumentFrame self "aDest" (.stream destination)) machine
        (machine.write destination (recordsOf field payloads)) := by
  have start : Consistent plan (argumentFrame self "aDest" (.stream destination)).self machine :=
    consistent
  have decided := eval_has_iff implements inside single start
  by_cases present : Present plan self machine field
  · obtain ⟨payload, written, ran⟩ := writes present
    exact ⟨[payload], written, completes_ifElse decided
      (fun _ depth => (execAll_singleton _).trans (ran _)) (absurd present)⟩
  · refine ⟨[], .missing single present, completes_ifElse decided (absurd · present) fun _ => ?_⟩
    have same : machine.write destination (recordsOf field []) = machine := by
      simp [recordsOf, Machine.write]
    rw [same]
    exact completes_nil

include implements inside in
/-- Outside oneofs a value is written unless it is the one that stands for absence. -/
theorem exec_encodeSingular {codec : String} (single : field.field.repeated = false)
    (plain : field.field.type.isMessage = false) (coded : field.support.wireCodec = some codec)
    (outside : field.membership = none) (owns : Owns plan self machine) :
    ∃ payloads, Written program.library plan self machine field payloads ∧ ∀ call,
      (exec program call (invoke (.runtimeObject codec) "EncodeSingularField"
        [field.backing, field.number, .localName "aDest"])
        (argumentFrame self "aDest" (.stream destination))).on machine =
          (.ok (argumentFrame self "aDest" (.stream destination)),
            machine.write destination (recordsOf field payloads)) := by
  have fits : FitsType field.field.type (stored self machine field) := by
    have fits := owns.fits field inside
    rwa [Fits, holdsObjects, single, plain, if_neg (by simp)] at fits
  have default := isDefault_iff plain fits
  have written (call : Caller Content Payload) :
      (exec program call (invoke (.runtimeObject codec) "EncodeSingularField"
        [field.backing, field.number, .localName "aDest"])
        (argumentFrame self "aDest" (.stream destination))).on machine = _ :=
    exec_encodeValue implements inside (useCodec_encodeSingular _ _ _ _ _)
  by_cases same : stored self machine field = absent field
  · have gone : ¬ Present plan self machine field := by
      rw [present_iff_of_outside outside, not_not]
      exact same
    refine ⟨[], .missing single gone, fun call => (written call).trans ?_⟩
    rw [if_pos (default.mpr same)]
    rfl
  · refine ⟨_, .value single ((present_iff_of_outside outside).mpr same) plain coded, fun call =>
      (written call).trans ?_⟩
    rw [if_neg fun isDefault => same (default.mp isDefault)]
    rfl

include implements inside in
/-- **A field writes what it has on the wire.** -/
theorem execAll_encodeBody (destination : Address) (consistent : Consistent plan self machine)
    (filled : Filled plan self machine) :
    ∃ payloads, Written program.library plan self machine field payloads ∧
      Completes program 1 field.encodeBody (argumentFrame self "aDest" (.stream destination)) machine
        (machine.write destination (recordsOf field payloads)) := by
  have wellFormed := implements.wellFormed
  have owns := consistent.owns
  unfold FieldPlan.encodeBody
  cases repeated : field.field.repeated with
  | true =>
    obtain ⟨address, content, holds, alive⟩ :=
      Sound.collection ⟨consistent, filled⟩ inside repeated
    refine ⟨_, .collection repeated holds alive, fun depth => ?_⟩
    rw [if_pos rfl, execAll_singleton]
    exact exec_encodeCollection implements inside holds alive
  | false =>
    rw [if_neg Bool.false_ne_true]
    rcases wireCodec_cases (wellFormed.supported field inside) with
      ⟨coded, message⟩ | ⟨codec, coded, plain⟩
    · rw [coded]
      refine execAll_encodePresent implements inside repeated consistent fun here => ?_
      obtain ⟨address, content, holds, alive⟩ := here.object wellFormed inside consistent message
      exact ⟨_, .message repeated here message holds alive, fun call =>
        exec_encodeMessage implements inside holds alive⟩
    · rw [coded]
      cases member : field.membership with
      | none =>
        obtain ⟨payloads, written, ran⟩ :=
          exec_encodeSingular implements inside repeated plain coded member owns
        exact ⟨payloads, written, fun depth => by rw [execAll_singleton, ran]⟩
      | some membership =>
        refine execAll_encodePresent implements inside repeated consistent fun here => ?_
        exact ⟨_, .value repeated here plain coded, fun call =>
          exec_encodeValue implements inside rfl⟩

omit inside in
include implements in
/-- **All fields write what they have on the wire**, one after the other. -/
theorem execAll_encode (consistent : Consistent plan self machine)
    (filled : Filled plan self machine) {payloadsOf : FieldPlan → List Payload}
    (written : ∀ field ∈ plan.fields,
      Written program.library plan self machine field (payloadsOf field))
    (fields : List FieldPlan) (part : ∀ field ∈ fields, field ∈ plan.fields)
    (records : List (Record Payload)) :
    Completes program 1 (fields.flatMap FieldPlan.encodeBody)
      (argumentFrame self "aDest" (.stream destination)) (machine.write destination records)
      (machine.write destination
        (records ++ fields.flatMap fun field => recordsOf field (payloadsOf field))) := by
  -- On the fields that remain, for any records already written: these touch nothing that a field
  -- reads, so each field still writes what it has on the wire at the start.
  induction fields generalizing records with
  | nil =>
    rw [List.flatMap_nil, List.flatMap_nil, List.append_nil]
    exact completes_nil
  | cons field rest ih =>
    have field_inside := part field (List.mem_cons_self ..)
    have before : Consistent plan self (machine.write destination records) :=
      (elsewhere_write consistent.owns destination records).consistent consistent
    obtain ⟨payloads, now, ran⟩ :=
      execAll_encodeBody implements field_inside destination before filled
    have same : payloads = payloadsOf field := by
      refine Written.unique ?_ (written field field_inside)
      cases now with
      | collection repeated holds alive => exact .collection repeated holds alive
      | missing single gone => exact .missing single gone
      | message single present message holds alive =>
        exact .message single present message holds alive
      | value single present plain coded => exact .value single present plain coded
    subst same
    rw [Machine.write_write] at ran
    rw [List.flatMap_cons, List.flatMap_cons, ← List.append_assoc]
    exact ran.append (ih (fun other later => part other (List.mem_cons_of_mem _ later)) _)

omit inside in
include implements in
/-- **An instance is written to a stream**: the records of its ancestor, and then those of its fields
in order. -/
theorem invoke_encode (consistent : Consistent plan self machine)
    (filled : Filled plan self machine) (destination : Address) :
    ∃ payloadsOf : FieldPlan → List Payload, (∀ field ∈ plan.fields,
      Written program.library plan self machine field (payloadsOf field)) ∧
        ∀ depth, (invokeMethod program (depth + 2) self "Encode" [.stream destination]).on machine =
          (.ok .nil, machine.write destination (program.library.ancestorRecords ++
            plan.fields.flatMap fun field => recordsOf field (payloadsOf field))) := by
  obtain ⟨implementation, found, parameters, body⟩ := implements.encode
  have each : ∀ field ∈ plan.fields, ∃ payloads,
      Written program.library plan self machine field payloads := by
    intro field inside
    obtain ⟨payloads, written, -⟩ :=
      execAll_encodeBody implements inside destination consistent filled
    exact ⟨payloads, written⟩
  choose! payloadsOf written using each
  refine ⟨payloadsOf, written, fun depth =>
    invokeMethod_procedure found parameters (by decide) ?_⟩
  have inherited : (exec program (invokeMethod program (depth + 1))
      (inheritCall "Encode" [.localName "aDest"])
      (argumentFrame self "aDest" (.stream destination))).on machine =
        (.ok (argumentFrame self "aDest" (.stream destination)),
          machine.write destination program.library.ancestorRecords) :=
    exec_inheritCall (evalAll_cons (eval_stream (by decide))
      (by rw [evalAll_nil, Run.on_pure])) rfl
  rw [body, execAll_cons inherited]
  exact execAll_encode implements consistent filled written plan.fields (fun _ => id) _ depth

end

end ProtoPascal.Execution
