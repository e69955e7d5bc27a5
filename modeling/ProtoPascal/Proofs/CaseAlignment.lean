import ProtoPascal.Proofs.Execution.Implements
import ProtoPascal.Proofs.Failures

/-!
The case type of a oneof, the presence of its members and the setter of its case speak of the same
values. Which value stands for a member is looked up by the number of the member, once for the
accessors of its presence and once for the arms of the setter. Both find the value at the position of
the member, because the numbers of fields differ.

* `arms_eq_zipWith`: the arms of the setter pair the values with the members, in order;
* `case_values_line_up`: the parts of a oneof that is generated for an accepted message agree, and no
  error says that they do not.
-/

namespace ProtoPascal.Execution

open Message
open Naming
open Pascal
open Schema (MessageType)

/-! ### What has to agree -/

/-- A class has a method with a body under a name. -/
def HasBody (code : ClassCode) (name : String) (body : Body) : Prop :=
  ∃ implementation, code.method? name = some implementation ∧ implementation.body = body

/-- The presence property of a member tells and changes whether the case is the value that stands for
the member. -/
structure PresenceAligned (code : ClassCode) (names : OneofNames) (noneValue : Expr)
    (member : FieldPlan) (value : Expr) (presence : PresenceNames) : Prop where
  named : member.names.presence = some presence
  property : code.item? presence.property =
    some (.property presence.property "Boolean" presence.getter presence.setter)
  getter : HasBody code presence.getter
    [assign resultValue (.parenthesized (.compare (.own names.backing) .equal value))]
  setter : HasBody code presence.setter
    [.ifElse incomingValue
      [ifThen (.negate (.own presence.property)) [assign (.own names.property) value]]
      [ifThen (.own presence.property) [assign (.own names.property) noneValue]]]

/-- The case type of a oneof has one value for no member and one for each member. The presence of the
members and the setter of the case go by these values. -/
structure CasesAligned (code : ClassCode) (oneof : OneofPlan) (noneValue : Expr)
    (values : List Expr) : Prop where
  caseType : .nestedType .publicSection [] (.enumType oneof.names.caseEnum) ∈ code.members
  backing : code.item? oneof.names.backing =
    some (.field oneof.names.backing oneof.names.caseType)
  property : code.item? oneof.names.property =
    some (.property oneof.names.property oneof.names.caseType oneof.names.getter
      oneof.names.setter)
  ordinals : oneof.names.caseEnum.values.map EnumMember.ordinal =
    (List.range (oneof.members.length + 1)).map Int.ofNat
  /-- The values in the order of their ordinals, as the code of the class refers to them. -/
  qualified : oneof.names.caseEnum.values.map
    (fun value => .enumValue oneof.names.caseType value.name) = noneValue :: values
  apart : Apart (oneof.names.caseEnum.values.map EnumMember.name)
  unreserved : ∀ value ∈ oneof.names.caseEnum.values, ∀ keyword ∈ keywords,
    Text.fold keyword ≠ Text.fold value.name
  presence : List.Forall₂ (fun member value =>
    ∃ presence, PresenceAligned code oneof.names noneValue member value presence)
    oneof.members values
  setter : HasBody code oneof.names.setter
    [ifThen (.compare incomingValue .different (.own oneof.names.backing))
      [.caseOf (.own oneof.names.backing)
        (List.zipWith (fun value member => .arm value member.releaseBody) values oneof.members),
       assign (.own oneof.names.backing) incomingValue,
       .caseOf (.own oneof.names.backing)
        (List.zipWith (fun value member => .arm value member.initializeBody) values
          oneof.members)]]

/-! ### Values and members -/

/-- The arms for members pair the values that stand for them with what is done to them. -/
theorem arms_eq_zipWith {oneof : OneofPlan} (body : FieldPlan → Body)
    (stand : List.Forall₂ (fun member (value : CaseValue) =>
      oneof.names.caseValue? member.field.number = some value.name)
      oneof.members oneof.names.caseValues) :
    oneof.arms body = List.zipWith (fun value member => .arm value (body member))
      (oneof.names.caseValues.map fun value => oneof.names.qualify value.name) oneof.members := by
  unfold OneofPlan.arms
  -- The lookup is in all values of the oneof, while the induction goes through the members.
  generalize oneof.names.caseValue? = lookup at stand ⊢
  generalize oneof.names.caseValues = values at stand ⊢
  generalize oneof.members = members at stand ⊢
  induction stand with
  | nil => rfl
  | cons first _ ih =>
    rw [List.map_cons, List.zipWith_cons_cons, ← ih,
      List.filterMap_cons_some (by rw [first]; rfl)]

/-! ### Generated classes -/

/-- The ordinals of the values of a case type count from zero. -/
theorem caseEnum_ordinals (names : OneofNames) :
    names.caseEnum.values.map EnumMember.ordinal =
      (List.range (names.caseValues.length + 1)).map Int.ofNat := by
  refine List.ext_getElem ?_ fun position _ _ => ?_
  · simp [OneofNames.caseEnum]
  · simp only [OneofNames.caseEnum, List.getElem_map, List.getElem_mapIdx, List.getElem_range]
    rfl

/-- The presence of a member goes by the value that stands for it. -/
theorem presence_aligned {code : ClassCode} {plan : ClassPlan} (implements : Implements code plan)
    {member : FieldPlan} (inside : member ∈ plan.fields) {names : OneofNames} {caseValue : String}
    (membership : member.membership = some { oneof := names, caseValue }) :
    ∃ presence, PresenceAligned code names (names.qualify names.noneValue) member
      (names.qualify caseValue) presence := by
  have singular : member.field.repeated = false := by
    by_contra repeated
    have absent := implements.wellFormed.repeated member inside (Bool.not_eq_false _ ▸ repeated)
    rw [membership] at absent
    cases absent
  have present := implements.wellFormed.presence member inside
  rw [singular, Bool.not_false, Option.isSome_iff_exists] at present
  obtain ⟨presence, named⟩ := present
  have has_eq : member.has = .own presence.property := by
    rw [FieldPlan.has, FieldPlan.presenceName, named]
  refine ⟨presence, named, implements.presenceProperty inside named, ?_, ?_⟩
  · refine ⟨_, implements.presenceGetter inside named, ?_⟩
    show member.presenceGetterBody = _
    rw [FieldPlan.presenceGetterBody, membership]
    rfl
  · refine ⟨_, implements.presenceSetter inside named, ?_⟩
    show member.presenceSetterBody = _
    rw [FieldPlan.presenceSetterBody, membership, has_eq]
    rfl

/-- The parts of a oneof of a class agree. -/
theorem cases_aligned {parts : ClassParts} {context : Context} {place : Place}
    {message : MessageType} (of : parts.PartsOf context place message)
    (apart : Apart (declaredNames parts.members)) (accepted : message.Accepted)
    (shownName : String) {position : Nat} {oneof : OneofPlan}
    (found : parts.plan.oneofs[position]? = some oneof) :
    ∃ noneValue values,
      CasesAligned (classCode place (parts.assemble shownName)) oneof noneValue values := by
  have implements := implements_of_partsOf of apart accepted shownName
  have inside := List.mem_of_getElem? found
  have stand := of.covers.members_values accepted found
  have arms_eq (body : FieldPlan → Body) :=
    arms_eq_zipWith body (stand.imp fun _ _ related => related.2.2)
  have declared : .nestedType .publicSection [] (.enumType oneof.names.caseEnum) ∈
      parts.derivedMembers :=
    (mem_flatMapSlots of.covers.slots_perm).mpr (.inr ⟨oneof, inside, List.mem_cons_self ..⟩)
  obtain ⟨last, extended⟩ := make_values of.planned oneof inside
  refine ⟨oneof.names.qualify oneof.names.noneValue,
    oneof.names.caseValues.map fun value => oneof.names.qualify value.name, ?_⟩
  exact {
    caseType := List.mem_append_left _ (List.mem_append_right _ declared)
    backing := implements.caseBacking inside
    property := implements.caseProperty inside
    ordinals := by rw [caseEnum_ordinals, stand.length_eq]
    qualified := by
      show oneof.names.caseEnum.values.map (oneof.names.qualify ∘ EnumMember.name) = _
      rw [← List.map_map, caseEnum_names, OneofNames.valueNames, List.map_cons, List.map_map]
      rfl
    apart := by
      rw [caseEnum_names]
      exact extended.apart
    unreserved := by
      intro value declared
      refine extended.fresh value.name ?_
      rw [← caseEnum_names]
      exact List.mem_map_of_mem declared
    presence := by
      rw [List.forall₂_map_right_iff]
      exact stand.imp fun member value related =>
        presence_aligned implements related.1 related.2.1
    setter := by
      refine ⟨_, implements.caseSetter inside, ?_⟩
      show oneof.setterBody = _
      rw [OneofPlan.setterBody, arms_eq, arms_eq]
      rfl }

/-- **Case types, presence and the setter of the case line up.** In the class of an accepted message
each oneof has a case type with one value for no member and one for each member in order, and the
presence of the members and the arms of the setter go by these values. No error says that a oneof or
a case value is missing, and no slot is that of a oneof that is not there. -/
theorem case_values_line_up {descriptor : Schema.FileDescriptor} {file : Schema.File}
    {message outer : MessageType} (accepted : Schema.File.ofDescriptor descriptor = .ok file)
    (declared : outer ∈ file.messages) (within : message.Within outer) (context : Context)
    (place : Place) :
    OneofsDeclared message ∧
    (∀ position, .oneof position ∈ declarationSlots message.fields message.oneofs.length →
      position < message.oneofs.length) ∧
    (∀ error, (generateMessage context place message).result = .error error →
      (∀ field index, error ≠ .invalidSchema (.undeclaredOneof field index)) ∧
        ∀ field oneof, error ≠ .invalidSchema (.missingFromOneof field oneof)) ∧
    ∀ generated, (generateMessage context place message).result = .ok generated →
      ∃ parts, classParts context place message = .ok parts ∧
        parts.plan.oneofs.length = message.oneofs.length ∧
        ∀ position oneof, parts.plan.oneofs[position]? = some oneof →
          oneof.members.map FieldPlan.field = message.oneofMembers position ∧
          ∃ noneValue values,
            CasesAligned (classCode place generated) oneof noneValue values := by
  have oneofsDeclared (inner : MessageType) (deeper : inner.Within message) :
      OneofsDeclared inner := fun field inside position belongs =>
    Schema.File.ofDescriptor_oneofIndex_lt accepted declared (deeper.trans within) inside belongs
  refine ⟨oneofsDeclared message .self, ?_, ?_, ?_⟩
  · intro position slotted
    have slots := (declarationSlots_perm (oneofsDeclared message .self)).mem_iff.mp slotted
    simpa using slots
  · intro error failed
    have remains := generateMessage_failsOnlyWith message place oneofsDeclared error failed
    cases remains <;> simp
  · intro generated success
    obtain ⟨parts, planned, apart, rfl⟩ := generateMessage_eq_ok.mp success
    have of := classParts_eq_ok.mp planned
    refine ⟨parts, planned, of.covers.oneofs_length, fun position oneof found => ⟨?_, ?_⟩⟩
    · exact of.covers.members_eq found
    · exact cases_aligned of apart
        (Schema.File.ofDescriptor_accepted accepted declared within) _ found

/-- A file with a oneof in a nested message. One of its members has the name that stands for no
member. -/
def pickDescriptor : Schema.FileDescriptor :=
  { name := some "pick.proto"
    messages :=
      [{ name := some "Outer"
         nestedMessages :=
           [{ name := some "Inner"
              fields :=
                [{ name := some "end", number := some 2, type := some 5, oneofIndex := some 0 },
                 { name := some "none", number := some 1, type := some 9, oneofIndex := some 0 }]
              oneofs := [{ name := some "pick" }] }] }] }

/-- The nested message of the file. -/
def pickMessage : MessageType :=
  { name := "Inner"
    fields :=
      [{ name := "end", number := 2, type := .scalar .int32, oneofIndex := some 0 },
       { name := "none", number := 1, type := .scalar .string, oneofIndex := some 0 }]
    oneofs := [{ name := "pick" }] }

/-- The oneof of the nested message has three values, which the presence of its members and the setter
of its case go by. -/
theorem pick_case_values_line_up :
    ∃ generated oneof,
      (generateMessage { index := {}, runtime := .reference, unit := "uPick" }
        ⟨".Outer", some "TOuter"⟩ pickMessage).result = .ok generated ∧
      oneof.members.map FieldPlan.field = pickMessage.fields ∧
      CasesAligned (classCode ⟨".Outer", some "TOuter"⟩ generated) oneof
        (.enumValue "TPickCase" "PickCaseNone")
        [.enumValue "TPickCase" "PickCaseEnd", .enumValue "TPickCase" "PickCaseNone_"] := by
  have accepted : Schema.File.ofDescriptor pickDescriptor = .ok { name := "pick.proto", messages :=
      [{ name := "Outer", nestedMessages := [pickMessage] }] } := rfl
  have evaluated : (do
      let generated ← (generateMessage { index := {}, runtime := .reference, unit := "uPick" }
        ⟨".Outer", some "TOuter"⟩ pickMessage).result
      let parts ← classParts { index := {}, runtime := .reference, unit := "uPick" }
        ⟨".Outer", some "TOuter"⟩ pickMessage
      return parts.plan.oneofs.map fun (oneof : OneofPlan) =>
        (oneof.names.caseType, oneof.names.caseEnum.values.map EnumMember.name)) =
      .ok [("TPickCase", ["PickCaseNone", "PickCaseEnd", "PickCaseNone_"])] := by
    decide +kernel
  obtain ⟨generated, success, evaluated⟩ := bind_eq_ok.mp evaluated
  obtain ⟨parts, planned, evaluated⟩ := bind_eq_ok.mp evaluated
  have first := congrArg (·[0]?) (pure_eq_ok.mp evaluated)
  rw [List.getElem?_map, List.getElem?_cons_zero, Option.map_eq_some_iff] at first
  obtain ⟨oneof, found, shown⟩ := first
  obtain ⟨caseType_eq, names_eq⟩ := Prod.mk.inj shown
  obtain ⟨-, -, -, lines_up⟩ := case_values_line_up accepted (List.mem_cons_self ..)
    (.nested (List.mem_cons_self ..) .self) _ _
  obtain ⟨foundParts, foundPlanned, -, each⟩ := lines_up generated success
  rw [planned, Except.ok.injEq] at foundPlanned
  subst foundPlanned
  obtain ⟨members_eq, noneValue, values, aligned⟩ := each 0 oneof found
  have qualified := aligned.qualified
  rw [show (fun value : EnumMember => Expr.enumValue oneof.names.caseType value.name) =
    Expr.enumValue oneof.names.caseType ∘ EnumMember.name from rfl, ← List.map_map, names_eq,
    caseType_eq] at qualified
  obtain ⟨rfl, rfl⟩ := List.cons.inj qualified
  exact ⟨generated, oneof, success, members_eq, aligned⟩

end ProtoPascal.Execution
