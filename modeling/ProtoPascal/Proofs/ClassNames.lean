import ProtoPascal.Message.ClassPlan
import ProtoPascal.Proofs.Naming

/-!
The names that the fields and oneofs of a message take in the scope of its class.

* `fieldNames_granted`, `oneofNames_granted`: what a field and a oneof ask of the scope, and get;
* `claimCaseValues_granted`: the values of a case type stand for the members in order, and the value for
  no member comes first;
* `claimNames_grants`: what all fields and then all oneofs of a message ask for, and get;
* `claimNames_extends`: all fields and then all oneofs of a message extend the scope by all names;
* `claimNames_granted`: what each field and each oneof of a message gets of what it asks for.
-/

namespace ProtoPascal.Message

open Naming
open Schema (Field MessageType Oneof)

/-! ### Names of fields -/

/-- The names of the presence of a field, in the order in which they are taken. -/
def PresenceNames.all (names : PresenceNames) : List String :=
  [names.property, names.getter, names.setter]

/-- The names of a field, in the order in which they are taken. -/
def FieldNames.all (names : FieldNames) : List String :=
  [names.backing, names.property, names.getter, names.setter]
    ++ (names.presence.map PresenceNames.all).getD []
    ++ [names.numberConstant, names.nameConstant]

/-- What the presence of a field asks of the scope. -/
def presenceRequests (core : String) : List NameRequest :=
  [{ rule := .presence, core }, { rule := .presenceGetter, core }, { rule := .presenceSetter, core }]

/-- What a field asks of the scope. -/
def fieldRequests (field : Field) : List NameRequest :=
  [{ rule := .backingField, core := field.name },
   { rule := .property, colliding := propertyColliding, core := field.name },
   { rule := .getter, colliding := getterColliding, core := field.name },
   { rule := .setter, colliding := setterColliding, core := field.name }]
    ++ (if field.repeated then [] else presenceRequests field.name)
    ++ [{ rule := .fieldNumber, core := field.name }, { rule := .fieldName, core := field.name }]

theorem presenceNames_granted {core : String} {names : PresenceNames} {scope final : Scope}
    (claimed : (PresenceNames.claim core).runIn scope = (.ok names, final)) :
    scope.Grants (presenceRequests core) names.all final := by
  unfold PresenceNames.claim at claimed
  obtain ⟨property, first, property_claimed, claimed⟩ := runIn_bind_eq_ok.mp claimed
  obtain ⟨getter, second, getter_claimed, claimed⟩ := runIn_bind_eq_ok.mp claimed
  obtain ⟨setter, third, setter_claimed, claimed⟩ := runIn_bind_eq_ok.mp claimed
  rw [runIn_pure, Prod.mk.injEq, Except.ok.injEq] at claimed
  obtain ⟨rfl, rfl⟩ := claimed
  exact (runIn_claim_grants property_claimed).trans
    ((runIn_claim_grants getter_claimed).trans (runIn_claim_grants setter_claimed))

theorem fieldConstants_granted {field : Field} (names : FieldNames) {result : FieldNames}
    {scope final : Scope}
    (claimed : Claiming.runIn (do
      let numberConstant ← Naming.claim .fieldNumber [] field.name
      let nameConstant ← Naming.claim .fieldName [] field.name
      return { names with numberConstant, nameConstant }) scope = (.ok result, final)) :
    scope.Grants [{ rule := .fieldNumber, core := field.name }, { rule := .fieldName, core := field.name }]
        [result.numberConstant, result.nameConstant] final ∧
      result = { names with
        numberConstant := result.numberConstant, nameConstant := result.nameConstant } := by
  obtain ⟨number, first, number_claimed, claimed⟩ := runIn_bind_eq_ok.mp claimed
  obtain ⟨name, second, name_claimed, claimed⟩ := runIn_bind_eq_ok.mp claimed
  rw [runIn_pure, Prod.mk.injEq, Except.ok.injEq] at claimed
  obtain ⟨rfl, rfl⟩ := claimed
  exact ⟨(runIn_claim_grants number_claimed).trans (runIn_claim_grants name_claimed), rfl⟩

/-- **The scope grants the names of a field**, those of its presence among them unless it is
repeated. -/
theorem fieldNames_granted {field : Field} {names : FieldNames} {scope final : Scope}
    (claimed : (FieldNames.claim field).runIn scope = (.ok names, final)) :
    scope.Grants (fieldRequests field) names.all final ∧
      names.presence.isSome = !field.repeated := by
  unfold FieldNames.claim at claimed
  obtain ⟨backing, first, backing_claimed, claimed⟩ := runIn_bind_eq_ok.mp claimed
  obtain ⟨property, second, property_claimed, claimed⟩ := runIn_bind_eq_ok.mp claimed
  obtain ⟨getter, third, getter_claimed, claimed⟩ := runIn_bind_eq_ok.mp claimed
  obtain ⟨setter, fourth, setter_claimed, claimed⟩ := runIn_bind_eq_ok.mp claimed
  have accessors := (runIn_claim_grants backing_claimed).trans
    ((runIn_claim_grants property_claimed).trans
      ((runIn_claim_grants getter_claimed).trans (runIn_claim_grants setter_claimed)))
  unfold fieldRequests
  cases repeated : field.repeated with
  | true =>
    rw [repeated, if_pos rfl, pure_bind] at claimed
    obtain ⟨constants, shape⟩ := fieldConstants_granted
      { backing, property, getter, setter, presence := none, numberConstant := "",
        nameConstant := "" } claimed
    rw [shape]
    exact ⟨accessors.trans constants, rfl⟩
  | false =>
    rw [repeated, if_neg Bool.false_ne_true, map_eq_pure_bind, bind_assoc] at claimed
    obtain ⟨presence, fifth, presence_claimed, claimed⟩ := runIn_bind_eq_ok.mp claimed
    rw [pure_bind] at claimed
    obtain ⟨constants, shape⟩ := fieldConstants_granted
      { backing, property, getter, setter, presence := some presence, numberConstant := "",
        nameConstant := "" } claimed
    rw [shape]
    exact ⟨(accessors.trans (presenceNames_granted presence_claimed)).trans constants, rfl⟩

theorem fieldRequests_insensitive (field : Field) :
    ∀ request ∈ fieldRequests field, request.rule.caseSensitive = false := by
  unfold fieldRequests presenceRequests
  cases field.repeated <;> simp [Rule.backingField, Rule.property, Rule.getter, Rule.setter,
    Rule.presence, Rule.presenceGetter, Rule.presenceSetter, Rule.fieldNumber, Rule.fieldName]

/-! ### Names of oneofs -/

/-- The names of a oneof in its class, in the order in which they are taken. -/
def OneofNames.all (names : OneofNames) : List String :=
  [names.caseType, names.backing, names.property, names.getter, names.setter]

/-- The values of a case type, that for no member first. -/
def OneofNames.valueNames (names : OneofNames) : List String :=
  names.noneValue :: names.caseValues.map CaseValue.name

/-- What the value that stands for a member asks of the scope of the case type. -/
def caseRequest (oneof : Oneof) (member : Field) : NameRequest :=
  { rule := .caseValue, core := oneofCore oneof ++ "_case_" ++ member.name }

/-- What the values of a case type ask of their scope, that for no member first. -/
def caseRequests (oneof : Oneof) (members : List Field) : List NameRequest :=
  { rule := .caseValue, core := oneofCore oneof ++ "_case_none" } :: members.map (caseRequest oneof)

/-- The scope grants the value for a member, which has the number of the member. -/
theorem caseValue_granted {oneof : Oneof} {member : Field} {value : CaseValue}
    {scope final : Scope}
    (claimed : (CaseValue.claim oneof member).runIn scope = (.ok value, final)) :
    scope.Grants [caseRequest oneof member] [value.name] final ∧ value.number = member.number := by
  unfold CaseValue.claim at claimed
  obtain ⟨name, middle, name_claimed, claimed⟩ := runIn_bind_eq_ok.mp claimed
  rw [runIn_pure, Prod.mk.injEq, Except.ok.injEq] at claimed
  obtain ⟨rfl, rfl⟩ := claimed
  exact ⟨runIn_claim_grants name_claimed, rfl⟩

/-- **The scope grants the values of a case type**, and they stand for the members in order. -/
theorem claimCaseValues_granted {oneof : Oneof} {members : List Field} {scope : Scope}
    {values : String × List CaseValue}
    (claimed : (claimCaseValues oneof members).resultIn scope = .ok values) :
    (∃ final, scope.Grants (caseRequests oneof members) (values.1 :: values.2.map CaseValue.name)
      final) ∧ values.2.map CaseValue.number = members.map Field.number := by
  obtain ⟨final, claimed⟩ := resultIn_eq_ok.mp claimed
  unfold claimCaseValues at claimed
  obtain ⟨noneValue, first, none_claimed, claimed⟩ := runIn_bind_eq_ok.mp claimed
  obtain ⟨caseValues, second, values_claimed, claimed⟩ := runIn_bind_eq_ok.mp claimed
  rw [runIn_pure, Prod.mk.injEq, Except.ok.injEq] at claimed
  obtain ⟨rfl, rfl⟩ := claimed
  have granted := (runIn_claim_grants none_claimed).trans (runIn_mapM_grants
    (fun member => [caseRequest oneof member]) (fun value => [value.name])
    (fun _ _ _ _ member_claimed => (caseValue_granted member_claimed).1) values_claimed)
  have numbered := runIn_mapM_forall₂ (fun member value => value.number = member.number)
    (fun _ _ _ _ member_claimed => (caseValue_granted member_claimed).2) values_claimed
  refine ⟨⟨second, ?_⟩, ?_⟩
  · rwa [← List.map_eq_flatMap, ← List.map_eq_flatMap] at granted
  · have same : List.Forall₂ Eq (caseValues.map CaseValue.number) (members.map Field.number) := by
      rw [List.forall₂_map_left_iff, List.forall₂_map_right_iff]
      exact numbered.flip
    exact List.forall₂_eq_eq_eq ▸ same

theorem caseRequests_insensitive (oneof : Oneof) (members : List Field) :
    ∀ request ∈ caseRequests oneof members, request.rule.caseSensitive = false := by
  simp [caseRequests, caseRequest, Rule.caseValue]

/-- What a oneof asks of the scope of the class. -/
def oneofRequests (oneof : Oneof) : List NameRequest :=
  [{ rule := .caseType, core := oneofCore oneof }, { rule := .backingField, core := oneofCore oneof },
   { rule := .property, colliding := propertyColliding, core := oneofCore oneof },
   { rule := .getter, colliding := getterColliding, core := oneofCore oneof },
   { rule := .setter, colliding := setterColliding, core := oneofCore oneof }]

/-- **The scope grants the names of a oneof.** The scope of the reserved words grants the values of its case
type, which stand for the members in order. -/
theorem oneofNames_granted {oneof : Oneof} {members : List Field} {names : OneofNames}
    {scope final : Scope}
    (claimed : (OneofNames.claim oneof members).runIn scope = (.ok names, final)) :
    scope.Grants (oneofRequests oneof) names.all final ∧
      (∃ last, keywordScope.Grants (caseRequests oneof members) names.valueNames last) ∧
      names.caseValues.map CaseValue.number = members.map Field.number := by
  unfold OneofNames.claim at claimed
  obtain ⟨values, start, values_claimed, claimed⟩ := runIn_bind_eq_ok.mp claimed
  rw [runIn_ofExcept, Prod.mk.injEq] at values_claimed
  obtain ⟨values_claimed, rfl⟩ := values_claimed
  obtain ⟨caseType, first, type_claimed, claimed⟩ := runIn_bind_eq_ok.mp claimed
  obtain ⟨backing, second, backing_claimed, claimed⟩ := runIn_bind_eq_ok.mp claimed
  obtain ⟨property, third, property_claimed, claimed⟩ := runIn_bind_eq_ok.mp claimed
  obtain ⟨getter, fourth, getter_claimed, claimed⟩ := runIn_bind_eq_ok.mp claimed
  obtain ⟨setter, fifth, setter_claimed, claimed⟩ := runIn_bind_eq_ok.mp claimed
  rw [runIn_pure, Prod.mk.injEq, Except.ok.injEq] at claimed
  obtain ⟨rfl, rfl⟩ := claimed
  refine ⟨?_, claimCaseValues_granted values_claimed⟩
  exact (runIn_claim_grants type_claimed).trans
    ((runIn_claim_grants backing_claimed).trans
      ((runIn_claim_grants property_claimed).trans
        ((runIn_claim_grants getter_claimed).trans (runIn_claim_grants setter_claimed))))

theorem oneofRequests_insensitive (oneof : Oneof) :
    ∀ request ∈ oneofRequests oneof, request.rule.caseSensitive = false := by
  simp [oneofRequests, Rule.caseType, Rule.backingField, Rule.property, Rule.getter, Rule.setter]

/-! ### Names of a message -/

/-- All names that the fields and oneofs of a message take in its class. -/
def derivedNames (fieldNames : List FieldNames) (oneofNames : List OneofNames) : List String :=
  fieldNames.flatMap FieldNames.all ++ oneofNames.flatMap OneofNames.all

/-- What the fields and oneofs of a message ask of the scope of its class. -/
def messageRequests (message : MessageType) : List NameRequest :=
  message.fields.flatMap fieldRequests ++ message.oneofs.flatMap oneofRequests

/-- First all fields of a message take their names, and then all oneofs. -/
theorem claimNames_eq_ok {message : MessageType} {scope : Scope}
    {names : List FieldNames × List OneofNames}
    (claimed : (claimNames message).resultIn scope = .ok names) :
    ∃ middle final,
      (message.fields.mapM FieldNames.claim).runIn scope = (.ok names.1, middle) ∧
      (message.oneofs.zipIdx.mapM fun (oneof, position) =>
        OneofNames.claim oneof (message.oneofMembers position)).runIn middle =
          (.ok names.2, final) := by
  obtain ⟨final, claimed⟩ := resultIn_eq_ok.mp claimed
  unfold claimNames at claimed
  obtain ⟨fieldNames, middle, fields_claimed, claimed⟩ := runIn_bind_eq_ok.mp claimed
  obtain ⟨oneofNames, last, oneofs_claimed, claimed⟩ := runIn_bind_eq_ok.mp claimed
  rw [runIn_pure, Prod.mk.injEq, Except.ok.injEq] at claimed
  obtain ⟨rfl, rfl⟩ := claimed
  exact ⟨middle, last, fields_claimed, oneofs_claimed⟩

/-- **All fields and then all oneofs of a message ask for their names, and get them.** Each of them gets its
own in the scope that those before it leave. -/
theorem claimNames_grants {message : MessageType} {scope : Scope}
    {names : List FieldNames × List OneofNames}
    (claimed : (claimNames message).resultIn scope = .ok names) :
    (∃ final, scope.Grants (messageRequests message) (derivedNames names.1 names.2) final) ∧
    List.Forall₂ (fun field fieldNames => ∃ first last,
      (FieldNames.claim field).runIn first = (.ok fieldNames, last)) message.fields names.1 ∧
    List.Forall₂ (fun (item : Oneof × Nat) oneofNames => ∃ first last,
      (OneofNames.claim item.1 (message.oneofMembers item.2)).runIn first = (.ok oneofNames, last))
      message.oneofs.zipIdx names.2 := by
  obtain ⟨middle, last, fields_claimed, oneofs_claimed⟩ := claimNames_eq_ok claimed
  have fields_granted := runIn_mapM_grants fieldRequests FieldNames.all
    (fun _ _ _ _ claimed => (fieldNames_granted claimed).1) fields_claimed
  have oneofs_granted := runIn_mapM_grants (fun item : Oneof × Nat => oneofRequests item.1)
    OneofNames.all (fun _ _ _ _ claimed => (oneofNames_granted claimed).1) oneofs_claimed
  have unnumbered : message.oneofs.zipIdx.flatMap (fun item => oneofRequests item.1) =
      message.oneofs.flatMap oneofRequests := by
    rw [← List.flatMap_map Prod.fst oneofRequests, List.zipIdx_map_fst]
  rw [unnumbered] at oneofs_granted
  refine ⟨⟨last, fields_granted.trans oneofs_granted⟩, ?_, ?_⟩
  · exact runIn_mapM_forall₂ _ (fun _ _ _ _ claimed => ⟨_, _, claimed⟩) fields_claimed
  · exact runIn_mapM_forall₂ _ (fun _ _ _ _ claimed => ⟨_, _, claimed⟩) oneofs_claimed

/-- What is known of the names of the fields and oneofs of a message. -/
structure NamedMessage (message : MessageType) (scope : Scope) (fieldNames : List FieldNames)
    (oneofNames : List OneofNames) : Prop where
  extension : ∃ final, scope.Extends (derivedNames fieldNames oneofNames) final
  presence : List.Forall₂ (fun field names => names.presence.isSome = !field.repeated)
    message.fields fieldNames
  values : List.Forall₂ (fun position names => Apart names.valueNames ∧
      names.caseValues.map CaseValue.number = (message.oneofMembers position).map Field.number)
    (List.range message.oneofs.length) oneofNames

/-- **All fields and then all oneofs of a message extend the scope by all their names.** -/
theorem claimNames_extends {message : MessageType} {scope : Scope}
    {names : List FieldNames × List OneofNames}
    (claimed : (claimNames message).resultIn scope = .ok names) :
    NamedMessage message scope names.1 names.2 := by
  obtain ⟨⟨final, granted⟩, fields, oneofs⟩ := claimNames_grants claimed
  refine ⟨⟨final, granted.extends ?_⟩, ?_, ?_⟩
  · rw [messageRequests, List.forall_mem_append, List.forall_mem_flatMap, List.forall_mem_flatMap]
    exact ⟨fun field _ => fieldRequests_insensitive field, fun oneof _ => oneofRequests_insensitive oneof⟩
  · refine fields.imp fun field names => ?_
    rintro ⟨first, last, claimed⟩
    exact (fieldNames_granted claimed).2
  · have positions : message.oneofs.zipIdx.map Prod.snd = List.range message.oneofs.length := by
      simp [List.range_eq_range']
    rw [← positions, List.forall₂_map_left_iff]
    refine oneofs.imp fun item names => ?_
    rintro ⟨first, last, claimed⟩
    obtain ⟨-, ⟨last, values⟩, numbered⟩ := oneofNames_granted claimed
    exact ⟨(values.extends (caseRequests_insensitive _ _)).apart, numbered⟩

/-- **The scope grants the names of each field and each oneof**, and the values of each case type extend
the scope of the reserved words. -/
theorem claimNames_granted {message : MessageType} {scope : Scope}
    {names : List FieldNames × List OneofNames}
    (claimed : (claimNames message).resultIn scope = .ok names) :
    (∀ fieldNames ∈ names.1, ∃ field first last,
      Scope.Grants first (fieldRequests field) fieldNames.all last ∧
        fieldNames.presence.isSome = !field.repeated) ∧
    ∀ oneofNames ∈ names.2, (∃ oneof first last,
      Scope.Grants first (oneofRequests oneof) oneofNames.all last) ∧
        ∃ last, keywordScope.Extends oneofNames.valueNames last := by
  obtain ⟨-, fields, oneofs⟩ := claimNames_grants claimed
  refine ⟨fun names inside => ?_, fun names inside => ?_⟩
  · obtain ⟨field, -, first, last, claimed⟩ := exists_left_of_forall₂ fields inside
    exact ⟨field, first, last, fieldNames_granted claimed⟩
  · obtain ⟨item, -, first, last, claimed⟩ := exists_left_of_forall₂ oneofs inside
    obtain ⟨granted, ⟨final, values⟩, -⟩ := oneofNames_granted claimed
    exact ⟨⟨item.1, first, last, granted⟩, final, values.extends (caseRequests_insensitive _ _)⟩

end ProtoPascal.Message
