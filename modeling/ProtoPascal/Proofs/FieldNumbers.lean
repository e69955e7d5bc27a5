import ProtoPascal.Proofs.CaseAlignment
import ProtoPascal.Proofs.ImplementedMethods
import ProtoPascal.Proofs.ParameterCapture

/-!
The numbers of fields on the wire. A field is written and read under its number, which the code of its
class does not spell: the class declares a constant with the number, and the calls of the field name the
constant. The name of the constant is made from that of the field, and names of several fields can make
the same one, so it may carry a mark. Whichever name a constant has, the calls of a field name its own
constant and no other one.

* `names_disjoint`: what different fields declare has different names;
* `numberUses_separate`: the calls of a field name no constant of another field;
* `field_numbers_reach_calls`: how the class of an accepted message carries the numbers of its fields.
-/

namespace ProtoPascal.Naming

/-- Names that a scope grants are made by the rules of the requests, with or without a mark. -/
theorem Scope.Grants.made {scope final : Scope} {requests : List NameRequest} {names : List String}
    (granted : scope.Grants requests names final) :
    List.Forall₂ (fun request name => name = request.rule.plain request.core ∨
      name = request.rule.marked request.core) requests names := by
  induction granted with
  | nil => exact .nil
  | cons generated _ ih => exact .cons (generate_eq_ok generated).2 ih

end ProtoPascal.Naming

namespace ProtoPascal.Execution

open Message
open Naming
open Pascal
open Schema (Field MessageType)

/-! ### What carries a number -/

/-- What a class has for the number of a field: a constant with a value, and the parts of the field in
writing and in reading a message. -/
structure NumberUse where
  constant : String
  value : String
  encode : Body
  decode : Body

/-- What the parts of a field mention. -/
def NumberUse.mentions (use : NumberUse) : List Mention :=
  Statement.allMentions use.encode ++ Statement.allMentions use.decode

/-- A class carries the number of a field. The name of the constant comes from that of the field and, in any
case of letters, stands for nothing else in the class. Both parts of the field are single statements that
mention it. -/
structure NumberUse.Carries (use : NumberUse) (code : ClassCode) (field : Field) : Prop where
  named : use.constant = Rule.fieldNumber.plain field.name ∨
    use.constant = Rule.fieldNumber.marked field.name
  value : use.value = toString field.number
  declared : code.members.filter (fun member => Text.sameLetters member.name use.constant) =
    [plainMember .publicSection (.constant use.constant use.value)]
  encode : ∃ statement, use.encode = [statement] ∧ .member use.constant ∈ statement.mentions
  decode : ∃ statement, use.decode = [statement] ∧ .member use.constant ∈ statement.mentions

/-- Two fields of a class are told apart by their constants, and neither mentions that of the other. -/
structure NumberUse.Separate (use other : NumberUse) : Prop where
  constants : Text.fold use.constant ≠ Text.fold other.constant
  values : use.value ≠ other.value
  avoids : Avoids other.constant use.mentions
  avoided : Avoids use.constant other.mentions

/-- What the plan of a field has for its number. -/
def numberUse (field : FieldPlan) : NumberUse :=
  { constant := field.names.numberConstant
    value := toString field.field.number
    encode := field.encodeBody
    decode := field.decodeBody }

/-! ### The parts of a field -/

theorem numberConstant_mem_all (names : FieldNames) : names.numberConstant ∈ names.all := by
  simp [FieldNames.all]

/-- A field is written by one statement, which mentions the constant. -/
theorem encodeBody_single (field : FieldPlan) :
    ∃ statement, field.encodeBody = [statement] ∧
      .member field.names.numberConstant ∈ statement.mentions := by
  unfold FieldPlan.encodeBody
  dsimp only
  split
  · exact ⟨_, rfl, by simp⟩
  · split <;> exact ⟨_, rfl, by simp⟩

/-- A field is read by one statement, which mentions the constant. -/
theorem decodeBody_single (field : FieldPlan) :
    ∃ statement, field.decodeBody = [statement] ∧
      .member field.names.numberConstant ∈ statement.mentions := by
  unfold FieldPlan.decodeBody
  dsimp only
  split <;> exact ⟨_, rfl, by simp⟩

/-- Where a field is stored and how it gets a value are names of the field. -/
theorem copying_names {field : FieldPlan} {name : String} (mentioned : .member name ∈ field.copying) :
    name ∈ field.names.all := by
  simp only [FieldPlan.copying, FieldPlan.storing, List.mem_append, List.mem_cons, List.mem_map,
    Option.mem_toList, Option.map_eq_some_iff, Mention.member.injEq, reduceCtorEq, and_false,
    exists_false, or_false, List.mem_ite_nil_left, List.not_mem_nil] at mentioned
  rcases mentioned with (rfl | ⟨presence, found, rfl⟩) | ⟨-, rfl⟩
  · simp [FieldNames.all]
  · simp [FieldNames.all, found, PresenceNames.all]
  · simp [FieldNames.all]

/-- The parts of a field mention names of the field, and ask the ancestor for records. -/
theorem numberUse_mentions {field : FieldPlan} (shaped : field.Shaped) {name : String}
    (mentioned : .member name ∈ (numberUse field).mentions) :
    name ∈ field.names.all ∨ name = "HasUnparsedField" := by
  rcases List.mem_append.mp mentioned with written | read
  · rcases List.mem_append.mp (FieldPlan.encodeBody_mentions shaped written) with stored | number
    · exact .inl (copying_names (field.storing_subset_copying stored))
    · cases List.mem_singleton.mp number
      exact .inl (numberConstant_mem_all _)
  · rcases List.mem_append.mp (FieldPlan.decodeBody_mentions shaped read) with copied | others
    · exact .inl (copying_names copied)
    · rcases List.mem_pair.mp others with number | ancestor
      · cases number
        exact .inl (numberConstant_mem_all _)
      · cases ancestor
        exact .inr rfl

/-! ### Different fields -/

/-- **What different fields declare has different names.** -/
theorem names_disjoint {plan : ClassPlan} {className : String} {scope : Scope}
    {message : MessageType} (covers : plan.Covers className scope message) :
    plan.fields.Pairwise fun field other =>
      ∀ name ∈ field.names.all, ∀ name' ∈ other.names.all, Text.fold name ≠ Text.fold name' := by
  obtain ⟨final, extension⟩ := covers.named.extension
  have apart := extension.apart
  rw [Apart, derivedNames, List.map_append, List.flatMap_map, List.map_flatMap] at apart
  have disjoint := (List.nodup_flatMap.mp (List.nodup_append.mp apart).1).2
  refine disjoint.imp fun separate name inside name' inside' same => ?_
  exact separate (List.mem_map_of_mem inside) (same ▸ List.mem_map_of_mem inside')

section

variable {parts : ClassParts} {context : Context} {place : Place} {message : MessageType}
  (of : parts.PartsOf context place message)

include of

/-- The names of the constants of a field are those that their rules make, with or without a mark. -/
theorem constants_named {field : FieldPlan} (inside : field ∈ parts.plan.fields) :
    (field.names.numberConstant = Rule.fieldNumber.plain field.field.name ∨
      field.names.numberConstant = Rule.fieldNumber.marked field.field.name) ∧
    (field.names.nameConstant = Rule.fieldName.plain field.field.name ∨
      field.names.nameConstant = Rule.fieldName.marked field.field.name) := by
  have claimed := (claimNames_grants (make_claims of.planned)).2.1
  rw [← of.covers.fields_eq, List.forall₂_map_left_iff, List.forall₂_map_right_iff,
    List.forall₂_same] at claimed
  obtain ⟨first, last, claimed⟩ := claimed field inside
  have made := List.forall₂_reverse_iff.mpr (fieldNames_granted claimed).1.made
  -- The constants are the last names of a field, whether it has a presence or not.
  simp only [fieldRequests, FieldNames.all, List.reverse_append, List.reverse_cons, List.reverse_nil,
    List.nil_append, List.cons_append, List.forall₂_cons] at made
  exact ⟨made.2.1, made.1⟩

theorem numberConstant_mem {field : FieldPlan} (inside : field ∈ parts.plan.fields) :
    plainMember .publicSection (.constant field.names.numberConstant
      (toString field.field.number)) ∈ parts.derivedMembers :=
  (mem_flatMapSlots of.covers.slots_perm).mpr (.inl ⟨field, inside, List.mem_cons_self ..⟩)

/-- The parts of a field avoid the constant of another field. -/
theorem numberUse_avoids {field other : FieldPlan} (inside : field ∈ parts.plan.fields)
    (other_inside : other ∈ parts.plan.fields)
    (disjoint : ∀ name ∈ field.names.all, ∀ name' ∈ other.names.all,
      Text.fold name ≠ Text.fold name') :
    Avoids other.names.numberConstant (numberUse field).mentions := by
  intro name mentioned
  rcases numberUse_mentions (of.covers.presence field inside) mentioned with own | rfl
  · exact disjoint name own _ (numberConstant_mem_all _)
  · exact derivedMembers_fresh of _ (numberConstant_mem of other_inside) "HasUnparsedField" (by decide)

/-- **The parts of a field mention no constant of another field**, and the constants differ. -/
theorem numberUses_separate (accepted : message.Accepted) :
    (parts.plan.fields.map numberUse).Pairwise NumberUse.Separate := by
  have numbers : parts.plan.fields.Pairwise fun field other =>
      field.field.number ≠ other.field.number := by
    have distinct := accepted.numbers
    rwa [← of.covers.fields_eq, List.map_map, List.Nodup, List.pairwise_map] at distinct
  rw [List.pairwise_map]
  refine ((names_disjoint of.covers).and numbers).imp_of_mem ?_
  intro field other inside other_inside ⟨disjoint, different⟩
  refine ⟨?_, ?_, numberUse_avoids of inside other_inside disjoint, ?_⟩
  · exact disjoint _ (numberConstant_mem_all _) _ (numberConstant_mem_all _)
  · intro same
    have shown := congrArg decimal? same
    rw [numberUse, numberUse, decimal?_toString, decimal?_toString, Option.some.injEq] at shown
    exact different shown
  · refine numberUse_avoids of other_inside inside fun name own name' own' same => ?_
    exact disjoint name' own' name own same.symm

theorem numberUse_carries (shownName : String) {field : FieldPlan}
    (inside : field ∈ parts.plan.fields) :
    (numberUse field).Carries (classCode place (parts.assemble shownName)) field.field where
  named := (constants_named of inside).1
  value := rfl
  declared := filter_members_eq of (numberConstant_mem of inside)
  encode := encodeBody_single field
  decode := decodeBody_single field

end

/-- **The numbers of fields reach the calls.** The class of an accepted message has for each field, in
order, a constant with the decimal form of its number, whose name stands for nothing else in the class.
To write a message, the class calls the ancestor and then has one statement for each field in order, and
so it has to read one. The statements of a field mention its constant and that of no other field, and
the constants of different fields differ in their names and in their values. -/
theorem field_numbers_reach_calls {descriptor : Schema.FileDescriptor} {file : Schema.File}
    {message outer : MessageType} (accepted : Schema.File.ofDescriptor descriptor = .ok file)
    (declared : outer ∈ file.messages) (within : message.Within outer) {context : Context}
    {place : Place} {generated : MessageClass}
    (success : (generateMessage context place message).result = .ok generated) :
    ∃ uses : List NumberUse,
      List.Forall₂ (fun field use => use.Carries (classCode place generated) field)
        message.fields uses ∧
      uses.Pairwise NumberUse.Separate ∧
      HasBody (classCode place generated) "Encode"
        (inheritCall "Encode" [.localName "aDest"] :: uses.flatMap NumberUse.encode) ∧
      HasBody (classCode place generated) "Decode"
        (inheritCall "Decode" [.localName "aSource"] :: uses.flatMap NumberUse.decode) := by
  obtain ⟨parts, planned, apart, rfl⟩ := generateMessage_eq_ok.mp success
  have of := classParts_eq_ok.mp planned
  have rules := Schema.File.ofDescriptor_accepted accepted declared within
  have implements := implements_of_partsOf of apart rules (place.shownName message)
  refine ⟨parts.plan.fields.map numberUse, ?_, numberUses_separate of rules, ?_, ?_⟩
  · rw [← of.covers.fields_eq, List.forall₂_map_left_iff, List.forall₂_map_right_iff,
      List.forall₂_same]
    exact fun field inside => numberUse_carries of _ inside
  · obtain ⟨implementation, found, -, body⟩ := implements.encode
    exact ⟨implementation, found, by rw [body, List.flatMap_map]; rfl⟩
  · obtain ⟨implementation, found, -, body⟩ := implements.decode
    exact ⟨implementation, found, by rw [body, List.flatMap_map]; rfl⟩

/-- A file with a message whose fields make the same names, one of them repeated. -/
def echoDescriptor : Schema.FileDescriptor :=
  { name := some "echo.proto"
    messages :=
      [{ name := some "Echo"
         fields :=
           [{ name := some "foo_bar", number := some 2, type := some 5, label := some 3 },
            { name := some "fooBar", number := some 1, type := some 9 }] }] }

/-- The message of the file. -/
def echoMessage : MessageType :=
  { name := "Echo"
    fields :=
      [{ name := "foo_bar", number := 2, type := .scalar .int32, repeated := true },
       { name := "fooBar", number := 1, type := .scalar .string }] }

/-- The name and the value of a constant. -/
def constant? : Member → Option (String × String)
  | .item _ _ (.constant name value) => some (name, value)
  | _ => none

/-- The constant of the second field carries a mark, and the class writes each field under its own
number. -/
theorem echo_numbers_reach_calls :
    ∃ generated uses,
      (generateMessage { index := {}, runtime := .reference, unit := "uEcho" } ⟨"", none⟩
        echoMessage).result = .ok generated ∧
      generated.members.filterMap constant? =
        [("PROTOBUF_FIELD_NUMBER_FOO_BAR", "2"), ("PROTOBUF_FIELD_NAME_FOO_BAR", "'foo_bar'"),
         ("PROTOBUF_FIELD_NUMBER_FOO_BAR_", "1"), ("PROTOBUF_FIELD_NAME_FOO_BAR_", "'fooBar'")] ∧
      List.Forall₂ (fun field use => NumberUse.Carries use (classCode ⟨"", none⟩ generated) field)
        echoMessage.fields uses ∧
      uses.map NumberUse.value = ["2", "1"] ∧
      HasBody (classCode ⟨"", none⟩ generated) "Encode"
        (inheritCall "Encode" [.localName "aDest"] :: uses.flatMap NumberUse.encode) := by
  have accepted : Schema.File.ofDescriptor echoDescriptor =
      .ok { name := "echo.proto", messages := [echoMessage] } := rfl
  have evaluated : (do
      let generated ← (generateMessage { index := {}, runtime := .reference, unit := "uEcho" }
        ⟨"", none⟩ echoMessage).result
      return generated.members.filterMap constant?) =
      .ok [("PROTOBUF_FIELD_NUMBER_FOO_BAR", "2"), ("PROTOBUF_FIELD_NAME_FOO_BAR", "'foo_bar'"),
        ("PROTOBUF_FIELD_NUMBER_FOO_BAR_", "1"), ("PROTOBUF_FIELD_NAME_FOO_BAR_", "'fooBar'")] := by
    decide +kernel
  obtain ⟨generated, success, shown⟩ := bind_eq_ok.mp evaluated
  obtain ⟨uses, carried, -, encode, -⟩ :=
    field_numbers_reach_calls accepted (List.mem_cons_self ..) .self success
  refine ⟨generated, uses, success, pure_eq_ok.mp shown, carried, ?_, encode⟩
  exact map_eq_of_forall₂ (fun field : Field => toString field.number) NumberUse.value
    (carried.imp fun _ _ carries => carries.value)

end ProtoPascal.Execution
