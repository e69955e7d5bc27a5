import ProtoPascal.Proofs.Execution.ClassCode
import ProtoPascal.Proofs.Mentions
import ProtoPascal.Proofs.PropertyNames
import ProtoPascal.Proofs.WellFormedPlan

/-!
Variables of a method that capture members of its class. A body that means a member by its name alone
gets a parameter or a local variable of that name instead. The names of variables begin with no fixed
text, so only properties can be captured: the property of a singular field by `aSource`, where the field
is read or copied, and the case property of a oneof by `aValue`, where the presence of a member is set.

* `captured_of_captures`: these are the only captures;
* `parameter_captures_member_iff`: exactly when a class has a capture;
* `source_captures_property`: a field whose property is captured.
-/

namespace ProtoPascal

namespace Pascal

/-- The names of the parameters and the local variables of a method. -/
def Implementation.variables (implementation : Implementation Action Expr) : List String :=
  (implementation.method.parameters ++ implementation.locals).map Parameter.name

/-- A variable of a method has the name of a member that the body means by the name alone. -/
def Implementation.Captures (implementation : Implementation Action Expr) (name : String) : Prop :=
  .member name ∈ implementation.mentions ∧
    Text.fold name ∈ implementation.variables.map Text.fold

instance (implementation : Implementation Action Expr) (name : String) :
    Decidable (implementation.Captures name) :=
  inferInstanceAs (Decidable (_ ∧ _))

/-- No member that is mentioned is named like a word. -/
def Avoids (word : String) (mentions : List Mention) : Prop :=
  ∀ name, .member name ∈ mentions → Text.fold name ≠ Text.fold word

/-- A method without variables captures nothing. -/
theorem not_captures_of_variables {implementation : Implementation Action Expr} {name : String}
    (none : implementation.variables = []) : ¬ implementation.Captures name := by
  rintro ⟨-, captured⟩
  rw [none] at captured
  cases captured

/-- A method with one variable captures nothing if its body avoids the name of the variable. -/
theorem not_captures_of_avoids {implementation : Implementation Action Expr} {word name : String}
    (one : implementation.variables = [word]) (avoids : Avoids word implementation.mentions) :
    ¬ implementation.Captures name := by
  rintro ⟨mentioned, captured⟩
  rw [one] at captured
  exact avoids name mentioned (List.mem_singleton.mp captured)

end Pascal

namespace Message

open Naming
open Pascal
open Schema (Field MessageType Oneof)

/-! ### Names of variables -/

theorem propertyWord_aValue : PropertyWord "aValue" := ⟨by decide, by decide⟩

theorem propertyWord_aSource : PropertyWord "aSource" := ⟨by decide, by decide⟩

theorem propertyWord_aDest : PropertyWord "aDest" := ⟨by decide, by decide⟩

/-! ### Captures by variables -/

/-- The methods that give singular fields values by their properties. -/
def copyingMethods : List String :=
  ["Decode", "MergeFromOwnFields", "AssignOwnFields"]

/-- A member of a class that a variable captures. -/
inductive ClassPlan.Captured (plan : ClassPlan) (implementation : Implementation Action Expr) :
    String → Prop
  /-- The property of a singular field, where the field is read or copied. -/
  | source (field : FieldPlan) (declared : field ∈ plan.fields)
    (singular : field.field.repeated = false)
    (copies : implementation.method.name ∈ copyingMethods)
    (like : Text.fold field.names.property = Text.fold "aSource") :
    plan.Captured implementation field.names.property
  /-- The case property of a oneof, where the presence of a member is set. -/
  | case (field : FieldPlan) (declared : field ∈ plan.fields) (membership : Membership)
    (belongs : field.membership = some membership) (presence : PresenceNames)
    (present : field.names.presence = some presence)
    (sets : implementation.method = presence.setterMethod)
    (like : Text.fold membership.oneof.property = Text.fold "aValue") :
    plan.Captured implementation membership.oneof.property

/-- What a class plan has to hold for its captures to be known. -/
structure ClassPlan.Led (plan : ClassPlan) : Prop where
  fields : ∀ field ∈ plan.fields, field.names.Led
  shaped : ∀ field ∈ plan.fields, field.Shaped
  oneofs : ∀ oneof ∈ plan.oneofs, Rule.backingField.Leads oneof.names.backing
  members : ∀ oneof ∈ plan.oneofs, ∀ member ∈ oneof.members, member ∈ plan.fields
  memberships : ∀ field ∈ plan.fields, ∀ membership, field.membership = some membership →
    Rule.backingField.Leads membership.oneof.backing

section

variable {word : String} (proper : PropertyWord word)

include proper

/-- Where a field is stored is not named like a word for properties. -/
theorem storing_avoids {field : FieldPlan} (led : field.names.Led) : Avoids word field.storing := by
  intro name mentioned
  rcases List.mem_cons.mp mentioned with backing | others
  · cases backing
    exact fold_ne_of_leads proper (by decide : Rule.backingField ∈ leadingRules) led.backing
  · rcases List.mem_append.mp others with present | type
    · rw [Option.mem_toList, Option.map_eq_some_iff] at present
      obtain ⟨presence, found, same⟩ := present
      cases same
      exact fold_ne_of_leads proper (by decide : Rule.presence ∈ leadingRules)
        (led.presence presence found)
    · obtain ⟨text, -, same⟩ := List.mem_map.mp type
      cases same

/-- What else is mentioned of a field in method bodies is not named like such a word. -/
theorem number_avoids {field : FieldPlan} (led : field.names.Led) :
    Avoids word [.member field.names.numberConstant] := by
  intro name mentioned
  cases List.mem_singleton.mp mentioned
  exact fold_ne_of_leads proper (by decide : Rule.fieldNumber ∈ leadingRules) led.numberConstant

/-- A field that is given a value by its property is singular where the property is named like the
word. -/
theorem copying_eq_property {field : FieldPlan} (led : field.names.Led) {name : String}
    (mentioned : .member name ∈ field.copying) (like : Text.fold name = Text.fold word) :
    field.field.repeated = false ∧ name = field.names.property := by
  rcases List.mem_append.mp mentioned with stored | copied
  · exact absurd like (storing_avoids proper led name stored)
  · split at copied
    · cases copied
    · next singular =>
      cases List.mem_singleton.mp copied
      exact ⟨Bool.not_eq_true _ ▸ singular, rfl⟩

end

section

variable {plan : ClassPlan} (led : plan.Led) {implementation : Implementation Action Expr}
  {name : String}

include led

/-- The accessors of a field capture at most the case property of its oneof. -/
theorem field_captured {field : FieldPlan} (declared : field ∈ plan.fields)
    (inside : implementation ∈ field.implementations) (captures : implementation.Captures name) :
    plan.Captured implementation name := by
  have stored := storing_avoids propertyWord_aValue (led.fields field declared)
  have shaped := led.shaped field declared
  rcases List.mem_append.mp inside with accessor | ofPresence
  · rcases List.mem_pair.mp accessor with rfl | rfl
    · exact absurd captures (not_captures_of_variables rfl)
    · refine absurd captures (not_captures_of_avoids rfl fun name mentioned => ?_)
      exact stored name (FieldPlan.setterBody_mentions shaped mentioned)
  · cases present : field.names.presence with
    | none =>
      rw [present] at ofPresence
      cases ofPresence
    | some presence =>
      rw [present] at ofPresence
      rcases List.mem_pair.mp ofPresence with rfl | rfl
      · exact absurd captures (not_captures_of_variables rfl)
      · obtain ⟨mentioned, captured⟩ := captures
        have like : Text.fold name = Text.fold "aValue" := List.mem_singleton.mp captured
        have singular : ¬ field.field.repeated = true := by
          unfold FieldPlan.Shaped at shaped
          simpa [present] using shaped
        rcases List.mem_append.mp (FieldPlan.presenceSetterBody_mentions shaped singular mentioned)
          with own | raised
        · rcases List.mem_append.mp own with here | selected
          · exact absurd like (stored name here)
          · unfold FieldPlan.selecting at selected
            cases belongs : field.membership with
            | none =>
              rw [belongs] at selected
              cases selected
            | some membership =>
              have unlike := fold_ne_of_leads propertyWord_aValue
                (by decide : Rule.backingField ∈ leadingRules)
                (led.memberships field declared membership belongs)
              rw [belongs] at selected
              simp only [List.mem_cons, Mention.member.injEq, reduceCtorEq, List.not_mem_nil,
                or_false] at selected
              rcases selected with rfl | rfl
              · exact absurd like unlike
              · exact .case field declared membership belongs presence present rfl like
        · cases List.mem_singleton.mp raised

/-- The accessors of a oneof capture nothing. -/
theorem oneof_not_captures {oneof : OneofPlan} (declared : oneof ∈ plan.oneofs)
    (inside : implementation ∈ oneof.implementations) : ¬ implementation.Captures name := by
  rcases List.mem_pair.mp inside with rfl | rfl
  · exact not_captures_of_variables rfl
  · refine not_captures_of_avoids rfl fun name mentioned => ?_
    have allowed := oneof.setterBody_mentions mentioned
    rw [List.mem_cons, List.mem_cons, List.mem_flatMap] at allowed
    rcases allowed with backing | type | ⟨member, isMember, stored⟩
    · cases backing
      exact fold_ne_of_leads propertyWord_aValue (by decide : Rule.backingField ∈ leadingRules)
        (led.oneofs oneof declared)
    · cases type
    · exact storing_avoids propertyWord_aValue
        (led.fields member (led.members oneof declared member isMember)) name stored

/-- Of what is mentioned where fields are copied, only the properties of singular fields can be named
like the source. -/
theorem source_captured {fragment : FieldPlan → Body}
    (copies : ∀ field ∈ plan.fields, Statement.allMentions (fragment field) ⊆
      field.copying ++ [.member field.names.numberConstant, .member "HasUnparsedField"])
    (listed : implementation.method.name ∈ copyingMethods)
    (mentioned : .member name ∈ Statement.allMentions (plan.concatFields fragment))
    (like : Text.fold name = Text.fold "aSource") : plan.Captured implementation name := by
  rw [ClassPlan.concatFields, Statement.allMentions_flatMap] at mentioned
  obtain ⟨field, declared, mentioned⟩ := List.mem_flatMap.mp mentioned
  rcases List.mem_append.mp (copies field declared mentioned) with copied | other
  · obtain ⟨singular, rfl⟩ :=
      copying_eq_property propertyWord_aSource (led.fields field declared) copied like
    exact .source field declared singular listed like
  · rcases List.mem_pair.mp other with number | asked
    · exact absurd like
        (number_avoids propertyWord_aSource (led.fields field declared) name (number ▸ .head _))
    · cases asked
      exact absurd like (by decide)

/-- The methods that every class has capture at most the properties of singular fields. -/
theorem method_captured {method : ClassMethod} (listed : method ∈ plan.methods) {className : String}
    (captures : (method.implementation className).Captures name) :
    plan.Captured (method.implementation className) name := by
  -- A method that leaves its work to another one mentions only that one.
  have unlike : ∀ ownFields ∈ lifecycleNames,
      Text.fold ownFields ∉ [Text.fold "aSource", Text.fold "lSource"] := by decide
  have delegated {work ownFields : String} (listed : ownFields ∈ lifecycleNames)
      (mentioned : .member name ∈ Statement.allMentions (plan.delegateBody work ownFields))
      (like : Text.fold name ∈ [Text.fold "aSource", Text.fold "lSource"]) : False := by
    have same : name = ownFields := by simpa [ClassPlan.delegateBody] using mentioned
    exact unlike ownFields listed (same ▸ like)
  simp only [ClassPlan.methods, List.mem_cons, List.not_mem_nil, or_false] at listed
  rcases listed with rfl | rfl | rfl | rfl | rfl | rfl | rfl | rfl | rfl | rfl
  · exact absurd captures (not_captures_of_variables rfl)
  · exact absurd captures (not_captures_of_variables rfl)
  · exact absurd captures (not_captures_of_variables rfl)
  · -- Encode
    refine absurd captures (not_captures_of_avoids rfl fun name mentioned => ?_)
    replace mentioned :
        .member name ∈ Statement.allMentions (plan.concatFields FieldPlan.encodeBody) := by
      simpa [Implementation.mentions, ClassMethod.implementation] using mentioned
    rw [ClassPlan.concatFields, Statement.allMentions_flatMap] at mentioned
    obtain ⟨field, declared, mentioned⟩ := List.mem_flatMap.mp mentioned
    have named := led.fields field declared
    rcases List.mem_append.mp (FieldPlan.encodeBody_mentions (led.shaped field declared) mentioned)
      with stored | number
    · exact storing_avoids propertyWord_aDest named name stored
    · exact number_avoids propertyWord_aDest named name number
  · -- Decode
    refine source_captured led
      (fun field declared => FieldPlan.decodeBody_mentions (led.shaped field declared))
      (by decide : "Decode" ∈ copyingMethods) ?_ (List.mem_singleton.mp captures.2)
    simpa [Implementation.mentions, ClassMethod.implementation] using captures.1
  · exact (delegated (by decide) captures.1 captures.2).elim
  · exact (delegated (by decide) captures.1 captures.2).elim
  · exact absurd captures (not_captures_of_variables rfl)
  · -- MergeFromOwnFields
    exact source_captured led (fun field declared => List.Subset.trans
      (FieldPlan.mergeBody_mentions (led.shaped field declared)) (List.subset_append_left _ _))
      (by decide : "MergeFromOwnFields" ∈ copyingMethods) captures.1 (List.mem_singleton.mp captures.2)
  · -- AssignOwnFields
    exact source_captured led (fun field declared => List.Subset.trans
      (FieldPlan.assignBody_mentions (led.shaped field declared)) (List.subset_append_left _ _))
      (by decide : "AssignOwnFields" ∈ copyingMethods) captures.1 (List.mem_singleton.mp captures.2)

end

/-- A singular field is read by its property. -/
theorem property_mem_decodeBody {field : FieldPlan} (singular : field.field.repeated = false) :
    .member field.names.property ∈ Statement.allMentions field.decodeBody := by
  unfold FieldPlan.decodeBody
  rw [singular]
  cases field.support.wireCodec <;> simp

/-- The presence of a member is set by the case property of its oneof. -/
theorem caseProperty_mem_presenceSetterBody {field : FieldPlan} {membership : Membership}
    (belongs : field.membership = some membership) :
    .member membership.oneof.property ∈ Statement.allMentions field.presenceSetterBody := by
  unfold FieldPlan.presenceSetterBody
  rw [belongs]
  simp

section

variable {parts : ClassParts} {context : Context} {place : Place} {message : MessageType}
  (of : parts.PartsOf context place message)

include of

/-- The names in the plan of a class begin with their fixed texts. -/
theorem plan_led : parts.plan.Led := by
  have covers := of.covers
  obtain ⟨fieldsLed, oneofsLed⟩ := claimNames_led (make_claims of.planned)
  refine ⟨?_, covers.presence, ?_, ?_, ?_⟩
  · exact fun field declared => fieldsLed field.names (List.mem_map_of_mem declared)
  · exact fun oneof declared => oneofsLed oneof.names (List.mem_map_of_mem declared)
  · intro oneof declared member isMember
    obtain ⟨position, found⟩ := List.mem_iff_getElem?.mp declared
    rw [(covers.oneofs_eq position oneof found).2] at isMember
    exact (List.mem_filter.mp isMember).1
  · intro field declared membership belongs
    have inOneof := (covers.planned field declared).membership
    rw [belongs] at inOneof
    obtain ⟨position, -, found, -⟩ := inOneof
    exact oneofsLed membership.oneof (List.mem_of_getElem? found)

/-- **Only two kinds of members are captured**: properties of singular fields by the source, and case
properties by the value of a presence. -/
theorem captured_of_captures {implementation : Implementation Action Expr}
    (inside : implementation ∈ parts.ownImplementation) {name : String}
    (captures : implementation.Captures name) : parts.plan.Captured implementation name := by
  have led := plan_led of
  rcases List.mem_append.mp inside with derived | lifecycle
  · rcases exists_of_mem_flatMapSlots derived with
      ⟨field, declared, implemented⟩ | ⟨oneof, declared, implemented⟩
    · exact field_captured led declared implemented captures
    · exact absurd captures (oneof_not_captures led declared implemented)
  · obtain ⟨method, listed, rfl⟩ := List.mem_map.mp lifecycle
    exact method_captured led listed captures

/-! ### Exactly when something is captured -/

/-- The source captures a property: the first field that resembles it is singular. -/
def SourceCaptured (message : MessageType) : Prop :=
  ∃ field, message.fields.find? (fun field => Resembles "aSource" field.name) = some field ∧
    field.repeated = false

/-- The value of a presence captures a case property: no field resembles it, and the first oneof that
does has members. -/
def ValueCaptured (message : MessageType) : Prop :=
  (∀ field ∈ message.fields, ¬ Resembles "aValue" field.name) ∧
    ∃ item, message.oneofs.zipIdx.find? (fun item => Resembles "aValue" (oneofCore item.1)) =
      some item ∧ message.oneofMembers item.2 ≠ []

/-- A singular field has a property named like the source exactly if the source captures one. -/
theorem exists_source_iff :
    (∃ field ∈ parts.plan.fields, Text.fold field.names.property = Text.fold "aSource" ∧
      field.field.repeated = false) ↔ SourceCaptured message := by
  have free : classScope.Free "aSource" := free_of_sameLetters (by decide +kernel)
  have named := (claimNames_property_iff propertyWord_aSource
    (memberNamesScope_free propertyWord_aSource free of) (make_claims of.planned)).1
  rw [SourceCaptured, ← named fun field => field.repeated = false, ← of.covers.fields_eq,
    List.zip_map']
  simp

/-- A member of a oneof has a case property named like the value of a presence exactly if the value
captures one. -/
theorem exists_value_iff :
    (∃ field ∈ parts.plan.fields, ∃ membership, field.membership = some membership ∧
      Text.fold membership.oneof.property = Text.fold "aValue") ↔ ValueCaptured message := by
  have free : classScope.Free "aValue" := free_of_sameLetters (by decide +kernel)
  have covers := of.covers
  have named := (claimNames_property_iff propertyWord_aValue
    (memberNamesScope_free propertyWord_aValue free of) (make_claims of.planned)).2
  rw [ValueCaptured, ← named fun item => message.oneofMembers item.2 ≠ []]
  constructor
  · rintro ⟨field, declared, membership, belongs, like⟩
    have inOneof := (covers.planned field declared).membership
    rw [belongs] at inOneof
    obtain ⟨position, index_eq, found, -⟩ := inOneof
    have below : position < message.oneofs.length := by
      obtain ⟨below, -⟩ := List.getElem?_eq_some_iff.mp found
      rwa [List.length_map, covers.oneofs_length] at below
    refine ⟨((message.oneofs[position], position), membership.oneof),
      List.mem_of_getElem? (List.getElem?_zip_eq_some.mpr ⟨?_, found⟩), like, ?_⟩
    · simp [below]
    · have isField : field.field ∈ message.fields := by
        rw [← covers.fields_eq]
        exact List.mem_map_of_mem declared
      exact List.ne_nil_of_mem (List.mem_filter.mpr ⟨isField, by simp [index_eq]⟩)
  · rintro ⟨⟨⟨oneof, position⟩, names⟩, paired, like, occupied⟩
    obtain ⟨index, paired⟩ := List.mem_iff_getElem?.mp paired
    obtain ⟨atIndex, named_at⟩ := List.getElem?_zip_eq_some.mp paired
    obtain rfl : index = position := by
      rw [List.getElem?_zipIdx, Option.map_eq_some_iff] at atIndex
      obtain ⟨_, -, same⟩ := atIndex
      simpa using congrArg Prod.snd same
    rw [List.getElem?_map, Option.map_eq_some_iff] at named_at
    obtain ⟨planned, found, rfl⟩ := named_at
    rw [← covers.members_eq found, Ne, List.map_eq_nil_iff, (covers.oneofs_eq index planned found).2]
      at occupied
    obtain ⟨field, isMember⟩ := List.exists_mem_of_ne_nil _ occupied
    obtain ⟨declared, belongs⟩ := List.mem_filter.mp isMember
    obtain ⟨caseValue, stored, -⟩ :=
      membership_of_oneofIndex covers found declared (beq_iff_eq.mp belongs)
    exact ⟨field, declared, _, stored, like⟩

/-- The class of a message has a capture exactly if the source or the value of a presence captures. -/
theorem exists_captures_iff (accepted : message.Accepted) :
    (∃ implementation ∈ parts.ownImplementation, ∃ name, implementation.Captures name) ↔
      SourceCaptured message ∨ ValueCaptured message := by
  have covers := of.covers
  rw [← exists_source_iff of, ← exists_value_iff of]
  constructor
  · rintro ⟨implementation, inside, name, captures⟩
    cases captured_of_captures of inside captures with
    | source field declared singular _ like => exact .inl ⟨field, declared, like, singular⟩
    | case field declared membership belongs _ _ _ like =>
      exact .inr ⟨field, declared, membership, belongs, like⟩
  · rintro (⟨field, declared, like, singular⟩ | ⟨field, declared, membership, belongs, like⟩)
    · -- The method that reads a message gives every singular field a value by its property.
      have listed := List.mem_of_getElem? (rfl : parts.plan.methods[4]? = some _)
      refine ⟨_, List.mem_append_right _ (List.mem_map_of_mem listed), field.names.property, ?_,
        List.mem_singleton.mpr like⟩
      rw [Implementation.mentions, ClassMethod.implementation, Statement.allMentions,
        ClassPlan.concatFields, Statement.allMentions_flatMap]
      exact List.mem_append_right _
        (List.mem_flatMap.mpr ⟨field, declared, property_mem_decodeBody singular⟩)
    · -- A member of a oneof is singular, so its presence can be set.
      have inOneof := (covers.planned field declared).membership
      rw [belongs] at inOneof
      obtain ⟨position, index_eq, -, -⟩ := inOneof
      have isField : field.field ∈ message.fields := by
        rw [← covers.fields_eq]
        exact List.mem_map_of_mem declared
      have shaped := (plan_led of).shaped field declared
      rw [FieldPlan.Shaped, accepted.singular field.field isField position index_eq, Bool.not_false,
        Option.isSome_iff_exists] at shaped
      obtain ⟨presence, present⟩ := shaped
      have implemented : field.implement presence.setterMethod field.presenceSetterBody ∈
          field.implementations := by simp [FieldPlan.implementations, present]
      refine ⟨_, List.mem_append_left _ ((mem_flatMapSlots covers.slots_perm).mpr
        (.inl ⟨field, declared, implemented⟩)), membership.oneof.property,
        caseProperty_mem_presenceSetterBody belongs, List.mem_singleton.mpr like⟩

end

/-- The methods that a class itself implements, without those of the classes nested in it. -/
def MessageClass.ownMethods (generated : MessageClass) (place : Place) :
    List (Implementation Action Expr) :=
  generated.implementation.filter fun implementation =>
    implementation.className == nestedIn place.parentClass generated.name

theorem mem_ownMethods {parts : ClassParts} {context : Context} {place : Place}
    {message : MessageType} (of : parts.PartsOf context place message) (shownName : String)
    {implementation : Implementation Action Expr} :
    implementation ∈ (parts.assemble shownName).ownMethods place ↔
      implementation ∈ parts.ownImplementation := by
  rw [MessageClass.ownMethods, List.mem_filter, beq_iff_eq]
  constructor
  · rintro ⟨inside, named⟩
    refine Execution.mem_ownImplementation_of_sameLetters of shownName inside ?_
    rw [named, of.className_eq]
    exact Text.sameLetters_self _
  · intro own
    refine ⟨List.mem_append_right _ own, ?_⟩
    rw [Execution.ownImplementation_className of implementation own, of.className_eq]
    rfl

/-- **Exactly when a variable captures a member.** In the class of an accepted message, a method body
means by its name alone a member that has the name of a variable of the method exactly if the first
field that is written like `aSource` is singular, or no field and some oneof with members is the first
that is written like `aValue`. Then the member is the property of a singular field in a method that
reads or copies fields, or the case property of a oneof in the method that sets the presence of a
member. -/
theorem parameter_captures_member_iff {descriptor : Schema.FileDescriptor} {file : Schema.File}
    {message outer : MessageType} (accepted : Schema.File.ofDescriptor descriptor = .ok file)
    (declared : outer ∈ file.messages) (within : message.Within outer) {context : Context}
    {place : Place} {generated : MessageClass}
    (success : (generateMessage context place message).result = .ok generated) :
    ((∃ implementation ∈ generated.ownMethods place, ∃ name, implementation.Captures name) ↔
      SourceCaptured message ∨ ValueCaptured message) ∧
    ∃ parts, classParts context place message = .ok parts ∧
      ∀ implementation ∈ generated.ownMethods place, ∀ name, implementation.Captures name →
        parts.plan.Captured implementation name := by
  obtain ⟨parts, planned, -, rfl⟩ := generateMessage_eq_ok.mp success
  have of := classParts_eq_ok.mp planned
  have valid := Schema.File.ofDescriptor_accepted accepted declared within
  refine ⟨?_, parts, planned, fun implementation own name captures => ?_⟩
  · simp only [mem_ownMethods of]
    exact exists_captures_iff of valid
  · exact captured_of_captures of ((mem_ownMethods of _).mp own) captures

/-- A file with a field that is written like the source of a message. -/
def sourceDescriptor : Schema.FileDescriptor :=
  { name := some "sample.proto"
    messages :=
      [{ name := some "Sample"
         fields := [{ name := some "a_source", number := some 1, label := some 1, type := some 5 }] }] }

/-- The message of the file. -/
def sourceMessageType : MessageType :=
  { name := "Sample", fields := [{ name := "a_source", number := 1, type := .scalar .int32 }] }

/-- The file is accepted and its message has a class, in which the source of a message that is read
captures the property of the field. -/
theorem source_captures_property :
    Schema.File.ofDescriptor sourceDescriptor =
        .ok { name := "sample.proto", messages := [sourceMessageType] } ∧
      ∃ generated, (generateMessage emptyContext ⟨"", none⟩ sourceMessageType).result =
          .ok generated ∧
        ∃ implementation ∈ generated.ownMethods ⟨"", none⟩,
          implementation.method.name = "Decode" ∧ implementation.Captures "ASource" := by
  refine ⟨rfl, ?_⟩
  have evaluated : (do
      let generated ← (generateMessage emptyContext ⟨"", none⟩ sourceMessageType).result
      return decide (∃ implementation ∈ generated.ownMethods ⟨"", none⟩,
        implementation.method.name = "Decode" ∧ implementation.Captures "ASource")) = .ok true := by
    decide +kernel
  obtain ⟨generated, success, evaluated⟩ := bind_eq_ok.mp evaluated
  exact ⟨generated, success, of_decide_eq_true (pure_eq_ok.mp evaluated)⟩

/-- A file in which the first field that is written like the source is repeated, and a oneof is written
like the value of a presence. -/
def valueDescriptor : Schema.FileDescriptor :=
  { name := some "sample.proto"
    messages :=
      [{ name := some "Sample"
         fields :=
           [{ name := some "a_source", number := some 1, label := some 3, type := some 5 },
            { name := some "aSource", number := some 2, label := some 1, type := some 5 },
            { name := some "text", number := some 3, label := some 1, type := some 9,
              oneofIndex := some 0 }]
         oneofs := [{ name := some "a_value" }] }] }

/-- The message of the file. -/
def valueMessageType : MessageType :=
  { name := "Sample"
    fields :=
      [{ name := "a_source", number := 1, type := .scalar .int32, repeated := true },
       { name := "aSource", number := 2, type := .scalar .int32 },
       { name := "text", number := 3, type := .scalar .string, oneofIndex := some 0 }]
    oneofs := [{ name := "a_value" }] }

/-- In the class of the message only the value of a presence captures a property. -/
theorem value_captures_property :
    ¬ SourceCaptured valueMessageType ∧ ValueCaptured valueMessageType ∧
      ∃ generated parts, (generateMessage emptyContext ⟨"", none⟩ valueMessageType).result =
          .ok generated ∧ classParts emptyContext ⟨"", none⟩ valueMessageType = .ok parts ∧
        (∃ implementation ∈ generated.ownMethods ⟨"", none⟩, ∃ name,
          implementation.Captures name) ∧
        ∀ implementation ∈ generated.ownMethods ⟨"", none⟩, ∀ name, implementation.Captures name →
          parts.plan.Captured implementation name := by
  have repeats : ¬ SourceCaptured valueMessageType := by
    rintro ⟨field, found, singular⟩
    cases found
    cases singular
  have selects : ValueCaptured valueMessageType := ⟨by decide +kernel, _, rfl, by decide⟩
  have accepted : Schema.File.ofDescriptor valueDescriptor =
      .ok { name := "sample.proto", messages := [valueMessageType] } := rfl
  have evaluated : ((generateMessage emptyContext ⟨"", none⟩ valueMessageType).result).isOk = true := by
    decide +kernel
  cases success : (generateMessage emptyContext ⟨"", none⟩ valueMessageType).result with
  | error error =>
    rw [success] at evaluated
    cases evaluated
  | ok generated =>
    obtain ⟨captures_iff, parts, planned, captured⟩ :=
      parameter_captures_member_iff accepted (List.mem_cons_self ..) .self success
    exact ⟨repeats, selects, generated, parts, rfl, planned, captures_iff.mpr (.inr selects), captured⟩

end Message

end ProtoPascal
