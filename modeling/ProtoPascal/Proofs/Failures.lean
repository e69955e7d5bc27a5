import ProtoPascal.Proofs.AcceptedSchema
import ProtoPascal.Proofs.ClassParts

/-!
The errors with which the class of a message can fail. `FailsOnlyWith` bounds the errors of a
computation, and each way to join computations keeps the bound. The fields of an accepted message
find their oneofs and the case values that stand for them, so no error is left that says otherwise.

* `FailsOnlyWith.bind`, `FailsOnlyWith.mapM`: computations one after the other, and one for each item;
* `membershipOf_succeeds`: a field finds the oneof that it refers to and its case value there;
* `generateMessage_failsOnlyWith`: a message fails only for its names or the types of its fields.
-/

namespace ProtoPascal

section

variable {α β ε : Type} {property : ε → Prop}

/-- Whatever error a computation ends with has a property. -/
def FailsOnlyWith (property : ε → Prop) (result : Except ε α) : Prop :=
  ∀ error, result = .error error → property error

theorem FailsOnlyWith.ok (value : α) : FailsOnlyWith property (.ok value) :=
  fun _ failed => nomatch failed

/-- **One computation after another** fails as one of the two does. -/
theorem FailsOnlyWith.bind {first : Except ε α} {next : α → Except ε β}
    (ofFirst : FailsOnlyWith property first)
    (ofNext : ∀ value, first = .ok value → FailsOnlyWith property (next value)) :
    FailsOnlyWith property (first >>= next) := by
  intro error failed
  cases computed : first with
  | error cause =>
    rw [computed] at failed
    cases failed
    exact ofFirst error computed
  | ok value =>
    rw [computed] at failed
    exact ofNext value computed error failed

/-- **One computation for each item** fails as one of them does. -/
theorem FailsOnlyWith.mapM {compute : α → Except ε β} {items : List α}
    (each : ∀ item ∈ items, FailsOnlyWith property (compute item)) :
    FailsOnlyWith property (items.mapM compute) := by
  induction items with
  | nil => exact .ok []
  | cons item rest ih =>
    rw [List.forall_mem_cons] at each
    rw [List.mapM_cons]
    refine each.1.bind fun first _ => (ih each.2).bind fun others _ => ?_
    exact .ok (first :: others)

end

/-- The errors that are left for the class of a message whose fields find their oneofs: a name without
an identifier, and a type that is not known or is of another kind. -/
inductive Error.OfClass : Error → Prop
  | collision (kind entity identifier : String) :
    OfClass (.identifierCollision kind entity identifier)
  | missingType (name referencedBy : String) : OfClass (.missingType name referencedBy)
  | kindMismatch (field typeName : String) (declared actual : Schema.TypeKind) :
    OfClass (.invalidSchema (.kindMismatch field typeName declared actual))

/-! ### Names -/

namespace Naming

variable {α β : Type}

/-- Whatever error a computation ends with is one of those of classes, in any scope. -/
def Claiming.FailsOnlyOfClass (claims : Claiming α) : Prop :=
  ∀ scope, FailsOnlyWith Error.OfClass (claims.resultIn scope)

theorem generate_failsOnlyWith {scope : Scope} {rule : Rule} {colliding : List Rule} {core : String} :
    FailsOnlyWith Error.OfClass (scope.generate rule colliding core) := by
  intro error failed
  unfold Scope.generate at failed
  split at failed
  · cases failed
  · split at failed
    · cases failed
    · cases failed
      exact .collision ..

theorem typeIdentifier_failsOnlyWith (name : String) :
    FailsOnlyWith Error.OfClass (typeIdentifier name) :=
  generate_failsOnlyWith

theorem Claiming.FailsOnlyOfClass.pure (value : α) :
    Claiming.FailsOnlyOfClass (Pure.pure value : Claiming α) :=
  fun _ => .ok value

theorem Claiming.FailsOnlyOfClass.ofExcept {result : Except Error α}
    (ofResult : FailsOnlyWith Error.OfClass result) :
    (Claiming.ofExcept result).FailsOnlyOfClass :=
  fun _ => ofResult

theorem Claiming.FailsOnlyOfClass.bind {first : Claiming α} {next : α → Claiming β}
    (ofFirst : first.FailsOnlyOfClass) (ofNext : ∀ value, (next value).FailsOnlyOfClass) :
    (first >>= next).FailsOnlyOfClass := by
  intro scope error failed
  rw [Claiming.resultIn, runIn_bind] at failed
  rcases computed : first.runIn scope with ⟨cause | value, middle⟩
  · rw [computed] at failed
    cases failed
    exact ofFirst scope error (by rw [Claiming.resultIn, computed])
  · rw [computed] at failed
    exact ofNext value middle error failed

theorem Claiming.FailsOnlyOfClass.mapM {compute : α → Claiming β}
    (each : ∀ item, (compute item).FailsOnlyOfClass) (items : List α) :
    (items.mapM compute).FailsOnlyOfClass := by
  induction items with
  | nil =>
    rw [List.mapM_nil]
    exact .pure []
  | cons item rest ih =>
    rw [List.mapM_cons]
    exact (each item).bind fun first => ih.bind fun others => .pure (first :: others)

theorem claim_failsOnlyOfClass {rule : Rule} {colliding : List Rule} {core : String} :
    (claim rule colliding core).FailsOnlyOfClass := by
  intro scope error failed
  have generates : FailsOnlyWith Error.OfClass (scope.generate rule colliding core) :=
    generate_failsOnlyWith
  refine generates error ?_
  simp only [Claiming.resultIn, Claiming.runIn, claim, ExceptT.run, ExceptT.mk, StateT.run] at failed
  rcases computed : scope.generate rule colliding core with cause | identifier
  · rw [computed] at failed
    exact failed
  · rw [computed] at failed
    cases failed

end Naming

theorem enumDeclaration_failsOnlyWith (enumType : Schema.EnumType) :
    FailsOnlyWith Error.OfClass (enumDeclaration enumType) := by
  refine (Naming.typeIdentifier_failsOnlyWith enumType.name).bind fun name _ => ?_
  refine FailsOnlyWith.bind ?_ fun values _ => .ok _
  refine Naming.Claiming.FailsOnlyOfClass.mapM (fun value => ?_) _ _
  exact Naming.claim_failsOnlyOfClass.bind fun name => .pure _

namespace Message

open Naming
open Schema (Field MessageType)

theorem presenceNames_failsOnlyOfClass (core : String) :
    (PresenceNames.claim core).FailsOnlyOfClass :=
  claim_failsOnlyOfClass.bind fun _ => claim_failsOnlyOfClass.bind fun _ =>
    claim_failsOnlyOfClass.bind fun _ => .pure _

theorem fieldNames_failsOnlyOfClass (field : Field) : (FieldNames.claim field).FailsOnlyOfClass := by
  unfold FieldNames.claim
  refine claim_failsOnlyOfClass.bind fun backing => ?_
  refine claim_failsOnlyOfClass.bind fun property => ?_
  refine claim_failsOnlyOfClass.bind fun getter => ?_
  refine claim_failsOnlyOfClass.bind fun setter => ?_
  dsimp only
  split <;> refine Claiming.FailsOnlyOfClass.bind ?_ fun presence =>
    claim_failsOnlyOfClass.bind fun _ => claim_failsOnlyOfClass.bind fun _ => .pure _
  · exact .pure none
  · rw [map_eq_pure_bind]
    exact (presenceNames_failsOnlyOfClass field.name).bind fun presence => .pure (some presence)

theorem oneofNames_failsOnlyOfClass (oneof : Schema.Oneof) (members : List Field) :
    (OneofNames.claim oneof members).FailsOnlyOfClass := by
  have caseValues : (claimCaseValues oneof members).FailsOnlyOfClass := by
    refine claim_failsOnlyOfClass.bind fun noneValue => ?_
    refine Claiming.FailsOnlyOfClass.bind ?_ fun caseValues => .pure _
    refine Claiming.FailsOnlyOfClass.mapM (fun member => ?_) _
    exact claim_failsOnlyOfClass.bind fun name => .pure _
  unfold OneofNames.claim
  refine Claiming.FailsOnlyOfClass.bind (.ofExcept (caseValues keywordScope)) fun values => ?_
  dsimp only
  refine claim_failsOnlyOfClass.bind fun caseType => ?_
  refine claim_failsOnlyOfClass.bind fun backing => ?_
  refine claim_failsOnlyOfClass.bind fun property => ?_
  refine claim_failsOnlyOfClass.bind fun getter => ?_
  exact claim_failsOnlyOfClass.bind fun setter => .pure _

theorem claimNames_failsOnlyOfClass (message : MessageType) :
    (claimNames message).FailsOnlyOfClass := by
  unfold claimNames
  refine (Claiming.FailsOnlyOfClass.mapM fieldNames_failsOnlyOfClass _).bind fun fieldNames => ?_
  refine Claiming.FailsOnlyOfClass.bind ?_ fun oneofNames => .pure _
  refine Claiming.FailsOnlyOfClass.mapM (fun entry => ?_) _
  exact oneofNames_failsOnlyOfClass entry.1 (message.oneofMembers entry.2)

/-! ### Fields -/

/-- The oneofs to which the fields of a message belong are oneofs of the message. -/
def OneofsDeclared (message : MessageType) : Prop :=
  ∀ field ∈ message.fields, ∀ position, field.oneofIndex = some position →
    position < message.oneofs.length

/-- A value stands for each number among those of the members. -/
theorem exists_caseValue {names : OneofNames} {number : Int}
    (inside : number ∈ names.caseValues.map CaseValue.number) :
    ∃ caseValue, names.caseValue? number = some caseValue := by
  obtain ⟨value, value_inside, rfl⟩ := List.mem_map.mp inside
  cases found : names.caseValues.find? fun other => other.number == value.number with
  | none => exact absurd (beq_self_eq_true value.number) (List.find?_eq_none.mp found value value_inside)
  | some other => exact ⟨other.name, by rw [OneofNames.caseValue?, found, Option.map_some]⟩

/-- **A field finds the oneof that it refers to**, and the case value that stands for it there. -/
theorem membershipOf_succeeds {message : MessageType} {scope : Scope}
    {names : List FieldNames × List OneofNames} (claimed : (claimNames message).resultIn scope = .ok names)
    (declared : OneofsDeclared message) {field : Field} (inside : field ∈ message.fields)
    (fullName : String) : ∃ membership, membershipOf fullName names.2 field = .ok membership := by
  unfold membershipOf
  cases belongs : field.oneofIndex with
  | none => exact ⟨none, rfl⟩
  | some position =>
    have values := (claimNames_extends claimed).values
    have inRange : position < names.2.length := by
      rw [← values.length_eq, List.length_range]
      exact declared field inside position belongs
    have found := List.getElem?_eq_getElem inRange
    obtain ⟨index, index_found, -, numbered⟩ := exists_left_getElem? values found
    obtain ⟨below, rfl⟩ := List.getElem?_eq_some_iff.mp index_found
    rw [List.getElem_range] at numbered
    -- The values of the case type have the numbers of the members, and the field is one of them.
    have stands : field.number ∈ names.2[position].caseValues.map CaseValue.number := by
      rw [numbered]
      exact List.mem_map_of_mem (List.mem_filter.mpr ⟨inside, beq_iff_eq.mpr belongs⟩)
    obtain ⟨caseValue, selects⟩ := exists_caseValue stands
    exact ⟨some ⟨names.2[position], caseValue⟩, by simp only [found, selects]⟩

theorem resolveReference_failsOnlyWith {context : Context} {qualified : String}
    {type : Schema.FieldType} :
    FailsOnlyWith Error.OfClass (resolveReference context qualified type) := by
  cases type with
  | scalar type => exact .ok none
  | reference kind typeName =>
    refine FailsOnlyWith.bind ?_ fun resolved _ => ?_
    · intro error failed
      unfold TypeIndex.resolve at failed
      split at failed
      · cases failed
      · cases failed
        exact .missingType ..
    · intro error failed
      by_cases other : resolved.kind ≠ kind
      · rw [if_pos other] at failed
        cases failed
        exact .kindMismatch ..
      · rw [if_neg other] at failed
        cases failed

theorem support_failsOnlyWith {runtime : Runtime} {type : Schema.FieldType}
    {reference : Option String} : FailsOnlyWith Error.OfClass (runtime.support type reference) := by
  intro error failed
  unfold Runtime.support at failed
  split at failed
  · cases failed
  · cases failed
  · cases failed
    exact .missingType ..

/-! ### Classes -/

theorem classPlan_failsOnlyWith (context : Context) (className fullName : String) (scope : Scope)
    {message : MessageType} (declared : OneofsDeclared message) :
    FailsOnlyWith Error.OfClass (ClassPlan.make context className fullName scope message) := by
  refine (claimNames_failsOnlyOfClass message scope).bind fun names claimed => ?_
  refine FailsOnlyWith.bind (FailsOnlyWith.mapM fun named inside => ?_) fun fields _ => .ok _
  obtain ⟨membership, found⟩ :=
    membershipOf_succeeds claimed declared (List.of_mem_zip inside).1 fullName
  unfold planField
  rw [found]
  refine FailsOnlyWith.bind (.ok membership) fun membership _ => ?_
  refine resolveReference_failsOnlyWith.bind fun resolved _ => ?_
  exact support_failsOnlyWith.bind fun support _ => .ok _

theorem checkUniqueFrom_failsOnlyWith {messageName : String} {seen : List String}
    {members : List Pascal.Member} :
    FailsOnlyWith Error.OfClass (checkUniqueFrom messageName seen members) := by
  induction members generalizing seen with
  | nil => exact .ok ()
  | cons member rest ih =>
    rw [checkUniqueFrom]
    split
    · exact ih
    · split
      · intro error failed
        cases failed
        exact .collision ..
      · exact ih

/-- **A message fails only for its names or the types of its fields**, if its fields and those of the
messages inside it belong to oneofs that are there. -/
theorem generateMessage_failsOnlyWith {context : Context} (message : MessageType) :
    ∀ place : Place, (∀ inner : MessageType, inner.Within message → OneofsDeclared inner) →
      FailsOnlyWith Error.OfClass (generateMessage context place message).result := by
  induction message using nested_induction with
  | step message ih =>
    intro place declared
    rw [generateMessage_result]
    refine FailsOnlyWith.bind ?_ fun parts _ => ?_
    · refine (typeIdentifier_failsOnlyWith message.name).bind fun identifier _ => ?_
      refine (FailsOnlyWith.mapM fun enumType _ => enumDeclaration_failsOnlyWith enumType).bind
        fun enums _ => ?_
      rw [generateMessages_result]
      refine FailsOnlyWith.bind (FailsOnlyWith.mapM fun inner inside => ?_) fun nested _ => ?_
      · exact ih inner inside _ fun deeper within => declared deeper (.nested inside within)
      · exact (classPlan_failsOnlyWith _ _ _ _ (declared message .self)).bind fun plan _ => .ok _
    · exact checkUniqueFrom_failsOnlyWith.bind fun _ _ => .ok _

end Message

end ProtoPascal
