import ProtoPascal.Proofs.UnitCollisions
import ProtoPascal.Proofs.UsedUnits

/-!
Two runs side by side. A unit is generated for an index and a runtime library. Where two indexes find
the same units and the same types, the runs fail with the same error or give units that differ at most
in the units that they use, whatever the runtime libraries are.

* `Agree.bind`, `Agree.mapM`: computations one after the other, and for each item of a list;
* `FieldPlan.make_agree`, `ClassPlan.make_agree`: plans agree when their units are left out;
* `generateMessage_agree`: classes agree when their units are left out, by induction on the nesting;
* `generateUnit_agree`, `generateRequested_agree`: so do units.
-/

namespace ProtoPascal

open Message
open Pascal (CodeUnit PascalUnit)
open Schema (MessageType)

/-! ### Results that agree -/

section

variable {α β γ δ ε : Type}

/-- Two computations fail with the same error, or both succeed and their results are related. -/
inductive Agree (relation : α → β → Prop) : Except ε α → Except ε β → Prop
  | ok {value : α} {other : β} (related : relation value other) :
    Agree relation (.ok value) (.ok other)
  | error (error : ε) : Agree relation (.error error) (.error error)

/-- If one of two computations that agree succeeds, then so does the other one. -/
theorem Agree.exists_ok {relation : α → β → Prop} {first : Except ε α} {second : Except ε β}
    (agree : Agree relation first second) {value : α} (success : first = .ok value) :
    ∃ other, second = .ok other ∧ relation value other := by
  cases agree with
  | ok related =>
    cases success
    exact ⟨_, rfl, related⟩
  | error => cases success

/-- **Computations one after the other** agree, if the second ones do for all results of the first that
are related. -/
theorem Agree.bind {relation : α → β → Prop} {related : γ → δ → Prop} {first : Except ε α}
    {second : Except ε β} {next : α → Except ε γ} {next' : β → Except ε δ}
    (start : Agree relation first second)
    (step : ∀ value value', relation value value' → Agree related (next value) (next' value')) :
    Agree related (first >>= next) (second >>= next') := by
  cases start with
  | ok known => exact step _ _ known
  | error error => exact .error error

/-- Computations after the same one agree, if they do for each result of it. -/
theorem Agree.after {related : γ → δ → Prop} {first : Except ε α} {next : α → Except ε γ}
    {next' : α → Except ε δ}
    (step : ∀ value, first = .ok value → Agree related (next value) (next' value)) :
    Agree related (first >>= next) (first >>= next') := by
  cases first with
  | ok value => exact step value rfl
  | error error => exact .error error

/-- **Computations for each item** of a list agree, if those for one item do. -/
theorem Agree.mapM {relation : β → γ → Prop} {compute : α → Except ε β} {compute' : α → Except ε γ}
    {items : List α} (each : ∀ item ∈ items, Agree relation (compute item) (compute' item)) :
    Agree (List.Forall₂ relation) (items.mapM compute) (items.mapM compute') := by
  induction items with
  | nil => exact .ok .nil
  | cons item rest ih =>
    rw [List.forall_mem_cons] at each
    rw [List.mapM_cons, List.mapM_cons]
    exact each.1.bind fun _ _ first => (ih each.2).bind fun _ _ others => .ok (.cons first others)

theorem Agree.imp {relation weaker : α → β → Prop} {first : Except ε α} {second : Except ε β}
    (agree : Agree relation first second)
    (step : ∀ value value', first = .ok value → second = .ok value' → relation value value' →
      weaker value value') :
    Agree weaker first second := by
  cases agree with
  | ok known => exact .ok (step _ _ rfl rfl known)
  | error error => exact .error error

end

/-! ### Indexes and contexts -/

/-- Two indexes find the same units and the same types. -/
structure TypeIndex.Alike (index other : TypeIndex) : Prop where
  units : ∀ name, lastUnder name index.units = lastUnder name other.units
  types : ∀ name, lastUnder name index.types = lastUnder name other.types

theorem TypeIndex.Alike.refl (index : TypeIndex) : index.Alike index :=
  ⟨fun _ => rfl, fun _ => rfl⟩

theorem TypeIndex.Alike.unit {index other : TypeIndex} (alike : index.Alike other)
    (name referencedBy : String) : index.unit name referencedBy = other.unit name referencedBy := by
  rw [TypeIndex.unit, TypeIndex.unit, alike.units]

theorem TypeIndex.Alike.resolve {index other : TypeIndex} (alike : index.Alike other)
    (typeName referencedBy : String) :
    index.resolve typeName referencedBy = other.resolve typeName referencedBy := by
  rw [TypeIndex.resolve, TypeIndex.resolve, alike.types]

/-- Indexes that find the same need the same units for a file. -/
theorem TypeIndex.Alike.fileUnits {index other : TypeIndex} (alike : index.Alike other)
    (runtime : Runtime) (unit : String) (file : Schema.File) :
    fileUnits index runtime unit file = ProtoPascal.fileUnits other runtime unit file := by
  have declaring : declaringUnits index unit = declaringUnits other unit := by
    funext type
    cases type with
    | scalar => rfl
    | reference kind typeName => rw [declaringUnits, declaringUnits, alike.types]
  have fields : fieldUnits index runtime unit = fieldUnits other runtime unit := by
    funext field
    rw [fieldUnits, fieldUnits, declaring]
  simp only [ProtoPascal.fileUnits, dependencyUnits, fields, alike.units]

/-- Two contexts have the same unit and find the same types. -/
structure Message.Context.Alike (context other : Context) : Prop where
  unit : context.unit = other.unit
  index : context.index.Alike other.index

/-! ### Plans without their units -/

/-- The support for a type without the units that hold it. -/
def TypeSupport.withoutUnits (support : TypeSupport) : TypeSupport :=
  { support with singularUnits := [], repeatedUnits := [] }

namespace Message

/-- The plan of a field without the units that hold its types. -/
def FieldPlan.withoutUnits (plan : FieldPlan) : FieldPlan :=
  { plan with support := plan.support.withoutUnits, units := [] }

/-- The plan of a oneof without the units that hold the types of its members. -/
def OneofPlan.withoutUnits (plan : OneofPlan) : OneofPlan :=
  { plan with members := plan.members.map FieldPlan.withoutUnits }

/-- The plan of a class without the units that hold the types of its fields. -/
def ClassPlan.withoutUnits (plan : ClassPlan) : ClassPlan :=
  { plan with
    fields := plan.fields.map FieldPlan.withoutUnits
    oneofs := plan.oneofs.map OneofPlan.withoutUnits }

/-- The arms of a oneof do not depend on units, if the code of its members does not. -/
theorem OneofPlan.withoutUnits_arms (plan : OneofPlan) {body : FieldPlan → Body}
    (free : ∀ member : FieldPlan, body member.withoutUnits = body member) :
    plan.withoutUnits.arms body = plan.arms body := by
  rw [arms, arms, withoutUnits, List.filterMap_map]
  refine List.filterMap_congr fun member _ => ?_
  rw [Function.comp_apply, free]
  rfl

theorem OneofPlan.withoutUnits_implementations (plan : OneofPlan) :
    plan.withoutUnits.implementations = plan.implementations := by
  have leaving : plan.withoutUnits.arms FieldPlan.releaseBody = plan.arms FieldPlan.releaseBody :=
    plan.withoutUnits_arms fun _ => rfl
  have entering :
      plan.withoutUnits.arms FieldPlan.initializeBody = plan.arms FieldPlan.initializeBody :=
    plan.withoutUnits_arms fun _ => rfl
  rw [implementations, implementations, setterBody, setterBody, leaving, entering]
  rfl

section

variable {α : Type} {ofField : FieldPlan → List α} {ofOneof : OneofPlan → List α} (plan : ClassPlan)
  (fields : ∀ field : FieldPlan, ofField field.withoutUnits = ofField field)

include fields

/-- What the slots of a class contribute does not depend on units, if what each field and each oneof
contributes does not. -/
theorem ClassPlan.withoutUnits_flatMapSlots
    (oneofs : ∀ oneof : OneofPlan, ofOneof oneof.withoutUnits = ofOneof oneof) :
    plan.withoutUnits.flatMapSlots ofField ofOneof = plan.flatMapSlots ofField ofOneof := by
  refine congrArg plan.slots.flatMap (funext fun slot => ?_)
  cases slot with
  | field position =>
    show (((plan.fields.map _)[position]?).map ofField).getD [] = _
    rw [List.getElem?_map, Option.map_map]
    exact congrArg (Option.getD · []) (congrArg (Option.map · _) (funext fields))
  | oneof position =>
    show (((plan.oneofs.map _)[position]?).map ofOneof).getD [] = _
    rw [List.getElem?_map, Option.map_map]
    exact congrArg (Option.getD · []) (congrArg (Option.map · _) (funext oneofs))

theorem flatMap_withoutUnits (plans : List FieldPlan) :
    (plans.map FieldPlan.withoutUnits).flatMap ofField = plans.flatMap ofField := by
  rw [List.flatMap_map]
  exact congrArg plans.flatMap (funext fields)

end

/-- The methods of a class do not depend on units. -/
theorem ClassPlan.withoutUnits_methods (plan : ClassPlan) :
    plan.withoutUnits.methods = plan.methods := by
  have concat (fragment : FieldPlan → Body)
      (free : ∀ field : FieldPlan, fragment field.withoutUnits = fragment field) :
      plan.withoutUnits.concatFields fragment = plan.concatFields fragment :=
    flatMap_withoutUnits free plan.fields
  have create : plan.withoutUnits.createBody = plan.createBody := by
    rw [createBody, createBody, plan.withoutUnits_flatMapSlots (fun _ => rfl) fun _ => rfl]
  have destroy : plan.withoutUnits.destroyBody = plan.destroyBody := by
    have reversed : plan.withoutUnits.fields.reverse =
        plan.fields.reverse.map FieldPlan.withoutUnits := List.map_reverse.symm
    rw [destroyBody, destroyBody, reversed, flatMap_withoutUnits fun _ => rfl]
  rw [methods, methods, create, destroy, concat FieldPlan.encodeBody fun _ => rfl,
    concat FieldPlan.decodeBody fun _ => rfl, concat FieldPlan.clearBody fun _ => rfl,
    concat FieldPlan.mergeBody fun _ => rfl, concat FieldPlan.assignBody fun _ => rfl]
  rfl

/-- The class without the units that it needs. -/
def MessageClass.withoutUses (generated : MessageClass) : MessageClass :=
  { generated with uses := [] }

/-- The parts of a class without units. -/
def ClassParts.withoutUses (parts : ClassParts) : ClassParts :=
  { parts with
    nested := parts.nested.map MessageClass.withoutUses
    plan := parts.plan.withoutUnits }

theorem nestedMembers_withoutUses (enums : List Pascal.EnumDeclaration)
    (nested : List MessageClass) :
    nestedMembers enums (nested.map MessageClass.withoutUses) = nestedMembers enums nested := by
  rw [nestedMembers, nestedMembers, List.map_map, List.map_map]
  rfl

/-- The members of a class do not depend on units. -/
theorem ClassParts.withoutUses_members (parts : ClassParts) :
    parts.withoutUses.members = parts.members := by
  have types : parts.withoutUses.typeMembers = parts.typeMembers :=
    nestedMembers_withoutUses parts.enums parts.nested
  have derived : parts.withoutUses.derivedMembers = parts.derivedMembers :=
    parts.plan.withoutUnits_flatMapSlots (fun _ => rfl) fun _ => rfl
  have lifecycle : parts.withoutUses.lifecycleMembers = parts.lifecycleMembers :=
    congrArg (List.map ClassMethod.member) parts.plan.withoutUnits_methods
  rw [members, members, types, derived, lifecycle]

/-- **All of a class but its units does not depend on units.** -/
theorem ClassParts.withoutUses_assemble (parts : ClassParts) (shownName : String) :
    (parts.withoutUses.assemble shownName).withoutUses = (parts.assemble shownName).withoutUses := by
  have nested : parts.withoutUses.nested.flatMap MessageClass.implementation =
      parts.nested.flatMap MessageClass.implementation := by
    rw [withoutUses, List.flatMap_map]
    rfl
  have own : parts.withoutUses.ownImplementation = parts.ownImplementation := by
    rw [ownImplementation, ownImplementation]
    exact congrArg₂ (· ++ ·)
      (parts.plan.withoutUnits_flatMapSlots (fun _ => rfl) OneofPlan.withoutUnits_implementations)
      (congrArg (List.map _) parts.plan.withoutUnits_methods)
  rw [assemble, assemble, parts.withoutUses_members, nested, own]
  rfl

/-! ### Plans and classes of two runs -/

section

variable {context other : Context} (alike : context.Alike other)

theorem support_agree (runtime runtime' : Runtime) (type : Schema.FieldType)
    (reference : Option String) :
    Agree (fun support support' => support.withoutUnits = support'.withoutUnits)
      (runtime.support type reference) (runtime'.support type reference) := by
  match type, reference with
  | .scalar _, _ => exact .ok rfl
  | .reference .enumeration _, some _ => exact .ok rfl
  | .reference .message _, some _ => exact .ok rfl
  | .reference _ _, none => exact .error _

include alike

/-- **Plans of one field agree** when their units are left out. -/
theorem FieldPlan.make_agree (className messageName : String) (membership : Option Membership)
    (names : FieldNames) (field : Schema.Field) :
    Agree (fun plan plan' => plan.withoutUnits = plan'.withoutUnits)
      (FieldPlan.make context className messageName membership names field)
      (FieldPlan.make other className messageName membership names field) := by
  have resolved (qualified : String) (type : Schema.FieldType) :
      resolveReference context qualified type = resolveReference other qualified type := by
    cases type with
    | scalar => rfl
    | reference kind typeName => rw [resolveReference, resolveReference, alike.index.resolve]
  rw [FieldPlan.make, FieldPlan.make, resolved, alike.unit]
  refine .after fun reference _ => ?_
  refine (support_agree _ _ _ _).bind fun support support' same => .ok ?_
  exact congrArg (fun support : TypeSupport =>
    (⟨field, className, membership, names, support, []⟩ : FieldPlan)) same

theorem planField_agree (className fullName : String) (oneofs : List OneofNames)
    (named : Schema.Field × FieldNames) :
    Agree (fun plan plan' => plan.withoutUnits = plan'.withoutUnits)
      (planField context className fullName oneofs named)
      (planField other className fullName oneofs named) := by
  refine .after fun membership _ => ?_
  exact FieldPlan.make_agree alike className fullName membership named.2 named.1

/-- **Plans of one class agree** when their units are left out. -/
theorem ClassPlan.make_agree (className fullName : String) (scope : Naming.Scope)
    (message : MessageType) :
    Agree (fun plan plan' => plan.withoutUnits = plan'.withoutUnits)
      (ClassPlan.make context className fullName scope message)
      (ClassPlan.make other className fullName scope message) := by
  refine .after fun (fieldNames, oneofNames) _ => ?_
  refine (Agree.mapM fun named _ => planField_agree alike className fullName oneofNames named).bind
    fun plans plans' same => .ok ?_
  have fields := map_eq_of_forall₂ FieldPlan.withoutUnits FieldPlan.withoutUnits same.flip
  -- Which fields belong to a oneof does not depend on units.
  have members (plans : List FieldPlan) (names : OneofNames) (position : Nat) :
      (planOneof className plans names position).withoutUnits =
        planOneof className (plans.map FieldPlan.withoutUnits) names position := by
    rw [planOneof, planOneof, OneofPlan.withoutUnits, List.filter_map]
    rfl
  simp only [ClassPlan.withoutUnits, List.map_map, Function.comp_def, members, fields]

/-- **Classes of one message agree** when their units are left out: what is nested in the message does,
so the parts of the classes do, and with them their members and the outcome of comparing these. -/
theorem generateMessage_agree (message : MessageType) : ∀ place : Place,
    Agree (fun generated generated' => generated.withoutUses = generated'.withoutUses)
      (generateMessage context place message).result (generateMessage other place message).result := by
  induction message using nested_induction with
  | step message ih =>
    intro place
    rw [generateMessage_result, generateMessage_result]
    have parts_agree : Agree (fun parts parts' : ClassParts => parts.withoutUses = parts'.withoutUses)
        (classParts context place message) (classParts other place message) := by
      refine .after fun identifier _ => ?_
      refine .after fun enums _ => ?_
      rw [generateMessages_result, generateMessages_result]
      refine (Agree.mapM fun inner inside => ih inner inside _).bind fun nested nested' same => ?_
      have nested_same :=
        map_eq_of_forall₂ MessageClass.withoutUses MessageClass.withoutUses same.flip
      have scope_same : memberNamesScope enums nested = memberNamesScope enums nested' := by
        rw [memberNamesScope, memberNamesScope, ← nestedMembers_withoutUses, nested_same,
          nestedMembers_withoutUses]
      rw [scope_same]
      refine (ClassPlan.make_agree alike _ _ _ _).bind fun plan plan' planned => .ok ?_
      rw [ClassParts.withoutUses, ClassParts.withoutUses, nested_same, planned]
    refine parts_agree.bind fun parts parts' same => ?_
    rw [← parts.withoutUses_members, same, parts'.withoutUses_members]
    refine .after fun _ _ => .ok ?_
    rw [← parts.withoutUses_assemble, same, parts'.withoutUses_assemble]

end

end Message

/-! ### Units of two runs -/

/-- The unit without those that it uses. -/
def Pascal.CodeUnit.withoutUses (unit : CodeUnit) : CodeUnit :=
  { unit with uses := [] }

/-- **Units of one file agree** when the units that they use are left out. -/
theorem generateUnit_agree {index other : TypeIndex} (alike : index.Alike other)
    (runtime runtime' : Runtime) (file : Schema.File) :
    Agree (fun unit unit' => unit.withoutUses = unit'.withoutUses)
      (generateUnit index runtime file).result (generateUnit other runtime' file).result := by
  simp only [generateUnit, Traced.result_bind, Traced.monadLift_eq, Traced.result_silent,
    Traced.result_note, Traced.result_pure, generateMessages_result, alike.unit]
  refine .after fun identifier _ => ?_
  refine .after fun _ _ => .after fun imported _ => ?_
  refine .after fun enums _ => ?_
  have context_alike : (⟨index, runtime, identifier.fullName⟩ : Context).Alike
      ⟨other, runtime', identifier.fullName⟩ := ⟨rfl, alike⟩
  refine (Agree.mapM fun message _ => generateMessage_agree context_alike message _).bind
    fun classes classes' same => .ok ?_
  have classes_same := map_eq_of_forall₂ MessageClass.withoutUses MessageClass.withoutUses same.flip
  have types (classes : List MessageClass) :
      unitTypes enums (classes.map MessageClass.withoutUses) = unitTypes enums classes := by
    rw [unitTypes, unitTypes, List.map_map, List.map_map]
    rfl
  have implementation (classes : List MessageClass) :
      (classes.map MessageClass.withoutUses).flatMap MessageClass.implementation =
        classes.flatMap MessageClass.implementation := by
    rw [List.flatMap_map]
    rfl
  rw [CodeUnit.withoutUses, CodeUnit.withoutUses, ← types classes, ← implementation classes,
    classes_same, types classes', implementation classes']

namespace Request

/-- Two generated units differ at most in the units that they use. -/
structure GeneratedUnit.SameCode (generated other : GeneratedUnit) : Prop where
  path : generated.path = other.path
  name : generated.unit.name = other.unit.name
  header : generated.unit.header = other.unit.header
  types : generated.unit.types = other.unit.types
  implementation : generated.unit.implementation = other.unit.implementation

/-- Generated units that use the same units are the same, if they do not differ in anything else. -/
theorem GeneratedUnit.SameCode.eq_of_uses {generated other : GeneratedUnit}
    (same : generated.SameCode other) (uses : generated.unit.uses = other.unit.uses) :
    generated = other := by
  obtain ⟨path, name, header, types, implementation⟩ := same
  rcases generated with ⟨_, _, _, _, _, _⟩
  rcases other with ⟨_, _, _, _, _, _⟩
  simp only at path name header uses types implementation
  rw [path, name, header, uses, types, implementation]

/-- **Units of one requested file differ at most in the units that they use**, if the file is the
same. -/
theorem generateRequested_agree {index other : TypeIndex} (alike : index.Alike other)
    (runtime runtime' : Runtime) {files files' : List Schema.File} {name : String}
    (found : findFile files name = findFile files' name) :
    Agree GeneratedUnit.SameCode (generateRequested runtime index files name).result
      (generateRequested runtime' other files' name).result := by
  simp only [generateRequested, Traced.result_bind, Traced.monadLift_eq, Traced.result_silent,
    Traced.result_note, Traced.result_pure, found, alike.unit]
  refine .after fun file _ => ?_
  refine (generateUnit_agree alike runtime runtime' file).bind fun unit unit' same => ?_
  refine .after fun identifier _ => ?_
  rw [CodeUnit.withoutUses, CodeUnit.withoutUses, PascalUnit.mk.injEq] at same
  obtain ⟨name, header, -, types, implementation⟩ := same
  exact .ok ⟨rfl, name, header, types, implementation⟩

/-- The units that the unit of a requested file uses. -/
theorem generateRequested_uses {index : TypeIndex} {runtime : Runtime} {files : List Schema.File}
    {name : String} {generated : GeneratedUnit}
    (made : (generateRequested runtime index files name).result = .ok generated) :
    ∃ file identifier, findFile files name = .ok file ∧
      lastUnder file.name index.units = some identifier ∧
      generated.unit.uses = (fileUnits index runtime identifier.fullName file).eraseDups := by
  obtain ⟨file, found, unit_made, -⟩ := generateRequested_eq_ok made
  obtain ⟨identifier, _, _, parts⟩ := generateUnit_parts unit_made
  exact ⟨file, identifier, found, unit_eq_ok.mp parts.known,
    parts.name ▸ (generatedUnit_uses unit_made).1⟩

end Request

end ProtoPascal
