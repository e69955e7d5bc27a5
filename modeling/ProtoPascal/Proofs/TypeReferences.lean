import ProtoPascal.Proofs.DeclaredTypes

/-!
References to types in generated units. A field names the type of its values by the path of
identifiers that leads to it from the level of its unit, with the name of the unit in front if it is
another one. The path does not depend on the class in which it is written, so a member of this class
or of a class around it captures the reference if it has the name with which the reference starts.

* `reference_denotes_type_iff`: exactly when a reference stands for the type of the field;
* `nested_type_captures_reference`: a nested type that captures a reference.
-/

namespace ProtoPascal

open Message Naming Pascal
open Schema (MessageType)

/-- What other units know of the unit of a file. There are no types in a unit that is not
generated. -/
def unitNames (index : TypeIndex) (runtime : Runtime) (file : Schema.File) : UnitNames where
  path :=
    match UnitIdentifier.ofFile file with
    | .ok identifier => identifier.path
    | .error _ => []
  names :=
    match (generateUnit index runtime file).result with
    | .ok unit => typeNames unit.types
    | .error _ => []

/-- The units of all files. -/
def unitsOf (index : TypeIndex) (runtime : Runtime) (files : List Schema.File) : List UnitNames :=
  files.map (unitNames index runtime)

/-- When a reference in a class reaches the type to which its path leads: nothing on the way from the
class to the type has the name with which the reference starts, and the type, or its unit, is the
only one of its name. -/
inductive Reaches (units : List UnitNames) (own : Nat) (site : Site) : Nat → List String → Prop
  | within {unit : UnitNames} {first : String} {rest : List String}
      (here : units[own]? = some unit) (uncaptured : Uncaptured unit own site first)
      (once : unit.names.HasOnce first) : Reaches units own site own (first :: rest)
  | across {unit targetUnit : UnitNames} {target : Nat} {first next : String}
      {segments rest : List String} (here : units[own]? = some unit)
      (there : units[target]? = some targetUnit) (different : targetUnit.path ≠ unit.path)
      (named : targetUnit.path = first :: segments) (uncaptured : Uncaptured unit own site first)
      (free : ¬ unit.names.Has first) (only : unitsNamed units targetUnit.path = [target])
      (once : targetUnit.names.HasOnce next) : Reaches units own site target (next :: rest)

section

variable {index : TypeIndex} {runtime : Runtime} {files : List Schema.File}

theorem unitNames_path {file : Schema.File} {identifier : UnitIdentifier}
    (named : UnitIdentifier.ofFile file = .ok identifier) :
    (unitNames index runtime file).path = identifier.path := by
  simp only [unitNames, named]

theorem unitsOf_getElem? (index : TypeIndex) (runtime : Runtime) {position : Nat} {file : Schema.File}
    (found : files[position]? = some file) :
    (unitsOf index runtime files)[position]? = some (unitNames index runtime file) := by
  rw [unitsOf, List.getElem?_map, found, Option.map_some]

/-- What a generated unit is made of. -/
structure UnitParts (index : TypeIndex) (runtime : Runtime) (file : Schema.File) (unit : CodeUnit)
    (identifier : UnitIdentifier) (declarations : List EnumDeclaration)
    (classes : List MessageClass) : Prop where
  known : index.unit file.name file.name = .ok identifier
  name : unit.name = identifier.fullName
  types : unit.types = unitTypes declarations classes
  implementation : unit.implementation = classes.flatMap MessageClass.implementation
  declared : List.Forall₂ (fun enumType declaration => enumDeclaration enumType = .ok declaration)
    file.enums declarations
  made : List.Forall₂ (fun message result => (generateMessage ⟨index, runtime, identifier.fullName⟩
    ⟨file.scope, none⟩ message).result = .ok result) file.messages classes
  uses : ∃ imported, List.Forall₂ (fun dependency name =>
      UnitIdentifier.fullName <$> index.unit dependency file.name = .ok name)
      file.dependencies imported ∧
    unit.uses = addUnits (addUnits (addUnits [] runtime.baseUnits) imported)
      (classes.flatMap MessageClass.uses)

theorem generateUnit_parts {file : Schema.File} {unit : CodeUnit}
    (generated : (generateUnit index runtime file).result = .ok unit) :
    ∃ identifier declarations classes,
      UnitParts index runtime file unit identifier declarations classes := by
  simp only [generateUnit, Traced.result_bind, Traced.monadLift_eq, Traced.result_silent,
    Traced.result_note] at generated
  obtain ⟨identifier, known, generated⟩ := bind_eq_ok.mp generated
  obtain ⟨-, -, generated⟩ := bind_eq_ok.mp generated
  obtain ⟨imported, imports, generated⟩ := bind_eq_ok.mp generated
  obtain ⟨declarations, declared, generated⟩ := bind_eq_ok.mp generated
  obtain ⟨classes, made, generated⟩ := bind_eq_ok.mp generated
  rw [generateMessages_result, mapM_eq_ok] at made
  rw [Traced.result_pure, Except.ok.injEq] at generated
  subst generated
  exact ⟨identifier, declarations, classes, known, rfl, rfl, rfl, mapM_eq_ok.mp declared, made,
    imported, mapM_eq_ok.mp imports, rfl⟩

theorem generateUnit_eq_ok {file : Schema.File} {unit : CodeUnit}
    (generated : (generateUnit index runtime file).result = .ok unit) :
    ∃ identifier declarations classes, index.unit file.name file.name = .ok identifier ∧
      unit.name = identifier.fullName ∧ unit.types = unitTypes declarations classes ∧
      List.Forall₂ (fun enumType declaration => enumDeclaration enumType = .ok declaration)
        file.enums declarations ∧
      List.Forall₂ (fun message result => (generateMessage ⟨index, runtime, identifier.fullName⟩
        ⟨file.scope, none⟩ message).result = .ok result) file.messages classes := by
  obtain ⟨identifier, declarations, classes, parts⟩ := generateUnit_parts generated
  exact ⟨identifier, declarations, classes, parts.known, parts.name, parts.types, parts.declared,
    parts.made⟩

theorem unitNames_names {file : Schema.File} {unit : CodeUnit}
    (generated : (generateUnit index runtime file).result = .ok unit) :
    (unitNames index runtime file).names = typeNames unit.types := by
  simp only [unitNames, generated]

/-- In a unit that has the first segment of the path of a declared type, the path leads to the
type. -/
theorem leads_in_unit {file : Schema.File} {site : Site} {first fullName : String}
    {rest : List String}
    (declares : Declares file.scope file.enums file.messages site (first :: rest) fullName)
    (has : (unitNames index runtime file).names.Has first) :
    Leads (unitNames index runtime file).names (first :: rest) site := by
  cases result : (generateUnit index runtime file).result with
  | error error =>
    have empty : (unitNames index runtime file).names = [] := by simp only [unitNames, result]
    rw [empty] at has
    exact absurd rfl has
  | ok unit =>
    obtain ⟨_, declarations, classes, -, -, types, declared, made⟩ := generateUnit_eq_ok result
    have leads := leads_of_declares declares declared made []
    rw [List.append_nil] at leads
    rwa [unitNames_names result, types, typeNames_unitTypes]

/-- No segment of the path of a declared type ends the name of a unit. -/
theorem longestUnit_path {scope fullName : String} {enums : List Schema.EnumType}
    {messages : List MessageType} {site : Site} {path : List String}
    (declares : Declares scope enums messages site path fullName) (front : List String) :
    longestUnit (unitsOf index runtime files) front path = none := by
  refine longestUnit_eq_none (fun segment inside unit unit_inside last isLast same => ?_) front
  obtain ⟨name, named⟩ := declares.segments segment inside
  obtain ⟨file, -, rfl⟩ := List.mem_map.mp unit_inside
  cases identified : UnitIdentifier.ofFile file with
  | error error =>
    have empty : (unitNames index runtime file).path = [] := by simp only [unitNames, identified]
    rw [empty] at isLast
    cases isLast
  | ok identifier =>
    rw [unitNames_path identified, UnitIdentifier.path, List.getLast?_concat] at isLast
    cases isLast
    have ofType := typeIdentifier_head named
    rw [← same, unitName_head identified] at ofType
    exact absurd ofType (by decide)

/-- Two units have one name exactly if their paths are the same. -/
theorem fullName_eq_iff {file other : Schema.File} {identifier otherIdentifier : UnitIdentifier}
    (named : UnitIdentifier.ofFile file = .ok identifier)
    (other_named : UnitIdentifier.ofFile other = .ok otherIdentifier) :
    identifier.fullName = otherIdentifier.fullName ↔ identifier.path = otherIdentifier.path := by
  refine ⟨fun same => ?_, fun same => congrArg (Text.join ".") same⟩
  have pieces := congrArg (Text.pieces '.') same
  rwa [UnitIdentifier.fullName_eq, UnitIdentifier.fullName_eq,
    Text.pieces_join identifier.path_ne_nil (undotted_of_ofFile named),
    Text.pieces_join otherIdentifier.path_ne_nil (undotted_of_ofFile other_named)] at pieces

/-- A field refers to its type by the reference of what the index knows under the name of the
type. -/
theorem publicType_of_make {context : Context} {className messageName : String}
    {membership : Option Membership} {names : FieldNames} {field : Schema.Field} {plan : FieldPlan}
    (made : FieldPlan.make context className messageName membership names field = .ok plan)
    {kind : Schema.TypeKind} {typeName : String} (typed : field.type = .reference kind typeName) :
    ∃ resolved, (typeName, resolved) ∈ context.index.types ∧
      plan.support.publicType = resolved.referenceFrom context.unit := by
  rw [FieldPlan.make, typed] at made
  obtain ⟨reference, found, made⟩ := bind_eq_ok.mp made
  obtain ⟨support, supported, made⟩ := bind_eq_ok.mp made
  rw [pure_eq_ok] at made
  subst made
  obtain ⟨resolved, known, found⟩ := bind_eq_ok.mp found
  refine ⟨resolved, mem_of_lastUnder (resolve_eq_ok.mp known), ?_⟩
  split at found
  · cases found
  · rw [pure_eq_ok] at found
    subst found
    cases supported
    cases kind <;> rfl

theorem publicType_eq {context : Context} {className fullName : String} {scope : Scope}
    {message : MessageType} {plan : ClassPlan}
    (made : ClassPlan.make context className fullName scope message = .ok plan)
    {field : FieldPlan} (inside : field ∈ plan.fields) {kind : Schema.TypeKind} {typeName : String}
    (typed : field.field.type = .reference kind typeName) :
    ∃ resolved, (typeName, resolved) ∈ context.index.types ∧
      field.support.publicType = resolved.referenceFrom context.unit := by
  exact publicType_of_make ((make_fields made).1 field inside) typed

section

variable {own target : Nat} {file targetFile : Schema.File}
  {identifier targetIdentifier : UnitIdentifier} (here : files[own]? = some file)
  (there : files[target]? = some targetFile) (named : UnitIdentifier.ofFile file = .ok identifier)
  {typeName first : String} {rest : List String} {resolved : ResolvedType} {targetSite : Site}
  (indexed : Indexes targetFile typeName resolved targetIdentifier targetSite (first :: rest))
  (site : Site)

include here there named indexed

/-- A type of the unit itself, or of one of the same name, is referred to by its path alone. -/
theorem resolve_own_reference_iff (same : targetIdentifier.path = identifier.path) :
    resolve (unitsOf index runtime files) own site
        (Text.pieces '.' (resolved.referenceFrom identifier.fullName)) =
          some (target :: targetSite) ↔
      Reaches (unitsOf index runtime files) own site target (first :: rest) := by
  have declares := indexed.declares
  have unit := unitsOf_getElem? index runtime here
  have targetUnit := unitsOf_getElem? index runtime there
  have sameUnit := fullName_eq_iff indexed.named named
  rw [ResolvedType.referenceFrom, indexed.unit, if_pos (sameUnit.mpr same), indexed.localName,
    Text.pieces_join (List.cons_ne_nil _ _) declares.undotted,
    resolve_local_iff unit declares.length_eq (fun again has => ?_)
      (longestUnit_path declares [])]
  · constructor
    · rintro ⟨rfl, uncaptured, once⟩
      exact .within unit uncaptured once
    · intro reaches
      cases reaches with
      | within here' uncaptured once =>
        cases Option.some.inj (unit.symm.trans here')
        exact ⟨rfl, uncaptured, once⟩
      | across here' there' different _ _ _ _ _ =>
        cases Option.some.inj (unit.symm.trans here')
        cases Option.some.inj (targetUnit.symm.trans there')
        rw [unitNames_path named, unitNames_path indexed.named] at different
        exact absurd same different
  · subst again
    cases Option.some.inj (here.symm.trans there)
    exact leads_in_unit declares has

/-- A type of another unit is referred to by its path behind the name of the unit. -/
theorem resolve_qualified_reference_iff (different : targetIdentifier.path ≠ identifier.path) :
    resolve (unitsOf index runtime files) own site
        (Text.pieces '.' (resolved.referenceFrom identifier.fullName)) =
          some (target :: targetSite) ↔
      Reaches (unitsOf index runtime files) own site target (first :: rest) := by
  have declares := indexed.declares
  have unit := unitsOf_getElem? index runtime here
  have targetUnit := unitsOf_getElem? index runtime there
  have sameUnit := fullName_eq_iff indexed.named named
  obtain ⟨head, segments, split⟩ := List.exists_cons_of_ne_nil targetIdentifier.path_ne_nil
  have pathOf : (unitNames index runtime targetFile).path = head :: segments :=
    (unitNames_path indexed.named).trans split
  have spelled : resolved.referenceFrom identifier.fullName =
      Text.join "." (targetIdentifier.path ++ first :: rest) := by
    rw [ResolvedType.referenceFrom, indexed.unit, if_neg (mt sameUnit.mp different),
      indexed.localName, Text.join_append targetIdentifier.path_ne_nil (List.cons_ne_nil _ _)]
    rfl
  have all_undotted : ∀ segment ∈ targetIdentifier.path ++ first :: rest,
      Text.Undotted segment := fun segment inside =>
    (List.mem_append.mp inside).elim (undotted_of_ofFile indexed.named segment)
      (declares.undotted segment)
  rw [spelled, Text.pieces_join (by simp) all_undotted, split,
    resolve_foreign_iff unit targetUnit pathOf declares.length_eq (leads_in_unit declares)
      (longestUnit_path declares _)]
  constructor
  · rintro ⟨uncaptured, free, only, once⟩
    refine .across unit targetUnit ?_ pathOf uncaptured free only once
    rwa [unitNames_path named, unitNames_path indexed.named]
  · intro reaches
    cases reaches with
    | within =>
      -- One position is one file, and one file has one unit name.
      cases Option.some.inj (here.symm.trans there)
      cases Except.ok.inj (named.symm.trans indexed.named)
      exact absurd rfl different
    | across here' there' _ named' uncaptured free only once =>
      cases Option.some.inj (unit.symm.trans here')
      cases Option.some.inj (targetUnit.symm.trans there')
      rw [pathOf, List.cons.injEq] at named'
      exact ⟨named'.1 ▸ uncaptured, named'.1 ▸ free, only, once⟩

end

/-- **A reference stands for the type to which its path leads exactly if it reaches it.** -/
theorem resolve_reference_iff {own target : Nat} {file targetFile : Schema.File}
    {identifier targetIdentifier : UnitIdentifier} (here : files[own]? = some file)
    (there : files[target]? = some targetFile)
    (named : UnitIdentifier.ofFile file = .ok identifier) {typeName : String}
    {resolved : ResolvedType} {targetSite : Site} {path : List String}
    (indexed : Indexes targetFile typeName resolved targetIdentifier targetSite path)
    (site : Site) :
    resolve (unitsOf index runtime files) own site
        (Text.pieces '.' (resolved.referenceFrom identifier.fullName)) =
          some (target :: targetSite) ↔
      Reaches (unitsOf index runtime files) own site target path := by
  obtain ⟨first, rest, rfl⟩ := List.exists_cons_of_ne_nil indexed.declares.path_ne_nil
  by_cases same : targetIdentifier.path = identifier.path
  · exact resolve_own_reference_iff here there named indexed site same
  · exact resolve_qualified_reference_iff here there named indexed site same

/-- The unit of a file bears the name of the file, if no other file has it. -/
theorem ofFile_of_unit (built : TypeIndex.build files = .ok index)
    (distinct : (files.map Schema.File.name).Nodup) {file : Schema.File} (inside : file ∈ files)
    {identifier : UnitIdentifier} {referencedBy : String}
    (known : index.unit file.name referencedBy = .ok identifier) :
    UnitIdentifier.ofFile file = .ok identifier := by
  have entry := mem_of_lastUnder (unit_eq_ok.mp known)
  obtain ⟨other, other_inside, same, named⟩ := (build_indexes built).1 _ entry
  cases List.inj_on_of_nodup_map distinct inside other_inside same
  exact named

end

/-- **When a reference stands for the type of its field.** In every class of a generated unit the
reference of a field stands for the type that bears the name of the type of the field exactly if it
reaches this type from the class. -/
theorem reference_denotes_type_iff {files : List Schema.File} {index : TypeIndex}
    {runtime : Runtime} (built : TypeIndex.build files = .ok index)
    (distinctFiles : (files.map Schema.File.name).Nodup) (distinctTypes : DistinctTypes files)
    {own : Nat} {file : Schema.File} (here : files[own]? = some file) {unit : CodeUnit}
    (generated : (generateUnit index runtime file).result = .ok unit) {site : Site} {place : Place}
    {message : MessageType}
    (holds : HoldsMessage ⟨file.scope, none⟩ file.enums file.messages site place message) :
    ∃ parts, classParts ⟨index, runtime, unit.name⟩ place message = .ok parts ∧
      ((typeNames unit.types).enclosing [own] site).head? =
        some (own :: site, memberNames parts.members) ∧
      parts.plan.fields.map FieldPlan.field = message.fields ∧
      ∀ field ∈ parts.plan.fields, ∀ kind typeName,
        field.field.type = .reference kind typeName →
        ∃ target targetSite path, DeclaredAt files target targetSite path typeName ∧
          (∀ target' site' path', DeclaredAt files target' site' path' typeName →
            target' = target ∧ site' = targetSite) ∧
          (resolve (unitsOf index runtime files) own site
              (Text.pieces '.' field.support.publicType) = some (target :: targetSite) ↔
            Reaches (unitsOf index runtime files) own site target path) := by
  obtain ⟨identifier, declarations, classes, known, unit_name, types, declared, made⟩ :=
    generateUnit_eq_ok generated
  have named := ofFile_of_unit built distinctFiles (List.mem_of_getElem? here) known
  obtain ⟨parts, planned, first⟩ := class_of_holdsMessage holds declared made
  rw [unit_name]
  refine ⟨parts, planned, ?_, (classParts_eq_ok.mp planned).covers.fields_eq, ?_⟩
  · have around := first [] [own]
    rwa [List.append_nil, ← typeNames_unitTypes, ← types] at around
  · intro field inside kind typeName typed
    obtain ⟨resolved, entry, reference⟩ :=
      publicType_eq (classParts_eq_ok.mp planned).planned inside typed
    obtain ⟨targetFile, target_inside, targetIdentifier, targetSite, path, indexed⟩ :=
      (build_indexes built).2 _ entry
    obtain ⟨target, there⟩ := List.mem_iff_getElem?.mp target_inside
    have declaredAt : DeclaredAt files target targetSite path typeName :=
      ⟨targetFile, there, indexed.declares⟩
    refine ⟨target, targetSite, path, declaredAt, fun target' site' path' other =>
      distinctTypes _ _ _ _ _ _ _ other declaredAt, ?_⟩
    rw [reference]
    exact resolve_reference_iff here there named indexed site

/-! ### A nested type that captures a reference -/

/-- A message with a nested type that has the name of one outside, and fields of both types. -/
def capturingMessage : MessageType :=
  { name := "Bar"
    fields :=
      [{ name := "x", number := 1, type := .reference .message ".Foo" },
       { name := "y", number := 2, type := .reference .message ".Bar.Foo" }]
    nestedMessages := [{ name := "Foo" }] }

/-- The file of the message. -/
def capturingFile : Schema.File :=
  { name := "sample.proto", messages := [{ name := "Foo" }, capturingMessage] }

/-- The index of the file. -/
def capturingIndex : TypeIndex :=
  { units := [("sample.proto", ⟨[], "uSample"⟩)]
    types :=
      [(".Foo", ⟨.message, "uSample", "TFoo"⟩), (".Bar.Foo", ⟨.message, "uSample", "TBar.TFoo"⟩),
       (".Bar", ⟨.message, "uSample", "TBar"⟩)] }

/-- The units of the file. -/
def capturingUnits : List UnitNames :=
  unitsOf capturingIndex .reference [capturingFile]

/-- What the only file of a list declares stands at the first position. -/
theorem DeclaredAt.of_singleton {file : Schema.File} {position : Nat} {site : Site}
    {path : List String} {fullName : String}
    (declared : DeclaredAt [file] position site path fullName) :
    position = 0 ∧ Declares file.scope file.enums file.messages site path fullName := by
  obtain ⟨other, found, declares⟩ := declared
  cases position with
  | zero =>
    cases found
    exact ⟨rfl, declares⟩
  | succ position => cases found

theorem not_declares_nil {scope fullName : String} {site : Site} {path : List String} :
    ¬ Declares scope [] [] site path fullName := by
  intro declares
  cases declares with
  | enumeration found | message found | nested found => cases found

theorem typeIdentifier_foo : typeIdentifier "Foo" = .ok "TFoo" := by decide +kernel

theorem typeIdentifier_bar : typeIdentifier "Bar" = .ok "TBar" := by decide +kernel

/-- The types that the file declares, with their sites and paths. -/
def capturingTypes : List (Nat × Site × List String × String) :=
  [(0, [0], ["TFoo"], ".Foo"), (0, [1], ["TBar"], ".Bar"),
   (0, [1, 0], ["TBar", "TFoo"], ".Bar.Foo")]

theorem capturingFile_declares {position : Nat} {site : Site} {path : List String}
    {fullName : String} (declared : DeclaredAt [capturingFile] position site path fullName) :
    (position, site, path, fullName) ∈ capturingTypes := by
  obtain ⟨rfl, declares⟩ := declared.of_singleton
  cases declares with
  | enumeration found => cases found
  | @message _ _ _ position message _ found named =>
    rcases position with _ | _ | position
    · cases found
      cases Except.ok.inj (typeIdentifier_foo.symm.trans named)
      decide
    · cases found
      cases Except.ok.inj (typeIdentifier_bar.symm.trans named)
      decide
    · cases found
  | @nested _ _ _ _ position message _ _ _ found named deeper =>
    rcases position with _ | _ | position
    · cases found
      exact absurd deeper not_declares_nil
    · cases found
      cases Except.ok.inj (typeIdentifier_bar.symm.trans named)
      cases deeper with
      | enumeration found => cases found
      | @message _ _ _ position message _ found named =>
        cases position with
        | zero =>
          cases found
          cases Except.ok.inj (typeIdentifier_foo.symm.trans named)
          decide
        | succ position => cases found
      | @nested _ _ _ _ position message _ _ _ found _ deeper =>
        cases position with
        | zero =>
          cases found
          exact absurd deeper not_declares_nil
        | succ position => cases found
    · cases found

/-- No two types of the file have one full name. -/
theorem capturingTypes_unique : ∀ entry ∈ capturingTypes, ∀ entry' ∈ capturingTypes,
    entry.2.2.2 = entry'.2.2.2 → entry = entry' := by
  decide

theorem capturingFile_distinctTypes : DistinctTypes [capturingFile] := by
  intro fullName position site path position' site' path' declared declared'
  have same := capturingTypes_unique _ (capturingFile_declares declared) _
    (capturingFile_declares declared') rfl
  rw [Prod.mk.injEq, Prod.mk.injEq] at same
  exact ⟨same.1, same.2.1⟩

/-- What other units know of the unit of the file. -/
def capturingNames (unit : CodeUnit) : UnitNames :=
  ⟨["uSample"], typeNames unit.types⟩

/-- The unit of the file is generated. In the class of the message the name of the type outside
stands for the nested type, and the name of the class stands for the class. -/
theorem capturingFile_generated :
    ∃ unit, (generateUnit capturingIndex .reference capturingFile).result = .ok unit ∧
      unit.name = "uSample" ∧ Uncaptured (capturingNames unit) 0 [1] "TBar" ∧
      (capturingNames unit).names.HasOnce "TBar" ∧
      resolve [capturingNames unit] 0 [1] ["TFoo"] = some [0, 1, 0] := by
  have evaluated : (do
      let unit ← (generateUnit capturingIndex .reference capturingFile).result
      return (unit.name, decide (Uncaptured (capturingNames unit) 0 [1] "TBar"),
        decide ((capturingNames unit).names.HasOnce "TBar"),
        resolve [capturingNames unit] 0 [1] ["TFoo"])) =
          .ok ("uSample", true, true, some [0, 1, 0]) := by
    decide +kernel
  obtain ⟨unit, generated, facts⟩ := bind_eq_ok.mp evaluated
  rw [pure_eq_ok, Prod.mk.injEq, Prod.mk.injEq, Prod.mk.injEq, decide_eq_true_iff,
    decide_eq_true_iff] at facts
  exact ⟨unit, generated, facts⟩

theorem capturingFile_built : TypeIndex.build [capturingFile] = .ok capturingIndex := by
  decide +kernel

theorem capturingUnits_eq {unit : CodeUnit}
    (generated : (generateUnit capturingIndex .reference capturingFile).result = .ok unit) :
    capturingUnits = [capturingNames unit] := by
  have named : UnitIdentifier.ofFile capturingFile = .ok ⟨[], "uSample"⟩ := by decide +kernel
  simp only [capturingUnits, unitsOf, List.map_cons, List.map_nil, unitNames, generated, named,
    capturingNames]
  rfl

theorem capturingIndex_reference : ∀ entry ∈ capturingIndex.types, entry.1 = ".Foo" →
    entry.2.referenceFrom "uSample" = "TFoo" := by
  decide +kernel

/-- In the class of the message the reference to the nested type reaches it, and stands for it. That
to the type outside does not, and stands for the nested type too. -/
theorem capturing_references :
    ∃ parts, classParts ⟨capturingIndex, .reference, "uSample"⟩ ⟨"", none⟩ capturingMessage =
      .ok parts ∧ ∃ x y, parts.plan.fields = [x, y] ∧
        x.field.type = .reference .message ".Foo" ∧
        y.field.type = .reference .message ".Bar.Foo" ∧
        ¬ Reaches capturingUnits 0 [1] 0 ["TFoo"] ∧
        resolve capturingUnits 0 [1] (Text.pieces '.' x.support.publicType) = some [0, 1, 0] ∧
        Reaches capturingUnits 0 [1] 0 ["TBar", "TFoo"] ∧
        resolve capturingUnits 0 [1] (Text.pieces '.' y.support.publicType) = some [0, 1, 0] := by
  obtain ⟨unit, generated, unit_name, uncaptured, once, captured⟩ := capturingFile_generated
  have here : [capturingFile][0]? = some capturingFile := rfl
  have atBar : capturingFile.messages[1]? = some capturingMessage := rfl
  obtain ⟨parts, made, -, fields, denotes⟩ := reference_denotes_type_iff capturingFile_built
    (List.nodup_singleton _) capturingFile_distinctTypes here generated (.here atBar)
  rw [unit_name] at made
  obtain ⟨x, rest, split, xField, restFields⟩ := List.map_eq_cons_iff.mp fields
  obtain ⟨y, none, rfl, yField, noneFields⟩ := List.map_eq_cons_iff.mp restFields
  obtain rfl := List.map_eq_nil_iff.mp noneFields
  have xInside : x ∈ parts.plan.fields := by
    rw [split]
    exact List.mem_cons_self ..
  have yInside : y ∈ parts.plan.fields := by
    rw [split]
    exact List.mem_cons_of_mem _ (List.mem_cons_self ..)
  have xTyped : x.field.type = .reference .message ".Foo" := by rw [xField]
  have yTyped : y.field.type = .reference .message ".Bar.Foo" := by rw [yField]
  -- The reference to the type outside is evaluated, and is not where the type is.
  obtain ⟨resolved, entry, xReference⟩ :=
    publicType_eq (classParts_eq_ok.mp made).planned xInside xTyped
  have spelled : x.support.publicType = "TFoo" :=
    xReference.trans (capturingIndex_reference _ entry rfl)
  have xResolved : resolve capturingUnits 0 [1] (Text.pieces '.' x.support.publicType) =
      some [0, 1, 0] := by
    rw [capturingUnits_eq generated, spelled]
    exact captured
  have xUnreached : ¬ Reaches capturingUnits 0 [1] 0 ["TFoo"] := by
    intro reaches
    obtain ⟨target, targetSite, path, declared, -, iff⟩ := denotes x xInside _ _ xTyped
    cases capturingTypes_unique _ (capturingFile_declares declared)
      (0, [0], ["TFoo"], ".Foo") (by decide) rfl
    have wrong := xResolved.symm.trans (iff.mpr reaches)
    exact absurd wrong (by decide)
  have yReaches : Reaches capturingUnits 0 [1] 0 ["TBar", "TFoo"] := by
    rw [capturingUnits_eq generated]
    exact .within rfl uncaptured once
  have yResolved : resolve capturingUnits 0 [1] (Text.pieces '.' y.support.publicType) =
      some [0, 1, 0] := by
    obtain ⟨target, targetSite, path, declared, -, iff⟩ := denotes y yInside _ _ yTyped
    cases capturingTypes_unique _ (capturingFile_declares declared)
      (0, [1, 0], ["TBar", "TFoo"], ".Bar.Foo") (by decide) rfl
    exact iff.mpr yReaches
  exact ⟨parts, made, x, y, split, xTyped, yTyped, xUnreached, xResolved, yReaches, yResolved⟩

/-- **A nested type captures a reference.** Two types of one file are known by references of which
the shorter one stands for the type of the longer one in the class of the message. -/
theorem nested_type_captures_reference :
    DeclaredAt [capturingFile] 0 [0] ["TFoo"] ".Foo" ∧
    DeclaredAt [capturingFile] 0 [1, 0] ["TBar", "TFoo"] ".Bar.Foo" ∧
    (∃ resolved, capturingIndex.resolve ".Foo" ".Bar.x" = .ok resolved ∧
      resolve capturingUnits 0 [1] (Text.pieces '.' (resolved.referenceFrom "uSample")) =
        some [0, 1, 0]) := by
  refine ⟨⟨capturingFile, rfl, ?_⟩, ⟨capturingFile, rfl, ?_⟩, ?_⟩
  · have found : capturingFile.messages[0]? = some { name := "Foo" } := rfl
    exact .message found typeIdentifier_foo
  · have outer : capturingFile.messages[1]? = some capturingMessage := rfl
    have inner : capturingMessage.nestedMessages[0]? = some { name := "Foo" } := rfl
    exact .nested outer typeIdentifier_bar (.message inner typeIdentifier_foo)
  · obtain ⟨unit, generated, -, -, -, captured⟩ := capturingFile_generated
    refine ⟨⟨.message, "uSample", "TFoo"⟩, by decide +kernel, ?_⟩
    rw [capturingUnits_eq generated]
    exact captured

end ProtoPascal
