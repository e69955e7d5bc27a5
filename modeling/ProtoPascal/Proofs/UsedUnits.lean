import ProtoPascal.Proofs.TypeReferences

/-!
The units that a generated unit uses. They are added one by one, and a unit that is listed is not
listed again, so the list holds the first occurrences of all units that are added.

* `addUnits_eraseDups`: adding units to a list without repetitions;
* `generatedMessage_uses`: the units of a class, those of the nested classes first;
* `generatedUnit_uses`: the units of a unit.
-/

namespace ProtoPascal

open Message
open Schema (Field FieldType MessageType)

/-! ### First occurrences -/

section

variable {α : Type} [BEq α] [LawfulBEq α]

/-- What is kept of the first occurrences are the first occurrences of what is kept. -/
theorem filter_eraseDups (keep : α → Bool) (items : List α) :
    items.eraseDups.filter keep = (items.filter keep).eraseDups := by
  match items with
  | [] => rfl
  | item :: rest =>
    rw [List.eraseDups_cons, List.filter_cons, List.filter_cons, filter_eraseDups]
    split
    · next kept =>
      rw [List.eraseDups_cons, List.filter_filter, List.filter_filter]
      simp only [Bool.and_comm]
    · next dropped =>
      -- The first item is not kept, so its copies are not kept either.
      have same : (rest.filter fun other => !other == item).filter keep = rest.filter keep := by
        rw [List.filter_filter]
        refine List.filter_congr fun other _ => ?_
        by_cases equal : other = item
        · simp [equal, dropped]
        · simp [equal]
      rw [same]
termination_by items.length
decreasing_by exact Nat.lt_succ_of_le (List.length_filter_le _ _)

theorem eraseDups_of_nodup {items : List α} (different : items.Nodup) : items.eraseDups = items := by
  induction items with
  | nil => rfl
  | cons item rest ih =>
    rw [List.nodup_cons] at different
    have kept : rest.filter (fun other => !other == item) = rest := by
      refine List.filter_eq_self.mpr fun other inside => ?_
      simpa using fun same : other = item => different.1 (same ▸ inside)
    rw [List.eraseDups_cons, kept, ih different.2]

/-- The first occurrences in a list depend on those in its parts. -/
theorem eraseDups_append_congr {left left' right right' : List α}
    (lefts : left.eraseDups = left'.eraseDups) (rights : right.eraseDups = right'.eraseDups) :
    (left ++ right).eraseDups = (left' ++ right').eraseDups := by
  have mem_iff (item : α) : item ∈ left ↔ item ∈ left' := by
    rw [← List.mem_eraseDups, lefts, List.mem_eraseDups]
  have same : (fun item : α => !left.elem item) = fun item => !left'.elem item := by
    funext item
    rw [Bool.eq_iff_iff]
    simp [mem_iff]
  rw [List.eraseDups_append, List.eraseDups_append, lefts, List.removeAll, List.removeAll,
    ← filter_eraseDups, ← filter_eraseDups, rights, same]

end

/-! ### Adding units -/

theorem addUnit_nodup {uses : List String} (different : uses.Nodup) (unit : String) :
    (addUnit uses unit).Nodup := by
  unfold addUnit
  split
  · exact different
  · next missing =>
    rw [List.nodup_append]
    refine ⟨different, List.nodup_singleton _, fun listed inside added same => ?_⟩
    rintro rfl
    exact missing (List.contains_iff_mem.mpr (List.mem_singleton.mp same ▸ inside))

theorem addUnits_nodup {uses : List String} (different : uses.Nodup) (units : List String) :
    (addUnits uses units).Nodup := by
  induction units generalizing uses with
  | nil => exact different
  | cons unit rest ih => exact ih (addUnit_nodup different unit)

/-- **Units are added to the first occurrences of others** by adding them and keeping the first
occurrences of all. -/
theorem addUnits_eraseDups (listed units : List String) :
    addUnits listed.eraseDups units = (listed ++ units).eraseDups := by
  induction units generalizing listed with
  | nil => rw [List.append_nil]; rfl
  | cons unit rest ih =>
    have one : addUnit listed.eraseDups unit = (listed ++ [unit]).eraseDups := by
      rw [addUnit, List.eraseDups_append, List.removeAll]
      by_cases inside : unit ∈ listed <;> simp [inside, List.eraseDups_cons]
    rw [addUnits, List.foldl_cons, one, ← addUnits, ih, List.append_assoc, List.singleton_append]

theorem addUnits_nil (units : List String) : addUnits [] units = units.eraseDups :=
  addUnits_eraseDups [] units

theorem units_nodup (units : List String) : units.eraseDups.Nodup := by
  rw [← addUnits_nil]
  exact addUnits_nodup List.nodup_nil units

/-! ### The units of fields, messages and files -/

/-- The units of the runtime library for a type of field. -/
def typeUnits (runtime : Runtime) : FieldType → List String
  | .scalar .bytes => ["SysUtils", runtime.unit "uProtobufBytes"]
  | .scalar type => [runtime.unit ("uProtobuf" ++ codecName type)]
  | .reference .enumeration _ => [runtime.enumUnit]
  | .reference .message _ => [runtime.messageUnit]

/-- The unit of the runtime library for the label of a field. -/
def labelUnits (runtime : Runtime) (field : Field) : List String :=
  if field.repeated then [runtime.repeatedFieldUnit] else []

/-- The unit that declares the type that a field refers to, if it is another one. -/
def declaringUnits (index : TypeIndex) (unit : String) : FieldType → List String
  | .scalar _ => []
  | .reference _ typeName => foreignUnit unit (lastUnder typeName index.types)

/-- The units that a field needs. -/
def fieldUnits (index : TypeIndex) (runtime : Runtime) (unit : String) (field : Field) :
    List String :=
  typeUnits runtime field.type ++ labelUnits runtime field ++ declaringUnits index unit field.type

mutual

/-- The fields of a message, those of the messages in it first. -/
def fieldsWithin : MessageType → List Field
  | ⟨_, fields, _, nestedMessages, _⟩ => allFields nestedMessages ++ fields

/-- The fields of a list of messages and of the messages in them. -/
def allFields : List MessageType → List Field
  | [] => []
  | message :: rest => fieldsWithin message ++ allFields rest

end

/-- The units of the files on which a file depends, as far as the index knows them. -/
def dependencyUnits (index : TypeIndex) (file : Schema.File) : List String :=
  file.dependencies.filterMap fun dependency =>
    (lastUnder dependency index.units).map UnitIdentifier.fullName

/-- All units that a file needs, in the order in which they are met. -/
def fileUnits (index : TypeIndex) (runtime : Runtime) (unit : String) (file : Schema.File) :
    List String :=
  runtime.baseUnits ++ dependencyUnits index file
    ++ (allFields file.messages).flatMap (fieldUnits index runtime unit)

theorem allFields_eq (messages : List MessageType) :
    allFields messages = messages.flatMap fieldsWithin := by
  induction messages with
  | nil => rfl
  | cons message rest ih => rw [allFields, ih, List.flatMap_cons]

theorem fieldsWithin_eq (message : MessageType) :
    fieldsWithin message = message.nestedMessages.flatMap fieldsWithin ++ message.fields := by
  cases message
  rw [fieldsWithin, allFields_eq]

/-! ### Fields -/

theorem units_scalarSupport (runtime : Runtime) (type : Schema.ScalarType) (field : Field) :
    (runtime.scalarSupport type).units field.repeated =
      typeUnits runtime (.scalar type) ++ labelUnits runtime field := by
  unfold labelUnits TypeSupport.units
  cases field.repeated <;> cases type <;> rfl

theorem units_referenceSupport (runtime : Runtime) (kind : Schema.TypeKind)
    (typeName reference : String) (field : Field) :
    (runtime.referenceSupport kind reference).units field.repeated =
      typeUnits runtime (.reference kind typeName) ++ labelUnits runtime field := by
  unfold labelUnits TypeSupport.units
  cases field.repeated <;> cases kind <;> rfl

/-- What the runtime library has for a type of field in a unit. The index knows a declared type under its
name and with its kind. -/
inductive SupportedIn (context : Context) : FieldType → TypeSupport → Prop
  | scalar (type : Schema.ScalarType) :
    SupportedIn context (.scalar type) (context.runtime.scalarSupport type)
  | declared {typeName : String} {resolved : ResolvedType}
    (known : lastUnder typeName context.index.types = some resolved) :
    SupportedIn context (.reference resolved.kind typeName)
      (context.runtime.referenceSupport resolved.kind (resolved.referenceFrom context.unit))

/-- **A field has the support for its type and needs its units.** -/
theorem fieldPlan_units {context : Context} {className messageName : String}
    {membership : Option Membership} {names : FieldNames} {field : Field} {plan : FieldPlan}
    (made : FieldPlan.make context className messageName membership names field = .ok plan) :
    SupportedIn context field.type plan.support ∧
      plan.units = fieldUnits context.index context.runtime context.unit field := by
  unfold FieldPlan.make at made
  obtain ⟨reference, found, made⟩ := bind_eq_ok.mp made
  obtain ⟨support, supported, made⟩ := bind_eq_ok.mp made
  rw [pure_eq_ok] at made
  subst made
  unfold fieldUnits
  cases typed : field.type with
  | scalar type =>
    rw [typed] at found supported
    cases found
    cases supported
    refine ⟨.scalar type, ?_⟩
    rw [units_scalarSupport]
    rfl
  | reference kind typeName =>
    rw [typed] at found supported
    obtain ⟨resolved, known, found⟩ := bind_eq_ok.mp found
    rw [resolve_eq_ok] at known
    split at found
    · cases found
    · next sameKind =>
      rw [pure_eq_ok] at found
      rw [not_not] at sameKind
      subst found sameKind
      cases supported
      refine ⟨.declared known, ?_⟩
      rw [units_referenceSupport _ _ typeName, declaringUnits, known]

/-! ### Classes -/

/-- **The fields of a class need their units**, in the order of the fields. -/
theorem classPlan_units {context : Context} {className fullName : String} {scope : Naming.Scope}
    {message : MessageType} {plan : ClassPlan}
    (made : ClassPlan.make context className fullName scope message = .ok plan) :
    plan.flatMapSlots FieldPlan.units (fun _ => []) =
      message.fields.flatMap (fieldUnits context.index context.runtime context.unit) := by
  have fields_eq := (make_covers made).fields_eq
  obtain ⟨each, slotted⟩ := make_fields made
  have sameLength : plan.fields.length = message.fields.length := by
    rw [← fields_eq, List.length_map]
  rw [flatMapSlots_fields slotted sameLength, ← fields_eq, List.flatMap_map]
  exact List.flatMap_congr fun field inside => (fieldPlan_units (each field inside)).2

/-- Classes need the units of their messages. -/
theorem generatedClasses_uses {ofField : Field → List String} {messages : List MessageType}
    {classes : List MessageClass}
    (each : List.Forall₂ (fun message generated =>
      generated.uses = ((fieldsWithin message).flatMap ofField).eraseDups) messages classes) :
    (classes.flatMap MessageClass.uses).eraseDups =
      ((messages.flatMap fieldsWithin).flatMap ofField).eraseDups := by
  induction each with
  | nil => rfl
  | cons first _ ih =>
    rw [List.flatMap_cons, List.flatMap_cons, List.flatMap_append]
    exact eraseDups_append_congr (by rw [first, eraseDups_of_nodup (units_nodup _)]) ih

/-- **A class needs the units of the fields of its message**, those of nested messages first, and each
once. -/
theorem generatedMessage_uses {context : Context} (message : MessageType) :
    ∀ (place : Place) (generated : MessageClass),
      (generateMessage context place message).result = .ok generated →
      generated.uses = ((fieldsWithin message).flatMap
        (fieldUnits context.index context.runtime context.unit)).eraseDups := by
  induction message using nested_induction with
  | step message ih =>
    intro place generated success
    obtain ⟨parts, found, -, rfl⟩ := generateMessage_eq_ok.mp success
    have of := classParts_eq_ok.mp found
    have nested := generatedClasses_uses (((List.forall₂_and_left _ _).mpr ⟨ih, of.nested⟩).imp
      fun _ _ known => known.1 _ _ known.2)
    show addUnits (addUnits [] (parts.nested.flatMap MessageClass.uses))
      (parts.plan.flatMapSlots FieldPlan.units fun _ => []) = _
    rw [addUnits_nil, nested, addUnits_eraseDups, classPlan_units of.planned, fieldsWithin_eq,
      List.flatMap_append]

/-! ### Units -/

/-- Names of units that are found under the names of files are those that the index knows, and it knows
all of them. -/
theorem eq_filterMap_of_found {index : TypeIndex} {referencedBy : String}
    {dependencies imported : List String}
    (found : List.Forall₂ (fun dependency name =>
      UnitIdentifier.fullName <$> index.unit dependency referencedBy = .ok name)
      dependencies imported) :
    imported = dependencies.filterMap (fun dependency =>
        (lastUnder dependency index.units).map UnitIdentifier.fullName) ∧
      ∀ dependency ∈ dependencies, ∃ identifier,
        lastUnder dependency index.units = some identifier := by
  induction found with
  | nil => exact ⟨rfl, by simp⟩
  | @cons dependency name _ _ known _ ih =>
    rw [map_eq_pure_bind] at known
    obtain ⟨identifier, isUnit, named⟩ := bind_eq_ok.mp known
    have listed := unit_eq_ok.mp isUnit
    rw [← pure_eq_ok.mp named, List.filterMap_cons, listed, ih.1, List.forall_mem_cons]
    exact ⟨rfl, ⟨identifier, listed⟩, ih.2⟩

/-- **A unit uses the first occurrences of the units that its file needs.** The index knows all files
on which the file depends. -/
theorem generatedUnit_uses {index : TypeIndex} {runtime : Runtime} {file : Schema.File}
    {unit : Pascal.CodeUnit} (generated : (generateUnit index runtime file).result = .ok unit) :
    unit.uses = (fileUnits index runtime unit.name file).eraseDups ∧
      ∀ dependency ∈ file.dependencies, ∃ identifier,
        lastUnder dependency index.units = some identifier := by
  obtain ⟨identifier, declarations, classes, parts⟩ := generateUnit_parts generated
  obtain ⟨imported, found, uses_eq⟩ := parts.uses
  obtain ⟨rfl, known⟩ := eq_filterMap_of_found found
  have classes_eq := generatedClasses_uses (parts.made.imp fun message generated success =>
    generatedMessage_uses message _ generated success)
  refine ⟨?_, known⟩
  rw [uses_eq, addUnits_nil, addUnits_eraseDups, addUnits_eraseDups, parts.name, fileUnits,
    allFields_eq]
  exact eraseDups_append_congr rfl classes_eq

end ProtoPascal
