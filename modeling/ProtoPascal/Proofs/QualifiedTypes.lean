import Mathlib.Data.List.DropRight
import ProtoPascal.Proofs.DeclarationOrder
import ProtoPascal.Proofs.Mentions
import ProtoPascal.Proofs.UsedUnits

/-!
Types that a unit writes with the name of another unit in front of them. A path of types has segments
that begin with the letter of types, and the name of a unit ends with a segment that begins with the
letter of units, so the unit can be read off the text of a type.

* `unitQualifier`: the unit in front of a type;
* `unitTexts`: the texts of all types in a unit;
* `fieldTypes_qualified`: a field writes no other unit in front of a type than the one it needs;
* `used_units_first_occurrences`: a unit uses the units that it needs, and each unit in front of a type
  once.
-/

namespace ProtoPascal

open Message Naming Pascal
open Schema (FieldType MessageType)

/-! ### Units in front of types -/

/-- The text of the elements of a collection, or the text itself. -/
def elementText (text : String) : String :=
  if '<' ∈ text.toList then
    String.ofList ((text.toList.dropWhile (· != '<')).tail.takeWhile (· != '>'))
  else text

/-- A segment of a path of types begins with their letter. -/
def isTypeSegment (segment : String) : Bool :=
  (Text.fold segment).toList.head? == some 't'

/-- The unit in front of a type. The last segment of the text is that of the type. -/
def unitQualifier (text : String) : Option String :=
  match (Text.pieces '.' (elementText text)).dropLast.rdropWhile isTypeSegment with
  | [] => none
  | segments => some (Text.join "." segments)

/-- A text without brackets. -/
def Unbracketed (text : String) : Prop :=
  '<' ∉ text.toList ∧ '>' ∉ text.toList

instance (text : String) : Decidable (Unbracketed text) :=
  inferInstanceAs (Decidable (_ ∧ _))

theorem elementText_of_unbracketed {text : String} (plain : Unbracketed text) :
    elementText text = text :=
  if_neg plain.1

theorem elementText_collection (kind : ValueKind) {element : String} (plain : Unbracketed element) :
    elementText (collectionType kind element) = element := by
  obtain ⟨name, free, opened⟩ : ∃ name : String, '<' ∉ name.toList ∧
      collectionType kind element = name ++ "<" ++ element ++ ">" := by
    cases kind
    case message => exact ⟨"TProtobufRepeatedMessageField", by decide +kernel, rfl⟩
    all_goals exact ⟨"TProtobufRepeatedField", by decide +kernel, rfl⟩
  have spelled : (collectionType kind element).toList =
      name.toList ++ '<' :: (element.toList ++ ['>']) := by
    rw [opened]
    simp
  have kept : ∀ character ∈ element.toList, (character != '>') = true := by
    intro character inside
    simpa using fun same : character = '>' => plain.2 (same ▸ inside)
  have skipped : ∀ character ∈ name.toList, (character != '<') = true := by
    intro character inside
    simpa using fun same : character = '<' => free (same ▸ inside)
  rw [elementText, spelled, if_pos (by simp), List.dropWhile_append_of_pos skipped,
    List.dropWhile_cons_of_neg (by simp), List.tail_cons, List.takeWhile_append_of_pos kept,
    List.takeWhile_cons_of_neg (by simp), List.append_nil, String.ofList_toList]

theorem unitQualifier_collection (kind : ValueKind) {element : String}
    (plain : Unbracketed element) :
    unitQualifier (collectionType kind element) = unitQualifier element := by
  rw [unitQualifier, unitQualifier, elementText_collection kind plain,
    elementText_of_unbracketed plain]

theorem unitQualifier_name {text : String} (plain : Unbracketed text) (undotted : Text.Undotted text) :
    unitQualifier text = none := by
  have single : Text.pieces '.' text = [text] :=
    Text.pieces_join (List.cons_ne_nil text []) (List.forall_mem_singleton.mpr undotted)
  rw [unitQualifier, elementText_of_unbracketed plain, single]
  rfl

/-! ### Paths of types -/

/-- All segments are identifiers of types. -/
def TypePath (path : List String) : Prop :=
  path ≠ [] ∧ ∀ segment ∈ path, ∃ name, typeIdentifier name = .ok segment

theorem isTypeSegment_of_typeIdentifier {name segment : String}
    (named : typeIdentifier name = .ok segment) : isTypeSegment segment = true :=
  beq_iff_eq.mpr (typeIdentifier_head named)

theorem isDivider_open : Text.IsDivider '<' :=
  ⟨by decide, ⟨by decide, by decide +kernel⟩, ⟨by decide, by decide +kernel⟩, by decide⟩

theorem isDivider_close : Text.IsDivider '>' :=
  ⟨by decide, ⟨by decide, by decide +kernel⟩, ⟨by decide, by decide +kernel⟩, by decide⟩

/-- An identifier has no brackets, if the fixed texts of its rule have none. -/
theorem unbracketed_of_generate {scope : Scope} {rule : Rule} {colliding : List Rule}
    {core identifier : String} (style : rule.style = .pascal) (lead : Unbracketed rule.lead)
    (trail : Unbracketed rule.trail) (mark : Unbracketed rule.retryMark)
    (generated : scope.generate rule colliding core = .ok identifier) : Unbracketed identifier :=
  ⟨notMem_of_generate isDivider_open style lead.1 trail.1 mark.1 generated,
   notMem_of_generate isDivider_close style lead.2 trail.2 mark.2 generated⟩

theorem unbracketed_join {segments : List String}
    (plain : ∀ segment ∈ segments, Unbracketed segment) : Unbracketed (Text.join "." segments) :=
  ⟨Text.notMem_join (by decide) fun segment inside => (plain segment inside).1,
   Text.notMem_join (by decide) fun segment inside => (plain segment inside).2⟩

section

variable {path : List String} (types : TypePath path)

include types

theorem TypePath.unbracketed : ∀ segment ∈ path, Unbracketed segment := by
  intro segment inside
  obtain ⟨name, named⟩ := types.2 segment inside
  exact unbracketed_of_generate rfl (by decide) (by decide) (by decide) named

theorem TypePath.undotted : ∀ segment ∈ path, Text.Undotted segment := by
  intro segment inside
  exact (types.2 segment inside).elim fun _ => undotted_of_typeIdentifier

theorem unitQualifier_path : unitQualifier (Text.join "." path) = none := by
  have dropped : path.dropLast.rdropWhile isTypeSegment = [] := by
    rw [List.rdropWhile_eq_nil_iff]
    intro segment inside
    obtain ⟨name, named⟩ := types.2 segment ((List.dropLast_sublist path).mem inside)
    exact isTypeSegment_of_typeIdentifier named
  rw [unitQualifier, elementText_of_unbracketed (unbracketed_join types.unbracketed),
    Text.pieces_join types.1 types.undotted, dropped]

theorem unitQualifier_qualified {file : Schema.File} {identifier : UnitIdentifier}
    (named : UnitIdentifier.ofFile file = .ok identifier) :
    Unbracketed (identifier.fullName ++ "." ++ Text.join "." path) ∧
      unitQualifier (identifier.fullName ++ "." ++ Text.join "." path) =
        some identifier.fullName := by
  have spelled : identifier.fullName ++ "." ++ Text.join "." path =
      Text.join "." (identifier.path ++ path) :=
    (Text.join_append identifier.path_ne_nil types.1).symm
  have plain : Unbracketed (Text.join "." (identifier.path ++ path)) := by
    refine unbracketed_join fun segment inside => ?_
    rcases List.mem_append.mp inside with ofUnit | ofType
    · exact ⟨notMem_of_ofFile isDivider_open (by decide) named segment ofUnit,
        notMem_of_ofFile isDivider_close (by decide) named segment ofUnit⟩
    · exact types.unbracketed segment ofType
  have undotted : ∀ segment ∈ identifier.path ++ path, Text.Undotted segment := by
    intro segment inside
    rcases List.mem_append.mp inside with ofUnit | ofType
    · exact undotted_of_ofFile named segment ofUnit
    · exact types.undotted segment ofType
  have dropped : (identifier.path ++ path.dropLast).rdropWhile isTypeSegment = identifier.path := by
    have all : ∀ segment ∈ path.dropLast.reverse, isTypeSegment segment = true := by
      intro segment inside
      obtain ⟨name, segment_named⟩ :=
        types.2 segment ((List.dropLast_sublist path).mem (List.mem_reverse.mp inside))
      exact isTypeSegment_of_typeIdentifier segment_named
    have unitSegment : ¬ isTypeSegment identifier.name = true := by
      rw [isTypeSegment, unitName_head named]
      decide
    rw [List.rdropWhile, List.reverse_append, List.dropWhile_append_of_pos all,
      UnitIdentifier.path, List.reverse_append, List.reverse_singleton, List.singleton_append,
      List.dropWhile_cons_of_neg unitSegment, List.reverse_cons, List.reverse_reverse]
  refine ⟨spelled ▸ plain, ?_⟩
  rw [unitQualifier, spelled, elementText_of_unbracketed plain,
    Text.pieces_join (by simp [types.1]) undotted, List.dropLast_append_of_ne_nil types.1, dropped]
  obtain ⟨first, rest, split⟩ := List.exists_cons_of_ne_nil identifier.path_ne_nil
  rw [UnitIdentifier.fullName_eq, split]

end

/-! ### The texts of types in a unit -/

namespace Pascal

/-- The type that is mentioned, if it is one. -/
def Mention.type? : Mention → Option String
  | .member _ => none
  | .type text => some text

/-- The texts of the types in the declaration of a method. -/
def Method.types (method : Method) : List String :=
  (Item.method method).types

mutual

/-- The texts of the types in the declaration of a type. -/
def TypeDeclaration.texts : TypeDeclaration → List String
  | .forwardClass _ => []
  | .enumType _ => []
  | .classType _ ancestor _ members => ancestor :: Member.allTexts members

/-- The texts of the types in a member. -/
def Member.texts : Member → List String
  | .item _ _ declared => declared.types
  | .nestedType _ _ declared => declared.texts

/-- The texts of the types in members. -/
def Member.allTexts : List Member → List String
  | [] => []
  | member :: rest => member.texts ++ Member.allTexts rest

end

/-- The texts of the types in the implementation of a method. -/
def Implementation.texts (implementation : Implementation Action Expr) : List String :=
  implementation.className :: (implementation.method.types
    ++ implementation.locals.map Parameter.typeName
    ++ implementation.mentions.filterMap Mention.type?)

/-- The texts of all types in a unit. -/
def unitTexts (unit : CodeUnit) : List String :=
  unit.types.flatMap TypeDeclaration.texts ++ unit.implementation.flatMap Implementation.texts

theorem Member.allTexts_eq (members : List Member) :
    Member.allTexts members = members.flatMap Member.texts := by
  induction members with
  | nil => rfl
  | cons member rest ih => rw [Member.allTexts, ih, List.flatMap_cons]

/-- A type that a body mentions. -/
theorem mem_filterMap_type {mentions : List Mention} {text : String} :
    text ∈ mentions.filterMap Mention.type? ↔ .type text ∈ mentions := by
  rw [List.mem_filterMap]
  constructor
  · rintro ⟨mention, inside, found⟩
    cases mention <;> cases found
    exact inside
  · exact fun inside => ⟨_, inside, rfl⟩

end Pascal

/-- Where the types of an implementation stand. -/
theorem Pascal.Implementation.texts_subset {implementation : Implementation Action Expr}
    {allowed : List String} (declared : implementation.method.types ⊆ allowed)
    (locals : implementation.locals.map Parameter.typeName ⊆ allowed)
    (body : implementation.mentions.filterMap Mention.type? ⊆ allowed) :
    implementation.texts ⊆ implementation.className :: allowed := by
  refine List.cons_subset_cons _ ?_
  rw [List.append_subset, List.append_subset]
  exact ⟨⟨declared, locals⟩, body⟩

/-- The texts of types that are the same in all units. -/
def fixedTexts : List String :=
  ["Boolean", "EProtobufInvalidOperation", "TStream", "TPersistent", "TProtobufMessage"]

/-- The texts of the types of a field: its own, and that of the case of its oneof. -/
def fieldTexts (plan : FieldPlan) : List String :=
  plan.types ++ (plan.membership.map fun membership => membership.oneof.caseType).toList

/-- The texts of the types that a class writes, those of nested classes apart. -/
def classTexts (plan : ClassPlan) : List String :=
  plan.className :: (fixedTexts ++ (plan.fields.flatMap fieldTexts
    ++ plan.oneofs.map fun oneof => oneof.names.caseType))

/-! ### Fields and oneofs -/

section

variable {plan : FieldPlan}

theorem fieldDeclarations_texts :
    plan.declarations.flatMap Member.texts ⊆ fixedTexts ++ fieldTexts plan := by
  unfold fieldTexts FieldPlan.types fixedTexts
  dsimp only [FieldPlan.declarations]
  cases plan.names.presence <;>
    simp [plainMember, Member.texts, Item.types, FieldPlan.getterMethod, FieldPlan.setterMethod,
      getterMethod, setterMethod, PresenceNames.methodMembers, PresenceNames.propertyMember,
      PresenceNames.getterMethod, PresenceNames.setterMethod]

/-- All that bodies mention of a field. -/
def Message.FieldPlan.mentionable (plan : FieldPlan) : List Mention :=
  plan.copying ++ (plan.selecting ++
    [.member plan.names.numberConstant, .member "HasUnparsedField", .type "EProtobufInvalidOperation"])

theorem copying_subset_mentionable : plan.copying ⊆ plan.mentionable :=
  List.subset_append_left _ _

theorem storing_subset_mentionable : plan.storing ⊆ plan.mentionable :=
  List.Subset.trans plan.storing_subset_copying copying_subset_mentionable

theorem types_of_mentionable {mentions : List Mention} (allowed : mentions ⊆ plan.mentionable) :
    mentions.filterMap Mention.type? ⊆ fixedTexts ++ fieldTexts plan := by
  have ofField {text : String} (inside : .type text ∈ plan.copying) : text ∈ plan.types := by
    unfold FieldPlan.copying FieldPlan.storing at inside
    cases plan.names.presence <;> split at inside <;> simpa using inside
  have ofOneof {text : String} (inside : .type text ∈ plan.selecting) :
      text ∈ (plan.membership.map fun membership => membership.oneof.caseType).toList := by
    unfold FieldPlan.selecting at inside
    cases stored : plan.membership with
    | none => simp [stored] at inside
    | some membership => simpa [stored] using inside
  intro text inside
  have mentioned := allowed (mem_filterMap_type.mp inside)
  rw [FieldPlan.mentionable, List.mem_append, List.mem_append] at mentioned
  rw [List.mem_append, fieldTexts, List.mem_append]
  rcases mentioned with own | selected | other
  · exact .inr (.inl (ofField own))
  · exact .inr (.inr (ofOneof selected))
  · have raised : text = "EProtobufInvalidOperation" := by simpa using other
    exact .inl (by simp [raised, fixedTexts])

theorem fieldImplementations_texts (shaped : plan.Shaped)
    {implementation : Implementation Action Expr} (inside : implementation ∈ plan.implementations) :
    implementation.texts ⊆ plan.className :: (fixedTexts ++ fieldTexts plan) := by
  -- An accessor writes one type in its declaration, and others in its body.
  have accessor {method : Method} {type : String} {body : Body} (typed : method.types = [type])
      (known : type ∈ fixedTexts ++ fieldTexts plan)
      (mentioned : Statement.allMentions body ⊆ plan.mentionable) :
      (plan.implement method body).texts ⊆
        plan.className :: (fixedTexts ++ fieldTexts plan) := by
    refine Implementation.texts_subset ?_ (List.nil_subset _) (types_of_mentionable mentioned)
    rw [FieldPlan.implement, typed, List.cons_subset]
    exact ⟨known, List.nil_subset _⟩
  have shown : plan.publicType ∈ fixedTexts ++ fieldTexts plan := by
    simp [fieldTexts, FieldPlan.types]
  have boolean : "Boolean" ∈ fixedTexts ++ fieldTexts plan := by simp [fixedTexts]
  rcases List.mem_append.mp inside with own | ofPresence
  · rcases List.mem_pair.mp own with rfl | rfl
    · exact accessor rfl shown (List.Subset.trans plan.getterBody_mentions storing_subset_mentionable)
    · exact accessor rfl shown
        (List.Subset.trans (FieldPlan.setterBody_mentions shaped) storing_subset_mentionable)
  · cases present : plan.names.presence with
    | none =>
      rw [present] at ofPresence
      cases ofPresence
    | some presence =>
      have singular : ¬ plan.field.repeated = true := by
        unfold FieldPlan.Shaped at shaped
        simpa [present] using shaped
      rw [present] at ofPresence
      rcases List.mem_pair.mp ofPresence with rfl | rfl
      · refine accessor rfl boolean (List.Subset.trans plan.presenceGetterBody_mentions ?_)
        simp [FieldPlan.mentionable, plan.storing_subset_copying, List.subset_append_of_subset_left,
          List.subset_append_of_subset_right]
      · refine accessor rfl boolean
          (List.Subset.trans (FieldPlan.presenceSetterBody_mentions shaped singular) ?_)
        simp [FieldPlan.mentionable, plan.storing_subset_copying, List.subset_append_of_subset_left,
          List.subset_append_of_subset_right]

end

section

variable {plan : OneofPlan}

theorem oneofDeclarations_texts :
    plan.declarations.flatMap Member.texts ⊆ [plan.names.caseType] := by
  simp [OneofPlan.declarations, plainMember, Member.texts, TypeDeclaration.texts, Item.types,
    OneofNames.getterMethod, OneofNames.setterMethod, getterMethod, setterMethod]

theorem oneofImplementations_texts {implementation : Implementation Action Expr}
    (inside : implementation ∈ plan.implementations) :
    implementation.texts ⊆ plan.className ::
      (fixedTexts ++ (plan.members.flatMap fieldTexts ++ [plan.names.caseType])) := by
  have declared : [plan.names.caseType] ⊆
      fixedTexts ++ (plan.members.flatMap fieldTexts ++ [plan.names.caseType]) := by simp
  rcases List.mem_pair.mp inside with rfl | rfl
  · exact Implementation.texts_subset declared (List.nil_subset _) (List.nil_subset _)
  · refine Implementation.texts_subset declared (List.nil_subset _) fun text written => ?_
    have allowed := plan.setterBody_mentions (mem_filterMap_type.mp written)
    rw [List.mem_cons, List.mem_cons, List.mem_flatMap] at allowed
    rcases allowed with backing | type | ⟨member, isMember, stored⟩
    · cases backing
    · cases type
      simp
    · have known := types_of_mentionable storing_subset_mentionable (mem_filterMap_type.mpr stored)
      rw [List.mem_append] at known ⊢
      exact known.imp id fun ofMember =>
        List.mem_append_left _ (List.mem_flatMap.mpr ⟨member, isMember, ofMember⟩)

end

/-! ### Classes -/

section

variable {plan : ClassPlan} (shaped : ∀ field ∈ plan.fields, field.Shaped)

theorem fieldTexts_subset_classTexts {field : FieldPlan} (inside : field ∈ plan.fields) :
    fixedTexts ++ fieldTexts field ⊆ classTexts plan := by
  intro text written
  unfold classTexts
  rw [List.mem_cons, List.mem_append, List.mem_append]
  rcases List.mem_append.mp written with fixed | own
  · exact .inr (.inl fixed)
  · exact .inr (.inr (.inl (List.mem_flatMap.mpr ⟨field, inside, own⟩)))

theorem fixedTexts_subset_classTexts : fixedTexts ⊆ classTexts plan := by
  simp [classTexts, List.subset_cons_of_subset]

theorem fragments_texts {fields : List FieldPlan} (within : fields ⊆ plan.fields)
    {fragment : FieldPlan → Body}
    (mentioned : ∀ field ∈ plan.fields, Statement.allMentions (fragment field) ⊆ field.mentionable) :
    (Statement.allMentions (fields.flatMap fragment)).filterMap Mention.type? ⊆
      classTexts plan := by
  intro text written
  rw [mem_filterMap_type, Statement.allMentions_flatMap] at written
  obtain ⟨field, inside, written⟩ := List.mem_flatMap.mp written
  exact fieldTexts_subset_classTexts (within inside)
    (types_of_mentionable (mentioned field (within inside)) (mem_filterMap_type.mpr written))

theorem createBody_texts :
    (Statement.allMentions plan.createBody).filterMap Mention.type? ⊆ classTexts plan := by
  intro text written
  have mentioned : .type text ∈ Statement.allMentions
      (plan.flatMapSlots FieldPlan.createBody OneofPlan.createBody) := by
    simpa [ClassPlan.createBody] using mem_filterMap_type.mp written
  rw [Statement.allMentions_eq] at mentioned
  obtain ⟨statement, inside, mentioned⟩ := List.mem_flatMap.mp mentioned
  rcases exists_of_mem_flatMapSlots inside with ⟨field, declared, made⟩ | ⟨oneof, declared, made⟩
  · have stored := field.createBody_mentions
      (Statement.allMentions_eq _ ▸ List.mem_flatMap.mpr ⟨statement, made, mentioned⟩)
    exact fieldTexts_subset_classTexts declared
      (types_of_mentionable storing_subset_mentionable (mem_filterMap_type.mpr stored))
  · have known := oneof.createBody_mentions
      (Statement.allMentions_eq _ ▸ List.mem_flatMap.mpr ⟨statement, made, mentioned⟩)
    have same : text = oneof.names.caseType := by simpa using known
    refine List.mem_cons_of_mem _ (List.mem_append_right _ (List.mem_append_right _ ?_))
    exact List.mem_map.mpr ⟨oneof, declared, same.symm⟩

include shaped

theorem methods_texts {method : ClassMethod} (listed : method ∈ plan.methods) :
    (method.implementation plan.className).texts ⊆ classTexts plan := by
  have named : plan.className ∈ classTexts plan := List.mem_cons_self ..
  have all := List.Subset.refl plan.fields
  have written {method : ClassMethod}
      (declared : method.method.types ++ method.locals.map Parameter.typeName ⊆
        plan.className :: fixedTexts)
      (body : (Statement.allMentions method.body).filterMap Mention.type? ⊆ classTexts plan) :
      (method.implementation plan.className).texts ⊆ classTexts plan := by
    have known : plan.className :: fixedTexts ⊆ classTexts plan :=
      List.cons_subset.mpr ⟨named, fixedTexts_subset_classTexts⟩
    rw [List.append_subset] at declared
    exact List.Subset.trans (Implementation.texts_subset (List.Subset.trans declared.1 known)
      (List.Subset.trans declared.2 known) body) (List.cons_subset.mpr ⟨named, List.Subset.refl _⟩)
  have delegated (work ownFields : String) :
      (Statement.allMentions (plan.delegateBody work ownFields)).filterMap Mention.type? ⊆
        classTexts plan := by
    simp [ClassPlan.delegateBody, List.filterMap_cons, Mention.type?, named]
  simp only [ClassPlan.methods, List.mem_cons, List.not_mem_nil, or_false] at listed
  rcases listed with rfl | rfl | rfl | rfl | rfl | rfl | rfl | rfl | rfl | rfl
  · exact written (List.nil_subset _) createBody_texts
  · refine written (List.nil_subset _) ?_
    have freed := fragments_texts (List.reverse_subset.mpr all) fun field _ =>
      List.Subset.trans field.destroyBody_mentions storing_subset_mentionable
    simpa [ClassPlan.destroyBody] using freed
  · exact written (List.nil_subset _) (List.nil_subset _)
  · refine written (by simp [overriding, Method.types, Item.types, fixedTexts]) ?_
    have encoded := fragments_texts all fun field inside =>
      List.Subset.trans (FieldPlan.encodeBody_mentions (shaped field inside)) (by
        simp [FieldPlan.mentionable, field.storing_subset_copying,
          List.subset_append_of_subset_left])
    simpa [ClassPlan.concatFields] using encoded
  · refine written (by simp [overriding, Method.types, Item.types, fixedTexts]) ?_
    have decoded := fragments_texts all fun field inside =>
      List.Subset.trans (FieldPlan.decodeBody_mentions (shaped field inside)) (by
        simp [FieldPlan.mentionable])
    simpa [ClassPlan.concatFields] using decoded
  · exact written (by simp [overriding, Method.types, Item.types, fixedTexts, ancestorClass])
      (delegated _ _)
  · exact written (by simp [overriding, Method.types, Item.types, fixedTexts]) (delegated _ _)
  · exact written (List.nil_subset _) (fragments_texts all fun field inside =>
      List.Subset.trans (FieldPlan.clearBody_mentions (shaped field inside))
        storing_subset_mentionable)
  · exact written (by simp [Method.types, Item.types]) (fragments_texts all fun field inside =>
      List.Subset.trans (FieldPlan.mergeBody_mentions (shaped field inside))
        copying_subset_mentionable)
  · exact written (by simp [Method.types, Item.types]) (fragments_texts all fun field inside =>
      List.Subset.trans (FieldPlan.assignBody_mentions (shaped field inside))
        copying_subset_mentionable)

end

/-- What a class has of its own writes the types of its plan. -/
theorem ownTexts_subset {parts : ClassParts} {context : Context} {place : Place}
    {message : MessageType} (of : parts.PartsOf context place message) :
    (∀ member ∈ parts.derivedMembers ++ parts.lifecycleMembers,
      member.texts ⊆ classTexts parts.plan) ∧
    ∀ implementation ∈ parts.ownImplementation, implementation.texts ⊆ classTexts parts.plan := by
  have covers := of.covers
  have methods {method : ClassMethod} (listed : method ∈ parts.plan.methods) :
      (method.implementation parts.className).texts ⊆ classTexts parts.plan := by
    have written := methods_texts covers.presence listed
    rwa [covers.className_eq] at written
  have named : parts.className ∈ classTexts parts.plan := by
    rw [← covers.className_eq]
    exact List.mem_cons_self ..
  have oneofTexts {oneof : OneofPlan} (declared : oneof ∈ parts.plan.oneofs) :
      oneof.names.caseType ∈ classTexts parts.plan :=
    List.mem_cons_of_mem _ (List.mem_append_right _ (List.mem_append_right _
      (List.mem_map_of_mem declared)))
  refine ⟨fun member inside => ?_, fun implementation inside => ?_⟩
  · rcases List.mem_append.mp inside with derived | lifecycle
    · rcases exists_of_mem_flatMapSlots derived with
        ⟨field, declared, isMember⟩ | ⟨oneof, declared, isMember⟩
      · exact fun text written => fieldTexts_subset_classTexts declared
          (fieldDeclarations_texts (List.mem_flatMap.mpr ⟨member, isMember, written⟩))
      · intro text written
        rw [List.mem_singleton.mp
          (oneofDeclarations_texts (List.mem_flatMap.mpr ⟨member, isMember, written⟩))]
        exact oneofTexts declared
    · obtain ⟨method, listed, rfl⟩ := List.mem_map.mp lifecycle
      exact fun text written => methods listed
        (List.mem_cons_of_mem _ (List.mem_append_left _ (List.mem_append_left _ written)))
  · rcases List.mem_append.mp inside with derived | lifecycle
    · rcases exists_of_mem_flatMapSlots derived with
        ⟨field, declared, implemented⟩ | ⟨oneof, declared, implemented⟩
      · have written := fieldImplementations_texts (covers.presence field declared) implemented
        rw [(covers.planned field declared).className_eq] at written
        exact List.Subset.trans written
          (List.cons_subset.mpr ⟨named, fieldTexts_subset_classTexts declared⟩)
      · obtain ⟨position, found⟩ := List.mem_iff_getElem?.mp declared
        obtain ⟨className_eq, members_eq⟩ := covers.oneofs_eq position oneof found
        have written := oneofImplementations_texts implemented
        rw [className_eq] at written
        refine List.Subset.trans written (List.cons_subset.mpr ⟨named, ?_⟩)
        rw [List.append_subset, List.append_subset]
        refine ⟨fixedTexts_subset_classTexts, fun text inside => ?_, by simpa using oneofTexts declared⟩
        obtain ⟨member, isMember, inside⟩ := List.mem_flatMap.mp inside
        rw [members_eq] at isMember
        exact fieldTexts_subset_classTexts (List.mem_filter.mp isMember).1
          (List.mem_append_right _ inside)
    · obtain ⟨method, listed, rfl⟩ := List.mem_map.mp lifecycle
      exact methods listed

/-! ### Units in front of the types of a class -/

/-- All units in front of a type are listed. -/
def QualifiedWithin (units : List String) (text : String) : Prop :=
  ∀ unit, unitQualifier text = some unit → unit ∈ units

theorem QualifiedWithin.mono {units more : List String} {text : String} (within : units ⊆ more)
    (qualified : QualifiedWithin units text) : QualifiedWithin more text :=
  fun unit found => within (qualified unit found)

theorem qualifiedWithin_of_none {units : List String} {text : String}
    (unqualified : unitQualifier text = none) : QualifiedWithin units text := by
  intro unit found
  rw [unqualified] at found
  cases found

theorem fixedTexts_qualified {units : List String} : ∀ text ∈ fixedTexts,
    QualifiedWithin units text := by
  have unqualified : ∀ text ∈ fixedTexts, unitQualifier text = none := by decide +kernel
  exact fun text inside => qualifiedWithin_of_none (unqualified text inside)

/-- The case type of a oneof is a single name. -/
theorem caseType_qualified {units : List String} {context : Context} {parts : ClassParts}
    {place : Place} {message : MessageType} (of : parts.PartsOf context place message)
    {names : OneofNames} (inside : names ∈ parts.plan.oneofs.map OneofPlan.names) :
    QualifiedWithin units names.caseType := by
  obtain ⟨⟨oneof, first, last, granted⟩, -⟩ :=
    (claimNames_granted (make_claims of.planned)).2 names inside
  have generated : first.generate .caseType [] (oneofCore oneof) = .ok names.caseType := by
    cases granted with
    | cons generated _ => exact generated
  refine qualifiedWithin_of_none (unitQualifier_name ?_ ?_)
  · exact unbracketed_of_generate rfl (by decide) (by decide) (by decide) generated
  · exact notMem_of_generate Text.isDivider_dot rfl (by decide) (by decide) (by decide) generated

/-- The members for nested types write what the nested classes write. -/
theorem typeMembers_texts {parts : ClassParts} {member : Member} (inside : member ∈ parts.typeMembers)
    {text : String} (written : text ∈ member.texts) :
    ∃ generated ∈ parts.nested, text ∈ generated.declaration.texts := by
  simp only [ClassParts.typeMembers, nestedMembers, List.mem_append, List.mem_map] at inside
  rcases inside with (⟨declaration, -, rfl⟩ | ⟨generated, -, rfl⟩) | ⟨generated, found, rfl⟩
  · cases written
  · cases written
  · exact ⟨generated, found, written⟩

section

variable {files : List Schema.File} {context : Context}
  (built : TypeIndex.build files = .ok context.index)

include built

/-- A reference to a type that the index knows has at most the unit in front of it that declares the
type. -/
theorem reference_qualified {typeName : String} {resolved : ResolvedType}
    (known : lastUnder typeName context.index.types = some resolved) :
    Unbracketed (resolved.referenceFrom context.unit) ∧
      QualifiedWithin (foreignUnit context.unit (some resolved))
        (resolved.referenceFrom context.unit) := by
  obtain ⟨file, -, identifier, site, path, indexed⟩ :=
    (build_indexes built).2 _ (mem_of_lastUnder known)
  have types : TypePath path := ⟨indexed.declares.path_ne_nil, indexed.declares.segments⟩
  rw [ResolvedType.referenceFrom, foreignUnit, indexed.unit, indexed.localName]
  split
  · exact ⟨unbracketed_join types.unbracketed, qualifiedWithin_of_none (unitQualifier_path types)⟩
  · obtain ⟨plain, qualifier⟩ := unitQualifier_qualified types indexed.named
    refine ⟨plain, fun unit found => ?_⟩
    rw [qualifier, Option.some.injEq] at found
    exact List.mem_singleton.mpr found.symm

/-- The types of the values of a field have no other unit in front of them than the one that declares
them. -/
theorem support_qualified {type : FieldType} {support : TypeSupport}
    (supported : SupportedIn context type support) :
    ∀ text ∈ [support.publicType, support.internalType], Unbracketed text ∧
      QualifiedWithin (declaringUnits context.index context.unit type) text := by
  cases supported with
  | scalar type =>
    have name : Unbracketed (pascalType type) ∧ Text.Undotted (pascalType type) := by
      unfold Text.Undotted
      cases type <;> decide +kernel
    have unqualified : QualifiedWithin (declaringUnits context.index context.unit (.scalar type))
        (pascalType type) := qualifiedWithin_of_none (unitQualifier_name name.1 name.2)
    simp [Runtime.scalarSupport, name.1, unqualified]
  | @declared typeName resolved known =>
    have reference := reference_qualified built known
    have stored : Unbracketed "TProtobufEnumFieldValue" ∧
        QualifiedWithin (foreignUnit context.unit (some resolved)) "TProtobufEnumFieldValue" :=
      ⟨by decide +kernel, qualifiedWithin_of_none (by decide +kernel)⟩
    rw [declaringUnits, known]
    cases resolved.kind <;> simp [Runtime.referenceSupport, reference, stored]

/-- **A field writes no other unit in front of a type than the one that declares its type.** -/
theorem fieldTypes_qualified {plan : FieldPlan}
    (supported : SupportedIn context plan.field.type plan.support) :
    ∀ text ∈ plan.types,
      QualifiedWithin (declaringUnits context.index context.unit plan.field.type) text := by
  have elements := support_qualified built supported
  have shown := elements plan.support.publicType (by simp)
  have stored := elements plan.support.internalType (by simp)
  have collected {text : String} (plain : Unbracketed text)
      (qualified : QualifiedWithin (declaringUnits context.index context.unit plan.field.type) text) :
      QualifiedWithin (declaringUnits context.index context.unit plan.field.type)
        (collectionType plan.support.kind text) := by
    rwa [QualifiedWithin, unitQualifier_collection _ plain]
  intro text inside
  simp only [FieldPlan.types, List.mem_cons, List.not_mem_nil, or_false] at inside
  rcases inside with rfl | rfl | rfl
  · unfold FieldPlan.publicType
    split
    · exact collected shown.1 shown.2
    · exact shown.2
  · unfold FieldPlan.internalType
    split
    · exact collected stored.1 stored.2
    · exact stored.2
  · exact shown.2

/-- **A class writes no other units in front of types than those that its fields need.** -/
theorem classTexts_qualified {parts : ClassParts} {place : Place} {message : MessageType}
    (of : parts.PartsOf context place message) {outer : List String}
    (placed : place.parentClass = outerName outer)
    (types : ∀ segment ∈ outer, ∃ name, typeIdentifier name = .ok segment) :
    ∀ text ∈ classTexts parts.plan, QualifiedWithin
      (message.fields.flatMap (fieldUnits context.index context.runtime context.unit)) text := by
  have covers := of.covers
  intro text written
  rw [classTexts, List.mem_cons, List.mem_append, List.mem_append] at written
  rcases written with rfl | fixed | ofField | ofOneof
  · have path : TypePath (outer ++ [parts.identifier]) := by
      refine ⟨by simp, fun segment inside => ?_⟩
      rcases List.mem_append.mp inside with around | own
      · exact types segment around
      · exact ⟨message.name, List.mem_singleton.mp own ▸ of.identifier⟩
    rw [covers.className_eq, of.className_eq, placed, nestedIn_outerName]
    exact qualifiedWithin_of_none (unitQualifier_path path)
  · exact fixedTexts_qualified text fixed
  · obtain ⟨field, declared, written⟩ := List.mem_flatMap.mp ofField
    rcases List.mem_append.mp written with own | selected
    · have supported := (fieldPlan_units ((make_fields of.planned).1 field declared)).1
      refine (fieldTypes_qualified built supported text own).mono fun unit needed => ?_
      rw [← covers.fields_eq]
      exact List.mem_flatMap.mpr ⟨field.field, List.mem_map_of_mem declared,
        List.mem_append_right _ needed⟩
    · rw [Option.mem_toList, Option.map_eq_some_iff] at selected
      obtain ⟨membership, stored, rfl⟩ := selected
      have inOneof := (covers.planned field declared).membership
      rw [stored] at inOneof
      obtain ⟨position, -, found, -⟩ := inOneof
      exact caseType_qualified of (List.mem_of_getElem? found)
  · obtain ⟨oneof, declared, rfl⟩ := List.mem_map.mp ofOneof
    exact caseType_qualified of (List.mem_map_of_mem declared)

/-- **A class and the classes in it write no other units in front of types than those that the fields of
the message need**, the fields of nested messages included. -/
theorem generatedMessage_qualified (message : MessageType) :
    ∀ {place : Place} {generated : MessageClass} {outer : List String},
      (generateMessage context place message).result = .ok generated →
      place.parentClass = outerName outer →
      (∀ segment ∈ outer, ∃ name, typeIdentifier name = .ok segment) →
      ∀ text ∈ generated.declaration.texts ++ generated.implementation.flatMap Implementation.texts,
        QualifiedWithin ((fieldsWithin message).flatMap
          (fieldUnits context.index context.runtime context.unit)) text := by
  induction message using nested_induction with
  | step message ih =>
    intro place generated outer success placed types text written
    obtain ⟨parts, found, -, rfl⟩ := generateMessage_eq_ok.mp success
    have of := classParts_eq_ok.mp found
    rw [fieldsWithin_eq, List.flatMap_append]
    have own (written : text ∈ classTexts parts.plan) :=
      (classTexts_qualified built of placed types text written).mono
        (List.subset_append_right ((message.nestedMessages.flatMap fieldsWithin).flatMap
          (fieldUnits context.index context.runtime context.unit)) _)
    have deeper {inner : MessageClass} (inside : inner ∈ parts.nested)
        (written : text ∈ inner.declaration.texts ++
          inner.implementation.flatMap Implementation.texts) :
        QualifiedWithin ((message.nestedMessages.flatMap fieldsWithin).flatMap
          (fieldUnits context.index context.runtime context.unit) ++ message.fields.flatMap
            (fieldUnits context.index context.runtime context.unit)) text := by
      obtain ⟨source, declared, inner_success⟩ := exists_left_of_forall₂ of.nested inside
      have around : (place.inside message parts.identifier).parentClass =
          outerName (outer ++ [parts.identifier]) := by
        rw [Place.inside, placed, nestedIn_outerName, outerName_concat]
      have segments : ∀ segment ∈ outer ++ [parts.identifier],
          ∃ name, typeIdentifier name = .ok segment := by
        intro segment listed
        rcases List.mem_append.mp listed with early | last
        · exact types segment early
        · exact ⟨message.name, List.mem_singleton.mp last ▸ of.identifier⟩
      refine (ih source declared inner_success around segments text written).mono fun unit needed => ?_
      obtain ⟨field, inside, needed⟩ := List.mem_flatMap.mp needed
      exact List.mem_append_left _ (List.mem_flatMap.mpr
        ⟨field, List.mem_flatMap.mpr ⟨source, declared, inside⟩, needed⟩)
    obtain ⟨members, implementations⟩ := ownTexts_subset of
    rcases List.mem_append.mp written with declaredHere | implemented
    · rcases List.mem_cons.mp declaredHere with rfl | inMember
      · exact own (fixedTexts_subset_classTexts (by decide : ancestorClass ∈ fixedTexts))
      · rw [Member.allTexts_eq] at inMember
        obtain ⟨member, inside, written⟩ := List.mem_flatMap.mp inMember
        rw [ClassParts.assemble, ClassParts.members, List.append_assoc, List.mem_append] at inside
        rcases inside with nested | ownMember
        · obtain ⟨inner, isNested, written⟩ := typeMembers_texts nested written
          exact deeper isNested (List.mem_append_left _ written)
        · exact own (members member ownMember written)
    · obtain ⟨implementation, inside, written⟩ := List.mem_flatMap.mp implemented
      rcases List.mem_append.mp inside with nested | ownMethod
      · obtain ⟨inner, isNested, inside⟩ := List.mem_flatMap.mp nested
        exact deeper isNested
          (List.mem_append_right _ (List.mem_flatMap.mpr ⟨implementation, inside, written⟩))
      · exact own (implementations implementation ownMethod written)

end

/-! ### Units -/

/-- The index knows the type to which a field refers. -/
def KnowsType (index : TypeIndex) (field : Schema.Field) : Prop :=
  ∀ kind typeName, field.type = .reference kind typeName →
    ∃ resolved, lastUnder typeName index.types = some resolved

/-- The index knows the types to which the fields of a message refer, those of nested messages included,
if the message has a class. -/
theorem knowsType_of_generated {context : Context} (message : MessageType) :
    ∀ {place : Place} {generated : MessageClass},
      (generateMessage context place message).result = .ok generated →
      ∀ field ∈ fieldsWithin message, KnowsType context.index field := by
  induction message using nested_induction with
  | step message ih =>
    intro place generated success field inside
    obtain ⟨parts, found, -, rfl⟩ := generateMessage_eq_ok.mp success
    have of := classParts_eq_ok.mp found
    rw [fieldsWithin_eq, List.mem_append, List.mem_flatMap] at inside
    rcases inside with ⟨inner, declared, deeper⟩ | own
    · obtain ⟨_, -, inner_success⟩ := exists_left_of_forall₂ of.nested.flip declared
      exact ih inner declared inner_success field deeper
    · rw [← of.covers.fields_eq] at own
      obtain ⟨plan, planned, rfl⟩ := List.mem_map.mp own
      intro kind typeName typed
      have supported := (fieldPlan_units ((make_fields of.planned).1 plan planned)).1
      generalize plan.support = support at supported
      rw [typed] at supported
      cases supported with
      | declared known => exact ⟨_, known⟩

/-- The types of a unit are written in its classes. -/
theorem exists_class_of_mem_unitTexts {unit : CodeUnit} {declarations : List EnumDeclaration}
    {classes : List MessageClass} (types : unit.types = unitTypes declarations classes)
    (implementation : unit.implementation = classes.flatMap MessageClass.implementation)
    {text : String} (written : text ∈ unitTexts unit) :
    ∃ generated ∈ classes, text ∈ generated.declaration.texts ++
      generated.implementation.flatMap Implementation.texts := by
  rw [unitTexts, types, implementation, List.mem_append, List.flatMap_assoc] at written
  rcases written with inDeclaration | inBody
  · obtain ⟨declaration, inside, written⟩ := List.mem_flatMap.mp inDeclaration
    simp only [unitTypes, List.mem_append, List.mem_map] at inside
    rcases inside with (⟨enumType, -, rfl⟩ | ⟨generated, -, rfl⟩) | ⟨generated, listed, rfl⟩
    · cases written
    · cases written
    · exact ⟨generated, listed, List.mem_append_left _ written⟩
  · obtain ⟨generated, listed, written⟩ := List.mem_flatMap.mp inBody
    exact ⟨generated, listed, List.mem_append_right _ written⟩

/-- **A unit uses what it needs, each unit once and in the order of first use.** The used units are the
first occurrences in the list of the base units, the units of the dependencies, and the units of the
messages. The index knows all files and types that stand behind these units. A unit in front of a type,
wherever the type is written, is used exactly once. -/
theorem used_units_first_occurrences {index : TypeIndex} {runtime : Runtime} {file : Schema.File}
    {unit : CodeUnit} (generated : (generateUnit index runtime file).result = .ok unit) :
    unit.uses = (fileUnits index runtime unit.name file).eraseDups ∧
    (∀ dependency ∈ file.dependencies, ∃ identifier,
      lastUnder dependency index.units = some identifier) ∧
    (∀ field ∈ allFields file.messages, KnowsType index field) ∧
    ∀ files, TypeIndex.build files = .ok index → ∀ text ∈ unitTexts unit, ∀ qualifier,
      unitQualifier text = some qualifier → unit.uses.count qualifier = 1 := by
  obtain ⟨uses_eq, dependencies⟩ := generatedUnit_uses generated
  obtain ⟨identifier, declarations, classes, parts⟩ := generateUnit_parts generated
  refine ⟨uses_eq, dependencies, fun field inside => ?_,
    fun files built text written qualifier found => ?_⟩
  · rw [allFields_eq] at inside
    obtain ⟨message, declared, inside⟩ := List.mem_flatMap.mp inside
    obtain ⟨result, -, success⟩ := exists_left_of_forall₂ parts.made.flip declared
    exact knowsType_of_generated message success field inside
  · rw [uses_eq]
    refine List.count_eq_one_of_mem (units_nodup _) (List.mem_eraseDups.mpr ?_)
    obtain ⟨result, listed, written⟩ :=
      exists_class_of_mem_unitTexts parts.types parts.implementation written
    obtain ⟨message, declared, success⟩ := exists_left_of_forall₂ parts.made listed
    have top : (Place.mk file.scope none).parentClass = outerName [] := rfl
    have needed := generatedMessage_qualified built message success top (List.forall_mem_nil _) text
      written qualifier found
    obtain ⟨field, inside, needed⟩ := List.mem_flatMap.mp needed
    rw [fileUnits, allFields_eq, parts.name]
    exact List.mem_append_right _ (List.mem_flatMap.mpr
      ⟨field, List.mem_flatMap.mpr ⟨message, declared, inside⟩, needed⟩)

/-- A file that declares a message and an enumeration. -/
def importedFile : Schema.File :=
  { name := "b.proto", package := some "p", messages := [{ name := "B" }]
    enums := [{ name := "E", values := [{ name := "ZERO", number := 0 }] }] }

/-- A file that depends on the other one and refers to its types in a nested message and after it. -/
def importingFile : Schema.File :=
  { name := "a.proto", dependencies := ["b.proto"]
    messages :=
      [{ name := "A"
         fields :=
           [{ name := "x", number := 1, type := .scalar .bytes },
            { name := "y", number := 2, type := .reference .message ".p.B", repeated := true }]
         nestedMessages :=
           [{ name := "N"
              fields := [{ name := "z", number := 1, type := .reference .enumeration ".p.E" }] }] }] }

/-- The unit of the file uses the unit of the other one once, in front of the collection of messages. -/
theorem importing_unit_uses :
    ∃ index unit, TypeIndex.build [importedFile, importingFile] = .ok index ∧
      (generateUnit index .reference importingFile).result = .ok unit ∧
      unit.uses = ["Classes", "Protobuf.Delphi.uProtobuf", "Protobuf.Delphi.uProtobufMessage", "P.uB",
        "Protobuf.Delphi.uProtobufEnum", "SysUtils", "Protobuf.Delphi.uProtobufBytes",
        "Protobuf.Delphi.uProtobufRepeatedField"] ∧
      "TProtobufRepeatedMessageField<P.uB.TB>" ∈ unitTexts unit ∧ unit.uses.count "P.uB" = 1 := by
  have evaluated : (do
      let index ← TypeIndex.build [importedFile, importingFile]
      let unit ← (generateUnit index .reference importingFile).result
      return (fileUnits index .reference unit.name importingFile,
        decide ("TProtobufRepeatedMessageField<P.uB.TB>" ∈ unitTexts unit))) =
      .ok (["Classes", "Protobuf.Delphi.uProtobuf", "Protobuf.Delphi.uProtobufMessage", "P.uB",
        "Protobuf.Delphi.uProtobufEnum", "P.uB", "SysUtils", "Protobuf.Delphi.uProtobufBytes",
        "Protobuf.Delphi.uProtobufMessage", "Protobuf.Delphi.uProtobufRepeatedField", "P.uB"],
        true) := by
    decide +kernel
  obtain ⟨index, built, evaluated⟩ := bind_eq_ok.mp evaluated
  obtain ⟨unit, generated, evaluated⟩ := bind_eq_ok.mp evaluated
  obtain ⟨units_eq, written⟩ := Prod.mk.inj (pure_eq_ok.mp evaluated)
  have mentioned := of_decide_eq_true written
  obtain ⟨uses_eq, -, -, qualified⟩ := used_units_first_occurrences generated
  rw [units_eq] at uses_eq
  refine ⟨index, unit, built, generated, uses_eq, mentioned, ?_⟩
  exact qualified _ built _ mentioned _ (by decide +kernel)

end ProtoPascal
