import ProtoPascal.Proofs.Identifiers
import ProtoPascal.Proofs.TypeReferences

/-!
Which names of a generated unit are legal, that is, identifiers other than the reserved words. The names
of a schema are identifiers themselves, and most names of a unit begin with a fixed text, so they are
legal. The names of properties, of values and of the segments of a namespace do not, and lose the
underscores at their start.

* `claimNames_legalFrom`: the names of the fields and oneofs of a message;
* `generateMessage_legalFrom`: all names that the class of a message declares;
* `declared_names_legal_iff`: when all names that a unit declares are legal;
* `digits_after_underscore_declared`: an accepted file whose unit declares a number.
-/

namespace ProtoPascal

/-! ### Declared names -/

namespace Pascal

/-- The names that an enumerated type declares: its own and those of its values. -/
def EnumDeclaration.allNames (declaration : EnumDeclaration) : List String :=
  declaration.name :: declaration.values.map EnumMember.name

mutual

/-- The names that a type declares: its own and those of what is declared in it, at any depth. -/
def TypeDeclaration.allNames : TypeDeclaration → List String
  | .forwardClass name => [name]
  | .enumType declaration => declaration.allNames
  | .classType name _ _ members => name :: Member.listNames members

/-- The names that a member declares, at any depth. -/
def Member.allNames : Member → List String
  | .item _ _ declared => [declared.name]
  | .nestedType _ _ declared => declared.allNames

/-- The names that several members declare, at any depth. -/
def Member.listNames : List Member → List String
  | [] => []
  | member :: rest => member.allNames ++ Member.listNames rest

end

theorem Member.listNames_eq (members : List Member) :
    Member.listNames members = members.flatMap Member.allNames := by
  induction members with
  | nil => rfl
  | cons member rest ih => rw [Member.listNames, ih, List.flatMap_cons]

/-- The names that a unit declares: the segments of its own name, and the names of its types with those
of what is declared in them. -/
def CodeUnit.allNames (unit : CodeUnit) : List String :=
  Text.pieces '.' unit.name ++ unit.types.flatMap TypeDeclaration.allNames

end Pascal

/-! ### Names of a schema -/

namespace Schema

/-- The names that an enumeration gives. -/
def EnumType.givenNames (enumType : EnumType) : List String :=
  enumType.name :: enumType.values.map EnumValue.name

mutual

/-- A message with the messages nested in it, at any depth. -/
def MessageType.tree : MessageType → List MessageType
  | ⟨name, fields, oneofs, nestedMessages, nestedEnums⟩ =>
    ⟨name, fields, oneofs, nestedMessages, nestedEnums⟩ :: MessageType.trees nestedMessages

/-- Several messages with the messages nested in them, at any depth. -/
def MessageType.trees : List MessageType → List MessageType
  | [] => []
  | message :: rest => message.tree ++ MessageType.trees rest

end

theorem MessageType.trees_eq (messages : List MessageType) :
    MessageType.trees messages = messages.flatMap MessageType.tree := by
  induction messages with
  | nil => rfl
  | cons message rest ih => rw [MessageType.trees, ih, List.flatMap_cons]

theorem MessageType.tree_eq (message : MessageType) :
    message.tree = message :: message.nestedMessages.flatMap MessageType.tree := by
  obtain ⟨name, fields, oneofs, nestedMessages, nestedEnums⟩ := message
  rw [MessageType.tree, MessageType.trees_eq]

theorem MessageType.mem_tree_self (message : MessageType) : message ∈ message.tree := by
  rw [MessageType.tree_eq]
  exact List.mem_cons_self ..

/-- The names that a message gives, those in nested messages apart. -/
def MessageType.givenNames (message : MessageType) : List String :=
  message.name :: (message.fields.map Field.name ++ message.oneofs.map Oneof.name
    ++ message.nestedEnums.flatMap EnumType.givenNames)

/-- The names in a message that become identifiers without a fixed text: those of fields, oneofs and
values, those in nested messages apart. -/
def MessageType.bareNames (message : MessageType) : List String :=
  message.fields.map Field.name ++ message.oneofs.map Message.oneofCore
    ++ message.nestedEnums.flatMap fun enumType => enumType.values.map EnumValue.name

/-- The parts of the package of a file. -/
def File.packageSegments (file : File) : List String :=
  match file.package with
  | some package => (Text.pieces '.' package).filter fun segment => !segment.isEmpty
  | none => []

/-- The directories of a file that give its namespace. -/
def File.namespaceDirectories (file : File) : List String :=
  match file.package with
  | some _ => []
  | none => file.directorySegments

/-- The names that a file gives, its directories apart. -/
def File.givenNames (file : File) : List String :=
  file.stem :: (file.packageSegments ++ file.enums.flatMap EnumType.givenNames
    ++ (MessageType.trees file.messages).flatMap MessageType.givenNames)

/-- The names in a file that become identifiers without a fixed text, its directories apart. -/
def File.bareNames (file : File) : List String :=
  file.packageSegments ++ (file.enums.flatMap fun enumType => enumType.values.map EnumValue.name)
    ++ (MessageType.trees file.messages).flatMap MessageType.bareNames

end Schema

theorem namespaceCores_eq (file : Schema.File) :
    namespaceCores file = file.packageSegments ++ file.namespaceDirectories := by
  unfold namespaceCores Schema.File.packageSegments Schema.File.namespaceDirectories
  cases file.package with
  | none => rfl
  | some package => rw [List.append_nil]

/-! ### Types -/

namespace Naming

open Text

theorem typeIdentifier_legalFrom {name identifier : String} (spelled : Spelled name)
    (named : typeIdentifier name = .ok identifier) : LegalFrom [] [identifier] :=
  .of_lead (by simp [vocabulary]) (by decide) spelled (List.subset_append_left _ _) named

theorem typeIdentifiers_legalFrom {names identifiers : List String}
    (named : List.Forall₂ (fun name identifier => typeIdentifier name = .ok identifier) names
      identifiers) (spelled : ∀ name ∈ names, Spelled name) : LegalFrom [] identifiers := by
  induction named with
  | nil => exact .nil
  | cons first _ ih =>
    rw [List.forall_mem_cons] at spelled
    exact (typeIdentifier_legalFrom spelled.1 first).append (ih spelled.2)

end Naming

open Naming Pascal Text
open Schema (EnumType EnumValue Field MessageType Oneof)

/-! ### Enumerations -/

/-- What a value of an enumeration asks of the scope. -/
def valueRequests (value : EnumValue) : List NameRequest :=
  [{ rule := .enumValue, core := value.name }]

theorem enumMember_granted {value : EnumValue} {member : EnumMember} {scope final : Scope}
    (claimed : (claimEnumMember value).runIn scope = (.ok member, final)) :
    scope.Grants (valueRequests value) [member.name] final := by
  unfold claimEnumMember at claimed
  obtain ⟨name, middle, name_claimed, claimed⟩ := runIn_bind_eq_ok.mp claimed
  rw [runIn_pure, Prod.mk.injEq, Except.ok.injEq] at claimed
  obtain ⟨rfl, rfl⟩ := claimed
  exact runIn_claim_grants name_claimed

/-- **The names of an enumeration** are identifiers exactly if its values have a letter before all
digits. -/
theorem enumDeclaration_legalFrom {enumType : EnumType} {declaration : EnumDeclaration}
    (given : ∀ name ∈ enumType.givenNames, Spelled name)
    (declared : enumDeclaration enumType = .ok declaration) :
    LegalFrom (enumType.values.map EnumValue.name) declaration.allNames := by
  rw [EnumType.givenNames, List.forall_mem_cons, List.forall_mem_map] at given
  have own := typeIdentifier_legalFrom given.1 (Message.enumDeclaration_name declared)
  unfold enumDeclaration at declared
  obtain ⟨name, -, declared⟩ := bind_eq_ok.mp declared
  obtain ⟨values, claimed, declared⟩ := bind_eq_ok.mp declared
  rw [pure_eq_ok] at declared
  subst declared
  obtain ⟨final, claimed⟩ := resultIn_eq_ok.mp claimed
  have granted := runIn_mapM_grants valueRequests (fun member => [member.name])
    (fun _ _ _ _ => enumMember_granted) claimed
  have proper : ∀ value ∈ enumType.values, ∀ request ∈ valueRequests value, request.Proper := by
    intro value inside
    rw [valueRequests, List.forall_mem_singleton]
    exact ⟨by simp [vocabulary], given.2 value inside⟩
  have legal := granted.legalFrom (List.forall_mem_flatMap.mpr proper) (List.Subset.refl _)
    (by decide)
  have cores : bareCores (enumType.values.flatMap valueRequests) =
      enumType.values.map EnumValue.name := by
    rw [bareCores_flatMap, List.map_eq_flatMap]
    rfl
  rw [cores, ← List.map_eq_flatMap] at legal
  exact own.append legal

/-! ### Fields and oneofs -/

namespace Message

/-- The names of a field are made for its name alone, which one of them has without a fixed text. -/
theorem fieldRequests_bare (field : Field) : bareCores (fieldRequests field) = [field.name] := by
  unfold fieldRequests presenceRequests
  cases field.repeated <;> rfl

theorem fieldRequests_proper {field : Field} (spelled : Spelled field.name) :
    ∀ request ∈ fieldRequests field, request.Proper := by
  have cores : ∀ request ∈ fieldRequests field,
      request.rule ∈ vocabulary ∧ request.core = field.name := by
    unfold fieldRequests presenceRequests
    cases field.repeated <;> simp [vocabulary]
  intro request inside
  obtain ⟨listed, core⟩ := cores request inside
  exact ⟨listed, core ▸ spelled⟩

/-- The identifiers of a oneof are made from a name of letters, digits and underscores, if its own is
one. -/
theorem spelled_oneofCore {oneof : Oneof} (spelled : Spelled oneof.name) :
    Spelled (oneofCore oneof) := by
  unfold oneofCore
  split
  · rw [spelled_append]
    refine ⟨fun character inside => ?_, by decide⟩
    rw [trimStart, String.toList_ofList] at inside
    exact spelled character ((List.dropWhile_sublist _).subset inside)
  · exact spelled

theorem oneofRequests_bare (oneof : Oneof) : bareCores (oneofRequests oneof) = [oneofCore oneof] := rfl

theorem oneofRequests_proper {oneof : Oneof} (spelled : Spelled oneof.name) :
    ∀ request ∈ oneofRequests oneof, request.Proper := by
  have cores : ∀ request ∈ oneofRequests oneof,
      request.rule ∈ vocabulary ∧ request.core = oneofCore oneof := by
    simp [oneofRequests, vocabulary]
  intro request inside
  obtain ⟨listed, core⟩ := cores request inside
  exact ⟨listed, core ▸ spelled_oneofCore spelled⟩

theorem caseRequests_proper {oneof : Oneof} {members : List Field} (own : Spelled oneof.name)
    (others : ∀ member ∈ members, Spelled member.name) :
    ∀ request ∈ caseRequests oneof members, request.Proper := by
  have core := spelled_oneofCore own
  rw [caseRequests, List.forall_mem_cons, List.forall_mem_map]
  refine ⟨⟨by simp [vocabulary], spelled_append.mpr ⟨core, by decide⟩⟩, fun member inside => ?_⟩
  refine ⟨by simp [vocabulary, caseRequest], ?_⟩
  exact spelled_append.mpr ⟨spelled_append.mpr ⟨core, by decide⟩, others member inside⟩

theorem caseRequests_bare {oneof : Oneof} (starts : startsWithLetter (oneofCore oneof) = true)
    (members : List Field) :
    ∀ core ∈ bareCores (caseRequests oneof members), startsWithLetter core = true := by
  refine (forall_bareCores fun core => startsWithLetter core = true).mpr ?_
  rw [caseRequests, List.forall_mem_cons, List.forall_mem_map]
  refine ⟨fun _ => startsWithLetter_append starts _, fun member inside _ => ?_⟩
  exact startsWithLetter_append (startsWithLetter_append starts _) _

/-- **The names of the fields and oneofs of a message**, with the values of the case types, are
identifiers exactly if the names of the fields and oneofs in the schema have a letter before all
digits. -/
theorem claimNames_legalFrom {message : MessageType} {scope : Scope}
    {names : List FieldNames × List OneofNames}
    (fields : ∀ field ∈ message.fields, Spelled field.name)
    (oneofs : ∀ oneof ∈ message.oneofs, Spelled oneof.name)
    (reserved : keywords ⊆ scope.taken) (unempty : "" ∉ scope.taken)
    (claimed : (claimNames message).resultIn scope = .ok names) :
    LegalFrom (message.fields.map Field.name ++ message.oneofs.map oneofCore)
      (derivedNames names.1 names.2 ++ names.2.flatMap OneofNames.valueNames) := by
  obtain ⟨⟨final, granted⟩, -, values⟩ := claimNames_grants claimed
  have proper : ∀ request ∈ messageRequests message, request.Proper := by
    rw [messageRequests, List.forall_mem_append, List.forall_mem_flatMap, List.forall_mem_flatMap]
    exact ⟨fun field inside => fieldRequests_proper (fields field inside),
      fun oneof inside => oneofRequests_proper (oneofs oneof inside)⟩
  have cores : bareCores (messageRequests message) =
      message.fields.map Field.name ++ message.oneofs.map oneofCore := by
    rw [messageRequests, bareCores_append, bareCores_flatMap, bareCores_flatMap]
    simp only [fieldRequests_bare, oneofRequests_bare]
    rw [← List.map_eq_flatMap, ← List.map_eq_flatMap]
  have legal := granted.legalFrom proper reserved unempty
  rw [cores] at legal
  -- The values have a scope of their own for each case type, and start as their oneof does.
  refine legal.absorb (LegalFrom.flatMap
    (fun item => bareCores (caseRequests item.1 (message.oneofMembers item.2))) _ values ?_) ?_
  · rintro item numbered names ⟨first, last, claimed⟩
    obtain ⟨-, ⟨final, granted⟩, -⟩ := oneofNames_granted claimed
    refine granted.legalFrom (caseRequests_proper ?_ fun member belongs => ?_) (List.Subset.refl _)
      (by decide)
    · exact oneofs item.1 (List.fst_mem_of_mem_zipIdx numbered)
    · exact fields member (List.mem_filter.mp belongs).1
  · intro start
    rw [List.forall_mem_append, List.forall_mem_map, List.forall_mem_map] at start
    rw [List.forall_mem_flatMap]
    intro item numbered
    exact caseRequests_bare (start.2 item.1 (List.fst_mem_of_mem_zipIdx numbered)) _

/-! ### Classes -/

/-- Members that are no types declare one name each. -/
theorem flatMap_allNames {members : List Member}
    (typeless : ∀ member ∈ members, member.type? = none) :
    members.flatMap Member.allNames = members.map Member.name := by
  induction members with
  | nil => rfl
  | cons member rest ih =>
    rw [List.forall_mem_cons] at typeless
    rw [List.flatMap_cons, ih typeless.2, List.map_cons]
    cases member with
    | item visibility comment declared => rw [Member.allNames]; rfl
    | nestedType visibility comment declared => exact absurd typeless.1 (Option.some_ne_none _)

theorem fieldDeclarations_allNames (plan : FieldPlan) :
    (plan.declarations.flatMap Member.allNames).Perm plan.names.all := by
  have typeless : (plan.declarations.all fun member => member.type?.isNone) = true := by
    dsimp only [FieldPlan.declarations]
    cases plan.names.presence with
    | none => rfl
    | some presence => rfl
  rw [flatMap_allNames fun member inside =>
    Option.isNone_iff_eq_none.mp (List.all_eq_true.mp typeless member inside)]
  exact fieldDeclarations_names plan

/-- A oneof declares the names that it takes, and the values of its case type. -/
theorem oneofDeclarations_allNames (plan : OneofPlan) :
    (plan.declarations.flatMap Member.allNames).Perm (plan.names.all ++ plan.names.valueNames) := by
  have split : plan.declarations.flatMap Member.allNames =
      plan.names.caseType :: (plan.names.valueNames ++
        [plan.names.backing, plan.names.getter, plan.names.setter, plan.names.property]) := by
    rw [← caseEnum_names]
    simp [OneofPlan.declarations, Member.allNames, TypeDeclaration.allNames,
      EnumDeclaration.allNames, plainMember, Item.name, OneofNames.getterMethod,
      OneofNames.setterMethod, getterMethod, setterMethod, OneofNames.caseEnum]
  rw [split]
  refine List.Perm.cons _ (List.perm_append_comm.trans ?_)
  refine List.Perm.append_right _ (List.Perm.cons _ ?_)
  exact List.perm_append_singleton plan.names.property [plan.names.getter, plan.names.setter]

/-- **The names that the fields and oneofs of a class declare**, at any depth: those that they take, and
the values of the case types. -/
theorem derivedMembers_allNames {plan : ClassPlan} {className : String} {scope : Scope}
    {message : MessageType} (covers : plan.Covers className scope message) :
    ((plan.flatMapSlots FieldPlan.declarations OneofPlan.declarations).flatMap Member.allNames).Perm
      (derivedNames (plan.fields.map FieldPlan.names) (plan.oneofs.map OneofPlan.names) ++
        (plan.oneofs.map OneofPlan.names).flatMap OneofNames.valueNames) := by
  refine ((flatMapSlots_perm covers.slots_perm _ _).flatMap_right _).trans ?_
  rw [List.flatMap_append, List.flatMap_assoc, List.flatMap_assoc, derivedNames, List.append_assoc,
    List.flatMap_map, List.flatMap_map, List.flatMap_map]
  refine (List.Perm.flatMap_left _ fun field _ => fieldDeclarations_allNames field).append ?_
  exact (List.Perm.flatMap_left _ fun oneof _ => oneofDeclarations_allNames oneof).trans
    (List.flatMap_append_perm _ _ _).symm

theorem typeMembers_allNames (parts : ClassParts) :
    parts.typeMembers.flatMap Member.allNames =
      parts.enums.flatMap EnumDeclaration.allNames ++ parts.nested.map MessageClass.name ++
        parts.nested.flatMap fun generated => generated.declaration.allNames := by
  rw [ClassParts.typeMembers, nestedMembers, List.flatMap_append, List.flatMap_append,
    List.flatMap_map, List.flatMap_map, List.flatMap_map, List.map_eq_flatMap]
  simp only [Member.allNames, TypeDeclaration.allNames]

theorem lifecycleMembers_allNames (parts : ClassParts) :
    parts.lifecycleMembers.flatMap Member.allNames = lifecycleNames := by
  rw [flatMap_allNames, ← declaredNames_lifecycleMembers parts, declaredNames_eq_map]
  · intro member inside
    exact isForward_eq_false (lifecycleMembers_classless parts member inside)
  · intro member inside
    obtain ⟨method, -, rfl⟩ := List.mem_map.mp inside
    rfl

/-- The names of the methods that every class has are legal. -/
theorem lifecycleNames_legalFrom : LegalFrom [] lifecycleNames :=
  ⟨by decide +kernel, iff_of_true (by decide) (by simp)⟩

section

variable {parts : ClassParts} {context : Context} {place : Place} {message : MessageType}

/-- The scope in which the fields and oneofs of a class take their names has no empty name, since the
names of types are never empty. -/
theorem memberNamesScope_unempty (of : parts.PartsOf context place message) :
    "" ∉ (memberNamesScope parts.enums parts.nested).taken := by
  have own : "" ∉ classScope.taken := by decide
  intro taken
  rcases List.mem_append.mp taken with early | nested
  · exact own early
  · obtain ⟨member, inside, empty⟩ := List.mem_map.mp nested
    obtain ⟨source, -, named⟩ :=
      exists_left_of_forall₂ (typeNames_identifiers of) (typeMembers_name inside)
    have head := typeIdentifier_head named
    rw [empty] at head
    cases head

theorem keywords_subset_memberNamesScope (enums : List EnumDeclaration) (nested : List MessageClass) :
    keywords ⊆ (memberNamesScope enums nested).taken := by
  intro keyword inside
  exact List.mem_append_left _ (List.mem_append_left _ (List.mem_append_left _ inside))

end

theorem assemble_allNames (parts : ClassParts) (shownName : String) :
    (parts.assemble shownName).declaration.allNames =
      parts.identifier :: (parts.enums.flatMap EnumDeclaration.allNames ++
        parts.nested.map MessageClass.name ++
        (parts.nested.flatMap fun generated => generated.declaration.allNames) ++
        parts.derivedMembers.flatMap Member.allNames ++ lifecycleNames) := by
  rw [← typeMembers_allNames, ← lifecycleMembers_allNames parts, ← List.flatMap_append,
    ← List.flatMap_append, ← ClassParts.members, ← Member.listNames_eq]
  simp only [ClassParts.assemble, MessageClass.declaration, TypeDeclaration.allNames]

theorem classNames_legalFrom {context : Context} {place : Place} {messages : List MessageType}
    {classes : List MessageClass}
    (made : List.Forall₂ (fun message generated =>
      (generateMessage context place message).result = .ok generated) messages classes)
    (spelled : ∀ message ∈ messages, Spelled message.name) :
    LegalFrom [] (classes.map MessageClass.name) := by
  have named : List.Forall₂ (fun name identifier => typeIdentifier name = .ok identifier)
      (messages.map MessageType.name) (classes.map MessageClass.name) := by
    rw [List.forall₂_map_left_iff, List.forall₂_map_right_iff]
    exact made.imp fun _ _ => generateMessage_name
  exact typeIdentifiers_legalFrom named (List.forall_mem_map.mpr spelled)

/-- **The names that the class of a message declares**, at any depth, are identifiers exactly if the
names in the message that get no fixed text have a letter before all digits. -/
theorem generateMessage_legalFrom {context : Context} (message : MessageType) :
    ∀ (place : Place) (generated : MessageClass),
      (∀ inner ∈ message.tree, ∀ name ∈ inner.givenNames, Spelled name) →
      (generateMessage context place message).result = .ok generated →
      LegalFrom (message.tree.flatMap MessageType.bareNames) generated.declaration.allNames := by
  induction message using nested_induction with
  | step message ih =>
    intro place generated given success
    obtain ⟨parts, found, -, rfl⟩ := generateMessage_eq_ok.mp success
    have of := classParts_eq_ok.mp found
    rw [MessageType.tree_eq, List.forall_mem_cons, List.forall_mem_flatMap] at given
    obtain ⟨own, deeper⟩ := given
    rw [MessageType.givenNames, List.forall_mem_cons, List.forall_mem_append, List.forall_mem_append,
      List.forall_mem_map, List.forall_mem_map, List.forall_mem_flatMap] at own
    obtain ⟨name, ⟨fields, oneofs⟩, enums⟩ := own
    have inner_names : ∀ inner ∈ message.nestedMessages, Spelled inner.name := fun inner inside =>
      deeper inner inside inner inner.mem_tree_self inner.name (List.mem_cons_self ..)
    -- The names that begin with a fixed text, and after them those that decide.
    have fixed := (typeIdentifier_legalFrom name of.identifier).append
      ((classNames_legalFrom of.nested inner_names).append lifecycleNames_legalFrom)
    have derived := claimNames_legalFrom fields oneofs
      (keywords_subset_memberNamesScope parts.enums parts.nested) (memberNamesScope_unempty of)
      (make_claims of.planned)
    have values := LegalFrom.flatMap _ EnumDeclaration.allNames (mapM_eq_ok.mp of.enums)
      fun enumType inside _ => enumDeclaration_legalFrom (enums enumType inside)
    have nested := LegalFrom.flatMap _ (fun generated => generated.declaration.allNames) of.nested
      fun inner inside _ made => ih inner inside _ _ (deeper inner inside) made
    rw [MessageType.tree_eq, List.flatMap_cons, MessageType.bareNames, List.flatMap_assoc]
    refine (((derived.append values).append nested).absorb fixed (by simp)).of_mem_iff fun name => ?_
    rw [assemble_allNames]
    simp only [List.mem_append, List.mem_cons, List.not_mem_nil, ClassParts.derivedMembers,
      (derivedMembers_allNames of.covers).mem_iff, false_or, or_comm, or_left_comm, or_assoc]

end Message

/-! ### Units -/

section

variable {files : List Schema.File} {index : TypeIndex} {runtime : Runtime} {file : Schema.File}
  {unit : CodeUnit} {identifier : UnitIdentifier}

theorem unitTypes_legalFrom {declarations : List EnumDeclaration}
    {classes : List Message.MessageClass}
    (parts : UnitParts index runtime file unit identifier declarations classes)
    (given : ∀ name ∈ file.givenNames, Spelled name) :
    LegalFrom ((file.enums.flatMap fun enumType => enumType.values.map EnumValue.name) ++
        (MessageType.trees file.messages).flatMap MessageType.bareNames)
      (unit.types.flatMap TypeDeclaration.allNames) := by
  rw [Schema.File.givenNames, List.forall_mem_cons, List.forall_mem_append, List.forall_mem_append,
    List.forall_mem_flatMap, List.forall_mem_flatMap, MessageType.trees_eq, List.forall_mem_flatMap]
    at given
  obtain ⟨-, ⟨-, enums⟩, messages⟩ := given
  have enum_names := LegalFrom.flatMap _ EnumDeclaration.allNames parts.declared
    fun enumType inside _ => enumDeclaration_legalFrom (enums enumType inside)
  have announced := Message.classNames_legalFrom parts.made fun message inside =>
    messages message inside message message.mem_tree_self message.name (List.mem_cons_self ..)
  have class_names := LegalFrom.flatMap _ (fun generated => generated.declaration.allNames)
    parts.made fun message inside _ made =>
      Message.generateMessage_legalFrom message _ _ (messages message inside) made
  rw [MessageType.trees_eq, List.flatMap_assoc]
  refine ((enum_names.append class_names).absorb announced (by simp)).of_mem_iff fun name => ?_
  rw [parts.types, unitTypes, List.flatMap_append, List.flatMap_append, List.flatMap_map,
    List.flatMap_map, List.flatMap_map, List.map_eq_flatMap]
  simp only [TypeDeclaration.allNames, List.mem_append, or_comm, or_left_comm, or_assoc]

/-- The segments of a namespace are no reserved words. One is an identifier exactly if the name from
which it is made is one in the style of Pascal. -/
theorem segments_isIdentifier_iff (named : UnitIdentifier.ofFile file = .ok identifier) :
    (∀ segment ∈ identifier.segments, Unreserved segment) ∧
    ((∀ segment ∈ identifier.segments, isIdentifier segment = true) ↔
      ∀ core ∈ namespaceCores file, isIdentifier (CaseStyle.pascal.apply core) = true) := by
  have regular : Rule.namespaceSegment.Regular := by decide
  obtain ⟨generated, -⟩ := ofFile_eq_ok.mp named
  constructor
  · intro segment inside
    obtain ⟨core, -, made⟩ := exists_left_of_forall₂ generated inside
    exact fold_ne_of_generate rfl made
  · exact (forall_mem_iff_of_forall₂ generated fun core segment made =>
      (isIdentifier_of_bare rfl regular (by decide) made).symm).symm

/-- The segments of a namespace consist of letters, digits and underscores, unless they stand for
directories. -/
theorem spelled_segments (named : UnitIdentifier.ofFile file = .ok identifier)
    (given : ∀ core ∈ file.packageSegments, Spelled core) :
    ∀ segment ∈ identifier.segments, Spelled segment ∨ ∃ directory ∈ file.namespaceDirectories,
      keywordScope.generate .namespaceSegment [] directory = .ok segment := by
  obtain ⟨generated, -⟩ := ofFile_eq_ok.mp named
  intro segment inside
  obtain ⟨core, listed, made⟩ := exists_left_of_forall₂ generated inside
  rw [namespaceCores_eq, List.mem_append] at listed
  rcases listed with part | directory
  · exact .inl (spelled_of_generate (by decide) (given core part) made)
  · exact .inr ⟨core, directory, made⟩

theorem unitName_legalFrom (named : UnitIdentifier.ofFile file = .ok identifier)
    (given : Spelled file.stem) : LegalFrom [] [identifier.name] :=
  .of_lead (by simp [vocabulary]) (by decide) given (List.Subset.refl _) (ofFile_eq_ok.mp named).2

/-- The names of a unit are the segments of its namespace, its own name, and the names of its types. -/
theorem allNames_eq {declarations : List EnumDeclaration} {classes : List Message.MessageClass}
    (parts : UnitParts index runtime file unit identifier declarations classes)
    (named : UnitIdentifier.ofFile file = .ok identifier) :
    CodeUnit.allNames unit =
      identifier.segments ++ [identifier.name] ++ unit.types.flatMap TypeDeclaration.allNames := by
  have undotted := notMem_of_ofFile isDivider_dot (by decide) named
  rw [CodeUnit.allNames, parts.name, UnitIdentifier.fullName_eq,
    pieces_join identifier.path_ne_nil undotted]
  rfl

/-- **When all names of a unit are legal.** If the names of a file are identifiers, no name of its unit
is a reserved word, and all of them consist of letters, digits and underscores, unless they stand for
directories. But a name that gets no fixed text loses the underscores at its start. So all names are
identifiers exactly if each of these names has a letter before all digits, and each directory is an
identifier in the style of Pascal. -/
theorem declared_names_legal_iff (built : TypeIndex.build files = .ok index)
    (distinct : (files.map Schema.File.name).Nodup) (inside : file ∈ files)
    (given : ∀ name ∈ file.givenNames, isIdentifier name = true)
    (generated : (generateUnit index runtime file).result = .ok unit) :
    (∀ name ∈ CodeUnit.allNames unit, Unreserved name ∧
      (Spelled name ∨ ∃ directory ∈ file.namespaceDirectories,
        keywordScope.generate .namespaceSegment [] directory = .ok name)) ∧
    ((∀ name ∈ CodeUnit.allNames unit, isIdentifier name = true ∧ Unreserved name) ↔
      (∀ name ∈ file.bareNames, startsWithLetter name = true) ∧
      ∀ directory ∈ file.namespaceDirectories,
        isIdentifier (CaseStyle.pascal.apply directory) = true) := by
  obtain ⟨identifier, declarations, classes, parts⟩ := generateUnit_parts generated
  have named := ofFile_of_unit built distinct inside parts.known
  have spelled : ∀ name ∈ file.givenNames, Spelled name := fun name listed =>
    (isIdentifier_iff.mp (given name listed)).1
  have types := unitTypes_legalFrom parts spelled
  have own := unitName_legalFrom named (spelled file.stem (List.mem_cons_self ..))
  have package : ∀ core ∈ file.packageSegments, Spelled core := by
    intro core listed
    refine spelled core (List.mem_cons_of_mem _ ?_)
    exact List.mem_append_left _ (List.mem_append_left _ listed)
  have others := own.append types
  rw [List.nil_append] at others
  obtain ⟨unreserved, identifiers⟩ := segments_isIdentifier_iff named
  have all_unreserved : ∀ name ∈ CodeUnit.allNames unit, Unreserved name := by
    rw [allNames_eq parts named, List.append_assoc, List.forall_mem_append]
    exact ⟨unreserved, fun name listed => (others.spelled name listed).2⟩
  refine ⟨fun name listed => ⟨all_unreserved name listed, ?_⟩, ?_⟩
  · rw [allNames_eq parts named, List.append_assoc, List.mem_append] at listed
    rcases listed with segment | other
    · exact spelled_segments named package name segment
    · exact .inl (others.spelled name other).1
  · have each : (∀ name ∈ CodeUnit.allNames unit, isIdentifier name = true ∧ Unreserved name) ↔
        ∀ name ∈ CodeUnit.allNames unit, isIdentifier name = true :=
      forall₂_congr fun name listed => and_iff_left (all_unreserved name listed)
    have segments : (∀ core ∈ file.packageSegments,
          isIdentifier (CaseStyle.pascal.apply core) = true) ↔
        ∀ core ∈ file.packageSegments, startsWithLetter core = true :=
      forall₂_congr fun core listed => isIdentifier_apply_pascal (package core listed)
    rw [each, allNames_eq parts named, List.append_assoc, List.forall_mem_append, identifiers,
      others.identifiers, namespaceCores_eq, Schema.File.bareNames, List.append_assoc]
    simp only [List.forall_mem_append, segments]
    exact and_right_comm

end

/-- A file with names that are reserved words behind underscores, and with names that start with digits
or have only underscores where a fixed text comes before them. -/
def letteredFile : Schema.File :=
  { name := "plans/_unit.proto"
    package := some "type._v2"
    messages := [{
      name := "_1st"
      fields := [{ name := "_end", number := 1, type := .scalar .int32, oneofIndex := some 0 }]
      oneofs := [{ name := "__of" }]
      nestedEnums := [{
        name := "_"
        values := [{ name := "_begin", number := 0 }, { name := "x_1", number := 1 }] }] }] }

/-- All names of the unit of this file are legal. -/
theorem lettered_names_legal :
    ∃ index unit, TypeIndex.build [letteredFile] = .ok index ∧
      (generateUnit index .reference letteredFile).result = .ok unit ∧
      (∀ name ∈ letteredFile.givenNames, isIdentifier name = true) ∧
      ∀ name ∈ CodeUnit.allNames unit, isIdentifier name = true ∧ Unreserved name := by
  have evaluated : (do
      let index ← TypeIndex.build [letteredFile]
      let unit ← (generateUnit index .reference letteredFile).result
      return unit.types.length) = .ok 2 := by
    decide +kernel
  obtain ⟨index, built, evaluated⟩ := bind_eq_ok.mp evaluated
  obtain ⟨unit, generated, -⟩ := bind_eq_ok.mp evaluated
  have given : ∀ name ∈ letteredFile.givenNames, isIdentifier name = true := by decide +kernel
  have legal := (declared_names_legal_iff built (List.nodup_singleton _) (List.mem_singleton_self _)
    given generated).2
  exact ⟨index, unit, built, generated, given, legal.mpr (by decide +kernel)⟩

/-! ### A number for a name -/

/-- An enumeration with a value whose name has only a digit behind its underscore. -/
def numberedLevel : Schema.FileDescriptor :=
  { name := some "sample.proto"
    enums := [{ name := some "Level", values := [{ name := some "ZERO", number := some 0 },
      { name := some "_1", number := some 1 }] }]
    languageVersion := some "proto3" }

/-- **A digit behind an underscore is declared as a name.** The file is accepted and its names are
identifiers, and its unit is generated, with a value whose name is a number. -/
theorem digits_after_underscore_declared :
    ∃ file index unit, Schema.File.ofDescriptor numberedLevel = .ok file ∧
      (∀ name ∈ file.givenNames, isIdentifier name = true) ∧
      TypeIndex.build [file] = .ok index ∧
      (generateUnit index .reference file).result = .ok unit ∧
      CodeUnit.allNames unit = ["uSample", "TLevel", "Zero", "1"] ∧ isIdentifier "1" = false := by
  have evaluated : (do
      let file ← Schema.File.ofDescriptor numberedLevel
      let index ← TypeIndex.build [file]
      let unit ← (generateUnit index .reference file).result
      return (file.givenNames, CodeUnit.allNames unit)) =
        .ok (["sample", "Level", "ZERO", "_1"], ["uSample", "TLevel", "Zero", "1"]) := by
    decide +kernel
  obtain ⟨file, accepted, evaluated⟩ := bind_eq_ok.mp evaluated
  obtain ⟨index, built, evaluated⟩ := bind_eq_ok.mp evaluated
  obtain ⟨unit, generated, facts⟩ := bind_eq_ok.mp evaluated
  rw [pure_eq_ok, Prod.mk.injEq] at facts
  refine ⟨file, index, unit, accepted, ?_, built, generated, facts.2, by decide⟩
  rw [facts.1]
  decide

end ProtoPascal
