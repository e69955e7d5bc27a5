import ProtoPascal.Proofs.DottedNames
import ProtoPascal.Proofs.Scoping
import ProtoPascal.SchemaUnit

/-!
The types that the files of a schema declare, at their places. A type is generated at the place at
which the schema declares it, and the index knows the path of identifiers that leads there.

* `Declares`: a type with a full name is declared at a site, to which a path leads;
* `leads_of_declares`: in the generated unit the path leads to the site;
* `class_of_holdsMessage`: the class at the site of a message is that of the message;
* `forall₂_scopeSites`: the entries of a scope stand in the order of a walk over its types;
* `build_eq_ok`: the index holds the entries of the files, one file after the other;
* `build_entries`: the entries of the index are the types of the files, with their paths;
* `build_indexes`: the index knows nothing but declared types.
-/

namespace ProtoPascal

open Message Naming Pascal
open Schema (EnumType MessageType)

/-! ### Declarations -/

/-- A type with a full name is declared at a site in a scope, as an enumeration, as a message or
inside a message. The path has the identifiers of the type and of the messages around it. -/
inductive Declares : String → List EnumType → List MessageType → Site → List String → String → Prop
  | enumeration {scope : String} {enums : List EnumType} {messages : List MessageType}
      {position : Nat} {enumType : EnumType} {identifier : String}
      (found : enums[position]? = some enumType)
      (named : typeIdentifier enumType.name = .ok identifier) :
      Declares scope enums messages [position] [identifier]
        (Schema.qualifiedName scope enumType.name)
  | message {scope : String} {enums : List EnumType} {messages : List MessageType}
      {position : Nat} {message : MessageType} {identifier : String}
      (found : messages[position]? = some message)
      (named : typeIdentifier message.name = .ok identifier) :
      Declares scope enums messages [enums.length + position] [identifier]
        (Schema.qualifiedName scope message.name)
  | nested {scope fullName : String} {enums : List EnumType} {messages : List MessageType}
      {position : Nat} {message : MessageType} {identifier : String} {site : Site}
      {path : List String} (found : messages[position]? = some message)
      (named : typeIdentifier message.name = .ok identifier)
      (deeper : Declares (Schema.qualifiedName scope message.name) message.nestedEnums
        message.nestedMessages site path fullName) :
      Declares scope enums messages ((enums.length + position) :: site) (identifier :: path) fullName

/-- A file among others declares a type with a full name. -/
def DeclaredAt (files : List Schema.File) (position : Nat) (site : Site) (path : List String)
    (fullName : String) : Prop :=
  ∃ file, files[position]? = some file ∧
    Declares file.scope file.enums file.messages site path fullName

/-- No two types have one full name. -/
def DistinctTypes (files : List Schema.File) : Prop :=
  ∀ fullName position site path position' site' path',
    DeclaredAt files position site path fullName →
      DeclaredAt files position' site' path' fullName → position = position' ∧ site = site'

theorem Declares.segments {scope fullName : String} {enums : List EnumType}
    {messages : List MessageType} {site : Site} {path : List String}
    (declares : Declares scope enums messages site path fullName) :
    ∀ segment ∈ path, ∃ name, typeIdentifier name = .ok segment := by
  induction declares with
  | enumeration _ named => exact List.forall_mem_singleton.mpr ⟨_, named⟩
  | message _ named => exact List.forall_mem_singleton.mpr ⟨_, named⟩
  | nested _ named _ ih => exact List.forall_mem_cons.mpr ⟨⟨_, named⟩, ih⟩

theorem Declares.undotted {scope fullName : String} {enums : List EnumType}
    {messages : List MessageType} {site : Site} {path : List String}
    (declares : Declares scope enums messages site path fullName) :
    ∀ segment ∈ path, Text.Undotted segment := fun segment inside =>
  (declares.segments segment inside).elim fun _ => undotted_of_typeIdentifier

theorem Declares.path_ne_nil {scope fullName : String} {enums : List EnumType}
    {messages : List MessageType} {site : Site} {path : List String}
    (declares : Declares scope enums messages site path fullName) : path ≠ [] := by
  cases declares <;> exact List.cons_ne_nil _ _

theorem Declares.length_eq {scope fullName : String} {enums : List EnumType}
    {messages : List MessageType} {site : Site} {path : List String}
    (declares : Declares scope enums messages site path fullName) :
    site.length = path.length := by
  induction declares with
  | enumeration | message => rfl
  | nested _ _ _ ih => rw [List.length_cons, List.length_cons, ih]

/-- A message at a place is at a site of a scope. -/
inductive HoldsMessage : Place → List EnumType → List MessageType → Site → Place → MessageType → Prop
  | here {place : Place} {enums : List EnumType} {messages : List MessageType} {position : Nat}
      {message : MessageType} (found : messages[position]? = some message) :
      HoldsMessage place enums messages [enums.length + position] place message
  | nested {place place' : Place} {enums : List EnumType} {messages : List MessageType}
      {position : Nat} {message message' : MessageType} {identifier : String} {site : Site}
      (found : messages[position]? = some message)
      (named : typeIdentifier message.name = .ok identifier)
      (deeper : HoldsMessage (place.inside message identifier) message.nestedEnums
        message.nestedMessages site place' message') :
      HoldsMessage place enums messages ((enums.length + position) :: site) place' message'

/-- An enumeration or a message of a schema. -/
inductive SchemaType where
  | enumeration (declared : EnumType)
  | message (declared : MessageType)

def SchemaType.name : SchemaType → String
  | .enumeration declared => declared.name
  | .message declared => declared.name

def SchemaType.kind : SchemaType → Schema.TypeKind
  | .enumeration _ => .enumeration
  | .message _ => .message

/-- The fully qualified name of a type at a place. -/
def SchemaType.fullName (type : SchemaType) (place : Place) : String :=
  Schema.qualifiedName place.scope type.name

/-- A type at a place is at a site of a scope. -/
inductive HoldsType : Place → List EnumType → List MessageType → Site → Place → SchemaType → Prop
  | enumeration {place : Place} {enums : List EnumType} {messages : List MessageType}
      {position : Nat} {enumType : EnumType} (found : enums[position]? = some enumType) :
      HoldsType place enums messages [position] place (.enumeration enumType)
  | message {place : Place} {enums : List EnumType} {messages : List MessageType}
      {position : Nat} {message : MessageType} (found : messages[position]? = some message) :
      HoldsType place enums messages [enums.length + position] place (.message message)
  | nested {place place' : Place} {enums : List EnumType} {messages : List MessageType}
      {position : Nat} {message : MessageType} {type : SchemaType} {identifier : String} {site : Site}
      (found : messages[position]? = some message)
      (named : typeIdentifier message.name = .ok identifier)
      (deeper : HoldsType (place.inside message identifier) message.nestedEnums
        message.nestedMessages site place' type) :
      HoldsType place enums messages ((enums.length + position) :: site) place' type

/-! ### Generated types -/

/-- Enumerations have declarations. -/
abbrev EnumsDeclared (enums : List EnumType) (declarations : List EnumDeclaration) : Prop :=
  List.Forall₂ (fun enumType declaration => enumDeclaration enumType = .ok declaration) enums
    declarations

/-- Messages at a place have classes. -/
abbrev ClassesMade (context : Context) (place : Place) (messages : List MessageType)
    (classes : List MessageClass) : Prop :=
  List.Forall₂ (fun message result => (generateMessage context place message).result = .ok result)
    messages classes

/-- The names of enumerations and classes. -/
def typeEntries (enums : List EnumDeclaration) (classes : List MessageClass) : Names :=
  enums.map (fun declaration => (declaration.name, some (.enumType declaration)))
    ++ classes.map fun generated => (generated.name, some generated.declaration)

theorem typeNames_unitTypes (enums : List EnumDeclaration) (classes : List MessageClass) :
    typeNames (unitTypes enums classes) = typeEntries enums classes := by
  simp [typeNames, unitTypes, typeEntries, List.filter_append, List.filter_map, Function.comp_def,
    TypeDeclaration.isForward, TypeDeclaration.name, MessageClass.declaration]

/-- A class has the names of its nested types before all others. -/
theorem memberNames_parts (parts : ClassParts) :
    memberNames parts.members = typeEntries parts.enums parts.nested ++
      memberNames (parts.derivedMembers ++ parts.lifecycleMembers) := by
  have types : memberNames parts.typeMembers = typeEntries parts.enums parts.nested := by
    simp [memberNames, ClassParts.typeMembers, nestedMembers, typeEntries, List.filter_append,
      List.filter_map, Function.comp_def, Member.isForward, Member.name, Member.type?,
      TypeDeclaration.name, MessageClass.declaration]
  rw [← types, ClassParts.members, List.append_assoc]
  simp only [memberNames, List.filter_append, List.map_append]

theorem names_assemble (parts : ClassParts) (shownName : String) :
    (parts.assemble shownName).declaration.names = memberNames parts.members := rfl

theorem map_fst_memberNames (members : List Member) :
    (memberNames members).map Prod.fst = declaredNames members := by
  rw [memberNames, List.map_map]
  rfl

section

variable {context : Context} {place : Place} {enums : List EnumType} {messages : List MessageType}
  {declarations : List EnumDeclaration} {classes : List MessageClass}

/-- The enumeration at a position is at its place among the names of types. -/
theorem typeEntries_enumeration (declared : EnumsDeclared enums declarations)
    {position : Nat} {enumType : EnumType} (found : enums[position]? = some enumType)
    (rest : Names) :
    ∃ declaration, enumDeclaration enumType = .ok declaration ∧
      (typeEntries declarations classes ++ rest)[position]? =
        some (declaration.name, some (.enumType declaration)) := by
  obtain ⟨declaration, declaration_found, success⟩ := exists_left_getElem? declared.flip found
  refine ⟨declaration, success, ?_⟩
  have below := (List.getElem?_eq_some_iff.mp declaration_found).1
  rw [typeEntries, List.append_assoc, List.getElem?_append_left (by rwa [List.length_map]),
    List.getElem?_map, declaration_found, Option.map_some]

/-- The class of the message at a position is at its place among the names of types. -/
theorem typeEntries_class (declared : EnumsDeclared enums declarations)
    (generated : ClassesMade context place messages classes)
    {position : Nat} {message : MessageType} (found : messages[position]? = some message)
    (rest : Names) :
    ∃ parts, classParts context place message = .ok parts ∧
      Apart (declaredNames parts.members) ∧
      (typeEntries declarations classes ++ rest)[enums.length + position]? =
        some (parts.identifier, some (parts.assemble (place.shownName message)).declaration) := by
  obtain ⟨result, result_found, success⟩ := exists_left_getElem? generated.flip found
  obtain ⟨parts, made, apart, rfl⟩ := generateMessage_eq_ok.mp success
  refine ⟨parts, made, apart, ?_⟩
  have inside : (typeEntries declarations classes)[enums.length + position]? =
      some (parts.identifier, some (parts.assemble (place.shownName message)).declaration) := by
    rw [typeEntries, declared.length_eq, List.getElem?_append_right (by simp),
      List.length_map, Nat.add_sub_cancel_left, List.getElem?_map, result_found]
    rfl
  rw [List.getElem?_append_left (List.getElem?_eq_some_iff.mp inside).1, inside]

/-- **In generated code the path of a declared type leads to its site.** -/
theorem leads_of_declares {scope fullName : String} {site : Site} {path : List String}
    (declares : Declares scope enums messages site path fullName)
    (declared : EnumsDeclared enums declarations)
    (generated : ClassesMade context place messages classes) (rest : Names) :
    Leads (typeEntries declarations classes ++ rest) path site := by
  -- Each step of the path is one class further in; there, members follow the entries of the types.
  induction declares generalizing place declarations classes rest with
  | enumeration found named =>
    obtain ⟨declaration, success, inside⟩ := typeEntries_enumeration declared found rest
    cases Except.ok.inj ((enumDeclaration_name success).symm.trans named)
    exact .inside inside List.nodup_nil .here
  | message found named =>
    obtain ⟨parts, made, apart, inside⟩ := typeEntries_class declared generated found rest
    cases Except.ok.inj ((classParts_eq_ok.mp made).identifier.symm.trans named)
    refine .inside inside ?_ .here
    exact (map_fst_memberNames parts.members).symm ▸ apart
  | nested found named deeper ih =>
    obtain ⟨parts, made, apart, inside⟩ := typeEntries_class declared generated found rest
    have of := classParts_eq_ok.mp made
    cases Except.ok.inj (of.identifier.symm.trans named)
    refine .inside inside ((map_fst_memberNames parts.members).symm ▸ apart) ?_
    rw [names_assemble, memberNames_parts]
    exact ih (mapM_eq_ok.mp of.enums) of.nested _

/-- **The class at the site of a message is that of the message.** -/
theorem class_of_holdsMessage {site : Site} {place' : Place} {message : MessageType}
    (holds : HoldsMessage place enums messages site place' message)
    (declared : EnumsDeclared enums declarations)
    (generated : ClassesMade context place messages classes) :
    ∃ parts, classParts context place' message = .ok parts ∧ ∀ rest outer,
      ((typeEntries declarations classes ++ rest).enclosing outer site).head? =
        some (outer ++ site, memberNames parts.members) := by
  induction holds generalizing declarations classes with
  | here found =>
    obtain ⟨parts, made, -, -⟩ := typeEntries_class declared generated found []
    refine ⟨parts, made, fun rest outer => ?_⟩
    obtain ⟨parts', made', -, inside⟩ := typeEntries_class declared generated found rest
    cases Except.ok.inj (made.symm.trans made')
    rw [Names.enclosing, inside]
    rfl
  | nested found named deeper ih =>
    obtain ⟨outerParts, outerMade, -, -⟩ := typeEntries_class declared generated found []
    have of := classParts_eq_ok.mp outerMade
    cases Except.ok.inj (of.identifier.symm.trans named)
    obtain ⟨parts, made, first⟩ := ih (mapM_eq_ok.mp of.enums) of.nested
    refine ⟨parts, made, fun rest outer => ?_⟩
    obtain ⟨parts', made', -, inside⟩ := typeEntries_class declared generated found rest
    cases Except.ok.inj (outerMade.symm.trans made')
    rw [Names.enclosing, inside]
    dsimp only
    rw [names_assemble, memberNames_parts, List.head?_append, first, Option.some_or, List.append_assoc]
    rfl

end

/-! ### Entries -/

/-- The classes around a type as the index names them. -/
def outerName : List String → Option String
  | [] => none
  | outer => some (Text.join "." outer)

theorem nestedIn_outerName (outer : List String) (identifier : String) :
    nestedIn (outerName outer) identifier = Text.join "." (outer ++ [identifier]) := by
  cases outer with
  | nil => rfl
  | cons first rest =>
    rw [Text.join_append (List.cons_ne_nil _ _) (List.cons_ne_nil _ _)]
    rfl

theorem outerName_concat (outer : List String) (identifier : String) :
    outerName (outer ++ [identifier]) = some (Text.join "." (outer ++ [identifier])) := by
  cases outer <;> rfl

/-- A type whose identifier is known is declared at its site. The path has the identifiers from the
scope on. -/
theorem HoldsType.declares {place place' : Place} {enums : List EnumType}
    {messages : List MessageType} {site : Site} {type : SchemaType}
    (holds : HoldsType place enums messages site place' type) {outer : List String}
    (within : place.parentClass = outerName outer) {identifier : String}
    (named : typeIdentifier type.name = .ok identifier) :
    ∃ path, Declares place.scope enums messages site path (type.fullName place') ∧
      nestedIn place'.parentClass identifier = Text.join "." (outer ++ path) := by
  induction holds generalizing outer with
  | enumeration found =>
    refine ⟨_, .enumeration found named, ?_⟩
    rw [within, nestedIn_outerName]
  | message found =>
    refine ⟨_, .message found named, ?_⟩
    rw [within, nestedIn_outerName]
  | @nested place _ _ _ _ message _ outerIdentifier _ found outer_named deeper ih =>
    have inside : (place.inside message outerIdentifier).parentClass =
        outerName (outer ++ [outerIdentifier]) := by
      rw [Place.inside, within, nestedIn_outerName, outerName_concat]
    obtain ⟨path, declares, localName⟩ := ih inside named
    refine ⟨outerIdentifier :: path, .nested found outer_named declares, ?_⟩
    rw [localName, List.append_assoc, List.singleton_append]

/-- The entry of a type at a place. -/
def entryOf (unit : String) (place : Place) (type : SchemaType) :
    Except Error (String × ResolvedType) := do
  let identifier ← typeIdentifier type.name
  return (type.fullName place,
    { kind := type.kind, unit, localName := nestedIn place.parentClass identifier })

theorem entryOf_eq_ok {unit : String} {place : Place} {type : SchemaType}
    {entry : String × ResolvedType} :
    entryOf unit place type = .ok entry ↔ ∃ identifier, typeIdentifier type.name = .ok identifier ∧
      entry = (type.fullName place, ⟨type.kind, unit, nestedIn place.parentClass identifier⟩) := by
  rw [entryOf, bind_eq_ok]
  refine exists_congr fun identifier => and_congr_right fun _ => ?_
  rw [pure_eq_ok, eq_comm]

theorem messageListEntries_eq_ok {unit scope : String} {parent : Option String}
    {messages : List MessageType} {entries : List (String × ResolvedType)} :
    messageListEntries unit scope parent messages = .ok entries ↔
      ∃ each, List.Forall₂ (fun message own => messageEntries unit scope parent message = .ok own)
        messages each ∧ entries = each.flatten := by
  induction messages generalizing entries with
  | nil =>
    rw [messageListEntries]
    constructor
    · intro listed
      exact ⟨[], .nil, (Except.ok.inj listed).symm⟩
    · rintro ⟨each, related, rfl⟩
      cases related
      rfl
  | cons message rest ih =>
    rw [messageListEntries]
    constructor
    · intro listed
      obtain ⟨first, first_listed, listed⟩ := bind_eq_ok.mp listed
      obtain ⟨others, others_listed, listed⟩ := bind_eq_ok.mp listed
      obtain ⟨each, related, rfl⟩ := ih.mp others_listed
      exact ⟨first :: each, .cons first_listed related, (pure_eq_ok.mp listed).symm⟩
    · rintro ⟨each, related, rfl⟩
      cases related with
      | cons first_listed related =>
        exact bind_eq_ok.mpr ⟨_, first_listed, bind_eq_ok.mpr ⟨_, ih.mpr ⟨_, related, rfl⟩, rfl⟩⟩

/-! ### The walk over the types of a scope -/

mutual

/-- The sites of the types in a message and of the message, seen from the message, in the order of
the walk. -/
def messageSites : MessageType → List Site
  | ⟨_, _, _, nestedMessages, nestedEnums⟩ =>
    (List.range nestedEnums.length).map ([·])
      ++ messageListSites nestedEnums.length nestedMessages ++ [[]]

/-- The sites of the types of messages from a position on. -/
def messageListSites (position : Nat) : List MessageType → List Site
  | [] => []
  | message :: rest =>
    (messageSites message).map (position :: ·) ++ messageListSites (position + 1) rest

end

/-- The sites of the types of a scope in the order of the walk. -/
def scopeSites (enums : List EnumType) (messages : List MessageType) : List Site :=
  (List.range enums.length).map ([·]) ++ messageListSites enums.length messages

theorem messageSites_eq (message : MessageType) :
    messageSites message = scopeSites message.nestedEnums message.nestedMessages ++ [[]] := by
  cases message
  rw [messageSites, scopeSites]

theorem messageListSites_eq (position : Nat) (messages : List MessageType) :
    messageListSites position messages = (messages.zipIdx position).flatMap fun entry =>
      (messageSites entry.1).map (entry.2 :: ·) := by
  induction messages generalizing position with
  | nil => rw [messageListSites, List.zipIdx_nil, List.flatMap_nil]
  | cons message rest ih => rw [messageListSites, List.zipIdx_cons, List.flatMap_cons, ih]

/-- **The walk comes to every type.** -/
theorem mem_scopeSites {place place' : Place} {enums : List EnumType} {messages : List MessageType}
    {site : Site} {type : SchemaType}
    (holds : HoldsType place enums messages site place' type) : site ∈ scopeSites enums messages := by
  have ofMessage {enums : List EnumType} {messages : List MessageType} {position : Nat}
      {message : MessageType} {rest : Site} (found : messages[position]? = some message)
      (inside : rest ∈ messageSites message) :
      (enums.length + position) :: rest ∈ scopeSites enums messages := by
    refine List.mem_append_right _ ?_
    rw [messageListSites_eq]
    refine List.mem_flatMap.mpr ⟨(message, enums.length + position), ?_, List.mem_map_of_mem inside⟩
    exact List.mk_add_mem_zipIdx_iff_getElem?.mpr found
  induction holds with
  | enumeration found =>
    refine List.mem_append_left _ (List.mem_map.mpr ⟨_, List.mem_range.mpr ?_, rfl⟩)
    exact (List.getElem?_eq_some_iff.mp found).1
  | message found =>
    refine ofMessage found ?_
    rw [messageSites_eq]
    exact List.mem_append_right _ (List.mem_singleton_self _)
  | nested found _ _ ih =>
    refine ofMessage found ?_
    rw [messageSites_eq]
    exact List.mem_append_left _ ih

theorem holdsType_cons {place place' : Place} {enums : List EnumType} {messages : List MessageType}
    {position : Nat} {rest : Site} {type : SchemaType}
    (holds : HoldsType place enums messages (position :: rest) place' type) :
    (∃ enumType, enums[position]? = some enumType ∧ place' = place ∧
      type = .enumeration enumType ∧ rest = []) ∨
    ∃ index message, position = enums.length + index ∧ messages[index]? = some message ∧
      (place' = place ∧ type = .message message ∧ rest = [] ∨ ∃ identifier,
        typeIdentifier message.name = .ok identifier ∧
          HoldsType (place.inside message identifier) message.nestedEnums message.nestedMessages
            rest place' type) := by
  cases holds with
  | enumeration found => exact .inl ⟨_, found, rfl, rfl, rfl⟩
  | message found => exact .inr ⟨_, _, rfl, found, .inl ⟨rfl, rfl, rfl⟩⟩
  | nested found named deeper => exact .inr ⟨_, _, rfl, found, .inr ⟨_, named, deeper⟩⟩

/-- A site that starts at the position of a message holds this message or what is inside it. -/
theorem holdsType_of_message {place place' : Place} {enums : List EnumType}
    {messages : List MessageType} {index : Nat} {message : MessageType} {rest : Site}
    {type : SchemaType} (found : messages[index]? = some message)
    (holds : HoldsType place enums messages ((enums.length + index) :: rest) place' type) :
    place' = place ∧ type = .message message ∧ rest = [] ∨ ∃ identifier,
      typeIdentifier message.name = .ok identifier ∧
        HoldsType (place.inside message identifier) message.nestedEnums message.nestedMessages
          rest place' type := by
  rcases holdsType_cons holds with ⟨_, isEnum, -⟩ | ⟨index', _, same, found', way⟩
  · have below := (List.getElem?_eq_some_iff.mp isEnum).1
    exact absurd below (Nat.not_lt.mpr (Nat.le_add_right _ _))
  · cases Nat.add_left_cancel same
    cases found.symm.trans found'
    exact way

theorem holdsType_site_ne_nil {place place' : Place} {enums : List EnumType}
    {messages : List MessageType} {site : Site} {type : SchemaType}
    (holds : HoldsType place enums messages site place' type) : site ≠ [] := by
  cases holds <;> exact List.cons_ne_nil _ _

theorem HoldsType.unique {place place' place'' : Place} {enums : List EnumType}
    {messages : List MessageType} {site : Site} {type type' : SchemaType}
    (holds : HoldsType place enums messages site place' type)
    (other : HoldsType place enums messages site place'' type') :
    place'' = place' ∧ type' = type := by
  induction holds with
  | enumeration found =>
    rcases holdsType_cons other with ⟨_, found', rfl, rfl, -⟩ | ⟨index, _, rfl, -, -⟩
    · cases found.symm.trans found'
      exact ⟨rfl, rfl⟩
    · have below := (List.getElem?_eq_some_iff.mp found).1
      exact absurd below (Nat.not_lt.mpr (Nat.le_add_right _ _))
  | message found =>
    rcases holdsType_of_message found other with ⟨rfl, rfl, -⟩ | ⟨_, -, deeper⟩
    · exact ⟨rfl, rfl⟩
    · exact absurd rfl (holdsType_site_ne_nil deeper)
  | nested found named deeper ih =>
    rcases holdsType_of_message found other with ⟨-, -, rfl⟩ | ⟨_, named', deeper'⟩
    · exact absurd rfl (holdsType_site_ne_nil deeper)
    · cases Except.ok.inj (named.symm.trans named')
      exact ih deeper'

/-- An entry is that of the type at a site of a scope. -/
def EntryAt (unit : String) (place : Place) (enums : List EnumType) (messages : List MessageType)
    (site : Site) (entry : String × ResolvedType) : Prop :=
  ∃ place' type, HoldsType place enums messages site place' type ∧
    entryOf unit place' type = .ok entry

/-- An entry is that of a message or of the type at a site in it. -/
def EntryWithin (unit : String) (place : Place) (message : MessageType) (site : Site)
    (entry : String × ResolvedType) : Prop :=
  (site = [] ∧ entryOf unit place (.message message) = .ok entry) ∨ ∃ identifier,
    typeIdentifier message.name = .ok identifier ∧
      EntryAt unit (place.inside message identifier) message.nestedEnums message.nestedMessages site
        entry

/-- The entries of a message are those at its sites. -/
def ListedInOrder (unit : String) (place : Place) (message : MessageType) : Prop :=
  ∀ own, messageEntries unit place.scope place.parentClass message = .ok own →
    List.Forall₂ (EntryWithin unit place message) (messageSites message) own

theorem EntryAt.unique {unit : String} {place : Place} {enums : List EnumType}
    {messages : List MessageType} {site : Site} {entry entry' : String × ResolvedType}
    (here : EntryAt unit place enums messages site entry)
    (other : EntryAt unit place enums messages site entry') : entry = entry' := by
  obtain ⟨place', type, holds, made⟩ := here
  obtain ⟨place'', type', holds', made'⟩ := other
  obtain ⟨rfl, rfl⟩ := holds.unique holds'
  exact Except.ok.inj (made.symm.trans made')

/-- An entry is that of a type that a scope holds. -/
def EntryIn (unit : String) (place : Place) (enums : List EnumType) (messages : List MessageType)
    (entry : String × ResolvedType) : Prop :=
  ∃ site place' type, HoldsType place enums messages site place' type ∧
    entryOf unit place' type = .ok entry

section

variable {unit : String} (place : Place) {enums : List EnumType} {messages : List MessageType}
  {ofEnums ofMessages : List (String × ResolvedType)}
  (enums_listed : enums.mapM (enumEntry unit place.scope place.parentClass) = .ok ofEnums)
  (messages_listed :
    messageListEntries unit place.scope place.parentClass messages = .ok ofMessages)
include enums_listed messages_listed

/-- The entries of a scope stand in the order of the walk, if this is so for its messages. -/
theorem forall₂_scopeSites_of_messages
    (each : ∀ message ∈ messages, ListedInOrder unit place message) :
    List.Forall₂ (EntryAt unit place enums messages) (scopeSites enums messages)
      (ofEnums ++ ofMessages) := by
  refine List.rel_append ?_ ?_
  · rw [List.forall₂_map_left_iff]
    exact forall₂_range (mapM_eq_ok.mp enums_listed) fun position enumType entry found made =>
      ⟨_, _, .enumeration found, made⟩
  · obtain ⟨lists, related, rfl⟩ := messageListEntries_eq_ok.mp messages_listed
    rw [messageListSites_eq]
    refine forall₂_flatMap_zipIdx related enums.length fun index message own found listed => ?_
    rw [List.forall₂_map_left_iff]
    refine (each message (List.mem_of_getElem? found) own listed).imp fun site entry within => ?_
    rcases within with ⟨rfl, made⟩ | ⟨identifier, named, place', type, holds, made⟩
    · exact ⟨_, _, .message found, made⟩
    · exact ⟨_, _, .nested found named holds, made⟩

omit enums_listed messages_listed in
/-- The induction is on the messages nested in each other. -/
theorem listedInOrder (message : MessageType) : ListedInOrder unit place message := by
  induction message using nested_induction generalizing place
  next message ih =>
  intro own listed
  obtain ⟨name, fields, oneofs, nestedMessages, nestedEnums⟩ := message
  rw [messageEntries] at listed
  obtain ⟨identifier, named, listed⟩ := bind_eq_ok.mp listed
  obtain ⟨enumEntries, enums_listed, listed⟩ := bind_eq_ok.mp listed
  obtain ⟨nestedEntries, messages_listed, listed⟩ := bind_eq_ok.mp listed
  rw [pure_eq_ok] at listed
  subst listed
  have deeper := forall₂_scopeSites_of_messages
    (place.inside ⟨name, fields, oneofs, nestedMessages, nestedEnums⟩ identifier) enums_listed
    messages_listed fun inner inside => ih inner inside _
  rw [messageSites_eq]
  refine List.rel_append (deeper.imp fun site entry here => .inr ⟨identifier, named, here⟩) ?_
  exact .cons (.inl ⟨rfl, entryOf_eq_ok.mpr ⟨identifier, named, rfl⟩⟩) .nil

/-- **The entries of a scope stand in the order of the walk.** -/
theorem forall₂_scopeSites :
    List.Forall₂ (EntryAt unit place enums messages) (scopeSites enums messages)
      (ofEnums ++ ofMessages) :=
  forall₂_scopeSites_of_messages place enums_listed messages_listed
    fun message _ => listedInOrder place message

/-- **The entries of a scope are those of the types that it holds.** -/
theorem mem_entries_iff (entry : String × ResolvedType) :
    entry ∈ ofEnums ++ ofMessages ↔ EntryIn unit place enums messages entry := by
  have listed := forall₂_scopeSites place enums_listed messages_listed
  constructor
  · intro inside
    obtain ⟨site, -, here⟩ := exists_left_of_forall₂ listed inside
    exact ⟨site, here⟩
  · rintro ⟨site, place', type, holds, made⟩
    obtain ⟨other, inside, there⟩ := exists_left_of_forall₂ listed.flip (mem_scopeSites holds)
    rwa [EntryAt.unique ⟨place', type, holds, made⟩ there]

end

/-! ### The index of files -/

/-- What the index says of the types of a file. -/
structure Indexes (file : Schema.File) (fullName : String) (resolved : ResolvedType)
    (identifier : UnitIdentifier) (site : Site) (path : List String) : Prop where
  named : UnitIdentifier.ofFile file = .ok identifier
  declares : Declares file.scope file.enums file.messages site path fullName
  unit : resolved.unit = identifier.fullName
  localName : resolved.localName = Text.join "." path

/-- An entry of the index is that of a type of a file. -/
def EntryOfFile (file : Schema.File) (entry : String × ResolvedType) : Prop :=
  ∃ identifier, UnitIdentifier.ofFile file = .ok identifier ∧
    EntryIn identifier.fullName ⟨file.scope, none⟩ file.enums file.messages entry

/-- The index of one file. -/
def TypeIndex.ofFile (file : Schema.File) : Except Error TypeIndex :=
  TypeIndex.addFile {} file

/-- The index of a file holds its unit, and the types that it declares. -/
theorem TypeIndex.ofFile_eq_ok {own : TypeIndex} {file : Schema.File} :
    TypeIndex.ofFile file = .ok own ↔ ∃ identifier enums messages,
      UnitIdentifier.ofFile file = .ok identifier ∧
      file.enums.mapM (enumEntry identifier.fullName file.scope none) = .ok enums ∧
      messageListEntries identifier.fullName file.scope none file.messages = .ok messages ∧
      own = ⟨[(file.name, identifier)], enums ++ messages⟩ := by
  simp only [TypeIndex.ofFile, TypeIndex.addFile, bind_eq_ok, pure_eq_ok, List.nil_append]
  constructor
  · rintro ⟨identifier, named, enums, enums_listed, messages, messages_listed, rfl⟩
    exact ⟨identifier, enums, messages, named, enums_listed, messages_listed, rfl⟩
  · rintro ⟨identifier, enums, messages, named, enums_listed, messages_listed, rfl⟩
    exact ⟨identifier, named, enums, enums_listed, messages, messages_listed, rfl⟩

/-- The index with the entries of another one after its own. -/
def TypeIndex.append (index other : TypeIndex) : TypeIndex :=
  { units := index.units ++ other.units, types := index.types ++ other.types }

/-- What a file adds to an index does not depend on the index. -/
theorem addFile_eq_ok {index next : TypeIndex} {file : Schema.File} :
    index.addFile file = .ok next ↔
      ∃ own, TypeIndex.ofFile file = .ok own ∧ next = index.append own := by
  simp only [TypeIndex.ofFile_eq_ok, TypeIndex.addFile, bind_eq_ok, pure_eq_ok, List.append_assoc]
  constructor
  · rintro ⟨identifier, named, enums, enums_listed, messages, messages_listed, rfl⟩
    exact ⟨_, ⟨identifier, enums, messages, named, enums_listed, messages_listed, rfl⟩, rfl⟩
  · rintro ⟨_, ⟨identifier, enums, messages, named, enums_listed, messages_listed, rfl⟩, rfl⟩
    exact ⟨identifier, named, enums, enums_listed, messages, messages_listed, rfl⟩

/-- **The index holds the entries of the files**, one file after the other. -/
theorem build_eq_ok {files : List Schema.File} {index : TypeIndex} :
    TypeIndex.build files = .ok index ↔
      ∃ owns, List.Forall₂ (fun file own => TypeIndex.ofFile file = .ok own) files owns ∧
        index = ⟨owns.flatMap TypeIndex.units, owns.flatMap TypeIndex.types⟩ := by
  -- The entries of the files follow those of the index before the first file.
  have run (start : TypeIndex) : files.foldlM TypeIndex.addFile start = .ok index ↔
      ∃ owns, List.Forall₂ (fun file own => TypeIndex.ofFile file = .ok own) files owns ∧
        index = start.append ⟨owns.flatMap TypeIndex.units, owns.flatMap TypeIndex.types⟩ := by
    induction files generalizing start with
    | nil =>
      simp only [List.foldlM_nil, pure_eq_ok, List.forall₂_nil_left_iff, exists_eq_left,
        List.flatMap_nil, TypeIndex.append, List.append_nil]
      exact eq_comm
    | cons file rest ih =>
      simp only [List.foldlM_cons, bind_eq_ok, addFile_eq_ok, ih, List.forall₂_cons_left_iff]
      constructor
      · rintro ⟨_, ⟨own, added, rfl⟩, owns, others, rfl⟩
        refine ⟨own :: owns, ⟨own, owns, added, others, rfl⟩, ?_⟩
        simp only [TypeIndex.append, List.flatMap_cons, List.append_assoc]
      · rintro ⟨_, ⟨own, owns, added, others, rfl⟩, rfl⟩
        refine ⟨_, ⟨own, added, rfl⟩, owns, others, ?_⟩
        simp only [TypeIndex.append, List.flatMap_cons, List.append_assoc]
  exact run {}

theorem ofFile_entries {own : TypeIndex} {file : Schema.File}
    (added : TypeIndex.ofFile file = .ok own) :
    (∀ entry, entry ∈ own.units ↔
      entry.1 = file.name ∧ UnitIdentifier.ofFile file = .ok entry.2) ∧
    ∀ entry, entry ∈ own.types ↔ EntryOfFile file entry := by
  obtain ⟨identifier, enums, messages, named, enums_listed, messages_listed, rfl⟩ :=
    TypeIndex.ofFile_eq_ok.mp added
  refine ⟨fun entry => ?_, fun entry => ?_⟩
  · rw [List.mem_singleton, named, Except.ok.injEq, Prod.ext_iff, eq_comm (a := identifier)]
  · have listed : entry ∈ enums ++ messages ↔
        EntryIn identifier.fullName ⟨file.scope, none⟩ file.enums file.messages entry :=
      mem_entries_iff ⟨file.scope, none⟩ enums_listed messages_listed entry
    rw [listed]
    refine ⟨fun inside => ⟨identifier, named, inside⟩, ?_⟩
    rintro ⟨identifier', named', inside⟩
    cases Except.ok.inj (named.symm.trans named')
    exact inside

/-- **The index knows the units of the files and the types that they declare.** -/
theorem build_entries {files : List Schema.File} {index : TypeIndex}
    (built : TypeIndex.build files = .ok index) :
    (∀ entry, entry ∈ index.units ↔ ∃ file ∈ files,
      entry.1 = file.name ∧ UnitIdentifier.ofFile file = .ok entry.2) ∧
    ∀ entry, entry ∈ index.types ↔ ∃ file ∈ files, EntryOfFile file entry := by
  obtain ⟨owns, added, rfl⟩ := build_eq_ok.mp built
  clear built
  dsimp only
  induction added with
  | nil => simp
  | cons first _ ih =>
    obtain ⟨units, types⟩ := ofFile_entries first
    refine ⟨fun entry => ?_, fun entry => ?_⟩
    · rw [List.flatMap_cons, List.mem_append, units, ih.1, List.exists_mem_cons_iff]
    · rw [List.flatMap_cons, List.mem_append, types, ih.2, List.exists_mem_cons_iff]

/-- The entry of a type of a file says where the type is declared. -/
theorem EntryOfFile.indexes {file : Schema.File} {entry : String × ResolvedType}
    (entryOf : EntryOfFile file entry) :
    ∃ identifier site path, Indexes file entry.1 entry.2 identifier site path := by
  obtain ⟨identifier, named, site, place, type, holds, made⟩ := entryOf
  obtain ⟨typeIdentifier, type_named, rfl⟩ := entryOf_eq_ok.mp made
  have top : (Place.mk file.scope none).parentClass = outerName [] := rfl
  obtain ⟨path, declares, localName⟩ := holds.declares top type_named
  exact ⟨identifier, site, path, named, declares, rfl, localName⟩

/-- **The index knows the units of the files and nothing but types that they declare.** -/
theorem build_indexes {files : List Schema.File} {index : TypeIndex}
    (built : TypeIndex.build files = .ok index) :
    (∀ entry ∈ index.units, ∃ file ∈ files,
      entry.1 = file.name ∧ UnitIdentifier.ofFile file = .ok entry.2) ∧
    ∀ entry ∈ index.types, ∃ file ∈ files, ∃ identifier site path,
      Indexes file entry.1 entry.2 identifier site path := by
  obtain ⟨units, types⟩ := build_entries built
  refine ⟨fun entry inside => (units entry).mp inside, fun entry inside => ?_⟩
  obtain ⟨file, file_inside, entryOf⟩ := (types entry).mp inside
  exact ⟨file, file_inside, entryOf.indexes⟩

theorem mem_of_lastUnder {α : Type} {key : String} {entries : List (String × α)} {value : α}
    (found : lastUnder key entries = some value) : (key, value) ∈ entries := by
  obtain ⟨before, after, split, -⟩ := List.lookup_eq_some_iff.mp found
  have inside : (key, value) ∈ entries.reverse :=
    split ▸ List.mem_append_right _ (List.mem_cons_self ..)
  exact List.mem_reverse.mp inside

/-- The unit of a file is what the index knows under the name of the file. -/
theorem unit_eq_ok {index : TypeIndex} {name referencedBy : String} {identifier : UnitIdentifier} :
    index.unit name referencedBy = .ok identifier ↔ lastUnder name index.units = some identifier := by
  unfold TypeIndex.unit
  cases lastUnder name index.units <;> simp

/-- What the index knows under the name of a type is what it resolves the name to. -/
theorem resolve_eq_ok {index : TypeIndex} {typeName referencedBy : String} {resolved : ResolvedType} :
    index.resolve typeName referencedBy = .ok resolved ↔
      lastUnder typeName index.types = some resolved := by
  unfold TypeIndex.resolve
  cases lastUnder typeName index.types <;> simp

theorem exists_lastUnder {α : Type} {key : String} {entries : List (String × α)} {value : α}
    (inside : (key, value) ∈ entries) : ∃ last, lastUnder key entries = some last := by
  refine Option.ne_none_iff_exists'.mp fun missing => ?_
  have different := List.lookup_eq_none_iff.mp missing _ (List.mem_reverse.mpr inside)
  simp at different

end ProtoPascal
