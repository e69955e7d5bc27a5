import ProtoPascal.UnitIdentifier

/-!
The index of all supplied files: the unit that belongs to each file, and for each declared type the
unit and the path of classes by which it is known. Where two files or two types have one name, the
later entry counts.
-/

namespace ProtoPascal

open Schema (EnumType MessageType TypeKind)

/-- Where a declared type is found in the generated units. -/
structure ResolvedType where
  kind : TypeKind
  /-- The unit that declares the type. -/
  unit : String
  /-- The type with the classes around it. -/
  localName : String
deriving DecidableEq, Repr

/-- The name of a type as a unit writes it: the path inside the unit that declares the type, and
the unit in front of it everywhere else. -/
def ResolvedType.referenceFrom (resolved : ResolvedType) (unit : String) : String :=
  if resolved.unit = unit then resolved.localName
  else resolved.unit ++ "." ++ resolved.localName

/-- The name of a type with the class around it, if there is one. -/
def nestedIn (parent : Option String) (identifier : String) : String :=
  match parent with
  | some className => className ++ "." ++ identifier
  | none => identifier

/-- The units and types of all supplied files, in the order in which they were found. -/
structure TypeIndex where
  units : List (String × UnitIdentifier) := []
  types : List (String × ResolvedType) := []
deriving DecidableEq, Repr

/-- The last value that stands under a key. -/
def lastUnder {α : Type} (key : String) (entries : List (String × α)) : Option α :=
  entries.reverse.lookup key

/-- The number of different keys. -/
def keyCount {α : Type} (entries : List (String × α)) : Nat :=
  (entries.map Prod.fst).eraseDups.length

/-- The entry of an enumeration, declared in a scope and inside a class or not. -/
def enumEntry (unit scope : String) (parent : Option String) (enumType : EnumType) :
    Except Error (String × ResolvedType) := do
  let identifier ← Naming.typeIdentifier enumType.name
  return (Schema.qualifiedName scope enumType.name,
    { kind := .enumeration, unit, localName := nestedIn parent identifier })

mutual

/-- The entries of a message: those of its enumerations, those of the messages in it, and its
own. -/
def messageEntries (unit scope : String) (parent : Option String) :
    MessageType → Except Error (List (String × ResolvedType))
  | ⟨name, _, _, nestedMessages, nestedEnums⟩ => do
    let fullName := Schema.qualifiedName scope name
    let localName := nestedIn parent (← Naming.typeIdentifier name)
    let enums ← nestedEnums.mapM (enumEntry unit fullName (some localName))
    let messages ← messageListEntries unit fullName (some localName) nestedMessages
    return enums ++ messages ++ [(fullName, { kind := .message, unit, localName })]

/-- The entries of a list of messages. -/
def messageListEntries (unit scope : String) (parent : Option String) :
    List MessageType → Except Error (List (String × ResolvedType))
  | [] => .ok []
  | message :: rest => do
    let first ← messageEntries unit scope parent message
    let others ← messageListEntries unit scope parent rest
    return first ++ others

end

/-- The index with the unit and the types of one more file. -/
def TypeIndex.addFile (index : TypeIndex) (file : Schema.File) : Except Error TypeIndex := do
  let identifier ← UnitIdentifier.ofFile file
  let enums ← file.enums.mapM (enumEntry identifier.fullName file.scope none)
  let messages ← messageListEntries identifier.fullName file.scope none file.messages
  return { units := index.units ++ [(file.name, identifier)],
           types := index.types ++ enums ++ messages }

/-- The index of a list of files. -/
def TypeIndex.build (files : List Schema.File) : Except Error TypeIndex :=
  files.foldlM TypeIndex.addFile {}

/-- The unit of a file. -/
def TypeIndex.unit (index : TypeIndex) (name referencedBy : String) :
    Except Error UnitIdentifier :=
  match lastUnder name index.units with
  | some identifier => .ok identifier
  | none => .error (.missingFile name referencedBy)

/-- The place of a declared type. -/
def TypeIndex.resolve (index : TypeIndex) (typeName referencedBy : String) :
    Except Error ResolvedType :=
  match lastUnder typeName index.types with
  | some resolved => .ok resolved
  | none => .error (.missingType typeName referencedBy)

end ProtoPascal
