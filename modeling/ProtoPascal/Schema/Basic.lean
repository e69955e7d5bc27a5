import ProtoPascal.Schema.FieldType
import ProtoPascal.Text.Pieces

/-!
Schemas: files of messages and enumerations. A message holds its nested types, and a field refers
to its oneof by the position of the oneof in the message.
-/

namespace ProtoPascal.Schema

/-- A value of an enumeration. -/
structure EnumValue where
  name : String
  number : Int
deriving DecidableEq, Repr

/-- An enumeration. -/
structure EnumType where
  name : String
  values : List EnumValue := []
deriving DecidableEq, Repr

/-- A group of fields of which at most one holds a value. A synthetic oneof has one member, an
optional field, whose presence it records. -/
structure Oneof where
  name : String
  synthetic : Bool := false
deriving DecidableEq, Repr

/-- A field of a message. An optional field belongs to a synthetic oneof. -/
structure Field where
  name : String
  number : Int
  type : FieldType
  repeated : Bool := false
  oneofIndex : Option Nat := none
  proto3Optional : Bool := false
deriving DecidableEq, Repr

/-- A message with the types declared in it. -/
structure MessageType where
  name : String
  fields : List Field := []
  oneofs : List Oneof := []
  nestedMessages : List MessageType := []
  nestedEnums : List EnumType := []
deriving Repr

/-- A file with the names of the files on which it depends. -/
structure File where
  name : String
  package : Option String := none
  dependencies : List String := []
  messages : List MessageType := []
  enums : List EnumType := []
deriving Repr

/-- The members of the oneof at a position, in the order of their declaration. -/
def MessageType.oneofMembers (message : MessageType) (index : Nat) : List Field :=
  message.fields.filter fun field => field.oneofIndex == some index

/-- The scope of the names that a package declares: the package after a dot, or nothing. -/
def packageScope : Option String → String
  | some package => "." ++ package
  | none => ""

/-- The scope of the top-level names of a file. -/
def File.scope (file : File) : String :=
  packageScope file.package

/-- The fully qualified name of what is declared in a scope. -/
def qualifiedName (scope name : String) : String :=
  scope ++ "." ++ name

/-- A name without the ending of schema files. -/
def withoutEnding (name : String) : String :=
  let ending := ".proto".toList
  let characters := name.toList
  if ending.isSuffixOf characters then
    String.ofList (characters.take (characters.length - ending.length))
  else name

/-- The name of a file without its directories and its ending. -/
def File.stem (file : File) : String :=
  withoutEnding ((Text.pieces '/' file.name).getLast?.getD file.name)

/-- The directories in the name of a file. -/
def File.directorySegments (file : File) : List String :=
  ((Text.pieces '/' file.name).filter fun segment => !segment.isEmpty).dropLast

end ProtoPascal.Schema
