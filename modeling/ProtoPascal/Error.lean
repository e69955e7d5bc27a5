import ProtoPascal.Files.Fault
import ProtoPascal.Schema.FieldType
import ProtoPascal.Wire.Failure

/-!
The ways in which generation fails, and the text of each.
-/

namespace ProtoPascal

/-- What a descriptor has to give a name to. -/
inductive NamedEntity where
  | file
  | message
  | oneof
  | field
  | enumeration
  | enumValue
deriving DecidableEq, Repr

/-- The word for an entity in fault texts. -/
def NamedEntity.word : NamedEntity → String
  | .file => "file"
  | .message => "message"
  | .oneof => "oneof"
  | .field => "field"
  | .enumeration => "enum"
  | .enumValue => "enum value"

/-- A rule of schemas that a descriptor breaks. Fields are given with the message around them. -/
inductive SchemaFault where
  | unnamed (entity : NamedEntity)
  | unnamedType (field : String)
  | undeclaredOneof (field : String) (index : Int)
  | missingFromOneof (field oneof : String)
  | optionalWithoutOneof (field : String)
  | optionalSharesOneof (field : String)
  | numberNotPositive (field : String) (number : Int)
  | numberRepeated (message : String) (number : Int)
  | repeatedInOneof (field : String)
  | kindMismatch (field typeName : String) (declared actual : Schema.TypeKind)
deriving DecidableEq, Repr

/-- The text of a schema fault. -/
def SchemaFault.message : SchemaFault → String
  | .unnamed entity => entity.word ++ " without a name"
  | .unnamedType field => "field '" ++ field ++ "' references a type without a name"
  | .undeclaredOneof field index =>
    "field '" ++ field ++ "' refers to undeclared oneof " ++ toString index
  | .missingFromOneof field oneof =>
    "field '" ++ field ++ "' is missing from oneof '" ++ oneof ++ "'"
  | .optionalWithoutOneof field => "optional field '" ++ field ++ "' has no synthetic oneof"
  | .optionalSharesOneof field => "optional field '" ++ field ++ "' shares its synthetic oneof"
  | .numberNotPositive field number =>
    "field '" ++ field ++ "' has non-positive number " ++ toString number
  | .numberRepeated message number =>
    "message '" ++ message ++ "' declares field number " ++ toString number ++ " more than once"
  | .repeatedInOneof field => "repeated field '" ++ field ++ "' cannot be a oneof member"
  | .kindMismatch field typeName declared actual =>
    "field '" ++ field ++ "' declares '" ++ typeName ++ "' as " ++ declared.word
      ++ " but it is a " ++ actual.word

/-- Why generation failed. -/
inductive Error where
  /-- A name is taken, and so is the form of it that avoids collisions. -/
  | identifierCollision (kind entity identifier : String)
  /-- No code can be generated for a type with this number. -/
  | unimplementedFieldType (field : String) (number : Int)
  /-- The generator has no option with this key. -/
  | unimplementedOption (key : String)
  /-- A file is mentioned and not supplied. -/
  | missingFile (name referencedBy : String)
  /-- A type is mentioned and declared in no supplied file. -/
  | missingType (name referencedBy : String)
  /-- A descriptor breaks a rule of schemas. -/
  | invalidSchema (fault : SchemaFault)
  /-- Bytes are not an encoded message. -/
  | undecodable (failure : Wire.Failure)
  /-- A file cannot be read. -/
  | unreadable (path : String) (fault : Files.Fault)
  /-- A file or its directory cannot be written. -/
  | unwritable (path : String) (fault : Files.Fault)
deriving DecidableEq, Repr

/-- The text of an error. -/
def Error.message : Error → String
  | .identifierCollision kind entity identifier =>
    kind ++ " identifier '" ++ identifier ++ "' for '" ++ entity
      ++ "' collides even after collision avoidance"
  | .unimplementedFieldType field number =>
    "field '" ++ field ++ "' has unimplemented type " ++ toString number
  | .unimplementedOption key => "unimplemented generation option '" ++ key ++ "'"
  | .missingFile name referencedBy =>
    "schema file '" ++ name ++ "' referenced by '" ++ referencedBy ++ "' not found in request"
  | .missingType name referencedBy =>
    "type '" ++ name ++ "' referenced by '" ++ referencedBy ++ "' not found in request"
  | .invalidSchema fault => "invalid schema: " ++ fault.message
  | .undecodable failure => "failed to decode descriptor: " ++ failure.message
  | .unreadable path fault => "failed to read " ++ path ++ ": " ++ fault.message
  | .unwritable path fault => "failed to write " ++ path ++ ": " ++ fault.message

/-- The text of the error behind an error, if there is one. -/
def Error.cause? : Error → Option String
  | .undecodable failure => some failure.message
  | .unreadable _ fault => some fault.message
  | .unwritable _ fault => some fault.message
  | _ => none

end ProtoPascal
