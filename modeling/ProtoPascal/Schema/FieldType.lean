import ProtoPascal.Text.Characters

/-!
The types that a field can have.
-/

namespace ProtoPascal.Schema

/-- The types of single values that are neither enumerations nor messages. -/
inductive ScalarType where
  | double
  | float
  | int32
  | int64
  | uint32
  | uint64
  | sint32
  | sint64
  | fixed32
  | fixed64
  | sfixed32
  | sfixed64
  | bool
  | string
  | bytes
deriving DecidableEq, Repr

/-- The word for a scalar type in schema files. -/
def ScalarType.word : ScalarType → String
  | .double => "double"
  | .float => "float"
  | .int32 => "int32"
  | .int64 => "int64"
  | .uint32 => "uint32"
  | .uint64 => "uint64"
  | .sint32 => "sint32"
  | .sint64 => "sint64"
  | .fixed32 => "fixed32"
  | .fixed64 => "fixed64"
  | .sfixed32 => "sfixed32"
  | .sfixed64 => "sfixed64"
  | .bool => "bool"
  | .string => "string"
  | .bytes => "bytes"

/-- The two kinds of types that a schema declares. -/
inductive TypeKind where
  | message
  | enumeration
deriving DecidableEq, Repr

/-- The word for a kind of type in fault texts. -/
def TypeKind.word : TypeKind → String
  | .message => "Message"
  | .enumeration => "Enum"

/-- The type of a field: a scalar, or a type declared somewhere in the schema and given by its
fully qualified name. -/
inductive FieldType where
  | scalar (type : ScalarType)
  | reference (kind : TypeKind) (typeName : String)
deriving DecidableEq, Repr

/-- Whether the values of a type are messages. -/
def FieldType.isMessage : FieldType → Bool
  | .reference .message _ => true
  | _ => false

/-- The name of a declared type, absent for scalars. -/
def FieldType.typeName? : FieldType → Option String
  | .scalar _ => none
  | .reference _ typeName => some typeName

/-- The word for the kind of a type in schema descriptions. -/
def FieldType.word : FieldType → String
  | .scalar type => type.word
  | .reference .message _ => "message"
  | .reference .enumeration _ => "enum"

/-- The name of a type as a schema file writes it, without the dot before fully qualified names. -/
def FieldType.protoName : FieldType → String
  | .scalar type => type.word
  | .reference _ typeName => Text.trimStart '.' typeName

end ProtoPascal.Schema
