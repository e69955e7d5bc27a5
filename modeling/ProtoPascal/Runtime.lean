import ProtoPascal.Error
import ProtoPascal.Pascal.Code

/-!
The runtime library that generated units use: its units, and for every type of field the Pascal
types, the wire codec and the default value that go with it. Only the namespace of the library can
be chosen; its shape is fixed.
-/

namespace ProtoPascal

open Pascal (Expr)
open Schema (FieldType ScalarType TypeKind)

/-- A runtime library, given by the namespace of its units. -/
structure Runtime where
  namespaceName : String
deriving DecidableEq, Repr

/-- The runtime library that is used when none is chosen. -/
def Runtime.reference : Runtime := ⟨"Protobuf.Delphi"⟩

/-- The full name of a unit of the library. -/
def Runtime.unit (runtime : Runtime) (name : String) : String :=
  runtime.namespaceName ++ "." ++ name

/-- The unit of what all other units share. -/
def Runtime.coreUnit (runtime : Runtime) : String := runtime.unit "uProtobuf"

/-- The unit of the ancestor of message classes. -/
def Runtime.messageUnit (runtime : Runtime) : String := runtime.unit "uProtobufMessage"

/-- The unit of the collections for repeated fields. -/
def Runtime.repeatedFieldUnit (runtime : Runtime) : String := runtime.unit "uProtobufRepeatedField"

/-- The unit of the codec for enumerations. -/
def Runtime.enumUnit (runtime : Runtime) : String := runtime.unit "uProtobufEnum"

/-- The units that every generated unit uses. -/
def Runtime.baseUnits (runtime : Runtime) : List String :=
  ["Classes", runtime.coreUnit, runtime.messageUnit]

/-- The kinds of values that generated code treats differently. -/
inductive ValueKind where
  | scalar
  | bytes
  | enumeration
  | message
deriving DecidableEq, Repr

/-- What the runtime library has for a type of field. -/
structure TypeSupport where
  /-- The type of the property. -/
  publicType : String
  /-- The type of the backing field. -/
  internalType : String
  /-- The codec of single values; messages encode themselves and have none. -/
  wireCodec : Option String
  /-- The text of the value that stands for absence. -/
  defaultValue : String
  kind : ValueKind
  /-- The units that a singular field needs. -/
  singularUnits : List String
  /-- The units that a repeated field needs. -/
  repeatedUnits : List String
deriving DecidableEq, Repr

/-- The units that a field needs. -/
def TypeSupport.units (support : TypeSupport) (repeated : Bool) : List String :=
  if repeated then support.repeatedUnits else support.singularUnits

/-- The collection class for values of a kind. -/
def collectionType (kind : ValueKind) (element : String) : String :=
  match kind with
  | .message => "TProtobufRepeatedMessageField<" ++ element ++ ">"
  | _ => "TProtobufRepeatedField<" ++ element ++ ">"

/-- The type of the property of a repeated field. -/
def TypeSupport.repeatedPublicType (support : TypeSupport) : String :=
  collectionType support.kind support.publicType

/-- The type of the backing field of a repeated field. -/
def TypeSupport.repeatedInternalType (support : TypeSupport) : String :=
  collectionType support.kind support.internalType

/-- Whether a stored value differs from the default value. -/
def TypeSupport.presenceExpression (support : TypeSupport) (value : Expr) : Expr :=
  match support.kind with
  | .message => .builtin "Assigned" [value]
  | .bytes => .parenthesized (.compare (.builtin "Length" [value]) .greater (.constant "0"))
  | .scalar | .enumeration =>
    .parenthesized (.compare value .different (.constant support.defaultValue))

/-- A stored value as the property shows it. -/
def TypeSupport.toPublic (support : TypeSupport) (value : Expr) : Expr :=
  match support.kind with
  | .enumeration => .convert support.publicType value
  | _ => value

/-- A value of the property as it is stored. -/
def TypeSupport.toInternal (support : TypeSupport) (value : Expr) : Expr :=
  match support.kind with
  | .enumeration => .builtin "Ord" [value]
  | _ => value

/-- The Pascal type of a scalar type. -/
def pascalType : ScalarType → String
  | .double => "Double"
  | .float => "Single"
  | .int32 | .sint32 | .sfixed32 => "Int32"
  | .int64 | .sint64 | .sfixed64 => "Int64"
  | .uint32 | .fixed32 => "UInt32"
  | .uint64 | .fixed64 => "UInt64"
  | .bool => "Boolean"
  | .string => "UnicodeString"
  | .bytes => "TBytes"

/-- The name of a scalar type in the names of codecs and units. -/
def codecName : ScalarType → String
  | .double => "Double"
  | .float => "Float"
  | .int32 => "Int32"
  | .int64 => "Int64"
  | .uint32 => "Uint32"
  | .uint64 => "Uint64"
  | .sint32 => "Sint32"
  | .sint64 => "Sint64"
  | .fixed32 => "Fixed32"
  | .fixed64 => "Fixed64"
  | .sfixed32 => "Sfixed32"
  | .sfixed64 => "Sfixed64"
  | .bool => "Bool"
  | .string => "String"
  | .bytes => "Bytes"

/-- The text of the default value of a scalar type. -/
def defaultText : ScalarType → String
  | .double | .float => "0.0"
  | .bool => "False"
  | .string => "''"
  | .bytes => "nil"
  | _ => "0"

/-- The support for a scalar type. -/
def Runtime.scalarSupport (runtime : Runtime) (type : ScalarType) : TypeSupport :=
  let ownUnit := runtime.unit ("uProtobuf" ++ codecName type)
  let units := if type = .bytes then ["SysUtils", ownUnit] else [ownUnit]
  { publicType := pascalType type
    internalType := pascalType type
    wireCodec := some ("gProtobufWireCodec" ++ codecName type)
    defaultValue := defaultText type
    kind := if type = .bytes then .bytes else .scalar
    singularUnits := units
    repeatedUnits := units ++ [runtime.repeatedFieldUnit] }

/-- The support for a declared type, referred to as `reference`. -/
def Runtime.referenceSupport (runtime : Runtime) (kind : TypeKind) (reference : String) :
    TypeSupport :=
  match kind with
  | .enumeration =>
    { publicType := reference
      internalType := "TProtobufEnumFieldValue"
      wireCodec := some "gProtobufWireCodecEnum"
      defaultValue := "0"
      kind := .enumeration
      singularUnits := [runtime.enumUnit]
      repeatedUnits := [runtime.enumUnit, runtime.repeatedFieldUnit] }
  | .message =>
    { publicType := reference
      internalType := reference
      wireCodec := none
      defaultValue := "nil"
      kind := .message
      singularUnits := [runtime.messageUnit]
      repeatedUnits := [runtime.messageUnit, runtime.repeatedFieldUnit] }

/-- The support for a type of field. A declared type needs the reference by which the unit knows
it. -/
def Runtime.support (runtime : Runtime) (type : FieldType) (reference : Option String) :
    Except Error TypeSupport :=
  match type, reference with
  | .scalar scalarType, _ => .ok (runtime.scalarSupport scalarType)
  | .reference kind _, some name => .ok (runtime.referenceSupport kind name)
  | .reference _ typeName, none => .error (.missingType typeName "field type mapping")

end ProtoPascal
