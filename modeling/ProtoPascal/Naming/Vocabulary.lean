import ProtoPascal.Naming.Scope

/-!
The vocabulary of generated units: the words that Pascal keeps for itself, the members and types
that every message class has from its ancestors, and a naming rule for each kind of identifier that
a unit declares.
-/

namespace ProtoPascal.Naming

/-! ## Naming rules -/

/-- The private fields that hold values: `FMaxSpeed`. -/
def Rule.backingField : Rule := { kind := "backing field", lead := "F" }

/-- The properties that show values: `MaxSpeed`. -/
def Rule.property : Rule := { kind := "property" }

/-- The functions that read properties: `GetMaxSpeed`. -/
def Rule.getter : Rule := { kind := "getter", lead := "Get" }

/-- The procedures that write properties: `SetMaxSpeed`. -/
def Rule.setter : Rule := { kind := "setter", lead := "Set" }

/-- The properties that tell whether a field is present: `HasMaxSpeed`. -/
def Rule.presence : Rule := { kind := "presence property", lead := "Has" }

/-- The functions that read presence properties: `GetHasMaxSpeed`. -/
def Rule.presenceGetter : Rule := { kind := "presence getter", lead := "GetHas" }

/-- The procedures that write presence properties: `SetHasMaxSpeed`. -/
def Rule.presenceSetter : Rule := { kind := "presence setter", lead := "SetHas" }

/-- The constants that hold field numbers: `PROTOBUF_FIELD_NUMBER_MAX_SPEED`. -/
def Rule.fieldNumber : Rule :=
  { kind := "field number constant", lead := "PROTOBUF_FIELD_NUMBER_", style := .screamingSnake }

/-- The constants that hold field names: `PROTOBUF_FIELD_NAME_MAX_SPEED`. -/
def Rule.fieldName : Rule :=
  { kind := "field name constant", lead := "PROTOBUF_FIELD_NAME_", style := .screamingSnake }

/-- The classes of messages and the enumerations: `TVehicle`. -/
def Rule.typeName : Rule := { kind := "type", lead := "T" }

/-- The enumerations of the members of a oneof: `TChoiceCase`. -/
def Rule.caseType : Rule := { kind := "oneof case type", lead := "T", trail := "Case" }

/-- The values of the enumerations of the members of a oneof: `ChoiceCaseNone`. -/
def Rule.caseValue : Rule := { kind := "oneof case value" }

/-- The values of enumerations: `ColorRed`. -/
def Rule.enumValue : Rule := { kind := "enum value" }

/-- The names of units without their namespaces: `uVehicle`. -/
def Rule.unitName : Rule := { kind := "unit", lead := "u" }

/-- The segments of the namespaces of units: `Vehicles`. -/
def Rule.namespaceSegment : Rule := { kind := "namespace segment" }

/-! ## Rules to which other rules yield -/

/-- The shapes that a property name must not have. -/
def propertyColliding : List Rule :=
  [.backingField, .getter, .setter, .presence, .presenceGetter, .presenceSetter, .typeName]

/-- The shapes that a getter name must not have. -/
def getterColliding : List Rule := [.presenceGetter]

/-- The shapes that a setter name must not have. -/
def setterColliding : List Rule := [.presenceSetter]

/-- The shapes that a type name must not have. -/
def typeColliding : List Rule := [.caseType]

/-! ## Reserved identifiers -/

/-- The reserved words of Pascal. -/
def keywords : List String := [
  "and", "array", "as", "asm", "begin", "case", "class", "const", "constructor",
  "destructor", "dispinterface", "div", "do", "downto", "else", "end", "except", "exports",
  "file", "finalization", "finally", "for", "function", "goto", "if", "implementation", "in",
  "inherited", "initialization", "inline", "interface", "is", "label", "library", "mod", "nil",
  "not", "object", "of", "operator", "or", "out", "packed", "procedure", "program", "property",
  "raise", "record", "repeat", "resourcestring", "set", "shl", "shr", "string", "then",
  "threadvar", "to", "try", "type", "unit", "until", "uses", "var", "while", "with", "xor"]

/-- The members that every message class declares or has from its ancestors, and the names that
method bodies use for the result and the instance. -/
def messageMembers : List String := [
  "Create", "Destroy", "Free", "Clear", "Encode", "Decode", "MergeFrom", "Assign", "AssignTo",
  "ClearOwnFields", "MergeFromOwnFields", "AssignOwnFields", "HasUnparsedField",
  "EncodeAsSingularField", "DecodeAsUnknownSingularField", "DefineProperties", "GetNamePath",
  "ClassName", "ClassNameIs", "ClassType", "ClassParent", "ClassInfo", "InstanceSize",
  "InheritsFrom", "MethodAddress", "MethodName", "QualifiedClassName", "UnitName", "Equals",
  "GetHashCode", "ToString", "Dispatch", "FieldAddress", "AfterConstruction", "BeforeDestruction",
  "DefaultHandler", "NewInstance", "FreeInstance", "CleanupInstance", "InitInstance",
  "GetInterface", "DisposeOf", "Result", "Self"]

/-- The type names that generated types must not hide. -/
def reservedTypes : List String := [
  "TObject", "TClass", "TPersistent", "TStream", "TBytes", "TList", "TComponent",
  "TInterfacedObject", "TProtobufMessage", "TProtobufRepeatedField",
  "TProtobufRepeatedMessageField", "TProtobufEnumFieldValue", "TProtobufFieldNumber"]

/-- The scope in which the reserved words are taken. -/
def keywordScope : Scope := ⟨keywords⟩

/-- The scope of identifiers inside a class, without the reserved types. -/
def memberScope : Scope := keywordScope.extend messageMembers

/-- The scope with which a message class starts. -/
def classScope : Scope := memberScope.extend reservedTypes

/-- The scope of type names. -/
def typeScope : Scope := keywordScope.extend reservedTypes

/-- The Pascal name of a message or enumeration, without the classes around it. -/
def typeIdentifier (name : String) : Except Error String :=
  typeScope.generate .typeName typeColliding name

end ProtoPascal.Naming
