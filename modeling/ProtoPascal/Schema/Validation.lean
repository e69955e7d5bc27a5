import ProtoPascal.Error
import ProtoPascal.Schema.Basic
import ProtoPascal.Schema.Descriptor

/-!
Schemas made from descriptors. A descriptor that breaks a rule of schemas has no schema; the error
names the first rule that is broken, in the order in which the rules are checked here.
-/

namespace ProtoPascal.Schema

/-- A name that has to be present and not empty. -/
def requiredName (entity : NamedEntity) (name : Option String) : Except Error String :=
  match name.getD "" with
  | "" => .error (.invalidSchema (.unnamed entity))
  | text => .ok text

/-- The scalar type with a given number in descriptors. -/
def ScalarType.ofNumber? : Int → Option ScalarType
  | 1 => some .double
  | 2 => some .float
  | 3 => some .int64
  | 4 => some .uint64
  | 5 => some .int32
  | 6 => some .fixed64
  | 7 => some .fixed32
  | 8 => some .bool
  | 9 => some .string
  | 12 => some .bytes
  | 13 => some .uint32
  | 15 => some .sfixed32
  | 16 => some .sfixed64
  | 17 => some .sint32
  | 18 => some .sint64
  | _ => none

/-- The kind of declared type with a given number in descriptors. -/
def TypeKind.ofNumber? : Int → Option TypeKind
  | 11 => some .message
  | 14 => some .enumeration
  | _ => none

/-- The type of a field from its number in descriptors, with the name of the type where the number
stands for declared types. -/
def FieldType.ofNumber (field : String) (number : Int) (typeName : String) :
    Except Error FieldType :=
  match ScalarType.ofNumber? number, TypeKind.ofNumber? number with
  | some type, _ => .ok (.scalar type)
  | none, some kind =>
    if typeName.isEmpty then .error (.invalidSchema (.unnamedType field))
    else .ok (.reference kind typeName)
  | none, none => .error (.unimplementedFieldType field number)

/-- The position of a oneof among those that a message declares. -/
def oneofPosition (field : String) (oneofCount : Nat) (index : Int) : Except Error Nat :=
  if 0 ≤ index ∧ index < oneofCount then .ok index.toNat
  else .error (.invalidSchema (.undeclaredOneof field index))

/-- The field that a descriptor describes, in a message with a number of oneofs. -/
def Field.ofDescriptor (messageName : String) (oneofCount : Nat) (descriptor : FieldDescriptor) :
    Except Error Field := do
  let name ← requiredName .field descriptor.name
  let qualified := qualifiedName messageName name
  let type ← FieldType.ofNumber qualified (descriptor.type.getD 0) (descriptor.typeName.getD "")
  let oneofIndex ← descriptor.oneofIndex.mapM (oneofPosition qualified oneofCount)
  let proto3Optional := descriptor.proto3Optional.getD false
  if proto3Optional && oneofIndex.isNone then
    throw (.invalidSchema (.optionalWithoutOneof qualified))
  let number := descriptor.number.getD 0
  if number ≤ 0 then
    throw (.invalidSchema (.numberNotPositive qualified number))
  return { name, number, type, repeated := descriptor.label == some 3, oneofIndex, proto3Optional }

/-- The number of fields that belong to the same oneof as a field. -/
def oneofSize (fields : List Field) (index : Nat) : Nat :=
  fields.countP fun field => field.oneofIndex == some index

/-- The rules on a field among the fields of its message: an optional field is alone in its oneof,
its number is not one of those `seen` before it, and a repeated field is in no oneof. -/
def checkField (messageName : String) (fields : List Field) (seen : List Int) (field : Field) :
    Except Error Unit := do
  let shares := match field.oneofIndex with
    | some index => field.proto3Optional && oneofSize fields index != 1
    | none => false
  if shares then
    throw (.invalidSchema (.optionalSharesOneof (qualifiedName messageName field.name)))
  if seen.contains field.number then
    throw (.invalidSchema (.numberRepeated messageName field.number))
  if field.repeated && field.oneofIndex.isSome then
    throw (.invalidSchema (.repeatedInOneof (qualifiedName messageName field.name)))

/-- The rules on each of the fields that remain, `seen` holding the numbers of those before. -/
def checkFieldsFrom (messageName : String) (fields : List Field) (seen : List Int) :
    List Field → Except Error Unit
  | [] => .ok ()
  | field :: rest => do
    checkField messageName fields seen field
    checkFieldsFrom messageName fields (field.number :: seen) rest

/-- The rules on the fields of a message. -/
def checkFields (messageName : String) (fields : List Field) : Except Error Unit :=
  checkFieldsFrom messageName fields [] fields

/-- Whether an optional field belongs to the oneof at a position. -/
def isSynthetic (fields : List Field) (index : Nat) : Bool :=
  fields.any fun field => field.proto3Optional && field.oneofIndex == some index

/-- The enumeration that a descriptor describes. -/
def EnumType.ofDescriptor (descriptor : EnumDescriptor) : Except Error EnumType := do
  let name ← requiredName .enumeration descriptor.name
  let values ← descriptor.values.mapM fun value => do
    let valueName ← requiredName .enumValue value.name
    return { name := valueName, number := value.number.getD 0 : EnumValue }
  return { name, values }

mutual

/-- The message that a descriptor describes, declared in a scope. -/
def MessageType.ofDescriptor (scope : String) : MessageDescriptor → Except Error MessageType
  | ⟨givenName, fieldDescriptors, messageDescriptors, enumDescriptors, oneofDescriptors⟩ => do
    let name ← requiredName .message givenName
    let fullName := qualifiedName scope name
    let oneofNames ← oneofDescriptors.mapM fun oneof => requiredName .oneof oneof.name
    let fields ← fieldDescriptors.mapM (Field.ofDescriptor fullName oneofNames.length)
    checkFields fullName fields
    let nestedMessages ← MessageType.ofDescriptors fullName messageDescriptors
    let nestedEnums ← enumDescriptors.mapM EnumType.ofDescriptor
    let oneofs := oneofNames.mapIdx fun index oneofName =>
      { name := oneofName, synthetic := isSynthetic fields index : Oneof }
    return { name, fields, oneofs, nestedMessages, nestedEnums }

/-- The messages that a list of descriptors describes. -/
def MessageType.ofDescriptors (scope : String) :
    List MessageDescriptor → Except Error (List MessageType)
  | [] => .ok []
  | descriptor :: rest => do
    let message ← MessageType.ofDescriptor scope descriptor
    let messages ← MessageType.ofDescriptors scope rest
    return message :: messages

end

/-- The package that a descriptor declares, absent where it is empty. -/
def declaredPackage (descriptor : FileDescriptor) : Option String :=
  descriptor.package.filter fun package => !package.isEmpty

/-- The file that a descriptor describes. -/
def File.ofDescriptor (descriptor : FileDescriptor) : Except Error File := do
  let name ← requiredName .file descriptor.name
  let package := declaredPackage descriptor
  let messages ← MessageType.ofDescriptors (packageScope package) descriptor.messages
  let enums ← descriptor.enums.mapM EnumType.ofDescriptor
  return { name, package, dependencies := descriptor.dependencies, messages, enums }

end ProtoPascal.Schema
