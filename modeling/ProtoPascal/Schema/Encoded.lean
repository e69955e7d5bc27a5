import ProtoPascal.Error
import ProtoPascal.Schema.Descriptor
import ProtoPascal.Wire.Record

/-!
Descriptors from their encoded form.
-/

namespace ProtoPascal.Schema

open Wire

/-- The value that records describe. -/
def EnumValueDescriptor.ofRecords (records : List Record) : EnumValueDescriptor :=
  { name := textAt? 1 records, number := int32At? 2 records }

/-- The enumeration that records describe. -/
def EnumDescriptor.ofRecords (records : List Record) : EnumDescriptor :=
  { name := textAt? 1 records
    values := (messagesAt 2 records).map EnumValueDescriptor.ofRecords }

/-- The oneof that records describe. -/
def OneofDescriptor.ofRecords (records : List Record) : OneofDescriptor :=
  { name := textAt? 1 records }

/-- The field that records describe. -/
def FieldDescriptor.ofRecords (records : List Record) : FieldDescriptor :=
  { name := textAt? 1 records
    number := int32At? 3 records
    label := int32At? 4 records
    type := int32At? 5 records
    typeName := textAt? 6 records
    oneofIndex := int32At? 9 records
    proto3Optional := boolAt? 17 records }

mutual

/-- The message that a value describes. -/
def MessageDescriptor.ofValue : Value → MessageDescriptor
  | .message records =>
    { name := textAt? 1 records
      fields := (messagesAt 2 records).map FieldDescriptor.ofRecords
      nestedMessages := MessageDescriptor.nestedAt 3 records
      nestedEnums := (messagesAt 4 records).map EnumDescriptor.ofRecords
      oneofs := (messagesAt 8 records).map OneofDescriptor.ofRecords }
  | _ => {}

/-- The messages that the fields with a number describe. -/
def MessageDescriptor.nestedAt (number : Nat) : List Record → List MessageDescriptor
  | [] => []
  | .record found value :: rest =>
    if found = number then MessageDescriptor.ofValue value :: MessageDescriptor.nestedAt number rest
    else MessageDescriptor.nestedAt number rest

end

/-- The file that records describe. -/
def FileDescriptor.ofRecords (records : List Record) : FileDescriptor :=
  { name := textAt? 1 records
    package := textAt? 2 records
    dependencies := textsAt 3 records
    messages := MessageDescriptor.nestedAt 4 records
    enums := (messagesAt 5 records).map EnumDescriptor.ofRecords
    languageVersion := textAt? 12 records }

/-- The files of an encoded descriptor set. -/
def decodeDescriptorSet (bytes : List UInt8) : Except Error (List FileDescriptor) :=
  match decode .descriptorSet bytes with
  | .ok records => .ok ((messagesAt 1 records).map FileDescriptor.ofRecords)
  | .error failure => .error (.undecodable failure)

end ProtoPascal.Schema
