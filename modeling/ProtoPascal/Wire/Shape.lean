/-!
The messages in which requests and descriptors are encoded: for each message its name, and its
fields with their numbers, names and values. A field that is not listed here is unknown and is
skipped.
-/

namespace ProtoPascal.Wire

/-- The messages that requests and descriptor sets are made of. -/
inductive MessageShape where
  | request
  | descriptorSet
  | compilerVersion
  | file
  | message
  | enumeration
  | service
  | field
  | fileOptions
  | sourceCodeInfo
  | extensionRange
  | messageOptions
  | oneof
  | reservedRange
  | enumValue
  | enumOptions
  | method
  | serviceOptions
  | fieldOptions
  | uninterpretedOption
  | location
  | extensionRangeOptions
  | oneofOptions
  | enumValueOptions
  | methodOptions
  | namePart
  | enumReservedRange
deriving DecidableEq, Repr

/-- The name of a message in failure texts. -/
def MessageShape.name : MessageShape → String
  | .request => "CodeGeneratorRequest"
  | .descriptorSet => "FileDescriptorSet"
  | .compilerVersion => "Version"
  | .file => "FileDescriptorProto"
  | .message => "DescriptorProto"
  | .enumeration => "EnumDescriptorProto"
  | .service => "ServiceDescriptorProto"
  | .field => "FieldDescriptorProto"
  | .fileOptions => "FileOptions"
  | .sourceCodeInfo => "SourceCodeInfo"
  | .extensionRange => "ExtensionRange"
  | .messageOptions => "MessageOptions"
  | .oneof => "OneofDescriptorProto"
  | .reservedRange => "ReservedRange"
  | .enumValue => "EnumValueDescriptorProto"
  | .enumOptions => "EnumOptions"
  | .method => "MethodDescriptorProto"
  | .serviceOptions => "ServiceOptions"
  | .fieldOptions => "FieldOptions"
  | .uninterpretedOption => "UninterpretedOption"
  | .location => "Location"
  | .extensionRangeOptions => "ExtensionRangeOptions"
  | .oneofOptions => "OneofOptions"
  | .enumValueOptions => "EnumValueOptions"
  | .methodOptions => "MethodOptions"
  | .namePart => "NamePart"
  | .enumReservedRange => "EnumReservedRange"

/-- What the value of a field is. -/
inductive ValueShape where
  /-- A number or a truth value. -/
  | varint
  /-- Several numbers, one after the other or together in one value. -/
  | varints
  | fixed64
  | text
  | bytes
  | message (shape : MessageShape)
deriving DecidableEq, Repr

/-- The fields of a message: number, name and value. -/
def MessageShape.fields : MessageShape → List (Nat × String × ValueShape)
  | .request => [
    (1, "file_to_generate", .text), (2, "parameter", .text),
    (3, "compiler_version", .message .compilerVersion), (15, "proto_file", .message .file)]
  | .descriptorSet => [
    (1, "file", .message .file)]
  | .compilerVersion => [
    (1, "major", .varint), (2, "minor", .varint), (3, "patch", .varint), (4, "suffix", .text)]
  | .file => [
    (1, "name", .text), (2, "package", .text), (3, "dependency", .text),
    (4, "message_type", .message .message), (5, "enum_type", .message .enumeration),
    (6, "service", .message .service), (7, "extension", .message .field),
    (8, "options", .message .fileOptions), (9, "source_code_info", .message .sourceCodeInfo),
    (10, "public_dependency", .varints), (11, "weak_dependency", .varints), (12, "syntax", .text)]
  | .message => [
    (1, "name", .text), (2, "field", .message .field), (3, "nested_type", .message .message),
    (4, "enum_type", .message .enumeration), (5, "extension_range", .message .extensionRange),
    (6, "extension", .message .field), (7, "options", .message .messageOptions),
    (8, "oneof_decl", .message .oneof), (9, "reserved_range", .message .reservedRange),
    (10, "reserved_name", .text)]
  | .enumeration => [
    (1, "name", .text), (2, "value", .message .enumValue), (3, "options", .message .enumOptions),
    (4, "reserved_range", .message .enumReservedRange), (5, "reserved_name", .text)]
  | .service => [
    (1, "name", .text), (2, "method", .message .method), (3, "options", .message .serviceOptions)]
  | .field => [
    (1, "name", .text), (2, "extendee", .text), (3, "number", .varint), (4, "label", .varint),
    (5, "r#type", .varint), (6, "type_name", .text), (7, "default_value", .text),
    (8, "options", .message .fieldOptions), (9, "oneof_index", .varint), (10, "json_name", .text),
    (17, "proto3_optional", .varint)]
  | .fileOptions => [
    (1, "java_package", .text), (8, "java_outer_classname", .text), (9, "optimize_for", .varint),
    (10, "java_multiple_files", .varint), (11, "go_package", .text),
    (16, "cc_generic_services", .varint), (17, "java_generic_services", .varint),
    (18, "py_generic_services", .varint), (20, "java_generate_equals_and_hash", .varint),
    (23, "deprecated", .varint), (27, "java_string_check_utf8", .varint),
    (31, "cc_enable_arenas", .varint), (36, "objc_class_prefix", .text),
    (37, "csharp_namespace", .text), (39, "swift_prefix", .text), (40, "php_class_prefix", .text),
    (41, "php_namespace", .text), (42, "php_generic_services", .varint),
    (44, "php_metadata_namespace", .text), (45, "ruby_package", .text),
    (999, "uninterpreted_option", .message .uninterpretedOption)]
  | .sourceCodeInfo => [
    (1, "location", .message .location)]
  | .extensionRange => [
    (1, "start", .varint), (2, "end", .varint), (3, "options", .message .extensionRangeOptions)]
  | .messageOptions => [
    (1, "message_set_wire_format", .varint), (2, "no_standard_descriptor_accessor", .varint),
    (3, "deprecated", .varint), (7, "map_entry", .varint),
    (999, "uninterpreted_option", .message .uninterpretedOption)]
  | .oneof => [
    (1, "name", .text), (2, "options", .message .oneofOptions)]
  | .reservedRange => [
    (1, "start", .varint), (2, "end", .varint)]
  | .enumValue => [
    (1, "name", .text), (2, "number", .varint), (3, "options", .message .enumValueOptions)]
  | .enumOptions => [
    (2, "allow_alias", .varint), (3, "deprecated", .varint),
    (999, "uninterpreted_option", .message .uninterpretedOption)]
  | .method => [
    (1, "name", .text), (2, "input_type", .text), (3, "output_type", .text),
    (4, "options", .message .methodOptions), (5, "client_streaming", .varint),
    (6, "server_streaming", .varint)]
  | .serviceOptions => [
    (33, "deprecated", .varint), (999, "uninterpreted_option", .message .uninterpretedOption)]
  | .fieldOptions => [
    (1, "ctype", .varint), (2, "packed", .varint), (3, "deprecated", .varint), (5, "lazy", .varint),
    (6, "jstype", .varint), (10, "weak", .varint),
    (999, "uninterpreted_option", .message .uninterpretedOption)]
  | .uninterpretedOption => [
    (2, "name", .message .namePart), (3, "identifier_value", .text),
    (4, "positive_int_value", .varint), (5, "negative_int_value", .varint),
    (6, "double_value", .fixed64), (7, "string_value", .bytes), (8, "aggregate_value", .text)]
  | .location => [
    (1, "path", .varints), (2, "span", .varints), (3, "leading_comments", .text),
    (4, "trailing_comments", .text), (6, "leading_detached_comments", .text)]
  | .extensionRangeOptions => [
    (999, "uninterpreted_option", .message .uninterpretedOption)]
  | .oneofOptions => [
    (999, "uninterpreted_option", .message .uninterpretedOption)]
  | .enumValueOptions => [
    (1, "deprecated", .varint), (999, "uninterpreted_option", .message .uninterpretedOption)]
  | .methodOptions => [
    (33, "deprecated", .varint), (34, "idempotency_level", .varint),
    (999, "uninterpreted_option", .message .uninterpretedOption)]
  | .namePart => [
    (1, "name_part", .text), (2, "is_extension", .varint)]
  | .enumReservedRange => [
    (1, "start", .varint), (2, "end", .varint)]

/-- The field of a message with a given number. -/
def MessageShape.field? (shape : MessageShape) (number : Nat) : Option (String × ValueShape) :=
  shape.fields.lookup number

end ProtoPascal.Wire
