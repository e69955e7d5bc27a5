/-!
Descriptors of schema files, as a schema compiler hands them over. Nothing is checked yet: every
name and number can be absent, and references can lead nowhere.
-/

namespace ProtoPascal.Schema

/-- A value of an enumeration. -/
structure EnumValueDescriptor where
  name : Option String := none
  number : Option Int := none
deriving DecidableEq, Repr

/-- An enumeration with its values. -/
structure EnumDescriptor where
  name : Option String := none
  values : List EnumValueDescriptor := []
deriving DecidableEq, Repr

/-- A oneof; its members refer to it by its position in the message. -/
structure OneofDescriptor where
  name : Option String := none
deriving DecidableEq, Repr

/-- A field with the numbers that stand for its label and its type. -/
structure FieldDescriptor where
  name : Option String := none
  number : Option Int := none
  label : Option Int := none
  type : Option Int := none
  typeName : Option String := none
  oneofIndex : Option Int := none
  proto3Optional : Option Bool := none
deriving DecidableEq, Repr

/-- A message with the types declared in it. -/
structure MessageDescriptor where
  name : Option String := none
  fields : List FieldDescriptor := []
  nestedMessages : List MessageDescriptor := []
  nestedEnums : List EnumDescriptor := []
  oneofs : List OneofDescriptor := []
deriving Repr

/-- A file of messages and enumerations. -/
structure FileDescriptor where
  name : Option String := none
  package : Option String := none
  dependencies : List String := []
  messages : List MessageDescriptor := []
  enums : List EnumDescriptor := []
  /-- The version of the schema language; absent for the oldest. -/
  languageVersion : Option String := none
deriving Repr

end ProtoPascal.Schema
