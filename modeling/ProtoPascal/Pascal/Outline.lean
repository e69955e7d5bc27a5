import ProtoPascal.Json
import ProtoPascal.Pascal.Layout

/-!
Units as JSON documents, for tools that work on the structure of generated code.
-/

namespace ProtoPascal.Pascal

/-- The word for a binding in documents. -/
def Binding.word : Binding → String
  | .static => "static"
  | .virtual => "virtual"
  | .override => "override"

/-- A parameter or variable as a document. -/
def Parameter.outline (parameter : Parameter) : Json :=
  .object [("name", .text parameter.name), ("type_name", .text parameter.typeName)]

/-- The entries of a method. -/
def Method.entries (method : Method) : List (String × Json) :=
  [("kind", .text method.kind.word),
   ("name", .text method.name),
   ("parameters", .array (method.parameters.map Parameter.outline)),
   ("return_type", (method.returnType.map Json.text).getD .null),
   ("binding", .text method.binding.word)]

/-- The entries of an enumeration. -/
def EnumDeclaration.entries (declaration : EnumDeclaration) : List (String × Json) :=
  [("name", .text declaration.name),
   ("comment", Json.texts declaration.comment),
   ("values", .array (declaration.values.map fun value =>
     .object [("name", .text value.name), ("ordinal", .number value.ordinal)]))]

/-- The entries of a member that is not a nested type. -/
def Item.entries : Item → List (String × Json)
  | .constant name value =>
    [("member", .text "constant"), ("name", .text name), ("value", .text value)]
  | .field name typeName =>
    [("member", .text "field"), ("name", .text name), ("type_name", .text typeName)]
  | .property name typeName getter setter =>
    [("member", .text "property"), ("name", .text name), ("type_name", .text typeName),
     ("getter", .text getter), ("setter", .text setter)]
  | .method declared => ("member", .text "method") :: declared.entries

mutual

/-- The entries of a type declaration. -/
def TypeDeclaration.entries : TypeDeclaration → List (String × Json)
  | .forwardClass name => [("kind", .text "forward_class"), ("name", .text name)]
  | .enumType declaration => ("kind", .text "enum") :: declaration.entries
  | .classType name ancestor comment members =>
    [("kind", .text "class"), ("name", .text name), ("ancestor", .text ancestor),
     ("comment", Json.texts comment), ("members", .array (Member.outlineAll members))]

/-- A member as a document. -/
def Member.outline : Member → Json
  | .item visibility comment declared =>
    .object [("visibility", .text visibility.word), ("comment", Json.texts comment),
      ("kind", .object declared.entries)]
  | .nestedType visibility comment declared =>
    .object [("visibility", .text visibility.word), ("comment", Json.texts comment),
      ("kind", .object (("member", .text "nested_type") :: declared.entries))]

/-- Members as documents. -/
def Member.outlineAll : List Member → List Json
  | [] => []
  | member :: rest => member.outline :: Member.outlineAll rest

end

mutual

/-- A statement as a document. -/
def Statement.outline : Statement String String → Json
  | .simple code => .object [("statement", .text "simple"), ("code", .text code)]
  | .ifElse condition thenBranch elseBranch =>
    .object [("statement", .text "if"), ("condition", .text condition),
      ("then_branch", .array (Statement.outlineAll thenBranch)),
      ("else_branch", .array (Statement.outlineAll elseBranch))]
  | .caseOf selector arms =>
    .object [("statement", .text "case"), ("selector", .text selector),
      ("arms", .array (Arm.outlineAll arms))]

/-- Statements as documents. -/
def Statement.outlineAll : List (Statement String String) → List Json
  | [] => []
  | statement :: rest => statement.outline :: Statement.outlineAll rest

/-- Arms of a case statement as documents. -/
def Arm.outlineAll : List (Arm String String) → List Json
  | [] => []
  | .arm label body :: rest =>
    .object [("label", .text label), ("body", .array (Statement.outlineAll body))]
      :: Arm.outlineAll rest

end

/-- The implementation of a method as a document. -/
def Implementation.outline (implementation : Implementation String String) : Json :=
  .object [("class_name", .text implementation.className),
    ("method", .object implementation.method.entries),
    ("locals", .array (implementation.locals.map Parameter.outline)),
    ("body", .array (Statement.outlineAll implementation.body))]

/-- A unit as a document. -/
def PascalUnit.outline (unit : PascalUnit String String) : Json :=
  .object [("name", .text unit.name), ("header", Json.texts unit.header),
    ("uses", Json.texts unit.uses),
    ("types", .array (unit.types.map fun declaration => .object declaration.entries)),
    ("implementation", .array (unit.implementation.map Implementation.outline))]

end ProtoPascal.Pascal
