import ProtoPascal.Message.Class
import ProtoPascal.Pascal.Layout

/-!
The unit of a schema file: its enumerations, and the classes of its messages, which are all
announced before the first of them is declared. Its bodies are made of actions and expressions, which
the layout of the unit turns into text.
-/

namespace ProtoPascal

namespace Pascal

/-- A unit whose bodies are made of actions and expressions. -/
abbrev CodeUnit := PascalUnit Action Expr

/-- The statement with its actions and expressions as text. -/
def Statement.toText (statement : Statement Action Expr) : Statement String String :=
  statement.map Action.text Expr.text

/-- The implementation with its actions and expressions as text. -/
def Implementation.toText (implementation : Implementation Action Expr) :
    Implementation String String :=
  implementation.map Action.text Expr.text

/-- The unit with its actions and expressions as text. -/
def CodeUnit.toText (unit : CodeUnit) : PascalUnit String String :=
  unit.map Action.text Expr.text

/-- The text of the unit. -/
def CodeUnit.render (unit : CodeUnit) : String :=
  (CodeUnit.toText unit).render

end Pascal

open Message (Context MessageClass generateMessages)
open Pascal (CodeUnit TypeDeclaration)

/-- The comment at the top of a generated unit. -/
def unitHeader (fileName : String) : List String :=
  ["Generated by protoc-gen-delphi from " ++ fileName ++ ".", "Do not edit."]

/-- The types of a unit: enumerations, announced classes, classes. -/
def unitTypes (enums : List Pascal.EnumDeclaration) (classes : List MessageClass) :
    List TypeDeclaration :=
  enums.map .enumType ++ classes.map (fun generated => .forwardClass generated.name)
    ++ classes.map MessageClass.declaration

/-- The unit of a schema file that is part of the index. -/
def generateUnit (index : TypeIndex) (runtime : Runtime) (file : Schema.File) :
    Traced CodeUnit := do
  let identifier ← index.unit file.name file.name
  let unitName := identifier.fullName
  Traced.note .debug ("generating unit " ++ unitName ++ " from " ++ file.name)
  let imported ← Traced.silent (file.dependencies.mapM fun dependency =>
    UnitIdentifier.fullName <$> index.unit dependency file.name)
  let enums ← Traced.silent (file.enums.mapM enumDeclaration)
  let classes ← generateMessages { index, runtime, unit := unitName }
    { scope := file.scope, parentClass := none } file.messages
  return {
    name := unitName
    header := unitHeader file.name
    uses := addUnits (addUnits (addUnits [] runtime.baseUnits) imported)
      (classes.flatMap MessageClass.uses)
    types := unitTypes enums classes
    implementation := classes.flatMap MessageClass.implementation }

end ProtoPascal
