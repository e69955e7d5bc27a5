import ProtoPascal.Text.Pieces

/-!
The Pascal expressions and actions of which generated method bodies are made, and their text. A string
literal is the text between single quotes, with every quote in it written twice.
-/

namespace ProtoPascal.Pascal

/-! ## String literals -/

/-- The characters between the quotes of a literal. -/
def escapeQuotes : List Char → List Char
  | [] => []
  | '\'' :: rest => '\'' :: '\'' :: escapeQuotes rest
  | character :: rest => character :: escapeQuotes rest

/-- The string literal that denotes a text. -/
def stringLiteral (text : String) : String :=
  "'" ++ String.ofList (escapeQuotes text.toList) ++ "'"

/-! ## Expressions and actions -/

/-- How two values are compared. -/
inductive Relation where
  | equal
  | different
  | greater
deriving DecidableEq, Repr

/-- The sign of a comparison. -/
def Relation.sign : Relation → String
  | .equal => "="
  | .different => "<>"
  | .greater => ">"

/-- An expression. Names say what they stand for, so that it can be checked that they are read as
they are meant. -/
inductive Expr where
  /-- A member of the instance. -/
  | own (identifier : String)
  /-- A parameter or a local variable, the result of a function, or the instance itself. -/
  | localName (identifier : String)
  /-- An object of the runtime library. -/
  | runtimeObject (identifier : String)
  /-- A constant, given by its text. -/
  | constant (text : String)
  /-- A string literal, given by what it denotes. -/
  | quoted (text : String)
  /-- A value of an enumeration. -/
  | enumValue (type value : String)
  /-- A member of another object. -/
  | member (object : Expr) (identifier : String)
  /-- A new instance of a class. -/
  | create (type : String)
  /-- A value seen as one of another type, without a check. -/
  | convert (type : String) (operand : Expr)
  /-- An object seen as an instance of a class, with a check. -/
  | downcast (operand : Expr) (type : String)
  /-- A call of a function that the language provides. -/
  | builtin (function : String) (arguments : List Expr)
  /-- A call of a method of the instance. -/
  | callOwn (method : String) (arguments : List Expr)
  /-- A call of a method of another object. -/
  | invoke (object : Expr) (method : String) (arguments : List Expr)
  | compare (left : Expr) (relation : Relation) (right : Expr)
  | negate (operand : Expr)
  | parenthesized (inner : Expr)
deriving Repr

/-- The arguments of a call in parentheses, or nothing where there are none. -/
def argumentText : List String → String
  | [] => ""
  | arguments => "(" ++ Text.join ", " arguments ++ ")"

mutual

/-- The text of an expression. -/
def Expr.text : Expr → String
  | .own identifier => identifier
  | .localName identifier => identifier
  | .runtimeObject identifier => identifier
  | .constant text => text
  | .quoted text => stringLiteral text
  | .enumValue type value => type ++ "." ++ value
  | .member object identifier => object.text ++ "." ++ identifier
  | .create type => type ++ ".Create"
  | .convert type operand => type ++ "(" ++ operand.text ++ ")"
  | .downcast operand type => operand.text ++ " as " ++ type
  | .builtin function arguments => function ++ argumentText (Expr.texts arguments)
  | .callOwn method arguments => method ++ argumentText (Expr.texts arguments)
  | .invoke object method arguments =>
    object.text ++ "." ++ method ++ argumentText (Expr.texts arguments)
  | .compare left relation right => left.text ++ " " ++ relation.sign ++ " " ++ right.text
  | .negate operand => "not " ++ operand.text
  | .parenthesized inner => "(" ++ inner.text ++ ")"

/-- The texts of a list of expressions. -/
def Expr.texts : List Expr → List String
  | [] => []
  | expression :: rest => expression.text :: Expr.texts rest

end

/-- A statement without parts that are statements. -/
inductive Action where
  | assign (target value : Expr)
  /-- A call for its effect. -/
  | perform (call : Expr)
  /-- A call of a method as the ancestor defines it. -/
  | inherit (method : String) (arguments : List Expr)
  /-- An exception with a message. -/
  | raise (exceptionType : String) (message : Expr)
deriving Repr

/-- The text of an action. -/
def Action.text : Action → String
  | .assign target value => target.text ++ " := " ++ value.text
  | .perform call => call.text
  | .inherit method arguments =>
    "inherited " ++ method ++ argumentText (Expr.texts arguments)
  | .raise exceptionType message => "raise " ++ exceptionType ++ ".Create(" ++ message.text ++ ")"

end ProtoPascal.Pascal
