/-!
The Pascal units that the generator writes: type declarations with classes and their members, and
the bodies of methods. What stands in a body is left open: the generator fills bodies with actions
and expressions, and the layout of a unit works on their texts.
-/

namespace ProtoPascal.Pascal

/-! ## Declarations -/

/-- A documentation comment of one sentence. -/
def summaryComment (sentence : String) : List String :=
  ["<summary>", sentence, "</summary>"]

/-- The part of a class in which a member stands. -/
inductive Visibility where
  | privateSection
  | protectedSection
  | publicSection
deriving DecidableEq, Repr

/-- The kinds of methods. -/
inductive MethodKind where
  | procedure
  | function
  | constructor
  | destructor
deriving DecidableEq, Repr

/-- How a method relates to methods of the same name in ancestors and descendants. -/
inductive Binding where
  | static
  | virtual
  | override
deriving DecidableEq, Repr

/-- A parameter or a local variable with its type. -/
structure Parameter where
  name : String
  typeName : String
deriving DecidableEq, Repr

/-- A method as a class declares it. -/
structure Method where
  kind : MethodKind
  name : String
  parameters : List Parameter := []
  returnType : Option String := none
  binding : Binding := .static
deriving DecidableEq, Repr

/-- A value of an enumerated type. -/
structure EnumMember where
  name : String
  ordinal : Int
deriving DecidableEq, Repr

/-- An enumerated type with its comment. -/
structure EnumDeclaration where
  name : String
  comment : List String := []
  values : List EnumMember := []
deriving DecidableEq, Repr

/-- What a member of a class is, nested types apart. -/
inductive Item where
  | constant (name value : String)
  | field (name typeName : String)
  | property (name typeName getter setter : String)
  | method (declared : Method)
deriving DecidableEq, Repr

mutual

/-- A declaration of a type, or the announcement of a class that is declared later. -/
inductive TypeDeclaration where
  | forwardClass (name : String)
  | enumType (declaration : EnumDeclaration)
  | classType (name ancestor : String) (comment : List String) (members : List Member)

/-- A member of a class with its visibility and its comment. -/
inductive Member where
  | item (visibility : Visibility) (comment : List String) (declared : Item)
  | nestedType (visibility : Visibility) (comment : List String) (declared : TypeDeclaration)

end

/-- The name that an item declares. -/
def Item.name : Item → String
  | .constant name _ => name
  | .field name _ => name
  | .property name _ _ _ => name
  | .method declared => declared.name

/-- The name of a declared or announced type. -/
def TypeDeclaration.name : TypeDeclaration → String
  | .forwardClass name => name
  | .enumType declaration => declaration.name
  | .classType name _ _ _ => name

/-- The name that a member declares. -/
def Member.name : Member → String
  | .item _ _ declared => declared.name
  | .nestedType _ _ declared => declared.name

/-- The part of the class in which a member stands. -/
def Member.visibility : Member → Visibility
  | .item visibility _ _ => visibility
  | .nestedType visibility _ _ => visibility

/-- The comment of a member. -/
def Member.comment : Member → List String
  | .item _ comment _ => comment
  | .nestedType _ comment _ => comment

/-- Whether a member announces a class that is declared later. -/
def Member.isForward : Member → Bool
  | .nestedType _ _ (.forwardClass _) => true
  | _ => false

/-! ## Bodies -/

mutual

/-- A statement over given actions and expressions. -/
inductive Statement (Act Exp : Type) where
  | simple (action : Act)
  | ifElse (condition : Exp) (thenBranch elseBranch : List (Statement Act Exp))
  | caseOf (selector : Exp) (arms : List (Arm Act Exp))

/-- An arm of a case statement. -/
inductive Arm (Act Exp : Type) where
  | arm (label : Exp) (body : List (Statement Act Exp))

end

section

variable {Act Exp Act' Exp' : Type} (onAction : Act → Act') (onExpression : Exp → Exp')

mutual

/-- The statement with its actions and expressions replaced by their images. -/
def Statement.map : Statement Act Exp → Statement Act' Exp'
  | .simple action => .simple (onAction action)
  | .ifElse condition thenBranch elseBranch =>
    .ifElse (onExpression condition) (Statement.mapAll thenBranch) (Statement.mapAll elseBranch)
  | .caseOf selector arms => .caseOf (onExpression selector) (Arm.mapAll arms)

/-- The statements with their actions and expressions replaced by their images. -/
def Statement.mapAll : List (Statement Act Exp) → List (Statement Act' Exp')
  | [] => []
  | statement :: rest => statement.map :: Statement.mapAll rest

/-- The arms with their actions and expressions replaced by their images. -/
def Arm.mapAll : List (Arm Act Exp) → List (Arm Act' Exp')
  | [] => []
  | .arm label body :: rest => .arm (onExpression label) (Statement.mapAll body) :: Arm.mapAll rest

end

end

/-- The implementation of a method of a class. -/
structure Implementation (Act Exp : Type) where
  className : String
  method : Method
  locals : List Parameter := []
  body : List (Statement Act Exp) := []

/-- A unit of source text. -/
structure PascalUnit (Act Exp : Type) where
  name : String
  header : List String := []
  uses : List String := []
  types : List TypeDeclaration := []
  implementation : List (Implementation Act Exp) := []

/-- The implementation with its actions and expressions replaced by their images. -/
def Implementation.map {Act Exp Act' Exp' : Type} (onAction : Act → Act')
    (onExpression : Exp → Exp') (implementation : Implementation Act Exp) :
    Implementation Act' Exp' :=
  { className := implementation.className, method := implementation.method,
    locals := implementation.locals,
    body := Statement.mapAll onAction onExpression implementation.body }

/-- The unit with its actions and expressions replaced by their images. -/
def PascalUnit.map {Act Exp Act' Exp' : Type} (onAction : Act → Act')
    (onExpression : Exp → Exp') (unit : PascalUnit Act Exp) : PascalUnit Act' Exp' :=
  { name := unit.name, header := unit.header, uses := unit.uses, types := unit.types,
    implementation := unit.implementation.map (·.map onAction onExpression) }

end ProtoPascal.Pascal
