import ProtoPascal.Pascal.Syntax
import ProtoPascal.Text.Pieces

/-!
The layout of a unit as text: one declaration or statement a line, two blanks for each level of
depth. In a class, a header stands where the visibility changes, and one of the words `const`,
`type` and `var` where the kind of member changes. Every branch and every arm is a block between
`begin` and `end`.
-/

namespace ProtoPascal.Pascal

/-- A line of text at a depth. -/
structure Line where
  depth : Nat
  text : String
deriving DecidableEq, Repr

/-- The text of a line with its end. An empty line has no blanks. -/
def Line.render (line : Line) : String :=
  if line.text.isEmpty then "\n"
  else String.ofList (List.replicate (2 * line.depth) ' ') ++ line.text ++ "\n"

/-- An empty line. -/
def blankLine : Line := ⟨0, ""⟩

/-- A line of a comment that starts with a marker. -/
def commentLine (depth : Nat) (marker text : String) : Line :=
  ⟨depth, if text.isEmpty then marker else marker ++ " " ++ text⟩

/-- The lines of a documentation comment. -/
def commentLines (depth : Nat) (comment : List String) : List Line :=
  comment.map (commentLine depth "///")

/-- Lines for the entries of a list, with a separator after all but the last. -/
def separatedLines (depth : Nat) (separator final : String) : List String → List Line
  | [] => []
  | [entry] => [⟨depth, entry ++ final⟩]
  | entry :: rest => ⟨depth, entry ++ separator⟩ :: separatedLines depth separator final rest

/-! ## Methods -/

/-- The word with which a method of a kind starts. -/
def MethodKind.word : MethodKind → String
  | .procedure => "procedure"
  | .function => "function"
  | .constructor => "constructor"
  | .destructor => "destructor"

/-- What follows the declaration of a method with a binding. -/
def Binding.directive : Binding → String
  | .static => ""
  | .virtual => " virtual;"
  | .override => " override;"

/-- A parameter or variable with its type. -/
def Parameter.text (parameter : Parameter) : String :=
  parameter.name ++ ": " ++ parameter.typeName

/-- The parameters of a method in parentheses, or nothing where there are none. -/
def parameterText : List Parameter → String
  | [] => ""
  | parameters => "(" ++ Text.join "; " (parameters.map Parameter.text) ++ ")"

/-- The heading of a method, under the name by which it is declared or implemented. -/
def Method.heading (method : Method) (name : String) : String :=
  method.kind.word ++ " " ++ name ++ parameterText method.parameters
    ++ match method.returnType with
      | some type => ": " ++ type
      | none => ""

/-! ## Declarations -/

/-- The header above the members of a visibility. -/
def Visibility.word : Visibility → String
  | .privateSection => "private"
  | .protectedSection => "protected"
  | .publicSection => "public"

/-- The kinds of members that stand together under one word. -/
inductive MemberGroup where
  | constants
  | types
  | variables
  | routines
deriving DecidableEq, Repr

/-- The word above the members of a group; methods and properties have none. -/
def MemberGroup.word? : MemberGroup → Option String
  | .constants => some "const"
  | .types => some "type"
  | .variables => some "var"
  | .routines => none

/-- The group to which an item belongs. -/
def Item.group : Item → MemberGroup
  | .constant .. => .constants
  | .field .. => .variables
  | .property .. => .routines
  | .method .. => .routines

/-- The group to which a member belongs. -/
def Member.group : Member → MemberGroup
  | .item _ _ declared => declared.group
  | .nestedType .. => .types

/-- The depth of the members of a group below that of their class. -/
def MemberGroup.depth (group : MemberGroup) : Nat :=
  if group.word?.isSome then 2 else 1

/-- The visibility and the group of the member before, which decide what a member needs above
it. -/
abbrev Section := Option (Visibility × MemberGroup)

/-- The lines above a member: its visibility where that changes, and the word of its group where
either changes. -/
def sectionLines (depth : Nat) (current : Section) (visibility : Visibility)
    (group : MemberGroup) : List Line :=
  let visibilityChanged := current.map Prod.fst != some visibility
  let groupChanged := current.map Prod.snd != some group
  (if visibilityChanged then [⟨depth, visibility.word⟩] else [])
    ++ (if visibilityChanged || groupChanged then
      group.word?.toList.map fun word => ⟨depth + 1, word⟩
    else [])

/-- The line of a member that is not a nested type. -/
def Item.text : Item → String
  | .constant name value => name ++ " = " ++ value ++ ";"
  | .field name typeName => name ++ ": " ++ typeName ++ ";"
  | .property name typeName getter setter =>
    "property " ++ name ++ ": " ++ typeName ++ " read " ++ getter ++ " write " ++ setter ++ ";"
  | .method declared => declared.heading declared.name ++ ";" ++ declared.binding.directive

/-- The lines of an enumeration. -/
def EnumDeclaration.lines (depth : Nat) (declaration : EnumDeclaration) : List Line :=
  commentLines depth declaration.comment
    ++ [⟨depth, declaration.name ++ " = ("⟩]
    ++ separatedLines (depth + 1) "," "" (declaration.values.map fun value =>
      value.name ++ " = " ++ toString value.ordinal)
    ++ [⟨depth, ");"⟩]

mutual

/-- The lines of a type declaration. -/
def TypeDeclaration.lines (depth : Nat) : TypeDeclaration → List Line
  | .forwardClass name => [⟨depth, name ++ " = class;"⟩]
  | .enumType declaration => declaration.lines depth
  | .classType name ancestor comment members =>
    commentLines depth comment
      ++ [⟨depth, name ++ " = class(" ++ ancestor ++ ")"⟩]
      ++ Member.linesFrom depth none members
      ++ [⟨depth, "end;"⟩]

/-- The lines of a member inside a class. -/
def Member.lines (depth : Nat) : Member → List Line
  | .item _ comment declared => commentLines depth comment ++ [⟨depth, declared.text⟩]
  | .nestedType _ comment declared => commentLines depth comment ++ declared.lines depth

/-- The lines of members of a class at a depth, after a member of the current section. -/
def Member.linesFrom (depth : Nat) (current : Section) : List Member → List Line
  | [] => []
  | member :: rest =>
    sectionLines depth current member.visibility member.group
      ++ member.lines (depth + member.group.depth)
      ++ Member.linesFrom depth (some (member.visibility, member.group)) rest

end

/-- Whether a declaration only announces a class. -/
def TypeDeclaration.isForward : TypeDeclaration → Bool
  | .forwardClass _ => true
  | _ => false

/-- The lines of type declarations, with an empty line between two of them unless both only
announce a class. -/
def typeSectionLines (depth : Nat) : List TypeDeclaration → List Line
  | [] => []
  | [declaration] => declaration.lines depth
  | declaration :: next :: rest =>
    declaration.lines depth
      ++ (if declaration.isForward && next.isForward then [] else [blankLine])
      ++ typeSectionLines depth (next :: rest)

/-! ## Bodies -/

mutual

/-- The lines of a statement. A conditional statement starts with `opening`, which is `if`, or
`else if` where it is all of an else branch. A case statement without arms has no lines. -/
def Statement.lines (opening : String) (depth : Nat) : Statement String String → List Line
  | .simple code => [⟨depth, code ++ ";"⟩]
  | .ifElse condition thenBranch [] =>
    [⟨depth, opening ++ " " ++ condition ++ " then"⟩, ⟨depth, "begin"⟩]
      ++ Statement.linesAll (depth + 1) thenBranch
      ++ [⟨depth, "end;"⟩]
  | .ifElse condition thenBranch [.ifElse innerCondition innerThen innerElse] =>
    [⟨depth, opening ++ " " ++ condition ++ " then"⟩, ⟨depth, "begin"⟩]
      ++ Statement.linesAll (depth + 1) thenBranch
      ++ [⟨depth, "end"⟩]
      ++ Statement.lines "else if" depth (.ifElse innerCondition innerThen innerElse)
  | .ifElse condition thenBranch elseBranch =>
    [⟨depth, opening ++ " " ++ condition ++ " then"⟩, ⟨depth, "begin"⟩]
      ++ Statement.linesAll (depth + 1) thenBranch
      ++ [⟨depth, "end"⟩, ⟨depth, "else"⟩, ⟨depth, "begin"⟩]
      ++ Statement.linesAll (depth + 1) elseBranch
      ++ [⟨depth, "end;"⟩]
  | .caseOf _ [] => []
  | .caseOf selector arms =>
    [⟨depth, "case " ++ selector ++ " of"⟩] ++ Arm.linesAll (depth + 1) arms ++ [⟨depth, "end;"⟩]

/-- The lines of a list of statements. -/
def Statement.linesAll (depth : Nat) : List (Statement String String) → List Line
  | [] => []
  | statement :: rest => statement.lines "if" depth ++ Statement.linesAll depth rest

/-- The lines of the arms of a case statement. -/
def Arm.linesAll (depth : Nat) : List (Arm String String) → List Line
  | [] => []
  | .arm label body :: rest =>
    [⟨depth, label ++ ":"⟩, ⟨depth, "begin"⟩]
      ++ Statement.linesAll (depth + 1) body
      ++ [⟨depth, "end;"⟩]
      ++ Arm.linesAll depth rest

end

/-- The lines of a body between `begin` and `end`. -/
def blockLines (depth : Nat) (terminator : String) (body : List (Statement String String)) :
    List Line :=
  [⟨depth, "begin"⟩] ++ Statement.linesAll (depth + 1) body ++ [⟨depth, "end" ++ terminator⟩]

/-- The lines of the local variables of a method. -/
def localLines : List Parameter → List Line
  | [] => []
  | locals => ⟨0, "var"⟩ :: locals.map fun variableName => ⟨1, variableName.text ++ ";"⟩

/-- The lines of the implementation of a method. -/
def Implementation.lines (implementation : Implementation String String) : List Line :=
  let name := implementation.className ++ "." ++ implementation.method.name
  [⟨0, implementation.method.heading name ++ ";"⟩]
    ++ localLines implementation.locals
    ++ blockLines 0 ";" implementation.body

/-! ## Units -/

/-- The lines of a unit. -/
def PascalUnit.lines (unit : PascalUnit String String) : List Line :=
  unit.header.map (commentLine 0 "//")
    ++ (if unit.header.isEmpty then [] else [blankLine])
    ++ [⟨0, "unit " ++ unit.name ++ ";"⟩, blankLine, ⟨0, "\x7b$SCOPEDENUMS ON\x7d"⟩, blankLine,
      ⟨0, "interface"⟩, blankLine]
    ++ (if unit.uses.isEmpty then []
      else [⟨0, "uses"⟩] ++ separatedLines 1 "," ";" unit.uses ++ [blankLine])
    ++ (if unit.types.isEmpty then []
      else [⟨0, "type"⟩] ++ typeSectionLines 1 unit.types ++ [blankLine])
    ++ [⟨0, "implementation"⟩, blankLine]
    ++ (unit.implementation.flatMap fun implementation => implementation.lines ++ [blankLine])
    ++ [⟨0, "end."⟩]

/-- The text of a unit. -/
def PascalUnit.render (unit : PascalUnit String String) : String :=
  String.join (unit.lines.map Line.render)

end ProtoPascal.Pascal
