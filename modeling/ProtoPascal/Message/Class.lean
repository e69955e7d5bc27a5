import ProtoPascal.Log
import ProtoPascal.Message.Lifecycle

/-!
Message classes and enumerations. The class of a message holds its nested types, the members of its
fields and oneofs in the order of their slots, and the methods that every message class has. The values
of an enumeration keep their numbers, and their names share one scope for each enumeration.
-/

namespace ProtoPascal

open Naming
open Pascal
open Schema (EnumType EnumValue MessageType)

/-! ## Enumerations -/

/-- The Pascal value for a value of an enumeration. -/
def claimEnumMember (value : EnumValue) : Claiming EnumMember := do
  let name ← claim .enumValue [] value.name
  return { name, ordinal := value.number }

/-- The declaration of an enumeration. -/
def enumDeclaration (enumType : EnumType) : Except Error EnumDeclaration := do
  let name ← typeIdentifier enumType.name
  let values ← (enumType.values.mapM claimEnumMember).resultIn keywordScope
  return { name, comment := summaryComment ("Protobuf enum <c>" ++ enumType.name ++ "</c>."),
           values }

/-! ## Used units

A unit that is added again is not listed again, so a list holds the first occurrences in order. -/

/-- The list with one more unit, unless it is listed. -/
def addUnit (uses : List String) (unit : String) : List String :=
  if uses.contains unit then uses else uses ++ [unit]

/-- The list with more units, added in order. -/
def addUnits (uses units : List String) : List String :=
  units.foldl addUnit uses

namespace Message

/-! ## Classes -/

/-- Where a message is declared. -/
structure Place where
  /-- The fully qualified name of the package or message around it, with a dot before it, or
  nothing. -/
  scope : String
  /-- The class around it, with the classes around that. -/
  parentClass : Option String

/-- The class of a message with its method bodies and the units that it needs, those of the nested
classes included. -/
structure MessageClass where
  name : String
  comment : List String
  members : List Member
  implementation : List (Implementation Action Expr)
  uses : List String

/-- The declaration of the class. -/
def MessageClass.declaration (generated : MessageClass) : TypeDeclaration :=
  .classType generated.name ancestorClass generated.comment generated.members

/-- No two members may have names that differ only in the case of letters, announced classes
apart. `seen` holds the names of the members before. -/
def checkUniqueFrom (messageName : String) (seen : List String) : List Member → Except Error Unit
  | [] => .ok ()
  | member :: rest =>
    if member.isForward then checkUniqueFrom messageName seen rest
    else if seen.contains (Text.fold member.name) then
      .error (.identifierCollision "class member" messageName member.name)
    else checkUniqueFrom messageName (Text.fold member.name :: seen) rest

/-- The members for the types nested in a message: enumerations, announced classes, classes. -/
def nestedMembers (enums : List EnumDeclaration) (nested : List MessageClass) : List Member :=
  enums.map (fun declaration => .nestedType .publicSection [] (.enumType declaration))
    ++ nested.map (fun generated =>
      .nestedType .publicSection [] (.forwardClass generated.name))
    ++ nested.map (fun generated => .nestedType .publicSection [] generated.declaration)

/-- The class of a message, from its identifier and its nested types. -/
def assembleClass (context : Context) (place : Place) (identifier : String)
    (enums : List EnumDeclaration) (nested : List MessageClass) (message : MessageType) :
    Except Error MessageClass := do
  let className := nestedIn place.parentClass identifier
  let fullName := Schema.qualifiedName place.scope message.name
  let shownName := Text.trimStart '.' fullName
  let nestedTypes := nestedMembers enums nested
  let scope := classScope.extend (nestedTypes.map Member.name)
  let plan ← ClassPlan.make context className fullName scope message
  let members := nestedTypes
    ++ plan.flatMapSlots FieldPlan.declarations OneofPlan.declarations
    ++ plan.methods.map ClassMethod.member
  checkUniqueFrom shownName [] members
  return {
    name := identifier
    comment := summaryComment ("Protobuf message <c>" ++ shownName ++ "</c>.")
    members
    implementation := nested.flatMap MessageClass.implementation
      ++ plan.flatMapSlots FieldPlan.implementations OneofPlan.implementations
      ++ plan.methods.map (ClassMethod.implementation className)
    uses := addUnits (addUnits [] (nested.flatMap MessageClass.uses))
      (plan.flatMapSlots FieldPlan.units fun _ => []) }

mutual

/-- The class of a message. -/
def generateMessage (context : Context) (place : Place) : MessageType → Traced MessageClass
  | ⟨name, fields, oneofs, nestedMessages, nestedEnums⟩ => do
    let identifier ← typeIdentifier name
    let className := nestedIn place.parentClass identifier
    let fullName := Schema.qualifiedName place.scope name
    Traced.note .debug ("generating " ++ fullName ++ " as " ++ className)
    let enums ← Traced.silent (nestedEnums.mapM enumDeclaration)
    let nested ← generateMessages context ⟨fullName, some className⟩ nestedMessages
    assembleClass context place identifier enums nested
      ⟨name, fields, oneofs, nestedMessages, nestedEnums⟩

/-- The classes of a list of messages. -/
def generateMessages (context : Context) (place : Place) :
    List MessageType → Traced (List MessageClass)
  | [] => pure []
  | message :: rest => do
    let first ← generateMessage context place message
    let others ← generateMessages context place rest
    return first :: others

end

end Message

end ProtoPascal
