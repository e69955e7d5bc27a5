import ProtoPascal.Message.Names
import ProtoPascal.Pascal.Syntax
import ProtoPascal.Runtime
import ProtoPascal.TypeIndex

/-!
Fields of a message class. A field declares constants for its number and its name, a private
backing field, a property with its accessors, and, unless it is repeated, a property for its
presence. Outside a oneof a field is present when its value differs from the default; inside a oneof
it is present when the oneof selects it.
-/

namespace ProtoPascal.Message

open Pascal
open Schema (Field FieldType)

/-- A method body of a generated class. -/
abbrev Body := List (Statement Action Expr)

/-- What code for a message can refer to. -/
structure Context where
  index : TypeIndex
  runtime : Runtime
  /-- The unit in which the message is declared. -/
  unit : String

/-- The oneof to which a field belongs, and the value by which the oneof selects the field. -/
structure Membership where
  oneof : OneofNames
  caseValue : String

/-- The case value of the field as an expression. -/
def Membership.qualifiedCase (membership : Membership) : Expr :=
  membership.oneof.qualify membership.caseValue

/-- The case value for no member as an expression. -/
def Membership.noneCase (membership : Membership) : Expr :=
  membership.oneof.qualify membership.oneof.noneValue

/-- A field with all that its code depends on. -/
structure FieldPlan where
  field : Field
  /-- The class of the message, with the classes around it. -/
  className : String
  membership : Option Membership
  names : FieldNames
  support : TypeSupport
  /-- The units that hold the types of the field. -/
  units : List String

/-- The declared type that a field refers to. Its kind has to be the one that the field states. -/
def resolveReference (context : Context) (qualified : String) :
    FieldType → Except Error (Option ResolvedType)
  | .scalar _ => .ok none
  | .reference kind typeName => do
    let resolved ← context.index.resolve typeName qualified
    if resolved.kind ≠ kind then
      throw (.invalidSchema (.kindMismatch qualified typeName kind resolved.kind))
    return some resolved

/-- The unit that a reference adds to the used units. -/
def foreignUnit (unit : String) : Option ResolvedType → List String
  | some resolved => if resolved.unit = unit then [] else [resolved.unit]
  | none => []

/-- The plan of a field of the message with a given name. -/
def FieldPlan.make (context : Context) (className messageName : String)
    (membership : Option Membership) (names : FieldNames) (field : Field) :
    Except Error FieldPlan := do
  let resolved ← resolveReference context (Schema.qualifiedName messageName field.name) field.type
  let support ← context.runtime.support field.type (resolved.map (·.referenceFrom context.unit))
  return { field, className, membership, names, support,
           units := support.units field.repeated ++ foreignUnit context.unit resolved }

/-- The type of the property of a field. -/
def FieldPlan.publicType (plan : FieldPlan) : String :=
  if plan.field.repeated then plan.support.repeatedPublicType else plan.support.publicType

/-- The type of the backing field. -/
def FieldPlan.internalType (plan : FieldPlan) : String :=
  if plan.field.repeated then plan.support.repeatedInternalType else plan.support.internalType

/-- Whether the values of a field are messages. -/
def FieldPlan.isMessage (plan : FieldPlan) : Bool :=
  plan.support.kind == .message

/-! ## Declarations -/

/-- A function without parameters that descendants can replace. -/
def getterMethod (name type : String) : Method :=
  { kind := .function, name, returnType := some type, binding := .virtual }

/-- A procedure with a value as its parameter that descendants can replace. -/
def setterMethod (name type : String) : Method :=
  { kind := .procedure, name, parameters := [⟨"aValue", type⟩], binding := .virtual }

/-- The function that reads the property of a field. -/
def FieldPlan.getterMethod (plan : FieldPlan) : Method :=
  Message.getterMethod plan.names.getter plan.publicType

/-- The procedure that writes the property of a field. -/
def FieldPlan.setterMethod (plan : FieldPlan) : Method :=
  Message.setterMethod plan.names.setter plan.publicType

/-- The function that reads the presence property. -/
def PresenceNames.getterMethod (names : PresenceNames) : Method :=
  Message.getterMethod names.getter "Boolean"

/-- The procedure that writes the presence property. -/
def PresenceNames.setterMethod (names : PresenceNames) : Method :=
  Message.setterMethod names.setter "Boolean"

/-- The word before the type in the description of a field. -/
def labelWord (field : Field) : String :=
  if field.repeated then "repeated " else if field.proto3Optional then "optional " else ""

/-- The remark on ownership that a field needs. -/
def FieldPlan.ownershipRemark (plan : FieldPlan) : List String :=
  if plan.field.repeated then
    ["<remarks>The message owns the collection. Assigning a collection transfers its "
      ++ "ownership to the message, which frees the previous one.</remarks>"]
  else if plan.isMessage then
    ["<remarks>The message owns the instance. Assigning an instance transfers its "
      ++ "ownership to the message, which frees the previous one.</remarks>"]
  else []

/-- The remark on what an assignment does to the presence of a field. -/
def FieldPlan.selectionRemark (plan : FieldPlan) : List String :=
  if plan.field.proto3Optional then
    ["<remarks>Declared <c>optional</c>: assigning a value marks the field present, "
      ++ "even when it is the default.</remarks>"]
  else
    match plan.membership with
    | some membership =>
      ["<remarks>Member of oneof <c>" ++ membership.oneof.protoName
        ++ "</c>. Assigning a value selects this member.</remarks>"]
    | none => []

/-- The comment of the property of a field. -/
def FieldPlan.propertyComment (plan : FieldPlan) : List String :=
  summaryComment ("Protobuf field <c>" ++ plan.field.name ++ " = " ++ toString plan.field.number
      ++ "</c> of type <c>" ++ labelWord plan.field ++ plan.field.type.protoName ++ "</c>.")
    ++ plan.ownershipRemark ++ plan.selectionRemark

/-- The comment of the presence property of a field. -/
def FieldPlan.presenceComment (plan : FieldPlan) : List String :=
  summaryComment <|
    match plan.membership with
    | some membership =>
      if plan.field.proto3Optional then
        "Whether <c>" ++ plan.field.name ++ "</c> has been assigned. Setting <c>True</c> assigns "
          ++ "the default value, setting <c>False</c> clears it."
      else
        "Whether <c>" ++ plan.field.name ++ "</c> is the selected member of oneof <c>"
          ++ membership.oneof.protoName ++ "</c>. Setting <c>True</c> selects it with a default "
          ++ "value, setting <c>False</c> clears the oneof."
    | none =>
      "Whether <c>" ++ plan.field.name ++ "</c> differs from its default value. Setting "
        ++ "<c>False</c> resets it; setting <c>True</c> on an absent field raises "
        ++ "<c>EProtobufInvalidOperation</c>."

/-- A member without a comment. -/
def plainMember (visibility : Visibility) (item : Item) : Member :=
  .item visibility [] item

/-- The methods of the presence of a field, as members. -/
def PresenceNames.methodMembers (names : PresenceNames) : List Member :=
  [plainMember .protectedSection (.method names.getterMethod),
   plainMember .protectedSection (.method names.setterMethod)]

/-- The presence property as a member. -/
def PresenceNames.propertyMember (names : PresenceNames) (comment : List String) : Member :=
  .item .publicSection comment (.property names.property "Boolean" names.getter names.setter)

/-- The members that a field declares: constants, backing field, accessors, properties. -/
def FieldPlan.declarations (plan : FieldPlan) : List Member :=
  let names := plan.names
  [plainMember .publicSection (.constant names.numberConstant (toString plan.field.number)),
   plainMember .publicSection (.constant names.nameConstant (stringLiteral plan.field.name)),
   plainMember .privateSection (.field names.backing plan.internalType),
   plainMember .protectedSection (.method plan.getterMethod),
   plainMember .protectedSection (.method plan.setterMethod)]
    ++ (names.presence.map PresenceNames.methodMembers).getD []
    ++ [.item .publicSection plan.propertyComment
      (.property names.property plan.publicType names.getter names.setter)]
    ++ (names.presence.map (·.propertyMember plan.presenceComment)).toList

end ProtoPascal.Message
