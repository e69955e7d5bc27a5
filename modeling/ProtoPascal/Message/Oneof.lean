import ProtoPascal.Message.FieldCode

/-!
Oneofs of a message class. A oneof declares a case type with one value for no member and one for
each member, and a property that holds the present case. Only the setter of this property changes
the case: it releases the member that leaves, stores the case, and initializes the member that
enters.
-/

namespace ProtoPascal.Message

open Pascal

/-- A oneof with the plans of its members. -/
structure OneofPlan where
  names : OneofNames
  /-- The class of the message, with the classes around it. -/
  className : String
  members : List FieldPlan

/-- The comment of the case type of a oneof. -/
def OneofNames.caseComment (names : OneofNames) : List String :=
  summaryComment <|
    if names.synthetic then
      "Presence of optional field <c>" ++ Text.trimStart '_' names.protoName ++ "</c>."
    else "Selected member of oneof <c>" ++ names.protoName ++ "</c>."

/-- The case type of a oneof: no member, then the members in the order of their declaration. -/
def OneofNames.caseEnum (names : OneofNames) : EnumDeclaration :=
  { name := names.caseType
    comment := names.caseComment
    values := (names.noneValue :: names.caseValues.map CaseValue.name).mapIdx fun position name =>
      { name, ordinal := position } }

/-- The function that reads the case property. -/
def OneofNames.getterMethod (names : OneofNames) : Method :=
  Message.getterMethod names.getter names.caseType

/-- The procedure that writes the case property. -/
def OneofNames.setterMethod (names : OneofNames) : Method :=
  Message.setterMethod names.setter names.caseType

/-- The comment of the case property of a oneof. -/
def OneofNames.propertyComment (names : OneofNames) : List String :=
  summaryComment
      (if names.synthetic then
        "Whether optional field <c>" ++ Text.trimStart '_' names.protoName
          ++ "</c> has been assigned."
      else "Member of oneof <c>" ++ names.protoName ++ "</c> currently holding a value.")
    ++ ["<remarks>Changing the case releases the previous member and gives the new "
      ++ "member its default value.</remarks>"]

/-- The members that a oneof declares. -/
def OneofPlan.declarations (plan : OneofPlan) : List Member :=
  let names := plan.names
  [.nestedType .publicSection [] (.enumType names.caseEnum),
   plainMember .privateSection (.field names.backing names.caseType),
   plainMember .protectedSection (.method names.getterMethod),
   plainMember .protectedSection (.method names.setterMethod),
   .item .publicSection names.propertyComment
     (.property names.property names.caseType names.getter names.setter)]

/-- The arms that treat each member according to its case value. -/
def OneofPlan.arms (plan : OneofPlan) (body : FieldPlan → Body) : List (Arm Action Expr) :=
  plan.members.filterMap fun member =>
    (plan.names.caseValue? member.field.number).map fun value =>
      .arm (plan.names.qualify value) (body member)

/-- The present case. -/
def OneofPlan.backing (plan : OneofPlan) : Expr :=
  .own plan.names.backing

/-- Show the present case. -/
def OneofPlan.getterBody (plan : OneofPlan) : Body :=
  [assign resultValue plan.backing]

/-- Change the case: release the member that leaves, store the case, initialize the member that
enters. -/
def OneofPlan.setterBody (plan : OneofPlan) : Body :=
  [ifThen (.compare incomingValue .different plan.backing)
    [.caseOf plan.backing (plan.arms FieldPlan.releaseBody),
     assign plan.backing incomingValue,
     .caseOf plan.backing (plan.arms FieldPlan.initializeBody)]]

/-- The implementations of the accessors of a oneof. -/
def OneofPlan.implementations (plan : OneofPlan) : List (Implementation Action Expr) :=
  [{ className := plan.className, method := plan.names.getterMethod, body := plan.getterBody },
   { className := plan.className, method := plan.names.setterMethod, body := plan.setterBody }]

/-- What a oneof contributes to the constructor: no member is selected. -/
def OneofPlan.createBody (plan : OneofPlan) : Body :=
  [assign plan.backing (plan.names.qualify plan.names.noneValue)]

end ProtoPascal.Message
