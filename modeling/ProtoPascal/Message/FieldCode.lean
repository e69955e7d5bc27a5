import ProtoPascal.Message.Field

/-!
The code of a field: the bodies of its accessors, and the fragments that it contributes to the
methods of its class. The presence of a member of a oneof changes only through the case property of
the oneof.
-/

namespace ProtoPascal.Message

open Pascal

/-! ## Building blocks -/

/-- An assignment. -/
def assign (target value : Expr) : Statement Action Expr :=
  .simple (.assign target value)

/-- A call of a method of an object for its effect. -/
def invoke (object : Expr) (method : String) (arguments : List Expr) : Statement Action Expr :=
  .simple (.perform (.invoke object method arguments))

/-- A conditional statement without an else branch. -/
def ifThen (condition : Expr) (thenBranch : Body) : Statement Action Expr :=
  .ifElse condition thenBranch []

/-- The value given to a setter. -/
def incomingValue : Expr := .localName "aValue"

/-- The message from which fields are copied. -/
def sourceMessage : Expr := .localName "aSource"

/-- The result of a function. -/
def resultValue : Expr := .localName "Result"

/-- The absent object. -/
def nilValue : Expr := .constant "nil"

/-- The truth value of a condition that holds. -/
def trueValue : Expr := .constant "True"

/-- The truth value of a condition that does not hold. -/
def falseValue : Expr := .constant "False"

/-! ## Names of a field in expressions -/

/-- The backing field of the instance. -/
def FieldPlan.backing (plan : FieldPlan) : Expr := .own plan.names.backing

/-- The property of the instance. -/
def FieldPlan.property (plan : FieldPlan) : Expr := .own plan.names.property

/-- The constant that holds the number of the field. -/
def FieldPlan.number (plan : FieldPlan) : Expr := .own plan.names.numberConstant

/-- The property that tells whether a singular field is present. -/
def FieldPlan.presenceName (plan : FieldPlan) : String :=
  match plan.names.presence with
  | some presence => presence.property
  | none => plan.names.property

/-- The presence property of the instance. -/
def FieldPlan.has (plan : FieldPlan) : Expr := .own plan.presenceName

/-- The backing field of the message from which fields are copied. -/
def FieldPlan.sourceBacking (plan : FieldPlan) : Expr :=
  .member sourceMessage plan.names.backing

/-- The wire codec among the arguments of a call, where there is one. -/
def FieldPlan.codecArgument (plan : FieldPlan) : List Expr :=
  (plan.support.wireCodec.map Expr.runtimeObject).toList

/-! ## Accessors -/

/-- A collection seen as one of a type, unless it already is. -/
def convertCollection (target actual : String) (value : Expr) : Expr :=
  if target = actual then value else .convert target value

/-- Show the stored value. -/
def FieldPlan.getterBody (plan : FieldPlan) : Body :=
  let value :=
    if plan.field.repeated then
      convertCollection plan.publicType plan.internalType plan.backing
    else plan.support.toPublic plan.backing
  [assign resultValue value]

/-- Store a value that the message owns from now on, and free the one that it owned before. -/
def FieldPlan.replaceOwned (plan : FieldPlan) (value : Expr) : Body :=
  [invoke plan.backing "Free" [], assign plan.backing value]

/-- Store a value. A member of a oneof is selected first, unless the value is an absent message, which
clears the oneof. -/
def FieldPlan.setterBody (plan : FieldPlan) : Body :=
  if plan.field.repeated then
    let incoming := convertCollection plan.internalType plan.publicType incomingValue
    [ifThen (.compare incoming .different plan.backing) (plan.replaceOwned incoming)]
  else
    let store := assign plan.backing (plan.support.toInternal incomingValue)
    let changed := Expr.compare incomingValue .different plan.backing
    match plan.isMessage, plan.membership.isSome with
    | true, false => [ifThen changed (plan.replaceOwned incomingValue)]
    | true, true =>
      [.ifElse (.compare incomingValue .equal nilValue)
        [assign plan.has falseValue]
        [ifThen changed (assign plan.has trueValue :: plan.replaceOwned incomingValue)]]
    | false, false => [store]
    | false, true => [assign plan.has trueValue, store]

/-- Tell whether the oneof selects the field, or, outside oneofs, whether the value differs from the
default. -/
def FieldPlan.presenceGetterBody (plan : FieldPlan) : Body :=
  let condition :=
    match plan.membership with
    | some membership =>
      .parenthesized (.compare (.own membership.oneof.backing) .equal membership.qualifiedCase)
    | none => plan.support.presenceExpression plan.backing
  [assign resultValue condition]

/-- Free what the field owns and give it its default value. -/
def FieldPlan.releaseBody (plan : FieldPlan) : Body :=
  if plan.isMessage then plan.replaceOwned nilValue
  else [assign plan.backing (.constant plan.support.defaultValue)]

/-- Give the field a fresh default value, which is a new instance where values are messages. -/
def FieldPlan.initializeBody (plan : FieldPlan) : Body :=
  if plan.isMessage then [assign plan.backing (.create plan.support.publicType)]
  else [assign plan.backing (.constant plan.support.defaultValue)]

/-- Change the presence of a field: through the case of its oneof, or, outside oneofs, by resetting
the value. Outside oneofs a field cannot be made present without a value. -/
def FieldPlan.presenceSetterBody (plan : FieldPlan) : Body :=
  match plan.membership with
  | some membership =>
    let caseProperty := Expr.own membership.oneof.property
    [.ifElse incomingValue
      [ifThen (.negate plan.has) [assign caseProperty membership.qualifiedCase]]
      [ifThen plan.has [assign caseProperty membership.noneCase]]]
  | none =>
    let text := "Cannot mark field " ++ plan.field.name ++ " as present without assigning a value"
    [.ifElse incomingValue
      [ifThen (.negate plan.has)
        [.simple (.raise "EProtobufInvalidOperation" (.quoted text))]]
      plan.releaseBody]

/-- The implementation of a method of the class of a field. -/
def FieldPlan.implement (plan : FieldPlan) (method : Method) (body : Body) :
    Implementation Action Expr :=
  { className := plan.className, method, body }

/-- The implementations of the accessors of a field. -/
def FieldPlan.implementations (plan : FieldPlan) : List (Implementation Action Expr) :=
  [plan.implement plan.getterMethod plan.getterBody,
   plan.implement plan.setterMethod plan.setterBody]
    ++ match plan.names.presence with
      | some presence =>
        [plan.implement presence.getterMethod plan.presenceGetterBody,
         plan.implement presence.setterMethod plan.presenceSetterBody]
      | none => []

/-! ## Fragments of the methods of the class -/

/-- The part of a field in the constructor. -/
def FieldPlan.createBody (plan : FieldPlan) : Body :=
  if plan.field.repeated then [assign plan.backing (.create plan.internalType)] else []

/-- The part of a field in the destructor. -/
def FieldPlan.destroyBody (plan : FieldPlan) : Body :=
  if plan.field.repeated || plan.isMessage then [invoke plan.backing "Free" []] else []

/-- The part of a field in clearing a message. -/
def FieldPlan.clearBody (plan : FieldPlan) : Body :=
  if plan.field.repeated then [invoke plan.backing "Clear" []]
  else [assign plan.has falseValue]

/-- The part of a field in writing a message to a stream. -/
def FieldPlan.encodeBody (plan : FieldPlan) : Body :=
  let destination := Expr.localName "aDest"
  if plan.field.repeated then
    [invoke plan.backing "EncodeAsRepeatedField"
      ([destination, plan.number] ++ plan.codecArgument)]
  else
    match plan.support.wireCodec, plan.membership with
    | none, _ =>
      [ifThen plan.has [invoke plan.backing "EncodeAsSingularField" [destination, plan.number]]]
    | some codec, some _ =>
      [ifThen plan.has
        [invoke (.runtimeObject codec) "EncodeField" [plan.backing, plan.number, destination]]]
    | some codec, none =>
      [invoke (.runtimeObject codec) "EncodeSingularField" [plan.backing, plan.number, destination]]

/-- The part of a field in reading a message from a stream. -/
def FieldPlan.decodeBody (plan : FieldPlan) : Body :=
  let instanceName := Expr.localName "Self"
  if plan.field.repeated then
    [invoke plan.backing "DecodeAsUnknownRepeatedField"
      ([instanceName, plan.number] ++ plan.codecArgument)]
  else
    let present : Body :=
      match plan.support.wireCodec with
      | none =>
        [assign plan.property (.create plan.support.publicType),
         invoke plan.backing "DecodeAsUnknownSingularField" [instanceName, plan.number]]
      | some codec =>
        [assign plan.property (plan.support.toPublic
          (.invoke (.runtimeObject codec) "DecodeUnknownField" [instanceName, plan.number]))]
    [.ifElse (.callOwn "HasUnparsedField" [plan.number]) present [assign plan.has falseValue]]

/-- Copy the message that the field of the source holds. -/
def FieldPlan.deepCopyBody (plan : FieldPlan) : Body :=
  [assign plan.property (.create plan.support.publicType),
   invoke plan.backing "Assign" [plan.sourceBacking]]

/-- Copy the value that the property of the source shows. -/
def FieldPlan.valueCopyBody (plan : FieldPlan) : Body :=
  [assign plan.property (.member sourceMessage plan.names.property)]

/-- Whether the field of the source is present. -/
def FieldPlan.sourceHas (plan : FieldPlan) : Expr :=
  .member sourceMessage plan.presenceName

/-- The part of a field in merging another message into a message. -/
def FieldPlan.mergeBody (plan : FieldPlan) : Body :=
  let mergeBacking := invoke plan.backing "MergeFrom" [plan.sourceBacking]
  if plan.field.repeated then [mergeBacking]
  else if plan.isMessage then
    [ifThen plan.sourceHas [.ifElse plan.has [mergeBacking] plan.deepCopyBody]]
  else [ifThen plan.sourceHas plan.valueCopyBody]

/-- The part of a field in copying another message. -/
def FieldPlan.assignBody (plan : FieldPlan) : Body :=
  if plan.field.repeated then [invoke plan.backing "Assign" [plan.sourceBacking]]
  else
    [.ifElse plan.sourceHas
      (if plan.isMessage then plan.deepCopyBody else plan.valueCopyBody)
      [assign plan.has falseValue]]

end ProtoPascal.Message
