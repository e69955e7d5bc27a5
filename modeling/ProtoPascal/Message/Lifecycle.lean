import ProtoPascal.Message.ClassPlan

/-!
The methods that every message class has: those that create, destroy, clear, encode, decode, merge
and assign a message. They call the methods of the ancestor and treat the fields of the class one
after the other. The fields of the class have methods of their own for clearing, merging and
assigning, so the work of the ancestor is never done twice.
-/

namespace ProtoPascal.Message

open Pascal

/-- The class from which all message classes descend. -/
def ancestorClass : String := "TProtobufMessage"

/-- A method of the class with its visibility and its implementation. -/
structure ClassMethod where
  visibility : Visibility
  method : Method
  locals : List Parameter := []
  body : Body

/-- A method as a member of its class. -/
def ClassMethod.member (method : ClassMethod) : Member :=
  plainMember method.visibility (.method method.method)

/-- The implementation of a method. -/
def ClassMethod.implementation (className : String) (method : ClassMethod) :
    Implementation Action Expr :=
  { className, method := method.method, locals := method.locals, body := method.body }

/-- A call of a method as the ancestor defines it. -/
def inheritCall (method : String) (arguments : List Expr) : Statement Action Expr :=
  .simple (.inherit method arguments)

/-- A call of a method of the instance for its effect. -/
def callOwn (method : String) (arguments : List Expr) : Statement Action Expr :=
  .simple (.perform (.callOwn method arguments))

/-- A method that replaces the one of the ancestor. -/
def overriding (kind : MethodKind) (name : String) (parameters : List Parameter) : Method :=
  { kind, name, parameters, binding := .override }

/-- What all fields contribute, in the order of their declaration. -/
def ClassPlan.concatFields (plan : ClassPlan) (fragment : FieldPlan → Body) : Body :=
  plan.fields.flatMap fragment

/-- The body of the constructor. -/
def ClassPlan.createBody (plan : ClassPlan) : Body :=
  [inheritCall "Create" []]
    ++ plan.flatMapSlots FieldPlan.createBody OneofPlan.createBody
    ++ [callOwn "ClearOwnFields" []]

/-- The body of the destructor, which frees the fields from the last to the first. -/
def ClassPlan.destroyBody (plan : ClassPlan) : Body :=
  plan.fields.reverse.flatMap FieldPlan.destroyBody ++ [inheritCall "Destroy" []]

/-- Call the method of the ancestor, and give the source to a method for the own fields. -/
def ClassPlan.delegateBody (plan : ClassPlan) (method ownFields : String) : Body :=
  [assign (.localName "lSource") (.downcast sourceMessage plan.className),
   inheritCall method [sourceMessage],
   callOwn ownFields [.localName "lSource"]]

/-- The methods that every message class has. -/
def ClassPlan.methods (plan : ClassPlan) : List ClassMethod :=
  let ownSource : List Parameter := [⟨"aSource", plan.className⟩]
  let localSource : List Parameter := [⟨"lSource", plan.className⟩]
  [{ visibility := .publicSection
     method := overriding .constructor "Create" []
     body := plan.createBody },
   { visibility := .publicSection
     method := overriding .destructor "Destroy" []
     body := plan.destroyBody },
   { visibility := .publicSection
     method := overriding .procedure "Clear" []
     body := [inheritCall "Clear" [], callOwn "ClearOwnFields" []] },
   { visibility := .publicSection
     method := overriding .procedure "Encode" [⟨"aDest", "TStream"⟩]
     body := inheritCall "Encode" [.localName "aDest"] :: plan.concatFields FieldPlan.encodeBody },
   { visibility := .publicSection
     method := overriding .procedure "Decode" [⟨"aSource", "TStream"⟩]
     body := inheritCall "Decode" [sourceMessage] :: plan.concatFields FieldPlan.decodeBody },
   { visibility := .publicSection
     method := overriding .procedure "MergeFrom" [⟨"aSource", ancestorClass⟩]
     locals := localSource
     body := plan.delegateBody "MergeFrom" "MergeFromOwnFields" },
   { visibility := .publicSection
     method := overriding .procedure "Assign" [⟨"aSource", "TPersistent"⟩]
     locals := localSource
     body := plan.delegateBody "Assign" "AssignOwnFields" },
   { visibility := .privateSection
     method := { kind := .procedure, name := "ClearOwnFields" }
     body := plan.concatFields FieldPlan.clearBody },
   { visibility := .privateSection
     method := { kind := .procedure, name := "MergeFromOwnFields", parameters := ownSource }
     body := plan.concatFields FieldPlan.mergeBody },
   { visibility := .privateSection
     method := { kind := .procedure, name := "AssignOwnFields", parameters := ownSource }
     body := plan.concatFields FieldPlan.assignBody }]

end ProtoPascal.Message
