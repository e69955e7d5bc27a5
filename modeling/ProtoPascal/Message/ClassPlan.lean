import ProtoPascal.Message.Oneof
import ProtoPascal.Message.Slots

/-!
Plans of message classes: the fields and oneofs of a message with their names in the class, the
support of the runtime library for their types, and the order of their declarations.
-/

namespace ProtoPascal.Message

open Naming
open Schema (Field MessageType Oneof)

/-- Take the names of all fields and then of all oneofs of a message. -/
def claimNames (message : MessageType) : Claiming (List FieldNames × List OneofNames) := do
  let fieldNames ← message.fields.mapM FieldNames.claim
  let oneofNames ← message.oneofs.zipIdx.mapM fun (oneof, position) =>
    OneofNames.claim oneof (message.oneofMembers position)
  return (fieldNames, oneofNames)

/-- The membership of a field in the oneof that it refers to. -/
def membershipOf (fullName : String) (oneofs : List OneofNames) (field : Field) :
    Except Error (Option Membership) :=
  match field.oneofIndex with
  | none => .ok none
  | some position =>
    let qualified := Schema.qualifiedName fullName field.name
    match oneofs[position]? with
    | none => .error (.invalidSchema (.undeclaredOneof qualified position))
    | some oneof =>
      match oneof.caseValue? field.number with
      | none => .error (.invalidSchema (.missingFromOneof qualified oneof.protoName))
      | some caseValue => .ok (some { oneof, caseValue })

/-- The plan of a field in the class of its message. -/
def planField (context : Context) (className fullName : String) (oneofs : List OneofNames)
    (named : Field × FieldNames) : Except Error FieldPlan := do
  let membership ← membershipOf fullName oneofs named.1
  FieldPlan.make context className fullName membership named.2 named.1

/-- The plan of the oneof at a position, with the plans of its members. -/
def planOneof (className : String) (fields : List FieldPlan) (names : OneofNames)
    (position : Nat) : OneofPlan :=
  { names, className, members := fields.filter fun plan => plan.field.oneofIndex == some position }

/-- All that the code of a class depends on. -/
structure ClassPlan where
  /-- The class with the classes around it. -/
  className : String
  fields : List FieldPlan
  oneofs : List OneofPlan
  slots : List Slot

/-- The plan of the class of a message, in a scope in which the names of the nested types are
taken. -/
def ClassPlan.make (context : Context) (className fullName : String) (scope : Scope)
    (message : MessageType) : Except Error ClassPlan := do
  let (fieldNames, oneofNames) ← (claimNames message).resultIn scope
  let fields ← (message.fields.zip fieldNames).mapM
    (planField context className fullName oneofNames)
  let oneofs := oneofNames.zipIdx.map fun (names, position) =>
    planOneof className fields names position
  return { className, fields, oneofs,
           slots := declarationSlots message.fields message.oneofs.length }

/-- What the fields and oneofs contribute, in the order of the slots. -/
def ClassPlan.flatMapSlots {α : Type} (plan : ClassPlan) (ofField : FieldPlan → List α)
    (ofOneof : OneofPlan → List α) : List α :=
  plan.slots.flatMap fun slot =>
    match slot with
    | .field position => (plan.fields[position]?.map ofField).getD []
    | .oneof position => (plan.oneofs[position]?.map ofOneof).getD []

end ProtoPascal.Message
