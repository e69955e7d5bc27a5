import ProtoPascal.Schema.Basic

/-!
The order in which the class of a message declares its fields and oneofs.
-/

namespace ProtoPascal.Message

open Schema (Field)

/-- The place of a field or a oneof among the declarations of a class, given by position. -/
inductive Slot where
  | field (position : Nat)
  | oneof (position : Nat)
deriving DecidableEq, Repr

/-- The slots of fields from a position on, each oneof that is not yet `placed` just before the
first of its members. -/
def slotsFrom (placed : List Nat) (position : Nat) : List Field → List Slot
  | [] => []
  | field :: rest =>
    match field.oneofIndex with
    | none => .field position :: slotsFrom placed (position + 1) rest
    | some oneof =>
      if placed.contains oneof then .field position :: slotsFrom placed (position + 1) rest
      else .oneof oneof :: .field position :: slotsFrom (oneof :: placed) (position + 1) rest

/-- The order in which a class declares its fields and oneofs: the fields in order, each oneof just
before its first member, and the oneofs without members at the end. -/
def declarationSlots (fields : List Field) (oneofCount : Nat) : List Slot :=
  let memberless := (List.range oneofCount).filter fun position =>
    !(fields.any fun field => field.oneofIndex == some position)
  slotsFrom [] 0 fields ++ memberless.map .oneof

end ProtoPascal.Message
