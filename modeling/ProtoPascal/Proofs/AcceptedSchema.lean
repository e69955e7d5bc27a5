import ProtoPascal.Proofs.DescriptorRules

/-!
What is known of the messages of an accepted file, at any depth: no two fields of a message have one
number, no repeated field belongs to a oneof, and all oneofs that fields belong to are there.

* `MessageType.Within.exists_describes`: each message inside a message has its own descriptor;
* `File.ofDescriptor_accepted`: all messages of a file from a descriptor are accepted, at any depth;
* `File.ofDescriptor_oneofIndex_lt`: the fields of these messages belong to oneofs that are there.
-/

namespace ProtoPascal.Schema

/-- What the rules on the fields of a message leave possible. -/
structure MessageType.Accepted (message : MessageType) : Prop where
  numbers : (message.fields.map Field.number).Nodup
  positive : ∀ field ∈ message.fields, 0 < field.number
  singular : ∀ field ∈ message.fields, ∀ oneof, field.oneofIndex = some oneof →
    field.repeated = false

/-- A message is another one, or is nested in it at some depth. -/
inductive MessageType.Within : MessageType → MessageType → Prop
  | self {message : MessageType} : Within message message
  | nested {message inner outer : MessageType} (inside : inner ∈ outer.nestedMessages)
    (deeper : Within message inner) : Within message outer

theorem MessageType.Within.trans {message inner outer : MessageType} (left : message.Within inner)
    (right : inner.Within outer) : message.Within outer := by
  induction right with
  | self => exact left
  | nested inside _ ih => exact .nested inside ih

/-- A message that a valid descriptor describes is accepted. -/
theorem MessageDescriptor.Valid.accepted {descriptor : MessageDescriptor} {message : MessageType}
    (valid : descriptor.Valid) (own : descriptor.DescribesOwn message) : message.Accepted := by
  -- The rules on the descriptor are those that are checked for the fields, under any name.
  have checked : checkFields message.name message.fields = .ok () :=
    (checkFields_eq_ok own.fields).mpr ⟨valid.pairs, valid.singular⟩
  obtain ⟨numbers, -, -, singular⟩ := checkFieldsFrom_eq_ok.mp checked
  refine ⟨numbers, fun field inside => ?_, fun field inside oneof belongs => ?_⟩
  · obtain ⟨fieldDescriptor, given, describes⟩ := exists_left_of_forall₂ own.fields inside
    obtain ⟨number, hasNumber, positive⟩ := (valid.fields fieldDescriptor given).numbered
    rw [describes.number, Option.mem_some_iff] at hasNumber
    exact hasNumber ▸ positive
  · by_contra repeated
    have absent := singular field inside (Bool.not_eq_false _ ▸ repeated)
    rw [belongs] at absent
    cases absent

/-- The fields of a message that a valid descriptor describes belong to oneofs of the message. -/
theorem MessageDescriptor.Valid.oneofIndex_lt {descriptor : MessageDescriptor} {message : MessageType}
    (valid : descriptor.Valid) (own : descriptor.DescribesOwn message) {field : Field}
    (inside : field ∈ message.fields) {position : Nat} (belongs : field.oneofIndex = some position) :
    position < message.oneofs.length := by
  obtain ⟨fieldDescriptor, given, describes⟩ := exists_left_of_forall₂ own.fields inside
  have index : fieldDescriptor.oneofIndex = some (position : Int) := by
    rw [describes.oneof, belongs]
    rfl
  obtain ⟨-, inRange⟩ := (valid.fields fieldDescriptor given).oneof position index
  rw [own.oneofs.length_eq] at inRange
  exact Int.ofNat_lt.mp inRange

/-- A message inside a described message is described by a part of the descriptor. -/
theorem MessageType.Within.exists_describes {message outer : MessageType}
    (within : message.Within outer) {descriptor : MessageDescriptor}
    (describes : descriptor.Describes outer) : ∃ inner ∈ descriptor.tree, inner.Describes message := by
  induction within generalizing descriptor with
  | self => exact ⟨descriptor, mem_tree.mpr (.inl rfl), describes⟩
  | nested inside _ ih =>
    obtain ⟨nested, given, nested_describes⟩ :=
      exists_left_of_forall₂ (MessageDescriptor.describes_iff.mp describes).2 inside
    obtain ⟨inner, member, inner_describes⟩ := ih nested_describes
    exact ⟨inner, mem_tree.mpr (.inr ⟨nested, given, member⟩), inner_describes⟩

section

variable {descriptor : FileDescriptor} {file : File} {message outer : MessageType}

/-- Each message of a file from a descriptor is described by a valid descriptor, at any depth. -/
theorem File.exists_valid_descriptor (described : File.ofDescriptor descriptor = .ok file)
    (inside : outer ∈ file.messages) (within : message.Within outer) :
    ∃ inner : MessageDescriptor, inner.Valid ∧ inner.DescribesOwn message := by
  obtain ⟨valid, describes⟩ := File.ofDescriptor_eq_ok.mp described
  obtain ⟨outerDescriptor, given, outer_describes⟩ := exists_left_of_forall₂ describes.messages inside
  obtain ⟨inner, member, inner_describes⟩ := within.exists_describes outer_describes
  exact ⟨inner, valid.messages inner (mem_trees.mpr ⟨outerDescriptor, given, member⟩),
    (MessageDescriptor.describes_iff.mp inner_describes).1⟩

/-- **All messages of a file from a descriptor are accepted**, at any depth. -/
theorem File.ofDescriptor_accepted (described : File.ofDescriptor descriptor = .ok file)
    (inside : outer ∈ file.messages) (within : message.Within outer) : message.Accepted := by
  obtain ⟨inner, valid, own⟩ := File.exists_valid_descriptor described inside within
  exact valid.accepted own

/-- **The oneofs that fields belong to are there**, in all messages of a file from a descriptor. -/
theorem File.ofDescriptor_oneofIndex_lt (described : File.ofDescriptor descriptor = .ok file)
    (inside : outer ∈ file.messages) (within : message.Within outer) {field : Field}
    (declared : field ∈ message.fields) {position : Nat}
    (belongs : field.oneofIndex = some position) : position < message.oneofs.length := by
  obtain ⟨inner, valid, own⟩ := File.exists_valid_descriptor described inside within
  exact valid.oneofIndex_lt own declared belongs

end

end ProtoPascal.Schema
