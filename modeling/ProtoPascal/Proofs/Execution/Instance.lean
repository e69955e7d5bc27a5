import Mathlib.Algebra.Field.Rat
import Mathlib.Algebra.Order.Ring.Int
import ProtoPascal.Proofs.Execution.Machine
import ProtoPascal.Proofs.WellFormedPlan

/-!
Instances of generated classes on the machine, in terms of the plan of their class: which values a
field can hold, what the generated code does to them, and when the state of an instance is
consistent.

An instance owns the objects that its fields hold. In a consistent state every field holds a value
of its type, no two fields hold one object, and every oneof selects at most one member while all
others hold the value that stands for absence.
-/

namespace ProtoPascal.Execution

open Message
open Schema (FieldType ScalarType TypeKind)

/-! ## Values of types -/

/-- Whether a floating-point value has a significand of a number of bits, and an exponent in
bounds. -/
def Floating.Representable (precision lowest highest : Nat) : Floating → Prop
  | .finite value => ∃ (significand : Int) (down up : Nat), significand.natAbs < 2 ^ precision ∧
      down ≤ lowest ∧ up ≤ highest ∧ value = (significand * 2 ^ up : Rat) / 2 ^ down
  | .infinite _ => True
  | .notANumber => True

/-- Whether an integer has a signed representation with a number of bits after the sign. -/
def IsSigned (bits : Nat) (value : Int) : Prop :=
  -2 ^ bits ≤ value ∧ value < 2 ^ bits

/-- Whether an integer has an unsigned representation with a number of bits. -/
def IsUnsigned (bits : Nat) (value : Int) : Prop :=
  0 ≤ value ∧ value < 2 ^ bits

/-- The values of a scalar type. -/
def FitsScalar : ScalarType → Value → Prop
  | .double, .floating value => value.Representable 53 1074 971
  | .float, .floating value => value.Representable 24 149 104
  | .int32, .integer value | .sint32, .integer value | .sfixed32, .integer value =>
    IsSigned 31 value
  | .int64, .integer value | .sint64, .integer value | .sfixed64, .integer value =>
    IsSigned 63 value
  | .uint32, .integer value | .fixed32, .integer value => IsUnsigned 32 value
  | .uint64, .integer value | .fixed64, .integer value => IsUnsigned 64 value
  | .bool, .truth _ => True
  | .string, .text _ => True
  | .bytes, .nil => True
  | .bytes, .bytes _ _ => True
  | _, _ => False

/-- The values of a type that are no objects, as they are stored. Enumerations are stored by their
ordinals. -/
def FitsType : FieldType → Value → Prop
  | .scalar type, value => FitsScalar type value
  | .reference _ _, value => ∃ ordinal, IsSigned 31 ordinal ∧ value = .integer ordinal

/-- The value that stands for the absence of a value of a type. -/
def absentValue : FieldType → Value
  | .scalar .double | .scalar .float => .floating (.finite 0)
  | .scalar .bool => .truth false
  | .scalar .string => .text ""
  | .scalar .bytes => .nil
  | .scalar _ => .integer 0
  | .reference .enumeration _ => .integer 0
  | .reference .message _ => .nil

/-- The text of the default value of a scalar type denotes the value that stands for absence. -/
theorem literal?_defaultText (type : ScalarType) :
    literal? (defaultText type) = some (absentValue (.scalar type)) := by
  cases type <;> decide

/-- The text of the default value denotes the value that stands for absence. -/
theorem literal?_defaultValue {type : FieldType} {support : TypeSupport}
    (supported : Supported type support) :
    literal? support.defaultValue = some (absentValue type) := by
  cases supported with
  | scalar runtime type => exact literal?_defaultText type
  | declared runtime kind typeName reference =>
    cases kind with
    | message => exact literal?_nil
    | enumeration => exact literal?_zero

/-- The support for a type tells whether its values are messages. -/
theorem kind_eq_message_iff {type : FieldType} {support : TypeSupport}
    (supported : Supported type support) : support.kind = .message ↔ type.isMessage = true := by
  cases supported with
  | scalar runtime type =>
    simp only [Runtime.scalarSupport, FieldType.isMessage]
    split <;> simp
  | declared runtime kind typeName reference =>
    cases kind <;> simp [Runtime.referenceSupport, FieldType.isMessage]

/-- The value that stands for absence is a value of its type. -/
theorem fitsScalar_absentValue (type : ScalarType) :
    FitsScalar type (absentValue (.scalar type)) := by
  have zero (precision lowest highest : Nat) :
      Floating.Representable precision lowest highest (.finite 0) :=
    ⟨0, 0, 0, Nat.two_pow_pos precision, Nat.zero_le _, Nat.zero_le _, by
      rw [Rat.intCast_zero, Rat.zero_mul, Rat.div_def, Rat.zero_mul]⟩
  cases type <;> first | exact zero _ _ _ | exact ⟨by decide, by decide⟩ | trivial

theorem FitsType.ne_object {type : FieldType} {value : Value} (fits : FitsType type value)
    (address : Address) : value ≠ .object address := by
  rintro rfl
  cases type with
  | scalar type => cases type <;> exact fits.elim
  | reference kind typeName =>
    obtain ⟨_, _, impossible⟩ := fits
    cases impossible

variable {Content Payload : Type}

/-- Whether the values of a field are objects: collections or messages. -/
def holdsObjects (field : FieldPlan) : Bool :=
  field.field.repeated || field.field.type.isMessage

/-- A value that is no object, or an object that is alive. -/
def IsAlive (machine : Machine Content Payload) (value : Value) : Prop :=
  value = .nil ∨ ∃ address, value = .object address ∧ (machine.objects address).isSome = true

/-- The values that a field can store. -/
def Fits (machine : Machine Content Payload) (field : FieldPlan) (value : Value) : Prop :=
  if holdsObjects field then IsAlive machine value else FitsType field.field.type value

/-! ## What the generated code does -/

/-- The value of a field that stands for absence. -/
def absent (field : FieldPlan) : Value :=
  absentValue field.field.type

theorem absent_of_isMessage {field : FieldPlan}
    (message : field.field.type.isMessage = true) :
    absent field = .nil := by
  unfold absent
  cases type : field.field.type with
  | scalar scalar => rw [type] at message; cases message
  | reference kind typeName =>
    rw [type] at message
    cases kind with
    | message => rfl
    | enumeration => cases message

/-- The value that a field stores for a value of its property. -/
def toStored : Value → Value
  | .enumeration _ ordinal => .integer ordinal
  | value => value

/-- An object is freed, if the value is one. -/
def freeValue (machine : Machine Content Payload) : Value → Machine Content Payload
  | .object address => machine.setObject address none
  | _ => machine

section

variable (self : Address) (machine : Machine Content Payload)

/-- The value that a field of an instance stores. -/
def stored (field : FieldPlan) : Value :=
  machine.fields self field.names.backing

/-- A field of an instance is given a value. -/
def put (field : FieldPlan) (value : Value) : Machine Content Payload :=
  machine.store self field.names.backing value

/-- A field of an instance is given an object, and the one that it held is freed. -/
def replace (field : FieldPlan) (value : Value) : Machine Content Payload :=
  put self (freeValue machine (stored self machine field)) field value

/-- A field of an instance is given a new object. -/
def putNew (field : FieldPlan) (content : Content) : Machine Content Payload :=
  put self (machine.allocate content) field (.object machine.fresh)

/-- A field of an instance loses its value. -/
def release (field : FieldPlan) : Machine Content Payload :=
  if field.field.type.isMessage then replace self machine field .nil
  else put self machine field (absent field)

variable (library : Library Content Payload)

/-- A field of an instance is given a new value, which is a new object if its values are objects. -/
def renew (field : FieldPlan) : Machine Content Payload :=
  if field.field.type.isMessage then
    putNew self machine field (library.create field.support.publicType)
  else put self machine field (absent field)

/-- The value of a case type at a position: none, and then the members in order. -/
def caseAt (oneof : OneofPlan) (position : Nat) : Value :=
  .enumeration oneof.names.caseType position

/-- The member of a oneof for which the value at a position stands. -/
def memberAt (oneof : OneofPlan) : Nat → Option FieldPlan
  | 0 => none
  | position + 1 => oneof.members[position]?

/-- The member of a oneof at a position is released. -/
def leave (oneof : OneofPlan) (position : Nat) : Machine Content Payload :=
  (memberAt oneof position).elim machine (release self machine)

/-- The member of a oneof at a position is given a new value. -/
def enter (oneof : OneofPlan) (position : Nat) : Machine Content Payload :=
  (memberAt oneof position).elim machine (renew self machine library)

/-- A oneof is given the value at a position. -/
def putCase (oneof : OneofPlan) (position : Nat) : Machine Content Payload :=
  machine.store self oneof.names.backing (caseAt oneof position)

/-- A oneof that selects the value at a position comes to select that at another one: the member that
leaves is released, and the one that enters is given a new value. -/
def choose (oneof : OneofPlan) (old new : Nat) : Machine Content Payload :=
  if old = new then machine
  else enter self (putCase self (leave self machine oneof old) oneof new) library oneof new

/-- The property of a field outside oneofs is given a value. -/
def assignOutside (field : FieldPlan) (value : Value) : Machine Content Payload :=
  if holdsObjects field then
    if value = stored self machine field then machine else replace self machine field value
  else put self machine field (toStored value)

/-- The presence property of a member of a oneof that selects the value at a position is written. -/
def markMember (oneof : OneofPlan) (current position : Nat) (value : Bool) :
    Machine Content Payload :=
  if value then choose self machine library oneof current position
  else if current = position then choose self machine library oneof current 0
  else machine

/-- The property of a member of a oneof that selects the value at a position is given a value. An
absent message clears the oneof. -/
def assignMember (oneof : OneofPlan) (current position : Nat) (field : FieldPlan) (value : Value) :
    Machine Content Payload :=
  if field.field.type.isMessage then
    if value = .nil then markMember self machine library oneof current position false
    else if value = stored self machine field then machine
    else replace self (markMember self machine library oneof current position true) field value
  else put self (markMember self machine library oneof current position true) field
    (toStored value)

end

/-! ## Cases and members -/

/-- The value at a position of a case type is that at another one only if the positions agree. -/
theorem caseAt_inj {oneof : OneofPlan} {left right : Nat} :
    caseAt oneof left = caseAt oneof right ↔ left = right := by
  rw [caseAt, caseAt, Value.enumeration.injEq, Int.natCast_inj]
  exact and_iff_right rfl

/-- The values of a case type are no floating-point values. -/
theorem caseAt_ne_notANumber (oneof : OneofPlan) (position : Nat) :
    caseAt oneof position ≠ .floating .notANumber :=
  Value.noConfusion

section

variable {plan : ClassPlan} (wellFormed : plan.WellFormed)
include wellFormed

theorem field_backing_ne {field other : FieldPlan} (inside : field ∈ plan.fields)
    (other_inside : other ∈ plan.fields) (different : field ≠ other) :
    field.names.backing ≠ other.names.backing := by
  intro same
  have nodup := (List.nodup_append.mp wellFormed.backings).1
  exact different (List.inj_on_of_nodup_map nodup inside other_inside same)

theorem fields_nodup : plan.fields.Nodup :=
  (List.nodup_append.mp wellFormed.backings).1.of_map

theorem oneof_backing_ne {oneof other : OneofPlan} (inside : oneof ∈ plan.oneofs)
    (other_inside : other ∈ plan.oneofs) (different : oneof ≠ other) :
    oneof.names.backing ≠ other.names.backing := by
  intro same
  have nodup := (List.nodup_append.mp wellFormed.backings).2.1
  exact different (List.inj_on_of_nodup_map nodup inside other_inside same)

theorem field_oneof_backing_ne {field : FieldPlan} {oneof : OneofPlan}
    (inside : field ∈ plan.fields) (oneof_inside : oneof ∈ plan.oneofs) :
    field.names.backing ≠ oneof.names.backing :=
  (List.nodup_append.mp wellFormed.backings).2.2 _ (List.mem_map_of_mem inside) _
    (List.mem_map_of_mem oneof_inside)

theorem memberAt_mem {oneof : OneofPlan} (inside : oneof ∈ plan.oneofs) {field : FieldPlan}
    {position : Nat} (found : memberAt oneof position = some field) : field ∈ plan.fields := by
  cases position with
  | zero => cases found
  | succ position => exact (wellFormed.member oneof inside position field found).1

/-- A field is a member of one oneof, at one position. -/
theorem memberAt_unique {oneof other : OneofPlan} (inside : oneof ∈ plan.oneofs)
    (other_inside : other ∈ plan.oneofs) {field : FieldPlan} {position position' : Nat}
    (found : memberAt oneof position = some field)
    (found' : memberAt other position' = some field) : oneof = other ∧ position = position' := by
  cases position with
  | zero => cases found
  | succ position =>
    cases position' with
    | zero => cases found'
    | succ position' =>
      obtain ⟨-, value, value_found, membership, -⟩ :=
        wellFormed.member oneof inside position field found
      obtain ⟨-, value', value_found', membership', -⟩ :=
        wellFormed.member other other_inside position' field found'
      rw [membership, Option.some.injEq, Membership.mk.injEq] at membership'
      have same : oneof = other := by
        by_contra different
        exact oneof_backing_ne wellFormed inside other_inside different
          (congrArg OneofNames.backing membership'.1)
      subst same
      refine ⟨rfl, ?_⟩
      -- The values of the case type differ, so equal values stand at one position.
      have apart := (List.nodup_cons.mp (wellFormed.values oneof inside)).2
      rw [List.map_map] at apart
      have nodup : (oneof.names.caseValues.map CaseValue.name).Nodup := by
        refine List.Nodup.of_map Text.fold ?_
        rwa [List.map_map]
      have first : (oneof.names.caseValues.map CaseValue.name)[position]? = some value.name := by
        rw [List.getElem?_map, value_found, Option.map_some]
      have second : (oneof.names.caseValues.map CaseValue.name)[position']? = some value.name := by
        rw [List.getElem?_map, value_found', Option.map_some, membership'.2]
      have below := (List.getElem?_eq_some_iff.mp first).1
      exact congrArg (· + 1) ((List.getElem?_inj below nodup).mp (first.trans second.symm))

/-- A field that is not repeated has a presence property. -/
theorem exists_presence {field : FieldPlan} (inside : field ∈ plan.fields)
    (single : field.field.repeated = false) : ∃ presence, field.names.presence = some presence := by
  refine Option.isSome_iff_exists.mp ?_
  rw [wellFormed.presence field inside, single]
  rfl

/-- A member of a oneof is not repeated and has a presence property. -/
theorem memberAt_presence {oneof : OneofPlan}
    (inside : oneof ∈ plan.oneofs) {field : FieldPlan} {position : Nat}
    (found : memberAt oneof position = some field) :
    field.field.repeated = false ∧ field.membership.isSome = true ∧
      ∃ presence, field.names.presence = some presence := by
  have field_inside := memberAt_mem wellFormed inside found
  have membership : field.membership.isSome = true := by
    cases position with
    | zero => cases found
    | succ position =>
      obtain ⟨-, value, -, membership, -⟩ := wellFormed.member oneof inside position field found
      rw [membership]
      rfl
  have single : field.field.repeated = false := by
    by_contra repeated
    rw [Bool.not_eq_false] at repeated
    rw [wellFormed.repeated field field_inside repeated] at membership
    cases membership
  exact ⟨single, membership, exists_presence wellFormed field_inside single⟩

end

/-! ## Consistent states -/

/-- What is known of a oneof of an instance that selects the value at a position. -/
structure Selects (owner : Address) (machine : Machine Content Payload) (oneof : OneofPlan)
    (position : Nat) : Prop where
  bound : position ≤ oneof.members.length
  backing : machine.fields owner oneof.names.backing = caseAt oneof position
  /-- A message that is selected is there. -/
  selected : ∀ field, memberAt oneof position = some field → field.field.type.isMessage = true →
    stored owner machine field ≠ .nil
  unselected : ∀ other field, memberAt oneof other = some field → other ≠ position →
    stored owner machine field = absent field

/-- The fields of an instance hold values of their types, and no two of them hold one object. -/
structure Owns (plan : ClassPlan) (owner : Address) (machine : Machine Content Payload) : Prop where
  below : ∀ address, (machine.objects address).isSome = true → address < machine.fresh
  fits : ∀ field ∈ plan.fields, Fits machine field (stored owner machine field)
  apart : ∀ field ∈ plan.fields, ∀ other ∈ plan.fields, ∀ address,
    stored owner machine field = .object address → stored owner machine other = .object address →
      field = other

/-- The values that can be written to the property of a field. An object must be alive, and no other
field may hold it. -/
def Accepts (plan : ClassPlan) (self : Address) (machine : Machine Content Payload)
    (field : FieldPlan) (value : Value) : Prop :=
  if holdsObjects field then
    IsAlive machine value ∧ ∀ other ∈ plan.fields, ∀ address, value = .object address →
      stored self machine other = .object address → other = field
  else
    match field.field.type with
    | .scalar type => FitsScalar type value
    | .reference _ _ => ∃ ordinal, IsSigned 31 ordinal ∧
      value = .enumeration field.support.publicType ordinal

theorem toStored_of_fitsScalar {type : ScalarType} {value : Value}
    (fits : FitsScalar type value) : toStored value = value := by
  cases value with
  | enumeration enumType ordinal => cases type <;> exact fits.elim
  | _ => rfl

/-- What a property accepts fits into its field. -/
theorem Accepts.fits {plan : ClassPlan} {self : Address} {machine : Machine Content Payload}
    {field : FieldPlan} {value : Value} (accepts : Accepts plan self machine field value) :
    Fits machine field (toStored value) := by
  unfold Accepts at accepts
  unfold Fits
  cases objects : holdsObjects field with
  | true =>
    rw [objects, if_pos rfl] at accepts
    rw [if_pos rfl]
    rcases accepts.1 with rfl | ⟨address, rfl, alive⟩
    · exact .inl rfl
    · exact .inr ⟨address, rfl, alive⟩
  | false =>
    rw [objects, if_neg Bool.false_ne_true] at accepts
    rw [if_neg Bool.false_ne_true]
    cases type : field.field.type with
    | scalar scalar =>
      rw [type] at accepts
      dsimp only at accepts ⊢
      rw [toStored_of_fitsScalar accepts]
      exact accepts
    | reference kind typeName =>
      rw [type] at accepts
      obtain ⟨ordinal, signed, rfl⟩ := accepts
      exact ⟨ordinal, signed, rfl⟩

/-- The state of an instance is consistent. -/
structure Consistent (plan : ClassPlan) (owner : Address) (machine : Machine Content Payload) :
    Prop where
  owns : Owns plan owner machine
  selects : ∀ oneof ∈ plan.oneofs, ∃ position, Selects owner machine oneof position

end ProtoPascal.Execution
