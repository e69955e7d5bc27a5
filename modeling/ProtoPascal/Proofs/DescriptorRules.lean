import Mathlib.Data.List.Nodup
import Mathlib.Tactic.IntervalCases
import ProtoPascal.Proofs.Results
import ProtoPascal.Schema.Validation

/-!
Which descriptors describe a schema, and which schema that is. `Valid` collects the rules of schemas,
as conditions on the descriptor alone. `Describes` says that a schema has the shape, the names and the
numbers of a descriptor. The conversion checks the rules one after the other and gives up at the
first one that is broken; the order of the checks does not matter for what is accepted.

* `Field.ofDescriptor_eq_ok`, `EnumType.ofDescriptor_eq_ok`, `MessageType.ofDescriptor_eq_ok`: what is
  converted is valid, and the result is what is described;
* `checkFields_eq_ok`: the rules on the fields of a message, as rules on two fields;
* `descriptor_accepted_iff_valid`: exactly the valid descriptors of files are accepted.
-/

namespace ProtoPascal.Schema

/-! ### Rules -/

/-- A name is given, and it is not empty. -/
def IsNamed (name : Option String) : Prop :=
  ∃ text ∈ name, text ≠ ""

instance (name : Option String) : Decidable (IsNamed name) :=
  inferInstanceAs (Decidable (∃ text ∈ name, text ≠ ""))

/-- The rules on an enumeration. -/
@[mk_iff]
structure EnumDescriptor.Valid (descriptor : EnumDescriptor) : Prop where
  named : IsNamed descriptor.name
  values : ∀ value ∈ descriptor.values, IsNamed value.name

instance (descriptor : EnumDescriptor) : Decidable descriptor.Valid :=
  decidable_of_iff' _ (EnumDescriptor.valid_iff descriptor)

/-- The rules on a field of a message with a number of oneofs. -/
@[mk_iff]
structure FieldDescriptor.Valid (descriptor : FieldDescriptor) (oneofCount : Nat) : Prop where
  named : IsNamed descriptor.name
  /-- Types have the numbers from 1 to 18. That of groups stands for no type of field. -/
  typed : ∃ number ∈ descriptor.type, 1 ≤ number ∧ number ≤ 18 ∧ number ≠ 10
  /-- Messages and enumerations are given by their names. -/
  declared : descriptor.type = some 11 ∨ descriptor.type = some 14 → IsNamed descriptor.typeName
  oneof : ∀ index ∈ descriptor.oneofIndex, 0 ≤ index ∧ index < oneofCount
  numbered : ∃ number ∈ descriptor.number, 0 < number
  optional : descriptor.proto3Optional = some true → descriptor.oneofIndex.isSome

instance (descriptor : FieldDescriptor) (oneofCount : Nat) : Decidable (descriptor.Valid oneofCount) :=
  decidable_of_iff' _ (FieldDescriptor.valid_iff descriptor oneofCount)

/-- The rules on two fields of a message: they have different numbers, and if they belong to one
oneof, then neither is optional. -/
@[mk_iff]
structure FieldDescriptor.Compatible (left right : FieldDescriptor) : Prop where
  number : left.number ≠ right.number
  oneof : left.oneofIndex = right.oneofIndex → left.oneofIndex.isSome →
    left.proto3Optional ≠ some true ∧ right.proto3Optional ≠ some true

instance : DecidableRel FieldDescriptor.Compatible := fun left right =>
  decidable_of_iff' _ (FieldDescriptor.compatible_iff left right)

/-- The rules on a message, those on its nested messages apart. -/
@[mk_iff]
structure MessageDescriptor.Valid (descriptor : MessageDescriptor) : Prop where
  named : IsNamed descriptor.name
  oneofs : ∀ oneof ∈ descriptor.oneofs, IsNamed oneof.name
  fields : ∀ field ∈ descriptor.fields, field.Valid descriptor.oneofs.length
  pairs : descriptor.fields.Pairwise FieldDescriptor.Compatible
  singular : ∀ field ∈ descriptor.fields, field.label = some 3 → field.oneofIndex = none
  enums : ∀ enumeration ∈ descriptor.nestedEnums, enumeration.Valid

instance (descriptor : MessageDescriptor) : Decidable descriptor.Valid :=
  decidable_of_iff' _ (MessageDescriptor.valid_iff descriptor)

mutual

/-- A message with the messages nested in it, at any depth. -/
def MessageDescriptor.tree : MessageDescriptor → List MessageDescriptor
  | ⟨name, fields, nestedMessages, nestedEnums, oneofs⟩ =>
    ⟨name, fields, nestedMessages, nestedEnums, oneofs⟩ :: MessageDescriptor.trees nestedMessages

/-- Several messages with the messages nested in them, at any depth. -/
def MessageDescriptor.trees : List MessageDescriptor → List MessageDescriptor
  | [] => []
  | descriptor :: rest => descriptor.tree ++ MessageDescriptor.trees rest

end

/-- The rules on a file. -/
@[mk_iff]
structure FileDescriptor.Valid (descriptor : FileDescriptor) : Prop where
  named : IsNamed descriptor.name
  messages : ∀ message ∈ MessageDescriptor.trees descriptor.messages, message.Valid
  enums : ∀ enumeration ∈ descriptor.enums, enumeration.Valid

instance (descriptor : FileDescriptor) : Decidable descriptor.Valid :=
  decidable_of_iff' _ (FileDescriptor.valid_iff descriptor)

/-! ### Descriptions -/

/-- An enumeration has the name and the values of a descriptor. -/
structure EnumDescriptor.Describes (descriptor : EnumDescriptor) (enumType : EnumType) : Prop where
  name : descriptor.name = some enumType.name
  values : List.Forall₂ (fun (given : EnumValueDescriptor) (value : EnumValue) =>
    given.name = some value.name ∧ given.number.getD 0 = value.number)
    descriptor.values enumType.values

/-- The number of a scalar type in descriptors. -/
def ScalarType.number : ScalarType → Int
  | .double => 1
  | .float => 2
  | .int64 => 3
  | .uint64 => 4
  | .int32 => 5
  | .fixed64 => 6
  | .fixed32 => 7
  | .bool => 8
  | .string => 9
  | .bytes => 12
  | .uint32 => 13
  | .sfixed32 => 15
  | .sfixed64 => 16
  | .sint32 => 17
  | .sint64 => 18

/-- The number of a kind of declared types in descriptors. -/
def TypeKind.number : TypeKind → Int
  | .message => 11
  | .enumeration => 14

/-- A descriptor gives a field a type. -/
def FieldDescriptor.HasType (descriptor : FieldDescriptor) : FieldType → Prop
  | .scalar type => descriptor.type = some type.number
  | .reference kind typeName =>
    descriptor.type = some kind.number ∧ descriptor.typeName = some typeName

/-- A field has all that a descriptor says of it. -/
structure FieldDescriptor.Describes (descriptor : FieldDescriptor) (field : Field) : Prop where
  name : descriptor.name = some field.name
  number : descriptor.number = some field.number
  type : descriptor.HasType field.type
  repeated : field.repeated = true ↔ descriptor.label = some 3
  oneof : descriptor.oneofIndex = field.oneofIndex.map Int.ofNat
  optional : field.proto3Optional = true ↔ descriptor.proto3Optional = some true

/-- A message has the name, the fields, the oneofs and the enumerations of a descriptor, in order. A
oneof is synthetic exactly if an optional field belongs to it. -/
structure MessageDescriptor.DescribesOwn (descriptor : MessageDescriptor) (message : MessageType) :
    Prop where
  name : descriptor.name = some message.name
  fields : List.Forall₂ FieldDescriptor.Describes descriptor.fields message.fields
  oneofs : List.Forall₂ (fun (given : OneofDescriptor) (oneof : Oneof) =>
    given.name = some oneof.name) descriptor.oneofs message.oneofs
  synthetic : ∀ (position : Nat) oneof, message.oneofs[position]? = some oneof →
    (oneof.synthetic = true ↔ ∃ field ∈ descriptor.fields,
      field.proto3Optional = some true ∧ field.oneofIndex = some (position : Int))
  enums : List.Forall₂ EnumDescriptor.Describes descriptor.nestedEnums message.nestedEnums

/-- A message is what a descriptor describes, and so are the messages nested in it, in order. -/
inductive MessageDescriptor.Describes : MessageDescriptor → MessageType → Prop
  | intro {descriptor : MessageDescriptor} {message : MessageType}
      (own : descriptor.DescribesOwn message)
      (nested : List.Forall₂ MessageDescriptor.Describes descriptor.nestedMessages
        message.nestedMessages) :
      Describes descriptor message

/-- A file is what a descriptor describes. An empty package is none. -/
structure FileDescriptor.Describes (descriptor : FileDescriptor) (file : File) : Prop where
  name : descriptor.name = some file.name
  package : file.package = descriptor.package.filter (· ≠ "")
  dependencies : file.dependencies = descriptor.dependencies
  messages : List.Forall₂ MessageDescriptor.Describes descriptor.messages file.messages
  enums : List.Forall₂ EnumDescriptor.Describes descriptor.enums file.enums

/-! ### Names and enumerations -/

theorem requiredName_eq_ok {entity : NamedEntity} {name : Option String} {text : String} :
    requiredName entity name = .ok text ↔ IsNamed name ∧ name = some text := by
  unfold requiredName IsNamed
  cases name with
  | none => simp
  | some given =>
    by_cases empty : given = ""
    · simp [empty]
    · simp [empty]

theorem EnumType.ofDescriptor_eq_ok {descriptor : EnumDescriptor} {enumType : EnumType} :
    EnumType.ofDescriptor descriptor = .ok enumType ↔
      descriptor.Valid ∧ descriptor.Describes enumType := by
  have value_ok (given : EnumValueDescriptor) (value : EnumValue) : (do
      let name ← requiredName .enumValue given.name
      return { name, number := given.number.getD 0 : EnumValue }) = .ok value ↔
        IsNamed given.name ∧ given.name = some value.name ∧ given.number.getD 0 = value.number := by
    simp only [bind_eq_ok, requiredName_eq_ok, pure_eq_ok]
    constructor
    · rintro ⟨name, ⟨named, given_name⟩, rfl⟩
      exact ⟨named, given_name, rfl⟩
    · rintro ⟨named, given_name, number⟩
      exact ⟨value.name, ⟨named, given_name⟩, by rw [number]⟩
  simp only [EnumType.ofDescriptor, bind_eq_ok, requiredName_eq_ok, pure_eq_ok,
    mapM_eq_ok_of_valid fun given _ => value_ok given]
  constructor
  · rintro ⟨name, ⟨named, given_name⟩, values, ⟨values_named, described⟩, rfl⟩
    exact ⟨⟨named, values_named⟩, given_name, described⟩
  · rintro ⟨⟨named, values_named⟩, given_name, described⟩
    exact ⟨_, ⟨named, given_name⟩, _, ⟨values_named, described⟩, rfl⟩

/-! ### Fields -/

theorem ScalarType.ofNumber?_eq_some {number : Int} {type : ScalarType} :
    ScalarType.ofNumber? number = some type ↔ number = type.number := by
  constructor
  · intro known
    unfold ScalarType.ofNumber? at known
    split at known <;> cases known <;> rfl
  · rintro rfl
    cases type <;> rfl

theorem TypeKind.ofNumber?_eq_some {number : Int} {kind : TypeKind} :
    TypeKind.ofNumber? number = some kind ↔ number = kind.number := by
  constructor
  · intro known
    unfold TypeKind.ofNumber? at known
    split at known <;> cases known <;> rfl
  · rintro rfl
    cases kind <;> rfl

/-- The numbers of scalar types and of kinds are those from 1 to 18, without that of groups. -/
theorem exists_number_iff {number : Int} :
    ((∃ type : ScalarType, number = type.number) ∨ ∃ kind : TypeKind, number = kind.number) ↔
      1 ≤ number ∧ number ≤ 18 ∧ number ≠ 10 := by
  constructor
  · rintro (⟨type, rfl⟩ | ⟨kind, rfl⟩)
    · cases type <;> decide
    · cases kind <;> decide
  · rintro ⟨lower, upper, noGroup⟩
    have known : (ScalarType.ofNumber? number).isSome ∨ (TypeKind.ofNumber? number).isSome := by
      interval_cases number <;> first | contradiction | decide
    rcases known with scalar | kind
    · obtain ⟨type, found⟩ := Option.isSome_iff_exists.mp scalar
      exact .inl ⟨type, ScalarType.ofNumber?_eq_some.mp found⟩
    · obtain ⟨kind, found⟩ := Option.isSome_iff_exists.mp kind
      exact .inr ⟨kind, TypeKind.ofNumber?_eq_some.mp found⟩

theorem FieldType.ofNumber_eq_ok {field typeName : String} {number : Int} {type : FieldType} :
    FieldType.ofNumber field number typeName = .ok type ↔
      (∃ scalar : ScalarType, number = scalar.number ∧ type = .scalar scalar) ∨
        ∃ kind : TypeKind, number = kind.number ∧ typeName ≠ "" ∧ type = .reference kind typeName := by
  simp only [← ScalarType.ofNumber?_eq_some, ← TypeKind.ofNumber?_eq_some]
  unfold FieldType.ofNumber
  cases isScalar : ScalarType.ofNumber? number with
  | some scalar =>
    have noKind : TypeKind.ofNumber? number = none := by
      rw [ScalarType.ofNumber?_eq_some.mp isScalar]
      cases scalar <;> rfl
    simp [noKind, eq_comm]
  | none =>
    cases TypeKind.ofNumber? number with
    | none => simp
    | some kind =>
      by_cases empty : typeName = ""
      · simp [empty]
      · simp [empty, @eq_comm _ type]

/-- A type that a descriptor gives has one of the numbers of types. -/
theorem FieldDescriptor.HasType.typed {descriptor : FieldDescriptor} {type : FieldType}
    (hasType : descriptor.HasType type) :
    ∃ number ∈ descriptor.type, 1 ≤ number ∧ number ≤ 18 ∧ number ≠ 10 := by
  cases type with
  | scalar type => exact ⟨_, hasType, exists_number_iff.mp (.inl ⟨type, rfl⟩)⟩
  | reference kind typeName => exact ⟨_, hasType.1, exists_number_iff.mp (.inr ⟨kind, rfl⟩)⟩

/-- What differs from the default is given. -/
theorem eq_some_getD {α : Type} {given : Option α} {default : α} (other : given.getD default ≠ default) :
    given = some (given.getD default) := by
  cases given with
  | none => exact absurd rfl other
  | some value => rfl

/-- The type of a field is found exactly if the descriptor gives one, with a name if it is declared. -/
theorem FieldDescriptor.ofNumber_eq_ok {descriptor : FieldDescriptor} {field : String}
    {type : FieldType} :
    FieldType.ofNumber field (descriptor.type.getD 0) (descriptor.typeName.getD "") = .ok type ↔
      (descriptor.type = some 11 ∨ descriptor.type = some 14 → IsNamed descriptor.typeName) ∧
        descriptor.HasType type := by
  rw [FieldType.ofNumber_eq_ok]
  constructor
  · rintro (⟨scalar, number, rfl⟩ | ⟨kind, number, filled, rfl⟩)
    · have given : descriptor.type = some scalar.number := by
        rw [← number]
        refine eq_some_getD ?_
        rw [number]
        cases scalar <;> decide
      refine ⟨fun isDeclared => ?_, given⟩
      rw [given] at isDeclared
      cases scalar <;> simp [ScalarType.number] at isDeclared
    · have given : descriptor.type = some kind.number := by
        rw [← number]
        refine eq_some_getD ?_
        rw [number]
        cases kind <;> decide
      exact ⟨fun _ => ⟨_, eq_some_getD filled, filled⟩, given, eq_some_getD filled⟩
  · rintro ⟨isNamed, hasType⟩
    cases type with
    | scalar scalar =>
      refine .inl ⟨scalar, ?_, rfl⟩
      rw [show descriptor.type = some scalar.number from hasType, Option.getD_some]
    | reference kind typeName =>
      obtain ⟨given, named⟩ := hasType
      have isDeclared : descriptor.type = some 11 ∨ descriptor.type = some 14 := by
        rw [given]
        cases kind
        · exact .inl rfl
        · exact .inr rfl
      obtain ⟨text, isText, filled⟩ := isNamed isDeclared
      rw [named, Option.mem_some_iff] at isText
      subst isText
      rw [given, named, Option.getD_some, Option.getD_some]
      exact .inr ⟨kind, rfl, filled, rfl⟩

theorem oneofPosition_mapM_eq_ok {field : String} {oneofCount : Nat} {index : Option Int}
    {position : Option Nat} :
    index.mapM (oneofPosition field oneofCount) = .ok position ↔
      (∀ given ∈ index, 0 ≤ given ∧ given < oneofCount) ∧
        index = position.map Int.ofNat := by
  cases index with
  | none =>
    cases position <;> simp [pure_eq_ok]
  | some given =>
    rw [Option.mapM_some, map_eq_pure_bind, bind_eq_ok]
    simp only [oneofPosition, pure_eq_ok]
    by_cases inRange : 0 ≤ given ∧ given < oneofCount
    · cases position with
      | none => simp [inRange]
      | some position =>
        simp [inRange]
        omega
    · simp [inRange]

/-- **A field is converted exactly if its descriptor is valid**, and it is what the descriptor
describes. -/
theorem Field.ofDescriptor_eq_ok {messageName : String} {oneofCount : Nat}
    {descriptor : FieldDescriptor} {field : Field} :
    Field.ofDescriptor messageName oneofCount descriptor = .ok field ↔
      descriptor.Valid oneofCount ∧ descriptor.Describes field := by
  constructor
  · intro converted
    unfold Field.ofDescriptor at converted
    obtain ⟨name, hasName, converted⟩ := bind_eq_ok.mp converted
    obtain ⟨type, hasType, converted⟩ := bind_eq_ok.mp converted
    obtain ⟨oneofIndex, belongs, converted⟩ := bind_eq_ok.mp converted
    dsimp only at converted
    obtain ⟨optional, converted⟩ := check_eq_ok.mp converted
    obtain ⟨positive, converted⟩ := check_eq_ok.mp converted
    rw [pure_eq_ok] at converted
    subst converted
    obtain ⟨named, name_eq⟩ := requiredName_eq_ok.mp hasName
    obtain ⟨declared, type_eq⟩ := FieldDescriptor.ofNumber_eq_ok.mp hasType
    obtain ⟨inRange, oneof_eq⟩ := oneofPosition_mapM_eq_ok.mp belongs
    have number_eq : descriptor.number = some (descriptor.number.getD 0) :=
      eq_some_getD fun zero => positive (Int.le_of_eq zero)
    have optional_iff : descriptor.proto3Optional.getD false = true ↔
        descriptor.proto3Optional = some true := by
      cases descriptor.proto3Optional <;> simp
    refine ⟨⟨named, type_eq.typed, declared, inRange, ?_, ?_⟩, name_eq, number_eq, type_eq, ?_,
      oneof_eq, optional_iff⟩
    · exact ⟨_, number_eq, Int.not_le.mp positive⟩
    · intro isOptional
      rw [Bool.and_eq_true, optional_iff, Option.isNone_iff_eq_none] at optional
      rw [oneof_eq, Option.isSome_map, Option.isSome_iff_ne_none]
      exact fun absent => optional ⟨isOptional, absent⟩
    · exact beq_iff_eq
  · rintro ⟨valid, describes⟩
    have number_eq : descriptor.number.getD 0 = field.number := by
      rw [describes.number, Option.getD_some]
    have optional_eq : descriptor.proto3Optional.getD false = field.proto3Optional := by
      rw [Bool.eq_iff_iff, describes.optional]
      cases descriptor.proto3Optional <;> simp
    unfold Field.ofDescriptor
    refine bind_eq_ok.mpr ⟨_, requiredName_eq_ok.mpr ⟨valid.named, describes.name⟩, ?_⟩
    refine bind_eq_ok.mpr ⟨_, FieldDescriptor.ofNumber_eq_ok.mpr ⟨valid.declared, describes.type⟩, ?_⟩
    refine bind_eq_ok.mpr ⟨_, oneofPosition_mapM_eq_ok.mpr ⟨valid.oneof, describes.oneof⟩, ?_⟩
    dsimp only
    rw [number_eq, optional_eq]
    refine check_eq_ok.mpr ⟨?_, check_eq_ok.mpr ⟨?_, pure_eq_ok.mpr ?_⟩⟩
    · rw [Bool.and_eq_true, describes.optional, Option.isNone_iff_eq_none]
      rintro ⟨isOptional, absent⟩
      have belongs := valid.optional isOptional
      rw [describes.oneof, absent] at belongs
      cases belongs
    · obtain ⟨number, given, positive⟩ := valid.numbered
      rw [describes.number, Option.mem_some_iff] at given
      subst given
      exact Int.not_le.mpr positive
    · have repeated_eq : (descriptor.label == some 3) = field.repeated := by
        rw [Bool.eq_iff_iff, beq_iff_eq, describes.repeated]
      rw [repeated_eq]

/-! ### The fields of a message -/

theorem checkField_eq_ok {messageName : String} {fields : List Field} {seen : List Int}
    {field : Field} :
    checkField messageName fields seen field = .ok () ↔
      (∀ index, field.oneofIndex = some index → field.proto3Optional = true →
        oneofSize fields index = 1) ∧
      field.number ∉ seen ∧ (field.repeated = true → field.oneofIndex = none) := by
  unfold checkField
  dsimp only
  rw [check_eq_ok, check_eq_ok, List.contains_iff_mem]
  refine and_congr ?_ (and_congr_right fun _ => ?_)
  · cases field.oneofIndex with
    | none => simp
    | some index => simp
  · cases field.repeated <;> cases field.oneofIndex <;> simp [pure_eq_ok, throw, throwThe,
      MonadExceptOf.throw]

theorem checkFieldsFrom_eq_ok {messageName : String} {fields : List Field} {seen : List Int}
    {rest : List Field} :
    checkFieldsFrom messageName fields seen rest = .ok () ↔
      (rest.map Field.number).Nodup ∧ (∀ field ∈ rest, field.number ∉ seen) ∧
      (∀ field ∈ rest, ∀ index, field.oneofIndex = some index → field.proto3Optional = true →
        oneofSize fields index = 1) ∧
      ∀ field ∈ rest, field.repeated = true → field.oneofIndex = none := by
  induction rest generalizing seen with
  | nil => simp [checkFieldsFrom]
  | cons field rest ih =>
    rw [checkFieldsFrom, bind_eq_ok, List.map_cons, List.nodup_cons, List.forall_mem_cons,
      List.forall_mem_cons, List.forall_mem_cons]
    constructor
    · rintro ⟨⟨⟩, checked, passed⟩
      obtain ⟨alone, new, singular⟩ := checkField_eq_ok.mp checked
      obtain ⟨different, rest_new, rest_alone, rest_singular⟩ := ih.mp passed
      refine ⟨⟨fun again => ?_, different⟩, ⟨new, fun other inside known => ?_⟩,
        ⟨alone, rest_alone⟩, singular, rest_singular⟩
      · obtain ⟨other, inside, same⟩ := List.mem_map.mp again
        exact rest_new other inside (same ▸ List.mem_cons_self ..)
      · exact rest_new other inside (List.mem_cons_of_mem _ known)
    · rintro ⟨⟨first, different⟩, ⟨new, rest_new⟩, ⟨alone, rest_alone⟩, singular, rest_singular⟩
      refine ⟨(), checkField_eq_ok.mpr ⟨alone, new, singular⟩,
        ih.mpr ⟨different, fun other inside known => ?_, rest_alone, rest_singular⟩⟩
      rcases List.mem_cons.mp known with same | earlier
      · exact first (List.mem_map.mpr ⟨other, inside, same⟩)
      · exact rest_new other inside earlier

/-- Optional fields are alone in their oneofs exactly if two fields of one oneof are never
optional. -/
theorem alone_iff_pairwise {fields : List Field} :
    (∀ field ∈ fields, ∀ index, field.oneofIndex = some index → field.proto3Optional = true →
      oneofSize fields index = 1) ↔
      fields.Pairwise fun left right => left.oneofIndex = right.oneofIndex →
        left.oneofIndex.isSome → left.proto3Optional = false ∧ right.proto3Optional = false := by
  induction fields with
  | nil => simp
  | cons field rest ih =>
    -- A field of the rest counts itself, so its oneof has one member only without the first field.
    have size (index : Nat) : oneofSize (field :: rest) index =
        oneofSize rest index + if field.oneofIndex = some index then 1 else 0 := by
      simp [oneofSize, List.countP_cons]
    have counted {other : Field} (inside : other ∈ rest) {index : Nat}
        (belongs : other.oneofIndex = some index) : 1 ≤ oneofSize rest index :=
      List.one_le_countP_iff.mpr ⟨other, inside, beq_iff_eq.mpr belongs⟩
    rw [List.forall_mem_cons, List.pairwise_cons, ← ih]
    constructor
    · rintro ⟨first, others⟩
      refine ⟨fun other inside same belongs => ?_, fun other inside index belongs optional => ?_⟩
      · obtain ⟨index, found⟩ := Option.isSome_iff_exists.mp belongs
        have rest_counted := counted inside (same ▸ found)
        constructor
        · by_contra optional
          have one := first index found (Bool.not_eq_false _ ▸ optional)
          rw [size, if_pos found] at one
          omega
        · by_contra optional
          have one := others other inside index (same ▸ found) (Bool.not_eq_false _ ▸ optional)
          rw [size, if_pos found] at one
          omega
      · have one := others other inside index belongs optional
        have rest_counted := counted inside belongs
        rw [size] at one
        omega
    · rintro ⟨first, others⟩
      refine ⟨fun index belongs optional => ?_, fun other inside index belongs optional => ?_⟩
      · have none : oneofSize rest index = 0 := by
          refine List.countP_eq_zero.mpr fun other inside same => ?_
          rw [beq_iff_eq] at same
          have neither := first other inside (belongs.trans same.symm) (by rw [belongs]; rfl)
          rw [optional] at neither
          cases neither.1
        rw [size, if_pos belongs, none]
      · have apart : field.oneofIndex ≠ some index := by
          intro same
          have neither := first other inside (same.trans belongs.symm) (by rw [same]; rfl)
          rw [optional] at neither
          cases neither.2
        rw [size, if_neg apart, others other inside index belongs optional]

/-- Two fields are compatible exactly if their descriptors are. -/
theorem compatible_iff {left right : FieldDescriptor} {field other : Field}
    (ofLeft : left.Describes field) (ofRight : right.Describes other) :
    left.Compatible right ↔ field.number ≠ other.number ∧
      (field.oneofIndex = other.oneofIndex → field.oneofIndex.isSome →
        field.proto3Optional = false ∧ other.proto3Optional = false) := by
  have sameOneof : left.oneofIndex = right.oneofIndex ↔ field.oneofIndex = other.oneofIndex := by
    rw [ofLeft.oneof, ofRight.oneof]
    exact (Option.map_injective Int.ofNat_injective).eq_iff
  rw [FieldDescriptor.compatible_iff, ofLeft.number, ofRight.number, sameOneof, ofLeft.oneof,
    Option.isSome_map]
  simp [← ofLeft.optional, ← ofRight.optional]

/-- **The rules on the fields of a message** are rules on each field and on two fields. -/
theorem checkFields_eq_ok {messageName : String} {descriptors : List FieldDescriptor}
    {fields : List Field} (described : List.Forall₂ FieldDescriptor.Describes descriptors fields) :
    checkFields messageName fields = .ok () ↔
      descriptors.Pairwise FieldDescriptor.Compatible ∧
        ∀ descriptor ∈ descriptors, descriptor.label = some 3 → descriptor.oneofIndex = none := by
  have singular : (∀ descriptor ∈ descriptors, descriptor.label = some 3 →
      descriptor.oneofIndex = none) ↔
        ∀ field ∈ fields, field.repeated = true → field.oneofIndex = none := by
    refine forall_mem_iff_of_forall₂ described fun descriptor field describes => ?_
    rw [describes.repeated, describes.oneof, Option.map_eq_none_iff]
  rw [checkFields, checkFieldsFrom_eq_ok, alone_iff_pairwise, singular,
    pairwise_iff_of_forall₂ described fun _ _ _ _ => compatible_iff, List.pairwise_and_iff,
    List.Nodup, List.pairwise_map]
  simp [and_assoc]

/-! ### Messages -/

theorem mem_trees {descriptors : List MessageDescriptor} {inner : MessageDescriptor} :
    inner ∈ MessageDescriptor.trees descriptors ↔
      ∃ descriptor ∈ descriptors, inner ∈ descriptor.tree := by
  induction descriptors with
  | nil => simp [MessageDescriptor.trees]
  | cons descriptor rest ih => simp [MessageDescriptor.trees, ih]

theorem mem_tree {descriptor inner : MessageDescriptor} :
    inner ∈ descriptor.tree ↔
      inner = descriptor ∨ ∃ nested ∈ descriptor.nestedMessages, inner ∈ nested.tree := by
  cases descriptor
  rw [MessageDescriptor.tree, List.mem_cons, mem_trees]

theorem MessageType.ofDescriptors_eq_mapM (scope : String) (descriptors : List MessageDescriptor) :
    MessageType.ofDescriptors scope descriptors =
      descriptors.mapM (MessageType.ofDescriptor scope) := by
  induction descriptors with
  | nil =>
    rw [MessageType.ofDescriptors, List.mapM_nil]
    rfl
  | cons descriptor rest ih => rw [MessageType.ofDescriptors, List.mapM_cons, ih]

/-- A oneof is marked exactly if an optional field belongs to it. -/
theorem isSynthetic_iff {descriptors : List FieldDescriptor} {fields : List Field}
    (described : List.Forall₂ FieldDescriptor.Describes descriptors fields) {position : Nat} :
    isSynthetic fields position = true ↔ ∃ descriptor ∈ descriptors,
      descriptor.proto3Optional = some true ∧ descriptor.oneofIndex = some (position : Int) := by
  have belongs {descriptor : FieldDescriptor} {field : Field} (describes : descriptor.Describes field) :
      descriptor.proto3Optional = some true ∧ descriptor.oneofIndex = some (position : Int) ↔
        field.proto3Optional = true ∧ field.oneofIndex = some position := by
    rw [describes.optional, describes.oneof, Option.map_eq_some_iff]
    simp
  simp only [isSynthetic, List.any_eq_true, Bool.and_eq_true, beq_iff_eq]
  constructor
  · rintro ⟨field, inside, synthetic⟩
    obtain ⟨descriptor, given, describes⟩ := exists_left_of_forall₂ described inside
    exact ⟨descriptor, given, (belongs describes).mpr synthetic⟩
  · rintro ⟨descriptor, given, optional⟩
    obtain ⟨field, inside, describes⟩ := exists_left_of_forall₂ described.flip given
    exact ⟨field, inside, (belongs describes).mp optional⟩

/-- The mark of a oneof that a descriptor describes is that which the fields give it. -/
theorem MessageDescriptor.DescribesOwn.isSynthetic_eq {descriptor : MessageDescriptor}
    {message : MessageType} (own : descriptor.DescribesOwn message) (position : Nat) (oneof : Oneof)
    (found : message.oneofs[position]? = some oneof) :
    oneof.synthetic = isSynthetic message.fields position := by
  rw [Bool.eq_iff_iff, own.synthetic position oneof found, isSynthetic_iff own.fields]

theorem oneofs_eq_iff {oneofs : List Oneof} {names : List String} {fields : List Field} :
    (names.mapIdx fun position name =>
        { name, synthetic := isSynthetic fields position : Oneof }) = oneofs ↔
      oneofs.map Oneof.name = names ∧ ∀ (position : Nat) oneof, oneofs[position]? = some oneof →
        oneof.synthetic = isSynthetic fields position := by
  constructor
  · rintro rfl
    refine ⟨?_, fun position oneof found => ?_⟩
    · refine List.ext_getElem? fun position => ?_
      rw [List.getElem?_map, List.getElem?_mapIdx, Option.map_map]
      exact Option.map_id'
    · rw [List.getElem?_mapIdx, Option.map_eq_some_iff] at found
      obtain ⟨name, -, rfl⟩ := found
      rfl
  · rintro ⟨rfl, synthetic⟩
    refine List.ext_getElem? fun position => ?_
    rw [List.getElem?_mapIdx, List.getElem?_map]
    cases found : oneofs[position]? with
    | none => rfl
    | some oneof =>
      rw [Option.map_some, Option.map_some, ← synthetic position oneof found]

/-- Oneofs that are made of given names and of the marks of described fields are described. -/
theorem oneofs_described {oneofDescriptors : List OneofDescriptor} {names : List String}
    {fieldDescriptors : List FieldDescriptor} {fields : List Field} {oneofs : List Oneof}
    (named : List.Forall₂ (fun (given : OneofDescriptor) name => given.name = some name)
      oneofDescriptors names)
    (described : List.Forall₂ FieldDescriptor.Describes fieldDescriptors fields)
    (made : (names.mapIdx fun position name =>
      { name, synthetic := isSynthetic fields position : Oneof }) = oneofs) :
    List.Forall₂ (fun (given : OneofDescriptor) (oneof : Oneof) => given.name = some oneof.name)
        oneofDescriptors oneofs ∧
      ∀ (position : Nat) oneof, oneofs[position]? = some oneof →
        (oneof.synthetic = true ↔ ∃ field ∈ fieldDescriptors,
          field.proto3Optional = some true ∧ field.oneofIndex = some (position : Int)) := by
  obtain ⟨names_eq, synthetic⟩ := oneofs_eq_iff.mp made
  constructor
  · rwa [← names_eq, List.forall₂_map_right_iff] at named
  · intro position oneof found
    rw [synthetic position oneof found]
    exact isSynthetic_iff described

/-- A message is converted exactly if its own descriptor is valid and its nested messages are
converted, and it is what the descriptor describes. -/
theorem MessageType.ofDescriptor_eq_ok_own {scope : String} {descriptor : MessageDescriptor}
    {message : MessageType} :
    MessageType.ofDescriptor scope descriptor = .ok message ↔
      (descriptor.Valid ∧ descriptor.DescribesOwn message) ∧
        descriptor.nestedMessages.mapM
          (MessageType.ofDescriptor (qualifiedName scope message.name)) =
            .ok message.nestedMessages := by
  obtain ⟨givenName, fieldDescriptors, messageDescriptors, enumDescriptors, oneofDescriptors⟩ :=
    descriptor
  have oneofNames_eq_ok {names : List String} :
      (oneofDescriptors.mapM fun oneof => requiredName .oneof oneof.name) = .ok names ↔ _ :=
    mapM_eq_ok_of_valid fun _ _ _ => requiredName_eq_ok
  have fields_eq_ok {messageName : String} {oneofCount : Nat} {fields : List Field} :
      fieldDescriptors.mapM (Field.ofDescriptor messageName oneofCount) = .ok fields ↔ _ :=
    mapM_eq_ok_of_valid fun _ _ _ => Field.ofDescriptor_eq_ok
  have enums_eq_ok {enums : List EnumType} :
      enumDescriptors.mapM EnumType.ofDescriptor = .ok enums ↔ _ :=
    mapM_eq_ok_of_valid fun _ _ _ => EnumType.ofDescriptor_eq_ok
  rw [MessageType.ofDescriptor]
  constructor
  · intro converted
    obtain ⟨name, hasName, converted⟩ := bind_eq_ok.mp converted
    obtain ⟨oneofNames, haveNames, converted⟩ := bind_eq_ok.mp converted
    obtain ⟨fields, fields_converted, converted⟩ := bind_eq_ok.mp converted
    obtain ⟨⟨⟩, checked, converted⟩ := bind_eq_ok.mp converted
    obtain ⟨nestedMessages, nested_converted, converted⟩ := bind_eq_ok.mp converted
    obtain ⟨nestedEnums, enums_converted, converted⟩ := bind_eq_ok.mp converted
    rw [pure_eq_ok] at converted
    subst converted
    obtain ⟨named, name_eq⟩ := requiredName_eq_ok.mp hasName
    obtain ⟨oneofs_named, oneofNames_eq⟩ := oneofNames_eq_ok.mp haveNames
    obtain ⟨fields_valid, fields_described⟩ := fields_eq_ok.mp fields_converted
    obtain ⟨pairs, singular⟩ := (checkFields_eq_ok fields_described).mp checked
    obtain ⟨enums_valid, enums_described⟩ := enums_eq_ok.mp enums_converted
    obtain ⟨oneofs_match, synthetic⟩ := oneofs_described oneofNames_eq fields_described rfl
    rw [← oneofNames_eq.length_eq] at fields_valid
    rw [MessageType.ofDescriptors_eq_mapM] at nested_converted
    exact ⟨⟨⟨named, oneofs_named, fields_valid, pairs, singular, enums_valid⟩, name_eq,
      fields_described, oneofs_match, synthetic, enums_described⟩, nested_converted⟩
  · rintro ⟨⟨valid, own⟩, nested_converted⟩
    have oneofNames_eq : List.Forall₂ (fun (given : OneofDescriptor) name => given.name = some name)
        oneofDescriptors (message.oneofs.map Oneof.name) :=
      List.forall₂_map_right_iff.mpr own.oneofs
    have oneofs_eq := oneofs_eq_iff.mpr ⟨Eq.refl (message.oneofs.map Oneof.name),
      own.isSynthetic_eq⟩
    have fields_valid := valid.fields
    rw [oneofNames_eq.length_eq] at fields_valid
    refine bind_eq_ok.mpr ⟨_, requiredName_eq_ok.mpr ⟨valid.named, own.name⟩, ?_⟩
    refine bind_eq_ok.mpr ⟨_, oneofNames_eq_ok.mpr ⟨valid.oneofs, oneofNames_eq⟩, ?_⟩
    refine bind_eq_ok.mpr ⟨_, fields_eq_ok.mpr ⟨fields_valid, own.fields⟩, ?_⟩
    refine bind_eq_ok.mpr ⟨(), (checkFields_eq_ok own.fields).mpr ⟨valid.pairs, valid.singular⟩, ?_⟩
    rw [MessageType.ofDescriptors_eq_mapM]
    refine bind_eq_ok.mpr ⟨_, nested_converted, ?_⟩
    refine bind_eq_ok.mpr ⟨_, enums_eq_ok.mpr ⟨valid.enums, own.enums⟩, pure_eq_ok.mpr ?_⟩
    rw [oneofs_eq]
    cases message
    rfl

/-- What holds of a message whenever it holds of the messages nested in it holds of all messages. -/
theorem MessageDescriptor.nested_induction {motive : MessageDescriptor → Prop}
    (step : ∀ descriptor : MessageDescriptor,
      (∀ inner ∈ descriptor.nestedMessages, motive inner) → motive descriptor)
    (descriptor : MessageDescriptor) : motive descriptor :=
  step descriptor fun inner _ => MessageDescriptor.nested_induction step inner
termination_by descriptor
decreasing_by
  have smaller := List.sizeOf_lt_of_mem ‹inner ∈ descriptor.nestedMessages›
  cases descriptor
  dsimp only at smaller
  simp only [MessageDescriptor.mk.sizeOf_spec]
  omega

theorem MessageDescriptor.describes_iff {descriptor : MessageDescriptor} {message : MessageType} :
    descriptor.Describes message ↔ descriptor.DescribesOwn message ∧
      List.Forall₂ MessageDescriptor.Describes descriptor.nestedMessages message.nestedMessages := by
  constructor
  · rintro ⟨own, nested⟩
    exact ⟨own, nested⟩
  · rintro ⟨own, nested⟩
    exact .intro own nested

/-- The messages of a tree are the message itself and those of the trees nested in it. -/
theorem forall_mem_tree {descriptor : MessageDescriptor} {property : MessageDescriptor → Prop} :
    (∀ inner ∈ descriptor.tree, property inner) ↔ property descriptor ∧
      ∀ nested ∈ descriptor.nestedMessages, ∀ inner ∈ nested.tree, property inner := by
  constructor
  · intro all
    refine ⟨all _ (mem_tree.mpr (.inl rfl)), fun nested inside inner deeper => ?_⟩
    exact all _ (mem_tree.mpr (.inr ⟨nested, inside, deeper⟩))
  · rintro ⟨own, others⟩ inner member
    rcases mem_tree.mp member with rfl | ⟨nested, inside, deeper⟩
    · exact own
    · exact others nested inside inner deeper

/-- **A message is converted exactly if it is valid with all messages nested in it**, and it is what
the descriptor describes. -/
theorem MessageType.ofDescriptor_eq_ok {scope : String} {descriptor : MessageDescriptor}
    {message : MessageType} :
    MessageType.ofDescriptor scope descriptor = .ok message ↔
      (∀ inner ∈ descriptor.tree, inner.Valid) ∧ descriptor.Describes message := by
  induction descriptor using MessageDescriptor.nested_induction generalizing scope message with
  | step descriptor ih =>
    rw [MessageType.ofDescriptor_eq_ok_own,
      mapM_eq_ok_of_valid fun inner inside _ => ih inner inside, forall_mem_tree,
      MessageDescriptor.describes_iff]
    tauto

/-! ### What valid descriptors describe -/

theorem EnumDescriptor.Valid.exists_describes {descriptor : EnumDescriptor}
    (valid : descriptor.Valid) : ∃ enumType, descriptor.Describes enumType := by
  obtain ⟨name, hasName, -⟩ := valid.named
  have each (given : EnumValueDescriptor) (inside : given ∈ descriptor.values) :
      ∃ value : EnumValue, given.name = some value.name ∧ given.number.getD 0 = value.number := by
    obtain ⟨valueName, hasValueName, -⟩ := valid.values given inside
    exact ⟨⟨valueName, given.number.getD 0⟩, hasValueName, rfl⟩
  obtain ⟨values, described⟩ := exists_forall₂ each
  exact ⟨⟨name, values⟩, hasName, described⟩

/-- The type of a valid field can be told. -/
theorem FieldDescriptor.Valid.exists_hasType {descriptor : FieldDescriptor} {oneofCount : Nat}
    (valid : descriptor.Valid oneofCount) : ∃ type, descriptor.HasType type := by
  obtain ⟨number, given, isNumber⟩ := valid.typed
  rcases exists_number_iff.mpr isNumber with ⟨type, rfl⟩ | ⟨kind, rfl⟩
  · exact ⟨.scalar type, given⟩
  · have isDeclared : descriptor.type = some 11 ∨ descriptor.type = some 14 := by
      cases kind
      · exact .inl given
      · exact .inr given
    obtain ⟨typeName, hasTypeName, -⟩ := valid.declared isDeclared
    exact ⟨.reference kind typeName, given, hasTypeName⟩

theorem FieldDescriptor.Valid.exists_describes {descriptor : FieldDescriptor} {oneofCount : Nat}
    (valid : descriptor.Valid oneofCount) : ∃ field, descriptor.Describes field := by
  obtain ⟨name, hasName, -⟩ := valid.named
  obtain ⟨type, hasType⟩ := valid.exists_hasType
  obtain ⟨number, hasNumber, -⟩ := valid.numbered
  have belongs : descriptor.oneofIndex = (descriptor.oneofIndex.map Int.toNat).map Int.ofNat := by
    cases given : descriptor.oneofIndex with
    | none => rfl
    | some index =>
      obtain ⟨lower, -⟩ := valid.oneof index given
      rw [Option.map_some, Option.map_some, Int.ofNat_eq_natCast, Int.toNat_of_nonneg lower]
  exact ⟨{
    name, number, type
    repeated := descriptor.label == some 3
    oneofIndex := descriptor.oneofIndex.map Int.toNat
    proto3Optional := descriptor.proto3Optional == some true },
    hasName, hasNumber, hasType, beq_iff_eq, belongs, beq_iff_eq⟩

theorem MessageDescriptor.exists_describes (descriptor : MessageDescriptor)
    (valid : ∀ inner ∈ descriptor.tree, inner.Valid) : ∃ message, descriptor.Describes message := by
  induction descriptor using MessageDescriptor.nested_induction with
  | step descriptor ih =>
    obtain ⟨own, deeper⟩ := forall_mem_tree.mp valid
    obtain ⟨name, hasName, -⟩ := own.named
    obtain ⟨fields, fields_described⟩ :=
      exists_forall₂ fun field inside => (own.fields field inside).exists_describes
    obtain ⟨nestedMessages, nested_described⟩ :=
      exists_forall₂ fun inner inside => ih inner inside (deeper inner inside)
    obtain ⟨nestedEnums, enums_described⟩ :=
      exists_forall₂ fun enumeration inside => (own.enums enumeration inside).exists_describes
    obtain ⟨oneofNames, oneofNames_eq⟩ := exists_forall₂ fun oneof inside =>
      (own.oneofs oneof inside).imp fun _ => And.left
    obtain ⟨oneofs_named, synthetic⟩ := oneofs_described oneofNames_eq fields_described rfl
    exact ⟨⟨name, fields, _, nestedMessages, nestedEnums⟩, .intro ⟨hasName, fields_described,
      oneofs_named, synthetic, enums_described⟩ nested_described⟩

/-! ### Files -/

theorem declaredPackage_eq (descriptor : FileDescriptor) :
    declaredPackage descriptor = descriptor.package.filter (· ≠ "") := by
  unfold declaredPackage
  congr 1
  funext package
  rw [Bool.eq_iff_iff]
  simp

theorem File.ofDescriptor_eq_ok {descriptor : FileDescriptor} {file : File} :
    File.ofDescriptor descriptor = .ok file ↔ descriptor.Valid ∧ descriptor.Describes file := by
  simp only [File.ofDescriptor, bind_eq_ok, requiredName_eq_ok, pure_eq_ok,
    MessageType.ofDescriptors_eq_mapM, mapM_eq_ok_of_valid fun _ _ _ => MessageType.ofDescriptor_eq_ok,
    mapM_eq_ok_of_valid fun _ _ _ => EnumType.ofDescriptor_eq_ok, declaredPackage_eq]
  constructor
  · rintro ⟨name, ⟨named, name_eq⟩, messages, ⟨messages_valid, messages_described⟩, enums,
      ⟨enums_valid, enums_described⟩, rfl⟩
    refine ⟨⟨named, fun inner member => ?_, enums_valid⟩, name_eq, rfl, rfl, messages_described,
      enums_described⟩
    obtain ⟨message, inside, deeper⟩ := mem_trees.mp member
    exact messages_valid message inside inner deeper
  · rintro ⟨valid, described⟩
    refine ⟨file.name, ⟨valid.named, described.name⟩, file.messages, ⟨fun message inside inner deeper =>
      valid.messages inner (mem_trees.mpr ⟨message, inside, deeper⟩), described.messages⟩, file.enums,
      ⟨valid.enums, described.enums⟩, ?_⟩
    rw [← described.package, ← described.dependencies]

theorem FileDescriptor.Valid.exists_describes {descriptor : FileDescriptor}
    (valid : descriptor.Valid) : ∃ file, descriptor.Describes file := by
  obtain ⟨name, hasName, -⟩ := valid.named
  obtain ⟨messages, messages_described⟩ := exists_forall₂ fun message inside =>
    MessageDescriptor.exists_describes message fun inner deeper =>
      valid.messages inner (mem_trees.mpr ⟨message, inside, deeper⟩)
  obtain ⟨enums, enums_described⟩ :=
    exists_forall₂ fun enumeration inside => (valid.enums enumeration inside).exists_describes
  exact ⟨⟨name, _, _, messages, enums⟩, hasName, rfl, rfl, messages_described, enums_described⟩

/-- **Exactly the valid descriptors are accepted**, at any depth of nested messages. An accepted
descriptor describes the file that comes of it, and it describes no other file. -/
theorem descriptor_accepted_iff_valid (descriptor : FileDescriptor) :
    ((∃ file, File.ofDescriptor descriptor = .ok file) ↔ descriptor.Valid) ∧
      ∀ file, File.ofDescriptor descriptor = .ok file ↔
        descriptor.Valid ∧ descriptor.Describes file := by
  refine ⟨⟨?_, ?_⟩, fun file => File.ofDescriptor_eq_ok⟩
  · rintro ⟨file, accepted⟩
    exact (File.ofDescriptor_eq_ok.mp accepted).1
  · intro valid
    obtain ⟨file, describes⟩ := valid.exists_describes
    exact ⟨file, File.ofDescriptor_eq_ok.mpr ⟨valid, describes⟩⟩

/-- A oneof may have several members, but not an optional one among them, also in a nested message. -/
example :
    let fields (optional : Bool) : List FieldDescriptor :=
      [{ name := some "a", number := some 1, type := some 5, oneofIndex := some 0 },
        { name := some "b", number := some 2, type := some 5, oneofIndex := some 0,
          proto3Optional := some optional }]
    let file (optional : Bool) : FileDescriptor :=
      { name := some "sample.proto", messages := [⟨some "Outer", [],
        [⟨some "Inner", fields optional, [], [], [⟨some "choice"⟩]⟩], [], []⟩] }
    (file false).Valid ∧ ¬ (file true).Valid := by
  decide

end ProtoPascal.Schema
