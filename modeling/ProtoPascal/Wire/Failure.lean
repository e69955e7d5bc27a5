/-!
Reasons why bytes are not an encoded message, and the place in the message where reading stopped.
-/

namespace ProtoPascal.Wire

/-- The six ways in which the value of a field is laid out. -/
inductive WireType where
  | varint
  | sixtyFourBit
  | lengthDelimited
  | startGroup
  | endGroup
  | thirtyTwoBit
deriving DecidableEq, Repr

/-- The name of a wire type in failure texts. -/
def WireType.name : WireType → String
  | .varint => "Varint"
  | .sixtyFourBit => "SixtyFourBit"
  | .lengthDelimited => "LengthDelimited"
  | .startGroup => "StartGroup"
  | .endGroup => "EndGroup"
  | .thirtyTwoBit => "ThirtyTwoBit"

/-- The wire type with a given number; the numbers above five have none. -/
def WireType.ofNat? : Nat → Option WireType
  | 0 => some .varint
  | 1 => some .sixtyFourBit
  | 2 => some .lengthDelimited
  | 3 => some .startGroup
  | 4 => some .endGroup
  | 5 => some .thirtyTwoBit
  | _ => none

/-- Why reading stopped. -/
inductive Cause where
  | invalidVarint
  | keyTooLarge (key : Nat)
  | unknownWireType (number : Nat)
  | fieldNumberZero
  | wrongWireType (actual expected : WireType)
  | underflow
  | notUtf8
  | lengthExceeded
  | nestedTooDeep
  | strayEndGroup
deriving DecidableEq, Repr

/-- The text of a cause. -/
def Cause.message : Cause → String
  | .invalidVarint => "invalid varint"
  | .keyTooLarge key => "invalid key value: " ++ toString key
  | .unknownWireType number => "invalid wire type value: " ++ toString number
  | .fieldNumberZero => "invalid tag value: 0"
  | .wrongWireType actual expected =>
    "invalid wire type: " ++ actual.name ++ " (expected " ++ expected.name ++ ")"
  | .underflow => "buffer underflow"
  | .notUtf8 => "invalid string value: data is not UTF-8 encoded"
  | .lengthExceeded => "delimited length exceeded"
  | .nestedTooDeep => "recursion limit reached"
  | .strayEndGroup => "unexpected end group tag"

/-- A field of a message, as failure texts name it. -/
structure Location where
  message : String
  field : String
deriving DecidableEq, Repr

/-- A cause with the fields around the place where it arose, innermost first. -/
structure Failure where
  locations : List Location
  cause : Cause
deriving DecidableEq, Repr

/-- The text of a failure. -/
def Failure.message (failure : Failure) : String :=
  "failed to decode Protobuf message: "
    ++ String.join (failure.locations.map fun location =>
      location.message ++ "." ++ location.field ++ ": ")
    ++ failure.cause.message

/-- A failure inside a field, seen from the message that holds the field. -/
def Failure.within (location : Location) (failure : Failure) : Failure :=
  { failure with locations := failure.locations ++ [location] }

end ProtoPascal.Wire
