import ProtoPascal.Wire.Reader
import ProtoPascal.Wire.Shape

/-!
Encoded messages as records: the known fields of a message with their numbers, in the order of the
bytes. Messages nest to a depth of one hundred; groups in unknown fields count too. Fields are written
one by one.
-/

namespace ProtoPascal.Wire

mutual

/-- The value of a field. Values that nothing depends on are left out. -/
inductive Value where
  | number (value : Nat)
  | text (value : String)
  | message (records : List Record)
  | omitted

/-- A field of a message with its number. -/
inductive Record where
  | record (number : Nat) (value : Value)

end

/-- The greatest depth to which messages nest. -/
def nestingLimit : Nat := 100

/-- Skip the fields of a group up to its end, which has to carry the number of the group. -/
def skipGroupWith (skipField : Key → Reader Unit) (number : Nat) (bytes : List UInt8) :
    Except Failure (Unit × List UInt8) :=
  match readKey bytes with
  | .error failure => .error failure
  | .ok (key, rest) =>
    if key.wireType = .endGroup then
      if key.number = number then .ok ((), rest) else .error ⟨[], .strayEndGroup⟩
    else
      match skipField key rest with
      | .error failure => .error failure
      | .ok (_, after) =>
        if after.length < bytes.length then skipGroupWith skipField number after
        else .ok ((), after)
termination_by bytes.length

/-- Skip the value of an unknown field. The fields of a group are one level deeper. -/
def skipField : (depth : Nat) → Key → Reader Unit
  | 0 => fun _ => fail .nestedTooDeep
  | depth + 1 => fun key =>
    match key.wireType with
    | .varint => discard readVarint
    | .thirtyTwoBit => discard (takeBytes 4)
    | .sixtyFourBit => discard (takeBytes 8)
    | .lengthDelimited => discard readBytes
    | .startGroup => skipGroupWith (skipField depth) key.number
    | .endGroup => fail .strayEndGroup

/-- The wire type of a value has to be the expected one. -/
def expectWireType (expected actual : WireType) : Reader Unit := do
  if actual ≠ expected then fail (.wrongWireType actual expected)

/-- Read the value of a known field. The reader for the records of nested messages is absent at the
greatest depth. -/
def readValue (nested : Option (MessageShape → Reader (List Record))) (wireType : WireType) :
    ValueShape → Reader Value
  | .varint => do
    expectWireType .varint wireType
    return .number (← readVarint)
  | .varints => do
    if wireType = .lengthDelimited then
      discard (readDelimited readVarint)
    else
      expectWireType .varint wireType
      discard readVarint
    return .omitted
  | .fixed64 => do
    expectWireType .sixtyFourBit wireType
    discard (takeBytes 8)
    return .omitted
  | .text => do
    expectWireType .lengthDelimited wireType
    return .text (← readText)
  | .bytes => do
    expectWireType .lengthDelimited wireType
    discard readBytes
    return .omitted
  | .message shape => do
    expectWireType .lengthDelimited wireType
    match nested with
    | none => fail .nestedTooDeep
    | some readNested => return .message (← readNested shape)

/-- Read a field of a message: a record if the message knows the field, and nothing if it has to be
skipped. -/
def readField (depth : Nat) (nested : Option (MessageShape → Reader (List Record)))
    (shape : MessageShape) : Reader (Option Record) := do
  let key ← readKey
  match shape.field? key.number with
  | some (name, valueShape) =>
    let value ← within ⟨shape.name, name⟩ (readValue nested key.wireType valueShape)
    return some (.record key.number value)
  | none =>
    skipField depth key
    return none

/-- Read the length and the records of a message nested in one at a depth. -/
def readNested : (depth : Nat) → MessageShape → Reader (List Record)
  | 0 => fun shape => do
    return (← readDelimited (readField 0 none shape)).reduceOption
  | depth + 1 => fun shape => do
    return (← readDelimited (readField (depth + 1) (some (readNested depth)) shape)).reduceOption

/-- The records of an encoded message. -/
def decode (shape : MessageShape) (bytes : List UInt8) : Except Failure (List Record) :=
  match readWhileAbove 0 (readField nestingLimit (some (readNested (nestingLimit - 1))) shape)
    bytes with
  | .ok (records, _) => .ok records.reduceOption
  | .error failure => .error failure

/-! ## Looking up fields -/

/-- The values of the fields with a number, in order. -/
def valuesAt (number : Nat) (records : List Record) : List Value :=
  records.filterMap fun
    | .record found value => if found = number then some value else none

/-- The texts of a field. -/
def textsAt (number : Nat) (records : List Record) : List String :=
  (valuesAt number records).filterMap fun
    | .text value => some value
    | _ => none

/-- The numbers of a field. -/
def numbersAt (number : Nat) (records : List Record) : List Nat :=
  (valuesAt number records).filterMap fun
    | .number value => some value
    | _ => none

/-- The records of each message of a field. -/
def messagesAt (number : Nat) (records : List Record) : List (List Record) :=
  (valuesAt number records).filterMap fun
    | .message value => some value
    | _ => none

/-- The text of a field that occurs once; of several the last counts. -/
def textAt? (number : Nat) (records : List Record) : Option String :=
  (textsAt number records).getLast?

/-- The number that the low 32 bits stand for, the highest of them being the sign. -/
def signed32 (value : Nat) : Int :=
  Int.bmod value UInt32.size

/-- The number of a field that occurs once; of several the last counts. -/
def int32At? (number : Nat) (records : List Record) : Option Int :=
  (numbersAt number records).getLast?.map signed32

/-- The truth value of a field that occurs once; of several the last counts. -/
def boolAt? (number : Nat) (records : List Record) : Option Bool :=
  (numbersAt number records).getLast?.map (· != 0)

/-! ## Writers of encoded bytes -/

/-- A number in groups of seven bits, the lowest first, in as few groups as it needs. -/
def writeVarint (value : Nat) : List UInt8 :=
  if value < 128 then [value.toUInt8]
  else (value % 128 + 128).toUInt8 :: writeVarint (value / 128)
termination_by value

/-- The bytes of a text in UTF-8. -/
def textBytes (text : String) : List UInt8 :=
  text.toUTF8.data.toList

/-- A field that holds a number. -/
def writeNumber (number value : Nat) : List UInt8 :=
  writeVarint (8 * number) ++ writeVarint value

/-- A field that holds bytes. -/
def writeBytes (number : Nat) (bytes : List UInt8) : List UInt8 :=
  writeVarint (8 * number + 2) ++ writeVarint bytes.length ++ bytes

/-- A field that holds a text. -/
def writeText (number : Nat) (text : String) : List UInt8 :=
  writeBytes number (textBytes text)

end ProtoPascal.Wire
