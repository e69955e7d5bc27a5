import ProtoPascal.Wire.Failure

/-!
Readers of encoded bytes. A reader takes what it needs from the front of the bytes and leaves the
rest. Numbers are written in groups of seven bits, the lowest first; all groups but the last are
marked by their highest bit.
-/

namespace ProtoPascal.Wire

/-- A computation that reads from the front of a list of bytes. -/
abbrev Reader := StateT (List UInt8) (Except Failure)

/-- Stop reading. -/
def fail {α : Type} (cause : Cause) : Reader α :=
  throw { locations := [], cause }

/-- Read inside a field: the failures of the reader get the location of the field. -/
def within {α : Type} (location : Location) (reader : Reader α) : Reader α := fun bytes =>
  (reader bytes).mapError (Failure.within location)

/-- The number of bytes that are left. -/
def remaining : Reader Nat := do
  return (← get).length

/-- Take a number of bytes. -/
def takeBytes (count : Nat) : Reader (List UInt8) := do
  let bytes ← get
  if bytes.length < count then fail .underflow
  set (bytes.drop count)
  return bytes.take count

/-- The number at the front of the bytes, of which the groups before `position` have been read.
There are at most ten groups, and the tenth has one bit. -/
def varintFrom (position : Nat) : List UInt8 → Except Failure (Nat × List UInt8)
  | [] => .error ⟨[], .invalidVarint⟩
  | byte :: rest =>
    if 9 ≤ position && 2 ≤ byte.toNat then .error ⟨[], .invalidVarint⟩
    else if byte.toNat < 128 then .ok (byte.toNat, rest)
    else do
      let (high, after) ← varintFrom (position + 1) rest
      return (byte.toNat % 128 + 128 * high, after)

/-- Read a number. -/
def readVarint : Reader Nat := varintFrom 0

/-- The key before the value of a field. -/
structure Key where
  number : Nat
  wireType : WireType
deriving DecidableEq, Repr

/-- Read a key: a number below 2 to the power of 32, made of the number of a field and the number of
a wire type. -/
def readKey : Reader Key := do
  let key ← readVarint
  if UInt32.size ≤ key then fail (.keyTooLarge key)
  match WireType.ofNat? (key % 8) with
  | none => fail (.unknownWireType (key % 8))
  | some wireType =>
    if key / 8 = 0 then fail .fieldNumberZero
    return { number := key / 8, wireType }

/-- Read one value after the other while more than `limit` bytes are left. Every step takes at least
one byte; reading would end after a step that takes none. -/
def readWhileAbove {α : Type} (limit : Nat) (step : Reader α) (bytes : List UInt8) :
    Except Failure (List α × List UInt8) :=
  if bytes.length ≤ limit then .ok ([], bytes)
  else
    match step bytes with
    | .error failure => .error failure
    | .ok (value, rest) =>
      if rest.length < bytes.length then
        match readWhileAbove limit step rest with
        | .error failure => .error failure
        | .ok (values, after) => .ok (value :: values, after)
      else .ok ([value], rest)
termination_by bytes.length

/-- Read a length and then content of that length. The content is read while its end is not reached
and has to stop at its end. -/
def readDelimited {α : Type} (step : Reader α) : Reader (List α) := do
  let length ← readVarint
  let available ← remaining
  if available < length then fail .underflow
  let limit := available - length
  let values ← readWhileAbove limit step
  if (← remaining) ≠ limit then fail .lengthExceeded
  return values

/-- Read a length and as many bytes. -/
def readBytes : Reader (List UInt8) := do
  takeBytes (← readVarint)

/-- The text that bytes stand for in UTF-8. -/
def decodeText? (bytes : List UInt8) : Option String :=
  String.fromUTF8? ⟨bytes.toArray⟩

/-- Read a length and a text of as many bytes. -/
def readText : Reader String := do
  match decodeText? (← readBytes) with
  | some text => return text
  | none => fail .notUtf8

end ProtoPascal.Wire
