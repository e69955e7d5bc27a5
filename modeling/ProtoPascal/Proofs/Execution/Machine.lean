import Mathlib.Logic.Function.Basic
import ProtoPascal.Pascal.Code
import ProtoPascal.Proofs.Results

/-!
The machine on which generated code runs. Instances of the class whose code runs have fields by
name. All other objects, messages of other classes and collections, are known only by their content,
which the runtime library reads and changes. A message on the wire is a list of records, each with
the number of its field.

A computation on the machine ends with a result or a fault, and the machine stays as it was when the
fault occurred.
-/

namespace ProtoPascal.Execution

open Pascal (Relation)

/-! ## Values -/

/-- The address of an object or a stream. -/
abbrev Address := Nat

/-- A floating-point value. Zeros of both signs are one value. -/
inductive Floating where
  | finite (value : Rat)
  | infinite (negative : Bool)
  | notANumber
deriving DecidableEq

/-- A value of a variable. An array without elements is `nil`, so a value of `bytes` has a first
element. -/
inductive Value where
  | nil
  | integer (value : Int)
  | floating (value : Floating)
  | truth (value : Bool)
  | text (value : String)
  | bytes (first : UInt8) (rest : List UInt8)
  | enumeration (type : String) (ordinal : Int)
  | object (address : Address)
  | stream (address : Address)
  | codec (name : String)
deriving DecidableEq

/-- Whether two values compare as equal. What is not a number compares as equal to nothing. -/
def Value.same (left right : Value) : Bool :=
  decide (left = right) && decide (left ≠ .floating .notANumber)

/-- The outcome of a comparison. Only integers have an order. -/
def Value.compare : Relation → Value → Value → Option Bool
  | .equal, left, right => some (left.same right)
  | .different, left, right => some (!left.same right)
  | .greater, .integer left, .integer right => some (decide (right < left))
  | .greater, _, _ => none

/-- Values compare as equal exactly if they are, unless they are not numbers. -/
theorem Value.same_eq_decide {left right : Value} (number : right ≠ .floating .notANumber) :
    left.same right = decide (left = right) := by
  unfold Value.same
  by_cases equal : left = right
  · subst equal
    simp [number]
  · simp [equal]

/-- Whether a value is the default of its type, which is not written to the wire. -/
def Value.isDefault (value : Value) : Bool :=
  decide (value ∈ [.nil, .integer 0, .floating (.finite 0), .truth false, .text ""])

/-- The integer that a text denotes in decimal form. -/
def decimal? (text : String) : Option Int :=
  match text.toList with
  | [] => none
  | '-' :: digits => if digits.all Char.isDigit then some (-Nat.ofDigitChars 10 digits 0) else none
  | digits => if digits.all Char.isDigit then some (Nat.ofDigitChars 10 digits 0) else none

/-- The value that the text of a constant denotes. -/
def literal? (text : String) : Option Value :=
  match decimal? text with
  | some value => some (.integer value)
  | none =>
    if text = "nil" then some .nil
    else if text = "True" then some (.truth true)
    else if text = "False" then some (.truth false)
    else if text = "0.0" then some (.floating (.finite 0))
    else if text = "''" then some (.text "")
    else none

theorem decimal?_toString (value : Int) : decimal? (toString value) = some value := by
  have digits (number : Nat) : (Nat.toDigits 10 number).all Char.isDigit = true :=
    List.all_eq_true.mpr fun _ inside =>
      Nat.isDigit_of_mem_toDigits (by decide) (by decide) inside
  cases value with
  | ofNat number =>
    have shown : (toString (Int.ofNat number)).toList = Nat.toDigits 10 number := Nat.toList_repr
    unfold decimal?
    rw [shown]
    split
    · next empty => exact absurd empty Nat.toDigits_ne_nil
    · next rest negative =>
      have isDigit := digits number
      rw [negative] at isDigit
      exact absurd isDigit (by simp)
    · rw [if_pos (digits number), Nat.ofDigitChars_ten_toDigits]
      rfl
  | negSucc number =>
    have shown : (toString (Int.negSucc number)).toList =
        '-' :: Nat.toDigits 10 (number + 1) := by
      show ("-" ++ (number + 1).repr).toList = _
      rw [String.toList_append, Nat.toList_repr]
      rfl
    unfold decimal?
    rw [shown]
    show (if _ then _ else _) = _
    rw [if_pos (digits (number + 1)), Nat.ofDigitChars_ten_toDigits]
    rfl

theorem literal?_toString (value : Int) : literal? (toString value) = some (.integer value) := by
  rw [literal?, decimal?_toString]

@[simp]
theorem literal?_nil : literal? "nil" = some .nil := rfl

@[simp]
theorem literal?_true : literal? "True" = some (.truth true) := rfl

@[simp]
theorem literal?_false : literal? "False" = some (.truth false) := rfl

@[simp]
theorem literal?_zero : literal? "0" = some (.integer 0) := rfl

/-! ## The machine -/

/-- What a message has on the wire for a field. -/
structure Record (Payload : Type) where
  number : Int
  payload : Payload

/-- The code outside the generated classes, as far as these depend on it: what it does with the
content of messages and collections, and how it writes values to the wire and reads them back. -/
structure Library (Content Payload : Type) where
  /-- The content of a new object of a class. -/
  create : String → Content
  clear : Content → Content
  /-- The content of an object after it is assigned another object. -/
  assign : Content → Content → Content
  /-- The content of an object after another object is merged into it. -/
  merge : Content → Content → Content
  encodeScalar : String → Value → Payload
  decodeScalar : String → List Payload → Value
  encodeMessage : Content → Payload
  decodeMessage : List Payload → Content → Content
  /-- What a collection has on the wire, with the codec of its elements if they have one. -/
  encodeCollection : Option String → Content → List Payload
  decodeCollection : Option String → List Payload → Content → Content
  /-- What the ancestor of all classes writes for an instance. -/
  ancestorRecords : List (Record Payload)

/-- A library whose contents are lists of values, which go to the wire as they are. -/
def Library.transparent : Library (List Value) (Value × List Value) where
  create _ := []
  clear _ := []
  assign _ other := other
  merge content other := content ++ other
  encodeScalar _ value := (value, [])
  decodeScalar _ payloads := (payloads.headD (.nil, [])).1
  encodeMessage content := (.nil, content)
  decodeMessage payloads content := (payloads.map Prod.snd).headD content
  encodeCollection _ content := content.map (·, [])
  decodeCollection _ payloads _ := payloads.map Prod.fst
  ancestorRecords := []

/-- The state of the machine. -/
structure Machine (Content Payload : Type) where
  /-- The fields of the instances whose code runs. -/
  fields : Address → String → Value
  /-- The content of the other objects that are alive. -/
  objects : Address → Option Content
  /-- The address of the next object. -/
  fresh : Address
  streams : Address → List (Record Payload)
  /-- The records that an instance has read and not yet taken apart. -/
  unparsed : Address → List (Record Payload)

variable {Content Payload α β : Type}

namespace Machine

/-- A field of an instance is given a value. -/
def store (machine : Machine Content Payload) (address : Address) (name : String) (value : Value) :
    Machine Content Payload :=
  { machine with
    fields := Function.update machine.fields address
      (Function.update (machine.fields address) name value) }

/-- An object is given a content, or none when it is freed. -/
def setObject (machine : Machine Content Payload) (address : Address) (content : Option Content) :
    Machine Content Payload :=
  { machine with objects := Function.update machine.objects address content }

/-- The machine with a new object. -/
def allocate (machine : Machine Content Payload) (content : Content) : Machine Content Payload :=
  { machine.setObject machine.fresh (some content) with fresh := machine.fresh + 1 }

/-- Records are written at the end of a stream. -/
def write (machine : Machine Content Payload) (address : Address)
    (records : List (Record Payload)) : Machine Content Payload :=
  { machine with
    streams := Function.update machine.streams address (machine.streams address ++ records) }

/-- What an instance has read under the number of a field. -/
def payloads (machine : Machine Content Payload) (address : Address) (number : Int) :
    List Payload :=
  ((machine.unparsed address).filter fun record => record.number == number).map Record.payload

section

variable (machine : Machine Content Payload) (address : Address) (name : String) (value : Value)
  (content : Content) (gone : Option Content)

@[simp]
theorem fields_store_same : (machine.store address name value).fields address name = value := by
  dsimp only [store]
  rw [Function.update_self, Function.update_self]

/-- Nothing changes when a field is given the value that it has. -/
theorem store_eq_self (same : machine.fields address name = value) :
    machine.store address name value = machine := by
  rw [store, ← same, Function.update_eq_self, Function.update_eq_self]

theorem write_write (records more : List (Record Payload)) :
    (machine.write address records).write address more = machine.write address (records ++ more) := by
  simp [write]

theorem fields_store_name {other : String} (different : other ≠ name) (address' : Address) :
    (machine.store address name value).fields address' other = machine.fields address' other := by
  dsimp only [store]
  by_cases same : address' = address
  · subst same
    rw [Function.update_self, Function.update_of_ne different]
  · rw [Function.update_of_ne same]

@[simp]
theorem objects_store : (machine.store address name value).objects = machine.objects := rfl

@[simp]
theorem fresh_store : (machine.store address name value).fresh = machine.fresh := rfl

@[simp]
theorem fields_setObject : (machine.setObject address gone).fields = machine.fields := rfl

@[simp]
theorem fresh_setObject : (machine.setObject address gone).fresh = machine.fresh := rfl

@[simp]
theorem objects_setObject_same : (machine.setObject address gone).objects address = gone :=
  Function.update_self ..

theorem objects_setObject_other {address' : Address} (different : address' ≠ address) :
    (machine.setObject address gone).objects address' = machine.objects address' :=
  Function.update_of_ne different _ _

@[simp]
theorem fields_allocate : (machine.allocate content).fields = machine.fields := rfl

@[simp]
theorem fresh_allocate : (machine.allocate content).fresh = machine.fresh + 1 := rfl

@[simp]
theorem objects_allocate_fresh :
    (machine.allocate content).objects machine.fresh = some content :=
  Function.update_self ..

theorem objects_allocate_other {address' : Address} (different : address' ≠ machine.fresh) :
    (machine.allocate content).objects address' = machine.objects address' :=
  Function.update_of_ne different _ _

end

end Machine

/-! ## Computations -/

/-- Why a computation ends without a result. -/
inductive Fault where
  /-- An exception with its class and its message. -/
  | raised (exceptionType message : String)
  /-- The code has no meaning. -/
  | stuck
  /-- The calls go deeper than allowed. -/
  | exhausted
deriving DecidableEq

/-- A computation on the machine. -/
abbrev Run (Content Payload : Type) := ExceptT Fault (StateM (Machine Content Payload))

namespace Run

/-- The end of a computation that starts on a machine, and the machine after it. -/
def on (computation : Run Content Payload α) (machine : Machine Content Payload) :
    Except Fault α × Machine Content Payload :=
  computation.run.run machine

/-- Look at the machine. -/
def look (view : Machine Content Payload → α) : Run Content Payload α :=
  ExceptT.mk fun machine => (.ok (view machine), machine)

/-- Change the machine. -/
def change (update : Machine Content Payload → Machine Content Payload) :
    Run Content Payload Unit :=
  ExceptT.mk fun machine => (.ok (), update machine)

/-- End with a fault. -/
def fail (fault : Fault) : Run Content Payload α :=
  ExceptT.mk fun machine => (.error fault, machine)

/-- End with the fault of using an object that is not there. -/
def accessViolation : Run Content Payload α :=
  fail (.raised "EAccessViolation" "Access violation")

/-- A value, if there is one. -/
def require : Option α → Run Content Payload α
  | some value => pure value
  | none => fail .stuck

@[simp]
theorem on_pure (value : α) (machine : Machine Content Payload) :
    (pure value : Run Content Payload α).on machine = (.ok value, machine) := rfl

@[simp]
theorem on_look (view : Machine Content Payload → α) (machine : Machine Content Payload) :
    (look view).on machine = (.ok (view machine), machine) := rfl

@[simp]
theorem require_some (value : α) :
    (require (some value) : Run Content Payload α) = pure value := rfl

/-- One computation after another: the second starts on the machine that the first leaves, and a
fault of the first ends both. -/
theorem on_bind (first : Run Content Payload α) (next : α → Run Content Payload β)
    (machine : Machine Content Payload) :
    (first >>= next).on machine =
      match first.on machine with
      | (.ok value, middle) => (next value).on middle
      | (.error fault, middle) => (.error fault, middle) := by
  show (ExceptT.bind first next) machine = _
  simp only [on, ExceptT.run, StateT.run, ExceptT.bind, ExceptT.mk, ExceptT.bindCont, bind,
    StateT.bind]
  rcases first machine with ⟨fault | value, middle⟩ <;> rfl

/-- After a computation with a result the next one starts. -/
theorem on_bind_ok {first : Run Content Payload α} {next : α → Run Content Payload β}
    {machine middle : Machine Content Payload} {value : α}
    (found : first.on machine = (.ok value, middle)) :
    (first >>= next).on machine = (next value).on middle := by
  rw [on_bind, found]

theorem on_bind_error {first : Run Content Payload α} {next : α → Run Content Payload β}
    {machine middle : Machine Content Payload} {fault : Fault}
    (failed : first.on machine = (.error fault, middle)) :
    (first >>= next).on machine = (.error fault, middle) := by
  rw [on_bind, failed]

end Run

end ProtoPascal.Execution
