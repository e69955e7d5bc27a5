import ProtoPascal.Message.Class
import ProtoPascal.Proofs.Execution.Machine

/-!
How generated code runs. Names are read as expressions mark them: own names are members of the class,
without regard to the case of letters, and local names are parameters, local variables, the result
or the instance. Reading and writing a property calls its accessors. Methods of objects outside the
class are those of the runtime library, and an absent object accepts only `Free`.

The number of nested calls is bounded, so that every computation ends. `Settles` says how a
computation ends once the bound no longer matters.
-/

namespace ProtoPascal.Execution

open Message (Body MessageClass)
open Pascal

/-! ## The code of a class -/

/-- The code of a class: its members, and the implementations of its methods among those of other
classes. -/
structure ClassCode where
  className : String
  members : List Member
  implementation : List (Implementation Action Expr)

/-- The member with a name. -/
def ClassCode.member? (code : ClassCode) (identifier : String) : Option Member :=
  code.members.find? fun member => !member.isForward && Text.sameLetters member.name identifier

/-- The member with a name, if it is not a type. -/
def ClassCode.item? (code : ClassCode) (identifier : String) : Option Item :=
  match code.member? identifier with
  | some (.item _ _ declared) => some declared
  | _ => none

/-- The value with a name of an enumeration that is nested in the class. -/
def ClassCode.enumValue? (code : ClassCode) (type value : String) : Option Value :=
  match code.member? type with
  | some (.nestedType _ _ (.enumType declaration)) =>
    (declaration.values.find? fun member => Text.sameLetters member.name value).map fun member =>
      .enumeration declaration.name member.ordinal
  | _ => none

/-- The implementation of the method with a name. -/
def ClassCode.method? (code : ClassCode) (name : String) : Option (Implementation Action Expr) :=
  code.implementation.find? fun implementation =>
    Text.sameLetters implementation.className code.className &&
      Text.sameLetters implementation.method.name name

/-- A class with the library that it uses. -/
structure Program (Content Payload : Type) where
  code : ClassCode
  library : Library Content Payload

/-! ## The runtime library -/

section

variable {Content Payload : Type} (library : Library Content Payload)

/-- The codec at the end of the arguments of a call, where there is one. -/
def codecAmong? : List Value → Option (Option String)
  | [] => some none
  | [.codec name] => some (some name)
  | _ => none

/-- A call of a method of a codec. -/
def useCodec (codec method : String) (arguments : List Value) : Run Content Payload Value :=
  match method, arguments with
  | "EncodeField", [value, .integer number, .stream stream] => do
    Run.change (·.write stream [⟨number, library.encodeScalar codec value⟩])
    return .nil
  | "EncodeSingularField", [value, .integer number, .stream stream] => do
    Run.change (·.write stream
      (if value.isDefault then [] else [⟨number, library.encodeScalar codec value⟩]))
    return .nil
  | "DecodeUnknownField", [.object address, .integer number] =>
    Run.look fun machine => library.decodeScalar codec (machine.payloads address number)
  | _, _ => Run.fail .stuck

/-- A call of a method of an object with the given content. -/
def useContent (address : Address) (content : Content) (method : String) (arguments : List Value) :
    Run Content Payload Value :=
  match method, arguments with
  | "Free", [] => do
    Run.change (·.setObject address none)
    return .nil
  | "Clear", [] => do
    Run.change (·.setObject address (some (library.clear content)))
    return .nil
  | "Assign", [.object source] => do
    let some other ← Run.look (·.objects source) | Run.accessViolation
    Run.change (·.setObject address (some (library.assign content other)))
    return .nil
  | "MergeFrom", [.object source] => do
    let some other ← Run.look (·.objects source) | Run.accessViolation
    Run.change (·.setObject address (some (library.merge content other)))
    return .nil
  | "EncodeAsSingularField", [.stream stream, .integer number] => do
    Run.change (·.write stream [⟨number, library.encodeMessage content⟩])
    return .nil
  | "EncodeAsRepeatedField", .stream stream :: .integer number :: rest => do
    let codec ← Run.require (codecAmong? rest)
    Run.change (·.write stream ((library.encodeCollection codec content).map (⟨number, ·⟩)))
    return .nil
  | "DecodeAsUnknownSingularField", [.object reader, .integer number] => do
    let payloads ← Run.look (·.payloads reader number)
    Run.change (·.setObject address (some (library.decodeMessage payloads content)))
    return .nil
  | "DecodeAsUnknownRepeatedField", .object reader :: .integer number :: rest => do
    let codec ← Run.require (codecAmong? rest)
    let payloads ← Run.look (·.payloads reader number)
    Run.change (·.setObject address (some (library.decodeCollection codec payloads content)))
    return .nil
  | _, _ => Run.fail .stuck

/-- A call of a method of a value. -/
def useValue (receiver : Value) (method : String) (arguments : List Value) :
    Run Content Payload Value :=
  match receiver with
  | .codec name => useCodec library name method arguments
  | .object address => do
    let some content ← Run.look (·.objects address) | Run.accessViolation
    useContent library address content method arguments
  | .nil => if method = "Free" then pure .nil else Run.accessViolation
  | _ => Run.fail .stuck

/-- A call of a method as the ancestor of all classes defines it. The ancestor writes its own records
when it encodes, keeps what it reads when it decodes, and does not touch the fields of the class. -/
def useAncestor (self : Address) (method : String) (arguments : List Value) :
    Run Content Payload Unit :=
  match method, arguments with
  | "Encode", [.stream stream] => Run.change (·.write stream library.ancestorRecords)
  | "Decode", [.stream stream] => Run.change fun machine =>
    { machine with
      unparsed := Function.update machine.unparsed self (machine.streams stream) }
  | _, _ => pure ()

end

/-- A call of a function that the language provides. -/
def builtin? : String → List Value → Option Value
  | "Assigned", [value] => some (.truth (decide (value ≠ .nil)))
  | "Length", [.nil] => some (.integer 0)
  | "Length", [.bytes _ rest] => some (.integer (rest.length + 1))
  | "Ord", [.enumeration _ ordinal] => some (.integer ordinal)
  | _, _ => none

/-- A value seen as one of another type. Numbers become values of enumerations, and objects stay what
they are. -/
def convert? (type : String) : Value → Option Value
  | .integer value => some (.enumeration type value)
  | .object address => some (.object address)
  | .nil => some .nil
  | _ => none

/-! ## Expressions and statements -/

/-- What a running method knows: its instance, and its parameters and local variables, of which the
last assignment stands first. -/
structure Frame where
  self : Address
  locals : List (String × Value)

/-- The value of a local name. -/
def Frame.read? (frame : Frame) (identifier : String) : Option Value :=
  if Text.sameLetters identifier "Self" then some (.object frame.self)
  else (frame.locals.find? fun entry => Text.sameLetters entry.1 identifier).map Prod.snd

/-- A local name is given a value. -/
def Frame.assign (frame : Frame) (identifier : String) (value : Value) : Frame :=
  { frame with locals := (identifier, value) :: frame.locals }

section

variable {Content Payload : Type}

/-- How methods of an instance are called. -/
abbrev Caller (Content Payload : Type) :=
  Address → String → List Value → Run Content Payload Value

variable (program : Program Content Payload) (call : Caller Content Payload)

/-- Read a member of an instance. -/
def readMember (address : Address) (identifier : String) : Run Content Payload Value :=
  match program.code.item? identifier with
  | some (.field name _) => Run.look fun machine => machine.fields address name
  | some (.constant _ text) => Run.require (literal? text)
  | some (.property _ _ getter _) => call address getter []
  | _ => Run.fail .stuck

/-- Write a member of an instance. -/
def writeMember (address : Address) (identifier : String) (value : Value) :
    Run Content Payload Unit :=
  match program.code.item? identifier with
  | some (.field name _) => Run.change (·.store address name value)
  | some (.property _ _ _ setter) => do
    let _ ← call address setter [value]
  | _ => Run.fail .stuck

/-- Call a method of the instance, or the one of the ancestor that tells whether there is a record
for a field. -/
def callMember (address : Address) (method : String) (arguments : List Value) :
    Run Content Payload Value :=
  match program.code.method? method, method, arguments with
  | some _, _, _ => call address method arguments
  | none, "HasUnparsedField", [.integer number] =>
    Run.look fun machine => .truth
      ((machine.unparsed address).any fun record => record.number == number)
  | none, _, _ => Run.fail .stuck

mutual

/-- The value of an expression. -/
def eval (frame : Frame) : Expr → Run Content Payload Value
  | .own identifier => readMember program call frame.self identifier
  | .localName identifier => Run.require (frame.read? identifier)
  | .runtimeObject identifier => pure (.codec identifier)
  | .constant text => Run.require (literal? text)
  | .quoted text => pure (.text text)
  | .enumValue type value => Run.require (program.code.enumValue? type value)
  | .member object identifier => do
    match ← eval frame object with
    | .object address => readMember program call address identifier
    | .nil => Run.accessViolation
    | _ => Run.fail .stuck
  | .create type => do
    let address ← Run.look (·.fresh)
    Run.change (·.allocate (program.library.create type))
    return .object address
  | .convert type operand => do Run.require (convert? type (← eval frame operand))
  | .downcast operand _ => eval frame operand
  | .builtin function arguments => do
    Run.require (builtin? function (← evalAll frame arguments))
  | .callOwn method arguments => do
    callMember program call frame.self method (← evalAll frame arguments)
  | .invoke object method arguments => do
    let receiver ← eval frame object
    useValue program.library receiver method (← evalAll frame arguments)
  | .compare left relation right => do
    let first ← eval frame left
    let second ← eval frame right
    let outcome ← Run.require (Value.compare relation first second)
    return .truth outcome
  | .negate operand => do
    match ← eval frame operand with
    | .truth value => return .truth (!value)
    | _ => Run.fail .stuck
  | .parenthesized inner => eval frame inner

/-- The values of a list of expressions. -/
def evalAll (frame : Frame) : List Expr → Run Content Payload (List Value)
  | [] => pure []
  | expression :: rest => do
    let value ← eval frame expression
    let others ← evalAll frame rest
    return value :: others

end

/-- Run an action. -/
def execAction (frame : Frame) : Action → Run Content Payload Frame
  | .assign (.own identifier) value => do
    writeMember program call frame.self identifier (← eval program call frame value)
    return frame
  | .assign (.localName identifier) value => do
    return frame.assign identifier (← eval program call frame value)
  | .assign _ _ => Run.fail .stuck
  | .perform expression => do
    let _ ← eval program call frame expression
    return frame
  | .inherit method arguments => do
    useAncestor program.library frame.self method (← evalAll program call frame arguments)
    return frame
  | .raise exceptionType message => do
    match ← eval program call frame message with
    | .text text => Run.fail (.raised exceptionType text)
    | _ => Run.fail .stuck

mutual

/-- Run a statement. -/
def exec : Statement Action Expr → Frame → Run Content Payload Frame
  | .simple action, frame => execAction program call frame action
  | .ifElse condition thenBranch elseBranch, frame => do
    match ← eval program call frame condition with
    | .truth true => execAll thenBranch frame
    | .truth false => execAll elseBranch frame
    | _ => Run.fail .stuck
  | .caseOf selector arms, frame => do
    execArms (← eval program call frame selector) arms frame

/-- Run statements one after the other. -/
def execAll : List (Statement Action Expr) → Frame → Run Content Payload Frame
  | [], frame => pure frame
  | statement :: rest, frame => do
    let next ← exec statement frame
    execAll rest next

/-- Run the first arm whose label is the selected value, or nothing if there is none. -/
def execArms (selected : Value) : List (Arm Action Expr) → Frame → Run Content Payload Frame
  | [], frame => pure frame
  | .arm label body :: rest, frame => do
    let value ← eval program call frame label
    if value = selected then execAll body frame else execArms selected rest frame

end

-- Derives the equations of the definitions here, once for all the proofs that open them.
attribute [local simp] readMember writeMember callMember eval evalAll execAction exec execAll execArms

@[simp]
theorem evalAll_nil (frame : Frame) : evalAll program call frame [] = pure [] := by
  simp

@[simp]
theorem eval_parenthesized (frame : Frame) (inner : Expr) :
    eval program call frame (.parenthesized inner) = eval program call frame inner := by
  simp

@[simp]
theorem exec_simple (action : Action) (frame : Frame) :
    exec program call (.simple action) frame = execAction program call frame action := by
  simp

@[simp]
theorem execAll_nil (frame : Frame) : execAll program call [] frame = pure frame := by
  simp

@[simp]
theorem execArms_nil (selected : Value) (frame : Frame) :
    execArms program call selected [] frame = pure frame := by
  simp

end

/-! ## Methods -/

section

variable {Content Payload : Type} (program : Program Content Payload)

/-- Call a method of an instance, with a bound on the number of nested calls. -/
def invokeMethod : Nat → Caller Content Payload
  | 0, _, _, _ => Run.fail .exhausted
  | depth + 1, address, name, arguments => do
    let implementation ← Run.require (program.code.method? name)
    let parameters := implementation.method.parameters.map Parameter.name
    let final ← execAll program (invokeMethod depth) implementation.body
      { self := address, locals := parameters.zip arguments }
    return (final.read? "Result").getD .nil

/-- Read a property of an instance from outside. -/
def readProperty (address : Address) (property : String) (depth : Nat) :
    Run Content Payload Value :=
  readMember program (invokeMethod program depth) address property

/-- Write a property of an instance from outside. -/
def writeProperty (address : Address) (property : String) (value : Value) (depth : Nat) :
    Run Content Payload Unit :=
  writeMember program (invokeMethod program depth) address property value

/-- Call a method of an instance from outside. -/
def callMethod (address : Address) (method : String) (arguments : List Value) (depth : Nat) :
    Run Content Payload Unit := do
  let _ ← invokeMethod program depth address method arguments

/-- A computation ends in one way on a machine, however deep its calls may go, provided that they may
go deep enough. -/
def Settles {α : Type} (computation : Nat → Run Content Payload α)
    (machine : Machine Content Payload) (outcome : Except Fault α)
    (final : Machine Content Payload) : Prop :=
  ∃ bound, ∀ depth ≥ bound, (computation depth).on machine = (outcome, final)

/-- A computation ends in at most one way. -/
theorem Settles.unique {α : Type} {computation : Nat → Run Content Payload α}
    {machine final final' : Machine Content Payload} {outcome outcome' : Except Fault α}
    (left : Settles computation machine outcome final)
    (right : Settles computation machine outcome' final') :
    outcome = outcome' ∧ final = final' := by
  obtain ⟨bound, left⟩ := left
  obtain ⟨bound', right⟩ := right
  have same := (left (max bound bound') (Nat.le_max_left _ _)).symm.trans
    (right (max bound bound') (Nat.le_max_right _ _))
  rwa [Prod.mk.injEq] at same

end

end ProtoPascal.Execution
