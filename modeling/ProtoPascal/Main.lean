import ProtoPascal.CommandLine.Session

/-!
The program: the command line on the files of the machine.
-/

namespace ProtoPascal

open CommandLine (Command)
open Files (Fault Storage)

/-- The number of a fault. Some operations of the system report it with its sign changed. -/
def faultNumber (code : UInt32) : Nat :=
  if code < 0x80000000 then code.toNat else (0 - code).toNat

/-- The fault behind an error of the system. -/
def faultOf : IO.Error → Fault
  | .noFileOrDirectory .. => .notFound
  | .alreadyExists .. => .alreadyExists
  | .inappropriateType _ code _ =>
    if faultNumber code == Fault.notDirectory.number then .notDirectory else .isDirectory
  | .invalidArgument _ code text =>
    if faultNumber code == Fault.nameTooLong.number then .nameTooLong
    else .other (faultNumber code) text
  | error => .other 0 (toString error)

/-- The result of an operation of the system, with its fault where it failed. -/
def attempt {α : Type} (operation : IO α) : IO (Except Fault α) := do
  match ← operation.toBaseIO with
  | .ok value => return .ok value
  | .error error => return .error (faultOf error)

instance : Storage IO where
  readFile path := attempt do return (← IO.FS.readBinFile path).data.toList
  createDirectory path := attempt (IO.FS.createDir path)
  writeFile path text := attempt (IO.FS.writeFile path text)

/-- Read all bytes of the standard input. -/
def readInput : IO (List UInt8) := do
  return (← (← IO.getStdin).readBinToEnd).data.toList

/-- The program on its arguments. -/
def runProgram (arguments : List String) : IO UInt32 := do
  let environment ← IO.getEnv "PROTOC_GEN_DELPHI_RUNTIME_NAMESPACE"
  match Command.parse? environment arguments with
  | none =>
    IO.eprintln "error: invalid arguments"
    return 2
  | some command =>
    let input ← if command = .answer then readInput else pure []
    let outcome ← command.run input
    for line in outcome.report do
      IO.eprintln line
    let stdout ← IO.getStdout
    stdout.write ⟨outcome.output.toArray⟩
    stdout.flush
    return outcome.exitCode.toUInt32

end ProtoPascal

/-- Start the program. -/
def main (arguments : List String) : IO UInt32 :=
  ProtoPascal.runProgram arguments
