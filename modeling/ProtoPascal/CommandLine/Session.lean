import ProtoPascal.CommandLine.Arguments
import ProtoPascal.Files.FileSystem
import ProtoPascal.Pascal.Outline
import ProtoPascal.Request.Envelope

/-!
Sessions: what a command does to the file system and what it prints. Everything works on any
storage, so the same definitions serve the program and a file system that is a value.
-/

namespace ProtoPascal.CommandLine

open Files (Storage)
open Request (GeneratedUnit Options Statistics)
open Schema (FileDescriptor)

/-- What a session leaves behind apart from files. -/
structure Outcome where
  exitCode : Nat := 0
  /-- The lines of the report. -/
  report : List String := []
  /-- The bytes of the output. -/
  output : List UInt8 := []
deriving DecidableEq, Repr

section

variable {m : Type → Type} [Monad m] [Storage m]

/-- The files of the descriptor set at a path. -/
def loadDescriptorSet (path : String) : m (Except Error (List FileDescriptor)) := do
  match ← Storage.readFile path with
  | .ok bytes => return Schema.decodeDescriptorSet bytes
  | .error fault => return .error (.unreadable path fault)

/-- Write one unit below a directory. -/
def writeUnit (directory : String) (generated : GeneratedUnit) : m (Except Error Unit) := do
  let path := Files.joinPath directory generated.path
  let parent := Files.parentPath path
  match ← Files.createDirectories (Files.ancestors parent) with
  | .error fault => return .error (.unwritable parent fault)
  | .ok () =>
    match ← Storage.writeFile path generated.content with
    | .error fault => return .error (.unwritable path fault)
    | .ok () => return .ok ()

/-- Write units below a directory, one after the other, up to the first that cannot be written. -/
def writeUnits (directory : String) : List GeneratedUnit → m (Except Error Unit)
  | [] => return .ok ()
  | generated :: rest => do
    match ← writeUnit directory generated with
    | .error error => return .error error
    | .ok () => writeUnits directory rest

/-- The names of the files that a selection asks for. -/
def Selection.requested (selection : Selection) (descriptors : List FileDescriptor) :
    List String :=
  if selection.files.isEmpty then descriptors.map fun descriptor => descriptor.name.getD ""
  else selection.files.map Text.trim

/-- The units that a selection asks for. -/
def Selection.generate (selection : Selection) : m (Except Error (List GeneratedUnit)) := do
  match ← loadDescriptorSet selection.descriptorSet with
  | .error error => return .error error
  | .ok descriptors =>
    return (Request.generate descriptors (selection.requested descriptors)
      (.withRuntimeNamespace selection.runtimeNamespace)).result

/-- The report of an error and of what lies behind it. -/
def errorReport (error : Error) : List String :=
  ("error: " ++ error.message) :: (error.cause?.map ("  caused by: " ++ ·)).toList

/-- The outcome of a session that failed after some lines of its report. -/
def Outcome.failed (report : List String) (error : Error) : Outcome :=
  { exitCode := 1, report := report ++ errorReport error }

/-- The report of units that have been written. -/
def writtenReport (directory : String) (generated : List GeneratedUnit) : List String :=
  generated.map (fun entry => "  " ++ entry.path)
    ++ ["Generated " ++ (Statistics.collect generated).summary ++ " in " ++ directory]

/-- Write the selected units. -/
def runGenerate (selection : Selection) (directory : String) (quiet : Bool) : m Outcome := do
  let opening :=
    if quiet then [] else ["Loading descriptors from " ++ selection.descriptorSet]
  match ← selection.generate with
  | .error error => return .failed opening error
  | .ok generated =>
    match ← writeUnits directory generated with
    | .error error => return .failed opening error
    | .ok () =>
      return { report := if quiet then [] else opening ++ writtenReport directory generated }

/-- Print the structure of the selected units. -/
def runOutline (selection : Selection) : m Outcome := do
  match ← selection.generate with
  | .error error => return .failed [] error
  | .ok generated =>
    let document := Json.array (generated.map fun entry =>
      (Pascal.CodeUnit.toText entry.unit).outline)
    return { output := Wire.textBytes (document.pretty ++ "\n") }

/-- Answer a request of a schema compiler. -/
def runAnswer (input : List UInt8) : Outcome :=
  match Request.answer input with
  | .ok bytes => { output := bytes }
  | .error error => .failed [] error

/-- Carry out a command. Only an answer depends on the input. -/
def Command.run (input : List UInt8) : Command → m Outcome
  | .answer => return runAnswer input
  | .generate selection directory quiet => runGenerate selection directory quiet
  | .outline selection => runOutline selection

end

end ProtoPascal.CommandLine
