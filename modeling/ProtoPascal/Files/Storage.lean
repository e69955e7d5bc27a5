import ProtoPascal.Files.Fault

/-!
Access to files, for programs that work on any file system.
-/

namespace ProtoPascal.Files

/-- The operations on files that generation needs. -/
class Storage (m : Type → Type) where
  /-- The content of a file. -/
  readFile : String → m (Except Fault (List UInt8))
  /-- Create a directory in a directory that exists. -/
  createDirectory : String → m (Except Fault Unit)
  /-- Give a file a text as its content. -/
  writeFile : String → String → m (Except Fault Unit)

section

variable {m : Type → Type} [Monad m] [Storage m]

/-- Whether a path leads to a directory: it can be found and only for that reason not be read. -/
def isDirectory (path : String) : m Bool := do
  match ← Storage.readFile path with
  | .error .isDirectory => return true
  | _ => return false

/-- The result of an attempt to create a directory. A failure does not matter where a directory
exists. -/
def settle (path : String) : Except Fault Unit → m (Except Fault Unit)
  | .ok () => return .ok ()
  | .error fault => do
    if ← isDirectory path then return .ok () else return .error fault

/-- Create the directory at the first of some paths. Where something above it is missing, the
directories at the other paths, each above the one before it, are created first. -/
def createDirectories : List String → m (Except Fault Unit)
  | [] => return .ok ()
  | path :: above => do
    match ← Storage.createDirectory path with
    | .error .notFound =>
      match ← createDirectories above with
      | .error fault => return .error fault
      | .ok () => settle path (← Storage.createDirectory path)
    | result => settle path result

end

end ProtoPascal.Files
