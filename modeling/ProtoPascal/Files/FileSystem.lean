import ProtoPascal.Files.Path
import ProtoPascal.Files.Storage
import ProtoPascal.Wire.Record

/-!
File systems as values: the files and directories, and what the operations on files do to them. A
path is followed step by step, so every directory on the way has to exist, also one that the path
leaves again.
-/

namespace ProtoPascal.Files

/-- What stands at a place. -/
inductive Node where
  | file (content : List UInt8)
  | directory
deriving DecidableEq, Repr

/-- The nodes of a file system. A place is given by the names that lead to it from the root. -/
structure FileSystem where
  /-- The working directory. It and the directories above it need no entry. -/
  home : List String := []
  nodes : List (List String × Node) := []
deriving DecidableEq, Repr

/-- The node at a place. -/
def FileSystem.node? (files : FileSystem) (place : List String) : Option Node :=
  if place.isPrefixOf files.home then some .directory else files.nodes.lookup place

/-- The file system with a node at a place. -/
def FileSystem.put (files : FileSystem) (place : List String) (node : Node) : FileSystem :=
  { files with nodes := (place, node) :: files.nodes.filter fun entry => entry.1 != place }

/-- The most bytes that a name has. -/
def longestName : Nat := 255

/-- The most bytes that a path has. -/
def longestPath : Nat := 4095

/-- The place one step away from a directory. There need not be anything. The root is above
itself. -/
def FileSystem.advance (files : FileSystem) (place : List String) (step : Step) :
    Except Fault (List String) :=
  if files.node? place ≠ some .directory then .error .notDirectory
  else
    match step with
    | .stay => .ok place
    | .up => .ok place.dropLast
    | .into name =>
      if longestName < name.utf8ByteSize then .error .nameTooLong else .ok (place ++ [name])

/-- The place that steps lead to from a place, with something at every place on the way. -/
def FileSystem.follow (files : FileSystem) (place : List String) :
    List Step → Except Fault (List String)
  | [] => .ok place
  | step :: rest =>
    match files.advance place step with
    | .error fault => .error fault
    | .ok next =>
      if (files.node? next).isSome then files.follow next rest else .error .notFound

/-- The place that a path means, with something at every place on the way. -/
def FileSystem.target (files : FileSystem) (path : String) : Except Fault (List String) :=
  if path.isEmpty then .error .notFound
  else if longestPath < path.utf8ByteSize then .error .nameTooLong
  else
    match files.follow (if isAbsolute path then [] else files.home) (steps path).dropLast with
    | .error fault => .error fault
    | .ok place =>
      match (steps path).getLast? with
      | none => .ok place
      | some step => files.advance place step

/-- The content of the file at a path. -/
def FileSystem.read (files : FileSystem) (path : String) : Except Fault (List UInt8) :=
  match files.target path with
  | .error fault => .error fault
  | .ok place =>
    match files.node? place with
    | none => .error .notFound
    | some .directory => .error .isDirectory
    | some (.file content) => if endsInSlash path then .error .notDirectory else .ok content

/-- The file system with one more directory, in a directory that exists. -/
def FileSystem.createDirectory (files : FileSystem) (path : String) : Except Fault FileSystem :=
  match files.target path with
  | .error fault => .error fault
  | .ok place =>
    if (files.node? place).isSome then .error .alreadyExists
    else .ok (files.put place .directory)

/-- The file system in which the file at a path has a content. The faults are those of the path and of
directories. A write that fails after the file was created or emptied is left out. -/
def FileSystem.write (files : FileSystem) (path : String) (content : List UInt8) :
    Except Fault FileSystem :=
  match files.target path with
  | .error fault => .error fault
  | .ok place =>
    if endsInSlash path || files.node? place = some .directory then .error .isDirectory
    else .ok (files.put place (.file content))

/-- The state after an operation. A fault of a path or a directory is found before anything changes, so
it leaves the state as it was. -/
def commit : Except Fault FileSystem → StateM FileSystem (Except Fault Unit)
  | .ok after => do
    set after
    return .ok ()
  | .error fault => return .error fault

instance : Storage (StateM FileSystem) where
  readFile path := do
    return (← get).read path
  createDirectory path := do
    commit ((← get).createDirectory path)
  writeFile path text := do
    commit ((← get).write path (Wire.textBytes text))

end ProtoPascal.Files
