import ProtoPascal.Text.Pieces

/-!
Paths of files as texts, with a slash between the components.
-/

namespace ProtoPascal.Files

/-- Whether a path starts at the root. -/
def isAbsolute (path : String) : Bool :=
  path.toList.head? == some '/'

/-- Whether a path ends in a slash, as only the path of a directory may. -/
def endsInSlash (path : String) : Bool :=
  path.toList.getLast? == some '/'

/-- A path inside a directory. An absolute path stays as it is. -/
def joinPath (directory path : String) : String :=
  if isAbsolute path || directory.isEmpty then path
  else if endsInSlash directory then directory ++ path
  else directory ++ "/" ++ path

/-- Whether a component of a path, behind the components before it, changes nothing: it is empty,
or it is a dot behind other components. -/
def isVoidComponent (before : List String) (component : String) : Bool :=
  component.isEmpty || (component == "." && !before.isEmpty)

/-- The paths that some components make, given last first: the path of all of them, then every path
above it. No path ends in a void component. -/
def pathsAbove : List String → List String
  | [] => []
  | component :: before =>
    if isVoidComponent before component then pathsAbove before
    else Text.join "/" (component :: before).reverse :: pathsAbove before

/-- A path and the paths above it, each without its void end. Neither the root nor the empty path
is among them. -/
def ancestors (path : String) : List String :=
  pathsAbove (Text.pieces '/' path).reverse

/-- The path without its last component. -/
def parentPath (path : String) : String :=
  match ancestors path with
  | _ :: parent :: _ => parent
  | _ => if isAbsolute path then "/" else ""

/-- What a component of a path does. -/
inductive Step where
  | stay
  | up
  | into (name : String)
deriving DecidableEq, Repr

/-- The step of a component. An empty component is none. -/
def Step.ofComponent? (component : String) : Option Step :=
  if component.isEmpty then none
  else if component == "." then some .stay
  else if component == ".." then some .up
  else some (.into component)

/-- The steps of a path. -/
def steps (path : String) : List Step :=
  (Text.pieces '/' path).filterMap Step.ofComponent?

end ProtoPascal.Files
