import ProtoPascal.Text.Pieces

/-!
The arguments of the command line. Without a command the program answers a request of a schema
compiler. The command `generate` writes the units for a descriptor set, and `dump-ast` prints their
structure. An argument that is unknown, stands where none is expected, lacks its value or is given
twice makes the whole command line invalid.
-/

namespace ProtoPascal.CommandLine

/-- Which units to make, and from what. -/
structure Selection where
  /-- The path of the descriptor set. -/
  descriptorSet : String
  /-- The names of the files to generate; none stands for all. -/
  files : List String := []
  runtimeNamespace : Option String := none
deriving DecidableEq, Repr

/-- What the program is asked to do. -/
inductive Command where
  /-- Answer a request of a schema compiler. -/
  | answer
  /-- Write the selected units into a directory. -/
  | generate (selection : Selection) (outputDirectory : String) (quiet : Bool)
  /-- Print the structure of the selected units. -/
  | outline (selection : Selection)
deriving DecidableEq, Repr

/-- The options given so far. -/
structure Given where
  descriptorSet : Option String := none
  files : List String := []
  runtimeNamespace : Option String := none
  outputDirectory : Option String := none
  quiet : Bool := false
deriving DecidableEq, Repr

/-- A value for an option that may be given once. -/
def once {α : Type} (earlier : Option α) (value : α) : Option (Option α) :=
  if earlier.isSome then none else some (some value)

/-- The options with one more option and its value. `writes` tells whether the command writes
units, and so has the options for that. -/
def Given.set? (given : Given) (writes : Bool) (option value : String) : Option Given :=
  match option with
  | "descriptor-set" =>
    if value.isEmpty then none
    else (once given.descriptorSet value).map fun path => { given with descriptorSet := path }
  | "files" => some { given with files := given.files ++ Text.pieces ',' value }
  | "runtime-namespace" =>
    (once given.runtimeNamespace value).map fun name => { given with runtimeNamespace := name }
  | "output-dir" =>
    if value.isEmpty || !writes then none
    else (once given.outputDirectory value).map fun path => { given with outputDirectory := path }
  | _ => none

/-- The options with the one that takes no value. -/
def Given.setQuiet? (given : Given) (writes : Bool) : Option Given :=
  if given.quiet || !writes then none else some { given with quiet := true }

/-- Whether an argument can be the value of the option before it. -/
def isValue (argument : String) : Bool :=
  argument.toList.head? != some '-' || argument == "-"

/-- What an argument of a command is. -/
inductive Argument where
  /-- An option with its value in the same argument. -/
  | valued (option value : String)
  /-- An option by itself. -/
  | bare (option : String)
  /-- The option for quiet work, in its short form. -/
  | quiet
  /-- The mark after which no more options stand. -/
  | stop
  | other
deriving DecidableEq, Repr

/-- What an argument of a command is. -/
def Argument.ofText (argument : String) : Argument :=
  match argument.toList with
  | ['-', '-'] => .stop
  | ['-', 'q'] => .quiet
  | '-' :: '-' :: name =>
    match Text.splitFirst? '=' (String.ofList name) with
    | some (option, value) => .valued option value
    | none => .bare (String.ofList name)
  | _ => .other

/-- The options that a list of arguments gives, after those given before. -/
def Given.read? (given : Given) (writes : Bool) : List String → Option Given
  | [] => some given
  | argument :: rest =>
    match Argument.ofText argument, rest with
    | .stop, rest => if rest.isEmpty then some given else none
    | .quiet, rest => (given.setQuiet? writes).bind fun next => next.read? writes rest
    | .bare "quiet", rest => (given.setQuiet? writes).bind fun next => next.read? writes rest
    | .valued option value, rest =>
      (given.set? writes option value).bind fun next => next.read? writes rest
    | .bare option, value :: rest =>
      if isValue value then
        (given.set? writes option value).bind fun next => next.read? writes rest
      else none
    | _, _ => none

/-- The selection that options give; the namespace of the environment stands in where none is
given. -/
def Given.selection? (given : Given) (environment : Option String) : Option Selection :=
  given.descriptorSet.map fun descriptorSet =>
    { descriptorSet, files := given.files,
      runtimeNamespace := given.runtimeNamespace.orElse fun _ => environment }

/-- The command that arguments give, if they are valid. -/
def Command.parse? (environment : Option String) : List String → Option Command
  | [] => some .answer
  | ["--"] => some .answer
  | "generate" :: rest => do
    let given ← Given.read? {} true rest
    let selection ← given.selection? environment
    return .generate selection (given.outputDirectory.getD ".") given.quiet
  | "dump-ast" :: rest => do
    let given ← Given.read? {} false rest
    let selection ← given.selection? environment
    return .outline selection
  | _ => none

end ProtoPascal.CommandLine
