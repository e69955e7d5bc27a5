import ProtoPascal.Request.Options
import ProtoPascal.Schema.Validation
import ProtoPascal.SchemaUnit

/-!
Generation of units for the requested files among all supplied ones. A request gives one unit for
each requested file, or fails as a whole.
-/

namespace ProtoPascal.Request

open Pascal (CodeUnit Member TypeDeclaration)
open Schema (FileDescriptor)

/-! ## Generated units and what is in them -/

/-- A unit with the path at which it belongs. -/
structure GeneratedUnit where
  path : String
  unit : CodeUnit

/-- The text of a generated unit. -/
def GeneratedUnit.content (generated : GeneratedUnit) : String :=
  CodeUnit.render generated.unit

/-- The numbers of units and of the classes and enumerations in them. -/
structure Statistics where
  units : Nat
  classes : Nat
  enums : Nat
deriving DecidableEq, Repr

mutual

/-- The number of classes that a type declaration declares, at any depth. -/
def classCount : TypeDeclaration → Nat
  | .forwardClass _ => 0
  | .enumType _ => 0
  | .classType _ _ _ members => 1 + memberClassCount members

/-- The number of classes that members declare, at any depth. -/
def memberClassCount : List Member → Nat
  | [] => 0
  | .item _ _ _ :: rest => memberClassCount rest
  | .nestedType _ _ declared :: rest => classCount declared + memberClassCount rest

end

mutual

/-- The number of enumerations that a type declaration declares, at any depth. -/
def enumCount : TypeDeclaration → Nat
  | .forwardClass _ => 0
  | .enumType _ => 1
  | .classType _ _ _ members => memberEnumCount members

/-- The number of enumerations that members declare, at any depth. -/
def memberEnumCount : List Member → Nat
  | [] => 0
  | .item _ _ _ :: rest => memberEnumCount rest
  | .nestedType _ _ declared :: rest => enumCount declared + memberEnumCount rest

end

/-- The numbers for a list of units. -/
def Statistics.collect (generated : List GeneratedUnit) : Statistics :=
  let types := generated.flatMap fun entry => entry.unit.types
  { units := generated.length
    classes := (types.map classCount).foldl (· + ·) 0
    enums := (types.map enumCount).foldl (· + ·) 0 }

/-- The numbers as reports show them. -/
def Statistics.summary (statistics : Statistics) : String :=
  toString statistics.units ++ " units (" ++ toString statistics.classes ++ " classes, "
    ++ toString statistics.enums ++ " enums)"

/-! ## Generation -/

/-- The warning for a file of another version of the schema language than the third. -/
def languageWarning (descriptor : FileDescriptor) : List LogLine :=
  let name := descriptor.name.getD ""
  let version := descriptor.languageVersion.getD ""
  if name.isEmpty || version = "proto3" then []
  else
    let shown := if version.isEmpty then "proto2" else version
    [⟨.warning, name ++ ": syntax '" ++ shown
      ++ "' treated with proto3 no-presence rules for non-oneof fields"⟩]

/-- The schema file that a descriptor describes, with a warning where its language has rules that
generated code does not follow. -/
def loadFile (descriptor : FileDescriptor) : Traced Schema.File :=
  { log := languageWarning descriptor, result := Schema.File.ofDescriptor descriptor }

/-- The first file with a name. -/
def findFile (files : List Schema.File) (name : String) : Except Error Schema.File :=
  match files.find? fun file => file.name == name with
  | some file => .ok file
  | none => .error (.missingFile name "files to generate")

/-- The unit of one requested file. -/
def generateRequested (runtime : Runtime) (index : TypeIndex) (files : List Schema.File)
    (name : String) : Traced GeneratedUnit := do
  let file ← findFile files name
  let unit ← generateUnit index runtime file
  let identifier ← index.unit file.name file.name
  let generated : GeneratedUnit := { path := identifier.outputPath, unit }
  Traced.note .debug (name ++ " -> " ++ generated.path ++ " ("
    ++ toString generated.content.utf8ByteSize ++ " bytes)")
  return generated

/-- The units of all requested files, in the order of the request. -/
def generate (descriptors : List FileDescriptor) (requested : List String) (options : Options) :
    Traced (List GeneratedUnit) := do
  let files ← descriptors.mapM loadFile
  let index ← TypeIndex.build files
  Traced.note .debug ("indexed " ++ toString (keyCount index.units) ++ " files, "
    ++ toString (keyCount index.types) ++ " types")
  let generated ← requested.mapM (generateRequested options.runtime index files)
  Traced.note .information ("generated " ++ (Statistics.collect generated).summary
    ++ " with runtime " ++ options.runtime.namespaceName)
  return generated

end ProtoPascal.Request
