import ProtoPascal.Naming.Vocabulary
import ProtoPascal.Schema.Basic

/-!
The names of generated units, and the files in which they are stored.
-/

namespace ProtoPascal

/-- The name of a unit: the segments of its namespace, and its own name. -/
structure UnitIdentifier where
  segments : List String
  name : String
deriving DecidableEq, Repr

/-- The names from which the namespace of a unit is made: the parts of the package, or the
directories of the file where there is no package. -/
def namespaceCores (file : Schema.File) : List String :=
  match file.package with
  | some package => (Text.pieces '.' package).filter fun segment => !segment.isEmpty
  | none => file.directorySegments

/-- The name of the unit for a schema file. -/
def UnitIdentifier.ofFile (file : Schema.File) : Except Error UnitIdentifier := do
  let segments ← (namespaceCores file).mapM (Naming.keywordScope.generate .namespaceSegment [])
  let name ← Naming.keywordScope.generate .unitName [] file.stem
  return { segments, name }

/-- The name by which other units know a unit. -/
def UnitIdentifier.fullName (identifier : UnitIdentifier) : String :=
  Text.join "." (identifier.segments ++ [identifier.name])

/-- The path of the file that holds a unit: a directory for each segment of the namespace, and in
it a file named after the unit. -/
def UnitIdentifier.outputPath (identifier : UnitIdentifier) : String :=
  let fileName := identifier.fullName ++ ".pas"
  match identifier.segments with
  | [] => fileName
  | segments => Text.join "/" segments ++ "/" ++ fileName

end ProtoPascal
