import ProtoPascal.Text.CaseMapping
import ProtoPascal.Text.Words

/-!
Styles in which a name is written: every word capitalised, all words in capitals with underscores
between them, or the name as it stands.
-/

namespace ProtoPascal.Text

/-- How the words of a name are written. -/
inductive CaseStyle where
  /-- The words follow each other, each with one capital at its start: `FooBar`. -/
  | pascal
  /-- The words are in capitals with underscores between them: `FOO_BAR`. -/
  | screamingSnake
  /-- The name stays as it is. -/
  | verbatim
deriving DecidableEq, Repr

/-- The lowercase form of the characters after the first of a word. A capital sigma that ends the
word becomes a final sigma. -/
def lowerTail : List Char → List Char
  | [] => []
  | ['Σ'] => ['ς']
  | character :: rest => lowerCase character ++ lowerTail rest

/-- A word with a capital at its start and the rest in lowercase. -/
def capitalize : List Char → List Char
  | [] => []
  | first :: rest => upperCase first ++ lowerTail rest

/-- A word in capitals. -/
def capitals (word : List Char) : List Char :=
  word.flatMap upperCase

/-- The characters of a name written in a style. -/
def CaseStyle.applyChars : CaseStyle → List Char → List Char
  | .pascal, characters => (words characters).flatMap capitalize
  | .screamingSnake, characters => ['_'].intercalate ((words characters).map capitals)
  | .verbatim, characters => characters

/-- A name written in a style. -/
def CaseStyle.apply (style : CaseStyle) (name : String) : String :=
  String.ofList (style.applyChars name.toList)

end ProtoPascal.Text
