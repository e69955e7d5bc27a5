import ProtoPascal.Text.Characters
import ProtoPascal.Text.Pieces

/-!
The words of a name. A character that is not alphanumeric divides words and belongs to none. Inside
a run of alphanumeric characters a word ends where a lowercase part meets an uppercase character
(`fooBar` has the words `foo` and `Bar`), and before the last of several uppercase characters when a
lowercase one follows (`XMLName` has the words `XML` and `Name`). Characters without case count as
what stands before them.
-/

namespace ProtoPascal.Text

/-- The case of the last cased character of the word being read. -/
inductive WordState where
  | fresh
  | lowercase
  | uppercase
deriving DecidableEq, Repr

/-- The state of a word after one more character. -/
def WordState.next (state : WordState) (character : Char) : WordState :=
  if isLowercase character then .lowercase
  else if isUppercase character then .uppercase
  else state

/-- The words of a run of alphanumeric characters, of which `current` has been read into the word
that is not yet complete. -/
def caseWordsFrom (state : WordState) (current : List Char) : List Char → List (List Char)
  | [] => []
  | [character] => [current ++ [character]]
  | character :: following :: rest =>
    if state.next character = .lowercase && isUppercase following then
      (current ++ [character]) :: caseWordsFrom .fresh [] (following :: rest)
    else if state = .uppercase && isUppercase character && isLowercase following then
      current :: caseWordsFrom .fresh [character] (following :: rest)
    else
      caseWordsFrom (state.next character) (current ++ [character]) (following :: rest)

/-- The words of a run of alphanumeric characters. -/
def caseWords (characters : List Char) : List (List Char) :=
  caseWordsFrom .fresh [] characters

/-- The words of a name, in order. No word is empty. -/
def words (characters : List Char) : List (List Char) :=
  (piecesBy (fun character => !isAlphanumeric character) characters).flatMap caseWords

end ProtoPascal.Text
