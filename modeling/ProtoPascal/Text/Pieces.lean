/-!
Texts divided at a character, and joined again. A text with `n` dividers has `n + 1` pieces, so the
empty text has one piece, which is empty.
-/

namespace ProtoPascal.Text

/-- The pieces between the characters at which `divides` holds. -/
def piecesBy (divides : Char → Bool) : List Char → List (List Char)
  | [] => [[]]
  | character :: rest =>
    if divides character then [] :: piecesBy divides rest
    else
      match piecesBy divides rest with
      | [] => [[character]]
      | piece :: pieces => (character :: piece) :: pieces

/-- The pieces of a text between the occurrences of `divider`. -/
def pieces (divider : Char) (text : String) : List String :=
  (piecesBy (· == divider) text.toList).map String.ofList

/-- The text before the first occurrence of `divider` and the text after it, if there is one. -/
def splitFirst? (divider : Char) (text : String) : Option (String × String) :=
  match text.toList.span (· != divider) with
  | (_, []) => none
  | (before, _ :: after) => some (String.ofList before, String.ofList after)

/-- The texts of a list, one after the other, with `between` between two of them. -/
def join (between : String) : List String → String
  | [] => ""
  | [text] => text
  | text :: rest => text ++ between ++ join between rest

end ProtoPascal.Text
