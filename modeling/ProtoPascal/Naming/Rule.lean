import ProtoPascal.Text.CaseStyle
import ProtoPascal.Text.Folding

/-!
Naming rules: how the identifiers of one kind are built from names of the schema, and whether an
identifier has the shape that a rule gives.
-/

namespace ProtoPascal.Naming

open Text

/-- How the identifiers of one kind are built: a fixed text, the name in the case style of the kind,
and another fixed text. -/
structure Rule where
  /-- The words for the kind of identifier in error texts. -/
  kind : String
  style : CaseStyle := .pascal
  /-- The text before the styled name. -/
  lead : String := ""
  /-- The text after the styled name. -/
  trail : String := ""
  /-- The text that follows the styled name where the plain form is taken. -/
  retryMark : String := "_"
  /-- Whether identifiers that differ only in the case of letters are different. -/
  caseSensitive : Bool := false
deriving DecidableEq, Repr

/-- The identifier that a rule builds when nothing stands in its way. -/
def Rule.plain (rule : Rule) (core : String) : String :=
  rule.lead ++ rule.style.apply core ++ rule.trail

/-- The identifier that a rule builds when the plain one is taken. -/
def Rule.marked (rule : Rule) (core : String) : String :=
  rule.lead ++ rule.style.apply core ++ rule.retryMark ++ rule.trail

/-- The number of bytes that characters take up in UTF-8. -/
def byteLength : List Char → Nat
  | [] => 0
  | character :: rest => character.utf8Size + byteLength rest

/-- The characters before and after a number of bytes. There are none if the characters take up
fewer bytes, or if the cut falls inside a character. -/
def cutBytes? : Nat → List Char → Option (List Char × List Char)
  | 0, characters => some ([], characters)
  | _ + 1, [] => none
  | count + 1, character :: rest =>
    if character.utf8Size ≤ count + 1 then
      (cutBytes? (count + 1 - character.utf8Size) rest).map fun parts =>
        (character :: parts.1, parts.2)
    else none

/-- Whether two texts agree, in the sense that a rule gives to agreement. -/
def Rule.agree (rule : Rule) (left right : List Char) : Bool :=
  if rule.caseSensitive then left == right else foldChars left == foldChars right

/-- What follows the lead of a rule. -/
def Rule.afterLead? (rule : Rule) (characters : List Char) : Option (List Char) :=
  match cutBytes? (byteLength rule.lead.toList) characters with
  | some (head, rest) => if rule.agree head rule.lead.toList then some rest else none
  | none => none

/-- What stands before the trail of a rule. -/
def Rule.beforeTrail? (rule : Rule) (characters : List Char) : Option (List Char) :=
  let trail := rule.trail.toList
  if byteLength trail ≤ byteLength characters then
    match cutBytes? (byteLength characters - byteLength trail) characters with
    | some (inner, tail) => if rule.agree tail trail then some inner else none
    | none => none
  else none

/-- Whether a rule could have built an identifier from some name: the identifier has the lead and
the trail of the rule, and the text between them is not empty and is already in the style of the
rule. So `Filled` does not pass for the backing field of `illed`. -/
def Rule.couldProduce (rule : Rule) (identifier : String) : Bool :=
  match (rule.afterLead? identifier.toList).bind rule.beforeTrail? with
  | some inner => !inner.isEmpty && rule.style.applyChars inner == inner
  | none => false

end ProtoPascal.Naming
