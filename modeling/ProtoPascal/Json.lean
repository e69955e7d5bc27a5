/-!
JSON documents and their text with two blanks for each level. Entries of objects keep their order.
-/

namespace ProtoPascal

/-- A document. -/
inductive Json where
  | null
  | text (value : String)
  | number (value : Int)
  | array (items : List Json)
  | object (entries : List (String × Json))

namespace Json

/-- A list of texts. -/
def texts (values : List String) : Json :=
  .array (values.map Json.text)

/-- The last two hexadecimal digits of a code below 256. -/
def hexPair (code : Nat) : List Char :=
  [Nat.digitChar (code / 16), Nat.digitChar (code % 16)]

/-- A character inside a string: quotes, backslashes and control characters are escaped. -/
def escapeChar (character : Char) : List Char :=
  if character = '"' then ['\\', '"']
  else if character = '\\' then ['\\', '\\']
  else if character = '\x08' then ['\\', 'b']
  else if character = '\x0c' then ['\\', 'f']
  else if character = '\n' then ['\\', 'n']
  else if character = '\r' then ['\\', 'r']
  else if character = '\t' then ['\\', 't']
  else if character.toNat < 32 then ['\\', 'u', '0', '0'] ++ hexPair character.toNat
  else [character]

/-- A text as a string of JSON. -/
def quote (text : String) : String :=
  "\"" ++ String.ofList (text.toList.flatMap escapeChar) ++ "\""

/-- The start of a line at a depth. -/
def newline (depth : Nat) : String :=
  "\n" ++ String.ofList (List.replicate (2 * depth) ' ')

mutual

/-- The text of a document at a depth. -/
def prettyAt (depth : Nat) : Json → String
  | .null => "null"
  | .text value => quote value
  | .number value => toString value
  | .array [] => "[]"
  | .array items => "[" ++ prettyItems (depth + 1) "" items ++ newline depth ++ "]"
  | .object [] => "\x7b\x7d"
  | .object entries =>
    "\x7b" ++ prettyEntries (depth + 1) "" entries ++ newline depth ++ "\x7d"

/-- The items of an array, each on a new line after a separator. -/
def prettyItems (depth : Nat) (separator : String) : List Json → String
  | [] => ""
  | item :: rest =>
    separator ++ newline depth ++ prettyAt depth item ++ prettyItems depth "," rest

/-- The entries of an object, each on a new line after a separator. -/
def prettyEntries (depth : Nat) (separator : String) : List (String × Json) → String
  | [] => ""
  | (key, value) :: rest =>
    separator ++ newline depth ++ quote key ++ ": " ++ prettyAt depth value
      ++ prettyEntries depth "," rest

end

/-- The text of a document. -/
def pretty (document : Json) : String :=
  prettyAt 0 document

end Json

end ProtoPascal
