/-!
Faults reported by a file system.
-/

namespace ProtoPascal.Files

/-- Why an operation on a file system failed. Every fault has a number of its own and a text. -/
inductive Fault where
  | notFound
  | alreadyExists
  | notDirectory
  | isDirectory
  | nameTooLong
  | other (number : Nat) (text : String)
deriving DecidableEq, Repr

/-- The number of a fault. -/
def Fault.number : Fault → Nat
  | .notFound => 2
  | .alreadyExists => 17
  | .notDirectory => 20
  | .isDirectory => 21
  | .nameTooLong => 36
  | .other number _ => number

/-- The text of a fault without its number. -/
def Fault.text : Fault → String
  | .notFound => "No such file or directory"
  | .alreadyExists => "File exists"
  | .notDirectory => "Not a directory"
  | .isDirectory => "Is a directory"
  | .nameTooLong => "File name too long"
  | .other _ text => text

/-- The text of a fault as reports show it. -/
def Fault.message (fault : Fault) : String :=
  fault.text ++ " (os error " ++ toString fault.number ++ ")"

end ProtoPascal.Files
