import ProtoPascal.Error
import ProtoPascal.Naming.Rule

/-!
Naming scopes: the identifiers that are taken, and the choice of an identifier that is not. A name
gets its plain identifier if that is free. If it is taken, or has the shape of another kind of
identifier that the name must yield to, the name gets the marked identifier. If that is taken too,
there is no identifier for the name.
-/

namespace ProtoPascal.Naming

open Text

/-- The identifiers that are taken, in the order in which they were taken. -/
structure Scope where
  taken : List String := []
deriving DecidableEq, Repr

/-- The scope in which one more identifier is taken. -/
def Scope.insert (scope : Scope) (identifier : String) : Scope :=
  ⟨scope.taken ++ [identifier]⟩

/-- The scope in which more identifiers are taken. -/
def Scope.extend (scope : Scope) (identifiers : List String) : Scope :=
  ⟨scope.taken ++ identifiers⟩

/-- Whether an identifier is taken, with or without regard to the case of letters. -/
def Scope.contains (scope : Scope) (identifier : String) (caseSensitive : Bool) : Bool :=
  scope.taken.any fun taken =>
    if caseSensitive then taken == identifier else sameLetters taken identifier

/-- Whether an identifier of a rule is taken or has the shape of one of the colliding rules. -/
def Scope.collides (scope : Scope) (rule : Rule) (colliding : List Rule) (identifier : String) :
    Bool :=
  scope.contains identifier rule.caseSensitive || colliding.any (·.couldProduce identifier)

/-- The identifier of a rule for a name, apart from those taken and those of the colliding
rules. -/
def Scope.generate (scope : Scope) (rule : Rule) (colliding : List Rule) (core : String) :
    Except Error String :=
  if !scope.collides rule colliding (rule.plain core) then .ok (rule.plain core)
  else if !scope.collides rule colliding (rule.marked core) then .ok (rule.marked core)
  else .error (.identifierCollision rule.kind core (rule.marked core))

/-- Computations that take identifiers in a scope. What was taken before an error stays taken. -/
abbrev Claiming := ExceptT Error (StateM Scope)

/-- A result without effect on the scope. -/
def Claiming.ofExcept {α : Type} (result : Except Error α) : Claiming α :=
  ExceptT.mk fun scope => (result, scope)

/-- The result of a computation that starts in a scope, and the scope after it. -/
def Claiming.runIn {α : Type} (claims : Claiming α) (scope : Scope) : Except Error α × Scope :=
  claims.run.run scope

/-- The result of a computation that starts in a scope which nobody needs afterwards. -/
def Claiming.resultIn {α : Type} (claims : Claiming α) (scope : Scope) : Except Error α :=
  (claims.runIn scope).1

/-- Choose the identifier of a rule for a name and take it. Without an identifier the scope stays as
it is. -/
def claim (rule : Rule) (colliding : List Rule) (core : String) : Claiming String :=
  ExceptT.mk fun scope =>
    match scope.generate rule colliding core with
    | .ok identifier => (.ok identifier, scope.insert identifier)
    | .error error => (.error error, scope)

end ProtoPascal.Naming
