import ProtoPascal.Error

/-!
Results with the lines that were logged on the way to them. The lines logged before an error are
kept. Main statement: `Traced.result_bind`, results do not depend on what is logged.
-/

namespace ProtoPascal

/-- How much a logged line matters. -/
inductive LogLevel where
  | error
  | warning
  | information
  | debug
deriving DecidableEq, Repr

/-- A logged line. -/
structure LogLine where
  level : LogLevel
  text : String
deriving DecidableEq, Repr

/-- A result or an error, with the lines logged before it was known. -/
structure Traced (α : Type) where
  log : List LogLine
  result : Except Error α

/-- One computation after another. After an error nothing more is logged. -/
def Traced.bind {α β : Type} (first : Traced α) (next : α → Traced β) : Traced β :=
  match first.result with
  | .ok value => { log := first.log ++ (next value).log, result := (next value).result }
  | .error error => { log := first.log, result := .error error }

instance : Monad Traced where
  pure value := { log := [], result := .ok value }
  bind := Traced.bind

/-- A result of which nothing is logged. -/
def Traced.silent {α : Type} (result : Except Error α) : Traced α :=
  { log := [], result }

instance : MonadLift (Except Error) Traced where
  monadLift := Traced.silent

/-- Log one line. -/
def Traced.note (level : LogLevel) (text : String) : Traced Unit :=
  { log := [⟨level, text⟩], result := .ok () }

section

variable {α β : Type}

/-- The result of a value is the value. -/
@[simp]
theorem Traced.result_pure (value : α) : (pure value : Traced α).result = .ok value := rfl

/-- Logging does not change results: the result of one computation after another is the one that
their results give. -/
@[simp]
theorem Traced.result_bind (first : Traced α) (next : α → Traced β) :
    (first >>= next).result = first.result >>= fun value => (next value).result := by
  show (Traced.bind first next).result = _
  rcases first with ⟨log, error | value⟩ <;> rfl

/-- The result of a computation of which nothing is logged. -/
@[simp]
theorem Traced.result_silent (result : Except Error α) : (Traced.silent result).result = result :=
  rfl

/-- A result is lifted without logging. -/
@[simp]
theorem Traced.monadLift_eq (result : Except Error α) :
    (monadLift result : Traced α) = Traced.silent result := rfl

/-- The result of logging a line. -/
@[simp]
theorem Traced.result_note (level : LogLevel) (text : String) :
    (Traced.note level text).result = .ok () := rfl

end

end ProtoPascal
