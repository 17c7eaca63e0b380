import PlanarExpr.Log

namespace PlanarExpr

/-!
# Calculations that report and may fail

A `Calculation` carries the log records that were written on the way and ends
with a result or with the fault that stopped it. Records written before a
fault are kept.
-/

/-- Why a calculation has no result. -/
inductive Fault where
  /-- The sine or cosine of an infinite angle was needed. -/
  | infiniteAngle
  /-- An integer is too large to be turned into a floating point number. -/
  | integerTooLarge
deriving DecidableEq

/-- What is said about a fault. -/
def Fault.message : Fault → String
  | .infiniteAngle => "math domain error"
  | .integerTooLarge => "int too large to convert to float"

/-- The records and the outcome of a calculation. -/
structure Calculation (α : Type) where
  log : List LogRecord
  outcome : Except Fault α

namespace Calculation

/-- A result without any records. -/
@[inline] protected def pure (result : α) : Calculation α :=
  { log := [], outcome := .ok result }

/-- Continues with the result of a calculation; a fault ends the whole. -/
@[inline] protected def bind
    (first : Calculation α)
    (next : α → Calculation β) :
    Calculation β :=
  match first.outcome with
  | .error fault => { log := first.log, outcome := .error fault }
  | .ok result =>
      let second := next result
      { log := first.log ++ second.log, outcome := second.outcome }

instance : Monad Calculation where
  pure := Calculation.pure
  bind := Calculation.bind

/-- A calculation that stops with a fault. -/
def fail (fault : Fault) : Calculation α :=
  { log := [], outcome := .error fault }

/-- A calculation that only writes a record. -/
def report (record : LogRecord) : Calculation Unit :=
  { log := [record], outcome := .ok () }

/-- An outcome without any record. -/
def ofExcept (outcome : Except Fault α) : Calculation α :=
  { log := [], outcome := outcome }

/-- A result that is simply given reports nothing. -/
@[simp] theorem pure_def (result : α) :
    (pure result : Calculation α) = { log := [], outcome := .ok result } :=
  rfl

/-- The second half of a calculation runs on the result of the first half. -/
@[simp] theorem bind_ok
    (log : List LogRecord)
    (result : α)
    (next : α → Calculation β) :
    (({ log := log, outcome := .ok result } : Calculation α) >>= next) =
      { log := log ++ (next result).log, outcome := (next result).outcome } :=
  rfl

/-- A fault in the first half is the fault of the whole. -/
@[simp] theorem bind_error
    (log : List LogRecord)
    (fault : Fault)
    (next : α → Calculation β) :
    (({ log := log, outcome := .error fault } : Calculation α) >>= next) =
      { log := log, outcome := .error fault } :=
  rfl

instance : LawfulMonad Calculation :=
  LawfulMonad.mk' Calculation
    (by
      intro α first
      rcases first with ⟨log, fault | result⟩
      · rfl
      · simp [Functor.map, Calculation.bind, Calculation.pure])
    (by
      intro α β result next
      simp)
    (by
      intro α β γ first second third
      rcases first with ⟨log, fault | result⟩
      · rfl
      · rcases next : second result with ⟨later, fault | middle⟩ <;>
          simp [next])

end Calculation

end PlanarExpr
