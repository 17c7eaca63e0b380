import PlanarExpr.Log

namespace PlanarExpr

/-!
# Consulting the surroundings of a document

Where a name is defined, and what is assigned there, is known to others. A
consultation is one question to them with its answer.
-/

/-- An answer to a question about a document. -/
inductive Finding (α : Type) where
  | found (item : α)
  | nothing
  /-- The one who was asked failed to answer. -/
  | failure
deriving DecidableEq

namespace Finding

/-- What was found, if anything. -/
def item? : Finding α → Option α
  | .found item => some item
  | .nothing => none
  | .failure => none

/-- An answer that cannot be a failure. -/
def ofOption : Option α → Finding α
  | some item => .found item
  | none => .nothing

/-- What is given by an optional answer is that answer. -/
@[simp] theorem item?_ofOption (answer : Option α) :
    (ofOption answer).item? = answer := by
  cases answer <;> rfl

end Finding

/-- An answer and what was reported while it was sought. -/
structure Consultation (α : Type) where
  finding : Finding α
  log : List LogRecord

namespace Consultation

/-- An answer that was given without a report. -/
def ofFinding (finding : Finding α) : Consultation α :=
  { finding := finding, log := [] }

/-- Nothing was found, for a reason that is reported. -/
def absent (record : LogRecord) : Consultation α :=
  { finding := .nothing, log := [record] }

end Consultation

end PlanarExpr
