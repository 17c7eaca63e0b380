namespace PlanarExpr.Decimal

/-!
# Floating point numbers taken apart

A finite number is a sign and a magnitude `significand * 2 ^ exponent`. All
decimal writing starts from these exact parts.
-/

/-- A magnitude `significand * 2 ^ exponent`. -/
structure Binary where
  significand : Nat
  exponent : Int
  /-- Whether the gap to the next smaller number is half the gap to the next larger one. -/
  narrowBelow : Bool

/-- What the bits of a floating point number stand for. -/
inductive Parts where
  | notANumber
  | infinite (negative : Bool)
  | finite (negative : Bool) (magnitude : Binary)

/-- The magnitude with the given exponent field and fraction field. -/
def Binary.ofFields
    (exponentField fraction : Nat) :
    Binary :=
  if exponentField = 0 then
    { significand := fraction, exponent := -1074, narrowBelow := false }
  else
    {
      significand := Nat.pow 2 52 + fraction
      exponent := (exponentField : Int) - 1075
      narrowBelow := fraction = 0 && 1 < exponentField
    }

/-- The parts of a floating point number, read from its bits. -/
def Parts.ofFloat (x : Float) : Parts :=
  let bits := x.toBits.toNat
  let negative := bits / Nat.pow 2 63 = 1
  let exponentField := bits / Nat.pow 2 52 % Nat.pow 2 11
  let fraction := bits % Nat.pow 2 52
  if exponentField = 2047 then
    if fraction = 0 then .infinite negative else .notANumber
  else
    .finite negative (Binary.ofFields exponentField fraction)

/-- The exact value of a magnitude, if it is a natural number. -/
def Binary.toNat? (x : Binary) : Option Nat :=
  if 0 ≤ x.exponent then
    some (x.significand * Nat.pow 2 x.exponent.toNat)
  else
    let unit := Nat.pow 2 x.exponent.natAbs
    if x.significand % unit = 0 then some (x.significand / unit) else none

/-- The exact value of a floating point number, if it is an integer. -/
def toInt? (x : Float) : Option Int :=
  match Parts.ofFloat x with
  | .finite negative magnitude =>
      magnitude.toNat?.map fun value => if negative then -(value : Int) else value
  | _ => none

end PlanarExpr.Decimal
