import PlanarExpr.Decimal.Binary
import PlanarExpr.Text.Written

namespace PlanarExpr.Decimal

/-!
# Rounding to a fixed number of places

The exact value is rounded once, to the nearest multiple of the last place; a
value halfway between two of them goes to the even one.
-/

/-- The integer nearest to a quotient; halfway between two, the even one. -/
def roundQuotient
    (numerator denominator : Nat) :
    Nat :=
  let quotient := numerator / denominator
  let twice := 2 * (numerator % denominator)
  if twice < denominator then
    quotient
  else if denominator < twice then
    quotient + 1
  else
    quotient + quotient % 2

/-- A magnitude divided by a power of ten, rounded to an integer. -/
def Binary.roundOver
    (x : Binary)
    (power : Int) :
    Nat :=
  roundQuotient
    (x.significand * Nat.pow 2 x.exponent.toNat * Nat.pow 10 (-power).toNat)
    (Nat.pow 2 (-x.exponent).toNat * Nat.pow 10 power.toNat)

/-- The sign that is written before a number. -/
def signText (negative : Bool) : List Char :=
  if negative then ['-'] else []

/-- A number with the given count of decimal places. -/
def fixed
    (places : Nat)
    (x : Float) :
    String :=
  match Parts.ofFloat x with
  | .notANumber => "nan"
  | .infinite negative => String.ofList (signText negative ++ "inf".toList)
  | .finite negative magnitude =>
      let digits :=
        Text.padLeft (places + 1) '0'
          (Text.natural (magnitude.roundOver (-(places : Int))))
      let whole := digits.take (digits.length - places)
      let fraction := digits.drop (digits.length - places)
      String.ofList (signText negative ++ whole ++ '.' :: fraction)

/-- A rounded quotient is within half a unit of the exact one. -/
theorem roundQuotient_near
    (numerator denominator : Nat)
    (positive : 0 < denominator) :
    2 * (roundQuotient numerator denominator * denominator) ≤
        2 * numerator + denominator ∧
      2 * numerator ≤
        2 * (roundQuotient numerator denominator * denominator) + denominator := by
  have division := Nat.div_add_mod numerator denominator
  have remainderBound := Nat.mod_lt numerator positive
  simp only [roundQuotient]
  generalize numerator / denominator = quotient at *
  generalize numerator % denominator = remainder at *
  have step : (quotient + 1) * denominator = denominator * quotient + denominator := by
    rw [Nat.add_mul, Nat.mul_comm, Nat.one_mul]
  have swap : quotient * denominator = denominator * quotient := Nat.mul_comm ..
  split
  · rw [swap]; omega
  · split
    · rw [step]; omega
    · rcases Nat.mod_two_eq_zero_or_one quotient with even | odd
      · rw [even, Nat.add_zero, swap]; omega
      · rw [odd, step]; omega

end PlanarExpr.Decimal
