import PlanarExpr.Decimal.Binary
import PlanarExpr.Text.Written

namespace PlanarExpr.Decimal

/-!
# The fewest digits that read back

A decimal reads back to a floating point number if it lies in the interval of
reals that round to that number. The interval runs from halfway to the number
below to halfway to the number above and holds its ends if the significand is
even. Of the decimals in it, those with the fewest digits are taken, and of
those the one nearest to the number.
-/

/-- A decimal `digits * 10 ^ exponent`. -/
structure Scaled where
  digits : Nat
  exponent : Int
deriving DecidableEq

/-- Quarters of the last binary place of a magnitude, in units of `10 ^ grid`, times `gridUnit`. -/
def Binary.onGrid
    (x : Binary)
    (quarters : Nat)
    (grid : Int) :
    Nat :=
  quarters * Nat.pow 2 (x.exponent - 2).toNat * Nat.pow 10 (-grid).toNat

/-- The unit in which `onGrid` counts. -/
def Binary.gridUnit
    (x : Binary)
    (grid : Int) :
    Nat :=
  Nat.pow 2 (2 - x.exponent).toNat * Nat.pow 10 grid.toNat

/-- Whether `digits * 10 ^ grid` rounds to the magnitude. -/
def Binary.readsBack
    (x : Binary)
    (grid : Int)
    (digits : Nat) :
    Bool :=
  let quarters := 4 * x.significand
  let lower := x.onGrid (quarters - if x.narrowBelow then 1 else 2) grid
  let upper := x.onGrid (quarters + 2) grid
  let point := digits * x.gridUnit grid
  if x.significand % 2 = 0 then
    lower ≤ point && point ≤ upper
  else
    lower < point && point < upper

/--
The multiple of `10 ^ grid` nearest to the magnitude among its two neighbours
that read back; halfway between them, the even one.
-/
def Binary.nearestOn?
    (x : Binary)
    (grid : Int) :
    Option Nat :=
  let value := x.onGrid (4 * x.significand) grid
  let unit := x.gridUnit grid
  let below := value / unit
  match x.readsBack grid below, x.readsBack grid (below + 1) with
  | false, false => none
  | true, false => some below
  | false, true => some (below + 1)
  | true, true =>
      let middle := (2 * below + 1) * unit
      if 2 * value < middle then some below
      else if middle < 2 * value then some (below + 1)
      else some (below + below % 2)

/-- More decimal places than the least positive number needs to show a digit. -/
def scalePlaces : Nat := 330

/-- The least `k` such that the magnitude is below `10 ^ k`. -/
def Binary.decimalScale (x : Binary) : Int :=
  let value := x.onGrid (4 * x.significand) (-(scalePlaces : Int))
  (Text.natural (value / x.gridUnit (-(scalePlaces : Int)))).length - (scalePlaces : Int)

/-- The exact value of a magnitude as a decimal. -/
def Binary.exact (x : Binary) : Scaled :=
  {
    digits :=
      x.significand * Nat.pow 2 x.exponent.toNat * Nat.pow 5 (-x.exponent).toNat
    exponent := min x.exponent 0
  }

/-- Moves trailing zeros of the digits into the exponent, at most `budget` of them. -/
def Scaled.dropZeros
    (number : Scaled) :
    Nat →
    Scaled
  | 0 => number
  | budget + 1 =>
      if number.digits % 10 = 0 then
        Scaled.dropZeros
          { digits := number.digits / 10, exponent := number.exponent + 1 } budget
      else
        number

/-- The shortest decimal that reads back to a positive magnitude. -/
def Binary.shortest (x : Binary) : Scaled :=
  let scale := x.decimalScale
  let found :=
    (List.range 17).findSome? fun (dropped : Nat) =>
      let grid := scale - ((dropped : Int) + 1)
      (x.nearestOn? grid).map fun digits => Scaled.mk digits grid
  let number := found.getD x.exact
  number.dropZeros (Text.natural number.digits).length

end PlanarExpr.Decimal
