namespace PlanarExpr.Geometry

/-!
# Scalars

The real numbers of the library are floating point numbers. Division by zero
gives an infinity or no number, as the arithmetic of floating point numbers
has it, and stops nothing.
-/

/-- Half the circumference of the unit circle. -/
def pi : Float := 3.141592653589793

/-- The circumference of the unit circle. -/
def tau : Float := 6.283185307179586

/-- The base of the natural logarithm. -/
def euler : Float := 2.718281828459045

/-- Distances below this bound are taken for zero. -/
def tolerance : Float := 1e-9

/-- The infinity above all numbers. -/
def infinity : Float := 1.0 / 0.0

/-- The result of an operation that gives no number. -/
def notANumber : Float := 0.0 / 0.0

/-- The quotient of two numbers; a zero divisor gives an infinity or no number. -/
def quotient (x y : Float) : Float :=
  x / y

/-- An angle in degrees, in radians. -/
def radiansOfDegrees (degrees : Float) : Float :=
  degrees * (pi / 180.0)

/-- An angle in radians, in degrees. -/
def degreesOfRadians (radians : Float) : Float :=
  radians * (180.0 / pi)

/-! ## Lengths -/

/-- A number as the sum of two, each with at most half of its binary places. -/
def halves (x : Float) : Float × Float :=
  let shifted := x * 134217729.0
  let upper := shifted - (shifted - x)
  (upper, x - upper)

/--
A sum of squares that started from one, with the parts of its terms that were
lost to rounding: of the squares of upper halves, of the products of two
different halves, and of the squares of lower halves.
-/
structure SquareSum where
  total : Float
  lostUpper : Float
  lostMixed : Float
  lostLower : Float

namespace SquareSum

/-- No square has been added yet. -/
def empty : SquareSum :=
  { total := 1.0, lostUpper := 0.0, lostMixed := 0.0, lostLower := 0.0 }

/-- The part of a term that is lost when it is added to a larger total. -/
def lost (total term : Float) : Float :=
  (total - (total + term)) + term

/-- Adds a square. That of the lower half is too small to reach the total. -/
def add
    (sum : SquareSum)
    (x : Float) :
    SquareSum :=
  let (upper, lower) := halves x
  let square := upper * upper
  let mixed := 2.0 * upper * lower
  let middle := sum.total + square
  {
    total := middle + mixed
    lostUpper := sum.lostUpper + lost sum.total square
    lostMixed := sum.lostMixed + lost middle mixed
    lostLower := sum.lostLower + lower * lower
  }

/-- Takes a square away, with the lower half as well. -/
def subtract
    (sum : SquareSum)
    (x : Float) :
    SquareSum :=
  let (upper, lower) := halves x
  let square := -(upper * upper)
  let mixed := -(2.0 * upper * lower)
  let last := -(lower * lower)
  let middle := sum.total + square
  let late := middle + mixed
  {
    total := late + last
    lostUpper := sum.lostUpper + lost sum.total square
    lostMixed := sum.lostMixed + lost middle mixed
    lostLower := sum.lostLower + lost late last
  }

/-- Adds a square that is rounded before it is added. -/
def addRounded
    (sum : SquareSum)
    (x : Float) :
    SquareSum :=
  let square := x * x
  {
    sum with
    total := sum.total + square
    lostUpper := sum.lostUpper + lost sum.total square
  }

/-- The sum of the squares, with what was lost put back. -/
def value (sum : SquareSum) : Float :=
  sum.total - 1.0 + (sum.lostUpper + sum.lostMixed + sum.lostLower)

/-- The square root of the sum, corrected once by what its own square misses. -/
def root (sum : SquareSum) : Float :=
  let estimate := sum.value.sqrt
  estimate + (sum.subtract estimate).value / (2.0 * estimate)

end SquareSum

/--
The length of the vector with the given components.

Both components are scaled by the same power of two before they are squared,
so no length is lost to overflow or underflow, and the result is almost always
the nearest number. Where that power is out of reach the components are
divided by the longer of them. An infinite component makes the length
infinite, whatever the other one is.
-/
def length (x y : Float) : Float :=
  if x.isInf || y.isInf then
    infinity
  else if x.isNaN || y.isNaN then
    notANumber
  else
    let longest := if x.abs < y.abs then y.abs else x.abs
    if longest == 0.0 then
      0.0
    else
      let exponent := longest.frExp.2
      if exponent < -1023 then
        longest *
          ((SquareSum.empty.addRounded (x / longest)).addRounded (y / longest)).value.sqrt
      else
        let scaledX := x.scaleB (-exponent)
        let scaledY := y.scaleB (-exponent)
        ((SquareSum.empty.add scaledX).add scaledY).root.scaleB exponent

/-- The smaller of two numbers; the first one unless the second is below it. -/
def smaller (x y : Float) : Float :=
  if y < x then y else x

/-- The larger of two numbers; the first one unless the second is above it. -/
def larger (x y : Float) : Float :=
  if x < y then y else x

end PlanarExpr.Geometry
