import PlanarExpr.Calculation
import PlanarExpr.Decimal.Layout
import PlanarExpr.Geometry.Scalar

namespace PlanarExpr.Geometry

/-!
# Rotations

A rotation keeps its angle in radians next to the cosine and sine of that
angle. Rotations are composed with the addition formulas on cosine and sine
and never by adding angles, so a composed angle always lies within half a
turn of zero.
-/

/-- A rotation in the plane. -/
structure Rotation where
  /-- The angle in radians. -/
  value : Float
  cos : Float
  sin : Float
deriving DecidableEq

/-- The name under which the geometry reports. -/
def logOrigin : String := "poseval.geometry"

namespace Rotation

/-- The rotation by an angle that is known not to be infinite. -/
def ofFiniteRadians (radians : Float) : Rotation :=
  { value := radians, cos := radians.cos, sin := radians.sin }

/-- The rotation by an angle in radians; an infinite angle has no sine and cosine. -/
def ofRadians (radians : Float) : Calculation Rotation :=
  if radians.isInf then
    .fail .infiniteAngle
  else
    pure (ofFiniteRadians radians)

/-- The rotation by an angle in degrees. -/
def ofDegrees (degrees : Float) : Calculation Rotation :=
  ofRadians (radiansOfDegrees degrees)

/-- The rotation by a number of full turns. -/
def ofTurns (turns : Float) : Calculation Rotation :=
  ofRadians (turns * tau)

/-- The rotation with the given cosine and sine. -/
def ofParts (cos sin : Float) : Rotation :=
  { value := Float.atan2 sin cos, cos := cos, sin := sin }

/-- The rotation that turns the first axis towards a vector; a zero vector gives no turn. -/
def towards (x y : Float) : Calculation Rotation :=
  let magnitude := length x y
  if tolerance < magnitude then
    pure (ofParts (x / magnitude) (y / magnitude))
  else do
    .report
      (.warning logOrigin
        "x and y components of Rotation2d are zero; using identity rotation")
    return ofParts 1.0 0.0

/-- The rotation that turns nothing. -/
def identity : Rotation :=
  ofFiniteRadians 0.0

/-- The rotation by half a turn, counterclockwise. -/
def halfTurn : Rotation :=
  ofFiniteRadians pi

/-- The rotation by a quarter of a turn, clockwise. -/
def quarterClockwise : Rotation :=
  ofFiniteRadians (-pi / 2.0)

/-- The rotation by a quarter of a turn, counterclockwise. -/
def quarterCounterclockwise : Rotation :=
  ofFiniteRadians (pi / 2.0)

/-- The angle in degrees. -/
def degrees (rotation : Rotation) : Float :=
  degreesOfRadians rotation.value

/-- The angle in full turns. -/
def turns (rotation : Rotation) : Float :=
  rotation.value / tau

/-- The tangent of the angle, as the quotient of its sine and cosine. -/
def tangent (rotation : Rotation) : Float :=
  quotient rotation.sin rotation.cos

/-- One rotation after another, by the addition formulas on cosine and sine. -/
def rotateBy
    (rotation other : Rotation) :
    Calculation Rotation :=
  towards
    (rotation.cos * other.cos - rotation.sin * other.sin)
    (rotation.cos * other.sin + rotation.sin * other.cos)

/-- The rotation by the opposite angle. -/
def negate (rotation : Rotation) : Calculation Rotation :=
  ofRadians (-rotation.value)

/-- The sum of two rotations is one after the other. -/
def plus
    (rotation other : Rotation) :
    Calculation Rotation :=
  rotation.rotateBy other

/-- The difference of two rotations is the first one after the second one undone. -/
def minus
    (rotation other : Rotation) :
    Calculation Rotation := do
  let back ← other.negate
  rotation.rotateBy back

/-- The rotation by a multiple of the angle. -/
def times
    (rotation : Rotation)
    (factor : Float) :
    Calculation Rotation :=
  ofRadians (rotation.value * factor)

/-- Divides a rotation, as the product with the reciprocal of the divisor. -/
def divide
    (rotation : Rotation)
    (divisor : Float) :
    Calculation Rotation :=
  rotation.times (quotient 1.0 divisor)

/-- Whether two rotations point the same way, within the tolerance. -/
def near (rotation other : Rotation) : Bool :=
  length (rotation.cos - other.cos) (rotation.sin - other.sin) < tolerance

/-- A rotation in words, rounded to two decimals. -/
def text (rotation : Rotation) : String :=
  "Rotation2d(Rads: " ++ Decimal.fixed 2 rotation.value ++
    ", Deg: " ++ Decimal.fixed 2 rotation.degrees ++ ")"

end Rotation

end PlanarExpr.Geometry
