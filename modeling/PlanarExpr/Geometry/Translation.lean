import PlanarExpr.Geometry.Rotation

namespace PlanarExpr.Geometry

/-!
# Translations

A translation is a vector of the plane.
-/

/-- A vector in the plane. -/
structure Translation where
  x : Float
  y : Float
deriving DecidableEq

namespace Translation

/-- The translation that moves nothing. -/
def origin : Translation :=
  { x := 0.0, y := 0.0 }

/-- The vector with the given length and direction. -/
def ofPolar
    (distance : Float)
    (angle : Rotation) :
    Translation :=
  { x := distance * angle.cos, y := distance * angle.sin }

/-- The length of a translation. -/
def norm (vector : Translation) : Float :=
  length vector.x vector.y

/-- The square of the length, without a root taken. -/
def squaredNorm (vector : Translation) : Float :=
  vector.x * vector.x + vector.y * vector.y

/-- The rotation that turns the first axis towards a translation. -/
def angle (vector : Translation) : Calculation Rotation :=
  Rotation.towards vector.x vector.y

/-- The distance between two translations, taken as points. -/
def distance (vector other : Translation) : Float :=
  length (other.x - vector.x) (other.y - vector.y)

/-- The square of the distance, without a root taken. -/
def squaredDistance (vector other : Translation) : Float :=
  let dx := other.x - vector.x
  let dy := other.y - vector.y
  dx * dx + dy * dy

/-- The scalar product of two translations. -/
def dot (vector other : Translation) : Float :=
  vector.x * other.x + vector.y * other.y

/-- The third component of the cross product of two vectors of the plane. -/
def cross (vector other : Translation) : Float :=
  vector.x * other.y - vector.y * other.x

/-- One translation after another. -/
def plus (vector other : Translation) : Translation :=
  { x := vector.x + other.x, y := vector.y + other.y }

/-- The translation that leads from the second point to the first. -/
def minus (vector other : Translation) : Translation :=
  { x := vector.x - other.x, y := vector.y - other.y }

/-- The translation the other way. -/
def negate (vector : Translation) : Translation :=
  { x := -vector.x, y := -vector.y }

/-- Multiplies both components. -/
def times
    (vector : Translation)
    (factor : Float) :
    Translation :=
  { x := vector.x * factor, y := vector.y * factor }

/-- Divides both components; a zero divisor gives infinities or no numbers. -/
def divide
    (vector : Translation)
    (divisor : Float) :
    Translation :=
  { x := quotient vector.x divisor, y := quotient vector.y divisor }

/-- Turns a translation about the origin. -/
def rotateBy
    (vector : Translation)
    (rotation : Rotation) :
    Translation :=
  {
    x := vector.x * rotation.cos - vector.y * rotation.sin
    y := vector.x * rotation.sin + vector.y * rotation.cos
  }

/-- Turns a translation about a point. -/
def rotateAround
    (vector point : Translation)
    (rotation : Rotation) :
    Translation :=
  let dx := vector.x - point.x
  let dy := vector.y - point.y
  {
    x := dx * rotation.cos - dy * rotation.sin + point.x
    y := dx * rotation.sin + dy * rotation.cos + point.y
  }

/-- Whether two vectors are equal, within the tolerance. -/
def near (vector other : Translation) : Bool :=
  (vector.x - other.x).abs < tolerance && (vector.y - other.y).abs < tolerance

/-- A translation in words, rounded to two decimals. -/
def text (vector : Translation) : String :=
  "Translation2d(X: " ++ Decimal.fixed 2 vector.x ++
    ", Y: " ++ Decimal.fixed 2 vector.y ++ ")"

end Translation

end PlanarExpr.Geometry
