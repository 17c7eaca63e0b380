import PlanarExpr.Decimal.Literal
import PlanarExpr.Geometry.Translation

namespace PlanarExpr.Geometry

/-!
# Poses

A pose is a place in the plane together with a heading. It is built from loose
arguments by their shape: nothing, a place and a heading, or two coordinates
and a heading. Any other arguments are reported and give the identity pose.
-/

/-- A position and a heading. -/
structure Pose where
  translation : Translation
  rotation : Rotation
deriving DecidableEq

/-- A number that has not been turned into a floating point number yet. -/
inductive Scalar where
  | real (x : Float)
  | integer (n : Int)
deriving DecidableEq

namespace Scalar

/-- The floating point number nearest to a scalar; an integer may be too large to have one. -/
def toFloat : Scalar → Except Fault Float
  | .real x => .ok x
  | .integer n =>
      match Decimal.ofInt? n with
      | some x => .ok x
      | none => .error .integerTooLarge

/--
Whether two scalars are the same number, compared exactly. The two zeros are
the same, and a value that is no number is not even the same as itself.
-/
def sameNumber : Scalar → Scalar → Bool
  | .real x, .real y => x == y
  | .real x, .integer n => Decimal.toInt? x = some n
  | .integer n, .real x => Decimal.toInt? x = some n
  | .integer m, .integer n => m = n

/-- A scalar in words; a floating point number in the fewest digits that tell it apart. -/
def text : Scalar → String
  | .real x => Decimal.shortest x
  | .integer n => Text.integer n

end Scalar

namespace Pose

/-- The pose at the origin that looks along the first axis. -/
def identity : Pose :=
  { translation := .origin, rotation := .identity }

/-- Multiplies the coordinates and the angle of a pose. -/
def times
    (pose : Pose)
    (factor : Float) :
    Calculation Pose := do
  let rotation ← pose.rotation.times factor
  return { translation := pose.translation.times factor, rotation := rotation }

/-- Divides a pose, as the product with the reciprocal of the divisor. -/
def divide
    (pose : Pose)
    (divisor : Float) :
    Calculation Pose :=
  pose.times (quotient 1.0 divisor)

/-- Turns a pose about the origin, its heading with it. -/
def rotateBy
    (pose : Pose)
    (turn : Rotation) :
    Calculation Pose := do
  let rotation ← pose.rotation.rotateBy turn
  return { translation := pose.translation.rotateBy turn, rotation := rotation }

/-- Turns a pose about a point, its heading with it. -/
def rotateAround
    (pose : Pose)
    (point : Translation)
    (turn : Rotation) :
    Calculation Pose := do
  let rotation ← pose.rotation.rotateBy turn
  return {
    translation := pose.translation.rotateAround point turn
    rotation := rotation
  }

/-- Whether two poses are equal, within the tolerance. -/
def near (pose other : Pose) : Bool :=
  pose.translation.near other.translation && pose.rotation.near other.rotation

/-- A pose in words, rounded to two decimals. -/
def text (pose : Pose) : String :=
  "Pose2d(" ++ pose.translation.text ++ ", " ++ pose.rotation.text ++ ")"

/-- What a pose may be asked to be built from. -/
inductive Argument where
  | scalar (number : Scalar)
  | translation (vector : Translation)
  | rotation (heading : Rotation)
  /-- Anything that no pose is built from, in words. -/
  | other (text : String)

/-- An argument in words. -/
def Argument.text : Argument → String
  | .scalar number => number.text
  | .translation vector => vector.text
  | .rotation heading => heading.text
  | .other words => words

/-- Arguments in words; a single one is followed by a comma. -/
def argumentsText (arguments : List Argument) : String :=
  match arguments with
  | [single] => "(" ++ single.text ++ ",)"
  | _ => "(" ++ String.intercalate ", " (arguments.map Argument.text) ++ ")"

/-- The pose that the shape of the arguments describes. -/
def ofArguments (arguments : List Argument) : Calculation Pose :=
  match arguments with
  | [] => pure identity
  | [.translation vector, .rotation rotation] =>
      pure { translation := vector, rotation := rotation }
  | [.scalar first, .scalar second, .rotation rotation] => do
      let x ← Calculation.ofExcept first.toFloat
      let y ← Calculation.ofExcept second.toFloat
      return { translation := { x := x, y := y }, rotation := rotation }
  | _ => do
      .report
        (.warning logOrigin
          ("invalid Pose2d arguments " ++ argumentsText arguments ++
            "; using identity pose"))
      return identity

end Pose

end PlanarExpr.Geometry
