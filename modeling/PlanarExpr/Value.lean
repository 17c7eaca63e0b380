import PlanarExpr.Geometry.Pose
import PlanarExpr.Text.Written

namespace PlanarExpr

/-!
# Values

A value is a number or a geometry object, or it stands for the lack of one: a
dotted name that waits for the rest of its chain, an undetermined value that
absorbs every later operation, or the null literal.
-/

open PlanarExpr.Geometry

/-- What sort of value something is. -/
inductive ValueKind where
  | number
  | rotation
  | translation
  | pose
  | pending
  | unresolved
  | null
deriving DecidableEq

namespace ValueKind

/-- The name of a kind of values. -/
def text : ValueKind → String
  | .number => "number"
  | .rotation => "Rotation2d"
  | .translation => "Translation2d"
  | .pose => "Pose2d"
  | .pending => "pending"
  | .unresolved => "unresolved"
  | .null => "null"

/-- The label of a kind of values. -/
def label : ValueKind → String
  | .number => "NUMBER"
  | .rotation => "ROTATION"
  | .translation => "TRANSLATION"
  | .pose => "POSE"
  | .pending => "PENDING"
  | .unresolved => "UNRESOLVED"
  | .null => "NULL"

/-- All kinds of values. -/
def all : List ValueKind :=
  [.number, .rotation, .translation, .pose, .pending, .unresolved, .null]

/-- The kind with the given name. -/
def ofText? (name : String) : Option ValueKind :=
  all.find? (·.text == name)

end ValueKind

/-- A dotted name that has no value yet, and the offset at which it starts. -/
structure PendingName where
  name : String
  start : Int
deriving DecidableEq

namespace PendingName

/-- The name with one segment more. -/
def extend
    (pending : PendingName)
    (member : String) :
    PendingName :=
  { pending with name := pending.name ++ "." ++ member }

/-- A pending name in words, with the offset it starts at. -/
def text (pending : PendingName) : String :=
  "PendingName(name=" ++ Text.quoted pending.name.toList ++
    ", start=" ++ Text.integer pending.start ++ ")"

end PendingName

/-- What an expression may stand for. -/
inductive Value where
  | number (x : Float)
  | rotation (turn : Rotation)
  | translation (vector : Translation)
  | pose (place : Pose)
  | pending (name : PendingName)
  | unresolved
  | null
deriving DecidableEq

namespace Value

/-- The kind of a value. -/
def kind : Value → ValueKind
  | .number _ => .number
  | .rotation _ => .rotation
  | .translation _ => .translation
  | .pose _ => .pose
  | .pending _ => .pending
  | .unresolved => .unresolved
  | .null => .null

/-- Whether a value is a number or a geometry object. -/
def isLive : Value → Bool
  | .number _ => true
  | .rotation _ => true
  | .translation _ => true
  | .pose _ => true
  | .pending _ => false
  | .unresolved => false
  | .null => false

/-- Whether a value is a number. -/
def isNumber : Value → Bool
  | .number _ => true
  | _ => false

/--
Whether two values are equal: numbers as floating point arithmetic has it,
geometry objects within the tolerance, and all others by what they say. Values
of different kinds are not equal.
-/
def near : Value → Value → Bool
  | .number x, .number y => x == y
  | .rotation first, .rotation second => first.near second
  | .translation first, .translation second => first.near second
  | .pose first, .pose second => first.near second
  | .pending first, .pending second => first = second
  | .unresolved, .unresolved => true
  | .null, .null => true
  | _, _ => false

/-- What a value holds, in words. -/
def contentText : Value → String
  | .number x => Decimal.shortest x
  | .rotation turn => turn.text
  | .translation vector => vector.text
  | .pose place => place.text
  | .pending name => name.text
  | .unresolved => "None"
  | .null => "None"

/-- A value in words, with the label of its kind. -/
def text (value : Value) : String :=
  "Value(" ++ value.contentText ++ ", " ++ value.kind.label ++ ")"

/-- What a value is to the construction of a pose. -/
def poseArgument : Value → Pose.Argument
  | .number x => .scalar (.real x)
  | .rotation turn => .rotation turn
  | .translation vector => .translation vector
  | value => .other value.contentText

/-- The field of a live value with the given name. -/
def field? : Value → String → Option Value
  | .rotation turn, "value" => some (.number turn.value)
  | .rotation turn, "cos" => some (.number turn.cos)
  | .rotation turn, "sin" => some (.number turn.sin)
  | .translation vector, "x" => some (.number vector.x)
  | .translation vector, "y" => some (.number vector.y)
  | .pose place, "translation" => some (.translation place.translation)
  | .pose place, "rotation" => some (.rotation place.rotation)
  | _, _ => none

/-- A value is live exactly if its kind is one of the four that hold something. -/
theorem isLive_iff (value : Value) :
    value.isLive = true ↔
      value.kind ∈
        [ValueKind.number, .rotation, .translation, .pose] := by
  cases value <;> simp [isLive, kind]

end Value

end PlanarExpr
