import PlanarExpr.Value

namespace PlanarExpr

/-!
# The host of an expression

An expression may use names that only its host knows. The host is asked about
ranges of the source. It may answer with any object of its own, with nothing,
or fail to answer. Objects that are no numbers and no geometry objects are
foreign: they stand for no value.
-/

open PlanarExpr.Geometry

/-- Anything that a host may hand over. -/
inductive HostObject where
  | nothing
  | boolean (value : Bool)
  | text (value : String)
  | list (items : List HostObject)
  | scalar (number : Scalar)
  | rotation (turn : Rotation)
  | translation (vector : Translation)
  | pose (place : Pose)
  | value (inner : Value)

namespace HostObject

/-- Whether an object is a number; truth values are none. -/
def isNumber : HostObject → Bool
  | .scalar _ => true
  | _ => false

/-- Whether an object already is a value. -/
def isValue : HostObject → Bool
  | .value _ => true
  | _ => false

mutual

/-- A host object in the way the host writes it. -/
def render : HostObject → String
  | .nothing => "None"
  | .boolean true => "True"
  | .boolean false => "False"
  | .text words => Text.quoted words.toList
  | .list items => "[" ++ renderItems items ++ "]"
  | .scalar number => number.text
  | .rotation turn => turn.text
  | .translation vector => vector.text
  | .pose place => place.text
  | .value inner => inner.text

/-- The items of a list, separated by commas. -/
def renderItems : List HostObject → String
  | [] => ""
  | [item] => item.render
  | item :: second :: rest => item.render ++ ", " ++ renderItems (second :: rest)

end

/-- The value that an object stands for. Only an integer can be too large to have one. -/
def toValue : HostObject → Except Fault Value
  | .nothing => .ok .null
  | .boolean _ => .ok .unresolved
  | .text _ => .ok .unresolved
  | .list _ => .ok .unresolved
  | .scalar number => number.toFloat.map .number
  | .rotation turn => .ok (.rotation turn)
  | .translation vector => .ok (.translation vector)
  | .pose place => .ok (.pose place)
  | .value inner => .ok inner

/-- The number that an object counts as; of the truth values the true one counts as one. -/
def scalar? : HostObject → Option Scalar
  | .boolean truth => some (.integer (if truth then 1 else 0))
  | .scalar number => some number
  | _ => none

mutual

/--
Whether two objects are equal. Geometry objects are compared within the
tolerance, lists item by item, and everything that counts as a number as one.
-/
def near : HostObject → HostObject → Bool
  | .nothing, .nothing => true
  | .text first, .text second => first = second
  | .list first, .list second => nearItems first second
  | .rotation first, .rotation second => first.near second
  | .translation first, .translation second => first.near second
  | .pose first, .pose second => first.near second
  | .value first, .value second => first.near second
  | first, second =>
      match first.scalar?, second.scalar? with
      | some x, some y => x.sameNumber y
      | _, _ => false

/-- Whether two lists are equal item by item. -/
def nearItems : List HostObject → List HostObject → Bool
  | [], [] => true
  | first :: firstRest, second :: secondRest =>
      first.near second && nearItems firstRest secondRest
  | _, _ => false

end

/-- What an object is to the construction of a pose. -/
def poseArgument : HostObject → Pose.Argument
  | .scalar number => .scalar number
  | .rotation turn => .rotation turn
  | .translation vector => .translation vector
  | object => .other object.render

end HostObject

/-- How a host reacts to a question. -/
structure Reply where
  /-- The answer; there is none if the host failed while it looked for one. -/
  answer : Option HostObject
  /-- What was reported while the answer was made. -/
  log : List LogRecord

namespace Reply

/-- The reply of a host that has the answer at hand. -/
def object (answer : HostObject) : Reply :=
  { answer := some answer, log := [] }

/-- The reply of a host that failed. -/
def failure : Reply :=
  { answer := none, log := [] }

end Reply

/-- A host, as a function of the range of the source that it is asked about. -/
abbrev Host := Int → Int → Reply

end PlanarExpr
