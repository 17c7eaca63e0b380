import PlanarExpr.Host
import PlanarExpr.Json

namespace PlanarExpr

/-!
# Presenting results

A result is shown in words or as JSON with its type. A number that is integral
is shown in words without a point; geometry objects are shown in words with
two places, and in JSON with everything they hold.
-/

open PlanarExpr.Geometry

namespace Presentation

/-- A result with the name of its type. -/
def typed
    (typeName : String)
    (content : Json) :
    Json :=
  .object [("kind", .text typeName), ("value", content)]

/-- The angle of a rotation in both units. -/
def anglesJson (turn : Rotation) : Json :=
  .object [("radians", .number turn.value), ("degrees", .number turn.degrees)]

/-- A rotation as a typed JSON value. -/
def rotationJson (turn : Rotation) : Json :=
  typed "Rotation2d" (anglesJson turn)

/-- A translation as a typed JSON value. -/
def translationJson (vector : Translation) : Json :=
  typed "Translation2d" (.object [("x", .number vector.x), ("y", .number vector.y)])

/-- A pose as a typed JSON value, its heading with it. -/
def poseJson (place : Pose) : Json :=
  typed "Pose2d"
    (.object [
      ("x", .number place.translation.x),
      ("y", .number place.translation.y),
      ("rotation", anglesJson place.rotation)
    ])

/-- Anything else, under the type of numbers. -/
def plainJson (content : Json) : Json :=
  typed "number" content

end Presentation

namespace Value

/-- The result that a value stands for; only live values have one. -/
def result : Value → HostObject
  | .number x => .scalar (.real x)
  | .rotation turn => .rotation turn
  | .translation vector => .translation vector
  | .pose place => .pose place
  | .pending _ => .nothing
  | .unresolved => .nothing
  | .null => .nothing

/-- A value as JSON; one that is pending or unresolved is shown as null. -/
def presentationJson : Value → Json
  | .number x => Presentation.plainJson (.number x)
  | .rotation turn => Presentation.rotationJson turn
  | .translation vector => Presentation.translationJson vector
  | .pose place => Presentation.poseJson place
  | .pending _ => Presentation.plainJson .null
  | .unresolved => Presentation.plainJson .null
  | .null => Presentation.plainJson .null

end Value

namespace HostObject

/-- A host object in words, its floating point numbers in a short form. -/
def presentationText : HostObject → String
  | .scalar (.real x) => Decimal.concise x
  | object => object.render

/-- What is said about an object that JSON has no form for. -/
def notWritable (typeName : String) : String :=
  "Object of type " ++ typeName ++ " is not JSON serializable"

mutual

/-- An object as JSON without a type; objects of geometry have no such form. -/
def plainJson : HostObject → Except String Json
  | .nothing => .ok .null
  | .boolean truth => .ok (.boolean truth)
  | .text words => .ok (.text words)
  | .list items => (plainItems items).map .array
  | .scalar (.real x) => .ok (.number x)
  | .scalar (.integer n) => .ok (.integer n)
  | .rotation _ => .error (notWritable "Rotation2d")
  | .translation _ => .error (notWritable "Translation2d")
  | .pose _ => .error (notWritable "Pose2d")
  | .value _ => .error (notWritable "Value")

/-- Objects as JSON without a type. -/
def plainItems : List HostObject → Except String (List Json)
  | [] => .ok []
  | item :: rest => do
      let first ← plainJson item
      let later ← plainItems rest
      return first :: later

end

/-- A host object as JSON, if it has such a form. -/
def presentationJson : HostObject → Except String Json
  | .rotation turn => .ok (Presentation.rotationJson turn)
  | .translation vector => .ok (Presentation.translationJson vector)
  | .pose place => .ok (Presentation.poseJson place)
  | object => object.plainJson.map Presentation.plainJson

end HostObject

/-- A value and its result are presented alike. -/
theorem Value.presentationJson_result (value : Value) :
    value.result.presentationJson = .ok value.presentationJson := by
  cases value <;>
    simp [result, presentationJson, HostObject.presentationJson, HostObject.plainJson,
      Except.map]

end PlanarExpr
