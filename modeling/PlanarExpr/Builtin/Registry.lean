import PlanarExpr.Builtin

namespace PlanarExpr.Registry

/-!
# The registry of built-in operations

Evaluation works in a closed world: every construction, static function,
constant and method is listed here. The order of a table is the order in which
overloads are tried and listed.
-/

open PlanarExpr.Geometry

/-- An operation that takes no arguments. -/
def nullary (result : Calculation Value) : List Value → Calculation Value
  | [] => result
  | _ => pure .unresolved

/-- An operation on one number. -/
def onNumber
    (operation : Float → Calculation Value) :
    List Value →
    Calculation Value
  | [.number x] => operation x
  | _ => pure .unresolved

/-- An operation on two numbers. -/
def onNumbers
    (operation : Float → Float → Calculation Value) :
    List Value →
    Calculation Value
  | [.number x, .number y] => operation x y
  | _ => pure .unresolved

/-- A function from numbers to numbers, which cannot fail. -/
def numeric (function : Float → Float) : List Value → Calculation Value :=
  onNumber fun x => pure (.number (function x))

/-- A function from pairs of numbers to numbers, which cannot fail. -/
def numeric₂ (function : Float → Float → Float) : List Value → Calculation Value :=
  onNumbers fun x y => pure (.number (function x y))

/-- The constructors. A pose takes any values and falls back to the identity. -/
def constructors : List Overload :=
  [
    {
      name := "Rotation2d"
      parameters := .kinds []
      summary := "identity rotation"
      run := nullary (pure (.rotation .identity))
    },
    {
      name := "Rotation2d"
      parameters := .kinds [.number]
      summary := "rotation from an angle in radians"
      run := onNumber fun radians => .rotation <$> Rotation.ofRadians radians
    },
    {
      name := "Rotation2d"
      parameters := .kinds [.number, .number]
      summary := "rotation pointing along the vector (x, y)"
      run := onNumbers fun x y => .rotation <$> Rotation.towards x y
    },
    {
      name := "Translation2d"
      parameters := .kinds []
      summary := "the origin"
      run := nullary (pure (.translation .origin))
    },
    {
      name := "Translation2d"
      parameters := .kinds [.number, .number]
      summary := "translation from x and y"
      run := onNumbers fun x y => pure (.translation { x := x, y := y })
    },
    {
      name := "Translation2d"
      parameters := .kinds [.number, .rotation]
      summary := "translation from a distance and an angle"
      run := fun
        | [.number distance, .rotation angle] =>
            pure (.translation (Translation.ofPolar distance angle))
        | _ => pure .unresolved
    }
  ] ++
    [0, 2, 3].map fun count =>
      {
        name := "Pose2d"
        parameters := .any count
        summary := "pose from (), (translation, rotation) or (x, y, rotation)"
        run := fun arguments =>
          .pose <$> Pose.ofArguments (arguments.map Value.poseArgument)
      }

/-- A static function that makes a rotation from a number. -/
def rotationFactory
    (name summary : String)
    (make : Float → Calculation Rotation) :
    Overload :=
  {
    name := "Rotation2d." ++ name
    parameters := .kinds [.number]
    summary := summary
    run := onNumber fun x => .rotation <$> make x
  }

/-- A mathematical function of one number. -/
def mathFunction
    (name summary : String)
    (function : Float → Float) :
    Overload :=
  {
    name := "Math." ++ name
    parameters := .kinds [.number]
    summary := summary
    run := numeric function
  }

/-- A mathematical function of two numbers. -/
def mathFunction₂
    (name summary : String)
    (function : Float → Float → Float) :
    Overload :=
  {
    name := "Math." ++ name
    parameters := .kinds [.number, .number]
    summary := summary
    run := numeric₂ function
  }

/-- The static functions. Outside its domain a mathematical function gives no number. -/
def functions : List Overload :=
  [
    rotationFactory "fromDegrees" "rotation from an angle in degrees" Rotation.ofDegrees,
    rotationFactory "fromRadians" "rotation from an angle in radians" Rotation.ofRadians,
    rotationFactory "fromRotations" "rotation from a number of full turns" Rotation.ofTurns,
    mathFunction "toRadians" "degrees to radians" radiansOfDegrees,
    mathFunction "toDegrees" "radians to degrees" degreesOfRadians,
    mathFunction "sin" "sine" Float.sin,
    mathFunction "cos" "cosine" Float.cos,
    mathFunction "tan" "tangent" Float.tan,
    mathFunction "sqrt" "square root" Float.sqrt,
    mathFunction "abs" "absolute value" Float.abs,
    mathFunction₂ "atan2" "angle of the vector (x, y), called as atan2(y, x)" Float.atan2,
    mathFunction₂ "hypot" "length of the vector (x, y)" length,
    mathFunction₂ "min" "smaller of two numbers" smaller,
    mathFunction₂ "max" "larger of two numbers" larger,
    mathFunction₂ "pow" "first argument raised to the second" Float.pow
  ]

/-- The constants, those of a type under its name. -/
def constants : List (String × Value) :=
  [
    ("PI", .number pi),
    ("TAU", .number tau),
    ("E", .number euler),
    ("Math.PI", .number pi),
    ("Math.E", .number euler),
    ("null", .null),
    ("Rotation2d.kZero", .rotation .identity),
    ("Rotation2d.kPi", .rotation .halfTurn),
    ("Rotation2d.k180deg", .rotation .halfTurn),
    ("Rotation2d.kCW_90deg", .rotation .quarterClockwise),
    ("Rotation2d.kCW_Pi_2", .rotation .quarterClockwise),
    ("Rotation2d.kCCW_90deg", .rotation .quarterCounterclockwise),
    ("Rotation2d.kCCW_Pi_2", .rotation .quarterCounterclockwise),
    ("Translation2d.kZero", .translation .origin),
    ("Pose2d.kZero", .pose .identity)
  ]

/-- A method of rotations, given the operation on the receiver and the arguments. -/
def rotationMethod
    (name : String)
    (kinds : List ValueKind)
    (summary : String)
    (operation : Rotation → List Value → Calculation Value) :
    Method :=
  {
    receiver := .rotation
    overload := {
      name := name
      parameters := .kinds kinds
      summary := summary
      run := fun
        | .rotation receiver :: arguments => operation receiver arguments
        | _ => pure .unresolved
    }
  }

/-- A method of translations, given the operation on the receiver and the arguments. -/
def translationMethod
    (name : String)
    (kinds : List ValueKind)
    (summary : String)
    (operation : Translation → List Value → Calculation Value) :
    Method :=
  {
    receiver := .translation
    overload := {
      name := name
      parameters := .kinds kinds
      summary := summary
      run := fun
        | .translation receiver :: arguments => operation receiver arguments
        | _ => pure .unresolved
    }
  }

/-- A method of poses, given the operation on the receiver and the arguments. -/
def poseMethod
    (name : String)
    (kinds : List ValueKind)
    (summary : String)
    (operation : Pose → List Value → Calculation Value) :
    Method :=
  {
    receiver := .pose
    overload := {
      name := name
      parameters := .kinds kinds
      summary := summary
      run := fun
        | .pose receiver :: arguments => operation receiver arguments
        | _ => pure .unresolved
    }
  }

/-- An operation on one rotation. -/
def onRotation
    (operation : Rotation → Calculation Value) :
    List Value →
    Calculation Value
  | [.rotation rotation] => operation rotation
  | _ => pure .unresolved

/-- An operation on one translation. -/
def onTranslation
    (operation : Translation → Calculation Value) :
    List Value →
    Calculation Value
  | [.translation vector] => operation vector
  | _ => pure .unresolved

/-- An operation on a point and a rotation about it. -/
def onCentre
    (operation : Translation → Rotation → Calculation Value) :
    List Value →
    Calculation Value
  | [.translation point, .rotation turn] => operation point turn
  | _ => pure .unresolved

/-- The methods of rotations. -/
def rotationMethods : List Method :=
  [
    rotationMethod "getDegrees" [] "angle in degrees"
      fun r => nullary (pure (.number r.degrees)),
    rotationMethod "getRadians" [] "angle in radians"
      fun r => nullary (pure (.number r.value)),
    rotationMethod "getRotations" [] "angle in turns"
      fun r => nullary (pure (.number r.turns)),
    rotationMethod "getSin" [] "sine of the angle"
      fun r => nullary (pure (.number r.sin)),
    rotationMethod "getCos" [] "cosine of the angle"
      fun r => nullary (pure (.number r.cos)),
    rotationMethod "getTan" [] "tangent of the angle"
      fun r => nullary (pure (.number r.tangent)),
    rotationMethod "plus" [.rotation] "sum of two rotations"
      fun r => onRotation fun other => .rotation <$> r.plus other,
    rotationMethod "minus" [.rotation] "difference of two rotations"
      fun r => onRotation fun other => .rotation <$> r.minus other,
    rotationMethod "unaryMinus" [] "inverse rotation"
      fun r => nullary (.rotation <$> r.negate),
    rotationMethod "times" [.number] "angle scaled by a number"
      fun r => onNumber fun factor => .rotation <$> r.times factor,
    rotationMethod "div" [.number] "angle divided by a number"
      fun r => onNumber fun divisor => .rotation <$> r.divide divisor,
    rotationMethod "rotateBy" [.rotation] "rotation composed with another"
      fun r => onRotation fun other => .rotation <$> r.rotateBy other
  ]

/-- The methods of translations. -/
def translationMethods : List Method :=
  [
    translationMethod "getX" [] "x component"
      fun t => nullary (pure (.number t.x)),
    translationMethod "getY" [] "y component"
      fun t => nullary (pure (.number t.y)),
    translationMethod "getNorm" [] "length"
      fun t => nullary (pure (.number t.norm)),
    translationMethod "getSquaredNorm" [] "squared length"
      fun t => nullary (pure (.number t.squaredNorm)),
    translationMethod "getAngle" [] "direction as a rotation"
      fun t => nullary (.rotation <$> t.angle),
    translationMethod "getDistance" [.translation] "distance to another translation"
      fun t => onTranslation fun other => pure (.number (t.distance other)),
    translationMethod "getSquaredDistance" [.translation]
      "squared distance to another translation"
      fun t => onTranslation fun other => pure (.number (t.squaredDistance other)),
    translationMethod "dot" [.translation] "dot product"
      fun t => onTranslation fun other => pure (.number (t.dot other)),
    translationMethod "cross" [.translation] "2D cross product"
      fun t => onTranslation fun other => pure (.number (t.cross other)),
    translationMethod "plus" [.translation] "vector sum"
      fun t => onTranslation fun other => pure (.translation (t.plus other)),
    translationMethod "minus" [.translation] "vector difference"
      fun t => onTranslation fun other => pure (.translation (t.minus other)),
    translationMethod "unaryMinus" [] "negated vector"
      fun t => nullary (pure (.translation t.negate)),
    translationMethod "times" [.number] "vector scaled by a number"
      fun t => onNumber fun factor => pure (.translation (t.times factor)),
    translationMethod "div" [.number] "vector divided by a number"
      fun t => onNumber fun divisor => pure (.translation (t.divide divisor)),
    translationMethod "rotateBy" [.rotation] "vector rotated about the origin"
      fun t => onRotation fun turn => pure (.translation (t.rotateBy turn)),
    translationMethod "rotateAround" [.translation, .rotation]
      "vector rotated about a point"
      fun t => onCentre fun point turn =>
        pure (.translation (t.rotateAround point turn))
  ]

/-- The methods of poses. -/
def poseMethods : List Method :=
  [
    poseMethod "getX" [] "x coordinate"
      fun p => nullary (pure (.number p.translation.x)),
    poseMethod "getY" [] "y coordinate"
      fun p => nullary (pure (.number p.translation.y)),
    poseMethod "getTranslation" [] "position"
      fun p => nullary (pure (.translation p.translation)),
    poseMethod "getRotation" [] "heading"
      fun p => nullary (pure (.rotation p.rotation)),
    poseMethod "times" [.number] "pose scaled by a number"
      fun p => onNumber fun factor => .pose <$> p.times factor,
    poseMethod "div" [.number] "pose divided by a number"
      fun p => onNumber fun divisor => .pose <$> p.divide divisor,
    poseMethod "rotateBy" [.rotation] "pose rotated about the origin"
      fun p => onRotation fun turn => .pose <$> p.rotateBy turn,
    poseMethod "rotateAround" [.translation, .rotation] "pose rotated about a point"
      fun p => onCentre fun point turn => .pose <$> p.rotateAround point turn
  ]

/-- All methods, allowed or not. -/
def methods : List Method :=
  rotationMethods ++ translationMethods ++ poseMethods

/-- The names of the methods that may be called. -/
def allowedMethods : List String :=
  [
    "getX", "getY", "getRotation", "getTranslation",
    "getDegrees", "getRadians", "getSin", "getCos", "getTan", "getRotations",
    "getDistance", "getSquaredDistance", "getNorm", "getSquaredNorm", "getAngle",
    "dot", "cross",
    "plus", "minus", "unaryMinus", "times", "div",
    "rotateBy", "rotateAround"
  ]

/-- Whether a method of this name may be called, on a receiver of any kind. -/
def isMethodAllowed (name : String) : Bool :=
  allowedMethods.contains name

/-- The constant with the given name. -/
def constant? (name : String) : Option Value :=
  constants.lookup name

/-- The static function with the given name that takes the arguments. -/
def function?
    (name : String)
    (arguments : List Value) :
    Option Overload :=
  Overload.select? functions name arguments

/-- The constructor of the given type that takes the arguments. -/
def constructor?
    (typeName : String)
    (arguments : List Value) :
    Option Overload :=
  Overload.select? constructors typeName arguments

/-- The overloads of the methods of a kind. -/
def methodsOf (receiver : ValueKind) : List Overload :=
  (methods.filter fun method => method.receiver = receiver).map (·.overload)

/-- The method of a kind with the given name that takes the arguments. -/
def method?
    (receiver : ValueKind)
    (name : String)
    (arguments : List Value) :
    Option Overload :=
  Overload.select? (methodsOf receiver) name arguments

/-- Calls a static function; there is no result if no overload takes the arguments. -/
def callFunction
    (name : String)
    (arguments : List Value) :
    Calculation (Option Value) :=
  match function? name arguments with
  | none => pure none
  | some overload => some <$> overload.run arguments

/-- Constructs an object; there is no result if no overload takes the arguments. -/
def callConstructor
    (typeName : String)
    (arguments : List Value) :
    Calculation (Option Value) :=
  match constructor? typeName arguments with
  | none => pure none
  | some overload => some <$> overload.run arguments

/-- Calls a method; there is no result if it is not allowed or no overload takes the arguments. -/
def callMethod
    (receiver : Value)
    (name : String)
    (arguments : List Value) :
    Calculation (Option Value) :=
  if isMethodAllowed name then
    match method? receiver.kind name arguments with
    | none => pure none
    | some overload => some <$> overload.run (receiver :: arguments)
  else do
    .report
      (.debug "poseval.runtime.builtins"
        ("method " ++ name ++ " is not on the allow-list"))
    return none

end PlanarExpr.Registry
