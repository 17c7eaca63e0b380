import PlanarExpr.Builtin.Registry
import PlanarExpr.Evaluation.Session
import PlanarExpr.Expression.Node

namespace PlanarExpr

/-!
# Evaluating an expression

Evaluation goes through the tree from left to right. Only numbers are added,
multiplied and signed; only live values are passed to an operation. Where that
fails the value is unresolved, and what stands further right in the same
chain or argument list is not looked at.

A name is a constant, or the host is asked about it, or it waits for the rest
of its chain. In a chain, a waiting name grows by each member until the host
or a constant gives it a value. A name that waits at the end of its chain is
noted in the session.
-/

open PlanarExpr.Geometry

/-- The name under which the evaluation reports. -/
def evaluationOrigin : String := "poseval.runtime.interpreter"

/-- A sum or a difference. -/
def Sign.combine
    (sign : Sign)
    (x y : Float) :
    Float :=
  match sign with
  | .plus => x + y
  | .minus => x - y

/-- A product or a quotient. -/
def Scaling.combine
    (scaling : Scaling)
    (x y : Float) :
    Float :=
  match scaling with
  | .times => x * y
  | .over => quotient x y

/-- A number behind a sign. -/
def Sign.apply
    (sign : Sign)
    (x : Float) :
    Float :=
  match sign with
  | .plus => x
  | .minus => -x

/-- An operation with the number of its arguments. -/
def withArity
    (name : String)
    (arguments : List Value) :
    String :=
  name ++ "/" ++ Text.integer arguments.length

/-- Runs a built-in operation; a fault or the lack of an overload gives no value. -/
def guarded
    (what : String)
    (call : Calculation (Option Value)) :
    Evaluation Value := do
  match ← Evaluation.calculate call with
  | .error fault =>
      .report (.debug evaluationOrigin (what ++ " failed: " ++ fault.message))
      return .unresolved
  | .ok none =>
      .report (.debug evaluationOrigin ("no builtin matches " ++ what))
      return .unresolved
  | .ok (some value) => return value

/-- Calls an operation if all its arguments have a value. -/
def callWith
    (arguments : Option (List Value))
    (name : String)
    (call : List Value → Calculation (Option Value)) :
    Evaluation Value :=
  match arguments with
  | none => pure .unresolved
  | some values => guarded (withArity name values) (call values)

namespace Surroundings

/-- The value of a name that stands on its own. -/
def nameValue
    (surroundings : Surroundings)
    (name : String)
    (span : Source.Span) :
    Evaluation Value :=
  match Registry.constant? name with
  | some value => pure value
  | none => do
      match ← surroundings.ask span.start.offset span.stop.offset with
      | some value => return value
      | none => return .pending { name := name, start := span.start.offset }

/-- The value of a waiting name that has grown by a member. -/
def qualifiedValue
    (surroundings : Surroundings)
    (qualified : PendingName)
    (memberSpan : Source.Span) :
    Evaluation Value := do
  match ← surroundings.ask qualified.start memberSpan.stop.offset with
  | some value => return value
  | none =>
      match Registry.constant? qualified.name with
      | some value => return value
      | none => return .pending qualified

/-- A field of a live value. -/
def fieldValue
    (receiver : Value)
    (member : String) :
    Evaluation Value :=
  match receiver.field? member with
  | some value => pure value
  | none => do
      .report
        (.debug evaluationOrigin
          (receiver.kind.text ++ " has no field " ++ member))
      return .unresolved

/-- Notes a name that waits in vain and gives the value on. -/
def noteWaiting (value : Value) : Evaluation Value :=
  match value with
  | .pending waiting => do
      .modify fun session => session.noteUnresolved waiting.name
      return value
  | _ => pure value

mutual

/-- The value of an addition, from left to right. -/
def addition
    (surroundings : Surroundings) :
    Addition →
    Evaluation Value
  | .mk _ first later => do
      let value ← multiplication surroundings first
      laterTerms surroundings value later

/-- Adds the later terms of an addition to the value of the earlier ones. -/
def laterTerms
    (surroundings : Surroundings)
    (left : Value) :
    List (Sign × Multiplication) →
    Evaluation Value
  | [] => pure left
  | (sign, term) :: rest => do
      let right ← multiplication surroundings term
      match left, right with
      | .number x, .number y =>
          laterTerms surroundings (.number (sign.combine x y)) rest
      | _, _ => return .unresolved

/-- The value of a multiplication, from left to right. -/
def multiplication
    (surroundings : Surroundings) :
    Multiplication →
    Evaluation Value
  | .mk _ first later => do
      let value ← unary surroundings first
      laterFactors surroundings value later

/-- Applies the later factors of a multiplication to the value of the earlier ones. -/
def laterFactors
    (surroundings : Surroundings)
    (left : Value) :
    List (Scaling × Unary) →
    Evaluation Value
  | [] => pure left
  | (scaling, factor) :: rest => do
      let right ← unary surroundings factor
      match left, right with
      | .number x, .number y =>
          laterFactors surroundings (.number (scaling.combine x y)) rest
      | _, _ => return .unresolved

/-- The value of a unary expression; only a number can have a sign. -/
def unary
    (surroundings : Surroundings) :
    Unary →
    Evaluation Value
  | .signed _ sign operand => do
      let value ← unary surroundings operand
      match value with
      | .number x => return .number (sign.apply x)
      | _ => return .unresolved
  | .primary operand => primary surroundings operand

/-- The value of a primary. If it waits for a name, that name is noted. -/
def primary
    (surroundings : Surroundings) :
    Primary →
    Evaluation Value
  | .mk _ start chain => do
      let first ← atom surroundings start
      let value ← links surroundings first chain
      noteWaiting value

/-- The value that a chain starts from. -/
def atom
    (surroundings : Surroundings) :
    Atom →
    Evaluation Value
  | .number _ value => pure (.number value)
  | .name span name => surroundings.nameValue name span
  | .call _ name _ items => do
      let values ← arguments surroundings items
      callWith values name (Registry.callFunction name)
  | .group _ inner => addition surroundings inner
  | .construction _ path items => do
      let values ← arguments surroundings items
      callWith values ("new " ++ path.text) (Registry.callConstructor path.text)

/-- The values of arguments; none if one of them has no value. -/
def arguments
    (surroundings : Surroundings) :
    List Addition →
    Evaluation (Option (List Value))
  | [] => pure (some [])
  | first :: rest => do
      let value ← addition surroundings first
      if value.isLive then
        let later ← arguments surroundings rest
        return later.map (value :: ·)
      else
        return none

/-- The value that a chain of links reaches from a value. -/
def links
    (surroundings : Surroundings)
    (value : Value) :
    List Link →
    Evaluation Value
  | [] => pure value
  | first :: rest =>
      match value with
      | .unresolved => pure .unresolved
      | .null => pure .unresolved
      | .pending waiting => do
          let next ← waitingLink surroundings waiting first
          links surroundings next rest
      | receiver => do
          let next ← liveLink surroundings receiver first
          links surroundings next rest

/-- The value that a link gives a waiting name. -/
def waitingLink
    (surroundings : Surroundings)
    (waiting : PendingName) :
    Link →
    Evaluation Value
  | .field _ member memberSpan =>
      surroundings.qualifiedValue (waiting.extend member) memberSpan
  | .call _ member _ items => do
      let values ← arguments surroundings items
      let name := (waiting.extend member).name
      callWith values name (Registry.callFunction name)

/-- The value that a link reaches from a live value. -/
def liveLink
    (surroundings : Surroundings)
    (receiver : Value) :
    Link →
    Evaluation Value
  | .field _ member _ => fieldValue receiver member
  | .call _ member _ items => do
      let values ← arguments surroundings items
      callWith values (receiver.kind.text ++ "." ++ member)
        (Registry.callMethod receiver member)

end

/-- The value of an expression. -/
def expression
    (surroundings : Surroundings)
    (whole : Expression) :
    Evaluation Value :=
  surroundings.addition whole.root

/-- The value of a node on its own. A link is only part of an expression and has none. -/
def node
    (surroundings : Surroundings) :
    Node →
    Except String (Evaluation Value)
  | .expression whole => .ok (surroundings.expression whole)
  | .addition part => .ok (surroundings.addition part)
  | .multiplication part => .ok (surroundings.multiplication part)
  | .signed span sign operand =>
      .ok (surroundings.unary (.signed span sign operand))
  | .primary part => .ok (surroundings.primary part)
  | .atom part => .ok (surroundings.atom part)
  | .link part => .error ("Unknown node type: " ++ (Node.link part).label)

end Surroundings

end PlanarExpr
