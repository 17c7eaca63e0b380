import PlanarExpr.Value

namespace PlanarExpr

/-!
# Built-in operations

An overload of a built-in operation says which arguments it takes and computes
a value from them. A declared list of kinds must be met exactly; an overload
without one takes any values of the right number.
-/

/-- Which arguments an overload takes. -/
inductive Parameters where
  | kinds (declared : List ValueKind)
  | any (count : Nat)
deriving DecidableEq

namespace Parameters

/-- How many arguments are taken. -/
def arity : Parameters → Nat
  | .kinds declared => declared.length
  | .any count => count

/-- The declared kinds, if there are any. -/
def kinds? : Parameters → Option (List ValueKind)
  | .kinds declared => some declared
  | .any _ => none

/-- Whether arguments of the given kinds are taken. -/
def accept
    (parameters : Parameters)
    (given : List ValueKind) :
    Bool :=
  match parameters with
  | .kinds declared => given = declared
  | .any count => given.length = count

/--
The parameters as a signature shows them: by their types, or numbered if any
values are taken.
-/
def names : Parameters → List String
  | .kinds declared => declared.map ValueKind.text
  | .any count => (List.range count).map fun (index : Nat) => "arg" ++ Text.integer index

end Parameters

/-- One overload of a built-in operation. -/
structure Overload where
  name : String
  parameters : Parameters
  /-- What the operation gives, in a few words. -/
  summary : String
  /-- Computes the value; a method finds its receiver in front of the arguments. -/
  run : List Value → Calculation Value

namespace Overload

/-- The number of arguments, the receiver of a method not counted. -/
def arity (overload : Overload) : Nat :=
  overload.parameters.arity

/-- Whether an overload takes the given arguments. -/
def accepts
    (overload : Overload)
    (arguments : List Value) :
    Bool :=
  overload.parameters.accept (arguments.map Value.kind)

/-- The name with the parameters. -/
def signature (overload : Overload) : String :=
  overload.name ++ "(" ++ String.intercalate ", " overload.parameters.names ++ ")"

/-- The first overload of a table that has the name and takes the arguments. -/
def select?
    (table : List Overload)
    (name : String)
    (arguments : List Value) :
    Option Overload :=
  table.find? fun overload => overload.name == name && overload.accepts arguments

end Overload

/-- An overload that is called on a receiver of some kind. -/
structure Method where
  receiver : ValueKind
  overload : Overload

end PlanarExpr
