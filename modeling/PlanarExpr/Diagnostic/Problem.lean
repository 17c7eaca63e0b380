import PlanarExpr.Diagnostic

namespace PlanarExpr

/-!
# What can be wrong with an expression

Each kind of problem has a code and a wording of its own. Codes that start
with E0 belong to the splitting into tokens, codes that start with E1 to the
grammar.
-/

/-- The stage at which a problem is noticed. -/
inductive Stage where
  | lexing
  | parsing
deriving DecidableEq

/-- A problem with the text of an expression. -/
inductive Problem where
  /-- A character that starts no token. -/
  | unexpectedCharacter (character : String)
  /-- A token that the grammar does not allow at its place. -/
  | unexpectedToken (expected found : String)
  /-- The input ends where the grammar needs more. -/
  | unexpectedEnd (expected : String)
  /-- There is no expression at all. -/
  | invalidExpression
  /-- Input behind a complete expression. -/
  | trailingInput (found : String)
  /-- Signs, groups and argument lists inside one another beyond the limit. -/
  | nestingTooDeep (limit : Int)
deriving DecidableEq

namespace Problem

/-- The stage that finds a problem. -/
def stage : Problem → Stage
  | .unexpectedCharacter _ => .lexing
  | _ => .parsing

/-- The code that a problem is known by. -/
def code : Problem → String
  | .unexpectedCharacter _ => "E001"
  | .unexpectedToken _ _ => "E101"
  | .unexpectedEnd _ => "E102"
  | .invalidExpression => "E103"
  | .trailingInput _ => "E104"
  | .nestingTooDeep _ => "E105"

/-- What is said about a problem. -/
def message : Problem → String
  | .unexpectedCharacter character =>
      "unexpected character '" ++ character ++ "'"
  | .unexpectedToken expected found =>
      "expected " ++ expected ++ ", found " ++ found
  | .unexpectedEnd expected =>
      "unexpected end of input, expected " ++ expected
  | .invalidExpression => "invalid expression"
  | .trailingInput found =>
      "unexpected " ++ found ++ " after end of expression"
  | .nestingTooDeep limit =>
      "expression is nested more than " ++ Text.integer limit ++ " levels deep"

/-- What helps with a problem. -/
def hints : Problem → List String
  | .trailingInput _ => ["only a single expression can be evaluated"]
  | _ => []

/-- The error that reports a problem at its place. -/
def diagnostic
    (problem : Problem)
    (span : Source.Span)
    (sourceLine : Option String) :
    Diagnostic :=
  {
    code := problem.code
    message := problem.message
    severity := .error
    span := span
    sourceLine := sourceLine
    hints := problem.hints
  }

end Problem

end PlanarExpr
