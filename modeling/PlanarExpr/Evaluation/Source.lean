import PlanarExpr.Evaluation
import PlanarExpr.Expression.Parser
import PlanarExpr.Token.Lexer

namespace PlanarExpr

/-!
# From text to value

A text is split into tokens, read as an expression and evaluated. A text with
stray characters is not read, and one that is no expression is not evaluated.
-/

/-- What came of a text. -/
structure Result where
  success : Bool
  value : Value
  diagnostics : List Diagnostic
  unresolvedNames : List String
  errorMessage : Option String
deriving DecidableEq

namespace Result

/-- The result of a text that is not evaluated. -/
def rejected
    (diagnostics : List Diagnostic)
    (message : String) :
    Result :=
  {
    success := false
    value := .unresolved
    diagnostics := diagnostics
    unresolvedNames := []
    errorMessage := some message
  }

/-- The result of an evaluation that ended with a value and names without one. -/
def evaluated
    (value : Value)
    (unresolvedNames : List String) :
    Result :=
  {
    success := value.isLive
    value := value
    diagnostics := []
    unresolvedNames := unresolvedNames
    errorMessage :=
      if value.isLive then none else some "could not determine value"
  }

end Result

/-- A result, or the fault that prevented it, with what happened on the way. -/
structure Report where
  outcome : Except Fault Result
  queries : List (Int × Int)
  log : List LogRecord

/-- Reports a text that is not evaluated. -/
def Report.rejected
    (log : List LogRecord)
    (diagnostics : List Diagnostic)
    (message : String) :
    Report :=
  { outcome := .ok (.rejected diagnostics message), queries := [], log := log }

/-- Evaluates an expression in a new session. -/
def Expression.evaluate
    (expression : Expression)
    (surroundings : Surroundings) :
    Report :=
  let (outcome, session) := surroundings.expression expression .empty
  {
    outcome := outcome.map fun value => .evaluated value session.unresolvedNames
    queries := session.queries
    log := session.log
  }

/-- Splits, reads and evaluates a text. -/
def evaluateText
    (text : List Char)
    (host : Option Host) :
    Report :=
  let lexed := Lexed.ofText text
  match lexed.diagnostics with
  | first :: _ =>
      .rejected (lexed.log text) lexed.diagnostics ("Lexer error: " ++ first.message)
  | [] =>
      match lexed.stream.parse (some text) with
      | .error diagnostic =>
          .rejected
            [.debug evaluationOrigin
              ("parse failed for " ++ Text.quoted text ++ ": " ++ diagnostic.message)]
            [diagnostic]
            ("Parser error: " ++ diagnostic.message)
      | .ok expression =>
          expression.evaluate { host := host, source := text }

end PlanarExpr
