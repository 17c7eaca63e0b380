import PlanarExpr.CommandLine.Arguments
import PlanarExpr.CommandLine.Help
import PlanarExpr.Evaluation.Source
import PlanarExpr.Presentation
import PlanarExpr.Settings

namespace PlanarExpr.CommandLine

/-!
# The command line

The words among the arguments make up one expression. Its value is printed, or
what is wrong with it is said on the error channel, behind the log records
that are urgent enough. On request results and failures are printed as JSON.
-/

/-- What the program leaves behind. -/
structure Outcome where
  exitCode : Nat
  output : String
  errors : String
deriving DecidableEq

namespace Outcome

/-- A success that shows the given lines. -/
def printing (lines : List String) : Outcome :=
  { exitCode := 0, output := ofLines lines, errors := "" }

/-- A failure that is shown as JSON where a result would be. -/
def failingJson (content : Json) : Outcome :=
  { exitCode := 1, output := ofLines [content.indented], errors := "" }

/-- A failure that is told in lines for the user. -/
def failing
    (exitCode : Nat)
    (lines : List String) :
    Outcome :=
  { exitCode := exitCode, output := "", errors := ofLines lines }

/-- An outcome with log records in front of what is said on the error channel. -/
def withLog
    (log : List LogRecord)
    (outcome : Outcome) :
    Outcome :=
  { outcome with errors := ofLines (log.map LogRecord.text) ++ outcome.errors }

end Outcome

/-- What tools are told about an evaluation without a value. -/
def failureJson (result : Result) : Json :=
  .object [
    ("error", (result.errorMessage.map Json.text).getD .null),
    ("diagnostics", .array (result.diagnostics.map Diagnostic.toJson)),
    ("unresolved", .texts result.unresolvedNames)
  ]

/-- What the user is told about an evaluation without a value. -/
def failureLines (result : Result) : List String :=
  if result.diagnostics.isEmpty then
    let reason := result.errorMessage.getD "could not determine value"
    let unknown :=
      if result.unresolvedNames.isEmpty then
        ""
      else
        " (unknown: " ++ String.intercalate ", " result.unresolvedNames ++ ")"
    ["Error: " ++ reason ++ unknown]
  else
    result.diagnostics.map Diagnostic.render

/-- The outcome of an evaluation that failed. -/
def failure
    (asJson : Bool)
    (result : Result) :
    Outcome :=
  if asJson then
    .failingJson (failureJson result)
  else
    .failing 1 (failureLines result)

/-- The outcome of an evaluation that gave a value. -/
def success
    (asJson : Bool)
    (value : Value) :
    Outcome :=
  if asJson then
    .printing [value.presentationJson.compact]
  else
    .printing [value.result.presentationText]

/-- The outcome of an evaluation. -/
def present
    (asJson : Bool)
    (result : Result) :
    Outcome :=
  if result.success then success asJson result.value else failure asJson result

/-- Evaluates an expression and presents the result. -/
def evaluate
    (asJson : Bool)
    (level : LogLevel)
    (expression : String) :
    Outcome :=
  let report := evaluateText expression.toList none
  let outcome :=
    match report.outcome with
    | .ok result => present asJson result
    | .error fault => .failing 1 ["Error: " ++ fault.message]
  outcome.withLog (logFrom level report.log)

/-- Lists what an expression may use. -/
def list (asJson : Bool) : Outcome :=
  if asJson then
    .printing [Registry.reference.toJson.indented]
  else
    .printing listingLines

/-- Does what the arguments ask for. -/
def perform
    (settings : Settings)
    (invocation : Invocation) :
    Outcome :=
  let asJson := invocation.has .json
  let level := if invocation.has .verbose then .debug else settings.logLevel
  if invocation.has .list then
    list asJson
  else if invocation.words.isEmpty then
    .failing 1 ["Error: No expression provided", usage]
  else
    evaluate asJson level (String.intercalate " " invocation.words)

/-- Runs the program with its arguments in an environment. -/
def run
    (environment : Environment)
    (arguments : List String) :
    Outcome :=
  match readArguments arguments with
  | .error problem => .failing 2 [usage, "poseval: error: " ++ problem.message]
  | .ok .showHelp => .printing helpLines
  | .ok (.perform invocation) =>
      match Settings.ofEnvironment environment with
      | .error problem => .failing 1 ["Error: " ++ problem.message]
      | .ok settings => perform settings invocation

end PlanarExpr.CommandLine
