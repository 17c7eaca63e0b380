import PlanarExpr.Json
import PlanarExpr.Source.Span

namespace PlanarExpr

/-!
# Diagnostics

A diagnostic says what is wrong with a source text and where. It is shown with
the source line, carets under the span, and hints; or as JSON for tools.
-/

/-- How serious a diagnostic is. -/
inductive Severity where
  | error
  | warning
  | info
  | hint
deriving DecidableEq

/-- The name of a severity. -/
def Severity.text : Severity → String
  | .error => "error"
  | .warning => "warning"
  | .info => "info"
  | .hint => "hint"

/-- One message about a span of the source. -/
structure Diagnostic where
  code : String
  message : String
  severity : Severity
  span : Source.Span
  /-- The displayed line on which the span starts, if it is known. -/
  sourceLine : Option String
  hints : List String
deriving DecidableEq

namespace Diagnostic

/-- The first line: where the problem is, how severe it is, its code and its message. -/
def headline (diagnostic : Diagnostic) : String :=
  diagnostic.span.startText ++ ": " ++ diagnostic.severity.text ++
    "[" ++ diagnostic.code ++ "]: " ++ diagnostic.message

/--
How many carets stand under the source line; a span of several lines is marked
up to the end of the first.
-/
def caretCount
    (diagnostic : Diagnostic)
    (line : String) :
    Nat :=
  let span := diagnostic.span
  let stop :=
    if span.start.line = span.stop.line then span.stop.column else line.length + 1
  max 1 (stop - span.start.column)

/-- The source line and the carets below it. -/
def excerpt
    (diagnostic : Diagnostic)
    (line : String) :
    List String :=
  let start := diagnostic.span.start
  let number := Text.padLeft 3 ' ' (Text.natural start.line)
  let margin := List.replicate (start.column - 1) ' '
  let carets := List.replicate (diagnostic.caretCount line) '^'
  [
    "  |",
    String.ofList number ++ " | " ++ line,
    "    | " ++ String.ofList (margin ++ carets)
  ]

/-- The hints, a line each. -/
def hintLines (diagnostic : Diagnostic) : List String :=
  diagnostic.hints.map ("    = hint: " ++ ·)

/-- A diagnostic without the source. -/
def brief (diagnostic : Diagnostic) : String :=
  String.intercalate "\n" (diagnostic.headline :: diagnostic.hintLines)

/-- A diagnostic with the line of the source that it is about, if that is known. -/
def render (diagnostic : Diagnostic) : String :=
  let source :=
    match diagnostic.sourceLine with
    | some line => diagnostic.excerpt line
    | none => []
  String.intercalate "\n" (diagnostic.headline :: source ++ diagnostic.hintLines)

/-- A place for tools. -/
def placeJson (place : Source.Place) : Json :=
  .object [
    ("line", .natural place.line),
    ("column", .natural place.column),
    ("offset", .natural place.offset)
  ]

/-- A diagnostic for tools. -/
def toJson (diagnostic : Diagnostic) : Json :=
  .object [
    ("code", .text diagnostic.code),
    ("message", .text diagnostic.message),
    ("severity", .text diagnostic.severity.text),
    ("range", .object [
      ("start", placeJson diagnostic.span.start),
      ("end", placeJson diagnostic.span.stop)
    ]),
    ("hints", .texts diagnostic.hints)
  ]

end Diagnostic

end PlanarExpr
