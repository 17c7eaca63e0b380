import PlanarExpr.Text.Written

namespace PlanarExpr.Source

/-!
# Places and spans in a source text

A place knows its line and column, counted from one, and its offset, counted
from zero. Only a line feed starts a new line.
-/

/-- A place between two characters of a text. -/
structure Place where
  line : Nat
  column : Nat
  offset : Nat
deriving DecidableEq

namespace Place

/-- The place before the first character. -/
def start : Place :=
  { line := 1, column := 1, offset := 0 }

/-- The place behind a character that stands at a place. -/
def step
    (place : Place)
    (c : Char) :
    Place :=
  if c = '\n' then
    { line := place.line + 1, column := 1, offset := place.offset + 1 }
  else
    { line := place.line, column := place.column + 1, offset := place.offset + 1 }

/-- The place behind a text that starts at a place. -/
def after
    (place : Place)
    (text : List Char) :
    Place :=
  text.foldl step place

/-- A place in words, as its line and column. -/
def text (place : Place) : String :=
  Text.integer place.line ++ ":" ++ Text.integer place.column

/-- No text leaves a place where it is. -/
@[simp] theorem after_nil (place : Place) : place.after [] = place :=
  rfl

/-- A text is passed one character after the other. -/
@[simp] theorem after_cons
    (place : Place)
    (c : Char)
    (text : List Char) :
    place.after (c :: text) = (place.step c).after text :=
  rfl

/-- Two texts can be passed one after the other. -/
theorem after_append
    (place : Place)
    (first second : List Char) :
    place.after (first ++ second) = (place.after first).after second := by
  simp [after, List.foldl_append]

/-- Each character moves the offset by one. -/
@[simp] theorem offset_step
    (place : Place)
    (c : Char) :
    (place.step c).offset = place.offset + 1 := by
  unfold step
  split <;> rfl

/-- The offset behind a text counts its characters. -/
theorem offset_after
    (place : Place)
    (text : List Char) :
    (place.after text).offset = place.offset + text.length := by
  induction text generalizing place with
  | nil =>
      rfl
  | cons c rest inductionHypothesis =>
      simp only [after_cons, inductionHypothesis, offset_step, List.length_cons]
      omega

end Place

/-- A run of text, from its first character up to the place behind its last one. -/
structure Span where
  start : Place
  stop : Place
  /-- The name of the text; empty if it has none. -/
  file : String
deriving DecidableEq

namespace Span

/-- The name of the text with a colon, if it has a name. -/
def fileText (span : Span) : String :=
  if span.file.isEmpty then "" else span.file ++ ":"

/-- Where a span starts, in words. -/
def startText (span : Span) : String :=
  span.fileText ++ span.start.text

/-- Both ends of a span in words. -/
def text (span : Span) : String :=
  span.startText ++ "-" ++ span.stop.text

/-- The span from the start of one span to the end of another. -/
def through (first last : Span) : Span :=
  { start := first.start, stop := last.stop, file := first.file }

end Span

end PlanarExpr.Source
