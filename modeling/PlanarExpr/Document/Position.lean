import PlanarExpr.Text.Portion
import PlanarExpr.Text.Written

namespace PlanarExpr.Document

/-!
# Positions in a document

A position names a line and a character of that line, both counted from zero.
An offset counts characters of the whole text. Only a line feed starts a new
line, and the place behind the last character of a line belongs to that line.
-/

/-- A line of a document and a character of that line. -/
structure Position where
  line : Int
  character : Int
deriving DecidableEq

namespace Position

/-- The first character of the first line. -/
def start : Position :=
  { line := 0, character := 0 }

/-- A position as it is shown, both numbers counted from one. -/
def text (position : Position) : String :=
  Text.integer (position.line + 1) ++ ":" ++ Text.integer (position.character + 1)

end Position

/-- A position in one of several documents. -/
structure Location where
  /-- The name of the document. -/
  uri : String
  position : Position
deriving DecidableEq

/-- A location as it is shown. -/
def Location.text (location : Location) : String :=
  location.uri ++ ":" ++ location.position.text

/-- The offset at which a line starts, each line in front of it ended by one character. -/
def lineOffset
    (lines : List (List Char))
    (line : Nat) :
    Nat :=
  (lines.take line).foldr (fun earlier offset => earlier.length + 1 + offset) 0

/-- The offset of a position in a text, if the text reaches that far. -/
def offsetAt?
    (text : List Char)
    (position : Position) :
    Option Nat :=
  if position.line < 0 ∨ position.character < 0 then
    none
  else
    let lines := Text.feedLines text
    match lines[position.line.toNat]? with
    | none => none
    | some line =>
        if line.length < position.character.toNat then
          none
        else
          some (lineOffset lines position.line.toNat + position.character.toNat)

end PlanarExpr.Document
