import PlanarExpr.Document.Position

namespace PlanarExpr.Document

/-!
# Excerpts

An excerpt is a run of text that was taken from a document, together with the
place where it starts there. Places inside an excerpt are places of the
document: the line feeds in front of a place count its line, and what stands
behind the last of them counts its character.
-/

/-- A run of text and where it starts in its document. -/
structure Excerpt where
  uri : String
  start : Position
  text : List Char
deriving DecidableEq

namespace Excerpt

/--
The position in the document at an offset into the excerpt; an offset outside
is moved to the nearer end.
-/
def positionAt
    (excerpt : Excerpt)
    (offset : Int) :
    Position :=
  let before := excerpt.text.take offset.toNat
  let feeds := before.count '\n'
  if feeds = 0 then
    {
      line := excerpt.start.line
      character := excerpt.start.character + before.length
    }
  else
    {
      line := excerpt.start.line + feeds
      character := before.reverse.idxOf '\n'
    }

/-- The location at an offset into the excerpt. -/
def locationAt
    (excerpt : Excerpt)
    (offset : Int) :
    Location :=
  { uri := excerpt.uri, position := excerpt.positionAt offset }

end Excerpt

/-- The position at an offset into a text; an offset outside is moved to the nearer end. -/
def positionAt
    (text : List Char)
    (offset : Int) :
    Position :=
  { uri := "", start := .start, text := text : Excerpt }.positionAt offset

end PlanarExpr.Document
