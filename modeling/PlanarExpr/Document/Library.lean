import PlanarExpr.Consultation
import PlanarExpr.Document.Assignment
import PlanarExpr.Document.Excerpt

namespace PlanarExpr.Document

/-!
# Reading definitions from a library of documents

A library gives the text of a document by its name. From the location of a
definition it reads the right-hand side that is assigned there.
-/

/-- The texts of documents by their names. -/
abbrev Library := String → Option (List Char)

/-- Nothing was read, for the given reason. -/
def unreadable (reason : String) : Consultation Excerpt :=
  .absent (.debug "poseval.source" reason)

/-- The right-hand side that a text of the given name assigns at an offset. -/
def assignedExcerpt?
    (uri : String)
    (text : List Char)
    (offset : Nat) :
    Option Excerpt :=
  (assignedRange? text offset).map fun range =>
    {
      uri := uri
      start := positionAt text range.start
      text := range.cut text
    }

/-- Reads the right-hand side that is assigned at a location. -/
def Library.read
    (library : Library)
    (location : Location) :
    Consultation Excerpt :=
  match library location.uri with
  | none => unreadable ("no text for document " ++ location.uri)
  | some text =>
      match offsetAt? text location.position with
      | none => unreadable (location.text ++ " lies outside its document")
      | some offset =>
          .ofFinding (.ofOption (assignedExcerpt? location.uri text offset))

end PlanarExpr.Document
