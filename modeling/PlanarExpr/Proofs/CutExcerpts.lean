import PlanarExpr.Document.Library
import PlanarExpr.Proofs.Positions

namespace PlanarExpr.Document

/-!
# Excerpts cut from a library

An excerpt is cut from a library if it is a range of the characters of its
document and starts at the position of the first of them. Its positions are
then those of the document, and all that a library reads is cut from it.
-/

/-- A range of the characters of a document. -/
def TextRange.IsWithin
    (range : TextRange)
    (document : List Char) :
    Prop :=
  range.start ≤ range.stop ∧ range.stop ≤ document.length

/-- An excerpt is what its document has from a position on. -/
def Excerpt.IsCutFrom
    (library : Library)
    (excerpt : Excerpt) :
    Prop :=
  ∃ document, library excerpt.uri = some document ∧
    ∃ range : TextRange, range.IsWithin document ∧
      excerpt.start = Document.positionAt document range.start ∧
        excerpt.text = range.cut document

/-- A document with the given text from a location on. -/
def Library.ShowsAt
    (library : Library)
    (location : Location)
    (text : List Char) :
    Prop :=
  ∃ document offset,
    library location.uri = some document ∧
      offsetAt? document location.position = some offset ∧
        text <+: document.drop offset

/-- The positions in an excerpt cut from a range of a document are positions of the document. -/
theorem Excerpt.positionAt_cut
    (uri : String)
    (document : List Char)
    (range : TextRange)
    {offset : Nat}
    (inside : offset ≤ range.stop - range.start) :
    { uri := uri,
      start := Document.positionAt document range.start,
      text := range.cut document : Excerpt }.positionAt offset =
      Document.positionAt document (range.start + offset : Nat) := by
  have upTo :
      (range.cut document).take offset = (document.drop range.start).take offset := by
    rw [TextRange.cut, List.drop_take, List.take_take, Nat.min_eq_left inside]
  rw [Excerpt.positionAt_eq_after, Document.positionAt_eq_after, Document.positionAt_eq_after]
  simp only [Int.toNat_natCast, upTo, ← Position.after_append]
  rw [← List.take_add]

/-- What a cut excerpt has from an offset on stands at the location of the offset. -/
theorem Excerpt.IsCutFrom.showsAt
    {library : Library}
    {excerpt : Excerpt}
    (cut : excerpt.IsCutFrom library)
    {offset : Nat}
    (inside : offset ≤ excerpt.text.length)
    {text : List Char}
    (begins : text <+: excerpt.text.drop offset) :
    library.ShowsAt (excerpt.locationAt offset) text := by
  obtain ⟨uri, start, characters⟩ := excerpt
  obtain ⟨document, found, range, ⟨ordered, fits⟩, rfl, rfl⟩ := cut
  simp only [TextRange.cut, List.length_drop, List.length_take, Nat.min_eq_left fits] at inside
  refine ⟨document, range.start + offset, found, ?_, ?_⟩
  · rw [Excerpt.locationAt, Excerpt.positionAt_cut uri document range inside]
    exact offsetAt?_positionAt (by omega)
  · refine begins.trans ?_
    rw [TextRange.cut, List.drop_drop, List.drop_take]
    exact List.take_prefix _ _

/-! ## What a library reads -/

/-- A trimmed text and the blanks in front of it fit into the text. -/
theorem length_trimBlanks_le (text : List Char) :
    (text.takeWhile Text.isBlank).length + (Text.trimBlanks text).length ≤ text.length := by
  have front := congrArg List.length
    (List.takeWhile_append_dropWhile (p := Text.isBlank) (l := text))
  have back :=
    (List.dropWhile_sublist (l := (text.dropWhile Text.isBlank).reverse) Text.isBlank).length_le
  rw [List.length_append] at front
  simp only [Text.trimBlanks, Text.dropBlanks, List.length_reverse] at back ⊢
  omega

/-- What stands in front of the semicolon is no longer than the text. -/
theorem length_upToSemicolon?_le
    {text whole : List Char}
    (found : upToSemicolon? text = some whole) :
    whole.length ≤ text.length := by
  unfold upToSemicolon? at found
  split at found
  · cases found
    exact (List.takeWhile_sublist _).length_le
  · cases found

/-- The range of a right-hand side lies within its text. -/
theorem isWithin_of_assignedRange?
    {text : List Char}
    {offset : Nat}
    {range : TextRange}
    (found : assignedRange? text offset = some range) :
    range.IsWithin text := by
  unfold assignedRange? at found
  simp only at found
  split at found
  · cases found
  · next behind assigns =>
      have behindFits := (behindAssignment?_isSuffix assigns).length_le
      rw [List.length_drop] at behindFits
      split at found
      · cases found
      · next whole ends =>
          have wholeFits := length_upToSemicolon?_le ends
          have trimmedFits := length_trimBlanks_le whole
          split at found
          · cases found
          · cases found
            exact ⟨Nat.le_add_right _ _, by simp only; omega⟩

/-- What a library reads is cut from it. -/
theorem Library.isCutFrom_of_read
    {library : Library}
    {location : Location}
    {excerpt : Excerpt}
    (found : (library.read location).finding.item? = some excerpt) :
    excerpt.IsCutFrom library := by
  unfold Library.read at found
  split at found
  · cases found
  · next document known =>
      split at found
      · cases found
      · next offset reached =>
          rw [Consultation.ofFinding, Finding.item?_ofOption, assignedExcerpt?,
            Option.map_eq_some_iff] at found
          obtain ⟨range, assigned, rfl⟩ := found
          exact ⟨document, known, range, isWithin_of_assignedRange? assigned, rfl, rfl⟩

end PlanarExpr.Document
