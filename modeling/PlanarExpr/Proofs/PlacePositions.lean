import PlanarExpr.Proofs.Positions
import PlanarExpr.Proofs.TextCoverage

namespace PlanarExpr

/-!
# Places and positions

While a text is split, every character moves the line and the column at hand;
a document counts the line feeds in front of an offset, or adds up the lines in
front of a position. All three agree at both ends of every token and of every
diagnostic, and at the end of the text.
-/

open Source

/-- A place as an editor counts, from zero. -/
def Source.Place.position (place : Place) : Document.Position :=
  { line := (place.line : Int) - 1, character := (place.column : Int) - 1 }

/-- The position in a text at the offset of a place is the place, and has that offset. -/
structure Source.Place.AgreesWith
    (place : Place)
    (text : List Char) :
    Prop where
  position : place.position = Document.positionAt text place.offset
  offset : Document.offsetAt? text place.position = some place.offset

/-- Every span that is made while a text is split. -/
def Lexed.spans (lexed : Lexed) : List Span :=
  lexed.stream.tokens.map (·.span) ++
    lexed.stream.finish :: lexed.diagnostics.map (·.span)

/-- A character moves a place as it moves the position. -/
theorem Source.Place.position_step
    (place : Place)
    (c : Char) :
    (place.step c).position = place.position.step c := by
  unfold Place.step Document.Position.step
  split
  · simp [position]
  · simp only [position, Document.Position.mk.injEq, true_and]
    omega

/-- A text moves a place as it moves the position. -/
theorem Source.Place.position_after
    (place : Place)
    (text : List Char) :
    (place.after text).position = place.position.after text := by
  induction text generalizing place with
  | nil => rfl
  | cons c rest inductionHypothesis =>
      rw [Place.after_cons, inductionHypothesis, position_step]
      rfl

/-- The place behind the beginning of a text agrees with the text. -/
theorem Source.Place.agreesWith_after
    (before behind : List Char) :
    (Place.start.after before).AgreesWith (before ++ behind) := by
  have offset : (Place.start.after before).offset = before.length :=
    (Place.offset_after _ _).trans (Nat.zero_add _)
  have position : (Place.start.after before).position = Document.Position.start.after before :=
    position_after _ _
  constructor
  · rw [offset, position, Document.positionAt_eq_after, Int.toNat_natCast, List.take_left]
  · rw [offset, position]
    exact Document.offsetAt?_after before behind

/-- A piece of a text starts and stops at places that agree with the text. -/
theorem Piece.Placed.agreesWith
    {text : List Char}
    {placed : Piece.Placed}
    (member : placed ∈ Lexed.placedPieces text)
    (file : String) :
    (placed.span file).start.AgreesWith text ∧ (placed.span file).stop.AgreesWith text := by
  obtain ⟨before, c, rest, shape, starts, first⟩ := Piece.exists_split_of_placed member
  have whole := Piece.characters_split_append c rest
  rw [← first] at whole
  constructor
  · rw [Placed.span, starts, shape]
    exact Place.agreesWith_after before (c :: rest)
  · rw [Placed.span, starts, ← Place.after_append, shape, ← whole, ← List.append_assoc]
    exact Place.agreesWith_after _ _

/--
Below the error limit, the places of all tokens, of the end and of all
diagnostics are the positions of their offsets.
-/
theorem Lexed.ofNamedText_agreesWith
    (text : List Char)
    (file : String)
    {errorLimit : Int}
    (few : (text.countP isStray : Int) < errorLimit) :
    ∀ span ∈ (ofNamedText text file errorLimit).spans,
      span.start.AgreesWith text ∧ span.stop.AgreesWith text := by
  rw [ofNamedText_eq_of_few few, spans]
  intro span member
  rcases List.mem_append.mp member with isToken | notToken
  · obtain ⟨token, tokenMember, rfl⟩ := List.mem_map.mp isToken
    obtain ⟨placed, placedMember, -, same⟩ := exists_placed_of_token tokenMember
    rw [same]
    exact placed.agreesWith placedMember file
  · rcases List.mem_cons.mp notToken with rfl | isDiagnostic
    · have finish := Place.agreesWith_after text []
      rw [List.append_nil] at finish
      exact ⟨finish, finish⟩
    · obtain ⟨diagnostic, diagnosticMember, rfl⟩ := List.mem_map.mp isDiagnostic
      obtain ⟨placed, placedMember, -, same⟩ := exists_placed_of_diagnostic diagnosticMember
      rw [same]
      exact placed.agreesWith placedMember file

/-- A stray character behind an empty line, and a line feed at the end. -/
theorem Lexed.ofNamedText_agreesWith_lines :
    let text := ['1', '\n', '\r', '\n', ' ', '#', 'a', '\n']
    let stray : Place := { line := 3, column := 2, offset := 5 }
    let finish : Place := { line := 4, column := 1, offset := 8 }
    (text.countP isStray : Int) < 2 ∧ stray.AgreesWith text ∧ finish.AgreesWith text := by
  intro text stray finish
  have few : (text.countP isStray : Int) < 2 := by decide
  have agree := ofNamedText_agreesWith text "" few
  have strayMember :
      { start := stray, stop := { line := 3, column := 3, offset := 6 }, file := "" } ∈
        (ofNamedText text "" 2).spans := by decide +kernel
  have finishMember :
      { start := finish, stop := finish, file := "" } ∈ (ofNamedText text "" 2).spans := by
    decide +kernel
  exact ⟨few, (agree _ strayMember).1, (agree _ finishMember).1⟩

end PlanarExpr
