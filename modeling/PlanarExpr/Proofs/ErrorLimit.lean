import PlanarExpr.Proofs.TextCoverage

namespace PlanarExpr

/-!
# What an error limit cuts off

A text is split up to the character that reaches the error limit. The tokens
in front of it and the diagnostics up to it are those of the text without a
limit, and the end is put behind the whole text, on the line and the column
that were reached.
-/

open Source

namespace Lexed

/--
What is left of a text, split from a place on, if only so many errors are
reported. With fewer errors in it, it is left as it is.
-/
def truncated
    (text : List Char)
    (file : String)
    (place : Place)
    (whole : Lexed) :
    Nat →
    Lexed
  | 0 => ending { place with offset := text.length } file
  | earlier + 1 =>
      match whole.diagnostics[earlier]? with
      | none => whole
      | some last =>
          let finish := { last.span.stop with offset := text.length }
          {
            stream := {
              tokens :=
                whole.stream.tokens.filter (·.stopOffset ≤ last.span.start.offset)
              finish := { start := finish, stop := finish, file := file }
            }
            diagnostics := whole.diagnostics.take (earlier + 1)
          }

end Lexed

namespace Piece

section

variable
  {file : String}
  {place : Place}
  {pieces : List Piece}

/-- Tokens that are read off later pieces stop behind the place of the first of them. -/
theorem le_stopOffset_of_placed
    {token : Token}
    (member : token ∈ (placedFrom place pieces).filterMap (Placed.token? file)) :
    place.offset ≤ token.stopOffset := by
  obtain ⟨placed, placedMember, isToken⟩ := List.mem_filterMap.mp member
  have notBefore := (placedFrom_inOrder file place pieces).1 placed placedMember
  rw [Token.stopOffset, Placed.span_of_token? isToken, Placed.span, Place.offset_after]
  exact Nat.le_add_right_of_le notBefore

/-- Diagnostics of later pieces start behind the place of the first of them. -/
theorem le_startOffset_of_placed
    {text : List Char}
    {diagnostic : Diagnostic}
    (member :
      diagnostic ∈ (placedFrom place pieces).filterMap (Placed.diagnostic? text file)) :
    place.offset ≤ diagnostic.span.start.offset := by
  obtain ⟨placed, placedMember, isStray⟩ := List.mem_filterMap.mp member
  rw [Placed.span_of_diagnostic? isStray]
  exact (placedFrom_inOrder file place pieces).1 placed placedMember

end

end Piece

namespace Lexed

/-- Up to the character that reaches the limit, pieces are split as if there were none. -/
theorem ofPieces_eq_of_last
    {text : List Char}
    {file : String}
    {place : Place}
    {pieces : List Piece}
    {earlier : Nat}
    {last : Diagnostic}
    (reaches :
      ((Piece.placedFrom place pieces).filterMap
        (Piece.Placed.diagnostic? text file))[earlier]? = some last) :
    ofPieces text file (earlier + 1) place pieces =
      let finish := { last.span.stop with offset := text.length }
      {
        stream := {
          tokens :=
            ((Piece.placedFrom place pieces).filterMap (Piece.Placed.token? file)).filter
              (·.stopOffset ≤ last.span.start.offset)
          finish := { start := finish, stop := finish, file := file }
        }
        diagnostics :=
          ((Piece.placedFrom place pieces).filterMap
            (Piece.Placed.diagnostic? text file)).take (earlier + 1)
      } := by
  induction pieces generalizing earlier place with
  | nil => cases reaches
  | cons piece rest inductionHypothesis =>
      cases piece with
      | blank c => exact inductionHypothesis reaches
      | token kind lexeme =>
          have reachesLater :
              ((Piece.placedFrom (place.after lexeme) rest).filterMap
                (Piece.Placed.diagnostic? text file))[earlier]? = some last :=
            reaches
          -- The token stops where the rest starts, and the last error is in the rest.
          have inFront : (place.after lexeme).offset ≤ last.span.start.offset :=
            Piece.le_startOffset_of_placed (List.mem_of_getElem? reachesLater)
          have later := inductionHypothesis reachesLater
          simp only [Piece.placedFrom, List.filterMap_cons, Piece.Placed.token?,
            Piece.Placed.diagnostic?, Piece.characters]
          rw [ofPieces, List.filter_cons_of_pos]
          · exact congrArg (addToken _) later
          · exact decide_eq_true inFront
      | stray c =>
          cases earlier with
          | zero =>
              obtain rfl := Option.some.inj reaches
              -- All tokens of the rest stop behind the error.
              have noneLeft :
                  ((Piece.placedFrom (place.after [c]) rest).filterMap
                    (Piece.Placed.token? file)).filter (·.stopOffset ≤ place.offset) = [] := by
                refine List.filter_eq_nil_iff.mpr fun token member => ?_
                have behind := Piece.le_stopOffset_of_placed member
                rw [Place.offset_after] at behind
                exact fun stops => Nat.not_lt.mpr (of_decide_eq_true stops) behind
              rw [ofPieces, ofPieces]
              exact congrArg
                (fun tokens =>
                  ({ stream := { tokens := tokens, finish := _ }, diagnostics := _ } : Lexed))
                noneLeft.symm
          | succ earlier =>
              have later := @inductionHypothesis (place.after [c]) earlier reaches
              exact congrArg (addDiagnostic _) later

/--
An error limit only truncates: a text is split as it is below a limit that it
does not reach, and left off behind the last error allowed.
-/
theorem ofNamedText_eq_truncated
    (text : List Char)
    (file : String)
    (errorLimit : Int)
    {unlimited : Int}
    (enough : (text.countP isStray : Int) < unlimited) :
    ofNamedText text file errorLimit =
      (ofNamedText text file unlimited).truncated text file Place.start errorLimit.toNat := by
  rw [ofNamedText_eq_of_few enough]
  cases count : errorLimit.toNat with
  | zero =>
      rw [ofNamedText, count, truncated]
      cases Piece.pieces text <;> rfl
  | succ earlier =>
      cases reached : (placedDiagnostics text file)[earlier]? with
      | none =>
          have few : (text.countP isStray : Int) < errorLimit := by
            rw [List.getElem?_eq_none_iff, length_placedDiagnostics] at reached
            omega
          rw [ofNamedText_eq_of_few few, truncated]
          simp only [reached]
      | some last =>
          rw [ofNamedText, count, ofPieces_eq_of_last reached, truncated]
          simp only [reached]
          rfl

/-- The second of three stray characters, on a line of its own, is the last one reported. -/
theorem ofNamedText_eq_truncated_twoErrors :
    let text := ['a', ' ', '#', 'b', '\n', ' ', '?', 'c', '!']
    let whole := ofNamedText text "" 4
    (text.countP isStray : Int) < 4 ∧
      ofNamedText text "" 2 = whole.truncated text "" Place.start 2 ∧
      (ofNamedText text "" 2).stream.tokens.map (·.startOffset) = [0, 3] ∧
      (ofNamedText text "" 2).stream.finish.start = { line := 2, column := 3, offset := 9 } := by
  intro text whole
  have enough : (text.countP isStray : Int) < 4 := by decide
  exact ⟨enough, ofNamedText_eq_truncated text "" 2 enough, by decide +kernel,
    by decide +kernel⟩

end Lexed

end PlanarExpr
