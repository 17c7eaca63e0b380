import PlanarExpr.Proofs.TokenOrder

namespace PlanarExpr

/-!
# Pieces tile a text

Splitting loses no character: the pieces of a text, one after the other, are
the text. So a token stands in the text where its offsets say.
-/

namespace Piece

/-- A number and what is left behind it are the whole text. -/
theorem splitNumber_append (text : List Char) :
    (splitNumber text).1 ++ (splitNumber text).2 = text := by
  have whole := List.takeWhile_append_dropWhile (p := Decimal.isDigit) (l := text)
  unfold splitNumber
  split
  · next point digit rest shape =>
      rw [shape] at whole
      split
      · rw [List.append_assoc, List.cons_append, List.takeWhile_append_dropWhile]
        exact whole
      · exact whole
  · exact whole

/-- The first piece and the rest are the whole text. -/
theorem characters_split_append
    (c : Char)
    (rest : List Char) :
    (split c rest).1.characters ++ (split c rest).2 = c :: rest := by
  unfold split
  split
  · rfl
  · split
    · exact splitNumber_append (c :: rest)
    · split
      · exact List.takeWhile_append_dropWhile
      · split <;> rfl

/-- What is left behind the first piece is shorter than the text. -/
theorem length_split_le
    (c : Char)
    (rest : List Char) :
    (split c rest).2.length ≤ rest.length := by
  have positive := List.length_pos_iff.mpr (characters_split_ne_nil c rest)
  have whole := congrArg List.length (characters_split_append c rest)
  rw [List.length_append, List.length_cons] at whole
  omega

/-- With a budget for all characters, the pieces are the text. -/
theorem flatMap_firstPieces
    {budget : Nat}
    {text : List Char}
    (enough : text.length ≤ budget) :
    (firstPieces budget text).flatMap characters = text := by
  induction budget generalizing text with
  | zero =>
      exact (List.length_eq_zero_iff.mp (Nat.le_zero.mp enough)).symm
  | succ budget inductionHypothesis =>
      cases text with
      | nil =>
          rfl
      | cons c rest =>
          have shorter := length_split_le c rest
          have restFits := Nat.le_of_succ_le_succ enough
          rw [firstPieces, List.flatMap_cons,
            inductionHypothesis (Nat.le_trans shorter restFits)]
          exact characters_split_append c rest

/-- The pieces of a text, one after the other, are the text. -/
theorem flatMap_pieces (text : List Char) :
    (pieces text).flatMap characters = text :=
  flatMap_firstPieces (Nat.le_refl _)

end Piece

namespace Lexed

/-- A token of pieces is written somewhere in them, at its offsets. -/
theorem ofPieces_lexeme
    {text : List Char}
    {file : String}
    {pieces : List Piece}
    {allowed : Nat}
    {place : Source.Place}
    {token : Token}
    (member : token ∈ (ofPieces text file allowed place pieces).stream.tokens) :
    ∃ before behind,
      pieces.flatMap Piece.characters = before ++ (token.lexeme.toList ++ behind) ∧
        token.startOffset = place.offset + before.length ∧
        token.stopOffset = token.startOffset + token.lexeme.toList.length := by
  induction pieces generalizing allowed place with
  | nil =>
      cases allowed <;> cases member
  | cons piece rest inductionHypothesis =>
      have later
          {allowed : Nat}
          (laterMember :
            token ∈
              (ofPieces text file allowed (place.after piece.characters)
                rest).stream.tokens) :
          ∃ before behind,
            (piece :: rest).flatMap Piece.characters =
                before ++ (token.lexeme.toList ++ behind) ∧
              token.startOffset = place.offset + before.length ∧
              token.stopOffset = token.startOffset + token.lexeme.toList.length := by
        obtain ⟨before, behind, shape, starts, stops⟩ := inductionHypothesis laterMember
        refine ⟨piece.characters ++ before, behind, ?_, ?_, stops⟩
        · rw [List.flatMap_cons, shape, List.append_assoc]
        · rw [starts, Source.Place.offset_after, List.length_append]
          omega
      cases allowed with
      | zero =>
          cases member
      | succ allowed =>
          cases piece with
          | blank c => exact later member
          | stray c => exact later member
          | token kind lexeme =>
              rcases List.mem_cons.mp member with isFirst | laterMember
              · subst isFirst
                refine ⟨[], rest.flatMap Piece.characters, ?_, rfl, ?_⟩
                · rw [List.flatMap_cons, String.toList_ofList]
                  rfl
                · simp only [Token.startOffset, Token.stopOffset, String.toList_ofList]
                  exact Source.Place.offset_after place lexeme
              · exact later laterMember

/-- The text from the start of a token on begins with the token. -/
theorem lexeme_isPrefix
    {text : List Char}
    {file : String}
    {errorLimit : Int}
    {token : Token}
    (member : token ∈ (ofNamedText text file errorLimit).stream.tokens) :
    token.lexeme.toList <+: text.drop token.startOffset := by
  obtain ⟨before, behind, shape, starts, -⟩ := ofPieces_lexeme member
  rw [Piece.flatMap_pieces] at shape
  have fromStart : token.startOffset = before.length := by
    rw [starts]
    exact Nat.zero_add _
  rw [shape, fromStart, List.drop_left]
  exact List.prefix_append _ _

/-- A token ends behind its characters. -/
theorem stopOffset_eq
    {text : List Char}
    {file : String}
    {errorLimit : Int}
    {token : Token}
    (member : token ∈ (ofNamedText text file errorLimit).stream.tokens) :
    token.stopOffset = token.startOffset + token.lexeme.toList.length := by
  obtain ⟨-, -, -, -, stops⟩ := ofPieces_lexeme member
  exact stops

/-- No token reaches beyond the text. -/
theorem stopOffset_le
    {text : List Char}
    {file : String}
    {errorLimit : Int}
    {token : Token}
    (member : token ∈ (ofNamedText text file errorLimit).stream.tokens) :
    token.stopOffset ≤ text.length := by
  have fits := (lexeme_isPrefix member).length_le
  have stops := stopOffset_eq member
  have nonempty := ofNamedText_nonempty member
  rw [List.length_drop] at fits
  omega

end Lexed

end PlanarExpr
