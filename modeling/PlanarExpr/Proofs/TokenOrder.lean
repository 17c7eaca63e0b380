import PlanarExpr.Token.Lexer

namespace PlanarExpr

/-!
# The order of tokens

No token is empty, and each stands behind the end of the one before it. A
token of a text is therefore known by the offset at which it ends.
-/

/-- Of two items of a list in order, one stands before the other unless they are the same. -/
theorem eq_or_related_of_pairwise
    {related : α → α → Prop}
    {items : List α}
    (ordered : items.Pairwise related)
    {first second : α}
    (firstMember : first ∈ items)
    (secondMember : second ∈ items) :
    first = second ∨ related first second ∨ related second first := by
  let Apart (first second : α) : Prop :=
    first = second ∨ related first second ∨ related second first
  have forward : items.Pairwise Apart :=
    ordered.imp fun before => .inr (.inl before)
  have backward : items.Pairwise (flip Apart) :=
    ordered.imp fun before => .inr (.inr before)
  exact
    List.Pairwise.forall_of_forall_of_flip (fun _ _ => .inl rfl) forward backward
      firstMember secondMember

namespace Piece

/-- A number that starts with a digit has a character. -/
theorem splitNumber_ne_nil
    {c : Char}
    {rest : List Char}
    (digit : Decimal.isDigit c = true) :
    (splitNumber (c :: rest)).1 ≠ [] := by
  have whole :
      (c :: rest).takeWhile Decimal.isDigit =
        c :: rest.takeWhile Decimal.isDigit :=
    List.takeWhile_cons_of_pos digit
  unfold splitNumber
  rw [whole]
  split
  · split <;> exact List.cons_ne_nil _ _
  · exact List.cons_ne_nil _ _

/-- The first piece of a text has a character. -/
theorem characters_split_ne_nil
    (c : Char)
    (rest : List Char) :
    (split c rest).1.characters ≠ [] := by
  unfold split
  split
  · exact List.cons_ne_nil _ _
  · split
    · next digit => exact splitNumber_ne_nil digit
    · split
      · next starts =>
          have named := isNameCharacter_of_isNameStart starts
          change (c :: rest).takeWhile isNameCharacter ≠ []
          rw [List.takeWhile_cons_of_pos named]
          exact List.cons_ne_nil _ _
      · split <;> exact List.cons_ne_nil _ _

/-- Every piece of a text has a character. -/
theorem characters_ne_nil_of_mem
    {budget : Nat}
    {text : List Char}
    {piece : Piece}
    (member : piece ∈ firstPieces budget text) :
    piece.characters ≠ [] := by
  induction budget generalizing text with
  | zero =>
      cases member
  | succ budget inductionHypothesis =>
      cases text with
      | nil =>
          cases member
      | cons c rest =>
          rw [firstPieces] at member
          rcases List.mem_cons.mp member with isFirst | later
          · rw [isFirst]
            exact characters_split_ne_nil c rest
          · exact inductionHypothesis later

end Piece

namespace Lexed

/-- The tokens of pieces stand behind the place of the first piece, and none is empty. -/
theorem ofPieces_bounds
    {text : List Char}
    {file : String}
    {pieces : List Piece}
    (nonempty : ∀ piece ∈ pieces, piece.characters ≠ [])
    {allowed : Nat}
    {place : Source.Place}
    {token : Token}
    (member : token ∈ (ofPieces text file allowed place pieces).stream.tokens) :
    place.offset ≤ token.startOffset ∧ token.startOffset < token.stopOffset := by
  induction pieces generalizing allowed place with
  | nil =>
      cases allowed <;> cases member
  | cons piece rest inductionHypothesis =>
      obtain ⟨hasCharacter, restNonempty⟩ := List.forall_mem_cons.mp nonempty
      have positive : 0 < piece.characters.length :=
        List.length_pos_iff.mpr hasCharacter
      have behind := Source.Place.offset_after place piece.characters
      have later
          {allowed : Nat}
          (laterMember :
            token ∈
              (ofPieces text file allowed (place.after piece.characters)
                rest).stream.tokens) :
          place.offset ≤ token.startOffset ∧ token.startOffset < token.stopOffset := by
        obtain ⟨startsBehind, hasLength⟩ := inductionHypothesis restNonempty laterMember
        exact ⟨by omega, hasLength⟩
      cases allowed with
      | zero =>
          cases member
      | succ allowed =>
          cases piece with
          | blank c => exact later member
          | stray c => exact later member
          | token kind lexeme =>
              rcases List.mem_cons.mp member with isFirst | laterMember
              · subst isFirst
                refine ⟨Nat.le_refl _, ?_⟩
                change place.offset < (place.after lexeme).offset
                simp only [Piece.characters] at positive behind
                omega
              · exact later laterMember

/-- Of two tokens of a text, the later one starts where the earlier one has ended. -/
theorem ofPieces_pairwise
    {text : List Char}
    {file : String}
    {pieces : List Piece}
    (nonempty : ∀ piece ∈ pieces, piece.characters ≠ [])
    (allowed : Nat)
    (place : Source.Place) :
    (ofPieces text file allowed place pieces).stream.tokens.Pairwise
      fun first second => first.stopOffset ≤ second.startOffset := by
  induction pieces generalizing allowed place with
  | nil =>
      cases allowed <;> exact List.Pairwise.nil
  | cons piece rest inductionHypothesis =>
      obtain ⟨_, restNonempty⟩ := List.forall_mem_cons.mp nonempty
      cases allowed with
      | zero =>
          exact List.Pairwise.nil
      | succ allowed =>
          cases piece with
          | blank c => exact inductionHypothesis restNonempty _ _
          | stray c => exact inductionHypothesis restNonempty _ _
          | token kind lexeme =>
              refine List.pairwise_cons.mpr
                ⟨?_, inductionHypothesis restNonempty _ _⟩
              intro second member
              exact (ofPieces_bounds restNonempty member).1

/-- No token of a text is empty. -/
theorem ofNamedText_nonempty
    {text : List Char}
    {file : String}
    {errorLimit : Int}
    {token : Token}
    (member : token ∈ (ofNamedText text file errorLimit).stream.tokens) :
    token.startOffset < token.stopOffset :=
  (ofPieces_bounds (fun _ => Piece.characters_ne_nil_of_mem) member).2

/-- Each token starts where the one before it has ended, or behind that place. -/
theorem ofNamedText_pairwise
    (text : List Char)
    (file : String)
    (errorLimit : Int) :
    (ofNamedText text file errorLimit).stream.tokens.Pairwise
      fun first second => first.stopOffset ≤ second.startOffset :=
  ofPieces_pairwise (fun _ => Piece.characters_ne_nil_of_mem) _ _

/-- The tokens of a text end one behind the other. -/
theorem ofNamedText_stops_pairwise
    (text : List Char)
    (file : String)
    (errorLimit : Int) :
    (ofNamedText text file errorLimit).stream.tokens.Pairwise
      fun first second => first.stopOffset < second.stopOffset := by
  refine (ofNamedText_pairwise text file errorLimit).imp_of_mem ?_
  intro first second _ secondMember behind
  exact Nat.lt_of_le_of_lt behind (ofNamedText_nonempty secondMember)

/-- The names of a text end one behind the other. -/
theorem names_stops_pairwise (text : List Char) :
    (ofText text).stream.names.Pairwise fun first second =>
      first.stopOffset < second.stopOffset :=
  (ofNamedText_stops_pairwise text "" defaultErrorLimit).filter _

/-- A token of a text is known by the offset at which it ends. -/
theorem eq_of_stopOffset
    {text : List Char}
    {file : String}
    {errorLimit : Int}
    {first second : Token}
    (firstMember : first ∈ (ofNamedText text file errorLimit).stream.tokens)
    (secondMember : second ∈ (ofNamedText text file errorLimit).stream.tokens)
    (same : first.stopOffset = second.stopOffset) :
    first = second := by
  have ordered := ofNamedText_stops_pairwise text file errorLimit
  rcases eq_or_related_of_pairwise ordered firstMember secondMember with
    equal | before | behind
  · exact equal
  · exact absurd same (Nat.ne_of_lt before)
  · exact absurd same (Nat.ne_of_gt behind)

end Lexed

end PlanarExpr
