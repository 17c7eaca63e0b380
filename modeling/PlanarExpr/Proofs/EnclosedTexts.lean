import PlanarExpr.Proofs.InlinedTexts
import PlanarExpr.Proofs.TextCoverage

namespace PlanarExpr

/-!
# Putting a part of a text in parentheses

If a span covers some of the tokens of a clean text, a parenthesis in front of
the span and one behind it become tokens of their own, and all other tokens
keep their kinds. A text that is not clean stays so.
-/

open Source

/-- A text with parentheses around what a span cuts out of it. -/
def Text.enclose
    (text : List Char)
    (span : Span) :
    List Char :=
  text.take span.start.offset ++
    ('(' :: (text.drop span.start.offset).take (span.stop.offset - span.start.offset) ++
      ')' :: text.drop span.stop.offset)

/-- Parentheses stand around what a span cuts out of the text. -/
theorem Text.enclose_between
    {front middle behind : List Char}
    {span : Span}
    (starts : span.start.offset = front.length)
    (stops : span.stop.offset = front.length + middle.length) :
    Text.enclose (front ++ (middle ++ behind)) span =
      front ++ ('(' :: middle ++ ')' :: behind) := by
  rw [Text.enclose, starts, stops, List.take_left, List.drop_left, Nat.add_sub_cancel_left,
    List.take_left, List.drop_length_add_append, List.drop_left]

/-- Nothing is left out where parentheses are put in. -/
theorem Text.subset_enclose
    (text : List Char)
    (span : Span) :
    text ⊆ Text.enclose text span := by
  intro c member
  rw [← List.take_append_drop span.start.offset text] at member
  rcases List.mem_append.mp member with inFront | fromStart
  · exact List.mem_append_left _ inFront
  · refine List.mem_append_right _ ?_
    rw [← List.take_append_drop (span.stop.offset - span.start.offset)
      (text.drop span.start.offset)] at fromStart
    rcases List.mem_append.mp fromStart with inside | behind
    · exact List.mem_append_left _ (List.mem_cons_of_mem _ inside)
    · rw [List.drop_drop] at behind
      have notBefore :
          span.stop.offset ≤ span.start.offset + (span.stop.offset - span.start.offset) := by
        omega
      refine List.mem_append_right _ (List.mem_cons_of_mem _ ?_)
      exact List.drop_subset_drop_left text notBefore behind

/-! ## Clean texts -/

/-- No lexeme and no blank is a stray character. -/
theorem SpacedLexemes.isStray_of_mem
    {items : SpacedLexemes}
    {c : Char}
    (member : c ∈ items.characters) :
    isStray c = false := by
  induction items with
  | nil => cases member
  | cons entry rest inductionHypothesis =>
      obtain ⟨lexeme, gap⟩ := entry
      rcases List.mem_append.mp member with inLexeme | behind
      · exact lexeme.isStray_of_mem inLexeme
      · rcases List.mem_append.mp behind with inGap | later
        · exact isStray_of_isBlank (gap.blank c inGap)
        · exact inductionHypothesis later

/-- A text is clean exactly if none of its characters is stray. -/
theorem Lexed.ofText_clean_iff {text : List Char} :
    (Lexed.ofText text).diagnostics = [] ↔ ∀ c ∈ text, isStray c = false := by
  constructor
  · intro clean c member
    obtain ⟨margin, items, rfl, -⟩ := Lexed.exists_written_of_clean clean
    rcases List.mem_append.mp member with inMargin | inItems
    · exact isStray_of_isBlank (margin.blank c inMargin)
    · exact SpacedLexemes.isStray_of_mem inItems
  · intro noStray
    have count : text.countP isStray = 0 :=
      List.countP_eq_zero.mpr fun c member => Bool.eq_false_iff.mp (noStray c member)
    have few : (text.countP isStray : Int) < defaultErrorLimit := by
      rw [count]
      decide
    have starts := (Lexed.ofNamedText_tiles text "" few).strays
    rw [List.findIdxs_eq_nil_iff.mpr noStray, List.map_eq_nil_iff] at starts
    exact starts

/-- Parentheses do not make a text clean. -/
theorem Lexed.clean_of_enclose_clean
    {text : List Char}
    {span : Span}
    (clean : (Lexed.ofText (Text.enclose text span)).diagnostics = []) :
    (Lexed.ofText text).diagnostics = [] := by
  rw [Lexed.ofText_clean_iff] at clean ⊢
  exact fun c member => clean c (Text.subset_enclose text span member)

/-! ## Tokens -/

namespace SpacedLexemes

/-- The first ones of some ended lexemes are ended, for their own text. -/
theorem Ended.front
    {first second : SpacedLexemes}
    (ended : Ended (first ++ second)) :
    Ended first := by
  induction first with
  | nil => trivial
  | cons entry rest inductionHypothesis =>
      obtain ⟨lexeme, gap⟩ := entry
      obtain ⟨ends, restEnded⟩ := ended
      have endsBefore : lexeme.Ends (gap.characters ++ characters (rest ++ second)) := ends
      rw [characters_append, ← List.append_assoc] at endsBefore
      exact ⟨endsBefore.of_append, inductionHypothesis restEnded⟩

/-- Lexemes also end with parentheses around some of them. -/
theorem Ended.enclosed
    {before used behind : SpacedLexemes}
    (ended : Ended (before ++ used ++ behind))
    (gap : Blanks) :
    Ended (before ++ SpacedLexemes.enclosed .empty used.trimmed gap ++ behind) := by
  rw [List.append_assoc] at ended
  have closes := ended.behind.trimmed.append_mark .closeParen nofun gap ended.behind.behind
  have opens :=
    ended.front.append_mark .openParen nofun .empty closes
  simpa [SpacedLexemes.enclosed] using opens

end SpacedLexemes

/--
In a clean text, parentheses around what covers some of the tokens become
tokens around these, and the text stays clean.
-/
theorem Lexed.enclose_tokens
    {text : List Char}
    (clean : (Lexed.ofText text).diagnostics = [])
    {before used behind : List Token}
    (shape : (Lexed.ofText text).stream.tokens = before ++ used ++ behind)
    {span : Span}
    (covers : span.Covers used) :
    let lexed := Lexed.ofText (Text.enclose text span)
    lexed.diagnostics = [] ∧
      lexed.stream.tokens.map Token.kind =
        before.map Token.kind ++ (.openParen :: used.map Token.kind ++ [.closeParen]) ++
          behind.map Token.kind := by
  obtain ⟨margin, beforeItems, usedItems, behindItems, rfl, ended, rfl, rfl, rfl⟩ :=
    Lexed.exists_written_parts clean shape
  rw [← Place.after_append] at covers
  obtain ⟨starts, stops⟩ := SpacedLexemes.offsets_of_covers covers
  obtain ⟨gap, trimmed⟩ := usedItems.exists_gap_of_trimmed
  have enclosed :
      Text.enclose
          (margin.characters ++
            SpacedLexemes.characters (beforeItems ++ usedItems ++ behindItems))
          span =
        margin.characters ++
          SpacedLexemes.characters
            (beforeItems ++ SpacedLexemes.enclosed .empty usedItems.trimmed gap ++
              behindItems) := by
    have parts :=
      @Text.enclose_between _ _ (gap.characters ++ behindItems.characters) span starts stops
    simp only [SpacedLexemes.characters_append, SpacedLexemes.characters_enclosed, trimmed,
      List.append_assoc] at parts ⊢
    rw [parts]
    simp [Blanks.empty]
  have sameUsed :
      (usedItems.trimmed.map Prod.fst).map Lexeme.kind =
        (usedItems.map Prod.fst).map Lexeme.kind := by
    rw [← SpacedLexemes.map_kind_tokens Place.start, SpacedLexemes.tokens_trimmed,
      SpacedLexemes.map_kind_tokens]
  intro lexed
  simp only [lexed, enclosed, Lexed.ofText_of_ended margin (ended.enclosed gap)]
  refine ⟨trivial, ?_⟩
  simp only [SpacedLexemes.map_kind_tokens, List.map_append, SpacedLexemes.enclosed,
    List.map_cons, sameUsed, List.map_nil]
  rfl

end PlanarExpr
