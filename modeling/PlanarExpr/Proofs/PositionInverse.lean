import PlanarExpr.Proofs.CutExcerpts

namespace PlanarExpr.Document

/-!
# Positions name offsets

A text has as many positions as it has offsets: the position at an offset has
that offset, and a position that has an offset is the position at it. So only
the positions beside the text have none. An offset outside of the text has the
position of the nearer end, and an excerpt of the text counts on from the
position at which it starts.
-/

/-- A position that has an offset is not in front of its document. -/
theorem isInside_of_offsetAt?
    {text : List Char}
    {position : Position}
    {offset : Nat}
    (found : offsetAt? text position = some offset) :
    position.IsInside := by
  unfold offsetAt? at found
  split at found
  · cases found
  · next inside => exact ⟨by omega, by omega⟩

/-- An empty text has a single position. -/
theorem eq_start_of_offsetAt?_nil
    {position : Position}
    {offset : Nat}
    (found : offsetAt? [] position = some offset) :
    position = .start ∧ offset = 0 := by
  obtain ⟨line, character, rfl⟩ := (isInside_of_offsetAt? found).exists_eq_ofNat
  rw [offsetAt?_ofNat] at found
  cases line with
  | zero =>
      cases character with
      | zero => exact ⟨rfl, (Option.some.inj found).symm⟩
      | succ character => cases found
  | succ line => cases found

/-- No character of the first line stands behind the line feed that ends it. -/
theorem offsetAt?_feed_firstLine
    (text : List Char)
    (character : Nat) :
    offsetAt? ('\n' :: text) { line := (0 : Nat), character := (character + 1 : Nat) } = none := by
  rw [offsetAt?_ofNat]
  rfl

/-- Every position of a text but the first one is that of a later character, shifted. -/
theorem eq_start_or_shifted
    {c : Char}
    {text : List Char}
    {position : Position}
    {offset : Nat}
    (found : offsetAt? (c :: text) position = some offset) :
    position = .start ∨
      ∃ earlier : Position, earlier.IsInside ∧ position = earlier.shifted c := by
  obtain ⟨line, character, rfl⟩ := (isInside_of_offsetAt? found).exists_eq_ofNat
  by_cases feeds : c = '\n'
  · subst feeds
    cases line with
    | zero =>
        cases character with
        | zero => exact .inl rfl
        | succ character =>
            rw [offsetAt?_feed_firstLine] at found
            cases found
    | succ line =>
        exact .inr ⟨_, Position.isInside_ofNat line character, rfl⟩
  · cases line with
    | zero =>
        cases character with
        | zero => exact .inl rfl
        | succ character =>
            refine .inr ⟨_, Position.isInside_ofNat 0 character, ?_⟩
            rw [Position.shifted, if_neg feeds]
            rfl
    | succ line =>
        refine .inr ⟨_, Position.isInside_ofNat (line + 1) character, ?_⟩
        have notFirst : ¬((line + 1 : Nat) : Int) = 0 := by omega
        rw [Position.shifted, if_neg feeds, if_neg notFirst]

/-- A position that has an offset is the position at that offset. -/
theorem positionAt_of_offsetAt?
    {text : List Char}
    {position : Position}
    {offset : Nat}
    (found : offsetAt? text position = some offset) :
    offset ≤ text.length ∧ positionAt text offset = position := by
  induction text generalizing position offset with
  | nil =>
      obtain ⟨rfl, rfl⟩ := eq_start_of_offsetAt?_nil found
      exact ⟨Nat.le_refl 0, rfl⟩
  | cons c rest inductionHypothesis =>
      rcases eq_start_or_shifted found with rfl | ⟨earlier, inside, rfl⟩
      · have atStart := offsetAt?_after [] (c :: rest)
        obtain rfl : offset = 0 := Option.some.inj (found.symm.trans atStart)
        exact ⟨Nat.zero_le _, rfl⟩
      · rw [offsetAt?_shifted inside] at found
        obtain ⟨behind, foundEarlier, rfl⟩ := Option.map_eq_some_iff.mp found
        obtain ⟨fits, same⟩ := inductionHypothesis foundEarlier
        refine ⟨Nat.succ_le_succ fits, ?_⟩
        rw [positionAt_eq_after, Int.toNat_natCast] at same ⊢
        rw [List.take_succ_cons, Position.start_after_cons, same]

/-- A position has an offset exactly if it is the position at that offset. -/
theorem offsetAt?_eq_some_iff
    {text : List Char}
    {position : Position}
    {offset : Nat} :
    offsetAt? text position = some offset ↔
      offset ≤ text.length ∧ positionAt text offset = position := by
  constructor
  · exact positionAt_of_offsetAt?
  · rintro ⟨inside, rfl⟩
    exact offsetAt?_positionAt inside

/-- An offset outside of a text is moved to the nearer end. -/
theorem positionAt_clamped
    (text : List Char)
    (offset : Int) :
    positionAt text (min offset.toNat text.length : Nat) = positionAt text offset := by
  rw [positionAt_eq_after, positionAt_eq_after, Int.toNat_natCast, ← List.take_eq_take_min]

/-- The positions without an offset are those at no offset. -/
theorem offsetAt?_eq_none_iff
    {text : List Char}
    {position : Position} :
    offsetAt? text position = none ↔ ∀ offset : Int, positionAt text offset ≠ position := by
  constructor
  · intro missing offset same
    rw [← positionAt_clamped] at same
    have found := offsetAt?_eq_some_iff.mpr ⟨Nat.min_le_right _ _, same⟩
    rw [missing] at found
    cases found
  · intro nowhere
    cases found : offsetAt? text position with
    | none => rfl
    | some offset => exact absurd (positionAt_of_offsetAt? found).2 (nowhere offset)

/--
Offsets and positions are inverse to each other, in a text and through every
excerpt of it.
-/
theorem positions_inverse (text : List Char) :
    (∀ offset : Nat,
        offset ≤ text.length → offsetAt? text (positionAt text offset) = some offset) ∧
      (∀ (position : Position) (offset : Nat),
        offsetAt? text position = some offset → positionAt text offset = position) ∧
      (∀ position : Position,
        offsetAt? text position = none ↔ ∀ offset : Int, positionAt text offset ≠ position) ∧
      (∀ offset : Int, offset < 0 → positionAt text offset = positionAt text 0) ∧
      (∀ offset : Int,
        text.length < offset → positionAt text offset = positionAt text text.length) ∧
      ∀ (uri : String) (range : TextRange) (offset : Nat),
        range.IsWithin text →
        offset ≤ range.stop - range.start →
          { uri := uri, start := positionAt text range.start, text := range.cut text :
              Excerpt }.positionAt offset =
            positionAt text (range.start + offset : Nat) := by
  refine ⟨?_, ?_, ?_, ?_, ?_, ?_⟩
  · exact fun _ inside => offsetAt?_positionAt inside
  · exact fun _ _ found => (positionAt_of_offsetAt? found).2
  · exact fun _ => offsetAt?_eq_none_iff
  · intro offset before
    have clamped : min offset.toNat text.length = 0 := by omega
    rw [← positionAt_clamped, clamped]
    rfl
  · intro offset behind
    have clamped : min offset.toNat text.length = text.length := by omega
    rw [← positionAt_clamped, clamped]
  · exact fun uri range _ _ inside => Excerpt.positionAt_cut uri text range inside

/-- An excerpt that starts within a line and goes on over an empty one. -/
theorem positions_inverse_threeLines :
    let text := ['a', 'b', '\n', '\n', 'c']
    let range : TextRange := { start := 1, stop := 5 }
    offsetAt? text (positionAt text 4) = some 4 ∧
      positionAt text 3 = { line := 1, character := 0 } ∧
      (∀ offset : Int, positionAt text offset ≠ { line := 1, character := 1 }) ∧
      positionAt text (-1) = positionAt text 0 ∧
      positionAt text 6 = positionAt text 5 ∧
      { uri := "", start := positionAt text 1, text := range.cut text : Excerpt }.positionAt 3 =
        positionAt text 4 := by
  intro text range
  obtain ⟨offsets, positions, missing, before, behind, excerpts⟩ := positions_inverse text
  exact ⟨offsets 4 (by decide), positions _ 3 (by decide), (missing _).mp (by decide),
    before (-1) (by decide), behind 6 (by decide),
    excerpts "" range 3 ⟨by decide, by decide⟩ (by decide)⟩

end PlanarExpr.Document
