import PlanarExpr.Document.Excerpt

namespace PlanarExpr.Document

/-!
# Positions and offsets

The position at an offset is the one that is reached character by character.
The offset of the position at an offset is that offset. A character in front
of a text moves every position of the text: onto the next line if it is a line
feed, else along the first line. The offset moves by one in either case.
-/

namespace Position

/-- The position behind a character that stands at a position. -/
def step
    (position : Position)
    (c : Char) :
    Position :=
  if c = '\n' then
    { line := position.line + 1, character := 0 }
  else
    { line := position.line, character := position.character + 1 }

/-- The position behind a text that starts at a position. -/
def after
    (position : Position)
    (text : List Char) :
    Position :=
  text.foldl step position

/-- No text leaves a position where it is. -/
@[simp] theorem after_nil (position : Position) : position.after [] = position :=
  rfl

/-- A text is passed one character after the other. -/
@[simp] theorem after_cons
    (position : Position)
    (c : Char)
    (text : List Char) :
    position.after (c :: text) = (position.step c).after text :=
  rfl

/-- Two texts can be passed one after the other. -/
theorem after_append
    (position : Position)
    (first second : List Char) :
    position.after (first ++ second) = (position.after first).after second := by
  simp [after, List.foldl_append]

/--
The position that is reached can be counted off: the line feeds passed, and
what stands behind the last of them.
-/
theorem after_eq_counted
    (position : Position)
    (text : List Char) :
    position.after text =
      if text.count '\n' = 0 then
        { line := position.line, character := position.character + text.length }
      else
        { line := position.line + text.count '\n', character := text.reverse.idxOf '\n' } := by
  induction text generalizing position with
  | nil => simp
  | cons c rest inductionHypothesis =>
      have behindLast :
          (c :: rest).reverse.idxOf '\n' =
            if '\n' ∈ rest then rest.reverse.idxOf '\n' else [c].idxOf '\n' + rest.length := by
        simp only [List.reverse_cons, List.idxOf_append, List.mem_reverse, List.length_reverse]
      rw [after_cons, inductionHypothesis, behindLast, step]
      by_cases later : '\n' ∈ rest
      · have counted : rest.count '\n' ≠ 0 := mt List.count_eq_zero.mp (not_not_intro later)
        by_cases feeds : c = '\n'
        · simp [feeds, later, counted, Int.add_assoc, Int.add_comm 1]
        · simp [feeds, later, counted]
      · have counted : rest.count '\n' = 0 := List.count_eq_zero.mpr later
        by_cases feeds : c = '\n'
        · simp [feeds, later, counted]
        · simp [feeds, counted, Int.add_assoc, Int.add_comm 1]

/-- The position that a place of a text has once a character stands in front of the text. -/
def shifted
    (position : Position)
    (c : Char) :
    Position :=
  if c = '\n' then
    { position with line := position.line + 1 }
  else if position.line = 0 then
    { position with character := position.character + 1 }
  else
    position

/-- A position that is not in front of its document. -/
def IsInside (position : Position) : Prop :=
  0 ≤ position.line ∧ 0 ≤ position.character

/-- A position that counts by natural numbers is not in front of its document. -/
theorem isInside_ofNat (line character : Nat) :
    IsInside { line := line, character := character } :=
  ⟨Int.natCast_nonneg line, Int.natCast_nonneg character⟩

/-- Such a position counts its line and its character by natural numbers. -/
theorem IsInside.exists_eq_ofNat
    {position : Position}
    (inside : position.IsInside) :
    ∃ line character : Nat, position = { line := line, character := character } := by
  obtain ⟨line, character⟩ := position
  obtain ⟨lineNonneg, characterNonneg⟩ := inside
  obtain ⟨line, rfl⟩ := Int.eq_ofNat_of_zero_le lineNonneg
  obtain ⟨character, rfl⟩ := Int.eq_ofNat_of_zero_le characterNonneg
  exact ⟨line, character, rfl⟩

/-- A character leads to no place in front of the document. -/
theorem IsInside.step
    {position : Position}
    (inside : position.IsInside)
    (c : Char) :
    (position.step c).IsInside := by
  obtain ⟨line, character⟩ := inside
  unfold Position.step
  split
  · exact ⟨Int.add_nonneg line (by decide), Int.le_refl 0⟩
  · exact ⟨line, Int.add_nonneg character (by decide)⟩

/-- A text leads to no place in front of the document. -/
theorem IsInside.after
    {position : Position}
    (inside : position.IsInside)
    (text : List Char) :
    (position.after text).IsInside := by
  induction text generalizing position with
  | nil =>
      exact inside
  | cons c rest inductionHypothesis =>
      exact inductionHypothesis (inside.step c)

/-- The first position of a document is not in front of it. -/
theorem isInside_start : start.IsInside :=
  ⟨Int.le_refl 0, Int.le_refl 0⟩

/-- A step through a text and a character in front of it do not get in each other's way. -/
theorem shifted_step
    {position : Position}
    (inside : position.IsInside)
    (c next : Char) :
    (position.step next).shifted c = (position.shifted c).step next := by
  have line := inside.1
  simp only [step, shifted]
  by_cases cFeeds : c = '\n' <;> by_cases nextFeeds : next = '\n' <;>
    by_cases firstLine : position.line = 0 <;>
      simp [cFeeds, nextFeeds, firstLine]
  omega

/-- A text and a character in front of the whole do not get in each other's way. -/
theorem shifted_after
    {position : Position}
    (inside : position.IsInside)
    (c : Char)
    (text : List Char) :
    (position.after text).shifted c = (position.shifted c).after text := by
  induction text generalizing position with
  | nil =>
      rfl
  | cons next rest inductionHypothesis =>
      rw [after_cons, after_cons, inductionHypothesis (inside.step next),
        shifted_step inside]

/-- The first character of a text shifts the positions of the rest. -/
theorem start_after_cons
    (c : Char)
    (text : List Char) :
    start.after (c :: text) = (start.after text).shifted c := by
  have firstStep : start.step c = start.shifted c := by
    simp only [step, shifted, start]
    split <;> simp
  rw [after_cons, shifted_after isInside_start, firstStep]

end Position

/-- The position at an offset is the one behind the characters in front of it. -/
theorem Excerpt.positionAt_eq_after
    (excerpt : Excerpt)
    (offset : Int) :
    excerpt.positionAt offset = excerpt.start.after (excerpt.text.take offset.toNat) :=
  (excerpt.start.after_eq_counted _).symm

/-- The position at an offset is the one behind the characters in front of it. -/
theorem positionAt_eq_after
    (text : List Char)
    (offset : Int) :
    positionAt text offset = Position.start.after (text.take offset.toNat) :=
  Excerpt.positionAt_eq_after _ offset

/-! ## Offsets -/

/-- A character in front of a text, if it is no line feed, is put to the first line. -/
theorem feedLines_cons
    {c : Char}
    (noFeed : c ≠ '\n')
    (text : List Char) :
    ∃ line later,
      Text.feedLines text = line :: later ∧
        Text.feedLines (c :: text) = (c :: line) :: later := by
  cases lines : Text.feedLines text with
  | nil => exact absurd lines (Text.feedLines_ne_nil text)
  | cons line later =>
      refine ⟨line, later, rfl, ?_⟩
      rw [Text.feedLines, if_neg noFeed, lines]

/-- The offset of a character of a line. -/
theorem offsetAt?_ofNat
    (text : List Char)
    (line character : Nat) :
    offsetAt? text { line := line, character := character } =
      match (Text.feedLines text)[line]? with
      | none => none
      | some found =>
          if found.length < character then
            none
          else
            some (lineOffset (Text.feedLines text) line + character) := by
  have inside : ¬((line : Int) < 0 ∨ (character : Int) < 0) := by omega
  rw [offsetAt?, if_neg inside]
  rfl

/-- A line in front of the others moves them by its characters and its line feed. -/
theorem lineOffset_cons
    (first : List Char)
    (lines : List (List Char))
    (line : Nat) :
    lineOffset (first :: lines) (line + 1) =
      first.length + 1 + lineOffset lines line := by
  simp only [lineOffset, List.take_succ_cons, List.foldr_cons]

/-- A line feed in front of a text makes the lines of the text later ones. -/
theorem offsetAt?_feed
    (text : List Char)
    (line character : Nat) :
    offsetAt? ('\n' :: text) { line := (line + 1 : Nat), character := character } =
      (offsetAt? text { line := line, character := character }).map (· + 1) := by
  have lines : Text.feedLines ('\n' :: text) = [] :: Text.feedLines text := rfl
  rw [offsetAt?_ofNat, offsetAt?_ofNat, lines, List.getElem?_cons_succ]
  cases (Text.feedLines text)[line]? with
  | none => rfl
  | some found =>
      simp only [lineOffset_cons, List.length_nil]
      split
      · rfl
      · rw [Option.map_some]
        congr 1
        omega

/-- Any other character in front of a text is the first one of its first line. -/
theorem offsetAt?_cons_firstLine
    {c : Char}
    (noFeed : c ≠ '\n')
    (text : List Char)
    (character : Nat) :
    offsetAt? (c :: text) { line := (0 : Nat), character := (character + 1 : Nat) } =
      (offsetAt? text { line := (0 : Nat), character := character }).map (· + 1) := by
  obtain ⟨first, later, lines, consLines⟩ := feedLines_cons noFeed text
  rw [offsetAt?_ofNat, offsetAt?_ofNat, lines, consLines, List.getElem?_cons_zero,
    List.getElem?_cons_zero]
  simp only [List.length_cons, Nat.add_lt_add_iff_right, lineOffset, List.take_zero,
    List.foldr_nil, Nat.zero_add]
  split <;> rfl

/-- It leaves the later lines as they are, one offset further on. -/
theorem offsetAt?_cons_laterLine
    {c : Char}
    (noFeed : c ≠ '\n')
    (text : List Char)
    (line character : Nat) :
    offsetAt? (c :: text) { line := (line + 1 : Nat), character := character } =
      (offsetAt? text { line := (line + 1 : Nat), character := character }).map
        (· + 1) := by
  obtain ⟨first, later, lines, consLines⟩ := feedLines_cons noFeed text
  rw [offsetAt?_ofNat, offsetAt?_ofNat, lines, consLines, List.getElem?_cons_succ,
    List.getElem?_cons_succ]
  cases later[line]? with
  | none => rfl
  | some found =>
      simp only [lineOffset_cons, List.length_cons]
      split
      · rfl
      · rw [Option.map_some]
        congr 1
        omega

/-- A character in front of a text moves the offset of a position by one. -/
theorem offsetAt?_shifted
    {position : Position}
    (inside : position.IsInside)
    (c : Char)
    (text : List Char) :
    offsetAt? (c :: text) (position.shifted c) =
      (offsetAt? text position).map (· + 1) := by
  obtain ⟨line, character, rfl⟩ := inside.exists_eq_ofNat
  by_cases feeds : c = '\n'
  · subst feeds
    exact offsetAt?_feed text line character
  · rw [Position.shifted, if_neg feeds]
    cases line with
    | zero =>
        rw [if_pos Int.ofNat_zero]
        exact offsetAt?_cons_firstLine feeds text character
    | succ line =>
        have notFirst : ¬((line + 1 : Nat) : Int) = 0 := by omega
        rw [if_neg notFirst]
        exact offsetAt?_cons_laterLine feeds text line character

/-- The position behind the beginning of a text has the offset behind it. -/
theorem offsetAt?_after
    (before behind : List Char) :
    offsetAt? (before ++ behind) (Position.start.after before) =
      some before.length := by
  induction before with
  | nil =>
      have start : Position.start = { line := (0 : Nat), character := (0 : Nat) } := rfl
      rw [List.nil_append, Position.after_nil, start, offsetAt?_ofNat]
      obtain ⟨first, later, lines⟩ :=
        List.exists_cons_of_ne_nil (Text.feedLines_ne_nil behind)
      rw [lines]
      rfl
  | cons c rest inductionHypothesis =>
      rw [List.cons_append, Position.start_after_cons,
        offsetAt?_shifted (Position.isInside_start.after rest), inductionHypothesis]
      rfl

/-- The position at an offset into a text has that offset. -/
theorem offsetAt?_positionAt
    {text : List Char}
    {offset : Nat}
    (inside : offset ≤ text.length) :
    offsetAt? text (positionAt text offset) = some offset := by
  have found := offsetAt?_after (text.take offset) (text.drop offset)
  rw [List.take_append_drop, List.length_take_of_le inside] at found
  rw [positionAt_eq_after]
  exact found

end PlanarExpr.Document
