import Mathlib.Order.Bounds.Basic
import PlanarExpr.Proofs.CutExcerpts
import PlanarExpr.Proofs.CutTexts

namespace PlanarExpr.Document

/-!
# What the search for an assignment finds

The search steps over a text and trims what it has found. What it finds can be
said without any step: the first character from the definition on that decides
has to be an assignment sign, and the right-hand side is what stands between
it and the next semicolon, without the blanks at the two ends.
-/

/-- A character at which the search is given up. -/
def EndsAt
    (text : List Char)
    (offset : Nat) :
    Prop :=
  ∃ c ∈ [';', '\x7b', '\x7d', '('], text[offset]? = some c

/-- An equals sign that is no part of a comparison. -/
def AssignsAt
    (text : List Char)
    (offset : Nat) :
    Prop :=
  text[offset]? = some '=' ∧
    text[offset + 1]? ≠ some '=' ∧
      ∀ c ∈ ['=', '!', '<', '>'], 0 < offset → text[offset - 1]? ≠ some c

/-- The offsets from a first one on at which the search comes to an end. -/
def decisions
    (text : List Char)
    (first : Nat) :
    Set Nat :=
  {place | first ≤ place ∧ (EndsAt text place ∨ AssignsAt text place)}

/-- The offsets of the semicolons from a first one on. -/
def semicolons
    (text : List Char)
    (first : Nat) :
    Set Nat :=
  {place | first ≤ place ∧ text[place]? = some ';'}

/-- The sign that assigns to the definition at an offset, and the semicolon behind it. -/
structure IsAssignment
    (text : List Char)
    (offset sign semicolon : Nat) :
    Prop where
  decides : IsLeast (decisions text offset) sign
  assigns : text[sign]? = some '='
  terminates : IsLeast (semicolons text (sign + 1)) semicolon

/-- Only blanks stand between two offsets. -/
def IsBlankBetween
    (text : List Char)
    (first last : Nat) :
    Prop :=
  ∀ c ∈ ({ start := first, stop := last } : TextRange).cut text, Text.isBlank c = true

/-- The characters between two offsets without the blanks at the two ends. -/
structure TextRange.Trims
    (range : TextRange)
    (text : List Char)
    (first last : Nat) :
    Prop where
  first_le : first ≤ range.start
  nonempty : range.start < range.stop
  le_last : range.stop ≤ last
  blank_front : IsBlankBetween text first range.start
  blank_behind : IsBlankBetween text range.stop last
  starts : ∃ c, text[range.start]? = some c ∧ Text.isBlank c = false
  stops : ∃ c, text[range.stop - 1]? = some c ∧ Text.isBlank c = false

/-! ## The sign that decides -/

section

variable
  {text : List Char}
  {offset : Nat}
  {c : Char}
  (here : text[offset]? = some c)

include here

/-- The search ends where the scan gives up. -/
theorem endsAt_iff : EndsAt text offset ↔ endsDefinition c = true := by
  constructor
  · rintro ⟨found, member, there⟩
    obtain rfl := Option.some.inj (here.symm.trans there)
    simpa [endsDefinition, or_assoc] using member
  · intro ends
    exact ⟨c, by simpa [endsDefinition, or_assoc] using ends, here⟩

theorem characterBefore?_succ : characterBefore? text (offset + 1) = some c :=
  here

/-- An equals sign assigns where the scan takes it for an assignment. -/
theorem assignsAt_iff :
    AssignsAt text offset ↔
      isAssignment (characterBefore? text offset) c text[offset + 1]? = true := by
  have behind : text[offset + 1]? ≠ some '=' ↔ text[offset + 1]?.any (· = '=') = false := by
    cases text[offset + 1]? <;> simp
  have before :
      (∀ c ∈ ['=', '!', '<', '>'], 0 < offset → text[offset - 1]? ≠ some c) ↔
        (characterBefore? text offset).any opensComparison = false := by
    cases offset with
    | zero => simp [characterBefore?]
    | succ earlier =>
        cases found : text[earlier]? <;>
          simp [characterBefore?, found, opensComparison, and_assoc]
  simp only [AssignsAt, behind, before, isAssignment, here, Option.some.injEq,
    Bool.and_eq_true, Bool.not_eq_true', decide_eq_true_eq, and_assoc]

end

/-- Nothing stands behind the end of a text. -/
theorem getElem?_of_drop_eq_nil
    {text : List Char}
    {first place : Nat}
    (rest : text.drop first = [])
    (notBefore : first ≤ place) :
    text[place]? = none :=
  List.getElem?_eq_none_iff.mpr (Nat.le_trans (List.drop_eq_nil_iff.mp rest) notBefore)

/-- What is left of a text from an offset on starts with the character at the offset. -/
theorem parts_of_drop_eq_cons
    {text later : List Char}
    {first : Nat}
    {c : Char}
    (rest : text.drop first = c :: later) :
    text[first]? = some c ∧ text.drop (first + 1) = later := by
  rw [← List.head?_drop, ← List.drop_drop, rest]
  exact ⟨rfl, rfl⟩

/-- The least offset is the first one, if it belongs to the set. -/
theorem eq_of_isLeast_of_here
    {holds : Nat → Prop}
    {first place : Nat}
    (here : holds first)
    (least : IsLeast {place | first ≤ place ∧ holds place} place) :
    place = first :=
  Nat.le_antisymm (least.2 ⟨Nat.le_refl first, here⟩) least.1.1

/-- If the first offset does not belong to the set, the set may as well start behind it. -/
theorem setOf_le_of_not_here
    {holds : Nat → Prop}
    {first : Nat}
    (notHere : ¬holds first) :
    {place | first ≤ place ∧ holds place} = {place | first + 1 ≤ place ∧ holds place} := by
  ext place
  constructor
  · rintro ⟨notBefore, inside⟩
    refine ⟨Nat.lt_of_le_of_ne notBefore ?_, inside⟩
    rintro rfl
    exact notHere inside
  · rintro ⟨behind, inside⟩
    exact ⟨Nat.le_of_succ_le behind, inside⟩

/-- The search finds the text behind the sign that decides, if that sign assigns. -/
theorem behindAssignment?_eq_some_iff
    (text : List Char)
    (offset : Nat)
    (behind : List Char) :
    behindAssignment? (characterBefore? text offset) (text.drop offset) = some behind ↔
      ∃ sign,
        IsLeast (decisions text offset) sign ∧
          text[sign]? = some '=' ∧ behind = text.drop (sign + 1) := by
  induction rest : text.drop offset generalizing offset with
  | nil =>
      refine ⟨nofun, ?_⟩
      rintro ⟨sign, ⟨⟨notBefore, -⟩, -⟩, assigns, -⟩
      rw [getElem?_of_drop_eq_nil rest notBefore] at assigns
      cases assigns
  | cons c later inductionHypothesis =>
      obtain ⟨here, laterRest⟩ := parts_of_drop_eq_cons rest
      have next : later.head? = text[offset + 1]? := by
        rw [← laterRest, List.head?_drop]
      rw [behindAssignment?_cons, next]
      split
      · next ends =>
          refine ⟨nofun, ?_⟩
          rintro ⟨sign, decides, assigns, -⟩
          obtain rfl := eq_of_isLeast_of_here (.inl ((endsAt_iff here).mpr ends)) decides
          obtain rfl := Option.some.inj (here.symm.trans assigns)
          cases ends
      · next noEnd =>
          split
          · next assigns =>
              have assignsHere := (assignsAt_iff here).mpr assigns
              constructor
              · rintro ⟨⟩
                exact ⟨offset, ⟨⟨Nat.le_refl offset, .inr assignsHere⟩, fun _ inside => inside.1⟩,
                  assignsHere.1, laterRest.symm⟩
              · rintro ⟨sign, decides, -, rfl⟩
                obtain rfl := eq_of_isLeast_of_here (.inr assignsHere) decides
                rw [laterRest]
          · next noAssignment =>
              -- Nothing is decided here, so what decides is the same one offset further on.
              rw [decisions, setOf_le_of_not_here]
              · rw [← characterBefore?_succ here, ← decisions]
                exact inductionHypothesis (offset + 1) laterRest
              · rintro (ends | assigns)
                · exact noEnd ((endsAt_iff here).mp ends)
                · exact noAssignment ((assignsAt_iff here).mp assigns)

/-! ## The semicolon that terminates -/

/-- An empty range cuts out nothing. -/
theorem TextRange.cut_self
    (text : List Char)
    (offset : Nat) :
    ({ start := offset, stop := offset } : TextRange).cut text = [] := by
  rw [cut, List.drop_take, Nat.sub_self, List.take_zero]

/-- A range begins with its first character. -/
theorem TextRange.cut_eq_cons
    {text : List Char}
    {first last : Nat}
    {c : Char}
    (here : text[first]? = some c)
    (nonempty : first < last) :
    ({ start := first, stop := last } : TextRange).cut text =
      c :: ({ start := first + 1, stop := last } : TextRange).cut text := by
  obtain ⟨inside, rfl⟩ := List.getElem?_eq_some_iff.mp here
  have size : last - first = last - (first + 1) + 1 := by omega
  rw [cut, cut, List.drop_take, List.drop_take, List.drop_eq_getElem_cons inside, size,
    List.take_succ_cons]

/-- The search for a semicolon looks at one character after the other. -/
theorem upToSemicolon?_cons
    (c : Char)
    (rest : List Char) :
    upToSemicolon? (c :: rest) =
      if c = ';' then some [] else (upToSemicolon? rest).map (c :: ·) := by
  by_cases isSemicolon : c = ';'
  · simp [upToSemicolon?, isSemicolon]
  · by_cases later : ';' ∈ rest
    · simp [upToSemicolon?, isSemicolon, later]
    · simp [upToSemicolon?, isSemicolon, Ne.symm isSemicolon, later]

/-- Up to the semicolon stands what the first one leaves in front. -/
theorem upToSemicolon?_eq_some_iff
    (text : List Char)
    (first : Nat)
    (whole : List Char) :
    upToSemicolon? (text.drop first) = some whole ↔
      ∃ semicolon,
        IsLeast (semicolons text first) semicolon ∧
          whole = ({ start := first, stop := semicolon } : TextRange).cut text := by
  induction rest : text.drop first generalizing first whole with
  | nil =>
      refine ⟨nofun, ?_⟩
      rintro ⟨semicolon, ⟨⟨notBefore, found⟩, -⟩, -⟩
      rw [getElem?_of_drop_eq_nil rest notBefore] at found
      cases found
  | cons c later inductionHypothesis =>
      obtain ⟨here, laterRest⟩ := parts_of_drop_eq_cons rest
      rw [upToSemicolon?_cons]
      split
      · next isSemicolon =>
          subst isSemicolon
          constructor
          · rintro ⟨⟩
            exact ⟨first, ⟨⟨Nat.le_refl first, here⟩, fun _ inside => inside.1⟩,
              (TextRange.cut_self text first).symm⟩
          · rintro ⟨semicolon, least, rfl⟩
            obtain rfl := eq_of_isLeast_of_here here least
            rw [TextRange.cut_self]
      · next noSemicolon =>
          have notHere : text[first]? ≠ some ';' := by
            rw [here]
            exact fun same => noSemicolon (Option.some.inj same)
          rw [semicolons, setOf_le_of_not_here notHere, Option.map_eq_some_iff, ← semicolons]
          constructor
          · rintro ⟨part, found, rfl⟩
            obtain ⟨semicolon, least, rfl⟩ :=
              (inductionHypothesis (first + 1) part laterRest).mp found
            exact ⟨semicolon, least, (TextRange.cut_eq_cons here least.1.1).symm⟩
          · rintro ⟨semicolon, least, rfl⟩
            exact ⟨_, (inductionHypothesis (first + 1) _ laterRest).mpr ⟨semicolon, least, rfl⟩,
              (TextRange.cut_eq_cons here least.1.1).symm⟩

/-! ## The blanks at the two ends -/

/-- A trimmed text neither starts nor stops with a blank, and lacks nothing but blanks. -/
theorem exists_trimmed (whole : List Char) :
    ∃ tail,
      whole = whole.takeWhile Text.isBlank ++ (Text.trimBlanks whole ++ tail) ∧
        (∀ c ∈ tail, Text.isBlank c = true) ∧
        StartsOutside Text.isBlank (Text.trimBlanks whole) ∧
        StartsOutside Text.isBlank (Text.trimBlanks whole).reverse := by
  have front : whole.takeWhile Text.isBlank ++ Text.dropBlanks whole = whole :=
    List.takeWhile_append_dropWhile
  have behind :
      Text.trimBlanks whole ++ ((Text.dropBlanks whole).reverse.takeWhile Text.isBlank).reverse =
        Text.dropBlanks whole := by
    have reversed :=
      List.takeWhile_append_dropWhile (p := Text.isBlank) (l := (Text.dropBlanks whole).reverse)
    rw [Text.trimBlanks, ← List.reverse_append]
    exact (congrArg List.reverse reversed).trans (List.reverse_reverse _)
  refine ⟨((Text.dropBlanks whole).reverse.takeWhile Text.isBlank).reverse, ?_, ?_, ?_, ?_⟩
  · rw [behind, front]
  · intro c member
    exact List.mem_takeWhile_imp (List.mem_reverse.mp member)
  · have outside : StartsOutside Text.isBlank (Text.dropBlanks whole) :=
      startsOutside_dropWhile Text.isBlank whole
    rw [← behind] at outside
    exact outside.of_append
  · rw [Text.trimBlanks, List.reverse_reverse]
    exact startsOutside_dropWhile _ _

/-- The characters behind some others are cut out by their offsets. -/
theorem TextRange.cut_append
    (front run behind : List Char) :
    ({ start := front.length, stop := front.length + run.length } : TextRange).cut
      (front ++ (run ++ behind)) = run := by
  rw [cut, ← List.append_assoc, List.take_left' (List.length_append ..), List.drop_left]

/-- A character in a range is one of the characters cut out. -/
theorem TextRange.mem_cut
    {text : List Char}
    {first last place : Nat}
    {c : Char}
    (notBefore : first ≤ place)
    (before : place < last)
    (here : text[place]? = some c) :
    c ∈ ({ start := first, stop := last } : TextRange).cut text := by
  apply List.mem_of_getElem? (i := place - first)
  rw [cut, List.getElem?_drop, Nat.add_sub_cancel' notBefore, List.getElem?_take_of_lt before,
    here]

/-- What is left of a run without the blanks around it is trimmed by its offsets. -/
theorem trims_of_parts
    {front margin core tail behind : List Char}
    (nonempty : core ≠ [])
    (blankMargin : ∀ c ∈ margin, Text.isBlank c = true)
    (blankTail : ∀ c ∈ tail, Text.isBlank c = true)
    (starts : StartsOutside Text.isBlank core)
    (stops : StartsOutside Text.isBlank core.reverse) :
    TextRange.Trims
      { start := front.length + margin.length,
        stop := front.length + margin.length + core.length }
      (front ++ (margin ++ (core ++ (tail ++ behind)))) front.length
      (front.length + (margin ++ (core ++ tail)).length) where
  first_le := Nat.le_add_right _ _
  nonempty := Nat.lt_add_of_pos_right (List.length_pos_iff.mpr nonempty)
  le_last := by
    simp only [List.length_append]
    omega
  blank_front := by
    rw [IsBlankBetween, TextRange.cut_append]
    exact blankMargin
  blank_behind := by
    have cut := TextRange.cut_append (front ++ (margin ++ core)) tail behind
    simp only [List.length_append, List.append_assoc, Nat.add_assoc] at cut
    simp only [IsBlankBetween, List.length_append, Nat.add_assoc, cut]
    exact blankTail
  starts := by
    obtain ⟨c, rest, rfl⟩ := List.exists_cons_of_ne_nil nonempty
    exact ⟨c, by simp, starts c rfl⟩
  stops := by
    obtain ⟨c, earlier, reversed⟩ :=
      List.exists_cons_of_ne_nil (mt List.reverse_eq_nil_iff.mp nonempty)
    obtain rfl : core = earlier.reverse ++ [c] := by
      rw [← List.reverse_reverse core, reversed, List.reverse_cons]
    have last :
        (front ++ (margin ++ earlier.reverse) ++ c :: (tail ++ behind))[
          (front ++ (margin ++ earlier.reverse)).length]? = some c := by
      simp
    refine ⟨c, ?_, stops c (by rw [reversed]; rfl)⟩
    simpa only [List.append_assoc, List.length_append, List.length_reverse, List.length_cons,
      List.length_nil, List.cons_append, List.nil_append, ← Nat.add_assoc, Nat.zero_add,
      Nat.add_sub_cancel] using last

namespace TextRange.Trims

variable
  {first second : TextRange}
  {text : List Char}
  {start stop : Nat}

/-- No trimmed range starts behind another one. -/
theorem start_le
    (firstTrims : first.Trims text start stop)
    (secondTrims : second.Trims text start stop) :
    first.start ≤ second.start := by
  apply Nat.le_of_not_lt
  intro later
  obtain ⟨c, here, noBlank⟩ := secondTrims.starts
  have blank := firstTrims.blank_front c (mem_cut secondTrims.first_le later here)
  rw [noBlank] at blank
  cases blank

/-- No trimmed range stops behind another one. -/
theorem stop_le
    (firstTrims : first.Trims text start stop)
    (secondTrims : second.Trims text start stop) :
    first.stop ≤ second.stop := by
  apply Nat.le_of_not_lt
  intro earlier
  obtain ⟨c, here, noBlank⟩ := firstTrims.stops
  have fits := firstTrims.le_last
  have blank := secondTrims.blank_behind c (mem_cut (by omega) (by omega) here)
  rw [noBlank] at blank
  cases blank

/-- A run can be trimmed in one way only. -/
theorem unique
    (firstTrims : first.Trims text start stop)
    (secondTrims : second.Trims text start stop) :
    first = second := by
  have sameStart :=
    Nat.le_antisymm (firstTrims.start_le secondTrims) (secondTrims.start_le firstTrims)
  have sameStop :=
    Nat.le_antisymm (firstTrims.stop_le secondTrims) (secondTrims.stop_le firstTrims)
  obtain ⟨firstStart, firstStop⟩ := first
  obtain ⟨secondStart, secondStop⟩ := second
  obtain rfl : firstStart = secondStart := sameStart
  obtain rfl : firstStop = secondStop := sameStop
  rfl

/-- What is trimmed is not blank. -/
theorem not_isBlankBetween
    (trims : first.Trims text start stop) :
    ¬IsBlankBetween text start stop := by
  intro blank
  obtain ⟨c, here, noBlank⟩ := trims.starts
  have before := Nat.lt_of_lt_of_le trims.nonempty trims.le_last
  have blankHere := blank c (mem_cut trims.first_le before here)
  rw [noBlank] at blankHere
  cases blankHere

end TextRange.Trims

/-! ## What is found -/

namespace IsAssignment

variable
  {text : List Char}
  {offset sign semicolon : Nat}
  (assignment : IsAssignment text offset sign semicolon)

include assignment

/-- What is found between the sign and the semicolon. -/
theorem assignedRange?_eq :
    let whole := ({ start := sign + 1, stop := semicolon } : TextRange).cut text
    let start := sign + 1 + (whole.takeWhile Text.isBlank).length
    assignedRange? text offset =
      if (Text.trimBlanks whole).length = 0 then
        none
      else
        some { start := start, stop := start + (Text.trimBlanks whole).length } := by
  obtain ⟨decides, assigns, terminates⟩ := assignment
  obtain ⟨inside, -⟩ := List.getElem?_eq_some_iff.mp assigns
  have behind := (behindAssignment?_eq_some_iff text offset _).mpr ⟨sign, decides, assigns, rfl⟩
  have upTo := (upToSemicolon?_eq_some_iff text (sign + 1) _).mpr ⟨semicolon, terminates, rfl⟩
  have fromSign : text.length - (text.drop (sign + 1)).length = sign + 1 := by
    rw [List.length_drop]
    omega
  rw [assignedRange?, behind]
  simp only [upTo, fromSign]

/-- What stands between the sign and the semicolon is cut out of the text. -/
theorem exists_parts :
    ∃ front whole behind,
      ({ start := sign + 1, stop := semicolon } : TextRange).cut text = whole ∧
        text = front ++ (whole ++ behind) ∧
          front.length = sign + 1 ∧ front.length + whole.length = semicolon := by
  obtain ⟨-, -, ⟨notBefore, found⟩, -⟩ := assignment
  obtain ⟨inside, -⟩ := List.getElem?_eq_some_iff.mp found
  refine ⟨text.take (sign + 1), _, text.drop semicolon, rfl, ?_, ?_, ?_⟩
  · have upTo := List.take_append_drop (sign + 1) (text.take semicolon)
    rw [List.take_take, Nat.min_eq_left notBefore] at upTo
    rw [TextRange.cut, ← List.append_assoc, upTo, List.take_append_drop]
  · exact List.length_take_of_le (Nat.le_trans notBefore (Nat.le_of_lt inside))
  · simp only [TextRange.cut, List.length_drop, List.length_take]
    omega

/-- What is found is what stands between the sign and the semicolon, trimmed. -/
theorem trims
    {range : TextRange}
    (found : assignedRange? text offset = some range) :
    range.Trims text (sign + 1) semicolon := by
  obtain ⟨front, whole, behind, cut, shape, fromSign, upTo⟩ := assignment.exists_parts
  obtain ⟨tail, parts, blankTail, starts, stops⟩ := exists_trimmed whole
  rw [assignment.assignedRange?_eq, cut, ← fromSign] at found
  split at found
  · cases found
  · next size =>
      cases found
      have nonempty : Text.trimBlanks whole ≠ [] := mt List.length_eq_zero_iff.mpr size
      have blankMargin : ∀ c ∈ whole.takeWhile Text.isBlank, Text.isBlank c = true :=
        fun _ => List.mem_takeWhile_imp
      have trims :=
        @trims_of_parts front _ _ tail behind nonempty blankMargin blankTail starts stops
      rw [← List.append_assoc (Text.trimBlanks whole), ← List.append_assoc (whole.takeWhile _),
        ← parts, ← shape, upTo, fromSign] at trims
      rwa [fromSign]

/-- If nothing is found, only blanks stand between the sign and the semicolon. -/
theorem isBlankBetween
    (missing : assignedRange? text offset = none) :
    IsBlankBetween text (sign + 1) semicolon := by
  rw [assignment.assignedRange?_eq] at missing
  obtain ⟨tail, parts, blankTail, -, -⟩ :=
    exists_trimmed (({ start := sign + 1, stop := semicolon } : TextRange).cut text)
  split at missing
  · next size =>
      rw [List.length_eq_zero_iff.mp size, List.nil_append] at parts
      intro c member
      rw [parts] at member
      rcases List.mem_append.mp member with inFront | inTail
      · exact List.mem_takeWhile_imp inFront
      · exact blankTail c inTail
  · cases missing

end IsAssignment

/-- What is found is assigned. -/
theorem exists_isAssignment
    {text : List Char}
    {offset : Nat}
    {range : TextRange}
    (found : assignedRange? text offset = some range) :
    ∃ sign semicolon, IsAssignment text offset sign semicolon := by
  unfold assignedRange? at found
  simp only at found
  split at found
  · cases found
  · next behind assigns =>
      obtain ⟨sign, decides, isSign, rfl⟩ :=
        (behindAssignment?_eq_some_iff text offset behind).mp assigns
      split at found
      · cases found
      · next whole ends =>
          obtain ⟨semicolon, terminates, -⟩ :=
            (upToSemicolon?_eq_some_iff text (sign + 1) whole).mp ends
          exact ⟨sign, semicolon, decides, isSign, terminates⟩

/--
The search for a right-hand side finds what its description says: the first
character that decides has to assign, a semicolon has to follow, and what
stands between them is found without the blanks around it. Without such a sign
and semicolon, or with blanks alone between them, nothing is found.
-/
theorem assignedRange?_described
    (text : List Char)
    (offset : Nat) :
    (∀ range,
        assignedRange? text offset = some range ↔
          ∃ sign semicolon,
            IsAssignment text offset sign semicolon ∧
              range.Trims text (sign + 1) semicolon) ∧
      (assignedRange? text offset = none ↔
        ∀ sign semicolon,
          IsAssignment text offset sign semicolon →
            IsBlankBetween text (sign + 1) semicolon) := by
  refine ⟨fun range => ⟨?_, ?_⟩, ⟨?_, ?_⟩⟩
  · intro found
    obtain ⟨sign, semicolon, assignment⟩ := exists_isAssignment found
    exact ⟨sign, semicolon, assignment, assignment.trims found⟩
  · rintro ⟨sign, semicolon, assignment, trims⟩
    cases found : assignedRange? text offset with
    | none => exact absurd (assignment.isBlankBetween found) trims.not_isBlankBetween
    | some other => exact congrArg some ((assignment.trims found).unique trims)
  · exact fun missing _ _ assignment => assignment.isBlankBetween missing
  · intro blank
    cases found : assignedRange? text offset with
    | none => rfl
    | some range =>
        obtain ⟨sign, semicolon, assignment⟩ := exists_isAssignment found
        exact absurd (blank sign semicolon assignment)
          (assignment.trims found).not_isBlankBetween

/--
A search that starts within a comparison passes it and finds the assignment
behind; with a blank alone between sign and semicolon nothing is found.
-/
theorem assignedRange?_described_comparison :
    (∃ sign semicolon,
        IsAssignment ['=', '=', '=', ' ', '=', ' ', '5', '\n', ';'] 1 sign semicolon ∧
          TextRange.Trims { start := 6, stop := 7 }
            ['=', '=', '=', ' ', '=', ' ', '5', '\n', ';'] (sign + 1) semicolon) ∧
      IsAssignment ['a', '=', ' ', ';'] 0 1 3 ∧ IsBlankBetween ['a', '=', ' ', ';'] 2 3 := by
  have assignment : IsAssignment ['a', '=', ' ', ';'] 0 1 3 := {
    decides := by
      refine ⟨⟨Nat.zero_le 1, .inr ((assignsAt_iff rfl).mpr rfl)⟩, ?_⟩
      rintro place ⟨-, decides⟩
      cases place with
      | zero =>
          rcases decides with ends | assigns
          · cases (endsAt_iff rfl).mp ends
          · cases (assignsAt_iff rfl).mp assigns
      | succ place => exact Nat.succ_le_succ (Nat.zero_le place)
    assigns := rfl
    terminates := by
      refine ⟨⟨Nat.le_succ 2, rfl⟩, ?_⟩
      rintro place ⟨notBefore, found⟩
      refine Nat.lt_of_le_of_ne notBefore ?_
      rintro rfl
      cases found
  }
  exact ⟨((assignedRange?_described _ 1).1 _).mp (by decide +kernel), assignment,
    (assignedRange?_described _ 0).2.mp (by decide +kernel) 1 3 assignment⟩

end PlanarExpr.Document
