import PlanarExpr.Proofs.CleanTexts

namespace PlanarExpr

/-!
# The displayed line of a place

A place counts the line feeds in front of it, while a text is displayed with
more kinds of line breaks. As long as no other break stands in front of a
place, the displayed line with its number is the one that the place is on, and
its column is where it stands there. One other break, and the line displayed is
one that ends in front of the place.
-/

open Source

/-- Passing a text leads to no earlier line. -/
theorem Source.Place.line_le_after
    (place : Place)
    (text : List Char) :
    place.line ≤ (place.after text).line := by
  induction text generalizing place with
  | nil => exact Nat.le_refl _
  | cons c rest inductionHypothesis =>
      refine Nat.le_trans ?_ (inductionHypothesis (place.step c))
      rw [Place.step]
      split
      · exact Nat.le_succ _
      · exact Nat.le_refl _

namespace Text

/-- Whether a text has a line break other than a line feed or the carriage return before one. -/
def hasOtherBreak : List Char → Bool
  | [] => false
  | '\r' :: '\n' :: rest => hasOtherBreak rest
  | c :: rest => (c != '\n' && isLineBreak c) || hasOtherBreak rest

/-- Every character that ends a displayed line is blank. -/
theorem isLineBreak_of_not_isBlank
    {c : Char}
    (noBlank : isBlank c = false) :
    isLineBreak c = false := by
  simp only [isBlank, blankRanges, inRanges, CodeRange.contains, List.any_cons, List.any_nil,
    Bool.or_eq_false_iff, Bool.and_eq_false_iff, decide_eq_false_iff_not] at noBlank
  simp only [isLineBreak, Bool.or_eq_false_iff, Bool.and_eq_false_iff, decide_eq_false_iff_not,
    beq_eq_false_iff_ne]
  omega

/--
The lines that a text ends in front of more text, and the characters of the
next line that it begins, last one first. A place that passes the text counts
no more lines than that, and as many if there is no other break.
-/
structure EndsLines
    (place : Place)
    (current before rest : List Char)
    (ended : List (List Char))
    (begun : List Char) :
    Prop where
  lines :
    displayLinesFrom current (before ++ rest) = ended ++ displayLinesFrom begun rest
  within : ∀ line ∈ ended, line <:+: current.reverse ++ before
  not_fewer : (place.after before).line ≤ place.line + ended.length
  more :
    hasOtherBreak before = true → (place.after before).line < place.line + ended.length
  same :
    hasOtherBreak before = false →
      (place.after before).line = place.line + ended.length ∧
        (place.column = current.length + 1 →
          (place.after before).column = begun.length + 1)

/-- A line that ends in front of later text is one more line. -/
theorem EndsLines.behind_break
    {place : Place}
    {current later rest : List Char}
    {ended : List (List Char)}
    {begun : List Char}
    (lineBreak : List Char)
    (ends : EndsLines (place.after lineBreak) [] later rest ended begun)
    (breaks :
      displayLinesFrom current (lineBreak ++ (later ++ rest)) =
        current.reverse :: displayLinesFrom [] (later ++ rest))
    (counted :
      (place.after lineBreak).line = place.line + 1 ∧
          (place.after lineBreak).column = 1 ∧
          hasOtherBreak (lineBreak ++ later) = hasOtherBreak later ∨
        (place.after lineBreak).line = place.line ∧
          hasOtherBreak (lineBreak ++ later) = true) :
    EndsLines place current (lineBreak ++ later) rest (current.reverse :: ended) begun := by
  have passes : place.after (lineBreak ++ later) = (place.after lineBreak).after later :=
    Place.after_append place lineBreak later
  have notFewer := ends.not_fewer
  refine ⟨?_, ?_, ?_, ?_, ?_⟩
  · rw [List.append_assoc, breaks, ends.lines, List.cons_append]
  · refine List.forall_mem_cons.mpr ⟨(List.prefix_append _ _).isInfix, fun line member => ?_⟩
    have inLater := ends.within line member
    rw [List.reverse_nil, List.nil_append] at inLater
    exact inLater.trans
      ((List.suffix_append _ _).trans (List.suffix_append _ _)).isInfix
  · rw [passes, List.length_cons]
    omega
  · intro other
    rw [passes, List.length_cons]
    rcases counted with ⟨line, -, sameBreaks⟩ | ⟨line, -⟩
    · have fewer := ends.more (sameBreaks ▸ other)
      omega
    · omega
  · intro noOther
    rcases counted with ⟨line, column, sameBreaks⟩ | ⟨-, other⟩
    · obtain ⟨sameLine, sameColumn⟩ := ends.same (sameBreaks ▸ noOther)
      rw [passes, List.length_cons]
      exact ⟨by omega, fun _ => sameColumn column⟩
    · rw [other] at noOther
      cases noOther

/-- A character that breaks no line only makes the current line longer. -/
theorem EndsLines.behind_unbroken
    {place : Place}
    {c : Char}
    {current later rest : List Char}
    {ended : List (List Char)}
    {begun : List Char}
    (ends : EndsLines (place.after [c]) (c :: current) later rest ended begun)
    (goesOn :
      displayLinesFrom current (c :: (later ++ rest)) =
        displayLinesFrom (c :: current) (later ++ rest))
    (noFeed : c ≠ '\n')
    (sameBreaks : hasOtherBreak (c :: later) = hasOtherBreak later) :
    EndsLines place current (c :: later) rest ended begun := by
  refine ⟨goesOn.trans ends.lines, ?_, ?_, ?_, ?_⟩
  · simpa using ends.within
  · simpa [Place.step, noFeed] using ends.not_fewer
  · simpa [Place.step, noFeed, sameBreaks] using ends.more
  · simpa [Place.step, noFeed, sameBreaks] using ends.same

/-- Every text ends some lines and begins one. -/
theorem exists_endsLines
    {rest : List Char}
    (noFeed : rest.head? ≠ some '\n')
    (place : Place)
    (current before : List Char) :
    ∃ ended begun, EndsLines place current before rest ended begun := by
  fun_induction hasOtherBreak before generalizing place current with
  | case1 =>
      refine ⟨[], current, rfl, List.forall_mem_nil _, Nat.le_refl _, nofun, fun _ => ⟨rfl, ?_⟩⟩
      exact fun column => column
  | case2 later inductionHypothesis =>
      -- A carriage return and the line feed behind it end one line together.
      obtain ⟨ended, begun, ends⟩ := inductionHypothesis (place.after ['\r', '\n']) []
      exact ⟨_, begun, .behind_break ['\r', '\n'] ends rfl (.inl ⟨rfl, rfl, rfl⟩)⟩
  | case3 c later single inductionHypothesis =>
      -- The text goes on without a line feed, so no pair is torn apart at its end.
      have alone : ∀ more, c = '\r' → later ++ rest = '\n' :: more → False := by
        intro more isReturn feeds
        cases later with
        | nil =>
            rw [List.nil_append] at feeds
            exact noFeed (by rw [feeds]; rfl)
        | cons next further =>
            obtain ⟨isFeed, -⟩ := List.cons.inj feeds
            exact single further isReturn (by rw [isFeed])
      have displayed :
          displayLinesFrom current (c :: (later ++ rest)) =
            if isLineBreak c then
              current.reverse :: displayLinesFrom [] (later ++ rest)
            else
              displayLinesFrom (c :: current) (later ++ rest) := by
        rw [displayLinesFrom]
        exact alone
      have other :
          hasOtherBreak (c :: later) = ((c != '\n' && isLineBreak c) || hasOtherBreak later) := by
        rw [hasOtherBreak]
        exact single
      cases breaks : isLineBreak c with
      | true =>
          obtain ⟨ended, begun, ends⟩ := inductionHypothesis (place.after [c]) []
          rw [if_pos breaks] at displayed
          refine ⟨_, begun, .behind_break [c] ends displayed ?_⟩
          by_cases feeds : c = '\n'
          · subst feeds
            exact .inl ⟨rfl, rfl, other⟩
          · refine .inr ⟨?_, ?_⟩
            · simp [Place.step, feeds]
            · simp [other, feeds, breaks]
      | false =>
          obtain ⟨ended, begun, ends⟩ := inductionHypothesis (place.after [c]) (c :: current)
          have noFeedHere : c ≠ '\n' := by
            rintro rfl
            cases breaks
          rw [if_neg (by simp [breaks])] at displayed
          exact ⟨ended, begun,
            .behind_unbroken ends displayed noFeedHere (by simp [other, breaks])⟩

/-- Characters that break no line are put to the current one. -/
theorem displayLinesFrom_run
    {run : List Char}
    (unbroken : ∀ c ∈ run, isLineBreak c = false)
    (current rest : List Char) :
    displayLinesFrom current (run ++ rest) = displayLinesFrom (run.reverse ++ current) rest := by
  induction run generalizing current with
  | nil => rfl
  | cons c later inductionHypothesis =>
      obtain ⟨noBreak, laterUnbroken⟩ := List.forall_mem_cons.mp unbroken
      have noReturn : ∀ more, c = '\r' → later ++ rest = '\n' :: more → False := by
        rintro more rfl _
        cases noBreak
      rw [List.cons_append, displayLinesFrom, if_neg (by simp [noBreak]),
        inductionHypothesis laterUnbroken]
      · simp
      · exact noReturn

/-- The current line goes on if it is not empty, and is the first one displayed. -/
theorem exists_first_displayed
    {current : List Char}
    (nonempty : current ≠ [])
    (rest : List Char) :
    ∃ more later, displayLinesFrom current rest = (current.reverse ++ more) :: later := by
  fun_induction displayLinesFrom current rest with
  | case1 current empty => exact absurd (List.isEmpty_iff.mp empty) nonempty
  | case2 current _ => exact ⟨[], [], by rw [List.append_nil]⟩
  | case3 current later => exact ⟨[], _, by rw [List.append_nil]⟩
  | case4 current c later _ _ => exact ⟨[], _, by rw [List.append_nil]⟩
  | case5 current c later _ _ inductionHypothesis =>
      obtain ⟨more, lines, shape⟩ := inductionHypothesis (List.cons_ne_nil _ _)
      refine ⟨c :: more, lines, ?_⟩
      rw [shape, List.reverse_cons, List.append_assoc]
      rfl

section

variable
  {before run : List Char}
  (behind : List Char)
  (nonempty : run ≠ [])
  (unbroken : ∀ c ∈ run, isLineBreak c = false)

include nonempty unbroken

/-- What stands behind the text in front is no line feed. -/
theorem exists_endsLines_run :
    ∃ ended begun, EndsLines Place.start [] before (run ++ behind) ended begun := by
  obtain ⟨c, later, rfl⟩ := List.exists_cons_of_ne_nil nonempty
  apply exists_endsLines
  intro feeds
  obtain rfl := Option.some.inj feeds
  have breaks := unbroken _ List.mem_cons_self
  cases breaks

/-- Behind line feeds alone, characters stand in the displayed line at their column. -/
theorem exists_displayLine?_of_run
    (noOther : hasOtherBreak before = false) :
    ∃ margin more,
      displayLine? (before ++ (run ++ behind)) (Place.start.after before).line =
          some (margin ++ (run ++ more)) ∧
        (Place.start.after before).column = margin.length + 1 := by
  obtain ⟨ended, begun, ends⟩ := exists_endsLines_run behind nonempty unbroken
  obtain ⟨line, column⟩ := ends.same noOther
  have goesOn : run.reverse ++ begun ≠ [] := by simp [nonempty]
  obtain ⟨more, later, shape⟩ := exists_first_displayed goesOn behind
  have lines := ends.lines
  rw [displayLinesFrom_run unbroken, shape] at lines
  refine ⟨begun.reverse, more, ?_, ?_⟩
  · have number : (Place.start.after before).line = ended.length + 1 :=
      line.trans (Nat.add_comm _ _)
    rw [displayLine?, number, if_neg (Nat.succ_ne_zero _), displayLines, lines,
      Nat.add_sub_cancel, List.getElem?_append_right (Nat.le_refl _), Nat.sub_self]
    simp
  · rw [column rfl, List.length_reverse]

/-- Behind another break, the displayed line is one of the text in front. -/
theorem exists_displayLine?_in_front
    (other : hasOtherBreak before = true) :
    ∃ line,
      displayLine? (before ++ (run ++ behind)) (Place.start.after before).line = some line ∧
        line <:+: before := by
  obtain ⟨ended, begun, ends⟩ := exists_endsLines_run behind nonempty unbroken
  have fewer : (Place.start.after before).line < 1 + ended.length := ends.more other
  have positive : 1 ≤ (Place.start.after before).line := Place.start.line_le_after before
  have inside : (Place.start.after before).line - 1 < ended.length := by omega
  refine ⟨_, ?_, ends.within _ (List.getElem_mem inside)⟩
  have lines : displayLines (before ++ (run ++ behind)) = _ := ends.lines
  rw [displayLine?, if_neg (Nat.ne_of_gt positive), lines,
    List.getElem?_append_left inside, List.getElem?_eq_getElem inside]

end

end Text

end PlanarExpr
