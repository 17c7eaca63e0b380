import PlanarExpr.Document.Library
import PlanarExpr.Proofs.HostAgreement
import PlanarExpr.Proofs.OnDemand

namespace PlanarExpr

/-!
# Resolving with more depth

A deeper resolution finds values for more names. A name that waited for its
members before may then be a receiver of its own, so the value of a chain can
change. That is the only way: as long as no range that was asked about in vain
gets a value, a deeper resolution has the same value.
-/

open Document

namespace Resolver

/-- The ranges that the evaluation of an excerpt asks about at a depth. -/
def questionsOnDemand
    (resolver : Resolver)
    (depth : Nat)
    (excerpt : Excerpt) :
    List (Int × Int) :=
  (excerpt.report (resolver.answerOnDemand? depth excerpt)).queries

/-- The deeper evaluation of an excerpt answers nothing that was asked in vain before. -/
def GainsNothing
    (resolver : Resolver)
    (depth deeper : Nat)
    (excerpt : Excerpt) :
    Prop :=
  ∀ question ∈ resolver.questionsOnDemand depth excerpt,
    resolver.answerOnDemand? depth excerpt question.2 = none →
      resolver.answerOnDemand? deeper excerpt question.2 = none

/--
Nothing that was asked in vain is answered with more depth: not in the
excerpt, and not in any right-hand side whose value it asked for.
-/
def Settled (resolver : Resolver) : Nat → Nat → Excerpt → Prop
  | 0, deeper, excerpt => resolver.GainsNothing 0 deeper excerpt
  | depth + 1, deeper, excerpt =>
      resolver.GainsNothing (depth + 1) deeper excerpt ∧
        ∀ question ∈ resolver.questionsOnDemand (depth + 1) excerpt,
          ∀ name ∈ excerpt.nameEndingAt? question.2,
            ∀ assigned ∈ resolver.rightHandSide? excerpt name,
              (resolver.valueOnDemand depth assigned).isLive = true →
                Settled resolver depth (deeper - 1) assigned

instance decidableGainsNothing
    (resolver : Resolver)
    (depth deeper : Nat)
    (excerpt : Excerpt) :
    Decidable (resolver.GainsNothing depth deeper excerpt) :=
  inferInstanceAs (Decidable (∀ _ ∈ _, _ → _))

instance decidableSettled
    (resolver : Resolver) :
    (depth deeper : Nat) →
    (excerpt : Excerpt) →
    Decidable (resolver.Settled depth deeper excerpt)
  | 0, deeper, excerpt =>
      inferInstanceAs (Decidable (resolver.GainsNothing 0 deeper excerpt))
  | depth + 1, deeper, _ =>
      have := decidableSettled resolver depth (deeper - 1)
      inferInstanceAs (Decidable (_ ∧ ∀ _ ∈ _, ∀ _ ∈ _, ∀ _ ∈ _, _ → _))

/-- In a settled excerpt nothing is gained. -/
theorem Settled.gainsNothing
    {resolver : Resolver}
    {depth deeper : Nat}
    {excerpt : Excerpt}
    (settled : resolver.Settled depth deeper excerpt) :
    resolver.GainsNothing depth deeper excerpt := by
  cases depth with
  | zero => exact settled
  | succ depth => exact settled.1

/-- An answer is the live value of the right-hand side of the name at the end of the range. -/
theorem answer?_eq_some_iff
    {resolver : Resolver}
    {valueOf : Excerpt → Value}
    {excerpt : Excerpt}
    {stop : Int}
    {value : Value} :
    resolver.answer? valueOf excerpt stop = some value ↔
      ∃ name assigned,
        excerpt.nameEndingAt? stop = some name ∧
          resolver.rightHandSide? excerpt name = some assigned ∧
            (valueOf assigned).isLive = true ∧ valueOf assigned = value := by
  simp only [answer?, liveValue?, Option.bind_eq_some_iff, Option.bind_eq_bind]
  constructor
  · rintro ⟨name, ends, assigned, found, answered⟩
    by_cases live : (valueOf assigned).isLive = true
    · rw [if_pos live] at answered
      exact ⟨name, assigned, ends, found, live, Option.some.inj answered⟩
    · rw [if_neg live] at answered
      cases answered
  · rintro ⟨name, assigned, ends, found, live, isValue⟩
    refine ⟨name, ends, assigned, found, ?_⟩
    rw [if_pos live, isValue]

/-- Excerpts have the same value with answers that agree on every question asked. -/
theorem valueWith_congr
    {excerpt : Excerpt}
    {first second : Int → Option Value}
    (agree :
      ∀ question ∈ (excerpt.report first).queries,
        first question.2 = second question.2) :
    excerpt.valueWith second = excerpt.valueWith first := by
  have alike :
      (excerpt.report second).outcome = (excerpt.report first).outcome := by
    refine (evaluateText_congr_host excerpt.text ?_).1
    intro question asked
    unfold Host.AgreeOn Host.ofAnswers
    rw [agree question asked]
  simp only [Excerpt.valueWith, Report.value, alike]

/-- A settled excerpt has the same value with more depth. -/
theorem valueOnDemand_eq_of_settled
    {resolver : Resolver}
    {depth deeper : Nat}
    {excerpt : Excerpt}
    (deepens : depth ≤ deeper)
    (settled : resolver.Settled depth deeper excerpt) :
    resolver.valueOnDemand deeper excerpt = resolver.valueOnDemand depth excerpt := by
  induction depth generalizing deeper excerpt with
  | zero =>
      rw [valueOnDemand_eq, valueOnDemand_eq]
      refine valueWith_congr ?_
      intro question asked
      exact (settled.gainsNothing question asked rfl).symm
  | succ depth inductionHypothesis =>
      obtain ⟨deeper, rfl⟩ : ∃ shallower, deeper = shallower + 1 :=
        ⟨deeper - 1, (Nat.succ_pred_eq_of_pos (Nat.lt_of_lt_of_le depth.succ_pos deepens)).symm⟩
      rw [valueOnDemand_eq, valueOnDemand_eq]
      refine valueWith_congr ?_
      intro question asked
      cases answered : resolver.answerOnDemand? (depth + 1) excerpt question.2 with
      | none =>
          exact (settled.gainsNothing question asked answered).symm
      | some value =>
          -- The answer is the value of a right-hand side that is settled itself.
          obtain ⟨name, assigned, ends, found, live, isValue⟩ :=
            answer?_eq_some_iff.mp answered
          have sameValue :
              resolver.valueOnDemand deeper assigned =
                resolver.valueOnDemand depth assigned :=
            inductionHypothesis (Nat.le_of_succ_le_succ deepens)
              (settled.2 question asked name ends assigned found live)
          refine (answer?_eq_some_iff.mpr ⟨name, assigned, ends, found, ?_, ?_⟩).symm
          · rw [sameValue]
            exact live
          · rw [sameValue]
            exact isValue

/--
A resolution that is never cancelled has the same value with more depth, if
nothing that it asked in vain is answered then.
-/
theorem run_eq_of_settled
    {resolver : Resolver}
    (neverCancelled : resolver.NeverCancelled)
    {depth deeper : Int}
    (deepens : depth ≤ deeper)
    {excerpt : Excerpt}
    (settled : resolver.Settled depth.toNat deeper.toNat excerpt) :
    (resolver.run deeper excerpt).1 = (resolver.run depth excerpt).1 := by
  have sameValue :=
    valueOnDemand_eq_of_settled (Int.toNat_le_toNat deepens) settled
  rw [← resolve_value neverCancelled deeper.toNat excerpt .empty,
    ← resolve_value neverCancelled depth.toNat excerpt .empty] at sameValue
  exact sameValue

/-! ## A chain with two readings -/

/-- Both a name and its member have a definition, and that of the name is further away. -/
def twoReadings : Resolver where
  definition location :=
    let line (number : Nat) : Location :=
      { uri := "D", position := { line := number, character := 0 } }
    let position := location.position
    .ofFinding
      (if position = { line := 0, character := 4 } then
        .found (line 1)
      else if position = { line := 0, character := 6 } then
        .found (line 2)
      else if position = { line := 1, character := 4 } then
        .found (line 3)
      else
        .nothing)
  assigned :=
    Library.read fun _ =>
      some "r = a.x;\na = b;\nx = 5;\nb = new Translation2d(1, 2);\n".toList
  isCancelled _ := false

/-- A name with a member behind a point. -/
def twoReadingsExcerpt : Excerpt :=
  { uri := "D", start := { line := 0, character := 4 }, text := "a.x".toList }

/--
With one hop the chain is the member's own right-hand side; with two it is the
member of the translation that the name stands for.
-/
theorem run_changes_with_depth :
    twoReadings.NeverCancelled ∧
      (twoReadings.run 1 twoReadingsExcerpt).1 = .number 5 ∧
        (twoReadings.run 2 twoReadingsExcerpt).1 = .number 1 :=
  ⟨fun _ => rfl, by decide +kernel, by decide +kernel⟩

/-- More depth can change a live value. -/
theorem run_not_monotone :
    ¬ ∀ (resolver : Resolver) (excerpt : Excerpt) (depth deeper : Int),
        resolver.NeverCancelled →
          depth ≤ deeper →
            (resolver.run depth excerpt).1.isLive = true →
              (resolver.run deeper excerpt).1 = (resolver.run depth excerpt).1 := by
  intro monotone
  obtain ⟨neverCancelled, shallow, deep⟩ := run_changes_with_depth
  have sameValue :=
    monotone twoReadings twoReadingsExcerpt 1 2 neverCancelled (by decide)
      (by rw [shallow]; rfl)
  rw [shallow, deep] at sameValue
  have differ : Value.number 1 ≠ .number 5 := by decide
  exact differ sameValue

/-- From two hops on the chain is settled. -/
theorem run_eq_of_settled_twoReadings :
    twoReadings.Settled 2 3 twoReadingsExcerpt ∧
      (twoReadings.run 3 twoReadingsExcerpt).1 =
        (twoReadings.run 2 twoReadingsExcerpt).1 := by
  have settled : twoReadings.Settled 2 3 twoReadingsExcerpt := by decide +kernel
  exact ⟨settled, run_eq_of_settled (fun _ => rfl) (by decide) settled⟩

end Resolver

end PlanarExpr
