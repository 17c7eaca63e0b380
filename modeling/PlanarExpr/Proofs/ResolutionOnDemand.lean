import PlanarExpr.Proofs.EvaluationFaults
import PlanarExpr.Proofs.Questions
import PlanarExpr.Proofs.ResolutionDepth

namespace PlanarExpr

/-!
# Resolving all names or those asked about

A resolution that is never cancelled gives what is found on demand. That is
well defined: an evaluation asks only about ranges that end with exactly one
name, and answers that are values never stop it.
-/

open Document

/-- The one name of an excerpt that ends at an offset. -/
structure Document.Excerpt.EndsWith
    (excerpt : Excerpt)
    (stop : Int)
    (name : Token) :
    Prop where
  isName : name ∈ (Lexed.ofText excerpt.text).stream.names
  ends : (name.stopOffset : Int) = stop
  only :
    ∀ other ∈ (Lexed.ofText excerpt.text).stream.names,
      (other.stopOffset : Int) = stop → other = name

/-- The name that ends at an offset is the one that is looked up there. -/
theorem Document.Excerpt.EndsWith.nameEndingAt?_eq
    {excerpt : Excerpt}
    {stop : Int}
    {name : Token}
    (endsWith : excerpt.EndsWith stop name) :
    excerpt.nameEndingAt? stop = some name := by
  obtain ⟨isName, ends, only⟩ := endsWith
  unfold Excerpt.nameEndingAt?
  cases found :
      (Lexed.ofText excerpt.text).stream.names.find? fun name =>
        (name.stopOffset : Int) = stop with
  | none =>
      have endsNot := List.find?_eq_none.mp found name isName
      exact absurd (decide_eq_true ends) endsNot
  | some other =>
      have otherEnds : (other.stopOffset : Int) = stop := by
        simpa using List.find?_some found
      rw [only other (List.mem_of_find?_eq_some found) otherEnds]

/-- What answers with values never stops an evaluation. -/
theorem Document.Excerpt.exists_report_outcome
    (excerpt : Excerpt)
    (answer? : Int → Option Value) :
    ∃ result, (excerpt.report answer?).outcome = .ok result := by
  cases stopped : (excerpt.report answer?).outcome with
  | ok result => exact ⟨result, rfl⟩
  | error fault =>
      obtain ⟨-, answering, isHost, question, -, tooLarge, answered, -⟩ :=
        (evaluateText_eq_error_iff _ _ fault).mp stopped
      cases isHost
      unfold Host.ofAnswers at answered
      cases known : answer? question.2 <;> rw [known] at answered <;> cases answered

namespace Resolver

/--
A resolution that is never cancelled gives the value that is found when each
name is resolved on demand. There the evaluation of an excerpt is never
stopped, and each range that it asks about ends with one name of the excerpt
and no other, the one that is looked up for it.
-/
theorem run_eq_valueOnDemand
    {resolver : Resolver}
    (neverCancelled : resolver.NeverCancelled)
    (depth : Int)
    (excerpt : Excerpt) :
    let report := excerpt.report (resolver.answerOnDemand? depth.toNat excerpt)
    (resolver.run depth excerpt).1 = resolver.valueOnDemand depth.toNat excerpt ∧
      (∃ result, report.outcome = .ok result) ∧
        ∀ question ∈ report.queries,
          ∃ name,
            excerpt.EndsWith question.2 name ∧
              excerpt.nameEndingAt? question.2 = some name := by
  intro report
  refine ⟨resolve_value neverCancelled depth.toNat excerpt .empty,
    excerpt.exists_report_outcome _, ?_⟩
  intro question asked
  obtain ⟨name, isName, ends, only⟩ := exists_name_of_query asked
  have endsWith : excerpt.EndsWith question.2 name := ⟨isName, ends, only⟩
  exact ⟨name, endsWith, endsWith.nameEndingAt?_eq⟩

/-- On demand the member is resolved in one hop, and in two the name in front of it. -/
theorem valueOnDemand_twoReadings :
    twoReadings.NeverCancelled ∧
      twoReadings.valueOnDemand 1 twoReadingsExcerpt = .number 5 ∧
        (twoReadings.run 1 twoReadingsExcerpt).1 =
          twoReadings.valueOnDemand 1 twoReadingsExcerpt := by
  have neverCancelled : twoReadings.NeverCancelled := fun _ => rfl
  exact
    ⟨neverCancelled, by decide +kernel,
      (run_eq_valueOnDemand neverCancelled 1 twoReadingsExcerpt).1⟩

end Resolver

end PlanarExpr
