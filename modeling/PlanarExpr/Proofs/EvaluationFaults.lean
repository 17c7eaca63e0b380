import PlanarExpr.Proofs.HostAnswers

namespace PlanarExpr

/-!
# When an evaluation stops with a fault

Built-in operations may fail, but an evaluation goes on without their value.
What is left are the answers of the host: an evaluation stops exactly if it
asks a question that is answered with an integer that is too large for a
floating point number, and that is the fault it stops with.
-/

/-- A question to which the host answers with an integer that is too large. -/
def Surroundings.Overflows
    (surroundings : Surroundings)
    (question : Int × Int) :
    Prop :=
  ∃ host ∈ surroundings.host, (host question.1 question.2).Overflows

/--
A step asks some questions, and it stops exactly if one of them is answered
with an integer that is too large.
-/
def Evaluation.FaultsByOverflow
    (surroundings : Surroundings)
    (step : Evaluation α) :
    Prop :=
  ∀ session, ∃ asked,
    (step session).2.queries = session.queries ++ asked ∧
      ∀ fault,
        (step session).1 = .error fault ↔
          fault = .integerTooLarge ∧
            ∃ question ∈ asked, surroundings.Overflows question

namespace Evaluation.FaultsByOverflow

variable {surroundings : Surroundings}

/-- A step that always goes well and asks nothing never stops. -/
theorem of_silent
    {step : Evaluation α}
    (silent :
      ∀ session, ∃ result later,
        step session = (.ok result, later) ∧ later.queries = session.queries) :
    step.FaultsByOverflow surroundings := by
  intro session
  obtain ⟨result, later, runs, sameQueries⟩ := silent session
  refine ⟨[], ?_, ?_⟩
  · rw [runs, List.append_nil]
    exact sameQueries
  · intro fault
    rw [runs]
    simp

/-- One step after another stops as soon as the first or the second of them does. -/
theorem bind
    {step : Evaluation α}
    {next : α → Evaluation β}
    (first : step.FaultsByOverflow surroundings)
    (second : ∀ result, (next result).FaultsByOverflow surroundings) :
    (step >>= next).FaultsByOverflow surroundings := by
  intro session
  obtain ⟨asked, grown, faults⟩ := first session
  rw [bind_apply]
  rcases runs : step session with ⟨fault | result, middle⟩
  · rw [runs] at grown faults
    refine ⟨asked, grown, ?_⟩
    intro stopped
    have sameFault := faults stopped
    rw [Except.error.injEq] at sameFault
    rw [← sameFault, Except.error.injEq]
  · rw [runs] at grown faults
    -- The first step had a result, so none of its answers was too large.
    have none : ¬ ∃ question ∈ asked, surroundings.Overflows question := by
      intro overflow
      cases (faults .integerTooLarge).mpr ⟨rfl, overflow⟩
    obtain ⟨askedLater, grownLater, faultsLater⟩ := second result middle
    refine ⟨asked ++ askedLater, ?_, ?_⟩
    · rw [grownLater, grown, List.append_assoc]
    · intro fault
      rw [faultsLater fault]
      refine and_congr_right fun _ => ?_
      constructor
      · rintro ⟨question, member, overflow⟩
        exact ⟨question, List.mem_append_right asked member, overflow⟩
      · rintro ⟨question, member, overflow⟩
        rcases List.mem_append.mp member with early | late
        · exact (none ⟨question, early, overflow⟩).elim
        · exact ⟨question, late, overflow⟩

/-- Asking stops exactly if the answer is an integer that is too large. -/
theorem ask
    (surroundings : Surroundings)
    (start stop : Int) :
    (surroundings.ask start stop).FaultsByOverflow surroundings := by
  obtain ⟨answering, source⟩ := surroundings
  cases answering with
  | none =>
      exact of_silent fun session => ⟨none, session, rfl, rfl⟩
  | some host =>
      intro session
      obtain ⟨records, asked⟩ :=
        Surroundings.ask_apply host source start stop session
      refine ⟨[(start, stop)], ?_, ?_⟩
      · rw [asked]
        rfl
      · intro fault
        rw [asked, Reply.value_eq_error_iff]
        simp [Surroundings.Overflows]

end Evaluation.FaultsByOverflow

/-- Every step of an evaluation stops only by an integer that is too large. -/
def Correspondence.faultsByOverflow
    (surroundings : Surroundings) :
    Correspondence surroundings surroundings where
  Related step _ := step.FaultsByOverflow surroundings
  pure result := .of_silent fun session => ⟨result, session, rfl, rfl⟩
  bind first second := first.bind second
  report record := .of_silent fun session => ⟨(), _, rfl, rfl⟩
  calculate calculation := .of_silent fun session => ⟨_, _, rfl, rfl⟩
  noteUnresolved name := by
    refine .of_silent fun session => ⟨(), _, rfl, ?_⟩
    change (session.noteUnresolved name).queries = session.queries
    unfold Session.noteUnresolved
    split <;> rfl
  ask start stop := .ask surroundings start stop

/-- The evaluation of an expression stops exactly by an answer that is too large. -/
theorem Expression.evaluate_eq_error_iff
    (expression : Expression)
    (surroundings : Surroundings)
    (fault : Fault) :
    let report := expression.evaluate surroundings
    report.outcome = .error fault ↔
      fault = .integerTooLarge ∧
        ∃ question ∈ report.queries, surroundings.Overflows question := by
  intro report
  obtain ⟨asked, grown, faults⟩ :=
    (Correspondence.faultsByOverflow surroundings).expression expression .empty
  have queries : report.queries = asked := grown
  rw [queries, ← faults]
  change
    ((surroundings.expression expression .empty).1.map _) = .error fault ↔ _
  rcases (surroundings.expression expression .empty).1 with stopped | value <;>
    simp [Except.map]

/--
A text is evaluated to a result, unless the evaluation asks its host a question
that is answered with an integer too large for a floating point number. Then
it stops, and with no other fault than that one.
-/
theorem evaluateText_eq_error_iff
    (text : List Char)
    (host : Option Host)
    (fault : Fault) :
    let report := evaluateText text host
    report.outcome = .error fault ↔
      fault = .integerTooLarge ∧
        ∃ answering ∈ host, ∃ question ∈ report.queries,
          (answering question.1 question.2).Overflows := by
  intro report
  rcases evaluateText_cases text with
    ⟨diagnostics, message, rejected⟩ | ⟨expression, _, _, evaluated⟩
  · obtain ⟨noQueries, hasResult⟩ := rejected host
    simp [report, noQueries, hasResult]
  · simp only [report, evaluated]
    refine (expression.evaluate_eq_error_iff _ fault).trans ?_
    refine and_congr_right fun _ => ?_
    constructor
    · rintro ⟨question, asked, answering, isHost, overflow⟩
      exact ⟨answering, isHost, question, asked, overflow⟩
    · rintro ⟨answering, isHost, question, asked, overflow⟩
      exact ⟨question, asked, answering, isHost, overflow⟩

/-- A single name has no result if the host answers with `10 ^ 400`. -/
theorem evaluateText_stops_by_overflow :
    let host : Host :=
      fun _ _ => .object (.scalar (.integer (.ofNat (Nat.pow 10 400))))
    ¬ ∃ result, (evaluateText ['a'] (some host)).outcome = .ok result := by
  rintro host ⟨result, evaluated⟩
  have noResult : (evaluateText ['a'] (some host)).outcome.toBool = false := by
    decide +kernel
  rw [evaluated] at noResult
  cases noResult

end PlanarExpr
