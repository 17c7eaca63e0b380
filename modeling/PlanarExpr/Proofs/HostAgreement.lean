import PlanarExpr.Proofs.HostAnswers

namespace PlanarExpr

/-!
# Hosts that agree on what they are asked

An evaluation depends on its host only through the answers to the questions
that it asks. A second host whose answers to these stand for the same leads to
the same questions, the same names without a value and the same outcome.
-/

/-- The replies of two hosts to a question stand for the same. -/
def Host.AgreeOn
    (first second : Host)
    (question : Int × Int) :
    Prop :=
  (first question.1 question.2).value = (second question.1 question.2).value

/-- Two sessions with the same questions and the same names without a value. -/
def Session.SameApartFromLog (first second : Session) : Prop :=
  second.queries = first.queries ∧
    second.unresolvedNames = first.unresolvedNames

/--
Two steps that do the same, apart from what they log, as long as two hosts
agree on the questions that the first step asks.
-/
def Evaluation.AlikeUnder
    (agree : Int × Int → Prop)
    (step step' : Evaluation α) :
    Prop :=
  ∀ session session',
    session.SameApartFromLog session' →
      ∃ asked,
        (step session).2.queries = session.queries ++ asked ∧
          ((∀ question ∈ asked, agree question) →
            (step' session').1 = (step session).1 ∧
              (step session).2.SameApartFromLog (step' session').2)

namespace Evaluation.AlikeUnder

variable {agree : Int × Int → Prop}

/-- Two steps that ask nothing are alike if they do the same from like sessions. -/
theorem of_silent
    {step : Evaluation α}
    (silent :
      ∀ session session',
        session.SameApartFromLog session' →
          (step session).2.queries = session.queries ∧
            (step session').1 = (step session).1 ∧
              (step session).2.SameApartFromLog (step session').2) :
    step.AlikeUnder agree step := by
  intro session session' same
  obtain ⟨sameQueries, sameOutcome, sameLater⟩ := silent session session' same
  refine ⟨[], ?_, fun _ => ⟨sameOutcome, sameLater⟩⟩
  rw [sameQueries, List.append_nil]

/-- Steps that are alike one after the other are alike together. -/
theorem bind
    {step step' : Evaluation α}
    {next next' : α → Evaluation β}
    (first : step.AlikeUnder agree step')
    (second : ∀ result, (next result).AlikeUnder agree (next' result)) :
    (step >>= next).AlikeUnder agree (step' >>= next') := by
  intro session session' same
  obtain ⟨asked, grown, alike⟩ := first session session' same
  rcases runs : step session with ⟨fault | result, middle⟩
  · rw [runs] at grown alike
    refine ⟨asked, ?_, ?_⟩
    · rw [bind_apply, runs]
      exact grown
    · intro agreed
      obtain ⟨sameOutcome, sameMiddle⟩ := alike agreed
      rcases runs' : step' session' with ⟨outcome', middle'⟩
      rw [runs'] at sameOutcome sameMiddle
      cases sameOutcome
      rw [bind_apply, bind_apply, runs, runs']
      exact ⟨rfl, sameMiddle⟩
  · rw [runs] at grown alike
    -- What the second step asks is known before the hosts are known to agree.
    obtain ⟨askedLater, grownLater, _⟩ :=
      second result middle middle ⟨rfl, rfl⟩
    refine ⟨asked ++ askedLater, ?_, ?_⟩
    · rw [bind_apply, runs]
      change (next result middle).2.queries = _
      rw [grownLater, grown, List.append_assoc]
    · intro agreed
      obtain ⟨agreedEarly, agreedLate⟩ := List.forall_mem_append.mp agreed
      obtain ⟨sameOutcome, sameMiddle⟩ := alike agreedEarly
      rcases runs' : step' session' with ⟨outcome', middle'⟩
      rw [runs'] at sameOutcome sameMiddle
      cases sameOutcome
      rw [bind_apply, bind_apply, runs, runs']
      obtain ⟨askedAgain, grownAgain, alikeLater⟩ :=
        second result middle middle' sameMiddle
      have sameAsked : askedAgain = askedLater :=
        List.append_cancel_left (grownAgain.symm.trans grownLater)
      rw [sameAsked] at alikeLater
      exact alikeLater agreedLate

/-- A question is answered alike if the hosts agree on it. -/
theorem ask
    (first second : Host)
    (source : List Char)
    (start stop : Int) :
    (({ host := some first, source := source } : Surroundings).ask start stop).AlikeUnder
      (first.AgreeOn second)
      (({ host := some second, source := source } : Surroundings).ask start stop) := by
  intro session session' same
  obtain ⟨sameQueries, sameNames⟩ := same
  obtain ⟨records, asked⟩ := Surroundings.ask_apply first source start stop session
  obtain ⟨records', asked'⟩ := Surroundings.ask_apply second source start stop session'
  refine ⟨[(start, stop)], ?_, ?_⟩
  · rw [asked]
    rfl
  · intro agreed
    have agreedHere := agreed (start, stop) (List.mem_singleton_self _)
    rw [asked, asked']
    refine ⟨agreedHere.symm, ?_, sameNames⟩
    change session'.queries ++ [(start, stop)] = session.queries ++ [(start, stop)]
    rw [sameQueries]

end Evaluation.AlikeUnder

/-- Noting the same name in both sessions keeps them the same. -/
theorem Session.SameApartFromLog.noteUnresolved
    {session session' : Session}
    (same : session.SameApartFromLog session')
    (name : String) :
    (session.noteUnresolved name).queries = session.queries ∧
      (session.noteUnresolved name).SameApartFromLog
        (session'.noteUnresolved name) := by
  obtain ⟨sameQueries, sameNames⟩ := same
  unfold Session.noteUnresolved
  rw [sameNames]
  by_cases noted : session.unresolvedNames.contains name = true
  · rw [if_pos noted, if_pos noted]
    exact ⟨rfl, sameQueries, sameNames⟩
  · rw [if_neg noted, if_neg noted]
    exact ⟨rfl, sameQueries, rfl⟩

/-- Evaluations with two hosts are alike as long as the hosts agree. -/
def Correspondence.alike
    (first second : Host)
    (source : List Char) :
    Correspondence
      { host := some first, source := source }
      { host := some second, source := source } where
  Related step step' := step.AlikeUnder (first.AgreeOn second) step'
  pure _ := .of_silent fun _ _ same => ⟨rfl, rfl, same⟩
  bind first second := first.bind second
  report _ := .of_silent fun _ _ same => ⟨rfl, rfl, same⟩
  calculate _ := .of_silent fun _ _ same => ⟨rfl, rfl, same⟩
  noteUnresolved name :=
    .of_silent fun _ _ same =>
      ⟨(same.noteUnresolved name).1, rfl, (same.noteUnresolved name).2⟩
  ask start stop := .ask first second source start stop

/-- Expressions are evaluated alike with hosts that agree on what the first one is asked. -/
theorem Expression.evaluate_congr_host
    (expression : Expression)
    {source : List Char}
    {first second : Host}
    (agree :
      ∀ question ∈
          (expression.evaluate { host := some first, source := source }).queries,
        first.AgreeOn second question) :
    let report := expression.evaluate { host := some first, source := source }
    let report' := expression.evaluate { host := some second, source := source }
    report'.outcome = report.outcome ∧ report'.queries = report.queries := by
  intro report report'
  obtain ⟨asked, grown, alike⟩ :=
    (Correspondence.alike first second source).expression expression
      .empty .empty ⟨rfl, rfl⟩
  have queries : report.queries = asked := grown
  obtain ⟨sameOutcome, sameQueries, sameNames⟩ :=
    alike fun question member => agree question (by rwa [← queries] at member)
  refine ⟨?_, sameQueries⟩
  simp only [report, report', Expression.evaluate]
  rw [sameOutcome, sameNames]

/-- A text is evaluated alike with hosts that agree on the questions asked. -/
theorem evaluateText_congr_host
    (text : List Char)
    {first second : Host}
    (agree :
      ∀ question ∈ (evaluateText text (some first)).queries,
        first.AgreeOn second question) :
    (evaluateText text (some second)).outcome =
        (evaluateText text (some first)).outcome ∧
      (evaluateText text (some second)).queries =
        (evaluateText text (some first)).queries := by
  rcases evaluateText_cases text with
    ⟨diagnostics, message, rejected⟩ | ⟨expression, _, _, evaluated⟩
  · obtain ⟨noQueries, hasResult⟩ := rejected (some first)
    obtain ⟨noQueries', hasResult'⟩ := rejected (some second)
    rw [noQueries, noQueries', hasResult, hasResult']
    exact ⟨rfl, rfl⟩
  · rw [evaluated] at agree
    rw [evaluated, evaluated]
    exact expression.evaluate_congr_host agree

end PlanarExpr
