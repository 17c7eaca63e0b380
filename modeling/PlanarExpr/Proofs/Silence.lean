import PlanarExpr.Proofs.Cancellation
import PlanarExpr.Proofs.HostAgreement

namespace PlanarExpr

/-!
# Failing and silent helpers

Those whom an evaluation or a resolution asks may fail to answer. Nothing of
the result depends on whether they failed or had nothing to say: both go on
with the same questions to the same end. Only the log tells the two apart.

Two resolutions are compared step by step. A step of one and the same step of
the other are alike if, after the same questions so far, they ask the same and
have the same result, whatever either of them logs.
-/

open Document

/-! ## Silence in the place of failure -/

/-- The reply with nothing as its answer if there was none. -/
def Reply.silenced (reply : Reply) : Reply :=
  { reply with answer := some (reply.answer.getD .nothing) }

/-- The host that has nothing to say where the given one fails. -/
def Host.silenced (host : Host) : Host :=
  fun start stop => (host start stop).silenced

/-- Nothing is found where there was a failure. -/
def Finding.silenced : Finding α → Finding α
  | .found item => .found item
  | .nothing => .nothing
  | .failure => .nothing

/-- A consultation that finds nothing where it failed. -/
def Consultation.silenced (consultation : Consultation α) : Consultation α :=
  { consultation with finding := consultation.finding.silenced }

/-- The advisers who find nothing where the given ones fail, and are cancelled when those are. -/
def Advisers.silenced (advisers : Advisers) : Advisers where
  definition asked location := (advisers.definition asked location).silenced
  assigned asked location := (advisers.assigned asked location).silenced
  isCancelled := advisers.isCancelled

/-- A reply stands for the same if it is silenced. -/
@[simp] theorem Reply.value_silenced (reply : Reply) :
    reply.silenced.value = reply.value := by
  obtain ⟨answer, log⟩ := reply
  cases answer <;> rfl

/-- A host agrees with the one that is silent where it fails. -/
theorem Host.agreeOn_silenced
    (host : Host)
    (question : Int × Int) :
    host.AgreeOn host.silenced question :=
  (Reply.value_silenced _).symm

/-! ## Steps that differ in their log only -/

/-- After the same questions both steps ask the same and have the same result. -/
def Resolution.Alike (step step' : Resolution α) : Prop :=
  ∀ progress progress',
    progress'.inquiries = progress.inquiries →
      (step'.run progress').1 = (step.run progress).1 ∧
        (step'.run progress').2.inquiries = (step.run progress).2.inquiries

namespace Resolution.Alike

/-- A step that asks nothing, and whose result does not depend on what was asked. -/
theorem of_silent
    {step : Resolution α}
    {result : α}
    (gives : ∀ progress, (step.run progress).1 = result)
    (silent : ∀ progress, (step.run progress).2.inquiries = progress.inquiries) :
    step.Alike step := by
  intro progress progress' same
  constructor
  · rw [gives, gives]
  · rw [silent, silent, same]

/-- Steps that are alike one after the other are alike together. -/
theorem bind
    {step step' : Resolution α}
    {next next' : α → Resolution β}
    (first : step.Alike step')
    (second : ∀ result, (next result).Alike (next' result)) :
    (step >>= next).Alike (step' >>= next') := by
  intro progress progress' same
  obtain ⟨sameResult, sameMiddle⟩ := first progress progress' same
  rw [Advisers.run_bind, Advisers.run_bind, sameResult]
  exact second _ _ _ sameMiddle

/-- What a step does next may depend on the questions so far. -/
theorem asked
    {next next' : List Inquiry → Resolution α}
    (alike : ∀ inquiries, (next inquiries).Alike (next' inquiries)) :
    Resolution.Alike
      (do next (← get).inquiries)
      (do next' (← get).inquiries) := by
  rintro ⟨inquiries, log⟩ ⟨inquiries', log'⟩ same
  cases same
  exact alike inquiries _ _ rfl

/-- A consultation is alike if it is silenced. -/
theorem consult
    (inquiry : Inquiry)
    (consultation : Consultation α) :
    (Resolution.consult inquiry consultation).Alike
      (Resolution.consult inquiry consultation.silenced) := by
  obtain ⟨finding, log⟩ := consultation
  intro progress progress' same
  have grown : progress'.inquiries ++ [inquiry] = progress.inquiries ++ [inquiry] := by
    rw [same]
  cases finding <;> exact ⟨rfl, grown⟩

end Resolution.Alike

/-! ## Resolutions -/

namespace Advisers

variable (advisers : Advisers)

/-- Both are cancelled at the same moments. -/
theorem cancelledNow_alike :
    advisers.cancelledNow.Alike advisers.silenced.cancelledNow := by
  intro progress progress' same
  refine ⟨?_, same⟩
  exact congrArg advisers.isCancelled same

/-- A definition is looked up alike. -/
theorem definitionOf?_alike (location : Location) :
    (advisers.definitionOf? location).Alike
      (advisers.silenced.definitionOf? location) :=
  .asked fun asked => .consult _ (advisers.definition asked location)

/-- A right-hand side is read alike. -/
theorem assignedAt?_alike (location : Location) :
    (advisers.assignedAt? location).Alike
      (advisers.silenced.assignedAt? location) :=
  .asked fun asked => .consult _ (advisers.assigned asked location)

/-- What is assigned to a name is found alike. -/
theorem assignedTo?_alike (location : Location) :
    (advisers.assignedTo? location).Alike
      (advisers.silenced.assignedTo? location) := by
  refine .bind (advisers.definitionOf?_alike location) ?_
  intro definition?
  cases definition? with
  | none => exact .of_silent (fun _ => rfl) fun _ => rfl
  | some definition => exact advisers.assignedAt?_alike definition

section

variable
  {resolveExcerpt resolveExcerpt' : Excerpt → Resolution Value}
  (alike : ∀ excerpt, (resolveExcerpt excerpt).Alike (resolveExcerpt' excerpt))

include alike

/-- The value of a name is found alike if excerpts are resolved alike. -/
theorem valueOfName_alike (location : Location) :
    (advisers.valueOfName resolveExcerpt location).Alike
      (advisers.silenced.valueOfName resolveExcerpt' location) := by
  refine .bind (advisers.assignedTo?_alike location) ?_
  intro assigned?
  cases assigned? with
  | none => exact .of_silent (fun _ => rfl) fun _ => rfl
  | some assigned => exact alike assigned

/-- The values of names are found alike if excerpts are resolved alike. -/
theorem valuesOfNames_alike
    (excerpt : Excerpt)
    (names : List Token) :
    (advisers.valuesOfNames resolveExcerpt excerpt names).Alike
      (advisers.silenced.valuesOfNames resolveExcerpt' excerpt names) := by
  induction names with
  | nil =>
      refine .bind advisers.cancelledNow_alike ?_
      intro cancelled
      exact .of_silent (fun _ => rfl) fun _ => rfl
  | cons name rest inductionHypothesis =>
      refine .bind advisers.cancelledNow_alike ?_
      intro cancelled
      cases cancelled with
      | true => exact .of_silent (fun _ => rfl) fun _ => rfl
      | false =>
          refine .bind (advisers.valueOfName_alike alike _) ?_
          intro value
          refine .bind inductionHypothesis ?_
          intro later
          cases value.isLive <;> exact .of_silent (fun _ => rfl) fun _ => rfl

end

/-- An excerpt is resolved alike if its tokens are. -/
theorem withTokens_alike
    (excerpt : Excerpt)
    {resolveTokens resolveTokens' : TokenStream → Resolution Value}
    (alike : ∀ stream, (resolveTokens stream).Alike (resolveTokens' stream)) :
    (advisers.withTokens excerpt resolveTokens).Alike
      (advisers.silenced.withTokens excerpt resolveTokens') := by
  refine .bind advisers.cancelledNow_alike ?_
  intro cancelled
  cases cancelled with
  | true => exact .of_silent (fun _ => rfl) fun _ => rfl
  | false =>
      by_cases clean : (Lexed.ofText excerpt.text).isClean = true
      · simp only [clean]
        exact alike _
      · simp only [clean]
        exact .of_silent (fun _ => rfl) fun _ => rfl

/-- An excerpt is resolved alike at every depth. -/
theorem resolve_alike
    (depth : Nat)
    (excerpt : Excerpt) :
    (advisers.resolve depth excerpt).Alike
      (advisers.silenced.resolve depth excerpt) := by
  induction depth generalizing excerpt with
  | zero =>
      refine advisers.withTokens_alike excerpt ?_
      intro stream
      unfold beyondDepth
      split <;> exact .of_silent (fun _ => rfl) fun _ => rfl
  | succ depth inductionHypothesis =>
      refine advisers.withTokens_alike excerpt ?_
      intro stream
      refine .bind (advisers.valuesOfNames_alike inductionHypothesis excerpt _) ?_
      intro known?
      cases known? <;> exact .of_silent (fun _ => rfl) fun _ => rfl

end Advisers

/--
A failure counts as silence. A text is evaluated to the same result with the
same questions if its host has nothing to say wherever it would fail, and an
excerpt is resolved to the same value with the same questions if its advisers
find nothing wherever they would fail.
-/
theorem silenced_alike :
    (∀ (text : List Char) (host : Host),
      let report := evaluateText text (some host)
      let silent := evaluateText text (some host.silenced)
      silent.outcome = report.outcome ∧ silent.queries = report.queries) ∧
    ∀ (advisers : Advisers) (depth : Int) (excerpt : Excerpt),
      let run := advisers.run depth excerpt
      let silent := advisers.silenced.run depth excerpt
      silent.1 = run.1 ∧ silent.2.inquiries = run.2.inquiries := by
  constructor
  · intro text host
    exact evaluateText_congr_host text fun question _ => host.agreeOn_silenced question
  · intro advisers depth excerpt
    exact advisers.resolve_alike depth.toNat excerpt .empty .empty rfl

end PlanarExpr
