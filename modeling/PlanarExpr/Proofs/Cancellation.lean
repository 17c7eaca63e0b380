import PlanarExpr.Proofs.OnDemand

namespace PlanarExpr

/-!
# Cancelled resolutions

Up to the question during which it was cancelled, a resolution asks the same as
if nobody cancelled it. After that question every excerpt on the way up gives
up: it asks about none of its other names and has no value. Only a definition
that was found in that moment still has its right-hand side read, since both
questions belong to one name.

The two resolutions are compared step by step. As long as nobody has cancelled,
a step and its result are the same in both, and from the first question on at
which they may differ the cancelled one has given up.
-/

open Document

namespace Advisers

/-- The same advisers, and nobody cancels. -/
def withoutCancellation (advisers : Advisers) : Advisers :=
  { advisers with isCancelled := fun _ => false }

/-- What is cancelled stays cancelled. -/
def StaysCancelled (advisers : Advisers) : Prop :=
  ∀ asked later,
    advisers.isCancelled asked = true → advisers.isCancelled (asked ++ later) = true

/-- The resolution is cancelled during a question, and not before it. -/
structure CancelledDuring
    (advisers : Advisers)
    (before : List Inquiry)
    (last : Inquiry) :
    Prop where
  notBefore : advisers.isCancelled before = false
  during : advisers.isCancelled (before ++ [last]) = true

/-- The question that belongs to a lookup: what is assigned to the definition that was found. -/
def readBehind
    (advisers : Advisers)
    (before : List Inquiry) :
    Inquiry →
    List Inquiry
  | .definition location =>
      match (advisers.definition before location).finding.item? with
      | some definition => [.assigned definition]
      | none => []
  | .assigned _ => []

/-- Once cancelled, the step asks nothing and gives up. -/
def GivesUp
    (advisers : Advisers)
    (step : Resolution α)
    (gaveUp : α → Prop) :
    Prop :=
  ∀ progress,
    advisers.isCancelled progress.inquiries = true →
    (step.run progress).2.inquiries = progress.inquiries ∧ gaveUp (step.run progress).1

/--
A step that may be cancelled against the full one. If nobody cancels during the
full step both are the same. Otherwise the step asks the same questions up to
the one during which it was cancelled, and gives up.
-/
structure Shortens
    (advisers : Advisers)
    (full step : Resolution α)
    (gaveUp : α → Prop) :
    Prop where
  grows : ∀ progress, progress.inquiries <+: (full.run progress).2.inquiries
  stops :
    ∀ progress,
      advisers.isCancelled progress.inquiries = false →
      advisers.isCancelled (full.run progress).2.inquiries = false ∧
          step.run progress = full.run progress ∨
        ∃ before last after,
          (full.run progress).2.inquiries = before ++ last :: after ∧
            advisers.CancelledDuring before last ∧
            (step.run progress).2.inquiries =
              before ++ last :: advisers.readBehind before last ∧
            gaveUp (step.run progress).1

/-- The later of two steps goes on where the first one has come to. -/
theorem run_bind
    (first : Resolution α)
    (next : α → Resolution β)
    (progress : Progress) :
    (first >>= next).run progress = (next (first.run progress).1).run (first.run progress).2 :=
  rfl

/-- A step that looks first whether it is cancelled goes on unless it is. -/
theorem run_checked
    (advisers : Advisers)
    (given : α)
    (step : Resolution α)
    (progress : Progress) :
    (advisers.cancelledNow >>= fun cancelled =>
        if cancelled = true then pure given else step).run progress =
      if advisers.isCancelled progress.inquiries = true then
        (given, progress)
      else
        step.run progress := by
  change
    (if advisers.isCancelled progress.inquiries = true then pure given else step :
      Resolution α).run progress = _
  split <;> rfl

namespace GivesUp

variable {advisers : Advisers}

/-- A step that asks nothing gives up if its result says so. -/
theorem of_silent
    {step : Resolution α}
    {gaveUp : α → Prop}
    (silent : ∀ progress, (step.run progress).2.inquiries = progress.inquiries)
    (gives : ∀ progress, gaveUp (step.run progress).1) :
    advisers.GivesUp step gaveUp :=
  fun progress _ => ⟨silent progress, gives progress⟩

/-- A step gives up if its first part does and the rest gives up as well. -/
theorem bind
    {first : Resolution α}
    {next : α → Resolution β}
    {firstGaveUp : α → Prop}
    {gaveUp : β → Prop}
    (firstGivesUp : advisers.GivesUp first firstGaveUp)
    (nextGivesUp : ∀ result, firstGaveUp result → advisers.GivesUp (next result) gaveUp) :
    advisers.GivesUp (first >>= next) gaveUp := by
  intro progress cancelled
  obtain ⟨silent, gave⟩ := firstGivesUp progress cancelled
  rw [run_bind]
  have nextGaveUp := nextGivesUp _ gave (first.run progress).2 (by rwa [silent])
  rwa [silent] at nextGaveUp

/-- Whoever looks first whether the resolution is cancelled gives up then. -/
theorem checked
    {step : Resolution α}
    {gaveUp : α → Prop}
    {given : α}
    (gives : gaveUp given) :
    advisers.GivesUp
      (advisers.cancelledNow >>= fun cancelled =>
        if cancelled = true then pure given else step)
      gaveUp := by
  intro progress cancelled
  rw [run_checked, if_pos cancelled]
  exact ⟨rfl, gives⟩

end GivesUp

namespace Shortens

variable
  {advisers : Advisers}
  {gaveUp : α → Prop}

/-- What asks nothing cannot be cancelled in between. -/
theorem of_silent
    {step : Resolution α}
    (silent : ∀ progress, (step.run progress).2.inquiries = progress.inquiries) :
    advisers.Shortens step step gaveUp where
  grows progress := by
    rewrite [silent]
    exact List.prefix_rfl
  stops progress notYet := by
    rw [silent]
    exact .inl ⟨notYet, rfl⟩

/-- Looking first whether the resolution is cancelled keeps a step shortened. -/
theorem checked
    {full step : Resolution α}
    (shortens : advisers.Shortens full step gaveUp)
    (given : α) :
    advisers.Shortens
      (advisers.withoutCancellation.cancelledNow >>= fun cancelled =>
        if cancelled = true then pure given else full)
      (advisers.cancelledNow >>= fun cancelled =>
        if cancelled = true then pure given else step)
      gaveUp where
  grows := shortens.grows
  stops progress notYet := by
    rw [run_checked advisers, notYet, if_neg Bool.false_ne_true]
    exact shortens.stops progress notYet

/-- One step after another is shortened, if the later one gives up whenever the first one did. -/
theorem bind
    (stays : advisers.StaysCancelled)
    {full step : Resolution α}
    {fullNext next : α → Resolution β}
    {finallyGaveUp : β → Prop}
    (first : advisers.Shortens full step gaveUp)
    (second : ∀ result, advisers.Shortens (fullNext result) (next result) finallyGaveUp)
    (givesUp : ∀ result, gaveUp result → advisers.GivesUp (next result) finallyGaveUp) :
    advisers.Shortens (full >>= fullNext) (step >>= next) finallyGaveUp where
  grows progress := (first.grows progress).trans ((second _).grows _)
  stops progress notYet := by
    rw [run_bind, run_bind]
    rcases first.stops progress notYet with
      ⟨stillNotYet, same⟩ | ⟨before, last, after, asked, during, stopped, gave⟩
    · rw [same]
      exact (second _).stops _ stillNotYet
    · obtain ⟨more, grown⟩ := (second (full.run progress).1).grows (full.run progress).2
      have cancelled : advisers.isCancelled (step.run progress).2.inquiries = true := by
        rw [stopped, List.append_cons]
        exact stays _ _ during.during
      obtain ⟨silent, finallyGave⟩ := givesUp _ gave _ cancelled
      refine .inr ⟨before, last, after ++ more, ?_, during, ?_, finallyGave⟩
      · rw [← grown, asked, List.append_assoc, List.cons_append]
      · rw [silent, stopped]

/-- A question is asked in both; if it was cancelled meanwhile, what belongs to it is finished. -/
theorem asked
    {ask : Resolution α}
    {full step : α → Resolution β}
    {finallyGaveUp : β → Prop}
    {inquiry : Inquiry}
    (asks :
      ∀ progress, (ask.run progress).2.inquiries = progress.inquiries ++ [inquiry])
    (shortens : ∀ found, advisers.Shortens (full found) (step found) finallyGaveUp)
    (finishes :
      ∀ progress,
        advisers.isCancelled (progress.inquiries ++ [inquiry]) = true →
        ((ask >>= step).run progress).2.inquiries =
            progress.inquiries ++ inquiry :: advisers.readBehind progress.inquiries inquiry ∧
          finallyGaveUp ((ask >>= step).run progress).1) :
    advisers.Shortens (ask >>= full) (ask >>= step) finallyGaveUp where
  grows progress := by
    have grown := (shortens (ask.run progress).1).grows (ask.run progress).2
    rw [asks] at grown
    exact (List.prefix_append _ _).trans grown
  stops progress notYet := by
    by_cases during : advisers.isCancelled (progress.inquiries ++ [inquiry]) = true
    · obtain ⟨more, grown⟩ := (shortens (ask.run progress).1).grows (ask.run progress).2
      obtain ⟨stopped, gave⟩ := finishes progress during
      rw [asks, List.append_assoc] at grown
      exact .inr ⟨progress.inquiries, inquiry, more, grown.symm, ⟨notYet, during⟩, stopped,
        gave⟩
    · have stillNotYet : advisers.isCancelled (ask.run progress).2.inquiries = false := by
        rw [asks]
        exact Bool.eq_false_iff.mpr during
      rw [run_bind, run_bind]
      exact (shortens _).stops _ stillNotYet

end Shortens

/-! ## The steps of a resolution -/

/-- Consulting somebody asks one question. -/
theorem consult_inquiries
    (inquiry : Inquiry)
    (consultation : Consultation α)
    (progress : Progress) :
    ((Resolution.consult inquiry consultation).run progress).2.inquiries =
      progress.inquiries ++ [inquiry] := by
  obtain ⟨finding, log⟩ := consultation
  cases finding <;> rfl

/-- Looking up a definition asks for the definition. -/
theorem definitionOf?_inquiries
    (advisers : Advisers)
    (location : Location)
    (progress : Progress) :
    ((advisers.definitionOf? location).run progress).2.inquiries =
      progress.inquiries ++ [.definition location] :=
  consult_inquiries _ _ _

/-- What is found for a definition is what the adviser answers. -/
theorem definitionOf?_finding
    (advisers : Advisers)
    (location : Location)
    (progress : Progress) :
    ((advisers.definitionOf? location).run progress).1 =
      (advisers.definition progress.inquiries location).finding.item? :=
  Resolver.consult_value _ _ _

/-- Reading what is assigned asks for it. -/
theorem assignedAt?_inquiries
    (advisers : Advisers)
    (location : Location)
    (progress : Progress) :
    ((advisers.assignedAt? location).run progress).2.inquiries =
      progress.inquiries ++ [.assigned location] :=
  consult_inquiries _ _ _

section

variable
  {advisers : Advisers}
  {full resolveExcerpt : Excerpt → Resolution Value}

/-- How the value of a name comes from what is assigned to it. -/
def valueOfAssigned (resolveExcerpt : Excerpt → Resolution Value) :
    Option Excerpt →
    Resolution Value
  | none => pure .unresolved
  | some assigned => resolveExcerpt assigned

/-- How the value of a name comes from where it is defined. -/
def valueOfDefinition
    (advisers : Advisers)
    (resolveExcerpt : Excerpt → Resolution Value) :
    Option Location →
    Resolution Value
  | none => pure .unresolved
  | some definition => advisers.assignedAt? definition >>= valueOfAssigned resolveExcerpt

/-- The value of a name is that of the definition found for it. -/
theorem valueOfName_eq
    (advisers : Advisers)
    (resolveExcerpt : Excerpt → Resolution Value)
    (location : Location) :
    advisers.valueOfName resolveExcerpt location =
      advisers.definitionOf? location >>= advisers.valueOfDefinition resolveExcerpt := by
  rw [valueOfName, assignedTo?, bind_assoc]
  congr
  funext definition?
  cases definition? with
  | none => rfl
  | some definition =>
      simp only [valueOfDefinition]
      congr

/-- Behind the last name it is looked once more whether the resolution is cancelled. -/
theorem valuesOfNames_nil
    (advisers : Advisers)
    (resolveExcerpt : Excerpt → Resolution Value)
    (excerpt : Excerpt) :
    advisers.valuesOfNames resolveExcerpt excerpt [] =
      advisers.cancelledNow >>= fun cancelled =>
        if cancelled = true then pure none else pure (some []) := by
  rw [valuesOfNames]
  congr
  funext cancelled
  cases cancelled <;> rfl

/-- Once cancelled, the names of an excerpt are not asked about. -/
theorem givesUp_valuesOfNames
    (excerpt : Excerpt)
    (names : List Token) :
    advisers.GivesUp (advisers.valuesOfNames resolveExcerpt excerpt names) (· = none) := by
  cases names with
  | nil =>
      rw [valuesOfNames_nil]
      exact .checked rfl
  | cons name rest => exact .checked rfl

/-- Splitting an excerpt asks nothing, so only what follows is shortened. -/
theorem shortens_withTokens
    (excerpt : Excerpt)
    {full step : TokenStream → Resolution Value}
    (shortens : ∀ stream, advisers.Shortens (full stream) (step stream) (· = .unresolved)) :
    advisers.Shortens (advisers.withoutCancellation.withTokens excerpt full)
      (advisers.withTokens excerpt step) (· = .unresolved) := by
  apply Shortens.checked
  by_cases clean : (Lexed.ofText excerpt.text).isClean = true
  · simp only [clean, if_true]
    exact shortens _
  · simp only [clean]
    exact .of_silent fun _ => rfl

variable
  (shortens :
    ∀ excerpt, advisers.Shortens (full excerpt) (resolveExcerpt excerpt) (· = .unresolved))
  (givesUp : ∀ excerpt, advisers.GivesUp (resolveExcerpt excerpt) (· = .unresolved))
  (stays : advisers.StaysCancelled)

include shortens in

/-- Resolving what is assigned is shortened as the resolution of its excerpt is. -/
theorem shortens_valueOfAssigned (assigned? : Option Excerpt) :
    advisers.Shortens (valueOfAssigned full assigned?)
      (valueOfAssigned resolveExcerpt assigned?) (· = .unresolved) := by
  cases assigned? with
  | none => exact .of_silent fun _ => rfl
  | some assigned => exact shortens assigned

include givesUp in

/-- Once cancelled, what is assigned has no value. -/
theorem givesUp_valueOfAssigned (assigned? : Option Excerpt) :
    advisers.GivesUp (valueOfAssigned resolveExcerpt assigned?) (· = .unresolved) := by
  cases assigned? with
  | none => exact .of_silent (fun _ => rfl) fun _ => rfl
  | some assigned => exact givesUp assigned

include givesUp in
/-- A right-hand side that was read too late is not resolved any more. -/
theorem valueOfDefinition_of_cancelled
    (definition : Location)
    {progress : Progress}
    (cancelled :
      advisers.isCancelled (progress.inquiries ++ [.assigned definition]) = true) :
    let later := (advisers.valueOfDefinition resolveExcerpt (some definition)).run progress
    later.2.inquiries = progress.inquiries ++ [.assigned definition] ∧
      later.1 = .unresolved := by
  have givesUpBehind :=
    givesUp_valueOfAssigned givesUp ((advisers.assignedAt? definition).run progress).1
      ((advisers.assignedAt? definition).run progress).2
  rw [assignedAt?_inquiries] at givesUpBehind
  exact givesUpBehind cancelled

include shortens givesUp

/-- The definition that was found in the moment of cancelling is still read. -/
theorem shortens_valueOfDefinition (definition? : Option Location) :
    advisers.Shortens (advisers.valueOfDefinition full definition?)
      (advisers.valueOfDefinition resolveExcerpt definition?) (· = .unresolved) := by
  cases definition? with
  | none => exact .of_silent fun _ => rfl
  | some definition =>
      apply Shortens.asked (advisers.assignedAt?_inquiries definition)
      · exact shortens_valueOfAssigned shortens
      · intro progress cancelled
        exact valueOfDefinition_of_cancelled givesUp definition cancelled

include stays

/-- The value of a name is shortened, its lookup being asked in both. -/
theorem shortens_valueOfName (location : Location) :
    advisers.Shortens (advisers.withoutCancellation.valueOfName full location)
      (advisers.valueOfName resolveExcerpt location) (· = .unresolved) := by
  rw [valueOfName_eq, valueOfName_eq]
  apply Shortens.asked (advisers.definitionOf?_inquiries location)
  · exact shortens_valueOfDefinition shortens givesUp
  · intro progress cancelled
    rw [run_bind, definitionOf?_finding, readBehind]
    cases (advisers.definition progress.inquiries location).finding.item? with
    | none => exact ⟨advisers.definitionOf?_inquiries location progress, rfl⟩
    | some definition =>
        have inquiries := advisers.definitionOf?_inquiries location progress
        have readAnyway :
            advisers.isCancelled
                (((advisers.definitionOf? location).run progress).2.inquiries ++
                  [.assigned definition]) =
              true := by
          rw [inquiries]
          exact stays _ _ cancelled
        have finished := valueOfDefinition_of_cancelled givesUp definition readAnyway
        rwa [inquiries, List.append_assoc] at finished

/-- The values of names are shortened at the name during which it was cancelled. -/
theorem shortens_valuesOfNames
    (excerpt : Excerpt)
    (names : List Token) :
    advisers.Shortens (advisers.withoutCancellation.valuesOfNames full excerpt names)
      (advisers.valuesOfNames resolveExcerpt excerpt names) (· = none) := by
  induction names with
  | nil =>
      rw [valuesOfNames_nil, valuesOfNames_nil]
      exact .checked (.of_silent fun _ => rfl) none
  | cons name rest inductionHypothesis =>
      apply Shortens.checked
      apply Shortens.bind stays (shortens_valueOfName shortens givesUp stays _)
      · intro value
        apply Shortens.bind stays inductionHypothesis
        · intro later
          apply Shortens.of_silent
          intro progress
          split <;> rfl
        · intro later gaveUp
          subst gaveUp
          apply GivesUp.of_silent
          · intro progress
            split <;> rfl
          · intro progress
            split <;> rfl
      · -- The name was given up, and the look before the next one notices.
        intro value gaveUp
        subst gaveUp
        apply GivesUp.bind (givesUp_valuesOfNames excerpt rest)
        intro later gaveUp
        subst gaveUp
        exact .of_silent (fun _ => rfl) fun _ => rfl

end

/-- A resolution that is cancelled beforehand does nothing. -/
theorem run_resolve_of_cancelled
    {advisers : Advisers}
    {progress : Progress}
    (cancelled : advisers.isCancelled progress.inquiries = true)
    (depth : Nat)
    (excerpt : Excerpt) :
    (advisers.resolve depth excerpt).run progress = (.unresolved, progress) := by
  cases depth with
  | zero => rw [resolve, withTokens, run_checked, if_pos cancelled]
  | succ depth => rw [resolve, withTokens, run_checked, if_pos cancelled]

/-- Once cancelled, a resolution gives up at every depth. -/
theorem givesUp_resolve
    (advisers : Advisers)
    (depth : Nat)
    (excerpt : Excerpt) :
    advisers.GivesUp (advisers.resolve depth excerpt) (· = .unresolved) := by
  intro progress cancelled
  rw [run_resolve_of_cancelled cancelled]
  exact ⟨rfl, rfl⟩

/-- A resolution is shortened at every depth. -/
theorem shortens_resolve
    {advisers : Advisers}
    (stays : advisers.StaysCancelled)
    (depth : Nat)
    (excerpt : Excerpt) :
    advisers.Shortens (advisers.withoutCancellation.resolve depth excerpt)
      (advisers.resolve depth excerpt) (· = .unresolved) := by
  induction depth generalizing excerpt with
  | zero =>
      apply shortens_withTokens
      intro stream
      apply Shortens.of_silent
      intro progress
      unfold beyondDepth
      split <;> rfl
  | succ depth inductionHypothesis =>
      apply shortens_withTokens
      intro stream
      apply Shortens.bind stays
        (shortens_valuesOfNames inductionHypothesis (advisers.givesUp_resolve depth) stays
          excerpt stream.names)
      · intro known?
        apply Shortens.of_silent
        intro progress
        cases known? <;> rfl
      · intro known? gaveUp
        subst gaveUp
        exact .of_silent (fun _ => rfl) fun _ => rfl

/--
The question during which a resolution is cancelled comes no later than any
other such question.
-/
theorem CancelledDuring.length_le
    {advisers : Advisers}
    (stays : advisers.StaysCancelled)
    {before before' after after' : List Inquiry}
    {last last' : Inquiry}
    (during : advisers.CancelledDuring before last)
    (during' : advisers.CancelledDuring before' last')
    (same : before ++ last :: after = before' ++ last' :: after') :
    before'.length ≤ before.length := by
  apply Nat.le_of_not_lt
  intro longer
  have firstPart : before ++ [last] <+: before ++ last :: after := ⟨after, by simp⟩
  have secondPart : before' <+: before ++ last :: after := ⟨last' :: after', same.symm⟩
  obtain ⟨more, rfl⟩ : before ++ [last] <+: before' :=
    List.prefix_of_prefix_length_le firstPart secondPart (by simp; omega)
  have already := stays _ more during.during
  rw [during'.notBefore] at already
  cases already

/-- A resolution is cancelled during one question only. -/
theorem CancelledDuring.unique
    {advisers : Advisers}
    (stays : advisers.StaysCancelled)
    {before before' after after' : List Inquiry}
    {last last' : Inquiry}
    (during : advisers.CancelledDuring before last)
    (during' : advisers.CancelledDuring before' last')
    (same : before ++ last :: after = before' ++ last' :: after') :
    before = before' ∧ last = last' := by
  have sameLength : before.length = before'.length :=
    Nat.le_antisymm (during'.length_le stays during same.symm)
      (during.length_le stays during' same)
  obtain ⟨sameBefore, sameBehind⟩ := List.append_inj same sameLength
  exact ⟨sameBefore, (List.cons.inj sameBehind).1⟩

/--
Cancelling is prompt and total. A resolution that is cancelled during any of
its questions, at whatever depth that is asked, has no value. Up to that
question it asks the same as if nobody cancelled it, and behind it at most for
the right-hand side of the definition that the question found. A resolution
that was cancelled beforehand asks nothing.
-/
theorem run_cancelled
    {advisers : Advisers}
    (stays : advisers.StaysCancelled)
    (depth : Int)
    (excerpt : Excerpt) :
    (advisers.isCancelled [] = true →
        advisers.run depth excerpt = (.unresolved, .empty)) ∧
      ∀ before last after,
        (advisers.withoutCancellation.run depth excerpt).2.inquiries =
            before ++ last :: after →
          advisers.CancelledDuring before last →
          (advisers.run depth excerpt).1 = .unresolved ∧
            (advisers.run depth excerpt).2.inquiries =
              before ++ last :: advisers.readBehind before last := by
  constructor
  · intro cancelled
    exact run_resolve_of_cancelled cancelled depth.toNat excerpt
  · intro before last after calls during
    have cancelledInside : advisers.isCancelled (before ++ last :: after) = true := by
      rw [List.append_cons]
      exact stays _ after during.during
    have notBeforehand : advisers.isCancelled Progress.empty.inquiries = false := by
      apply Bool.eq_false_iff.mpr
      intro cancelled
      have already : advisers.isCancelled before = true := stays [] before cancelled
      rw [during.notBefore] at already
      cases already
    rcases (shortens_resolve stays depth.toNat excerpt).stops .empty notBeforehand with
      ⟨notInside, _⟩ | ⟨before', last', after', calls', during', stopped, gaveUp⟩
    · have asked : ((advisers.withoutCancellation.resolve depth.toNat excerpt).run
          .empty).2.inquiries = before ++ last :: after := calls
      rw [asked, cancelledInside] at notInside
      cases notInside
    · obtain ⟨rfl, rfl⟩ := during.unique stays during' (calls.symm.trans calls')
      exact ⟨gaveUp, stopped⟩

/-- Cancels during the first question; every name is defined and is a number. -/
def cancellingAtOnce : Advisers where
  definition _ _ :=
    .ofFinding (.found { uri := "D", position := { line := 1, character := 0 } })
  assigned _ _ :=
    .ofFinding
      (.found { uri := "D", start := { line := 1, character := 4 }, text := "1".toList })
  isCancelled asked := !asked.isEmpty

/-- Two names with a sign in between. -/
def twoNames : Excerpt :=
  { uri := "D", start := { line := 0, character := 4 }, text := "a + b".toList }

/-- The first name is found in that moment, so it is read; the second is not looked up. -/
theorem run_cancelled_atOnce :
    cancellingAtOnce.StaysCancelled ∧
      (cancellingAtOnce.withoutCancellation.run 1 twoNames).2.inquiries.length = 4 ∧
      (cancellingAtOnce.run 1 twoNames).1 = .unresolved ∧
      (cancellingAtOnce.run 1 twoNames).2.inquiries =
        [.definition { uri := "D", position := { line := 0, character := 4 } },
          .assigned { uri := "D", position := { line := 1, character := 0 } }] := by
  have stays : cancellingAtOnce.StaysCancelled := by
    intro asked later cancelled
    cases asked with
    | nil => cases cancelled
    | cons inquiry rest => rfl
  have calls :
      (cancellingAtOnce.withoutCancellation.run 1 twoNames).2.inquiries =
        [] ++ .definition { uri := "D", position := { line := 0, character := 4 } } ::
          [.assigned { uri := "D", position := { line := 1, character := 0 } },
            .definition { uri := "D", position := { line := 0, character := 8 } },
            .assigned { uri := "D", position := { line := 1, character := 0 } }] := by
    decide +kernel
  have cancelled :=
    (run_cancelled stays 1 twoNames).2 _ _ _ calls ⟨rfl, rfl⟩
  exact ⟨stays, by rw [calls]; rfl, cancelled⟩

end Advisers

end PlanarExpr
