import PlanarExpr.Proofs.TokenOrder
import PlanarExpr.Resolution

namespace PlanarExpr

/-!
# Resolving names when they are asked about

A resolution asks about every name of an excerpt before it evaluates the
excerpt. Without cancellation its value is the one that is found when each
name is resolved only as the evaluation asks about it. No progress is kept on
that way, so the value of an excerpt is a function of the excerpt and the depth.
-/

open Document

/-- The host that answers by the end of the range it is asked about. -/
def Host.ofAnswers (answer? : Int → Option Value) : Host :=
  fun _ stop =>
    match answer? stop with
    | some value => .object (.value value)
    | none => .object .nothing

namespace Document.Excerpt

/-- The evaluation of an excerpt with answers by the end of a range. -/
def report
    (excerpt : Excerpt)
    (answer? : Int → Option Value) :
    Report :=
  evaluateText excerpt.text (some (.ofAnswers answer?))

/-- The value of an excerpt with answers; an excerpt with stray characters has none. -/
def valueWith
    (excerpt : Excerpt)
    (answer? : Int → Option Value) :
    Value :=
  if (Lexed.ofText excerpt.text).isClean then
    (excerpt.report answer?).value
  else
    .unresolved

/-- The name in an excerpt that ends at an offset. -/
def nameEndingAt?
    (excerpt : Excerpt)
    (stop : Int) :
    Option Token :=
  (Lexed.ofText excerpt.text).stream.names.find? fun name =>
    (name.stopOffset : Int) = stop

end Document.Excerpt

namespace Resolver

/-- The right-hand side that is assigned where a name of an excerpt is defined. -/
def rightHandSide?
    (resolver : Resolver)
    (excerpt : Excerpt)
    (name : Token) :
    Option Excerpt := do
  let definition ←
    (resolver.definition (excerpt.locationAt name.startOffset)).finding.item?
  (resolver.assigned definition).finding.item?

/-- The value of the right-hand side of a name, if it is live, given the values of excerpts. -/
def liveValue?
    (resolver : Resolver)
    (valueOf : Excerpt → Value)
    (excerpt : Excerpt)
    (name : Token) :
    Option Value := do
  let assigned ← resolver.rightHandSide? excerpt name
  if (valueOf assigned).isLive then some (valueOf assigned) else none

/-- The value that is found for the name at the end of a range. -/
def answer?
    (resolver : Resolver)
    (valueOf : Excerpt → Value)
    (excerpt : Excerpt)
    (stop : Int) :
    Option Value :=
  (excerpt.nameEndingAt? stop).bind (resolver.liveValue? valueOf excerpt)

/-- The value of an excerpt whose names are resolved on demand, with a number of hops. -/
def valueOnDemand
    (resolver : Resolver) :
    Nat →
    Excerpt →
    Value
  | 0, excerpt => excerpt.valueWith fun _ => none
  | depth + 1, excerpt =>
      excerpt.valueWith (resolver.answer? (valueOnDemand resolver depth) excerpt)

/-- The answers on demand. Without a hop there are none. -/
def answerOnDemand?
    (resolver : Resolver) :
    Nat →
    Excerpt →
    Int →
    Option Value
  | 0, _ => fun _ => none
  | depth + 1, excerpt => resolver.answer? (resolver.valueOnDemand depth) excerpt

/-- The value of an excerpt on demand is the one with the answers on demand. -/
theorem valueOnDemand_eq
    (resolver : Resolver)
    (depth : Nat)
    (excerpt : Excerpt) :
    resolver.valueOnDemand depth excerpt =
      excerpt.valueWith (resolver.answerOnDemand? depth excerpt) := by
  cases depth <;> rfl

/-! ## Known values -/

/-- The known values of names, each by the offset behind the name. -/
def knownValues
    (resolver : Resolver)
    (valueOf : Excerpt → Value)
    (excerpt : Excerpt)
    (names : List Token) :
    KnownValues :=
  names.filterMap fun name =>
    (resolver.liveValue? valueOf excerpt name).map (name.stopOffset, ·)

/-- A known value is found by the end of its name. -/
theorem find?_knownValues
    (resolver : Resolver)
    (valueOf : Excerpt → Value)
    (excerpt : Excerpt)
    {names : List Token}
    (ordered :
      names.Pairwise fun first second => first.stopOffset < second.stopOffset)
    (stop : Int) :
    ((resolver.knownValues valueOf excerpt names).find? fun entry =>
        (entry.1 : Int) = stop) =
      (names.find? fun name => (name.stopOffset : Int) = stop).bind fun name =>
        (resolver.liveValue? valueOf excerpt name).map (name.stopOffset, ·) := by
  induction names with
  | nil =>
      rfl
  | cons name rest inductionHypothesis =>
      obtain ⟨behind, restOrdered⟩ := List.pairwise_cons.mp ordered
      have later := inductionHypothesis restOrdered
      unfold knownValues at later ⊢
      by_cases here : (name.stopOffset : Int) = stop
      · rw [List.find?_cons_of_pos (by simpa using here)]
        cases known : resolver.liveValue? valueOf excerpt name with
        | some value =>
            rw [List.filterMap_cons_some (by rw [known]; rfl),
              List.find?_cons_of_pos (by simpa using here)]
            simp [known]
        | none =>
            -- Only one name ends here, so none of the later ones takes its place.
            have noneBehind :
                (rest.find? fun name => (name.stopOffset : Int) = stop) = none := by
              rw [List.find?_eq_none]
              intro other member
              have after := behind other member
              simp only [decide_eq_true_eq]
              omega
            rw [List.filterMap_cons_none (by rw [known]; rfl), later, noneBehind]
            simp [known]
      · rw [List.find?_cons_of_neg (by simpa using here), ← later]
        cases known : resolver.liveValue? valueOf excerpt name with
        | some value =>
            rw [List.filterMap_cons_some (by rw [known]; rfl),
              List.find?_cons_of_neg (by simpa using here)]
        | none =>
            rw [List.filterMap_cons_none (by rw [known]; rfl)]

/-- Knowing the values of all names beforehand is the same as resolving them on demand. -/
theorem host_knownValues
    (resolver : Resolver)
    (valueOf : Excerpt → Value)
    (excerpt : Excerpt) :
    (resolver.knownValues valueOf excerpt
        (Lexed.ofText excerpt.text).stream.names).host =
      .ofAnswers (resolver.answer? valueOf excerpt) := by
  have ordered :
      (Lexed.ofText excerpt.text).stream.names.Pairwise
        fun first second => first.stopOffset < second.stopOffset :=
    (Lexed.ofNamedText_stops_pairwise _ _ _).filter _
  funext start stop
  unfold KnownValues.host Host.ofAnswers answer? Excerpt.nameEndingAt?
  rw [find?_knownValues resolver valueOf excerpt ordered]
  cases (Lexed.ofText excerpt.text).stream.names.find? _ with
  | none => rfl
  | some name =>
      simp only [Option.bind_some]
      cases resolver.liveValue? valueOf excerpt name <;> rfl

/-! ## Resolving -/

/-- Nobody ever cancels the resolution. -/
def NeverCancelled (resolver : Resolver) : Prop :=
  ∀ inquiries, resolver.isCancelled inquiries = false

/-- The value of two steps is that of the second one, from where the first one ends. -/
theorem run_bind_value
    (first : Resolution α)
    (next : α → Resolution β)
    (progress : Progress) :
    ((first >>= next).run progress).1 =
      ((next (first.run progress).1).run (first.run progress).2).1 :=
  rfl

/-- Consulting somebody gives what was found. -/
theorem consult_value
    (inquiry : Inquiry)
    (consultation : Consultation α)
    (progress : Progress) :
    ((Resolution.consult inquiry consultation).run progress).1 =
      consultation.finding.item? := by
  obtain ⟨finding, log⟩ := consultation
  cases finding <;> rfl

/-- A lookup gives the definition that the resolver knows. -/
theorem definitionOf?_value
    (resolver : Resolver)
    (location : Location)
    (progress : Progress) :
    ((resolver.advisers.definitionOf? location).run progress).1 =
      (resolver.definition location).finding.item? := by
  rw [Advisers.definitionOf?, run_bind_value]
  exact consult_value _ _ _

/-- Reading gives what the resolver has at a definition. -/
theorem assignedAt?_value
    (resolver : Resolver)
    (location : Location)
    (progress : Progress) :
    ((resolver.advisers.assignedAt? location).run progress).1 =
      (resolver.assigned location).finding.item? := by
  rw [Advisers.assignedAt?, run_bind_value]
  exact consult_value _ _ _

/-- The right-hand side of a name is what a lookup and a reading behind it find. -/
theorem assignedTo?_value
    (resolver : Resolver)
    (excerpt : Excerpt)
    (name : Token)
    (progress : Progress) :
    ((resolver.advisers.assignedTo? (excerpt.locationAt name.startOffset)).run
        progress).1 =
      resolver.rightHandSide? excerpt name := by
  rw [Advisers.assignedTo?, run_bind_value, definitionOf?_value, rightHandSide?]
  cases
    (resolver.definition (excerpt.locationAt name.startOffset)).finding.item? with
  | none => rfl
  | some definition => exact assignedAt?_value _ _ _

/-- The value of a name is that of its right-hand side, if it has one. -/
theorem valueOfName_value
    (resolver : Resolver)
    {resolveExcerpt : Excerpt → Resolution Value}
    {valueOf : Excerpt → Value}
    (resolves :
      ∀ assigned progress,
        ((resolveExcerpt assigned).run progress).1 = valueOf assigned)
    (excerpt : Excerpt)
    (name : Token)
    (progress : Progress) :
    ((resolver.advisers.valueOfName resolveExcerpt
        (excerpt.locationAt name.startOffset)).run progress).1 =
      ((resolver.rightHandSide? excerpt name).map valueOf).getD .unresolved := by
  rw [Advisers.valueOfName, run_bind_value, assignedTo?_value]
  cases resolver.rightHandSide? excerpt name with
  | none => rfl
  | some assigned => exact resolves assigned _

/-- A resolution that is never cancelled knows the values of all names. -/
theorem valuesOfNames_value
    {resolver : Resolver}
    (neverCancelled : resolver.NeverCancelled)
    {resolveExcerpt : Excerpt → Resolution Value}
    {valueOf : Excerpt → Value}
    (resolves :
      ∀ assigned progress,
        ((resolveExcerpt assigned).run progress).1 = valueOf assigned)
    (excerpt : Excerpt)
    (names : List Token)
    (progress : Progress) :
    ((resolver.advisers.valuesOfNames resolveExcerpt excerpt names).run progress).1 =
      some (resolver.knownValues valueOf excerpt names) := by
  induction names generalizing progress with
  | nil =>
      change (if resolver.isCancelled progress.inquiries then none else some []) = _
      rw [neverCancelled]
      rfl
  | cons name rest inductionHypothesis =>
      rw [Advisers.valuesOfNames, run_bind_value]
      change
        ((if resolver.isCancelled progress.inquiries = true then pure none else _ :
          Resolution (Option KnownValues)).run progress).1 = _
      rw [neverCancelled, if_neg Bool.false_ne_true, run_bind_value,
        valueOfName_value resolver resolves, run_bind_value, inductionHypothesis]
      simp only [knownValues, List.filterMap_cons, liveValue?]
      cases resolver.rightHandSide? excerpt name with
      | none => rfl
      | some assigned =>
          simp only [Option.map_some, Option.getD_some, Option.bind_eq_bind,
            Option.bind_some]
          split <;> rfl

/-- An excerpt with stray characters has no value, and one without has that of its tokens. -/
theorem withTokens_value
    {resolver : Resolver}
    (neverCancelled : resolver.NeverCancelled)
    (excerpt : Excerpt)
    (resolveTokens : TokenStream → Resolution Value)
    (progress : Progress) :
    ((resolver.advisers.withTokens excerpt resolveTokens).run progress).1 =
      if (Lexed.ofText excerpt.text).isClean then
        ((resolveTokens (Lexed.ofText excerpt.text).stream).run progress).1
      else
        .unresolved := by
  rw [Advisers.withTokens, run_bind_value]
  change
    ((if resolver.isCancelled progress.inquiries = true then pure .unresolved else _ :
      Resolution Value).run progress).1 = _
  rw [neverCancelled, if_neg Bool.false_ne_true]
  by_cases clean : (Lexed.ofText excerpt.text).isClean = true
  · rw [if_pos clean, if_pos clean]
  · rw [if_neg clean, if_neg clean]
    rfl

/-- A resolution that is never cancelled gives the value that is found on demand. -/
theorem resolve_value
    {resolver : Resolver}
    (neverCancelled : resolver.NeverCancelled)
    (depth : Nat)
    (excerpt : Excerpt)
    (progress : Progress) :
    ((resolver.advisers.resolve depth excerpt).run progress).1 =
      resolver.valueOnDemand depth excerpt := by
  induction depth generalizing excerpt progress with
  | zero =>
      rw [Advisers.resolve, withTokens_value neverCancelled, valueOnDemand, Excerpt.valueWith]
      by_cases clean : (Lexed.ofText excerpt.text).isClean = true
      · rw [if_pos clean, if_pos clean, Advisers.beyondDepth]
        split <;> rfl
      · rw [if_neg clean, if_neg clean]
  | succ depth inductionHypothesis =>
      rw [Advisers.resolve, withTokens_value neverCancelled, valueOnDemand, Excerpt.valueWith,
        Excerpt.report, ← host_knownValues]
      by_cases clean : (Lexed.ofText excerpt.text).isClean = true
      · rw [if_pos clean, if_pos clean, run_bind_value,
          valuesOfNames_value neverCancelled inductionHypothesis excerpt]
        rfl
      · rw [if_neg clean, if_neg clean]

end Resolver

end PlanarExpr
