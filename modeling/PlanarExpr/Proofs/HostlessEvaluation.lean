import PlanarExpr.Proofs.Likeness

namespace PlanarExpr

/-!
# Evaluating without a host

Where nobody answers, a name is a constant or waits, wherever it stands. So
without a host an evaluation comes to the same whatever the spans of its tree,
its source and its session.
-/

namespace Likeness

/-- Evaluations whose waiting names start at related places, whatever their sessions. -/
def ofStarts (starts : Int → Int → Prop) : Likeness where
  sessions _ _ := True
  starts := starts
  addLog _ _ same := same
  noteUnresolved _ same := same

/-- Evaluations of which only the values matter. -/
abbrev anywhere : Likeness :=
  ofStarts fun _ _ => True

end Likeness

/-- Values of the same kind that hold the same, apart from where a waiting name starts. -/
abbrev Value.LikeAnywhere (value value' : Value) : Prop :=
  value.Like (fun _ _ => True) value'

/-- Of two like values both are live or none is. -/
theorem Value.Like.isLive_eq
    {starts : Int → Int → Prop}
    {value value' : Value}
    (like : value.Like starts value') :
    value'.isLive = value.isLive := by
  cases like <;> rfl

/-- Values that are like are like anywhere. -/
theorem Value.Like.anywhere
    {starts : Int → Int → Prop}
    {value value' : Value}
    (like : value.Like starts value') :
    value.LikeAnywhere value' := by
  cases like with
  | settled settled => exact .settled settled
  | waiting _ => exact .waiting trivial

theorem Value.LikeAnywhere.symm
    {value value' : Value}
    (like : value.LikeAnywhere value') :
    value'.LikeAnywhere value := by
  cases like with
  | settled settled => exact .settled settled
  | waiting _ => exact .waiting trivial

theorem Value.LikeAnywhere.trans
    {first second third : Value}
    (like : first.LikeAnywhere second)
    (likeLater : second.LikeAnywhere third) :
    first.LikeAnywhere third := by
  cases like with
  | settled settled => exact likeLater
  | waiting _ =>
      cases likeLater with
      | settled settled => cases settled
      | waiting _ => exact .waiting trivial

/-- What is like a result is a result. -/
theorem LikeOutcomes.exists_eq_ok
    {results : α → β → Prop}
    {outcome : Except Fault α}
    {result' : β}
    (like : LikeOutcomes results outcome (.ok result')) :
    ∃ result, outcome = .ok result ∧ results result result' := by
  cases like with
  | ok related => exact ⟨_, rfl, related⟩

/-- Outcomes that are like are like anywhere. -/
theorem LikeOutcomes.anywhere
    {starts : Int → Int → Prop}
    {outcome outcome' : Except Fault Value}
    (like : LikeOutcomes (Value.Like starts) outcome outcome') :
    LikeOutcomes Value.LikeAnywhere outcome outcome' := by
  cases like with
  | ok like => exact .ok like.anywhere
  | error fault => exact .error fault

theorem LikeOutcomes.symm
    {outcome outcome' : Except Fault Value}
    (like : LikeOutcomes Value.LikeAnywhere outcome outcome') :
    LikeOutcomes Value.LikeAnywhere outcome' outcome := by
  cases like with
  | ok like => exact .ok like.symm
  | error fault => exact .error fault

theorem LikeOutcomes.trans
    {first second third : Except Fault Value}
    (like : LikeOutcomes Value.LikeAnywhere first second)
    (likeLater : LikeOutcomes Value.LikeAnywhere second third) :
    LikeOutcomes Value.LikeAnywhere first third := by
  cases like with
  | error fault => exact likeLater
  | ok like =>
      cases likeLater with
      | ok likeLater => exact .ok (like.trans likeLater)

/-- A value like a live one is that value. -/
theorem Value.LikeAnywhere.eq_of_isLive
    {value value' : Value}
    (like : value.LikeAnywhere value')
    (live : value.isLive = true) :
    value' = value := by
  cases like with
  | settled settled => rfl
  | waiting _ => cases live

/-! ## Questions without an answer -/

/-- A question that finds no value. -/
def Surroundings.Unanswered
    (surroundings : Surroundings)
    (start stop : Int) :
    Prop :=
  ∀ session, (surroundings.ask start stop session).1 = .ok none

/-- Without a host no question finds a value. -/
theorem Surroundings.unanswered_of_hostless
    {surroundings : Surroundings}
    (hostless : surroundings.host = none)
    (start stop : Int) :
    surroundings.Unanswered start stop := by
  intro session
  unfold Surroundings.ask
  rw [hostless]
  rfl

namespace Likeness

variable
  {starts : Int → Int → Prop}
  {first second : Surroundings}

/-- Outcomes are all that matters where sessions do not. -/
theorem steps_of_outcomes
    {results : α → β → Prop}
    {step : Evaluation α}
    {step' : Evaluation β}
    (outcomes :
      ∀ session session', LikeOutcomes results (step session).1 (step' session').1) :
    (ofStarts starts).Steps results step step' :=
  fun session session' _ => ⟨outcomes session session', trivial⟩

/-- Questions that find nothing come to the same. -/
theorem ask_like_of_unanswered
    {start stop start' stop' : Int}
    (unanswered : first.Unanswered start stop)
    (unanswered' : second.Unanswered start' stop') :
    (ofStarts starts).AsksAlike (first.ask start stop) (second.ask start' stop') := by
  refine steps_of_outcomes fun session session' => ?_
  rw [unanswered session, unanswered' session']
  exact .ok ⟨rfl, by simp⟩

/-- A name that nobody answers for is a constant or waits. -/
theorem nameValue_like_of_unanswered
    (name : String)
    {span span' : Source.Span}
    (related : starts span.start.offset span'.start.offset)
    (unanswered : first.Unanswered span.start.offset span.stop.offset)
    (unanswered' : second.Unanswered span'.start.offset span'.stop.offset) :
    (ofStarts starts).ValueSteps
      (first.nameValue name span)
      (second.nameValue name span') :=
  nameValue_like name related (ask_like_of_unanswered unanswered unanswered')

/-- A longer name that nobody answers for is a constant or waits. -/
theorem qualifiedValue_like_of_unanswered
    (name : String)
    {start start' : Int}
    {span span' : Source.Span}
    (related : starts start start')
    (unanswered : first.Unanswered start span.stop.offset)
    (unanswered' : second.Unanswered start' span'.stop.offset) :
    (ofStarts starts).ValueSteps
      (first.qualifiedValue { name := name, start := start } span)
      (second.qualifiedValue { name := name, start := start' } span') :=
  qualifiedValue_like name related (ask_like_of_unanswered unanswered unanswered')

/-! ## Trees -/

/-- Without hosts, all mentions come to like values with and without their spans. -/
theorem coversAll_of_hostless
    (hostless : first.host = none)
    (hostless' : second.host = none)
    (mentions : List Mention) :
    anywhere.CoversAll first second (fun _ => .blank) Atom.blankName mentions := by
  rintro ⟨name, span, isMember⟩ _
  have unanswered := Surroundings.unanswered_of_hostless hostless
  have unanswered' := Surroundings.unanswered_of_hostless hostless'
  cases isMember with
  | true =>
      intro qualified start start' related
      exact
        qualifiedValue_like_of_unanswered qualified related (unanswered _ _)
          (unanswered' _ _)
  | false =>
      change
        anywhere.ValueSteps (first.nameValue name span)
          (second.atom (.name .blank name))
      rw [Surroundings.atom]
      exact nameValue_like_of_unanswered name trivial (unanswered _ _) (unanswered' _ _)

/-- Without hosts, an addition comes to the same with and without its spans. -/
theorem addition_like_withoutSpans
    (hostless : first.host = none)
    (hostless' : second.host = none)
    (tree : Addition) :
    anywhere.ValueSteps (first.addition tree) (second.addition tree.withoutSpans) := by
  rw [← tree.rewritten_blank]
  exact
    addition_like anywhere first second _ _ tree
      (coversAll_of_hostless hostless hostless' _)

/-- Without a host, what an addition comes to does not depend on its spans or the source. -/
theorem outcomes_like_of_withoutSpans_eq
    (hostless : first.host = none)
    (hostless' : second.host = none)
    {tree tree' : Addition}
    (same : tree.withoutSpans = tree'.withoutSpans)
    (session session' : Session) :
    LikeOutcomes Value.LikeAnywhere
      (first.addition tree session).1
      (second.addition tree' session').1 := by
  have blank := addition_like_withoutSpans hostless hostless' tree session session trivial
  have blank' := addition_like_withoutSpans hostless' hostless' tree' session' session trivial
  rw [← same] at blank'
  exact blank.1.trans blank'.1.symm

end Likeness

end PlanarExpr
