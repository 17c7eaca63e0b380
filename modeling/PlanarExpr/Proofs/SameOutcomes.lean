import Mathlib.Data.List.Forall2
import PlanarExpr.Proofs.Correspondence
import PlanarExpr.Proofs.NodeTokens

namespace PlanarExpr

/-!
# Evaluations with the same outcome

Without a host, what an evaluation comes to does not depend on the session in
which it starts. So two parts may note and report different things and still
come to the same, and then so do the trees around them.
-/

/-- Two evaluations that come to the same, whatever their sessions. -/
def SameOutcome (step step' : Evaluation α) : Prop :=
  ∀ session session', (step session).1 = (step' session').1

namespace SameOutcome

/-! ## Rules -/

/-- The same result is the same outcome. -/
theorem pure (result : α) :
    SameOutcome (Pure.pure result) (Pure.pure result) :=
  fun _ _ => rfl

/-- The same outcomes lead to the same if they are continued alike. -/
theorem bind
    {step step' : Evaluation α}
    {next next' : α → Evaluation β}
    (first : SameOutcome step step')
    (second : ∀ result, SameOutcome (next result) (next' result)) :
    SameOutcome (step >>= next) (step' >>= next') := by
  intro session session'
  have same := first session session'
  rw [Evaluation.bind_apply, Evaluation.bind_apply]
  rcases runs : step session with ⟨outcome, later⟩
  rcases runs' : step' session' with ⟨outcome', later'⟩
  rw [runs, runs'] at same
  subst same
  cases outcome with
  | error fault => rfl
  | ok result => exact second result later later'

/-- A name that waits in vain is noted, but comes to the same as before. -/
theorem pure_noteWaiting (value : Value) :
    SameOutcome (Pure.pure value) (Surroundings.noteWaiting value) := by
  cases value <;> exact fun _ _ => rfl

end SameOutcome

/-- Without a host, an evaluation comes to the same in every session. -/
def Correspondence.ofHostless
    {surroundings : Surroundings}
    (hostless : surroundings.host = none) :
    Correspondence surroundings surroundings where
  Related := SameOutcome
  pure := SameOutcome.pure
  bind := SameOutcome.bind
  report _ _ _ := rfl
  calculate _ _ _ := rfl
  noteUnresolved _ _ _ := rfl
  ask start stop := by
    unfold Surroundings.ask
    rw [hostless]
    exact SameOutcome.pure none

/-! ## Parts that come to the same -/

/-- Entries with the same marks in front of items that are related. -/
abbrev EntriesRelated
    (related : α → α → Prop)
    (entries entries' : List (σ × α)) :
    Prop :=
  entries.Forall₂ (fun entry entry' => entry.1 = entry'.1 ∧ related entry.2 entry'.2) entries'

/-- Entries are related to themselves. -/
theorem EntriesRelated.refl
    {related : α → α → Prop}
    (reflexive : ∀ item, related item item)
    (entries : List (σ × α)) :
    EntriesRelated related entries entries :=
  List.forall₂_same.mpr fun entry _ => ⟨rfl, reflexive entry.2⟩

/-- Two links that come to the same behind every waiting name and every live value. -/
structure SameLink
    (surroundings : Surroundings)
    (link link' : Link) :
    Prop where
  waiting :
    ∀ name,
      SameOutcome (surroundings.waitingLink name link) (surroundings.waitingLink name link')
  live :
    ∀ receiver,
      SameOutcome (surroundings.liveLink receiver link) (surroundings.liveLink receiver link')

namespace SameOutcome

variable {surroundings : Surroundings}

/-- Later terms come to the same if each of them does. -/
theorem laterTerms
    {later later' : List (Sign × Multiplication)}
    (same :
      EntriesRelated
        (fun term term' =>
          SameOutcome (surroundings.multiplication term) (surroundings.multiplication term'))
        later later')
    (left : Value) :
    SameOutcome (surroundings.laterTerms left later) (surroundings.laterTerms left later') := by
  induction same generalizing left with
  | nil => exact pure left
  | @cons entry entry' rest rest' sameEntry _ inductionHypothesis =>
      obtain ⟨sign, term⟩ := entry
      obtain ⟨_, term'⟩ := entry'
      obtain ⟨rfl, sameTerm⟩ := sameEntry
      rw [Surroundings.laterTerms, Surroundings.laterTerms]
      refine sameTerm.bind fun right => ?_
      split
      · exact inductionHypothesis _
      · exact pure _

theorem laterFactors
    {later later' : List (Scaling × Unary)}
    (same :
      EntriesRelated
        (fun factor factor' =>
          SameOutcome (surroundings.unary factor) (surroundings.unary factor'))
        later later')
    (left : Value) :
    SameOutcome (surroundings.laterFactors left later)
      (surroundings.laterFactors left later') := by
  induction same generalizing left with
  | nil => exact pure left
  | @cons entry entry' rest rest' sameEntry _ inductionHypothesis =>
      obtain ⟨scaling, factor⟩ := entry
      obtain ⟨_, factor'⟩ := entry'
      obtain ⟨rfl, sameFactor⟩ := sameEntry
      rw [Surroundings.laterFactors, Surroundings.laterFactors]
      refine sameFactor.bind fun right => ?_
      split
      · exact inductionHypothesis _
      · exact pure _

/-- Arguments come to the same if each of them does. -/
theorem arguments
    {items items' : List Addition}
    (same :
      items.Forall₂
        (fun item item' =>
          SameOutcome (surroundings.addition item) (surroundings.addition item'))
        items') :
    SameOutcome (surroundings.arguments items) (surroundings.arguments items') := by
  induction same with
  | nil => exact pure _
  | cons sameItem _ inductionHypothesis =>
      rw [Surroundings.arguments, Surroundings.arguments]
      refine sameItem.bind fun value => ?_
      split
      · exact inductionHypothesis.bind fun _ => pure _
      · exact pure _

/-- A chain comes to the same if each of its links does. -/
theorem links
    {chain chain' : List Link}
    (same : chain.Forall₂ (SameLink surroundings) chain')
    (value : Value) :
    SameOutcome (surroundings.links value chain) (surroundings.links value chain') := by
  induction same generalizing value with
  | nil => exact pure value
  | cons sameLink _ inductionHypothesis =>
      cases value with
      | unresolved =>
          rw [Surroundings.links, Surroundings.links]
          exact pure _
      | null =>
          rw [Surroundings.links, Surroundings.links]
          exact pure _
      | pending name =>
          rw [Surroundings.links, Surroundings.links]
          exact (sameLink.waiting name).bind inductionHypothesis
      | _ =>
          rw [Surroundings.links_of_isLive rfl, Surroundings.links_of_isLive rfl]
          exact (sameLink.live _).bind inductionHypothesis

variable {span span' : Source.Span}

/-- A sum comes to the same if all its terms do. -/
theorem addition
    {first first' : Multiplication}
    {later later' : List (Sign × Multiplication)}
    (sameFirst :
      SameOutcome (surroundings.multiplication first) (surroundings.multiplication first'))
    (sameLater :
      EntriesRelated
        (fun term term' =>
          SameOutcome (surroundings.multiplication term) (surroundings.multiplication term'))
        later later') :
    SameOutcome (surroundings.addition (.mk span first later))
      (surroundings.addition (.mk span' first' later')) := by
  rw [Surroundings.addition, Surroundings.addition]
  exact sameFirst.bind (laterTerms sameLater)

theorem multiplication
    {first first' : Unary}
    {later later' : List (Scaling × Unary)}
    (sameFirst : SameOutcome (surroundings.unary first) (surroundings.unary first'))
    (sameLater :
      EntriesRelated
        (fun factor factor' =>
          SameOutcome (surroundings.unary factor) (surroundings.unary factor'))
        later later') :
    SameOutcome (surroundings.multiplication (.mk span first later))
      (surroundings.multiplication (.mk span' first' later')) := by
  rw [Surroundings.multiplication, Surroundings.multiplication]
  exact sameFirst.bind (laterFactors sameLater)

/-- A signed operand comes to the same if the operand does. -/
theorem signed
    (sign : Sign)
    {operand operand' : Unary}
    (same : SameOutcome (surroundings.unary operand) (surroundings.unary operand')) :
    SameOutcome (surroundings.unary (.signed span sign operand))
      (surroundings.unary (.signed span' sign operand')) := by
  rw [Surroundings.unary, Surroundings.unary]
  refine same.bind fun value => ?_
  split <;> exact pure _

variable (hostless : surroundings.host = none)

include hostless

/-- A primary comes to the same if its atom and its links do. -/
theorem primary
    {start start' : Atom}
    {chain chain' : List Link}
    (sameStart : SameOutcome (surroundings.atom start) (surroundings.atom start'))
    (sameChain : chain.Forall₂ (SameLink surroundings) chain') :
    SameOutcome (surroundings.primary (.mk span start chain))
      (surroundings.primary (.mk span' start' chain')) := by
  rw [Surroundings.primary, Surroundings.primary]
  refine sameStart.bind fun value => ?_
  exact (links sameChain value).bind (Correspondence.ofHostless hostless).noteWaiting

/-- What is called with arguments does not depend on what they note and report. -/
theorem called
    {items items' : List Addition}
    (same :
      items.Forall₂
        (fun item item' =>
          SameOutcome (surroundings.addition item) (surroundings.addition item'))
        items')
    (name : String)
    (call : List Value → Calculation (Option Value)) :
    SameOutcome
      (surroundings.arguments items >>= fun values => callWith values name call)
      (surroundings.arguments items' >>= fun values => callWith values name call) :=
  (arguments same).bind fun values =>
    (Correspondence.ofHostless hostless).callWith values name call

end SameOutcome

namespace SameLink

variable
  {surroundings : Surroundings}
  (hostless : surroundings.host = none)

include hostless

/-- A link comes to the same as itself. -/
theorem refl (link : Link) : SameLink surroundings link link where
  waiting name := (Correspondence.ofHostless hostless).waitingLink name link
  live receiver := (Correspondence.ofHostless hostless).liveLink receiver link

/-- A call comes to the same if its arguments do. -/
theorem call
    {items items' : List Addition}
    (same :
      items.Forall₂
        (fun item item' =>
          SameOutcome (surroundings.addition item) (surroundings.addition item'))
        items')
    (span span' memberSpan : Source.Span)
    (member : String) :
    SameLink surroundings (.call span member memberSpan items)
      (.call span' member memberSpan items') where
  waiting name := by
    rw [Surroundings.waitingLink, Surroundings.waitingLink]
    exact SameOutcome.called hostless same _ _
  live receiver := by
    rw [Surroundings.liveLink, Surroundings.liveLink]
    exact SameOutcome.called hostless same _ _

end SameLink

end PlanarExpr
