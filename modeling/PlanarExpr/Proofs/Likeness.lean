import PlanarExpr.Proofs.Correspondence
import PlanarExpr.Proofs.Mentions
import PlanarExpr.Proofs.SettledResults

namespace PlanarExpr

/-!
# Like evaluations

A tree and a rewritten one may be evaluated in different surroundings. If the
mentions of the tree come to like values there, so does the tree as a whole:
to the same value, or to waiting names that differ only in where they start.
-/

/-- Two values that are one settled value, or one waiting name with related starts. -/
inductive Value.Like (starts : Int → Int → Prop) : Value → Value → Prop where
  | settled
      {value : Value} :
      value.isSettled = true →
      Like starts value value
  | waiting
      {name : String}
      {start start' : Int} :
      starts start start' →
      Like starts
        (.pending { name := name, start := start })
        (.pending { name := name, start := start' })

/-- The same fault, or two results that are related. -/
inductive LikeOutcomes
    (results : α → β → Prop) :
    Except Fault α →
    Except Fault β →
    Prop where
  | ok
      {result : α}
      {result' : β} :
      results result result' →
      LikeOutcomes results (.ok result) (.ok result')
  | error (fault : Fault) :
      LikeOutcomes results (.error fault) (.error fault)

/-- What two evaluations keep alike: their sessions, and where waiting names start. -/
structure Likeness where
  sessions : Session → Session → Prop
  starts : Int → Int → Prop
  addLog :
    ∀ {session session' : Session} (records records' : List LogRecord),
      sessions session session' →
        sessions (session.addLog records) (session'.addLog records')
  noteUnresolved :
    ∀ {session session' : Session} (name : String),
      sessions session session' →
        sessions (session.noteUnresolved name) (session'.noteUnresolved name)

namespace Likeness

variable (likeness : Likeness)

/-- Two steps that lead from like sessions to like sessions and to related results. -/
def Steps
    (results : α → β → Prop)
    (step : Evaluation α)
    (step' : Evaluation β) :
    Prop :=
  ∀ session session',
    likeness.sessions session session' →
      LikeOutcomes results (step session).1 (step' session').1 ∧
        likeness.sessions (step session).2 (step' session').2

/-- Two steps that come to like values. -/
abbrev ValueSteps (step step' : Evaluation Value) : Prop :=
  likeness.Steps (Value.Like likeness.starts) step step'

/-! ## Rules -/

variable {likeness}

/-- Related results that are simply given are like. -/
theorem Steps.pure
    {results : α → β → Prop}
    {result : α}
    {result' : β}
    (related : results result result') :
    likeness.Steps results (Pure.pure result) (Pure.pure result') :=
  fun _ _ same => ⟨.ok related, same⟩

/-- Like steps followed by like steps are like together. -/
theorem Steps.bind
    {middle : α → β → Prop}
    {results : α' → β' → Prop}
    {step : Evaluation α}
    {step' : Evaluation β}
    {next : α → Evaluation α'}
    {next' : β → Evaluation β'}
    (first : likeness.Steps middle step step')
    (second :
      ∀ result result',
        middle result result' →
          likeness.Steps results (next result) (next' result')) :
    likeness.Steps results (step >>= next) (step' >>= next') := by
  intro session session' same
  obtain ⟨outcomes, sameMiddle⟩ := first session session' same
  rw [Evaluation.bind_apply, Evaluation.bind_apply]
  rcases runs : step session with ⟨outcome, later⟩
  rcases runs' : step' session' with ⟨outcome', later'⟩
  rw [runs, runs'] at outcomes sameMiddle
  cases outcomes with
  | ok related => exact second _ _ related later later' sameMiddle
  | error fault => exact ⟨.error fault, sameMiddle⟩

/-- A settled value is like itself. -/
theorem ValueSteps.settled
    {value : Value}
    (settled : value.isSettled = true) :
    likeness.ValueSteps (Pure.pure value) (Pure.pure value) :=
  .pure (.settled settled)

/-- What is reported does not matter. -/
theorem Steps.report (record record' : LogRecord) :
    likeness.Steps (fun _ _ => True) (.report record) (.report record') :=
  fun _ _ same => ⟨.ok trivial, likeness.addLog _ _ same⟩

/-- A built-in operation gives the same settled value, or none, in both evaluations. -/
theorem guarded_like
    {call : Calculation (Option Value)}
    (settles : Registry.CallSettles call)
    (what : String) :
    likeness.ValueSteps (guarded what call) (guarded what call) := by
  have calculates :
      likeness.Steps
        (fun outcome outcome' => outcome = call.outcome ∧ outcome' = call.outcome)
        (Evaluation.calculate call) (Evaluation.calculate call) :=
    fun _ _ same => ⟨.ok ⟨rfl, rfl⟩, likeness.addLog _ _ same⟩
  unfold guarded
  refine calculates.bind ?_
  rintro _ _ ⟨rfl, rfl⟩
  rcases known : call.outcome with fault | _ | value
  · exact (Steps.report _ _).bind fun _ _ _ => ValueSteps.settled rfl
  · exact (Steps.report _ _).bind fun _ _ _ => ValueSteps.settled rfl
  · exact ValueSteps.settled (settles value known)

/-- A call gives like values if what it calls gives settled ones. -/
theorem callWith_like
    {call : List Value → Calculation (Option Value)}
    (settles : ∀ arguments, Registry.CallSettles (call arguments))
    (arguments : Option (List Value))
    (name : String) :
    likeness.ValueSteps (callWith arguments name call) (callWith arguments name call) := by
  cases arguments with
  | none => exact ValueSteps.settled rfl
  | some values => exact guarded_like (settles values) _

/-- Reading a field gives like values. -/
theorem fieldValue_like
    (receiver : Value)
    (member : String) :
    likeness.ValueSteps
      (Surroundings.fieldValue receiver member)
      (Surroundings.fieldValue receiver member) := by
  unfold Surroundings.fieldValue
  cases known : receiver.field? member with
  | none => exact (Steps.report _ _).bind fun _ _ _ => ValueSteps.settled rfl
  | some value => exact ValueSteps.settled (Value.isSettled_of_field? known)

/-- Noting like values gives like values. -/
theorem noteWaiting_like
    {value value' : Value}
    (like : value.Like likeness.starts value') :
    likeness.ValueSteps
      (Surroundings.noteWaiting value)
      (Surroundings.noteWaiting value') := by
  cases like with
  | settled settled =>
      cases value with
      | pending waiting => cases settled
      | _ => exact ValueSteps.settled settled
  | @waiting name _ _ related =>
      have notes :
          likeness.Steps (fun _ _ => True)
            (.modify fun session => session.noteUnresolved name)
            (.modify fun session => session.noteUnresolved name) :=
        fun _ _ same => ⟨.ok trivial, likeness.noteUnresolved name same⟩
      exact notes.bind fun _ _ _ => .pure (.waiting related)

/-- Two numbers are combined; with anything else on a side there is no value. -/
theorem combined_like
    {left left' right right' : Value}
    {next next' : Float → Float → Evaluation Value} :
    left.Like likeness.starts left' →
    right.Like likeness.starts right' →
    (∀ x y, likeness.ValueSteps (next x y) (next' x y)) →
    likeness.ValueSteps
      (match left, right with
      | .number x, .number y => next x y
      | _, _ => Pure.pure .unresolved)
      (match left', right' with
      | .number x, .number y => next' x y
      | _, _ => Pure.pure .unresolved) := by
  intro likeLeft likeRight goesOn
  cases likeLeft with
  | waiting related => exact ValueSteps.settled rfl
  | settled settled =>
      cases likeRight with
      | waiting related =>
          cases left <;> exact ValueSteps.settled rfl
      | settled settled' =>
          split
          · exact goesOn _ _
          · exact ValueSteps.settled rfl

/-! ## Questions -/

/-- Two questions come to the same settled value, or none, or the same fault. -/
abbrev AsksAlike
    (likeness : Likeness)
    (step step' : Evaluation (Option Value)) :
    Prop :=
  likeness.Steps
    (fun found found' => found = found' ∧ ∀ value ∈ found, value.isSettled = true)
    step step'

/-- Names alone come to like values if the questions about them do. -/
theorem nameValue_like
    {first second : Surroundings}
    (name : String)
    {span span' : Source.Span}
    (related : likeness.starts span.start.offset span'.start.offset)
    (asks :
      likeness.AsksAlike
        (first.ask span.start.offset span.stop.offset)
        (second.ask span'.start.offset span'.stop.offset)) :
    likeness.ValueSteps (first.nameValue name span) (second.nameValue name span') := by
  unfold Surroundings.nameValue
  cases known : Registry.constant? name with
  | some value => exact ValueSteps.settled (Registry.isSettled_of_constant? known)
  | none =>
      refine asks.bind ?_
      rintro found _ ⟨rfl, settled⟩
      cases found with
      | some value => exact ValueSteps.settled (settled value rfl)
      | none => exact .pure (.waiting related)

/-- Longer names come to like values if the questions about them do. -/
theorem qualifiedValue_like
    {first second : Surroundings}
    (name : String)
    {start start' : Int}
    {span span' : Source.Span}
    (related : likeness.starts start start')
    (asks :
      likeness.AsksAlike
        (first.ask start span.stop.offset)
        (second.ask start' span'.stop.offset)) :
    likeness.ValueSteps
      (first.qualifiedValue { name := name, start := start } span)
      (second.qualifiedValue { name := name, start := start' } span') := by
  unfold Surroundings.qualifiedValue
  refine asks.bind ?_
  rintro found _ ⟨rfl, settled⟩
  cases found with
  | some value => exact ValueSteps.settled (settled value rfl)
  | none =>
      simp only
      cases known : Registry.constant? name with
      | some value => exact ValueSteps.settled (Registry.isSettled_of_constant? known)
      | none => exact .pure (.waiting related)

/-! ## Trees -/

section Trees

variable
  {first second : Surroundings}
  {spans : Source.Span → Source.Span}
  {atoms : Source.Span → String → Atom}

/--
A mention comes to like values: a name alone and the atom in its place, a
member behind waiting names that are alike.
-/
def Covers
    (likeness : Likeness)
    (first second : Surroundings)
    (spans : Source.Span → Source.Span)
    (atoms : Source.Span → String → Atom)
    (mention : Mention) :
    Prop :=
  if mention.isMember then
    ∀ (name : String) (start start' : Int),
      likeness.starts start start' →
        likeness.ValueSteps
          (first.qualifiedValue { name := name, start := start } mention.span)
          (second.qualifiedValue { name := name, start := start' } (spans mention.span))
  else
    likeness.ValueSteps
      (first.nameValue mention.name mention.span)
      (second.atom (atoms mention.span mention.name))

/-- All mentions come to like values. -/
abbrev CoversAll
    (likeness : Likeness)
    (first second : Surroundings)
    (spans : Source.Span → Source.Span)
    (atoms : Source.Span → String → Atom)
    (mentions : List Mention) :
    Prop :=
  ∀ mention ∈ mentions, likeness.Covers first second spans atoms mention

variable (likeness first second spans atoms)

mutual

/-- An addition comes to the like of what the rewritten one comes to. -/
theorem addition_like :
    ∀ tree : Addition,
      likeness.CoversAll first second spans atoms tree.mentions →
      likeness.ValueSteps
        (first.addition tree)
        (second.addition (tree.rewritten spans atoms))
  | .mk _ term later, covers => by
      obtain ⟨coversTerm, coversLater⟩ := List.forall_mem_append.mp covers
      rw [Addition.rewritten, Surroundings.addition, Surroundings.addition]
      refine (multiplication_like term coversTerm).bind ?_
      intro value value' like
      exact laterTerms_like like later coversLater

/-- Terms behind like values come to like values. -/
theorem laterTerms_like
    {left left' : Value}
    (likeLeft : left.Like likeness.starts left') :
    ∀ later : List (Sign × Multiplication),
      likeness.CoversAll first second spans atoms (laterTermMentions later) →
      likeness.ValueSteps
        (first.laterTerms left later)
        (second.laterTerms left' (laterTermsRewritten spans atoms later))
  | [], _ => by
      rw [laterTermsRewritten, Surroundings.laterTerms, Surroundings.laterTerms]
      exact .pure likeLeft
  | (sign, term) :: rest, covers => by
      obtain ⟨coversTerm, coversRest⟩ := List.forall_mem_append.mp covers
      rw [laterTermsRewritten, Surroundings.laterTerms, Surroundings.laterTerms]
      refine (multiplication_like term coversTerm).bind ?_
      intro right right' likeRight
      refine combined_like likeLeft likeRight fun x y => ?_
      exact laterTerms_like (.settled rfl) rest coversRest

theorem multiplication_like :
    ∀ tree : Multiplication,
      likeness.CoversAll first second spans atoms tree.mentions →
      likeness.ValueSteps
        (first.multiplication tree)
        (second.multiplication (tree.rewritten spans atoms))
  | .mk _ factor later, covers => by
      obtain ⟨coversFactor, coversLater⟩ := List.forall_mem_append.mp covers
      rw [Multiplication.rewritten, Surroundings.multiplication,
        Surroundings.multiplication]
      refine (unary_like factor coversFactor).bind ?_
      intro value value' like
      exact laterFactors_like like later coversLater

theorem laterFactors_like
    {left left' : Value}
    (likeLeft : left.Like likeness.starts left') :
    ∀ later : List (Scaling × Unary),
      likeness.CoversAll first second spans atoms (laterFactorMentions later) →
      likeness.ValueSteps
        (first.laterFactors left later)
        (second.laterFactors left' (laterFactorsRewritten spans atoms later))
  | [], _ => by
      rw [laterFactorsRewritten, Surroundings.laterFactors, Surroundings.laterFactors]
      exact .pure likeLeft
  | (scaling, factor) :: rest, covers => by
      obtain ⟨coversFactor, coversRest⟩ := List.forall_mem_append.mp covers
      rw [laterFactorsRewritten, Surroundings.laterFactors, Surroundings.laterFactors]
      refine (unary_like factor coversFactor).bind ?_
      intro right right' likeRight
      refine combined_like likeLeft likeRight fun x y => ?_
      exact laterFactors_like (.settled rfl) rest coversRest

theorem unary_like :
    ∀ tree : Unary,
      likeness.CoversAll first second spans atoms tree.mentions →
      likeness.ValueSteps
        (first.unary tree)
        (second.unary (tree.rewritten spans atoms))
  | .signed _ sign operand, covers => by
      rw [Unary.rewritten, Surroundings.unary, Surroundings.unary]
      refine (unary_like operand covers).bind ?_
      intro value value' like
      cases like with
      | waiting related => exact ValueSteps.settled rfl
      | settled settled =>
          split
          · exact ValueSteps.settled rfl
          · exact ValueSteps.settled rfl
  | .primary operand, covers => by
      rw [Unary.rewritten, Surroundings.unary, Surroundings.unary]
      exact primary_like operand covers

theorem primary_like :
    ∀ tree : Primary,
      likeness.CoversAll first second spans atoms tree.mentions →
      likeness.ValueSteps
        (first.primary tree)
        (second.primary (tree.rewritten spans atoms))
  | .mk _ start chain, covers => by
      obtain ⟨coversStart, coversChain⟩ := List.forall_mem_append.mp covers
      rw [Primary.rewritten, Surroundings.primary, Surroundings.primary]
      refine (atom_like start coversStart).bind ?_
      intro value value' like
      refine (links_like like chain coversChain).bind ?_
      intro reached reached' likeReached
      exact noteWaiting_like likeReached

theorem atom_like :
    ∀ tree : Atom,
      likeness.CoversAll first second spans atoms tree.mentions →
      likeness.ValueSteps
        (first.atom tree)
        (second.atom (tree.rewritten spans atoms))
  | .number _ _, _ => by
      rw [Atom.rewritten, Surroundings.atom, Surroundings.atom]
      exact ValueSteps.settled rfl
  | .name span name, covers => by
      rw [Atom.rewritten, Surroundings.atom]
      exact covers { name := name, span := span, isMember := false }
        (List.mem_singleton_self _)
  | .call _ name _ items, covers => by
      rw [Atom.rewritten, Surroundings.atom, Surroundings.atom]
      refine (arguments_like items covers).bind ?_
      rintro values _ rfl
      exact callWith_like (Registry.callFunction_settles name) values _
  | .group _ inner, covers => by
      rw [Atom.rewritten, Surroundings.atom, Surroundings.atom]
      exact addition_like inner covers
  | .construction _ path items, covers => by
      rw [Atom.rewritten, Surroundings.atom, Surroundings.atom]
      refine (arguments_like items covers).bind ?_
      rintro values _ rfl
      exact callWith_like (Registry.callConstructor_settles path.text) values _

/-- Arguments come to the same values as the rewritten ones. -/
theorem arguments_like :
    ∀ items : List Addition,
      likeness.CoversAll first second spans atoms (argumentMentions items) →
      likeness.Steps (fun values values' => values = values')
        (first.arguments items)
        (second.arguments (argumentsRewritten spans atoms items))
  | [], _ => by
      rw [argumentsRewritten, Surroundings.arguments, Surroundings.arguments]
      exact .pure rfl
  | item :: rest, covers => by
      obtain ⟨coversItem, coversRest⟩ := List.forall_mem_append.mp covers
      rw [argumentsRewritten, Surroundings.arguments, Surroundings.arguments]
      refine (addition_like item coversItem).bind ?_
      intro value value' like
      cases like with
      | waiting related => exact .pure rfl
      | settled settled =>
          split
          · refine (arguments_like rest coversRest).bind ?_
            rintro later _ rfl
            exact .pure rfl
          · exact .pure rfl

/-- Chains behind like values come to like values. -/
theorem links_like
    {value value' : Value}
    (like : value.Like likeness.starts value') :
    ∀ chain : List Link,
      likeness.CoversAll first second spans atoms (linkMentions chain) →
      likeness.ValueSteps
        (first.links value chain)
        (second.links value' (linksRewritten spans atoms chain))
  | [], _ => by
      rw [linksRewritten, Surroundings.links, Surroundings.links]
      exact .pure like
  | link :: rest, covers => by
      obtain ⟨coversLink, coversRest⟩ := List.forall_mem_append.mp covers
      rw [linksRewritten]
      cases like with
      | waiting related =>
          rw [Surroundings.links, Surroundings.links]
          refine (waitingLink_like related link coversLink).bind ?_
          intro next next' likeNext
          exact links_like likeNext rest coversRest
      | settled settled =>
          cases value with
          | pending waiting => cases settled
          | unresolved =>
              rw [Surroundings.links, Surroundings.links]
              exact ValueSteps.settled rfl
          | null =>
              rw [Surroundings.links, Surroundings.links]
              exact ValueSteps.settled rfl
          | _ =>
              rw [Surroundings.links_of_isLive rfl, Surroundings.links_of_isLive rfl]
              refine (liveLink_like _ link coversLink).bind ?_
              intro next next' likeNext
              exact links_like likeNext rest coversRest

/-- Links behind waiting names that are alike come to like values. -/
theorem waitingLink_like
    {name : String}
    {start start' : Int}
    (related : likeness.starts start start') :
    ∀ link : Link,
      likeness.CoversAll first second spans atoms link.mentions →
      likeness.ValueSteps
        (first.waitingLink { name := name, start := start } link)
        (second.waitingLink { name := name, start := start' }
          (link.rewritten spans atoms))
  | .field _ member memberSpan, covers => by
      rw [Link.rewritten, Surroundings.waitingLink, Surroundings.waitingLink]
      exact covers { name := member, span := memberSpan, isMember := true }
        (List.mem_singleton_self _) _ start start' related
  | .call _ member _ items, covers => by
      rw [Link.rewritten, Surroundings.waitingLink, Surroundings.waitingLink]
      refine (arguments_like items covers).bind ?_
      rintro values _ rfl
      exact callWith_like (Registry.callFunction_settles _) values _

/-- Links behind a live value come to like values. -/
theorem liveLink_like
    (receiver : Value) :
    ∀ link : Link,
      likeness.CoversAll first second spans atoms link.mentions →
      likeness.ValueSteps
        (first.liveLink receiver link)
        (second.liveLink receiver (link.rewritten spans atoms))
  | .field _ member _, _ => by
      rw [Link.rewritten, Surroundings.liveLink, Surroundings.liveLink]
      exact fieldValue_like receiver member
  | .call _ member _ items, covers => by
      rw [Link.rewritten, Surroundings.liveLink, Surroundings.liveLink]
      refine (arguments_like items covers).bind ?_
      rintro values _ rfl
      exact callWith_like (Registry.callMethod_settles receiver member) values _

end

end Trees

end Likeness

end PlanarExpr
