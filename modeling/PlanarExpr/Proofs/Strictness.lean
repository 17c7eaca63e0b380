import PlanarExpr.Proofs.GroupedNames
import PlanarExpr.Proofs.NodeTokens

namespace PlanarExpr

/-!
# Evaluation is strict

Where an evaluation succeeds, nothing in its expression is without a value that
is needed: every argument comes to a live value and every operand to a number,
each of them evaluated on its own.

A receiver is the one thing that need not be live, for a name may wait for the
links behind it. So the induction goes through all values that lead on.
-/

/-! ## Parts evaluated on their own -/

/-- The arguments in a node. -/
def Node.arguments : Node → List Addition
  | .atom (.call _ _ _ items) => items
  | .atom (.construction _ _ items) => items
  | .link (.call _ _ _ items) => items
  | _ => []

/-- What a node computes with; a term that stands alone is no operand. -/
def Node.operands : Node → List Node
  | .addition (.mk _ first (next :: later)) =>
      .multiplication first :: (next :: later).map fun (_, term) => .multiplication term
  | .multiplication (.mk _ first (next :: later)) =>
      first.node :: (next :: later).map fun (_, factor) => factor.node
  | .signed _ _ operand => [operand.node]
  | _ => []

namespace Surroundings

/-- A node that is evaluated on its own comes to a value. -/
def ComesTo
    (surroundings : Surroundings)
    (node : Node)
    (value : Value) :
    Prop :=
  ∃ step, surroundings.node node = .ok step ∧ (step .empty).1 = .ok value

/-- Each argument in a node comes to a live value and each operand to a number. -/
structure IsStrictAt
    (surroundings : Surroundings)
    (node : Node) :
    Prop where
  arguments :
    ∀ argument ∈ node.arguments, ∃ value,
      surroundings.ComesTo (.addition argument) value ∧ value.isLive = true
  operands :
    ∀ operand ∈ node.operands, ∃ x, surroundings.ComesTo operand (.number x)

/-- A unary expression as a node is evaluated as itself. -/
theorem node_unary
    (surroundings : Surroundings)
    (tree : Unary) :
    surroundings.node tree.node = .ok (surroundings.unary tree) := by
  cases tree with
  | signed span sign operand => rfl
  | primary operand =>
      rw [unary]
      rfl

/-- What a step comes to in some session is what it comes to on its own. -/
theorem ComesTo.of_run
    {surroundings : Surroundings}
    {node : Node}
    {step : Evaluation Value}
    (isStep : surroundings.node node = .ok step)
    {session later : Session}
    {value : Value}
    (runs : step session = (.ok value, later)) :
    surroundings.ComesTo node value := by
  obtain ⟨_, isSame, same⟩ := (Correspondence.sameOutcome surroundings).node isStep
  cases isStep.symm.trans isSame
  refine ⟨step, isStep, ?_⟩
  rw [same session .empty, runs]

/-- A node without arguments and operands is strict. -/
theorem IsStrictAt.of_nil
    {surroundings : Surroundings}
    {node : Node}
    (noArguments : node.arguments = [])
    (noOperands : node.operands = []) :
    surroundings.IsStrictAt node := by
  constructor
  case arguments =>
    rw [noArguments]
    exact List.forall_mem_nil _
  case operands =>
    rw [noOperands]
    exact List.forall_mem_nil _

variable (surroundings : Surroundings)

/-! ## Trees -/

mutual

/-- Where an addition comes to a value that leads on, all its nodes are strict. -/
theorem addition_strict :
    (tree : Addition) →
    {session later : Session} →
    {value : Value} →
    surroundings.addition tree session = (.ok value, later) →
    value.leadsOn = true →
    ∀ node ∈ tree.nodes, surroundings.IsStrictAt node
  | .mk span first rest, session, later, value, evaluated, leadsOn => by
      rw [addition] at evaluated
      obtain ⟨left, middle, firstRuns, restRuns⟩ := Evaluation.bind_eq_ok_iff.mp evaluated
      obtain ⟨leftLeadsOn, leftNumber, terms, below⟩ :=
        laterTerms_strict left rest restRuns leadsOn
      have firstBelow := multiplication_strict first firstRuns leftLeadsOn
      rw [Addition.nodes, List.cons_append]
      refine List.forall_mem_cons.mpr ⟨?_, List.forall_mem_append.mpr ⟨firstBelow, below⟩⟩
      cases rest with
      | nil => exact .of_nil rfl rfl
      | cons next rest =>
          obtain ⟨x, rfl⟩ := leftNumber (List.cons_ne_nil _ _)
          have firstComes : surroundings.ComesTo (.multiplication first) (.number x) :=
            .of_run rfl firstRuns
          exact {
            arguments := List.forall_mem_nil _
            operands :=
              List.forall_mem_cons.mpr ⟨⟨x, firstComes⟩, List.forall_mem_map.mpr terms⟩
          }

/-- Where later terms lead on, all of them are numbers and all their nodes are strict. -/
theorem laterTerms_strict
    (left : Value) :
    (rest : List (Sign × Multiplication)) →
    {session later : Session} →
    {value : Value} →
    surroundings.laterTerms left rest session = (.ok value, later) →
    value.leadsOn = true →
    left.leadsOn = true ∧
      (rest ≠ [] → ∃ x, left = .number x) ∧
      (∀ entry ∈ rest, ∃ x, surroundings.ComesTo (.multiplication entry.2) (.number x)) ∧
      ∀ node ∈ laterTermNodes rest, surroundings.IsStrictAt node
  | [], session, later, value, evaluated, leadsOn => by
      rw [laterTerms] at evaluated
      cases evaluated
      rw [laterTermNodes]
      exact ⟨leadsOn, absurd rfl, List.forall_mem_nil _, List.forall_mem_nil _⟩
  | (sign, term) :: rest, session, later, value, evaluated, leadsOn => by
      rw [laterTerms] at evaluated
      obtain ⟨right, middle, termRuns, restRuns⟩ := Evaluation.bind_eq_ok_iff.mp evaluated
      split at restRuns
      · next x y =>
          obtain ⟨-, -, terms, below⟩ := laterTerms_strict _ rest restRuns leadsOn
          have termBelow := multiplication_strict term termRuns rfl
          have termComes : surroundings.ComesTo (.multiplication term) (.number y) :=
            .of_run rfl termRuns
          rw [laterTermNodes]
          exact
            ⟨rfl, fun _ => ⟨x, rfl⟩, List.forall_mem_cons.mpr ⟨⟨y, termComes⟩, terms⟩,
              List.forall_mem_append.mpr ⟨termBelow, below⟩⟩
      · cases restRuns
        cases leadsOn

theorem multiplication_strict :
    (tree : Multiplication) →
    {session later : Session} →
    {value : Value} →
    surroundings.multiplication tree session = (.ok value, later) →
    value.leadsOn = true →
    ∀ node ∈ tree.nodes, surroundings.IsStrictAt node
  | .mk span first rest, session, later, value, evaluated, leadsOn => by
      rw [multiplication] at evaluated
      obtain ⟨left, middle, firstRuns, restRuns⟩ := Evaluation.bind_eq_ok_iff.mp evaluated
      obtain ⟨leftLeadsOn, leftNumber, factors, below⟩ :=
        laterFactors_strict left rest restRuns leadsOn
      have firstBelow := unary_strict first firstRuns leftLeadsOn
      rw [Multiplication.nodes, List.cons_append]
      refine List.forall_mem_cons.mpr ⟨?_, List.forall_mem_append.mpr ⟨firstBelow, below⟩⟩
      cases rest with
      | nil => exact .of_nil rfl rfl
      | cons next rest =>
          obtain ⟨x, rfl⟩ := leftNumber (List.cons_ne_nil _ _)
          have firstComes : surroundings.ComesTo first.node (.number x) :=
            .of_run (surroundings.node_unary first) firstRuns
          exact {
            arguments := List.forall_mem_nil _
            operands :=
              List.forall_mem_cons.mpr ⟨⟨x, firstComes⟩, List.forall_mem_map.mpr factors⟩
          }

theorem laterFactors_strict
    (left : Value) :
    (rest : List (Scaling × Unary)) →
    {session later : Session} →
    {value : Value} →
    surroundings.laterFactors left rest session = (.ok value, later) →
    value.leadsOn = true →
    left.leadsOn = true ∧
      (rest ≠ [] → ∃ x, left = .number x) ∧
      (∀ entry ∈ rest, ∃ x, surroundings.ComesTo entry.2.node (.number x)) ∧
      ∀ node ∈ laterFactorNodes rest, surroundings.IsStrictAt node
  | [], session, later, value, evaluated, leadsOn => by
      rw [laterFactors] at evaluated
      cases evaluated
      rw [laterFactorNodes]
      exact ⟨leadsOn, absurd rfl, List.forall_mem_nil _, List.forall_mem_nil _⟩
  | (scaling, factor) :: rest, session, later, value, evaluated, leadsOn => by
      rw [laterFactors] at evaluated
      obtain ⟨right, middle, factorRuns, restRuns⟩ := Evaluation.bind_eq_ok_iff.mp evaluated
      split at restRuns
      · next x y =>
          obtain ⟨-, -, factors, below⟩ := laterFactors_strict _ rest restRuns leadsOn
          have factorBelow := unary_strict factor factorRuns rfl
          have factorComes : surroundings.ComesTo factor.node (.number y) :=
            .of_run (surroundings.node_unary factor) factorRuns
          rw [laterFactorNodes]
          exact
            ⟨rfl, fun _ => ⟨x, rfl⟩, List.forall_mem_cons.mpr ⟨⟨y, factorComes⟩, factors⟩,
              List.forall_mem_append.mpr ⟨factorBelow, below⟩⟩
      · cases restRuns
        cases leadsOn

theorem unary_strict :
    (tree : Unary) →
    {session later : Session} →
    {value : Value} →
    surroundings.unary tree session = (.ok value, later) →
    value.leadsOn = true →
    ∀ node ∈ tree.nodes, surroundings.IsStrictAt node
  | .signed span sign operand, session, later, value, evaluated, leadsOn => by
      rw [unary] at evaluated
      obtain ⟨inner, middle, operandRuns, signRuns⟩ := Evaluation.bind_eq_ok_iff.mp evaluated
      split at signRuns
      · next x =>
          have below := unary_strict operand operandRuns rfl
          have operandComes : surroundings.ComesTo operand.node (.number x) :=
            .of_run (surroundings.node_unary operand) operandRuns
          rw [Unary.nodes]
          refine List.forall_mem_cons.mpr ⟨?_, below⟩
          exact {
            arguments := List.forall_mem_nil _
            operands := List.forall_mem_singleton.mpr ⟨x, operandComes⟩
          }
      · cases signRuns
        cases leadsOn
  | .primary operand, session, later, value, evaluated, leadsOn => by
      rw [unary] at evaluated
      rw [Unary.nodes]
      exact primary_strict operand evaluated leadsOn

theorem primary_strict :
    (tree : Primary) →
    {session later : Session} →
    {value : Value} →
    surroundings.primary tree session = (.ok value, later) →
    value.leadsOn = true →
    ∀ node ∈ tree.nodes, surroundings.IsStrictAt node
  | .mk span start chain, session, later, value, evaluated, leadsOn => by
      rw [primary] at evaluated
      obtain ⟨head, middle, startRuns, chainRuns⟩ := Evaluation.bind_eq_ok_iff.mp evaluated
      obtain ⟨reached, last, linksRun, noteRuns⟩ := Evaluation.bind_eq_ok_iff.mp chainRuns
      obtain ⟨rfl, -⟩ := noteWaiting_notes noteRuns
      obtain ⟨headLeadsOn, below⟩ := links_strict head chain linksRun leadsOn
      have startBelow := atom_strict start startRuns headLeadsOn
      rw [Primary.nodes, List.cons_append]
      exact List.forall_mem_cons.mpr
        ⟨.of_nil rfl rfl, List.forall_mem_append.mpr ⟨startBelow, below⟩⟩

theorem atom_strict :
    (tree : Atom) →
    {session later : Session} →
    {value : Value} →
    surroundings.atom tree session = (.ok value, later) →
    value.leadsOn = true →
    ∀ node ∈ tree.nodes, surroundings.IsStrictAt node
  | .number span x, session, later, value, evaluated, leadsOn => by
      rw [Atom.nodes]
      exact List.forall_mem_singleton.mpr (.of_nil rfl rfl)
  | .name span name, session, later, value, evaluated, leadsOn => by
      rw [Atom.nodes]
      exact List.forall_mem_singleton.mpr (.of_nil rfl rfl)
  | .call span name nameSpan items, session, later, value, evaluated, leadsOn => by
      rw [atom] at evaluated
      obtain ⟨values, middle, argumentsRun, -⟩ :=
        exists_arguments_of_call surroundings evaluated leadsOn
      obtain ⟨live, below⟩ := arguments_strict items argumentsRun
      rw [Atom.nodes]
      exact List.forall_mem_cons.mpr ⟨⟨live, List.forall_mem_nil _⟩, below⟩
  | .group span inner, session, later, value, evaluated, leadsOn => by
      rw [atom] at evaluated
      rw [Atom.nodes]
      exact List.forall_mem_cons.mpr
        ⟨.of_nil rfl rfl, addition_strict inner evaluated leadsOn⟩
  | .construction span path items, session, later, value, evaluated, leadsOn => by
      rw [atom] at evaluated
      obtain ⟨values, middle, argumentsRun, -⟩ :=
        exists_arguments_of_call surroundings evaluated leadsOn
      obtain ⟨live, below⟩ := arguments_strict items argumentsRun
      rw [Atom.nodes]
      exact List.forall_mem_cons.mpr ⟨⟨live, List.forall_mem_nil _⟩, below⟩

/-- Arguments that all have a value are live, and all their nodes are strict. -/
theorem arguments_strict :
    (items : List Addition) →
    {session later : Session} →
    {values : List Value} →
    surroundings.arguments items session = (.ok (some values), later) →
    (∀ item ∈ items, ∃ value,
      surroundings.ComesTo (.addition item) value ∧ value.isLive = true) ∧
      ∀ node ∈ argumentNodes items, surroundings.IsStrictAt node
  | [], session, later, values, evaluated => by
      rw [argumentNodes]
      exact ⟨List.forall_mem_nil _, List.forall_mem_nil _⟩
  | item :: rest, session, later, values, evaluated => by
      rw [arguments] at evaluated
      obtain ⟨value, middle, itemRuns, restRuns⟩ := Evaluation.bind_eq_ok_iff.mp evaluated
      split at restRuns
      · next live =>
          obtain ⟨values?, last, laterRuns, made⟩ := Evaluation.bind_eq_ok_iff.mp restRuns
          cases values? with
          | none => cases made
          | some found =>
              obtain ⟨restLive, below⟩ := arguments_strict rest laterRuns
              have itemBelow := addition_strict item itemRuns (Value.leadsOn_of_isLive live)
              have itemComes : surroundings.ComesTo (.addition item) value :=
                .of_run rfl itemRuns
              rw [argumentNodes]
              exact
                ⟨List.forall_mem_cons.mpr ⟨⟨value, itemComes, live⟩, restLive⟩,
                  List.forall_mem_append.mpr ⟨itemBelow, below⟩⟩
      · cases restRuns

/-- Where a chain comes to a value that leads on, all its nodes are strict. -/
theorem links_strict
    (value : Value) :
    (chain : List Link) →
    {session later : Session} →
    {reached : Value} →
    surroundings.links value chain session = (.ok reached, later) →
    reached.leadsOn = true →
    value.leadsOn = true ∧ ∀ node ∈ linkNodes chain, surroundings.IsStrictAt node
  | [], session, later, reached, evaluated, leadsOn => by
      rw [links] at evaluated
      cases evaluated
      rw [linkNodes]
      exact ⟨leadsOn, List.forall_mem_nil _⟩
  | link :: rest, session, later, reached, evaluated, leadsOn => by
      rw [linkNodes, List.forall_mem_append]
      by_cases live : value.isLive = true
      · rw [links_of_isLive live] at evaluated
        obtain ⟨next, middle, linkRuns, restRuns⟩ := Evaluation.bind_eq_ok_iff.mp evaluated
        obtain ⟨nextLeadsOn, below⟩ := links_strict next rest restRuns leadsOn
        exact
          ⟨Value.leadsOn_of_isLive live, liveLink_strict value link linkRuns nextLeadsOn, below⟩
      · cases value with
        | unresolved =>
            rw [links] at evaluated
            cases evaluated
            cases leadsOn
        | null =>
            rw [links] at evaluated
            cases evaluated
            cases leadsOn
        | pending waiting =>
            rw [links] at evaluated
            obtain ⟨next, middle, linkRuns, restRuns⟩ := Evaluation.bind_eq_ok_iff.mp evaluated
            obtain ⟨nextLeadsOn, below⟩ := links_strict next rest restRuns leadsOn
            exact ⟨rfl, waitingLink_strict waiting link linkRuns nextLeadsOn, below⟩
        | _ => exact absurd rfl live

/-- Where a link behind a waiting name leads on, all its nodes are strict. -/
theorem waitingLink_strict
    (waiting : PendingName) :
    (link : Link) →
    {session later : Session} →
    {value : Value} →
    surroundings.waitingLink waiting link session = (.ok value, later) →
    value.leadsOn = true →
    ∀ node ∈ link.nodes, surroundings.IsStrictAt node
  | .field span member memberSpan, session, later, value, evaluated, leadsOn => by
      rw [Link.nodes]
      exact List.forall_mem_singleton.mpr (.of_nil rfl rfl)
  | .call span member memberSpan items, session, later, value, evaluated, leadsOn => by
      rw [waitingLink] at evaluated
      obtain ⟨values, middle, argumentsRun, -⟩ :=
        exists_arguments_of_call surroundings evaluated leadsOn
      obtain ⟨live, below⟩ := arguments_strict items argumentsRun
      rw [Link.nodes]
      exact List.forall_mem_cons.mpr ⟨⟨live, List.forall_mem_nil _⟩, below⟩

/-- Where a link behind a live value leads on, all its nodes are strict. -/
theorem liveLink_strict
    (receiver : Value) :
    (link : Link) →
    {session later : Session} →
    {value : Value} →
    surroundings.liveLink receiver link session = (.ok value, later) →
    value.leadsOn = true →
    ∀ node ∈ link.nodes, surroundings.IsStrictAt node
  | .field span member memberSpan, session, later, value, evaluated, leadsOn => by
      rw [Link.nodes]
      exact List.forall_mem_singleton.mpr (.of_nil rfl rfl)
  | .call span member memberSpan items, session, later, value, evaluated, leadsOn => by
      rw [liveLink] at evaluated
      obtain ⟨values, middle, argumentsRun, -⟩ :=
        exists_arguments_of_call surroundings evaluated leadsOn
      obtain ⟨live, below⟩ := arguments_strict items argumentsRun
      rw [Link.nodes]
      exact List.forall_mem_cons.mpr ⟨⟨live, List.forall_mem_nil _⟩, below⟩

end

end Surroundings

/-! ## Any source -/

/-- Evaluations of one tree have the same outcome with any two sources. -/
def Correspondence.anySource
    (host : Option Host)
    (source source' : List Char) :
    Correspondence
      { host := host, source := source }
      { host := host, source := source' } where
  Related := (sameOutcome { host := host, source := source }).Related
  pure := (sameOutcome { host := host, source := source }).pure
  bind := (sameOutcome { host := host, source := source }).bind
  report := (sameOutcome { host := host, source := source }).report
  calculate := (sameOutcome { host := host, source := source }).calculate
  noteUnresolved := (sameOutcome { host := host, source := source }).noteUnresolved
  ask start stop session session' := by
    cases host with
    | none => rfl
    | some host =>
        obtain ⟨records, asked⟩ := Surroundings.ask_apply host source start stop session
        obtain ⟨records', asked'⟩ := Surroundings.ask_apply host source' start stop session'
        rw [asked, asked']

/-- What a node comes to on its own is the same with any source. -/
theorem Surroundings.ComesTo.anySource
    {host : Option Host}
    {source : List Char}
    {node : Node}
    {value : Value}
    (comes : ({ host := host, source := source } : Surroundings).ComesTo node value)
    (source' : List Char) :
    ({ host := host, source := source' } : Surroundings).ComesTo node value := by
  obtain ⟨step, isStep, reaches⟩ := comes
  obtain ⟨step', isStep', same⟩ :=
    (Correspondence.anySource host source source').node isStep
  refine ⟨step', isStep', ?_⟩
  rw [same .empty .empty, reaches]

/-- Whether a node is strict does not depend on the source. -/
theorem Surroundings.IsStrictAt.anySource
    {host : Option Host}
    {source : List Char}
    {node : Node}
    (strict : ({ host := host, source := source } : Surroundings).IsStrictAt node)
    (source' : List Char) :
    ({ host := host, source := source' } : Surroundings).IsStrictAt node := by
  constructor
  case arguments =>
    intro argument member
    obtain ⟨value, comes, live⟩ := strict.arguments argument member
    exact ⟨value, comes.anySource source', live⟩
  case operands =>
    intro operand member
    obtain ⟨x, comes⟩ := strict.operands operand member
    exact ⟨x, comes.anySource source'⟩

/-! ## Texts -/

/--
Where the evaluation of a text succeeds, every argument in its expression comes
to a live value and every operand to a number when it is evaluated on its own,
with the same host and whatever the source.
-/
theorem evaluateText_isStrictAt
    {text : List Char}
    {host : Option Host}
    {result : Result}
    (evaluated : (evaluateText text host).outcome = .ok result)
    (succeeds : result.success = true) :
    ∃ whole : Expression,
      ReadsAs text whole ∧
        ∀ node ∈ whole.nodes, ∀ source,
          ({ host := host, source := source } : Surroundings).IsStrictAt node := by
  rcases evaluateText_cases text with
    ⟨diagnostics, message, rejected⟩ | ⟨whole, clean, read, evaluates⟩
  · rw [(rejected host).2] at evaluated
    cases evaluated
    cases succeeds
  · rw [evaluates] at evaluated
    obtain ⟨reached, success⟩ := Expression.value_of_evaluate_eq_ok evaluated
    have leadsOn : result.value.leadsOn = true :=
      Value.leadsOn_of_isLive (success.symm.trans succeeds)
    refine ⟨whole, ⟨clean, read⟩, ?_⟩
    intro node member source
    have strict : ({ host := host, source := text } : Surroundings).IsStrictAt node := by
      rcases List.mem_cons.mp member with rfl | below
      · exact .of_nil rfl rfl
      · exact
          Surroundings.addition_strict _ whole.root (Prod.ext reached rfl) leadsOn node below
    exact strict.anySource source

/-- The host answers for the arguments and operands, and the functions are names that wait. -/
theorem evaluateText_isStrictAt_calls :
    let text := "Math.max(x, -x) + new Translation2d(1, 2 * x).getX()".toList
    let host := some (Host.answeringFor ['x'] text (.scalar (.real 3)))
    ∃ (result : Result) (whole : Expression),
      (evaluateText text host).outcome = .ok result ∧
        result.success = true ∧
        ReadsAs text whole ∧
        ∀ node ∈ whole.nodes, ∀ source,
          ({ host := host, source := source } : Surroundings).IsStrictAt node := by
  intro text host
  have evaluated :
      (evaluateText text host).outcome.toOption.map Result.success = some true := by
    decide +kernel
  obtain ⟨result, outcome, succeeds⟩ := Option.map_eq_some_iff.mp evaluated
  obtain ⟨whole, reads, strict⟩ :=
    evaluateText_isStrictAt (eq_ok_of_toOption_eq_some outcome) succeeds
  exact ⟨result, whole, eq_ok_of_toOption_eq_some outcome, succeeds, reads, strict⟩

end PlanarExpr
