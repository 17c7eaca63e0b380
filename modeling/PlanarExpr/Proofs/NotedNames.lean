import PlanarExpr.Proofs.ExactSpans
import PlanarExpr.Proofs.Strictness

namespace PlanarExpr

/-!
# The record of noted names

A session is handed from one evaluation to the next, so its names are of use
only if an evaluation leaves those of earlier ones in place and adds what it
found itself. New names are put behind the old ones, each once, and each of
them is a name with which a primary waits that is evaluated on its own. What
waits outside any chain has come from a primary, so its name is among them.
-/

/-! ## Names behind the names of a session -/

/-- The later session has the names of the earlier one and, behind them, new ones, each once. -/
structure Session.Appends
    (session later : Session)
    (added : List String) :
    Prop where
  names : later.unresolvedNames = session.unresolvedNames ++ added
  distinct : added.Nodup
  fresh : ∀ name ∈ added, name ∉ session.unresolvedNames

namespace Session.Appends

variable
  {session middle later : Session}
  {added addedLater : List String}

/-- A session with the same names has none of them added. -/
theorem of_eq
    (same : later.unresolvedNames = session.unresolvedNames) :
    session.Appends later [] where
  names := by rw [same, List.append_nil]
  distinct := List.nodup_nil
  fresh := List.forall_mem_nil _

/-- What is added first and what is added then is added in that order. -/
theorem trans
    (first : session.Appends middle added)
    (second : middle.Appends later addedLater) :
    session.Appends later (added ++ addedLater) := by
  have freshLater : ∀ name ∈ addedLater, name ∉ session.unresolvedNames ∧ name ∉ added := by
    intro name member
    have fresh := second.fresh name member
    rw [first.names, List.mem_append, not_or] at fresh
    exact fresh
  constructor
  case names => rw [second.names, first.names, List.append_assoc]
  case distinct =>
    refine List.nodup_append.mpr ⟨first.distinct, second.distinct, ?_⟩
    rintro name early _ late rfl
    exact (freshLater name late).2 early
  case fresh =>
    exact List.forall_mem_append.mpr ⟨first.fresh, fun name member => (freshLater name member).1⟩

/-- Noting a name adds it or, if it is there already, nothing. -/
theorem noteUnresolved
    (session : Session)
    (name : String) :
    ∃ added ⊆ [name], session.Appends (session.noteUnresolved name) added := by
  unfold Session.noteUnresolved
  by_cases noted : session.unresolvedNames.contains name = true
  · rw [if_pos noted]
    exact ⟨[], List.nil_subset _, .of_eq rfl⟩
  · rw [if_neg noted]
    refine ⟨[name], List.Subset.refl _, rfl, List.pairwise_singleton _ _, ?_⟩
    exact List.forall_mem_singleton.mpr fun member => noted (List.contains_iff_mem.mpr member)

/-- Names that are all different stay so. -/
theorem nodup
    (appends : session.Appends later added)
    (distinct : session.unresolvedNames.Nodup) :
    later.unresolvedNames.Nodup := by
  rw [appends.names]
  refine List.nodup_append.mpr ⟨distinct, appends.distinct, ?_⟩
  rintro name early _ late rfl
  exact appends.fresh name late early

end Session.Appends

/-! ## Steps that add only some names -/

/-- From any session, a step adds only names with a property. -/
def Evaluation.NotesOnly
    (allowed : String → Prop)
    (step : Evaluation α) :
    Prop :=
  ∀ session : Session, ∃ added,
    session.Appends (step session).2 added ∧ ∀ name ∈ added, allowed name

namespace Evaluation.NotesOnly

variable {allowed : String → Prop}

/-- A step that notes nothing notes only what is allowed. -/
theorem of_silent
    {step : Evaluation α}
    (silent : step.NotesNothing) :
    step.NotesOnly allowed :=
  fun session => ⟨[], .of_eq (silent session), List.forall_mem_nil _⟩

/-- What is simply given notes nothing. -/
theorem pure (result : α) : (Pure.pure result : Evaluation α).NotesOnly allowed :=
  of_silent (.pure result)

/-- The second step is looked at only for results that the first one reaches. -/
theorem bind
    {step : Evaluation α}
    {next : α → Evaluation β}
    (first : step.NotesOnly allowed)
    (second :
      ∀ result session later,
        step session = (.ok result, later) → (next result).NotesOnly allowed) :
    (step >>= next).NotesOnly allowed := by
  intro session
  obtain ⟨added, appends, within⟩ := first session
  rw [bind_apply]
  rcases runs : step session with ⟨fault | result, middle⟩
  · rw [runs] at appends
    exact ⟨added, appends, within⟩
  · rw [runs] at appends
    obtain ⟨addedLater, appendsLater, withinLater⟩ := second result session middle runs middle
    exact
      ⟨added ++ addedLater, appends.trans appendsLater,
        List.forall_mem_append.mpr ⟨within, withinLater⟩⟩

/-- A step with a second one behind it that adds nothing. -/
theorem bind_silent
    {step : Evaluation α}
    {next : α → Evaluation β}
    (first : step.NotesOnly allowed)
    (second : ∀ result, (next result).NotesNothing) :
    (step >>= next).NotesOnly allowed :=
  first.bind fun result _ _ _ => of_silent (second result)

/-- Noting a value that waits adds no name but its own. -/
theorem noteWaiting
    {value : Value}
    (waits : ∀ name ∈ value.waitingNames, allowed name) :
    (Surroundings.noteWaiting value).NotesOnly allowed := by
  cases value with
  | pending waiting =>
      intro session
      obtain ⟨added, within, appends⟩ :=
        Session.Appends.noteUnresolved session waiting.name
      exact ⟨added, appends, fun name member => waits name (within member)⟩
  | _ => exact pure _

end Evaluation.NotesOnly

namespace Surroundings

/-- A primary among the nodes, evaluated on its own, waits with the name. -/
def WaitsAmong
    (surroundings : Surroundings)
    (nodes : List Node)
    (name : String) :
    Prop :=
  ∃ primary waiting,
    .primary primary ∈ nodes ∧
      surroundings.ComesTo (.primary primary) (.pending waiting) ∧
        waiting.name = name

variable
  (surroundings : Surroundings)
  {nodes : List Node}

/-! ## Trees -/

mutual

/-- An addition adds only names with which primaries among its nodes wait. -/
theorem addition_notesOnly :
    (tree : Addition) →
    tree.nodes ⊆ nodes →
    (surroundings.addition tree).NotesOnly (surroundings.WaitsAmong nodes)
  | .mk span first later, within => by
      rw [Addition.nodes, List.cons_append, List.cons_subset, List.append_subset] at within
      rw [addition]
      refine .bind (multiplication_notesOnly first within.2.1) fun value _ _ _ => ?_
      exact laterTerms_notesOnly value later within.2.2

/-- Later terms add only names with which primaries among their nodes wait. -/
theorem laterTerms_notesOnly
    (left : Value) :
    (later : List (Sign × Multiplication)) →
    laterTermNodes later ⊆ nodes →
    (surroundings.laterTerms left later).NotesOnly (surroundings.WaitsAmong nodes)
  | [], within => by
      rw [laterTerms]
      exact .pure left
  | (sign, term) :: rest, within => by
      rw [laterTermNodes, List.append_subset] at within
      rw [laterTerms]
      refine .bind (multiplication_notesOnly term within.1) fun right _ _ _ => ?_
      split
      · exact laterTerms_notesOnly _ rest within.2
      · exact .pure _

theorem multiplication_notesOnly :
    (tree : Multiplication) →
    tree.nodes ⊆ nodes →
    (surroundings.multiplication tree).NotesOnly (surroundings.WaitsAmong nodes)
  | .mk span first later, within => by
      rw [Multiplication.nodes, List.cons_append, List.cons_subset, List.append_subset] at within
      rw [multiplication]
      refine .bind (unary_notesOnly first within.2.1) fun value _ _ _ => ?_
      exact laterFactors_notesOnly value later within.2.2

theorem laterFactors_notesOnly
    (left : Value) :
    (later : List (Scaling × Unary)) →
    laterFactorNodes later ⊆ nodes →
    (surroundings.laterFactors left later).NotesOnly (surroundings.WaitsAmong nodes)
  | [], within => by
      rw [laterFactors]
      exact .pure left
  | (scaling, factor) :: rest, within => by
      rw [laterFactorNodes, List.append_subset] at within
      rw [laterFactors]
      refine .bind (unary_notesOnly factor within.1) fun right _ _ _ => ?_
      split
      · exact laterFactors_notesOnly _ rest within.2
      · exact .pure _

theorem unary_notesOnly :
    (tree : Unary) →
    tree.nodes ⊆ nodes →
    (surroundings.unary tree).NotesOnly (surroundings.WaitsAmong nodes)
  | .signed span sign operand, within => by
      rw [Unary.nodes, List.cons_subset] at within
      rw [unary]
      refine .bind_silent (unary_notesOnly operand within.2) fun value => ?_
      split
      · exact .pure _
      · exact .pure _
  | .primary operand, within => by
      rw [Unary.nodes] at within
      rw [unary]
      exact primary_notesOnly operand within

/-- A primary adds only names with which primaries among its nodes wait, itself included. -/
theorem primary_notesOnly :
    (tree : Primary) →
    tree.nodes ⊆ nodes →
    (surroundings.primary tree).NotesOnly (surroundings.WaitsAmong nodes)
  | .mk span start chain, within => by
      rw [Primary.nodes, List.cons_append, List.cons_subset, List.append_subset] at within
      obtain ⟨member, withinStart, withinChain⟩ := within
      rw [primary, ← bind_assoc]
      refine .bind (.bind (atom_notesOnly start withinStart) fun first _ _ _ => ?_) ?_
      · exact links_notesOnly first chain withinChain
      · intro reached session middle chainRuns
        refine .noteWaiting fun name noted => ?_
        cases reached with
        | pending waiting =>
            -- What the chain reaches in this session, the whole primary comes to on its own.
            have runs :
                surroundings.primary (.mk span start chain) session =
                  (.ok (.pending waiting), middle.noteUnresolved waiting.name) := by
              rw [primary, ← bind_assoc, Evaluation.bind_apply, chainRuns]
              rfl
            exact
              ⟨_, waiting, member, .of_run rfl runs, (List.mem_singleton.mp noted).symm⟩
        | _ => cases noted

theorem atom_notesOnly :
    (tree : Atom) →
    tree.nodes ⊆ nodes →
    (surroundings.atom tree).NotesOnly (surroundings.WaitsAmong nodes)
  | .number span x, within => by
      rw [atom]
      exact .pure _
  | .name span name, within => by
      rw [atom]
      exact .of_silent (.nameValue surroundings name span)
  | .call span name nameSpan items, within => by
      rw [Atom.nodes, List.cons_subset] at within
      rw [atom]
      exact .bind_silent (arguments_notesOnly items within.2) fun values => .callWith values _ _
  | .group span inner, within => by
      rw [Atom.nodes, List.cons_subset] at within
      rw [atom]
      exact addition_notesOnly inner within.2
  | .construction span path items, within => by
      rw [Atom.nodes, List.cons_subset] at within
      rw [atom]
      exact .bind_silent (arguments_notesOnly items within.2) fun values => .callWith values _ _

/-- Arguments add only names with which primaries among their nodes wait. -/
theorem arguments_notesOnly :
    (items : List Addition) →
    argumentNodes items ⊆ nodes →
    (surroundings.arguments items).NotesOnly (surroundings.WaitsAmong nodes)
  | [], within => by
      rw [arguments]
      exact .pure _
  | item :: rest, within => by
      rw [argumentNodes, List.append_subset] at within
      rw [arguments]
      refine .bind (addition_notesOnly item within.1) fun value _ _ _ => ?_
      split
      · exact .bind_silent (arguments_notesOnly rest within.2) fun later => .pure _
      · exact .pure _

/-- Links add only names with which primaries in their arguments wait. -/
theorem links_notesOnly
    (value : Value) :
    (chain : List Link) →
    linkNodes chain ⊆ nodes →
    (surroundings.links value chain).NotesOnly (surroundings.WaitsAmong nodes)
  | [], within => by
      rw [links]
      exact .pure value
  | link :: rest, within => by
      rw [linkNodes, List.append_subset] at within
      cases value with
      | unresolved =>
          rw [links]
          exact .pure _
      | null =>
          rw [links]
          exact .pure _
      | pending waiting =>
          rw [links]
          refine .bind (waitingLink_notesOnly waiting link within.1) fun next _ _ _ => ?_
          exact links_notesOnly next rest within.2
      | _ =>
          rw [links_of_isLive rfl]
          refine .bind (liveLink_notesOnly _ link within.1) fun next _ _ _ => ?_
          exact links_notesOnly next rest within.2

/-- A link behind a waiting name adds only names of its arguments. -/
theorem waitingLink_notesOnly
    (waiting : PendingName) :
    (link : Link) →
    link.nodes ⊆ nodes →
    (surroundings.waitingLink waiting link).NotesOnly (surroundings.WaitsAmong nodes)
  | .field span member memberSpan, within => by
      rw [waitingLink]
      exact .of_silent (.qualifiedValue surroundings _ _)
  | .call span member memberSpan items, within => by
      rw [Link.nodes, List.cons_subset] at within
      rw [waitingLink]
      exact .bind_silent (arguments_notesOnly items within.2) fun values => .callWith values _ _

/-- A link behind a live value adds only names of its arguments. -/
theorem liveLink_notesOnly
    (receiver : Value) :
    (link : Link) →
    link.nodes ⊆ nodes →
    (surroundings.liveLink receiver link).NotesOnly (surroundings.WaitsAmong nodes)
  | .field span member memberSpan, within => by
      rw [liveLink]
      exact .of_silent (.fieldValue receiver member)
  | .call span member memberSpan items, within => by
      rw [Link.nodes, List.cons_subset] at within
      rw [liveLink]
      exact .bind_silent (arguments_notesOnly items within.2) fun values => .callWith values _ _

end

end Surroundings

/-! ## Nodes -/

/-- The nodes of the tree below a node, itself first. -/
def Node.nodes : Node → List Node
  | .expression whole => whole.nodes
  | .addition node => node.nodes
  | .multiplication node => node.nodes
  | .signed span sign operand => (Unary.signed span sign operand).nodes
  | .primary node => node.nodes
  | .atom node => node.nodes
  | .link node => node.nodes

namespace Surroundings

variable {surroundings : Surroundings}

/-- The evaluation of a node adds only names with which primaries below it wait. -/
theorem node_notesOnly
    {part : Node}
    {step : Evaluation Value}
    (isStep : surroundings.node part = .ok step) :
    step.NotesOnly (surroundings.WaitsAmong part.nodes) := by
  cases part with
  | expression whole =>
      cases isStep
      exact addition_notesOnly surroundings whole.root (List.subset_cons_self _ _)
  | addition part =>
      cases isStep
      exact addition_notesOnly surroundings part (List.Subset.refl _)
  | multiplication part =>
      cases isStep
      exact multiplication_notesOnly surroundings part (List.Subset.refl _)
  | signed span sign operand =>
      cases isStep
      exact unary_notesOnly surroundings _ (List.Subset.refl _)
  | primary part =>
      cases isStep
      exact primary_notesOnly surroundings part (List.Subset.refl _)
  | atom part =>
      cases isStep
      exact atom_notesOnly surroundings part (List.Subset.refl _)
  | link part => cases isStep

/-- What waits is noted, unless it is an atom that a chain may still go on from. -/
theorem mem_unresolvedNames_of_pending
    {part : Node}
    {step : Evaluation Value}
    (isStep : surroundings.node part = .ok step)
    (noAtom : ∀ inner, part ≠ .atom inner)
    {session later : Session}
    {waiting : PendingName}
    (evaluated : step session = (.ok (.pending waiting), later)) :
    waiting.name ∈ later.unresolvedNames := by
  have of_notes
      {nodes : List Node}
      (notes :
        session.Notes later
          (surroundings.leadingNames nodes ++ (Value.pending waiting).waitingNames)) :
      waiting.name ∈ later.unresolvedNames :=
    (notes waiting.name).mpr
      (.inr (List.mem_append_right _ (List.mem_singleton_self waiting.name)))
  cases part with
  | expression whole =>
      cases isStep
      exact of_notes (addition_notes surroundings whole.root evaluated rfl)
  | addition part =>
      cases isStep
      exact of_notes (addition_notes surroundings part evaluated rfl)
  | multiplication part =>
      cases isStep
      exact of_notes (multiplication_notes surroundings part evaluated rfl)
  | signed span sign operand =>
      cases isStep
      exact of_notes (unary_notes surroundings _ evaluated rfl)
  | primary part =>
      cases isStep
      exact of_notes (primary_notes surroundings part evaluated rfl)
  | atom part => exact absurd rfl (noAtom part)
  | link part => cases isStep

/--
Whatever a session holds, evaluating a node in it leaves the names in place and
adds new ones behind them, each once. Every added name is one with which some
primary of the node waits when it is evaluated on its own. Where the node waits
itself and is no atom, its name is among the names of the session.
-/
theorem node_appends
    {part : Node}
    {step : Evaluation Value}
    (isStep : surroundings.node part = .ok step)
    {session later : Session}
    {value : Value}
    (evaluated : step session = (.ok value, later)) :
    (∃ added,
      session.Appends later added ∧
        ∀ name ∈ added, surroundings.WaitsAmong part.nodes name) ∧
      (session.unresolvedNames.Nodup → later.unresolvedNames.Nodup) ∧
      ((∀ inner, part ≠ .atom inner) →
        ∀ waiting, value = .pending waiting → waiting.name ∈ later.unresolvedNames) := by
  obtain ⟨added, appends, genuine⟩ := node_notesOnly isStep session
  rw [evaluated] at appends
  refine ⟨⟨added, appends, genuine⟩, appends.nodup, ?_⟩
  rintro noAtom waiting rfl
  exact mem_unresolvedNames_of_pending isStep noAtom evaluated

/-- The session has the name of the group already, and gets that of the whole chain. -/
theorem node_appends_chain :
    let group : Addition := (Unary.primary (Atom.name .blank "a").alone).alone.alone
    let part : Node := .primary (.mk .blank (.group .blank group) [.field .blank "b" .blank])
    let surroundings : Surroundings :=
      { host := some fun _ _ => .object .nothing, source := "(a).b".toList }
    let session : Session := { Session.empty with unresolvedNames := ["c", "a"] }
    ∃ step later,
      surroundings.node part = .ok step ∧
        step session = (.ok (.pending { name := "a.b", start := 0 }), later) ∧
        (∃ added,
          session.Appends later added ∧
            ∀ name ∈ added, surroundings.WaitsAmong part.nodes name) ∧
        later.unresolvedNames.Nodup ∧
        "a.b" ∈ later.unresolvedNames := by
  intro group part surroundings session
  have reached :
      (surroundings.node part).toOption.map (fun step => (step session).1.toOption) =
        some (some (.pending { name := "a.b", start := 0 })) := by
    decide +kernel
  cases isStep : surroundings.node part with
  | error message =>
      rw [isStep] at reached
      cases reached
  | ok step =>
      rw [isStep] at reached
      have evaluated : step session = (.ok (.pending { name := "a.b", start := 0 }), _) :=
        Prod.ext (eq_ok_of_toOption_eq_some (Option.some.inj reached)) rfl
      obtain ⟨appends, distinct, noted⟩ := node_appends isStep evaluated
      exact ⟨step, _, rfl, evaluated, appends, distinct (by decide), noted nofun _ rfl⟩

end Surroundings

end PlanarExpr
