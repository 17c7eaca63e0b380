import PlanarExpr.Proofs.Inlining

namespace PlanarExpr

/-!
# Names noted on the way to a value

A name is noted where its chain ends. A group in parentheses ends a chain too,
so a name that waits at the end of a group is noted there, even if the group
heads a chain whose links give it a value later. Where an evaluation succeeds
these are the only names it notes: any other chain that ends in a waiting name
leaves what stands around it without a value.

What an evaluation comes to does not depend on its session. So whether a group
waits, and for which name, is known from the group on its own.
-/

/-! ## Outcomes do not depend on the session -/

/-- Steps with the same outcome from any two sessions correspond. -/
def Correspondence.sameOutcome
    (surroundings : Surroundings) :
    Correspondence surroundings surroundings where
  Related step step' := ∀ session session', (step' session').1 = (step session).1
  pure _ _ _ := rfl
  bind := by
    intro α β step step' next next' first second session session'
    have sameFirst := first session session'
    rw [Evaluation.bind_apply, Evaluation.bind_apply]
    rcases runs : step session with ⟨fault | result, middle⟩
    · rcases runs' : step' session' with ⟨outcome', middle'⟩
      rw [runs, runs'] at sameFirst
      cases sameFirst
      rfl
    · rcases runs' : step' session' with ⟨outcome', middle'⟩
      rw [runs, runs'] at sameFirst
      cases sameFirst
      exact second result middle middle'
  report _ _ _ := rfl
  calculate _ _ _ := rfl
  noteUnresolved _ _ _ := rfl
  ask start stop session session' := by
    obtain ⟨host?, source⟩ := surroundings
    cases host? with
    | none => rfl
    | some host =>
        obtain ⟨records, asked⟩ := Surroundings.ask_apply host source start stop session
        obtain ⟨records', asked'⟩ := Surroundings.ask_apply host source start stop session'
        rw [asked, asked']

/-! ## Steps that note nothing -/

/-- A step goes well if its first part does and the second part goes well from there. -/
theorem Evaluation.bind_eq_ok_iff
    {first : Evaluation α}
    {next : α → Evaluation β}
    {session later : Session}
    {result : β} :
    (first >>= next) session = (.ok result, later) ↔
      ∃ found middle,
        first session = (.ok found, middle) ∧ next found middle = (.ok result, later) := by
  rw [bind_apply]
  constructor
  · intro runs
    rcases firstRuns : first session with ⟨fault | found, middle⟩
    · rw [firstRuns] at runs
      cases runs
    · rw [firstRuns] at runs
      exact ⟨found, middle, rfl, runs⟩
  · rintro ⟨found, middle, firstRuns, runs⟩
    rw [firstRuns]
    exact runs

/-- Names without a value are the same after the step as before it. -/
def Evaluation.NotesNothing (step : Evaluation α) : Prop :=
  ∀ session, (step session).2.unresolvedNames = session.unresolvedNames

namespace Evaluation.NotesNothing

/-- What is simply given notes nothing. -/
theorem pure (result : α) : (Pure.pure result : Evaluation α).NotesNothing :=
  fun _ => rfl

/-- Two steps that note nothing note nothing together. -/
theorem bind
    {first : Evaluation α}
    {next : α → Evaluation β}
    (firstNotes : first.NotesNothing)
    (nextNotes : ∀ result, (next result).NotesNothing) :
    (first >>= next).NotesNothing := by
  intro session
  have same := firstNotes session
  rw [bind_apply]
  rcases runs : first session with ⟨fault | result, middle⟩
  · rw [runs] at same
    exact same
  · rw [runs] at same
    exact (nextNotes result middle).trans same

/-- Reporting notes nothing. -/
theorem report (record : LogRecord) : (Evaluation.report record).NotesNothing :=
  fun _ => rfl

theorem guarded
    (what : String)
    (call : Calculation (Option Value)) :
    (PlanarExpr.guarded what call).NotesNothing := by
  refine bind (fun _ => rfl) ?_
  rintro (fault | none | value)
  · exact bind (report _) fun _ => pure _
  · exact bind (report _) fun _ => pure _
  · exact pure value

theorem callWith
    (arguments : Option (List Value))
    (name : String)
    (call : List Value → Calculation (Option Value)) :
    (PlanarExpr.callWith arguments name call).NotesNothing := by
  cases arguments with
  | none => exact pure _
  | some values => exact guarded _ _

theorem fieldValue
    (receiver : Value)
    (member : String) :
    (Surroundings.fieldValue receiver member).NotesNothing := by
  unfold Surroundings.fieldValue
  cases receiver.field? member with
  | none => exact bind (report _) fun _ => pure _
  | some value => exact pure value

variable (surroundings : Surroundings)

/-- Asking notes nothing. -/
theorem ask
    (start stop : Int) :
    (surroundings.ask start stop).NotesNothing := by
  intro session
  obtain ⟨host?, source⟩ := surroundings
  cases host? with
  | none => rfl
  | some host =>
      obtain ⟨records, asked⟩ := Surroundings.ask_apply host source start stop session
      rw [asked]
      rfl

/-- A name that stands on its own is not noted where it is read. -/
theorem nameValue
    (name : String)
    (span : Source.Span) :
    (surroundings.nameValue name span).NotesNothing := by
  unfold Surroundings.nameValue
  cases Registry.constant? name with
  | some value => exact pure value
  | none =>
      refine bind (ask surroundings _ _) ?_
      rintro (none | value)
      · exact pure _
      · exact pure value

/-- A longer name is not noted where it is read. -/
theorem qualifiedValue
    (qualified : PendingName)
    (memberSpan : Source.Span) :
    (surroundings.qualifiedValue qualified memberSpan).NotesNothing := by
  refine bind (ask surroundings _ _) ?_
  rintro (none | value)
  · cases Registry.constant? qualified.name with
    | none => exact pure _
    | some value => exact pure value
  · exact pure value

end Evaluation.NotesNothing

/-! ## What is noted between two sessions -/

/-- The later session has the names of the earlier one and these. -/
def Session.Notes
    (session later : Session)
    (noted : List String) :
    Prop :=
  ∀ name, name ∈ later.unresolvedNames ↔ name ∈ session.unresolvedNames ∨ name ∈ noted

namespace Session.Notes

variable
  {session middle later : Session}
  {noted notedLater : List String}

/-- Nothing is noted where the names stay as they are. -/
theorem of_eq
    (same : later.unresolvedNames = session.unresolvedNames) :
    session.Notes later [] := by
  intro name
  simp [same]

/-- What is noted by two steps is what the one notes and what the other notes. -/
theorem trans
    (notes : session.Notes middle noted)
    (notesLater : middle.Notes later notedLater) :
    session.Notes later (noted ++ notedLater) := by
  intro name
  rw [notesLater, notes, List.mem_append, or_assoc]

/-- Which names were noted is all that matters. -/
theorem congr
    (notes : session.Notes later noted)
    (same : ∀ name, name ∈ notedLater ↔ name ∈ noted) :
    session.Notes later notedLater := by
  intro name
  rw [notes, same]

/-- The order in which names are noted does not matter. -/
theorem swap
    {waiting : List String}
    (notes : session.Notes later (noted ++ waiting ++ notedLater)) :
    session.Notes later (noted ++ notedLater ++ waiting) := by
  refine notes.congr fun name => ?_
  simp only [List.mem_append]
  exact or_right_comm

/-- A step that notes nothing leads to a session with the same names. -/
theorem of_step
    {step : Evaluation α}
    {result : α}
    (silent : step.NotesNothing)
    (runs : step session = (.ok result, later)) :
    session.Notes later [] := by
  have same := silent session
  rw [runs] at same
  exact of_eq same

/-- Noting a name notes that name. -/
theorem noteUnresolved
    (session : Session)
    (name : String) :
    session.Notes (session.noteUnresolved name) [name] := by
  intro other
  unfold Session.noteUnresolved
  by_cases noted : session.unresolvedNames.contains name = true
  · rw [if_pos noted]
    have member : name ∈ session.unresolvedNames := List.contains_iff_mem.mp noted
    constructor
    · exact .inl
    · rintro (earlier | isName)
      · exact earlier
      · rwa [List.mem_singleton.mp isName]
  · rw [if_neg noted]
    exact List.mem_append

end Session.Notes

namespace Value

/-- Whether an evaluation goes on from a value: it is live, or waits for links. -/
def leadsOn : Value → Bool
  | .unresolved => false
  | .null => false
  | _ => true

/-- The name of a waiting value. -/
def waitingNames : Value → List String
  | .pending waiting => [waiting.name]
  | _ => []

/-- An evaluation goes on from a live value. -/
theorem leadsOn_of_isLive
    {value : Value}
    (live : value.isLive = true) :
    value.leadsOn = true := by
  cases value <;> first | rfl | cases live

/-- A live value waits for nothing. -/
theorem waitingNames_of_isLive
    {value : Value}
    (live : value.isLive = true) :
    value.waitingNames = [] := by
  cases value <;> first | rfl | cases live

end Value

namespace Surroundings

/-- The name that a group in parentheses comes to if it waits. Other atoms are no groups. -/
def groupedName? (surroundings : Surroundings) : Atom → Option String
  | .group _ inner =>
      match (surroundings.addition inner .empty).1 with
      | .ok (.pending waiting) => some waiting.name
      | _ => none
  | _ => none

/-- The name that a node's chain starts with if the chain starts with a group that waits. -/
def leadingName? (surroundings : Surroundings) : Node → Option String
  | .primary (.mk _ start (_ :: _)) => surroundings.groupedName? start
  | _ => none

/-- The names of the groups among the nodes that wait for the links behind them. -/
def leadingNames
    (surroundings : Surroundings)
    (nodes : List Node) :
    List String :=
  nodes.filterMap surroundings.leadingName?

variable (surroundings : Surroundings)

@[simp] theorem leadingNames_nil : surroundings.leadingNames [] = [] :=
  rfl

@[simp] theorem leadingNames_cons
    (node : Node)
    (rest : List Node) :
    surroundings.leadingNames (node :: rest) =
      (surroundings.leadingName? node).toList ++ surroundings.leadingNames rest := by
  unfold leadingNames
  cases found : surroundings.leadingName? node with
  | none => rw [List.filterMap_cons_none found, Option.toList_none, List.nil_append]
  | some name => rw [List.filterMap_cons_some found, Option.toList_some, List.singleton_append]

/-- Groups of two runs of nodes are those of the one and those of the other. -/
@[simp] theorem leadingNames_append (nodes rest : List Node) :
    surroundings.leadingNames (nodes ++ rest) =
      surroundings.leadingNames nodes ++ surroundings.leadingNames rest :=
  List.filterMap_append

/-- The name of a group is the one that its value waits with, in any session. -/
theorem groupedName?_group
    {span : Source.Span}
    {inner : Addition}
    {session later : Session}
    {value : Value}
    (evaluated : surroundings.addition inner session = (.ok value, later)) :
    (surroundings.groupedName? (.group span inner)).toList = value.waitingNames := by
  have alone :=
    (Correspondence.sameOutcome surroundings).addition inner session .empty
  rw [evaluated] at alone
  simp only [groupedName?, alone]
  cases value <;> rfl

/-- The name of a group is one that its value waits with. -/
theorem groupedName?_subset
    {start : Atom}
    {session later : Session}
    {value : Value}
    (evaluated : surroundings.atom start session = (.ok value, later)) :
    (surroundings.groupedName? start).toList ⊆ value.waitingNames := by
  cases start with
  | group span inner =>
      rw [atom] at evaluated
      rw [groupedName?_group surroundings evaluated]
      exact List.Subset.refl _
  | _ => exact List.nil_subset _

/-- Where a chain ends, the name that its value waits with is noted. -/
theorem noteWaiting_notes
    {session later : Session}
    {value noted : Value}
    (runs : noteWaiting value session = (.ok noted, later)) :
    noted = value ∧ session.Notes later value.waitingNames := by
  cases value with
  | pending waiting =>
      cases runs
      exact ⟨rfl, .noteUnresolved session waiting.name⟩
  | _ =>
      cases runs
      exact ⟨rfl, .of_eq rfl⟩

/-- A call comes to a value that leads on only if all its arguments have a value. -/
theorem exists_arguments_of_call
    {items : List Addition}
    {name : String}
    {call : List Value → Calculation (Option Value)}
    {session later : Session}
    {value : Value}
    (evaluated :
      (surroundings.arguments items >>= fun values => callWith values name call) session =
        (.ok value, later))
    (leadsOn : value.leadsOn = true) :
    ∃ values middle,
      surroundings.arguments items session = (.ok (some values), middle) ∧
        callWith (some values) name call middle = (.ok value, later) := by
  obtain ⟨values?, middle, argumentsRun, callRuns⟩ := Evaluation.bind_eq_ok_iff.mp evaluated
  cases values? with
  | none =>
      cases callRuns
      cases leadsOn
  | some values => exact ⟨values, middle, argumentsRun, callRuns⟩

/-- A call notes what its arguments note. -/
theorem callWith_notes
    {items : List Addition}
    {noted : List String}
    (argumentsNote :
      ∀ {session later values},
        surroundings.arguments items session = (.ok (some values), later) →
          session.Notes later noted)
    {name : String}
    {call : List Value → Calculation (Option Value)}
    {session later : Session}
    {value : Value}
    (evaluated :
      (surroundings.arguments items >>= fun values => callWith values name call) session =
        (.ok value, later))
    (leadsOn : value.leadsOn = true) :
    session.Notes later noted := by
  obtain ⟨values, middle, argumentsRun, callRuns⟩ :=
    exists_arguments_of_call surroundings evaluated leadsOn
  have callNotes := Session.Notes.of_step (.callWith _ _ _) callRuns
  refine ((argumentsNote argumentsRun).trans callNotes).congr fun name => ?_
  rw [List.append_nil]

/-! ## Trees -/

mutual

/--
Where an addition comes to a value that leads on, the names noted meanwhile are
those of groups at the head of a chain, and the one that the value waits with.
-/
theorem addition_notes :
    (tree : Addition) →
    {session later : Session} →
    {value : Value} →
    surroundings.addition tree session = (.ok value, later) →
    value.leadsOn = true →
    session.Notes later (surroundings.leadingNames tree.nodes ++ value.waitingNames)
  | .mk span first rest, session, later, value, evaluated, leadsOn => by
      rw [addition] at evaluated
      obtain ⟨left, middle, firstRuns, restRuns⟩ := Evaluation.bind_eq_ok_iff.mp evaluated
      obtain ⟨leftLeadsOn, sameWaiting, restNotes⟩ :=
        laterTerms_notes left rest restRuns leadsOn
      have notes := (multiplication_notes first firstRuns leftLeadsOn).trans restNotes
      simpa only [Addition.nodes, sameWaiting, leadingNames_append, leadingNames_cons,
        leadingName?, Option.toList_none, List.nil_append, List.cons_append] using notes.swap

/-- Terms behind a value that leads on note the names of their groups. -/
theorem laterTerms_notes
    (left : Value) :
    (rest : List (Sign × Multiplication)) →
    {session later : Session} →
    {value : Value} →
    surroundings.laterTerms left rest session = (.ok value, later) →
    value.leadsOn = true →
    left.leadsOn = true ∧
      value.waitingNames = left.waitingNames ∧
      session.Notes later (surroundings.leadingNames (laterTermNodes rest))
  | [], session, later, value, evaluated, leadsOn => by
      rw [laterTerms] at evaluated
      cases evaluated
      exact ⟨leadsOn, rfl, .of_eq rfl⟩
  | (sign, term) :: rest, session, later, value, evaluated, leadsOn => by
      rw [laterTerms] at evaluated
      obtain ⟨right, middle, termRuns, restRuns⟩ := Evaluation.bind_eq_ok_iff.mp evaluated
      split at restRuns
      · next x y =>
          obtain ⟨-, notWaiting, restNotes⟩ := laterTerms_notes _ rest restRuns leadsOn
          refine ⟨rfl, notWaiting, ?_⟩
          have notes := (multiplication_notes term termRuns rfl).trans restNotes
          simpa only [laterTermNodes, leadingNames_append, Value.waitingNames,
            List.append_nil] using notes
      · cases restRuns
        cases leadsOn

theorem multiplication_notes :
    (tree : Multiplication) →
    {session later : Session} →
    {value : Value} →
    surroundings.multiplication tree session = (.ok value, later) →
    value.leadsOn = true →
    session.Notes later (surroundings.leadingNames tree.nodes ++ value.waitingNames)
  | .mk span first rest, session, later, value, evaluated, leadsOn => by
      rw [multiplication] at evaluated
      obtain ⟨left, middle, firstRuns, restRuns⟩ := Evaluation.bind_eq_ok_iff.mp evaluated
      obtain ⟨leftLeadsOn, sameWaiting, restNotes⟩ :=
        laterFactors_notes left rest restRuns leadsOn
      have notes := (unary_notes first firstRuns leftLeadsOn).trans restNotes
      simpa only [Multiplication.nodes, sameWaiting, leadingNames_append, leadingNames_cons,
        leadingName?, Option.toList_none, List.nil_append, List.cons_append] using notes.swap

theorem laterFactors_notes
    (left : Value) :
    (rest : List (Scaling × Unary)) →
    {session later : Session} →
    {value : Value} →
    surroundings.laterFactors left rest session = (.ok value, later) →
    value.leadsOn = true →
    left.leadsOn = true ∧
      value.waitingNames = left.waitingNames ∧
      session.Notes later (surroundings.leadingNames (laterFactorNodes rest))
  | [], session, later, value, evaluated, leadsOn => by
      rw [laterFactors] at evaluated
      cases evaluated
      exact ⟨leadsOn, rfl, .of_eq rfl⟩
  | (scaling, factor) :: rest, session, later, value, evaluated, leadsOn => by
      rw [laterFactors] at evaluated
      obtain ⟨right, middle, factorRuns, restRuns⟩ := Evaluation.bind_eq_ok_iff.mp evaluated
      split at restRuns
      · next x y =>
          obtain ⟨-, notWaiting, restNotes⟩ := laterFactors_notes _ rest restRuns leadsOn
          refine ⟨rfl, notWaiting, ?_⟩
          have notes := (unary_notes factor factorRuns rfl).trans restNotes
          simpa only [laterFactorNodes, leadingNames_append, Value.waitingNames,
            List.append_nil] using notes
      · cases restRuns
        cases leadsOn

theorem unary_notes :
    (tree : Unary) →
    {session later : Session} →
    {value : Value} →
    surroundings.unary tree session = (.ok value, later) →
    value.leadsOn = true →
    session.Notes later (surroundings.leadingNames tree.nodes ++ value.waitingNames)
  | .signed span sign operand, session, later, value, evaluated, leadsOn => by
      rw [unary] at evaluated
      obtain ⟨inner, middle, operandRuns, signRuns⟩ := Evaluation.bind_eq_ok_iff.mp evaluated
      split at signRuns
      · cases signRuns
        have notes := unary_notes operand operandRuns rfl
        simpa only [Unary.nodes, leadingNames_cons, leadingName?, Option.toList_none,
          List.nil_append, Value.waitingNames] using notes
      · cases signRuns
        cases leadsOn
  | .primary operand, session, later, value, evaluated, leadsOn => by
      rw [unary] at evaluated
      exact primary_notes operand evaluated leadsOn

theorem primary_notes :
    (tree : Primary) →
    {session later : Session} →
    {value : Value} →
    surroundings.primary tree session = (.ok value, later) →
    value.leadsOn = true →
    session.Notes later (surroundings.leadingNames tree.nodes ++ value.waitingNames)
  | .mk span start chain, session, later, value, evaluated, leadsOn => by
      rw [primary] at evaluated
      obtain ⟨head, middle, startRuns, chainRuns⟩ := Evaluation.bind_eq_ok_iff.mp evaluated
      obtain ⟨reached, last, linksRun, noteRuns⟩ := Evaluation.bind_eq_ok_iff.mp chainRuns
      obtain ⟨rfl, ownNotes⟩ := noteWaiting_notes noteRuns
      obtain ⟨headLeadsOn, linkNotes⟩ := links_notes head chain linksRun leadsOn
      have startNotes := atom_notes start startRuns headLeadsOn
      have notes := (startNotes.trans linkNotes).trans ownNotes
      refine notes.congr fun name => ?_
      cases chain with
      | nil =>
          -- A group without links behind it passes its name on to the value.
          rw [links] at linksRun
          cases linksRun
          have passedOn := @groupedName?_subset surroundings _ _ _ _ startRuns name
          simp only [Primary.nodes, linkNodes, leadingNames_cons, leadingNames_nil,
            leadingName?, Option.toList_none, List.nil_append, List.append_nil,
            List.mem_append]
          grind
      | cons link rest =>
          simp only [Primary.nodes, leadingNames_append, leadingNames_cons, leadingName?,
            List.cons_append, List.mem_append]
          grind

/-- An atom that leads on notes the names of its groups, its own among them. -/
theorem atom_notes :
    (tree : Atom) →
    {session later : Session} →
    {value : Value} →
    surroundings.atom tree session = (.ok value, later) →
    value.leadsOn = true →
    session.Notes later
      (surroundings.leadingNames tree.nodes ++ (surroundings.groupedName? tree).toList)
  | .number span x, session, later, value, evaluated, leadsOn => by
      rw [atom] at evaluated
      exact .of_step (.pure _) evaluated
  | .name span name, session, later, value, evaluated, leadsOn => by
      rw [atom] at evaluated
      exact .of_step (.nameValue surroundings name span) evaluated
  | .call span name nameSpan items, session, later, value, evaluated, leadsOn => by
      rw [atom] at evaluated
      have notes := callWith_notes surroundings (arguments_notes items) evaluated leadsOn
      simpa only [Atom.nodes, leadingNames_cons, leadingName?, groupedName?,
        Option.toList_none, List.nil_append, List.append_nil] using notes
  | .group span inner, session, later, value, evaluated, leadsOn => by
      rw [atom] at evaluated
      rw [groupedName?_group surroundings evaluated]
      exact addition_notes inner evaluated leadsOn
  | .construction span path items, session, later, value, evaluated, leadsOn => by
      rw [atom] at evaluated
      have notes := callWith_notes surroundings (arguments_notes items) evaluated leadsOn
      simpa only [Atom.nodes, leadingNames_cons, leadingName?, groupedName?,
        Option.toList_none, List.nil_append, List.append_nil] using notes

/-- Arguments that all have a value note the names of their groups. -/
theorem arguments_notes :
    (items : List Addition) →
    {session later : Session} →
    {values : List Value} →
    surroundings.arguments items session = (.ok (some values), later) →
    session.Notes later (surroundings.leadingNames (argumentNodes items))
  | [], session, later, values, evaluated => by
      rw [arguments] at evaluated
      exact .of_step (.pure _) evaluated
  | item :: rest, session, later, values, evaluated => by
      rw [arguments] at evaluated
      obtain ⟨value, middle, itemRuns, restRuns⟩ := Evaluation.bind_eq_ok_iff.mp evaluated
      split at restRuns
      · next live =>
          obtain ⟨values?, last, laterRuns, made⟩ := Evaluation.bind_eq_ok_iff.mp restRuns
          cases values? with
          | none => cases made
          | some values =>
              cases made
              have notes :=
                (addition_notes item itemRuns (Value.leadsOn_of_isLive live)).trans
                  (arguments_notes rest laterRuns)
              simpa only [argumentNodes, leadingNames_append,
                Value.waitingNames_of_isLive live, List.append_nil] using notes
      · cases restRuns

/-- Links that lead to a value that leads on note the names of groups in their arguments. -/
theorem links_notes
    (value : Value) :
    (chain : List Link) →
    {session later : Session} →
    {reached : Value} →
    surroundings.links value chain session = (.ok reached, later) →
    reached.leadsOn = true →
    value.leadsOn = true ∧
      session.Notes later (surroundings.leadingNames (linkNodes chain))
  | [], session, later, reached, evaluated, leadsOn => by
      rw [links] at evaluated
      cases evaluated
      exact ⟨leadsOn, .of_eq rfl⟩
  | link :: rest, session, later, reached, evaluated, leadsOn => by
      cases value with
      | unresolved =>
          rw [links] at evaluated
          cases evaluated
          cases leadsOn
      | null =>
          rw [links] at evaluated
          cases evaluated
          cases leadsOn
      | pending waiting =>
          rw [links] at evaluated
          obtain ⟨next, middle, linkRuns, restRuns⟩ := Evaluation.bind_eq_ok_iff.mp evaluated
          obtain ⟨nextLeadsOn, restNotes⟩ := links_notes next rest restRuns leadsOn
          have notes := (waitingLink_notes waiting link linkRuns nextLeadsOn).trans restNotes
          refine ⟨rfl, ?_⟩
          rwa [linkNodes, leadingNames_append]
      | _ =>
          rw [links_of_isLive rfl] at evaluated
          obtain ⟨next, middle, linkRuns, restRuns⟩ := Evaluation.bind_eq_ok_iff.mp evaluated
          obtain ⟨nextLeadsOn, restNotes⟩ := links_notes next rest restRuns leadsOn
          have notes := (liveLink_notes _ link linkRuns nextLeadsOn).trans restNotes
          refine ⟨rfl, ?_⟩
          rwa [linkNodes, leadingNames_append]

/-- A link behind a waiting name notes nothing but what its arguments note. -/
theorem waitingLink_notes
    (waiting : PendingName) :
    (link : Link) →
    {session later : Session} →
    {value : Value} →
    surroundings.waitingLink waiting link session = (.ok value, later) →
    value.leadsOn = true →
    session.Notes later (surroundings.leadingNames link.nodes)
  | .field span member memberSpan, session, later, value, evaluated, leadsOn => by
      rw [waitingLink] at evaluated
      exact .of_step (.qualifiedValue surroundings _ _) evaluated
  | .call span member memberSpan items, session, later, value, evaluated, leadsOn => by
      rw [waitingLink] at evaluated
      exact callWith_notes surroundings (arguments_notes items) evaluated leadsOn

/-- A link behind a live value notes nothing but what its arguments note. -/
theorem liveLink_notes
    (receiver : Value) :
    (link : Link) →
    {session later : Session} →
    {value : Value} →
    surroundings.liveLink receiver link session = (.ok value, later) →
    value.leadsOn = true →
    session.Notes later (surroundings.leadingNames link.nodes)
  | .field span member memberSpan, session, later, value, evaluated, leadsOn => by
      rw [liveLink] at evaluated
      exact .of_step (.fieldValue receiver member) evaluated
  | .call span member memberSpan items, session, later, value, evaluated, leadsOn => by
      rw [liveLink] at evaluated
      exact callWith_notes surroundings (arguments_notes items) evaluated leadsOn

end

end Surroundings

/-! ## Texts -/

/-- An expression that comes to a live value notes the names of the groups that head its chains. -/
theorem Expression.mem_unresolvedNames_iff
    {whole : Expression}
    {surroundings : Surroundings}
    {result : Result}
    (evaluated : (whole.evaluate surroundings).outcome = .ok result)
    (succeeds : result.success = true)
    (name : String) :
    name ∈ result.unresolvedNames ↔ name ∈ surroundings.leadingNames whole.nodes := by
  obtain ⟨reached, success⟩ := Expression.value_of_evaluate_eq_ok evaluated
  have live : result.value.isLive = true := success.symm.trans succeeds
  have sameNames :
      result.unresolvedNames =
        (surroundings.addition whole.root .empty).2.unresolvedNames := by
    rw [Expression.outcome_evaluate, reached] at evaluated
    exact congrArg Result.unresolvedNames (Except.ok.inj evaluated).symm
  have notes :=
    surroundings.addition_notes whole.root (Prod.ext reached rfl)
      (Value.leadsOn_of_isLive live)
  rw [Value.waitingNames_of_isLive live, List.append_nil] at notes
  rw [sameNames, notes]
  simp [Session.empty, Expression.nodes, Surroundings.leadingName?]

/--
A successful evaluation reports no names exactly if no group in parentheses at
the head of a chain comes to a name that waits for the links of the chain. The
names that it reports are the ones that such groups wait with.
-/
theorem evaluateText_unresolvedNames
    {text : List Char}
    {host : Option Host}
    {result : Result}
    (evaluated : (evaluateText text host).outcome = .ok result)
    (succeeds : result.success = true) :
    ∃ whole : Expression,
      ReadsAs text whole ∧
        let waiting :=
          Surroundings.leadingNames { host := host, source := text } whole.nodes
        (result.unresolvedNames = [] ↔ waiting = []) ∧
          ∀ name, name ∈ result.unresolvedNames ↔ name ∈ waiting := by
  rcases evaluateText_cases text with
    ⟨diagnostics, message, rejected⟩ | ⟨whole, clean, read, evaluates⟩
  · rw [(rejected host).2] at evaluated
    cases evaluated
    cases succeeds
  · rw [evaluates] at evaluated
    have names := Expression.mem_unresolvedNames_iff evaluated succeeds
    refine ⟨whole, ⟨clean, read⟩, ?_, names⟩
    rw [List.eq_nil_iff_forall_not_mem, List.eq_nil_iff_forall_not_mem]
    exact forall_congr' fun name => not_congr (names name)

/-- Of the two chains in the text one starts with a group, and that group waits. -/
theorem evaluateText_unresolvedNames_oneGroup :
    let text := "(Math).PI - Math.PI".toList
    let host : Host := fun _ _ => .object .nothing
    ∃ (result : Result) (whole : Expression),
      (evaluateText text (some host)).outcome = .ok result ∧
        ReadsAs text whole ∧
          ∀ name, name ∈ result.unresolvedNames ↔
            name ∈ Surroundings.leadingNames { host := some host, source := text } whole.nodes := by
  intro text host
  have evaluated :
      (evaluateText text (some host)).outcome.toOption =
        some (.evaluated (.number 0) ["Math"]) := by
    decide +kernel
  cases outcome : (evaluateText text (some host)).outcome with
  | error fault =>
      rw [outcome] at evaluated
      cases evaluated
  | ok result =>
      rw [outcome] at evaluated
      cases evaluated
      obtain ⟨whole, reads, -, names⟩ := evaluateText_unresolvedNames outcome rfl
      exact ⟨_, whole, rfl, reads, names⟩

/-- The group in the text is noted, although its chain comes to a number. -/
theorem evaluateText_notes_group :
    let host : Host := fun _ _ => .object .nothing
    ∃ result : Result,
      (evaluateText "(Math).PI".toList (some host)).outcome = .ok result ∧
        result.success = true ∧
          result.unresolvedNames ≠ [] := by
  intro host
  have evaluated :
      (evaluateText "(Math).PI".toList (some host)).outcome.toOption.map
          (fun result => (result.success, result.unresolvedNames)) =
        some (true, ["Math"]) := by
    decide +kernel
  cases outcome : (evaluateText "(Math).PI".toList (some host)).outcome with
  | error fault =>
      rw [outcome] at evaluated
      cases evaluated
  | ok result =>
      rw [outcome] at evaluated
      obtain ⟨succeeds, names⟩ := Prod.mk.inj (Option.some.inj evaluated)
      refine ⟨result, rfl, succeeds, ?_⟩
      rw [names]
      exact List.cons_ne_nil _ _

end PlanarExpr
