import PlanarExpr.Evaluation.Source

namespace PlanarExpr

/-!
# Corresponding evaluations

An evaluation is put together from a few kinds of steps, and it looks at its
surroundings only when it asks the host. A relation between evaluations that
these steps respect therefore holds between the evaluations of one tree in two
surroundings. A property of evaluations is the case of a relation that looks
at one of them.
-/

/-- A live value goes on through the links of a chain as a receiver. -/
theorem Surroundings.links_of_isLive
    {surroundings : Surroundings}
    {receiver : Value}
    {link : Link}
    {rest : List Link}
    (live : receiver.isLive = true) :
    surroundings.links receiver (link :: rest) =
      (do
        let next ← surroundings.liveLink receiver link
        surroundings.links next rest) := by
  cases receiver with
  | pending waiting => cases live
  | unresolved => cases live
  | null => cases live
  | _ => simp only [Surroundings.links]

/-- A relation between evaluations in two surroundings that the steps of an evaluation respect. -/
structure Correspondence
    (first second : Surroundings) where
  Related : {α : Type} → Evaluation α → Evaluation α → Prop
  pure : ∀ {α : Type} (result : α), Related (pure result) (pure result)
  bind :
    ∀ {α β : Type} {step step' : Evaluation α} {next next' : α → Evaluation β},
      Related step step' →
        (∀ result, Related (next result) (next' result)) →
          Related (step >>= next) (step' >>= next')
  report : ∀ record, Related (.report record) (.report record)
  calculate :
    ∀ {α : Type} (calculation : Calculation α),
      Related (.calculate calculation) (.calculate calculation)
  noteUnresolved :
    ∀ name,
      Related
        (.modify fun session => session.noteUnresolved name)
        (.modify fun session => session.noteUnresolved name)
  ask : ∀ start stop, Related (first.ask start stop) (second.ask start stop)

namespace Correspondence

variable
  {first second : Surroundings}
  (correspondence : Correspondence first second)

/-! ## Steps that ask nothing -/

/-- A guarded call asks nothing, so it is related to itself. -/
theorem guarded
    (what : String)
    (call : Calculation (Option Value)) :
    correspondence.Related
      (PlanarExpr.guarded what call)
      (PlanarExpr.guarded what call) := by
  unfold PlanarExpr.guarded
  refine correspondence.bind (correspondence.calculate call) ?_
  rintro (fault | none | value)
  · exact correspondence.bind (correspondence.report _) fun _ => correspondence.pure _
  · exact correspondence.bind (correspondence.report _) fun _ => correspondence.pure _
  · exact correspondence.pure value

/-- A call with known arguments asks nothing, so it is related to itself. -/
theorem callWith
    (arguments : Option (List Value))
    (name : String)
    (call : List Value → Calculation (Option Value)) :
    correspondence.Related
      (PlanarExpr.callWith arguments name call)
      (PlanarExpr.callWith arguments name call) := by
  cases arguments with
  | none => exact correspondence.pure _
  | some values => exact correspondence.guarded _ _

/-- A field of a value asks nothing, so it is related to itself. -/
theorem fieldValue
    (receiver : Value)
    (member : String) :
    correspondence.Related
      (Surroundings.fieldValue receiver member)
      (Surroundings.fieldValue receiver member) := by
  unfold Surroundings.fieldValue
  cases receiver.field? member with
  | none =>
      exact correspondence.bind (correspondence.report _) fun _ => correspondence.pure _
  | some value => exact correspondence.pure value

/-- Noting a name that waits asks nothing, so it is related to itself. -/
theorem noteWaiting (value : Value) :
    correspondence.Related
      (Surroundings.noteWaiting value)
      (Surroundings.noteWaiting value) := by
  cases value with
  | pending waiting =>
      exact
        correspondence.bind (correspondence.noteUnresolved waiting.name) fun _ =>
          correspondence.pure _
  | _ => exact correspondence.pure _

/-! ## Steps that ask -/

/-- A name that stands on its own asks about its own span on both sides. -/
theorem nameValue
    (name : String)
    (span : Source.Span) :
    correspondence.Related (first.nameValue name span) (second.nameValue name span) := by
  unfold Surroundings.nameValue
  cases Registry.constant? name with
  | some value => exact correspondence.pure value
  | none =>
      refine correspondence.bind (correspondence.ask _ _) ?_
      rintro (none | value)
      · exact correspondence.pure _
      · exact correspondence.pure value

/-- A longer name asks about its whole range on both sides. -/
theorem qualifiedValue
    (qualified : PendingName)
    (memberSpan : Source.Span) :
    correspondence.Related
      (first.qualifiedValue qualified memberSpan)
      (second.qualifiedValue qualified memberSpan) := by
  unfold Surroundings.qualifiedValue
  refine correspondence.bind (correspondence.ask _ _) ?_
  rintro (none | value)
  · cases Registry.constant? qualified.name with
    | none => exact correspondence.pure _
    | some value => exact correspondence.pure value
  · exact correspondence.pure value

/-! ## Trees -/

mutual

/-- The evaluations of a sum are related, as those of its terms are. -/
theorem addition :
    (tree : Addition) →
    correspondence.Related (first.addition tree) (second.addition tree)
  | .mk _ term later => by
      rw [Surroundings.addition, Surroundings.addition]
      refine correspondence.bind (multiplication term) ?_
      intro value
      exact laterTerms value later

/-- The evaluations of the terms behind a value are related. -/
theorem laterTerms
    (left : Value) :
    (later : List (Sign × Multiplication)) →
    correspondence.Related (first.laterTerms left later) (second.laterTerms left later)
  | [] => by
      rw [Surroundings.laterTerms, Surroundings.laterTerms]
      exact correspondence.pure left
  | (sign, term) :: rest => by
      rw [Surroundings.laterTerms, Surroundings.laterTerms]
      refine correspondence.bind (multiplication term) ?_
      intro right
      split
      · exact laterTerms _ rest
      · exact correspondence.pure _

theorem multiplication :
    (tree : Multiplication) →
    correspondence.Related (first.multiplication tree) (second.multiplication tree)
  | .mk _ factor later => by
      rw [Surroundings.multiplication, Surroundings.multiplication]
      refine correspondence.bind (unary factor) ?_
      intro value
      exact laterFactors value later

theorem laterFactors
    (left : Value) :
    (later : List (Scaling × Unary)) →
    correspondence.Related
      (first.laterFactors left later)
      (second.laterFactors left later)
  | [] => by
      rw [Surroundings.laterFactors, Surroundings.laterFactors]
      exact correspondence.pure left
  | (scaling, factor) :: rest => by
      rw [Surroundings.laterFactors, Surroundings.laterFactors]
      refine correspondence.bind (unary factor) ?_
      intro right
      split
      · exact laterFactors _ rest
      · exact correspondence.pure _

theorem unary :
    (tree : Unary) →
    correspondence.Related (first.unary tree) (second.unary tree)
  | .signed _ sign operand => by
      rw [Surroundings.unary, Surroundings.unary]
      refine correspondence.bind (unary operand) ?_
      intro value
      split
      · exact correspondence.pure _
      · exact correspondence.pure _
  | .primary operand => by
      rw [Surroundings.unary, Surroundings.unary]
      exact primary operand

theorem primary :
    (tree : Primary) →
    correspondence.Related (first.primary tree) (second.primary tree)
  | .mk _ start chain => by
      rw [Surroundings.primary, Surroundings.primary]
      refine correspondence.bind (atom start) ?_
      intro value
      refine correspondence.bind (links value chain) ?_
      intro reached
      exact correspondence.noteWaiting reached

theorem atom :
    (tree : Atom) →
    correspondence.Related (first.atom tree) (second.atom tree)
  | .number _ value => by
      rw [Surroundings.atom, Surroundings.atom]
      exact correspondence.pure _
  | .name span name => by
      rw [Surroundings.atom, Surroundings.atom]
      exact correspondence.nameValue name span
  | .call _ name _ items => by
      rw [Surroundings.atom, Surroundings.atom]
      refine correspondence.bind (arguments items) ?_
      intro values
      exact correspondence.callWith values _ _
  | .group _ inner => by
      rw [Surroundings.atom, Surroundings.atom]
      exact addition inner
  | .construction _ path items => by
      rw [Surroundings.atom, Surroundings.atom]
      refine correspondence.bind (arguments items) ?_
      intro values
      exact correspondence.callWith values _ _

/-- The evaluations of arguments are related, up to the first one that is not live. -/
theorem arguments :
    (items : List Addition) →
    correspondence.Related (first.arguments items) (second.arguments items)
  | [] => by
      rw [Surroundings.arguments, Surroundings.arguments]
      exact correspondence.pure _
  | item :: rest => by
      rw [Surroundings.arguments, Surroundings.arguments]
      refine correspondence.bind (addition item) ?_
      intro value
      split
      · refine correspondence.bind (arguments rest) ?_
        intro later
        exact correspondence.pure _
      · exact correspondence.pure _

/-- The evaluations of a chain are related, link by link. -/
theorem links
    (value : Value) :
    (chain : List Link) →
    correspondence.Related (first.links value chain) (second.links value chain)
  | [] => by
      rw [Surroundings.links, Surroundings.links]
      exact correspondence.pure value
  | link :: rest => by
      cases value with
      | unresolved =>
          rw [Surroundings.links, Surroundings.links]
          exact correspondence.pure _
      | null =>
          rw [Surroundings.links, Surroundings.links]
          exact correspondence.pure _
      | pending waiting =>
          rw [Surroundings.links, Surroundings.links]
          exact
            correspondence.bind (waitingLink waiting link) fun next =>
              links next rest
      | _ =>
          rw [Surroundings.links_of_isLive rfl, Surroundings.links_of_isLive rfl]
          exact
            correspondence.bind (liveLink _ link) fun next =>
              links next rest

/-- A link behind a name that waits is related to itself. -/
theorem waitingLink
    (waiting : PendingName) :
    (link : Link) →
    correspondence.Related
      (first.waitingLink waiting link)
      (second.waitingLink waiting link)
  | .field _ member memberSpan => by
      rw [Surroundings.waitingLink, Surroundings.waitingLink]
      exact correspondence.qualifiedValue _ memberSpan
  | .call _ member _ items => by
      rw [Surroundings.waitingLink, Surroundings.waitingLink]
      refine correspondence.bind (arguments items) ?_
      intro values
      exact correspondence.callWith values _ _

/-- A link behind a live value is related to itself. -/
theorem liveLink
    (receiver : Value) :
    (link : Link) →
    correspondence.Related
      (first.liveLink receiver link)
      (second.liveLink receiver link)
  | .field _ member _ => by
      rw [Surroundings.liveLink, Surroundings.liveLink]
      exact correspondence.fieldValue receiver member
  | .call _ member _ items => by
      rw [Surroundings.liveLink, Surroundings.liveLink]
      refine correspondence.bind (arguments items) ?_
      intro values
      exact correspondence.callWith values _ _

end

/-- The evaluations of one expression in two surroundings correspond. -/
theorem expression (whole : Expression) :
    correspondence.Related (first.expression whole) (second.expression whole) :=
  correspondence.addition whole.root

/-- A node that can be evaluated on its own in one of two surroundings can be so in the other. -/
theorem node
    {node : Node}
    {step : Evaluation Value}
    (isStep : first.node node = .ok step) :
    ∃ step', second.node node = .ok step' ∧ correspondence.Related step step' := by
  cases node with
  | expression whole =>
      cases isStep
      exact ⟨_, rfl, correspondence.expression whole⟩
  | addition part =>
      cases isStep
      exact ⟨_, rfl, correspondence.addition part⟩
  | multiplication part =>
      cases isStep
      exact ⟨_, rfl, correspondence.multiplication part⟩
  | signed span sign operand =>
      cases isStep
      exact ⟨_, rfl, correspondence.unary (.signed span sign operand)⟩
  | primary part =>
      cases isStep
      exact ⟨_, rfl, correspondence.primary part⟩
  | atom part =>
      cases isStep
      exact ⟨_, rfl, correspondence.atom part⟩
  | link part => cases isStep

end Correspondence

/-! ## Texts -/

/-- A text without stray characters that reads as an expression is evaluated as that. -/
theorem evaluateText_of_read
    {text : List Char}
    {expression : Expression}
    (clean : (Lexed.ofText text).diagnostics = [])
    (read : (Lexed.ofText text).stream.parse (some text) = .ok expression)
    (host : Option Host) :
    evaluateText text host =
      expression.evaluate { host := host, source := text } := by
  simp only [evaluateText, clean, read]

/--
A text is either rejected, whatever the host, or read as an expression that is
evaluated with the host.
-/
theorem evaluateText_cases (text : List Char) :
    (∃ diagnostics message, ∀ host,
      (evaluateText text host).queries = [] ∧
        (evaluateText text host).outcome = .ok (.rejected diagnostics message)) ∨
      ∃ expression : Expression,
        (Lexed.ofText text).diagnostics = [] ∧
          (Lexed.ofText text).stream.parse (some text) = .ok expression ∧
            ∀ host,
              evaluateText text host =
                expression.evaluate { host := host, source := text } := by
  cases stray : (Lexed.ofText text).diagnostics with
  | cons first rest =>
      left
      refine ⟨first :: rest, "Lexer error: " ++ first.message, fun host => ?_⟩
      simp only [evaluateText, stray]
      exact ⟨rfl, rfl⟩
  | nil =>
      cases read : (Lexed.ofText text).stream.parse (some text) with
      | error diagnostic =>
          left
          refine ⟨[diagnostic], "Parser error: " ++ diagnostic.message, fun host => ?_⟩
          simp only [evaluateText, stray, read]
          exact ⟨rfl, rfl⟩
      | ok expression =>
          right
          exact ⟨expression, rfl, rfl, evaluateText_of_read stray read⟩

end PlanarExpr
