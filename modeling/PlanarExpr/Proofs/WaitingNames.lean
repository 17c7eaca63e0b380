import PlanarExpr.Proofs.GroupedNames
import PlanarExpr.Proofs.HostAgreement
import PlanarExpr.Proofs.Layout
import PlanarExpr.Proofs.NameUses

namespace PlanarExpr

/-!
# Names that wait

A part of an expression can come to a waiting name only if it is a name with
links behind it, perhaps in parentheses: operators, calls and constructions
end the waiting. So the name that a part may wait with is known from the
expression, and with it all ranges that an evaluation may ask about, as long
as the host itself never answers with a waiting name.
-/

open Source

/-! ## The name at the head of a part -/

/-- What is at the head of a chain of operators waits only if it stands alone. -/
def aloneHead? (head? : Option Span) : List α → Option Span
  | [] => head?
  | _ :: _ => none

/-- What is at the head of a chain of links waits until a member is called. -/
def chainHead? (head? : Option Span) : List Link → Option Span
  | [] => head?
  | .field _ _ _ :: rest => chainHead? head? rest
  | .call _ _ _ _ :: _ => none

mutual

/-- The span of the name that an addition waits with if it waits. -/
def Addition.head? : Addition → Option Span
  | .mk _ first later => aloneHead? first.head? later

/-- The span of the name that a multiplication waits with if it waits. -/
def Multiplication.head? : Multiplication → Option Span
  | .mk _ first later => aloneHead? first.head? later

/-- The span of the name that a unary expression waits with; a signed one never waits. -/
def Unary.head? : Unary → Option Span
  | .signed _ _ _ => none
  | .primary operand => operand.head?

/-- The span of the name that a primary waits with if it waits. -/
def Primary.head? : Primary → Option Span
  | .mk _ start chain => chainHead? start.head? chain

/-- The span of the name that an atom waits with; calls and constructions never wait. -/
def Atom.head? : Atom → Option Span
  | .number _ _ => none
  | .name span _ => some span
  | .call _ _ _ _ => none
  | .group _ inner => inner.head?
  | .construction _ _ _ => none

end

@[simp] theorem aloneHead?_none (later : List α) : aloneHead? none later = none := by
  cases later <;> rfl

@[simp] theorem chainHead?_none (chain : List Link) : chainHead? none chain = none := by
  induction chain with
  | nil => rfl
  | cons link rest inductionHypothesis =>
      cases link with
      | field span member memberSpan => exact inductionHypothesis
      | call span member memberSpan items => rfl

/-- A chain of operators waits only if it has no operator. -/
theorem eq_of_aloneHead?_eq_some
    {head? : Option Span}
    {later : List α}
    {head : Span}
    (waits : aloneHead? head? later = some head) :
    later = [] ∧ head? = some head := by
  cases later with
  | nil => exact ⟨rfl, waits⟩
  | cons entry rest => cases waits

/-- A chain of links waits with what its start waits with. -/
theorem eq_of_chainHead?_eq_some
    {head? : Option Span}
    {chain : List Link}
    {head : Span}
    (waits : chainHead? head? chain = some head) :
    head? = some head := by
  induction chain with
  | nil => exact waits
  | cons link rest inductionHypothesis =>
      cases link with
      | field span member memberSpan => exact inductionHypothesis waits
      | call span member memberSpan items => cases waits

/-! ## Questions -/

/-- A range from one name to another that an evaluation may ask about. -/
structure Question where
  head : Span
  last : Span

/-- The range that a question is about. -/
def Question.range (question : Question) : Int × Int :=
  (question.head.start.offset, question.last.stop.offset)

/-- What a chain of links asks about if its start waits. -/
def chainQuestions (head? : Option Span) : List Link → List Question
  | [] => []
  | .field _ _ memberSpan :: rest =>
      head?.toList.map (fun head => { head := head, last := memberSpan }) ++
        chainQuestions head? rest
  | .call _ _ _ _ :: _ => []

/-- What an evaluation asks about at a node, apart from the nodes below it. -/
def Node.questions : Node → List Question
  | .atom (.name span _) => [{ head := span, last := span }]
  | .primary (.mk _ start chain) => chainQuestions start.head? chain
  | _ => []

/-- What an evaluation asks about at some nodes. -/
def nodeQuestions (nodes : List Node) : List Question :=
  nodes.flatMap Node.questions

@[simp] theorem nodeQuestions_cons
    (node : Node)
    (rest : List Node) :
    nodeQuestions (node :: rest) = node.questions ++ nodeQuestions rest :=
  rfl

@[simp] theorem nodeQuestions_append (nodes rest : List Node) :
    nodeQuestions (nodes ++ rest) = nodeQuestions nodes ++ nodeQuestions rest :=
  List.flatMap_append

@[simp] theorem chainQuestions_none (chain : List Link) : chainQuestions none chain = [] := by
  induction chain with
  | nil => rfl
  | cons link rest inductionHypothesis =>
      cases link with
      | field span member memberSpan => exact inductionHypothesis
      | call span member memberSpan items => rfl

/-- The questions of a chain start at its head. -/
theorem head?_of_mem_chainQuestions
    {head? : Option Span}
    {chain : List Link}
    {question : Question}
    (member : question ∈ chainQuestions head? chain) :
    head? = some question.head := by
  cases head? with
  | none =>
      rw [chainQuestions_none] at member
      cases member
  | some head =>
      induction chain with
      | nil => cases member
      | cons link rest inductionHypothesis =>
          cases link with
          | field span name memberSpan =>
              rcases List.mem_cons.mp member with rfl | later
              · rfl
              · exact inductionHypothesis later
          | call span name memberSpan items => cases member

/-! ## Where questions start -/

section Mentioned

variable {head : Span}

mutual

/-- The name that an addition waits with is one that it mentions. -/
theorem Addition.exists_mention_of_head? :
    ∀ {tree : Addition},
      tree.head? = some head →
      ∃ name, { name := name, span := head, isMember := false } ∈ tree.mentions
  | .mk _ first later, waits => by
      rw [Addition.head?] at waits
      rw [Addition.mentions]
      obtain ⟨name, mentioned⟩ :=
        first.exists_mention_of_head? (eq_of_aloneHead?_eq_some waits).2
      exact ⟨name, List.mem_append_left _ mentioned⟩

theorem Multiplication.exists_mention_of_head? :
    ∀ (tree : Multiplication),
      tree.head? = some head →
      ∃ name, { name := name, span := head, isMember := false } ∈ tree.mentions
  | .mk _ first later, waits => by
      rw [Multiplication.head?] at waits
      rw [Multiplication.mentions]
      obtain ⟨name, mentioned⟩ :=
        first.exists_mention_of_head? (eq_of_aloneHead?_eq_some waits).2
      exact ⟨name, List.mem_append_left _ mentioned⟩

theorem Unary.exists_mention_of_head? :
    ∀ (tree : Unary),
      tree.head? = some head →
      ∃ name, { name := name, span := head, isMember := false } ∈ tree.mentions
  | .signed _ _ _, waits => by
      rw [Unary.head?] at waits
      cases waits
  | .primary operand, waits => by
      rw [Unary.head?] at waits
      rw [Unary.mentions]
      exact operand.exists_mention_of_head? waits

theorem Primary.exists_mention_of_head? :
    ∀ (tree : Primary),
      tree.head? = some head →
      ∃ name, { name := name, span := head, isMember := false } ∈ tree.mentions
  | .mk _ start chain, waits => by
      rw [Primary.head?] at waits
      rw [Primary.mentions]
      obtain ⟨name, mentioned⟩ :=
        start.exists_mention_of_head? (eq_of_chainHead?_eq_some waits)
      exact ⟨name, List.mem_append_left _ mentioned⟩

theorem Atom.exists_mention_of_head? :
    ∀ (tree : Atom),
      tree.head? = some head →
      ∃ name, { name := name, span := head, isMember := false } ∈ tree.mentions
  | .name span name, waits => by
      rw [Atom.head?] at waits
      cases waits
      rw [Atom.mentions]
      exact ⟨name, List.mem_singleton_self _⟩
  | .group _ inner, waits => by
      rw [Atom.head?] at waits
      rw [Atom.mentions]
      exact Addition.exists_mention_of_head? waits
  | .number _ _, waits => by
      rw [Atom.head?] at waits
      cases waits
  | .call _ _ _ _, waits => by
      rw [Atom.head?] at waits
      cases waits
  | .construction _ _ _, waits => by
      rw [Atom.head?] at waits
      cases waits

end

end Mentioned

/-- The mentions in a node. -/
def Node.mentions : Node → List Mention
  | .expression whole => whole.mentions
  | .addition node => node.mentions
  | .multiplication node => node.mentions
  | .signed _ _ operand => operand.mentions
  | .primary node => node.mentions
  | .atom node => node.mentions
  | .link node => node.mentions

/-- The node of a unary expression mentions what it mentions. -/
theorem Unary.mentions_node (tree : Unary) : tree.node.mentions = tree.mentions := by
  cases tree with
  | signed span sign operand => rw [Unary.mentions, Unary.node, Node.mentions]
  | primary operand => rw [Unary.mentions, Unary.node, Node.mentions]

/-- Later terms mention what each of them mentions. -/
theorem laterTermMentions_eq_flatMap (later : List (Sign × Multiplication)) :
    laterTermMentions later = later.flatMap fun (_, term) => term.mentions := by
  induction later with
  | nil => rw [laterTermMentions, List.flatMap_nil]
  | cons entry rest inductionHypothesis =>
      rw [laterTermMentions, List.flatMap_cons, inductionHypothesis]

theorem laterFactorMentions_eq_flatMap (later : List (Scaling × Unary)) :
    laterFactorMentions later = later.flatMap fun (_, factor) => factor.mentions := by
  induction later with
  | nil => rw [laterFactorMentions, List.flatMap_nil]
  | cons entry rest inductionHypothesis =>
      rw [laterFactorMentions, List.flatMap_cons, inductionHypothesis]

theorem linkMentions_eq_flatMap (chain : List Link) :
    linkMentions chain = chain.flatMap Link.mentions := by
  induction chain with
  | nil => rw [linkMentions, List.flatMap_nil]
  | cons link rest inductionHypothesis =>
      rw [linkMentions, List.flatMap_cons, inductionHypothesis]

theorem argumentMentions_eq_flatMap (items : List Addition) :
    argumentMentions items = items.flatMap Addition.mentions := by
  induction items with
  | nil => rw [argumentMentions, List.flatMap_nil]
  | cons item rest inductionHypothesis =>
      rw [argumentMentions, List.flatMap_cons, inductionHypothesis]

/-- A node mentions what the nodes directly below it mention. -/
theorem Node.mentions_child_subset
    {node child : Node}
    (member : child ∈ node.children) :
    child.mentions ⊆ node.mentions := by
  have ofItems :
      ∀ items : List Addition, ∀ item ∈ items.map Node.addition,
        item.mentions ⊆ argumentMentions items := by
    intro items
    rw [argumentMentions_eq_flatMap]
    exact List.forall_mem_map.mpr fun item isItem _ mentioned =>
      List.mem_flatMap.mpr ⟨item, isItem, mentioned⟩
  cases node with
  | expression whole =>
      cases List.mem_singleton.mp member
      exact List.Subset.refl _
  | addition node =>
      obtain ⟨span, first, later⟩ := node
      rw [mentions, Addition.mentions, laterTermMentions_eq_flatMap]
      rcases List.mem_cons.mp member with rfl | isLater
      · exact List.subset_append_left _ _
      · obtain ⟨entry, isEntry, rfl⟩ := List.mem_map.mp isLater
        exact fun _ mentioned =>
          List.mem_append_right _ (List.mem_flatMap.mpr ⟨entry, isEntry, mentioned⟩)
  | multiplication node =>
      obtain ⟨span, first, later⟩ := node
      rw [mentions, Multiplication.mentions, laterFactorMentions_eq_flatMap]
      rcases List.mem_cons.mp member with rfl | isLater
      · rw [first.mentions_node]
        exact List.subset_append_left _ _
      · obtain ⟨entry, isEntry, rfl⟩ := List.mem_map.mp isLater
        rw [entry.2.mentions_node]
        exact fun _ mentioned =>
          List.mem_append_right _ (List.mem_flatMap.mpr ⟨entry, isEntry, mentioned⟩)
  | signed span sign operand =>
      cases List.mem_singleton.mp member
      rw [operand.mentions_node, mentions]
      exact List.Subset.refl _
  | primary node =>
      obtain ⟨span, start, chain⟩ := node
      rw [mentions, Primary.mentions, linkMentions_eq_flatMap]
      rcases List.mem_cons.mp member with rfl | isLink
      · exact List.subset_append_left _ _
      · obtain ⟨link, inChain, rfl⟩ := List.mem_map.mp isLink
        exact fun _ mentioned =>
          List.mem_append_right _ (List.mem_flatMap.mpr ⟨link, inChain, mentioned⟩)
  | atom node =>
      cases node with
      | number span value => cases member
      | name span name => cases member
      | call span name nameSpan items =>
          rw [mentions, Atom.mentions]
          exact ofItems items child member
      | group span inner =>
          cases List.mem_singleton.mp member
          rw [mentions, mentions, Atom.mentions]
          exact List.Subset.refl _
      | construction span path items =>
          rw [mentions, Atom.mentions]
          exact ofItems items child member
  | link node =>
      cases node with
      | field span member memberSpan => cases member
      | call span name memberSpan items =>
          rw [mentions, Link.mentions]
          exact ofItems items child member

/-- No node mentions what the expression does not. -/
theorem Expression.mentions_subset_of_mem_nodes (whole : Expression) :
    ∀ node ∈ whole.nodes, node.mentions ⊆ whole.mentions :=
  Expression.forall_nodes
    (fun _ within _ isChild => List.Subset.trans (Node.mentions_child_subset isChild) within)
    (List.Subset.refl _)

/-- What is asked about at a node starts with a name that the expression mentions. -/
theorem Expression.exists_mention_of_question
    {whole : Expression}
    {node : Node}
    (member : node ∈ whole.nodes)
    {question : Question}
    (asks : question ∈ node.questions) :
    ∃ name, { name := name, span := question.head, isMember := false } ∈ whole.mentions := by
  have within := whole.mentions_subset_of_mem_nodes node member
  cases node with
  | primary node =>
      obtain ⟨span, start, chain⟩ := node
      obtain ⟨name, mentioned⟩ :=
        start.exists_mention_of_head? (head?_of_mem_chainQuestions asks)
      rw [Node.mentions, Primary.mentions] at within
      exact ⟨name, within (List.mem_append_left _ mentioned)⟩
  | atom node =>
      cases node with
      | name span name =>
          cases List.mem_singleton.mp asks
          rw [Node.mentions, Atom.mentions] at within
          exact ⟨name, within (List.mem_singleton_self _)⟩
      | _ => cases asks
  | _ => cases asks

/-! ## Steps that ask -/

/-- If a value waits, then with a name that starts where the head does. -/
def Value.WaitsFor
    (head? : Option Span)
    (value : Value) :
    Prop :=
  ∀ waiting, value = .pending waiting → ∃ head ∈ head?, waiting.start = head.start.offset

namespace Value.WaitsFor

/-- A settled value waits for no name, whatever the head is. -/
theorem of_isSettled
    {value : Value}
    (settled : value.isSettled = true)
    (head? : Option Span) :
    value.WaitsFor head? := by
  rintro waiting rfl
  cases settled

/-- A waiting name that starts where the head does. -/
theorem pending
    {head : Span}
    {waiting : PendingName}
    (starts : waiting.start = head.start.offset) :
    (Value.pending waiting).WaitsFor (some head) := by
  rintro _ ⟨⟩
  exact ⟨head, rfl, starts⟩

/-- What waits for no name at all waits for none, whatever head it is read under. -/
theorem of_none
    {value : Value}
    (waits : value.WaitsFor none)
    (head? : Option Span) :
    value.WaitsFor head? := by
  intro waiting isWaiting
  obtain ⟨_, absent, _⟩ := waits waiting isWaiting
  cases absent

end Value.WaitsFor

/-- A step asks only some questions, and has results with a property. -/
def Evaluation.Asks
    (questions : List Question)
    (property : α → Prop)
    (step : Evaluation α) :
    Prop :=
  ∀ session, ∃ asked ⊆ questions,
    (step session).2.queries = session.queries ++ asked.map Question.range ∧
      ∀ result, (step session).1 = .ok result → property result

namespace Evaluation.Asks

variable
  {questions : List Question}
  {property : α → Prop}

/-- A step that asks nothing asks only the given questions. -/
theorem of_silent
    {step : Evaluation α}
    (silent : ∀ session, (step session).2.queries = session.queries)
    (holds : ∀ session result, (step session).1 = .ok result → property result) :
    step.Asks questions property := by
  intro session
  refine ⟨[], List.nil_subset _, ?_, holds session⟩
  rw [silent, List.map_nil, List.append_nil]

/-- What is simply given asks nothing. -/
theorem pure
    {result : α}
    (holds : property result) :
    (Pure.pure result : Evaluation α).Asks questions property := by
  refine of_silent (fun _ => rfl) ?_
  rintro session _ ⟨⟩
  exact holds

/-- A step that asks only some questions asks only some of more questions. -/
theorem mono
    {step : Evaluation α}
    {more : List Question}
    {weaker : α → Prop}
    (asks : step.Asks questions property)
    (within : questions ⊆ more)
    (weakens : ∀ result, property result → weaker result) :
    step.Asks more weaker := by
  intro session
  obtain ⟨asked, among, grown, holds⟩ := asks session
  exact
    ⟨asked, List.Subset.trans among within, grown,
      fun result reached => weakens result (holds result reached)⟩

/-- Two steps ask the questions of the one and then those of the other. -/
theorem bind
    {later : List Question}
    {laterProperty : β → Prop}
    {step : Evaluation α}
    {next : α → Evaluation β}
    (first : step.Asks questions property)
    (second : ∀ result, property result → (next result).Asks later laterProperty) :
    (step >>= next).Asks (questions ++ later) laterProperty := by
  intro session
  obtain ⟨asked, among, grown, holds⟩ := first session
  rw [bind_apply]
  rcases runs : step session with ⟨fault | result, middle⟩
  · rw [runs] at grown
    refine ⟨asked, fun _ member => List.mem_append_left _ (among member), grown, ?_⟩
    rintro _ ⟨⟩
  · rw [runs] at grown holds
    obtain ⟨askedLater, amongLater, grownLater, holdsLater⟩ :=
      second result (holds result rfl) middle
    refine ⟨asked ++ askedLater, List.append_subset.mpr ⟨?_, ?_⟩, ?_, holdsLater⟩
    · exact fun _ member => List.mem_append_left _ (among member)
    · exact fun _ member => List.mem_append_right _ (amongLater member)
    · rw [grownLater, grown, List.map_append, List.append_assoc]

/-- A step that asks and then one that does not. -/
theorem bind_silent
    {laterProperty : β → Prop}
    {step : Evaluation α}
    {next : α → Evaluation β}
    (first : step.Asks questions property)
    (second : ∀ result, property result → (next result).Asks [] laterProperty) :
    (step >>= next).Asks questions laterProperty := by
  have whole := first.bind second
  rwa [List.append_nil] at whole

end Evaluation.Asks

/-! ## Steps that ask nothing and give settled values -/

/-- A guarded call that settles asks nothing. -/
theorem guarded_asks
    {call : Calculation (Option Value)}
    (settles : Registry.CallSettles call)
    (what : String) :
    (guarded what call).Asks [] (Value.WaitsFor none) := by
  obtain ⟨log, outcome⟩ := call
  rcases outcome with fault | none | found
  · refine .of_silent (fun _ => rfl) ?_
    rintro session _ ⟨⟩
    exact .of_isSettled rfl _
  · refine .of_silent (fun _ => rfl) ?_
    rintro session _ ⟨⟩
    exact .of_isSettled rfl _
  · refine .of_silent (fun _ => rfl) ?_
    rintro session _ ⟨⟩
    exact .of_isSettled (settles found rfl) _

/-- A call that settles asks nothing. -/
theorem callWith_asks
    {call : List Value → Calculation (Option Value)}
    (settles : ∀ arguments, Registry.CallSettles (call arguments))
    (arguments : Option (List Value))
    (name : String) :
    (callWith arguments name call).Asks [] (Value.WaitsFor none) := by
  cases arguments with
  | none => exact .pure (.of_isSettled rfl none)
  | some values => exact guarded_asks (settles values) _

/-- No answer of the host to a question is a waiting name. -/
def Host.IsSettledOn
    (host : Host)
    (question : Int × Int) :
    Prop :=
  ∀ waiting, (host question.1 question.2).answer ≠ some (.value (.pending waiting))

namespace Surroundings

/-- A host, if there is one, never answers with a waiting name. -/
def AnswersSettled (surroundings : Surroundings) : Prop :=
  ∀ host ∈ surroundings.host, ∀ question, host.IsSettledOn question

/-- Reading a field asks nothing, and gives a settled value. -/
theorem fieldValue_asks
    (receiver : Value)
    (member : String) :
    (fieldValue receiver member).Asks [] (Value.WaitsFor none) := by
  unfold fieldValue
  cases found : receiver.field? member with
  | some value => exact .pure (.of_isSettled (Value.isSettled_of_field? found) none)
  | none =>
      refine .of_silent (fun _ => rfl) ?_
      rintro session _ ⟨⟩
      exact .of_isSettled rfl none

/-- Noting a value that waits asks nothing. -/
theorem noteWaiting_asks
    {head? : Option Span}
    {value : Value}
    (waits : value.WaitsFor head?) :
    (noteWaiting value).Asks [] (Value.WaitsFor head?) := by
  refine .of_silent (fun session => ?_) fun session noted reached => ?_
  · obtain ⟨asked, grown, within⟩ := noteWaiting_asksAt [] value session
    have none : asked = [] := List.map_eq_nil_iff.mp (List.sublist_nil.mp within)
    rw [grown, none, List.append_nil]
  · obtain ⟨rfl, -⟩ := noteWaiting_notes (Prod.ext reached rfl)
    exact waits

/-! ## Trees -/

variable {surroundings : Surroundings}

/-- Asking a question asks it, and gives a settled answer. -/
theorem ask_asks
    (settled : surroundings.AnswersSettled)
    (question : Question) :
    (surroundings.ask question.head.start.offset question.last.stop.offset).Asks [question]
      fun found => ∀ value ∈ found, value.isSettled = true := by
  obtain ⟨answering, source⟩ := surroundings
  cases answering with
  | none => exact .pure nofun
  | some host =>
      intro session
      obtain ⟨records, asked⟩ :=
        Surroundings.ask_apply host source question.head.start.offset
          question.last.stop.offset session
      rw [asked]
      refine ⟨[question], List.Subset.refl _, rfl, ?_⟩
      rintro found reached value rfl
      exact Reply.isSettled_of_value (settled host rfl question.range) reached

/-- A name that stands on its own asks about itself, and may wait. -/
theorem nameValue_asks
    (settled : surroundings.AnswersSettled)
    (name : String)
    (span : Span) :
    (surroundings.nameValue name span).Asks [{ head := span, last := span }]
      (Value.WaitsFor (some span)) := by
  unfold nameValue
  cases known : Registry.constant? name with
  | some value => exact .pure (.of_isSettled (Registry.isSettled_of_constant? known) _)
  | none =>
      refine .bind_silent (ask_asks settled { head := span, last := span }) ?_
      rintro (none | value) isSettled
      · exact .pure (.pending rfl)
      · exact .pure (.of_isSettled (isSettled value rfl) _)

/-- A longer name asks about its range, and may wait on. -/
theorem qualifiedValue_asks
    (settled : surroundings.AnswersSettled)
    {qualified : PendingName}
    {head : Span}
    (starts : qualified.start = head.start.offset)
    (memberSpan : Span) :
    (surroundings.qualifiedValue qualified memberSpan).Asks
      [{ head := head, last := memberSpan }] (Value.WaitsFor (some head)) := by
  unfold qualifiedValue
  rw [starts]
  refine .bind_silent (ask_asks settled { head := head, last := memberSpan }) ?_
  rintro (none | value) isSettled
  · cases known : Registry.constant? qualified.name with
    | none => exact .pure (.pending starts)
    | some value => exact .pure (.of_isSettled (Registry.isSettled_of_constant? known) _)
  · exact .pure (.of_isSettled (isSettled value rfl) _)

mutual

/-- An addition asks what its nodes ask, and comes to a value that waits for its head, if at all. -/
theorem addition_asks (settled : surroundings.AnswersSettled) :
    (tree : Addition) →
    (surroundings.addition tree).Asks (nodeQuestions tree.nodes) (Value.WaitsFor tree.head?)
  | .mk span first later => by
      rw [addition, Addition.nodes, Addition.head?, List.cons_append, nodeQuestions_cons,
        nodeQuestions_append]
      exact (multiplication_asks settled first).bind fun _ waits =>
        laterTerms_asks settled waits later

/-- Later terms ask what their nodes ask, and end the waiting of what stands before them. -/
theorem laterTerms_asks
    (settled : surroundings.AnswersSettled)
    {head? : Option Span}
    {left : Value}
    (waits : left.WaitsFor head?) :
    (later : List (Sign × Multiplication)) →
    (surroundings.laterTerms left later).Asks (nodeQuestions (laterTermNodes later))
      (Value.WaitsFor (aloneHead? head? later))
  | [] => by
      rw [laterTerms]
      exact .pure waits
  | (sign, term) :: rest => by
      rw [laterTerms, laterTermNodes, nodeQuestions_append, aloneHead?]
      refine (multiplication_asks settled term).bind ?_
      rintro right -
      split
      · next x y =>
          have isSettled : Value.WaitsFor none (.number (sign.combine x y)) :=
            .of_isSettled rfl _
          have asks := laterTerms_asks settled isSettled rest
          rwa [aloneHead?_none] at asks
      · exact .pure (.of_isSettled rfl none)

theorem multiplication_asks (settled : surroundings.AnswersSettled) :
    (tree : Multiplication) →
    (surroundings.multiplication tree).Asks (nodeQuestions tree.nodes)
      (Value.WaitsFor tree.head?)
  | .mk span first later => by
      rw [multiplication, Multiplication.nodes, Multiplication.head?, List.cons_append,
        nodeQuestions_cons, nodeQuestions_append]
      exact (unary_asks settled first).bind fun _ waits =>
        laterFactors_asks settled waits later

theorem laterFactors_asks
    (settled : surroundings.AnswersSettled)
    {head? : Option Span}
    {left : Value}
    (waits : left.WaitsFor head?) :
    (later : List (Scaling × Unary)) →
    (surroundings.laterFactors left later).Asks (nodeQuestions (laterFactorNodes later))
      (Value.WaitsFor (aloneHead? head? later))
  | [] => by
      rw [laterFactors]
      exact .pure waits
  | (scaling, factor) :: rest => by
      rw [laterFactors, laterFactorNodes, nodeQuestions_append, aloneHead?]
      refine (unary_asks settled factor).bind ?_
      rintro right -
      split
      · next x y =>
          have isSettled : Value.WaitsFor none (.number (scaling.combine x y)) :=
            .of_isSettled rfl _
          have asks := laterFactors_asks settled isSettled rest
          rwa [aloneHead?_none] at asks
      · exact .pure (.of_isSettled rfl none)

theorem unary_asks (settled : surroundings.AnswersSettled) :
    (tree : Unary) →
    (surroundings.unary tree).Asks (nodeQuestions tree.nodes) (Value.WaitsFor tree.head?)
  | .signed span sign operand => by
      rw [unary, Unary.nodes, Unary.head?]
      refine (unary_asks settled operand).bind_silent fun value _ => ?_
      split
      · exact .pure (.of_isSettled rfl none)
      · exact .pure (.of_isSettled rfl none)
  | .primary operand => by
      rw [unary, Unary.nodes, Unary.head?]
      exact primary_asks settled operand

theorem primary_asks (settled : surroundings.AnswersSettled) :
    (tree : Primary) →
    (surroundings.primary tree).Asks (nodeQuestions tree.nodes) (Value.WaitsFor tree.head?)
  | .mk span start chain => by
      rw [primary, Primary.nodes, Primary.head?]
      have asks :=
        (atom_asks settled start).bind fun first waits =>
          (links_asks settled waits chain).bind_silent fun reached waits => noteWaiting_asks waits
      refine asks.mono ?_ fun _ waits => waits
      -- The questions of the chain stand between those of the start and those of its arguments.
      intro question
      simp only [List.cons_append, nodeQuestions_cons, nodeQuestions_append, Node.questions,
        List.mem_append]
      grind

theorem atom_asks (settled : surroundings.AnswersSettled) :
    (tree : Atom) →
    (surroundings.atom tree).Asks (nodeQuestions tree.nodes) (Value.WaitsFor tree.head?)
  | .number _ _ => by
      rw [atom]
      exact .pure (.of_isSettled rfl _)
  | .name span name => by
      rw [atom, Atom.nodes, Atom.head?]
      exact nameValue_asks settled name span
  | .call _ name _ items => by
      rw [atom, Atom.nodes, Atom.head?]
      exact (arguments_asks settled items).bind_silent fun values _ =>
        callWith_asks (Registry.callFunction_settles name) values _
  | .group _ inner => by
      rw [atom, Atom.nodes, Atom.head?]
      exact addition_asks settled inner
  | .construction _ path items => by
      rw [atom, Atom.nodes, Atom.head?]
      exact (arguments_asks settled items).bind_silent fun values _ =>
        callWith_asks (Registry.callConstructor_settles path.text) values _

/-- Arguments ask what their nodes ask. -/
theorem arguments_asks (settled : surroundings.AnswersSettled) :
    (items : List Addition) →
    (surroundings.arguments items).Asks (nodeQuestions (argumentNodes items)) fun _ => True
  | [] => by
      rw [arguments]
      exact .pure trivial
  | first :: rest => by
      rw [arguments, argumentNodes, nodeQuestions_append]
      refine (addition_asks settled first).bind fun value _ => ?_
      split
      · exact (arguments_asks settled rest).bind_silent fun later _ => .pure trivial
      · exact .pure trivial

/-- A chain asks about the name that waits in front of it, and what its nodes ask. -/
theorem links_asks
    (settled : surroundings.AnswersSettled)
    {head? : Option Span}
    {value : Value}
    (waits : value.WaitsFor head?) :
    (chain : List Link) →
    (surroundings.links value chain).Asks
      (chainQuestions head? chain ++ nodeQuestions (linkNodes chain))
      (Value.WaitsFor (chainHead? head? chain))
  | [] => by
      rw [links]
      exact .pure waits
  | link :: rest => by
      by_cases live : value.isLive = true
      · have asks :=
          (liveLink_asks settled value link).bind fun next waits => links_asks settled waits rest
        rw [chainQuestions_none, chainHead?_none] at asks
        rw [links_of_isLive live, linkNodes, nodeQuestions_append]
        exact asks.mono (List.subset_append_right _ _) fun _ waits => waits.of_none _
      · cases value with
        | unresolved =>
            rw [links]
            exact .pure (.of_isSettled rfl _)
        | null =>
            rw [links]
            exact .pure (.of_isSettled rfl _)
        | pending waiting =>
            obtain ⟨head, rfl, starts⟩ := waits waiting rfl
            rw [links, linkNodes, nodeQuestions_append]
            cases link with
            | field span member memberSpan =>
                have grown : (waiting.extend member).start = head.start.offset := starts
                rw [waitingLink, Link.nodes]
                exact
                  (qualifiedValue_asks settled grown memberSpan).bind
                    fun next waits => links_asks settled waits rest
            | call span member memberSpan items =>
                have called :=
                  (arguments_asks settled items).bind_silent fun values _ =>
                    callWith_asks (Registry.callFunction_settles (waiting.extend member).name)
                      values (waiting.extend member).name
                have asks := called.bind fun next waits => links_asks settled waits rest
                rw [chainQuestions_none, chainHead?_none] at asks
                rw [waitingLink, Link.nodes, nodeQuestions_cons]
                exact asks
        | _ => exact absurd rfl live

/-- A link behind a live value asks what its nodes ask, and ends the waiting. -/
theorem liveLink_asks
    (settled : surroundings.AnswersSettled)
    (receiver : Value) :
    (link : Link) →
    (surroundings.liveLink receiver link).Asks (nodeQuestions link.nodes) (Value.WaitsFor none)
  | .field _ member _ => by
      rw [liveLink]
      exact fieldValue_asks receiver member
  | .call _ member _ items => by
      rw [liveLink, Link.nodes]
      exact (arguments_asks settled items).bind_silent fun values _ =>
        callWith_asks (Registry.callMethod_settles receiver member) values _

end

end Surroundings

/-! ## Texts -/

/-- The host that does not answer where a given one answers with a waiting name. -/
def Host.settling (host : Host) : Host :=
  fun start stop =>
    match (host start stop).answer with
    | some (.value (.pending _)) => .object .nothing
    | _ => host start stop

/-- The host that leaves waiting names out never answers with one. -/
theorem Host.isSettledOn_settling
    (host : Host)
    (question : Int × Int) :
    host.settling.IsSettledOn question := by
  intro waiting answered
  unfold settling at answered
  split at answered
  · cases answered
  · next other => exact other waiting answered

/-- A host agrees with the one that leaves waiting names out, where it gives none. -/
theorem Host.agreeOn_settling
    {host : Host}
    {question : Int × Int}
    (settled : host.IsSettledOn question) :
    host.AgreeOn host.settling question := by
  unfold AgreeOn settling
  split
  · next waiting answered => exact absurd answered (settled waiting)
  · rfl

/--
If no answer is a waiting name, the ranges that the evaluation of a text asks
about are those of questions at its nodes.
-/
theorem ReadsAs.exists_question_of_query
    {text : List Char}
    {whole : Expression}
    (reads : ReadsAs text whole)
    {host : Host}
    (settled : ∀ range ∈ (evaluateText text (some host)).queries, host.IsSettledOn range)
    {range : Int × Int}
    (asked : range ∈ (evaluateText text (some host)).queries) :
    ∃ node ∈ whole.nodes, ∃ question ∈ node.questions, question.range = range := by
  have sameQueries :=
    (evaluateText_congr_host text fun question isAsked =>
      Host.agreeOn_settling (settled question isAsked)).2
  rw [← sameQueries, evaluateText_of_read reads.clean reads.read] at asked
  have answersSettled :
      ({ host := some host.settling, source := text } : Surroundings).AnswersSettled := by
    rintro _ ⟨⟩
    exact host.isSettledOn_settling
  obtain ⟨questions, among, grown, -⟩ :=
    Surroundings.addition_asks answersSettled whole.root .empty
  have queries :
      (whole.evaluate { host := some host.settling, source := text }).queries =
        questions.map Question.range :=
    grown
  rw [queries] at asked
  obtain ⟨question, isAsked, rfl⟩ := List.mem_map.mp asked
  obtain ⟨node, member, asks⟩ := List.mem_flatMap.mp (among isAsked)
  exact ⟨node, List.mem_cons_of_mem _ member, question, asks, rfl⟩

end PlanarExpr
