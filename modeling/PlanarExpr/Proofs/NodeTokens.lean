import PlanarExpr.Expression.Node
import PlanarExpr.Proofs.Writing

namespace PlanarExpr

/-!
# The tokens of a node

Every node of a tree is written by a run of the tokens that write the tree. The
runs of the nodes directly below it lie within its own, one behind the other.
-/

/-! ## Nodes and the nodes directly below them -/

/-- A unary expression as a node; without a sign it is only the primary. -/
def Unary.node : Unary → Node
  | .signed span sign operand => .signed span sign operand
  | .primary operand => .primary operand

namespace Node

/-- The nodes directly below a node, from left to right. -/
def children : Node → List Node
  | .expression whole => [.addition whole.root]
  | .addition (.mk _ first later) =>
      .multiplication first :: later.map fun (_, term) => .multiplication term
  | .multiplication (.mk _ first later) =>
      first.node :: later.map fun (_, factor) => factor.node
  | .signed _ _ operand => [operand.node]
  | .primary (.mk _ start chain) => .atom start :: chain.map .link
  | .atom (.number _ _) => []
  | .atom (.name _ _) => []
  | .atom (.call _ _ _ items) => items.map .addition
  | .atom (.group _ inner) => [.addition inner]
  | .atom (.construction _ _ items) => items.map .addition
  | .link (.field _ _ _) => []
  | .link (.call _ _ _ items) => items.map .addition

/-- The tokens that write a node. -/
def Written (tokens : List Token) : Node → Prop
  | .expression whole => whole.Written tokens
  | .addition node => node.Written tokens
  | .multiplication node => node.Written tokens
  | .signed span sign operand => (Unary.signed span sign operand).Written tokens
  | .primary node => node.Written tokens
  | .atom node => node.Written tokens
  | .link node => node.Written tokens

/-- How much room for nesting a node takes up where it stands. -/
def nesting : Node → Nat
  | .expression whole => whole.nesting
  | .addition node => node.nesting
  | .multiplication node => node.nesting + 1
  | .signed span sign operand => (Unary.signed span sign operand).nesting + 1
  | .primary node => node.nesting + 1
  | .atom node => node.nesting + 1
  | .link node => node.nesting + 1

end Node

/-- The tokens of a unary expression write its node. -/
theorem Unary.Written.node
    {tokens : List Token}
    {tree : Unary}
    (written : tree.Written tokens) :
    tree.node.Written tokens := by
  cases written with
  | signed found operandWritten => exact .signed found operandWritten
  | primary operandWritten => exact operandWritten

/-- The node of a unary expression needs a level more, for the addition around it. -/
theorem Unary.nesting_node (tree : Unary) : tree.node.nesting = tree.nesting + 1 := by
  cases tree <;> rfl

/-! ## What all nodes have -/

/-- What a node has, the nodes directly below it have as well. -/
def Node.HandsOn (holds : Node → Prop) : Prop :=
  ∀ node, holds node → ∀ child ∈ node.children, holds child

section HandsOn

variable {holds : Node → Prop}

mutual

/-- What an addition has and every node hands on to those below it, all its nodes have. -/
theorem Addition.forall_nodes (closed : Node.HandsOn holds) :
    ∀ tree : Addition, holds (.addition tree) → ∀ node ∈ tree.nodes, holds node
  | .mk span first later, root => by
      obtain ⟨ofFirst, ofLater⟩ := List.forall_mem_cons.mp (closed _ root)
      rw [Addition.nodes, List.cons_append]
      refine List.forall_mem_cons.mpr ⟨root, List.forall_mem_append.mpr ⟨?_, ?_⟩⟩
      · exact first.forall_nodes closed ofFirst
      · exact laterTerms_forall_nodes closed later (List.forall_mem_map.mp ofLater)

theorem laterTerms_forall_nodes (closed : Node.HandsOn holds) :
    ∀ later : List (Sign × Multiplication),
      (∀ entry ∈ later, holds (.multiplication entry.2)) →
      ∀ node ∈ laterTermNodes later, holds node
  | [], _ => by
      rw [laterTermNodes]
      exact List.forall_mem_nil _
  | (_, term) :: rest, ofLater => by
      obtain ⟨ofTerm, ofRest⟩ := List.forall_mem_cons.mp ofLater
      rw [laterTermNodes]
      exact List.forall_mem_append.mpr
        ⟨term.forall_nodes closed ofTerm, laterTerms_forall_nodes closed rest ofRest⟩

theorem Multiplication.forall_nodes (closed : Node.HandsOn holds) :
    ∀ tree : Multiplication, holds (.multiplication tree) → ∀ node ∈ tree.nodes, holds node
  | .mk span first later, root => by
      obtain ⟨ofFirst, ofLater⟩ := List.forall_mem_cons.mp (closed _ root)
      rw [Multiplication.nodes, List.cons_append]
      refine List.forall_mem_cons.mpr ⟨root, List.forall_mem_append.mpr ⟨?_, ?_⟩⟩
      · exact first.forall_nodes closed ofFirst
      · exact laterFactors_forall_nodes closed later (List.forall_mem_map.mp ofLater)

theorem laterFactors_forall_nodes (closed : Node.HandsOn holds) :
    ∀ later : List (Scaling × Unary),
      (∀ entry ∈ later, holds entry.2.node) →
      ∀ node ∈ laterFactorNodes later, holds node
  | [], _ => by
      rw [laterFactorNodes]
      exact List.forall_mem_nil _
  | (_, factor) :: rest, ofLater => by
      obtain ⟨ofFactor, ofRest⟩ := List.forall_mem_cons.mp ofLater
      rw [laterFactorNodes]
      exact List.forall_mem_append.mpr
        ⟨factor.forall_nodes closed ofFactor, laterFactors_forall_nodes closed rest ofRest⟩

theorem Unary.forall_nodes (closed : Node.HandsOn holds) :
    ∀ tree : Unary, holds tree.node → ∀ node ∈ tree.nodes, holds node
  | .signed span sign operand, root => by
      have ofOperand := closed _ root _ (List.mem_singleton_self _)
      rw [Unary.nodes]
      exact List.forall_mem_cons.mpr ⟨root, operand.forall_nodes closed ofOperand⟩
  | .primary operand, root => by
      rw [Unary.nodes]
      exact operand.forall_nodes closed root

theorem Primary.forall_nodes (closed : Node.HandsOn holds) :
    ∀ tree : Primary, holds (.primary tree) → ∀ node ∈ tree.nodes, holds node
  | .mk span start chain, root => by
      obtain ⟨ofStart, ofChain⟩ := List.forall_mem_cons.mp (closed _ root)
      rw [Primary.nodes, List.cons_append]
      refine List.forall_mem_cons.mpr ⟨root, List.forall_mem_append.mpr ⟨?_, ?_⟩⟩
      · exact start.forall_nodes closed ofStart
      · exact links_forall_nodes closed chain (List.forall_mem_map.mp ofChain)

theorem Atom.forall_nodes (closed : Node.HandsOn holds) :
    ∀ tree : Atom, holds (.atom tree) → ∀ node ∈ tree.nodes, holds node
  | .number span value, root => by
      rw [Atom.nodes]
      exact List.forall_mem_singleton.mpr root
  | .name span name, root => by
      rw [Atom.nodes]
      exact List.forall_mem_singleton.mpr root
  | .call span name nameSpan items, root => by
      rw [Atom.nodes]
      exact List.forall_mem_cons.mpr
        ⟨root, arguments_forall_nodes closed items (List.forall_mem_map.mp (closed _ root))⟩
  | .group span inner, root => by
      have ofInner := closed _ root _ (List.mem_singleton_self _)
      rw [Atom.nodes]
      exact List.forall_mem_cons.mpr ⟨root, inner.forall_nodes closed ofInner⟩
  | .construction span path items, root => by
      rw [Atom.nodes]
      exact List.forall_mem_cons.mpr
        ⟨root, arguments_forall_nodes closed items (List.forall_mem_map.mp (closed _ root))⟩

theorem links_forall_nodes (closed : Node.HandsOn holds) :
    ∀ chain : List Link,
      (∀ link ∈ chain, holds (.link link)) → ∀ node ∈ linkNodes chain, holds node
  | [], _ => by
      rw [linkNodes]
      exact List.forall_mem_nil _
  | first :: rest, ofChain => by
      obtain ⟨ofFirst, ofRest⟩ := List.forall_mem_cons.mp ofChain
      rw [linkNodes]
      exact List.forall_mem_append.mpr
        ⟨first.forall_nodes closed ofFirst, links_forall_nodes closed rest ofRest⟩

theorem Link.forall_nodes (closed : Node.HandsOn holds) :
    ∀ tree : Link, holds (.link tree) → ∀ node ∈ tree.nodes, holds node
  | .field span member memberSpan, root => by
      rw [Link.nodes]
      exact List.forall_mem_singleton.mpr root
  | .call span member memberSpan items, root => by
      rw [Link.nodes]
      exact List.forall_mem_cons.mpr
        ⟨root, arguments_forall_nodes closed items (List.forall_mem_map.mp (closed _ root))⟩

theorem arguments_forall_nodes (closed : Node.HandsOn holds) :
    ∀ items : List Addition,
      (∀ item ∈ items, holds (.addition item)) → ∀ node ∈ argumentNodes items, holds node
  | [], _ => by
      rw [argumentNodes]
      exact List.forall_mem_nil _
  | first :: rest, ofItems => by
      obtain ⟨ofFirst, ofRest⟩ := List.forall_mem_cons.mp ofItems
      rw [argumentNodes]
      exact List.forall_mem_append.mpr
        ⟨first.forall_nodes closed ofFirst, arguments_forall_nodes closed rest ofRest⟩

end

/-- What an expression has and every node hands on, all its nodes have. -/
theorem Expression.forall_nodes
    (closed : Node.HandsOn holds)
    {whole : Expression}
    (root : holds (.expression whole)) :
    ∀ node ∈ whole.nodes, holds node := by
  have ofRoot := closed _ root _ (List.mem_singleton_self _)
  exact List.forall_mem_cons.mpr ⟨root, whole.root.forall_nodes closed ofRoot⟩

end HandsOn

/-! ## The runs of tokens below a node -/

/-- Tokens that write items one behind the other, with other tokens around them. -/
inductive Strewn
    (writes : List Token → α → Prop) :
    List Token →
    List α →
    Prop where
  | nil (tokens : List Token) :
      Strewn writes tokens []
  | cons
      (between : List Token)
      {used behind : List Token}
      {item : α}
      {later : List α} :
      writes used item →
      Strewn writes behind later →
      Strewn writes (between ++ used ++ behind) (item :: later)

namespace Strewn

variable
  {writes : List Token → α → Prop}
  {tokens : List Token}
  {items : List α}

/-- More tokens may stand in front of items that are strewn over some. -/
theorem behind
    (front : List Token)
    (strewn : Strewn writes tokens items) :
    Strewn writes (front ++ tokens) items := by
  cases strewn with
  | nil => exact .nil _
  | cons between written later =>
      have moved := Strewn.cons (front ++ between) written later
      rwa [List.append_assoc, List.append_assoc, ← List.append_assoc between] at moved

/-- More tokens may stand behind items that are strewn over some. -/
theorem followed
    (strewn : Strewn writes tokens items)
    (rest : List Token) :
    Strewn writes (tokens ++ rest) items := by
  induction strewn with
  | nil => exact .nil _
  | cons between written _ inductionHypothesis =>
      rw [List.append_assoc]
      exact .cons between written inductionHypothesis

/-- Items behind separators are strewn over their tokens. -/
theorem of_separated
    {separator? : Token.Kind → Option σ}
    {itemWrites : List Token → β → Prop}
    (make : σ × β → α)
    (makes : ∀ used entry, itemWrites used entry.2 → writes used (make entry))
    {later : List (σ × β)}
    (written : Separated separator? itemWrites tokens later) :
    Strewn writes tokens (later.map make) := by
  induction written with
  | nil => exact .nil _
  | @cons token separator _ _ item _ _ itemWritten _ inductionHypothesis =>
      exact .cons [token] (makes _ (separator, item) itemWritten) inductionHypothesis

/-- Items with nothing in between are strewn over their tokens. -/
theorem of_joined
    {itemWrites : List Token → β → Prop}
    (make : β → α)
    (makes : ∀ used item, itemWrites used item → writes used (make item))
    {chain : List β}
    (written : Joined itemWrites tokens chain) :
    Strewn writes tokens (chain.map make) := by
  induction written with
  | nil => exact .nil _
  | cons itemWritten _ inductionHypothesis =>
      exact .cons [] (makes _ _ itemWritten) inductionHypothesis

/-- Each item is written by a run of the tokens. -/
theorem exists_run
    (strewn : Strewn writes tokens items) :
    ∀ item ∈ items, ∃ before used after,
      tokens = before ++ used ++ after ∧ writes used item := by
  induction strewn with
  | nil => exact List.forall_mem_nil _
  | @cons between used behind item later written _ inductionHypothesis =>
      refine List.forall_mem_cons.mpr ⟨⟨between, used, behind, rfl, written⟩, ?_⟩
      intro other member
      obtain ⟨before, otherUsed, after, rfl, otherWritten⟩ := inductionHypothesis other member
      exact ⟨between ++ used ++ before, otherUsed, after, by simp, otherWritten⟩

end Strewn

/-- Arguments are strewn over the tokens in their parentheses. -/
theorem WritesArguments.strewn
    {tokens : List Token}
    {items : List Addition}
    {close : Token}
    (written : WritesArguments Addition.Written tokens (items, close)) :
    Strewn Node.Written tokens (items.map .addition) := by
  cases written with
  | none opens closes => exact .nil _
  | @some opening close firstTokens laterTokens first later opens firstWritten laterWritten
      closes =>
      have laterStrewn :
          Strewn Node.Written laterTokens (later.map fun entry => .addition entry.2) :=
        .of_separated (fun entry => Node.addition entry.2) (fun _ _ itemWritten => itemWritten)
          laterWritten
      rw [List.map_cons, List.map_map]
      exact .cons [opening] firstWritten (laterStrewn.followed [close])

/-- The nodes directly below a node are written one behind the other by its tokens. -/
theorem Node.Written.strewn
    {tokens : List Token}
    {node : Node}
    (written : node.Written tokens) :
    Strewn Node.Written tokens node.children := by
  cases node with
  | expression whole =>
      have strewn : Strewn Node.Written ([] ++ tokens ++ []) [.addition whole.root] :=
        .cons [] written (.nil [])
      rwa [List.append_nil] at strewn
  | addition node =>
      cases written with
      | mk firstWritten laterWritten =>
          exact .cons [] firstWritten
            (.of_separated (fun (_, term) => Node.multiplication term)
              (fun _ _ termWritten => termWritten) laterWritten)
  | multiplication node =>
      cases written with
      | mk firstWritten laterWritten =>
          exact .cons [] firstWritten.node
            (.of_separated (fun (_, factor) => factor.node)
              (fun _ _ factorWritten => factorWritten.node) laterWritten)
  | signed span sign operand =>
      cases written with
      | @signed token _ operandTokens _ found operandWritten =>
          have strewn :
              Strewn Node.Written ([token] ++ operandTokens ++ []) [operand.node] :=
            .cons [token] operandWritten.node (.nil [])
          rwa [List.append_nil] at strewn
  | primary node =>
      cases written with
      | mk startWritten chainWritten =>
          exact .cons [] startWritten
            (.of_joined Node.link (fun _ _ linkWritten => linkWritten) chainWritten)
  | atom node =>
      cases written with
      | number found => exact .nil _
      | name found => exact .nil _
      | call found itemsWritten => exact itemsWritten.strewn.behind [_]
      | @group opening close _ _ opens innerWritten closes =>
          exact .cons [opening] innerWritten (.nil [close])
      | construction found pathWritten itemsWritten => exact itemsWritten.strewn.behind _
  | link node =>
      cases written with
      | field points named => exact .nil _
      | call points named itemsWritten => exact itemsWritten.strewn.behind [_, _]

/-- A chain is nested no deeper than a bound if no link is. -/
theorem linkNesting_le_iff
    {bound : Nat}
    {chain : List Link} :
    linkNesting chain ≤ bound ↔ ∀ link ∈ chain, link.nesting ≤ bound := by
  induction chain with
  | nil =>
      simp [linkNesting]
  | cons link rest inductionHypothesis =>
      simp only [linkNesting, Nat.max_le, List.forall_mem_cons, inductionHypothesis]

/-- Arguments are nested no deeper than their list. -/
theorem nesting_le_of_mem_arguments
    {items : List Addition}
    {bound : Nat}
    (bounded : argumentNesting items ≤ bound) :
    ∀ child ∈ items.map Node.addition, child.nesting ≤ bound :=
  List.forall_mem_map.mpr (argumentNesting_le_iff.mp bounded)

/-- A node needs at least as much room as the nodes below it. -/
theorem Node.nesting_children_le (node : Node) :
    ∀ child ∈ node.children, child.nesting ≤ node.nesting := by
  cases node with
  | expression whole => exact List.forall_mem_singleton.mpr (Nat.le_refl _)
  | addition node =>
      obtain ⟨span, first, later⟩ := node
      refine List.forall_mem_cons.mpr
        ⟨Nat.succ_le_succ (Nat.le_max_left _ _), List.forall_mem_map.mpr ?_⟩
      intro entry member
      have bounded := laterTermNesting_le_iff.mp (Nat.le_max_right first.nesting _) entry member
      exact Nat.succ_le_succ bounded
  | multiplication node =>
      obtain ⟨span, first, later⟩ := node
      refine List.forall_mem_cons.mpr ⟨?_, List.forall_mem_map.mpr ?_⟩
      · rw [first.nesting_node]
        exact Nat.succ_le_succ (Nat.le_max_left _ _)
      · intro entry member
        have bounded :=
          laterFactorNesting_le_iff.mp (Nat.le_max_right first.nesting _) entry member
        rw [entry.2.nesting_node]
        exact Nat.succ_le_succ bounded
  | signed span sign operand =>
      refine List.forall_mem_singleton.mpr ?_
      rw [operand.nesting_node]
      exact Nat.le_succ _
  | primary node =>
      obtain ⟨span, start, chain⟩ := node
      refine List.forall_mem_cons.mpr
        ⟨Nat.succ_le_succ (Nat.le_max_left _ _), List.forall_mem_map.mpr ?_⟩
      intro link member
      have bounded := linkNesting_le_iff.mp (Nat.le_max_right start.nesting _) link member
      exact Nat.succ_le_succ bounded
  | atom node =>
      cases node with
      | number span value => exact List.forall_mem_nil _
      | name span name => exact List.forall_mem_nil _
      | call span name nameSpan items => exact nesting_le_of_mem_arguments (Nat.le_succ _)
      | group span inner => exact List.forall_mem_singleton.mpr (Nat.le_succ _)
      | construction span path items => exact nesting_le_of_mem_arguments (Nat.le_succ _)
  | link node =>
      cases node with
      | field span member memberSpan => exact List.forall_mem_nil _
      | call span member memberSpan items => exact nesting_le_of_mem_arguments (Nat.le_succ _)

/-! ## All nodes of an expression -/

/-- A node is written by a run of some tokens. -/
def Node.StandsIn
    (tokens : List Token)
    (node : Node) :
    Prop :=
  ∃ before used behind, tokens = before ++ used ++ behind ∧ node.Written used

/-- A node that stands in some tokens hands that on to the nodes below it. -/
theorem Node.handsOn_standsIn (tokens : List Token) : HandsOn (StandsIn tokens) := by
  rintro node ⟨before, used, behind, rfl, written⟩ child member
  obtain ⟨front, childUsed, after, rfl, childWritten⟩ := written.strewn.exists_run child member
  exact ⟨before ++ front, childUsed, after ++ behind, by simp, childWritten⟩

/-- Every node of a written expression is written by a run of its tokens. -/
theorem Expression.standsIn_of_mem_nodes
    {whole : Expression}
    {tokens : List Token}
    (written : whole.Written tokens) :
    ∀ node ∈ whole.nodes, node.StandsIn tokens :=
  Expression.forall_nodes (Node.handsOn_standsIn tokens)
    ⟨[], tokens, [], by simp, written⟩

/-- No node is nested deeper than the expression. -/
theorem Expression.nesting_le_of_mem_nodes (whole : Expression) :
    ∀ node ∈ whole.nodes, node.nesting ≤ whole.nesting :=
  Expression.forall_nodes
    (fun node bounded child member =>
      Nat.le_trans (node.nesting_children_le child member) bounded)
    (Nat.le_refl _)

end PlanarExpr
