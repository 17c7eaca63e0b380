import PlanarExpr.Proofs.SameOutcomes

namespace PlanarExpr

/-!
# One part in the place of another

The tokens that write a part of an expression can be exchanged for others that
write a part which comes to the same. The expression that is written then comes
to the same as before.
-/

/-- What tokens write, and which of it comes to the same. -/
structure Phrases (α : Type) where
  writes : List Token → α → Prop
  same : α → α → Prop

namespace Phrases

/--
A run of the tokens that write a whole writes a part of it. If other tokens
write a part that comes to the same, they can take the place of the run.
-/
def Exchange
    (outer : Phrases α)
    (inner : Phrases β)
    (tokens : List Token)
    (whole : α)
    (part : β) :
    Prop :=
  ∃ front used after,
    tokens = front ++ used ++ after ∧ inner.writes used part ∧
      ∀ used' part',
        inner.writes used' part' → inner.same part part' →
          ∃ whole', outer.writes (front ++ used' ++ after) whole' ∧ outer.same whole whole'

namespace Exchange

variable
  {outer : Phrases α}
  {middle : Phrases β}
  {inner : Phrases γ}
  {tokens : List Token}
  {whole : α}
  {part : β}
  {smaller : γ}

/-- A part of a part is exchanged within what stands around that part. -/
theorem within
    (front after : List Token)
    (exchange : middle.Exchange inner tokens part smaller)
    (around :
      ∀ tokens' part',
        middle.writes tokens' part' → middle.same part part' →
          ∃ whole',
            outer.writes (front ++ tokens' ++ after) whole' ∧ outer.same whole whole') :
    outer.Exchange inner (front ++ tokens ++ after) whole smaller := by
  obtain ⟨before, used, behind, rfl, written, exchanges⟩ := exchange
  refine ⟨front ++ before, used, behind ++ after, by simp, written, ?_⟩
  intro used' smaller' written' same
  obtain ⟨part', partWritten', samePart⟩ := exchanges used' smaller' written' same
  obtain ⟨whole', wholeWritten', sameWhole⟩ := around _ part' partWritten' samePart
  refine ⟨whole', ?_, sameWhole⟩
  simpa using wholeWritten'

/-- A part of a part is exchanged behind what stands in front of that part. -/
theorem behind
    (front : List Token)
    (exchange : middle.Exchange inner tokens part smaller)
    (around :
      ∀ tokens' part',
        middle.writes tokens' part' → middle.same part part' →
          ∃ whole', outer.writes (front ++ tokens') whole' ∧ outer.same whole whole') :
    outer.Exchange inner (front ++ tokens) whole smaller := by
  have moved := @within _ _ _ outer _ _ _ whole _ _ front [] exchange
  simp only [List.append_nil] at moved
  exact moved around

/-- What is part of a part is part of the whole. -/
theorem trans
    (first : outer.Exchange middle tokens whole part)
    (second : ∀ used, middle.writes used part → middle.Exchange inner used part smaller) :
    outer.Exchange inner tokens whole smaller := by
  obtain ⟨front, used, after, rfl, written, exchanges⟩ := first
  exact (second used written).within front after exchanges

/-- All of the tokens write the part, which is the whole in another guise. -/
theorem of_all
    (written : inner.writes tokens smaller)
    (makes :
      ∀ tokens' smaller',
        inner.writes tokens' smaller' → inner.same smaller smaller' →
          ∃ whole', outer.writes tokens' whole' ∧ outer.same whole whole') :
    outer.Exchange inner tokens whole smaller := by
  refine ⟨[], tokens, [], by simp, written, ?_⟩
  simpa using makes

end Exchange

/-! ## Lists of phrases -/

/-- Items behind separators of their own. -/
def entries
    (separator? : Token.Kind → Option σ)
    (items : Phrases α) :
    Phrases (List (σ × α)) where
  writes := Separated separator? items.writes
  same := EntriesRelated items.same

/-- Items with nothing in between. -/
def chain (items : Phrases α) : Phrases (List α) where
  writes := Joined items.writes
  same := List.Forall₂ items.same

/-- Arguments in their parentheses, with the token that closes them. -/
def enclosed (items : Phrases Addition) : Phrases (List Addition × Token) where
  writes := WritesArguments items.writes
  same first second := first.1.Forall₂ items.same second.1 ∧ first.2 = second.2

namespace Exchange

variable
  {items : Phrases α}
  {inner : Phrases β}
  {tokens : List Token}
  {part : β}
  (reflexive : ∀ item, items.same item item)

include reflexive

/-- A part of an entry can be exchanged within the entries. -/
theorem inEntries
    {separator? : Token.Kind → Option σ}
    {later : List (σ × α)}
    (written : Separated separator? items.writes tokens later)
    {entry : σ × α}
    (member : entry ∈ later)
    (each : ∀ used, items.writes used entry.2 → items.Exchange inner used entry.2 part) :
    (items.entries separator?).Exchange inner tokens later part := by
  have unchanged : ∀ later : List (σ × α), EntriesRelated items.same later later :=
    fun later => List.forall₂_same.mpr fun entry _ => ⟨rfl, reflexive entry.2⟩
  induction written with
  | nil => cases member
  | @cons token separator used after item rest found itemWritten restWritten
      inductionHypothesis =>
      rcases List.mem_cons.mp member with rfl | later
      · refine (each used itemWritten).within [token] after ?_
        intro used' item' written' same
        exact ⟨(separator, item') :: rest, .cons found written' restWritten,
          .cons ⟨rfl, same⟩ (unchanged rest)⟩
      · refine (inductionHypothesis later).behind (token :: used) ?_
        intro after' rest' written' same
        exact ⟨(separator, item) :: rest', .cons found itemWritten written',
          .cons ⟨rfl, reflexive item⟩ same⟩

/-- A part of an item can be exchanged within the chain. -/
theorem inChain
    {later : List α}
    (written : Joined items.writes tokens later)
    {item : α}
    (member : item ∈ later)
    (each : ∀ used, items.writes used item → items.Exchange inner used item part) :
    items.chain.Exchange inner tokens later part := by
  induction written with
  | nil => cases member
  | @cons used after first rest firstWritten restWritten inductionHypothesis =>
      rcases List.mem_cons.mp member with rfl | later
      · refine (each used firstWritten).within [] after ?_
        intro used' item' written' same
        exact ⟨item' :: rest, .cons written' restWritten,
          .cons same (List.forall₂_same.mpr fun item _ => reflexive item)⟩
      · refine (inductionHypothesis later).behind used ?_
        intro after' rest' written' same
        exact ⟨first :: rest', .cons firstWritten written', .cons (reflexive first) same⟩

end Exchange

/-- A part of an argument can be exchanged within the arguments. -/
theorem Exchange.inArguments
    {items : Phrases Addition}
    {inner : Phrases β}
    {tokens : List Token}
    {part : β}
    (reflexive : ∀ item, items.same item item)
    {arguments : List Addition}
    {close : Token}
    (written : WritesArguments items.writes tokens (arguments, close))
    {item : Addition}
    (member : item ∈ arguments)
    (each : ∀ used, items.writes used item → items.Exchange inner used item part) :
    items.enclosed.Exchange inner tokens (arguments, close) part := by
  cases written with
  | none opens closes => cases member
  | @some opening _ firstTokens laterTokens first later opens firstWritten laterWritten
      closes =>
      rcases List.mem_cons.mp member with rfl | isLater
      · refine (each firstTokens firstWritten).within [opening] (laterTokens ++ [close]) ?_
        intro used' item' written' same
        exact ⟨(item' :: later.map Prod.snd, close),
          .some opens written' laterWritten closes,
          .cons same (List.forall₂_same.mpr fun item _ => reflexive item), rfl⟩
      · obtain ⟨entry, inLater, rfl⟩ := List.mem_map.mp isLater
        have exchange := Exchange.inEntries reflexive laterWritten inLater each
        have moved :=
          @Exchange.within _ _ _ items.enclosed _ _ _ (first :: later.map Prod.snd, close) _ _
            (opening :: firstTokens) [close] exchange
        rw [List.append_assoc] at moved
        refine moved ?_
        intro laterTokens' later' written' same
        rw [List.append_assoc]
        refine ⟨(first :: later'.map Prod.snd, close),
          .some opens firstWritten written' closes, .cons (reflexive first) ?_, rfl⟩
        rw [List.forall₂_map_left_iff, List.forall₂_map_right_iff]
        exact same.imp fun _ _ related => related.2

/-! ## Nodes -/

section Nodes

variable (surroundings : Surroundings)

/-- Additions that come to the same. -/
def additions : Phrases Addition where
  writes := Addition.Written
  same tree tree' := SameOutcome (surroundings.addition tree) (surroundings.addition tree')

/-- Multiplications that come to the same. -/
def multiplications : Phrases Multiplication where
  writes := Multiplication.Written
  same tree tree' :=
    SameOutcome (surroundings.multiplication tree) (surroundings.multiplication tree')

/-- Unary expressions that come to the same. -/
def unaries : Phrases Unary where
  writes := Unary.Written
  same tree tree' := SameOutcome (surroundings.unary tree) (surroundings.unary tree')

/-- Atoms that come to the same. -/
def atoms : Phrases Atom where
  writes := Atom.Written
  same tree tree' := SameOutcome (surroundings.atom tree) (surroundings.atom tree')

/-- Links that lead from the same value to the same. -/
def links : Phrases Link where
  writes := Link.Written
  same := SameLink surroundings

end Nodes

end Phrases

/--
A node gives way to one of the same part of the grammar that comes to the same.
A primary is a unary expression without a sign.
-/
def Node.GivesWayTo
    (surroundings : Surroundings)
    (node node' : Node) :
    Prop :=
  match node with
  | .expression whole =>
      ∃ whole',
        node' = .expression whole' ∧
          SameOutcome (surroundings.expression whole) (surroundings.expression whole')
  | .addition tree =>
      ∃ tree', node' = .addition tree' ∧ (Phrases.additions surroundings).same tree tree'
  | .multiplication tree =>
      ∃ tree',
        node' = .multiplication tree' ∧
          (Phrases.multiplications surroundings).same tree tree'
  | .signed span sign operand =>
      ∃ tree' : Unary,
        node' = tree'.node ∧
          (Phrases.unaries surroundings).same (.signed span sign operand) tree'
  | .primary tree =>
      ∃ tree' : Unary,
        node' = tree'.node ∧ (Phrases.unaries surroundings).same (.primary tree) tree'
  | .atom tree =>
      ∃ tree', node' = .atom tree' ∧ (Phrases.atoms surroundings).same tree tree'
  | .link tree =>
      ∃ tree', node' = .link tree' ∧ (Phrases.links surroundings).same tree tree'

/-- Nodes, each of which gives way to what can take its place. -/
def Phrases.nodes (surroundings : Surroundings) : Phrases Node where
  writes tokens node := node.Written tokens
  same := Node.GivesWayTo surroundings

/-- The tokens of a unary expression as a node write it. -/
theorem Unary.written_of_node
    {tokens : List Token}
    (tree : Unary)
    (written : tree.node.Written tokens) :
    tree.Written tokens := by
  cases tree with
  | signed span sign operand => exact written
  | primary operand => exact .primary written

namespace Phrases

variable
  {surroundings : Surroundings}
  {tokens : List Token}

/-- An addition is exchanged as the node that it is. -/
theorem Exchange.addition
    {tree : Addition}
    (written : tree.Written tokens) :
    (additions surroundings).Exchange (nodes surroundings) tokens tree (.addition tree) := by
  refine .of_all written ?_
  rintro tokens' _ written' ⟨tree', rfl, same⟩
  exact ⟨tree', written', same⟩

theorem Exchange.multiplication
    {tree : Multiplication}
    (written : tree.Written tokens) :
    (multiplications surroundings).Exchange (nodes surroundings) tokens tree
      (.multiplication tree) := by
  refine .of_all written ?_
  rintro tokens' _ written' ⟨tree', rfl, same⟩
  exact ⟨tree', written', same⟩

/-- A unary expression is exchanged as the node that it is, with a sign or without. -/
theorem Exchange.unary
    {tree : Unary}
    (written : tree.Written tokens) :
    (unaries surroundings).Exchange (nodes surroundings) tokens tree tree.node := by
  refine .of_all written.node ?_
  intro tokens' node' written' same
  obtain ⟨tree', rfl, sameTree⟩ :
      ∃ tree' : Unary, node' = tree'.node ∧ (unaries surroundings).same tree tree' := by
    cases tree <;> exact same
  exact ⟨tree', tree'.written_of_node written', sameTree⟩

theorem Exchange.atom
    {tree : Atom}
    (written : tree.Written tokens) :
    (atoms surroundings).Exchange (nodes surroundings) tokens tree (.atom tree) := by
  refine .of_all written ?_
  rintro tokens' _ written' ⟨tree', rfl, same⟩
  exact ⟨tree', written', same⟩

theorem Exchange.link
    {tree : Link}
    (written : tree.Written tokens) :
    (links surroundings).Exchange (nodes surroundings) tokens tree (.link tree) := by
  refine .of_all written ?_
  rintro tokens' _ written' ⟨tree', rfl, same⟩
  exact ⟨tree', written', same⟩

end Phrases

section

variable
  {surroundings : Surroundings}
  (hostless : surroundings.host = none)

include hostless

/-- An argument is a part of the arguments in their parentheses. -/
theorem Phrases.Exchange.nodeInArguments
    {tokens : List Token}
    {items : List Addition}
    {close : Token}
    (written : WritesArguments Addition.Written tokens (items, close))
    {child : Node}
    (member : child ∈ items.map .addition) :
    (Phrases.additions surroundings).enclosed.Exchange (Phrases.nodes surroundings) tokens
      (items, close) child := by
  obtain ⟨item, isItem, rfl⟩ := List.mem_map.mp member
  exact
    .inArguments (Correspondence.ofHostless hostless).addition written isItem fun _ =>
      Phrases.Exchange.addition

/-- A term can be exchanged within its addition. -/
theorem Addition.Written.exchange
    {tokens : List Token}
    {tree : Addition}
    (written : tree.Written tokens)
    {child : Node}
    (member : child ∈ (Node.addition tree).children) :
    (Phrases.nodes surroundings).Exchange (Phrases.nodes surroundings) tokens
      (.addition tree) child := by
  let unchanged := Correspondence.ofHostless hostless
  cases written with
  | @mk firstTokens laterTokens first later firstWritten laterWritten =>
      rcases List.mem_cons.mp member with rfl | isLater
      · refine (Phrases.Exchange.multiplication firstWritten).within [] laterTokens ?_
        intro tokens' first' written' same
        exact ⟨.addition (.mk _ first' later), .mk written' laterWritten, _, rfl,
          .addition same (.refl unchanged.multiplication later)⟩
      · obtain ⟨⟨sign, term⟩, inLater, rfl⟩ := List.mem_map.mp isLater
        have exchange :
            ((Phrases.multiplications surroundings).entries Sign.ofKind?).Exchange
              (Phrases.nodes surroundings) laterTokens later (.multiplication term) :=
          .inEntries unchanged.multiplication laterWritten inLater fun _ =>
            Phrases.Exchange.multiplication
        refine exchange.behind firstTokens ?_
        intro tokens' later' written' same
        exact ⟨.addition (.mk _ first later'), .mk firstWritten written', _, rfl,
          .addition (unchanged.multiplication first) same⟩

/-- A factor can be exchanged within its multiplication. -/
theorem Multiplication.Written.exchange
    {tokens : List Token}
    {tree : Multiplication}
    (written : tree.Written tokens)
    {child : Node}
    (member : child ∈ (Node.multiplication tree).children) :
    (Phrases.nodes surroundings).Exchange (Phrases.nodes surroundings) tokens
      (.multiplication tree) child := by
  let unchanged := Correspondence.ofHostless hostless
  cases written with
  | @mk firstTokens laterTokens first later firstWritten laterWritten =>
      rcases List.mem_cons.mp member with rfl | isLater
      · refine (Phrases.Exchange.unary firstWritten).within [] laterTokens ?_
        intro tokens' first' written' same
        exact ⟨.multiplication (.mk _ first' later), .mk written' laterWritten, _, rfl,
          .multiplication same (.refl unchanged.unary later)⟩
      · obtain ⟨⟨scaling, factor⟩, inLater, rfl⟩ := List.mem_map.mp isLater
        have exchange :
            ((Phrases.unaries surroundings).entries Scaling.ofKind?).Exchange
              (Phrases.nodes surroundings) laterTokens later factor.node :=
          .inEntries unchanged.unary laterWritten inLater fun _ => Phrases.Exchange.unary
        refine exchange.behind firstTokens ?_
        intro tokens' later' written' same
        exact ⟨.multiplication (.mk _ first later'), .mk firstWritten written', _, rfl,
          .multiplication (unchanged.unary first) same⟩

/-- The atom and the links can be exchanged within their primary. -/
theorem Primary.Written.exchange
    {tokens : List Token}
    {tree : Primary}
    (written : tree.Written tokens)
    {child : Node}
    (member : child ∈ (Node.primary tree).children) :
    (Phrases.nodes surroundings).Exchange (Phrases.nodes surroundings) tokens
      (.primary tree) child := by
  let unchanged := Correspondence.ofHostless hostless
  cases written with
  | @mk startTokens chainTokens start chain startWritten chainWritten =>
      rcases List.mem_cons.mp member with rfl | inChain
      · refine (Phrases.Exchange.atom startWritten).within [] chainTokens ?_
        intro tokens' start' written' same
        exact ⟨.primary (.mk _ start' chain), .mk written' chainWritten,
          .primary (.mk _ start' chain), rfl,
          .primary hostless same (List.forall₂_same.mpr fun link _ => .refl hostless link)⟩
      · obtain ⟨link, isLink, rfl⟩ := List.mem_map.mp inChain
        have exchange :
            (Phrases.links surroundings).chain.Exchange (Phrases.nodes surroundings)
              chainTokens chain (.link link) :=
          .inChain (SameLink.refl hostless) chainWritten isLink fun _ => Phrases.Exchange.link
        refine exchange.behind startTokens ?_
        intro tokens' chain' written' same
        exact ⟨.primary (.mk _ start chain'), .mk startWritten written',
          .primary (.mk _ start chain'), rfl,
          .primary hostless (unchanged.atom start) same⟩

/-- The parts of an atom can be exchanged within it. -/
theorem Atom.Written.exchange
    {tokens : List Token}
    {tree : Atom}
    (written : tree.Written tokens)
    {child : Node}
    (member : child ∈ (Node.atom tree).children) :
    (Phrases.nodes surroundings).Exchange (Phrases.nodes surroundings) tokens
      (.atom tree) child := by
  cases written with
  | number found => cases member
  | name found => cases member
  | @call token name argumentTokens items close found itemsWritten =>
      refine (Phrases.Exchange.nodeInArguments hostless itemsWritten member).behind [token] ?_
      rintro tokens' ⟨items', _⟩ written' ⟨same, rfl⟩
      exact ⟨.atom (.call _ name _ items'), .call found written', _, rfl,
        .called hostless same name (Registry.callFunction name)⟩
  | @group opening close innerTokens inner opens innerWritten closes =>
      obtain rfl := List.mem_singleton.mp member
      refine (Phrases.Exchange.addition innerWritten).within [opening] [close] ?_
      intro tokens' inner' written' same
      exact ⟨.atom (.group _ inner'), .group opens written' closes, _, rfl, same⟩
  | @construction keyword pathTokens argumentTokens path items close found pathWritten
      itemsWritten =>
      refine (Phrases.Exchange.nodeInArguments hostless itemsWritten member).behind
        (keyword :: pathTokens) ?_
      rintro tokens' ⟨items', _⟩ written' ⟨same, rfl⟩
      exact ⟨.atom (.construction _ path items'), .construction found pathWritten written',
        _, rfl,
        .called hostless same ("new " ++ path.text) (Registry.callConstructor path.text)⟩

/-- A node directly below another one is a part of it that can be exchanged. -/
theorem Node.Written.exchange
    {tokens : List Token}
    {node child : Node}
    (written : node.Written tokens)
    (member : child ∈ node.children) :
    (Phrases.nodes surroundings).Exchange (Phrases.nodes surroundings) tokens node child := by
  cases node with
  | expression whole =>
      obtain rfl := List.mem_singleton.mp member
      refine .of_all written ?_
      rintro tokens' _ written' ⟨tree', rfl, same⟩
      exact ⟨.expression { root := tree' }, written', _, rfl, same⟩
  | addition tree => exact Addition.Written.exchange hostless written member
  | multiplication tree => exact Multiplication.Written.exchange hostless written member
  | signed span sign operand =>
      obtain rfl := List.mem_singleton.mp member
      cases written with
      | @signed token _ operandTokens _ found operandWritten =>
          refine (Phrases.Exchange.unary operandWritten).behind [token] ?_
          intro tokens' operand' written' same
          exact ⟨.signed _ sign operand', .signed found written', .signed _ sign operand', rfl,
            .signed sign same⟩
  | primary tree => exact Primary.Written.exchange hostless written member
  | atom tree => exact Atom.Written.exchange hostless written member
  | link tree =>
      cases written with
      | field points named => cases member
      | @call dot token name argumentTokens items close points named itemsWritten =>
          refine (Phrases.Exchange.nodeInArguments hostless itemsWritten member).behind
            [dot, token] ?_
          rintro tokens' ⟨items', _⟩ written' ⟨same, rfl⟩
          exact ⟨.link (.call _ name _ items'), .call points named written', _, rfl,
            .call hostless same _ _ _ _⟩

/-- Every node of a written expression is a part of it that can be exchanged. -/
theorem Expression.exchange_of_mem_nodes
    {tokens : List Token}
    {whole : Expression}
    (written : whole.Written tokens) :
    ∀ node ∈ whole.nodes,
      (Phrases.nodes surroundings).Exchange (Phrases.nodes surroundings) tokens
        (.expression whole) node := by
  refine Expression.forall_nodes ?_ (.of_all written ?_)
  · intro node exchange child member
    exact exchange.trans fun _ nodeWritten => nodeWritten.exchange hostless member
  · intro tokens' whole' written' same
    exact ⟨whole', written', same⟩

end

end PlanarExpr
