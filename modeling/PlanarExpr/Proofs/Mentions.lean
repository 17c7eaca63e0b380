import PlanarExpr.Proofs.Writing

namespace PlanarExpr

/-!
# Mentions

A mention is a name or a member of a link that is not called. The types of
constructions and what is called are no mentions. The tokens that write a tree
fall into those that make a mention, in the order of the tree, and all others.

A tree is rewritten by putting other atoms in the place of its names. That
changes its tokens where it mentions these names and nowhere else.
-/

/-- A name, or a member of a link, that is not called. -/
structure Mention where
  name : String
  /-- The span of the name alone. -/
  span : Source.Span
  isMember : Bool
deriving DecidableEq

/-- Whether a mention is one of a name, and not of a member with that name. -/
def Mention.isOf
    (name : String)
    (mention : Mention) :
    Bool :=
  !mention.isMember && mention.name == name

mutual

/-- The mentions in an addition, from left to right. -/
def Addition.mentions : Addition → List Mention
  | .mk _ first later => first.mentions ++ laterTermMentions later

/-- The mentions in the later terms of an addition. -/
def laterTermMentions : List (Sign × Multiplication) → List Mention
  | [] => []
  | (_, term) :: rest => term.mentions ++ laterTermMentions rest

/-- The mentions in a multiplication, from left to right. -/
def Multiplication.mentions : Multiplication → List Mention
  | .mk _ first later => first.mentions ++ laterFactorMentions later

/-- The mentions in the later factors of a multiplication. -/
def laterFactorMentions : List (Scaling × Unary) → List Mention
  | [] => []
  | (_, factor) :: rest => factor.mentions ++ laterFactorMentions rest

/-- The mentions in a unary expression. -/
def Unary.mentions : Unary → List Mention
  | .signed _ _ operand => operand.mentions
  | .primary operand => operand.mentions

/-- The mentions in a primary: those of its atom, then those of its links. -/
def Primary.mentions : Primary → List Mention
  | .mk _ start chain => start.mentions ++ linkMentions chain

/-- The mentions in an atom; what is called and the type of a construction are none. -/
def Atom.mentions : Atom → List Mention
  | .number _ _ => []
  | .name span name => [{ name := name, span := span, isMember := false }]
  | .call _ _ _ items => argumentMentions items
  | .group _ inner => inner.mentions
  | .construction _ _ items => argumentMentions items

/-- The mentions in a chain of links. -/
def linkMentions : List Link → List Mention
  | [] => []
  | first :: rest => first.mentions ++ linkMentions rest

/-- The mentions in a link; a member that is called is none. -/
def Link.mentions : Link → List Mention
  | .field _ member memberSpan =>
      [{ name := member, span := memberSpan, isMember := true }]
  | .call _ _ _ items => argumentMentions items

/-- The mentions in arguments, from left to right. -/
def argumentMentions : List Addition → List Mention
  | [] => []
  | first :: rest => first.mentions ++ argumentMentions rest

end

/-- The mentions in an expression, from left to right. -/
def Expression.mentions (expression : Expression) : List Mention :=
  expression.root.mentions

/-! ## Rewriting names -/

section Rewritten

variable
  (spans : Source.Span → Source.Span)
  (atoms : Source.Span → String → Atom)

mutual

/-- An addition with other spans, and with atoms in the place of its names. -/
def Addition.rewritten : Addition → Addition
  | .mk span first later =>
      .mk (spans span) first.rewritten (laterTermsRewritten later)

/-- The later terms of an addition, rewritten. -/
def laterTermsRewritten : List (Sign × Multiplication) → List (Sign × Multiplication)
  | [] => []
  | (sign, term) :: rest => (sign, term.rewritten) :: laterTermsRewritten rest

/-- A multiplication with other spans, and with atoms in the place of its names. -/
def Multiplication.rewritten : Multiplication → Multiplication
  | .mk span first later =>
      .mk (spans span) first.rewritten (laterFactorsRewritten later)

/-- The later factors of a multiplication, rewritten. -/
def laterFactorsRewritten : List (Scaling × Unary) → List (Scaling × Unary)
  | [] => []
  | (scaling, factor) :: rest =>
      (scaling, factor.rewritten) :: laterFactorsRewritten rest

/-- A unary expression, rewritten. -/
def Unary.rewritten : Unary → Unary
  | .signed span sign operand => .signed (spans span) sign operand.rewritten
  | .primary operand => .primary operand.rewritten

/-- A primary, rewritten. -/
def Primary.rewritten : Primary → Primary
  | .mk span start chain =>
      .mk (spans span) start.rewritten (linksRewritten chain)

/-- An atom, rewritten; a name gives way to the atom for it. -/
def Atom.rewritten : Atom → Atom
  | .number span value => .number (spans span) value
  | .name span name => atoms span name
  | .call span name nameSpan items =>
      .call (spans span) name (spans nameSpan) (argumentsRewritten items)
  | .group span inner => .group (spans span) inner.rewritten
  | .construction span path items =>
      .construction (spans span) path (argumentsRewritten items)

/-- The links of a chain, rewritten. -/
def linksRewritten : List Link → List Link
  | [] => []
  | first :: rest => first.rewritten :: linksRewritten rest

/-- A link, rewritten; its member keeps its name. -/
def Link.rewritten : Link → Link
  | .field span member memberSpan => .field (spans span) member (spans memberSpan)
  | .call span member memberSpan items =>
      .call (spans span) member (spans memberSpan) (argumentsRewritten items)

/-- Arguments, rewritten. -/
def argumentsRewritten : List Addition → List Addition
  | [] => []
  | first :: rest => first.rewritten :: argumentsRewritten rest

end

end Rewritten

/-- The atom in the place of a name that was found, where one name is inlined. -/
def Atom.inlined
    (name : String)
    (body : Expression)
    (span : Source.Span)
    (found : String) :
    Atom :=
  if found = name then .group span body.root else .name span found

/-- An expression with another one in parentheses in the place of every mention of a name. -/
def Expression.inlined
    (whole : Expression)
    (name : String)
    (body : Expression) :
    Expression :=
  { root := whole.root.rewritten id (Atom.inlined name body) }

/-! ### Leaving out the spans -/

/-- A name without its span. -/
def Atom.blankName
    (_ : Source.Span)
    (name : String) :
    Atom :=
  .name .blank name

mutual

/-- Leaving out the spans of an addition rewrites nothing else. -/
theorem Addition.rewritten_blank :
    ∀ tree : Addition,
      tree.rewritten (fun _ => .blank) Atom.blankName = tree.withoutSpans
  | .mk _ first later => by
      simp only [Addition.rewritten, Addition.withoutSpans, first.rewritten_blank,
        laterTermsRewritten_blank later]

theorem laterTermsRewritten_blank :
    ∀ later : List (Sign × Multiplication),
      laterTermsRewritten (fun _ => .blank) Atom.blankName later =
        laterTermsWithoutSpans later
  | [] => rfl
  | (_, term) :: rest => by
      simp only [laterTermsRewritten, laterTermsWithoutSpans, term.rewritten_blank,
        laterTermsRewritten_blank rest]

theorem Multiplication.rewritten_blank :
    ∀ tree : Multiplication,
      tree.rewritten (fun _ => .blank) Atom.blankName = tree.withoutSpans
  | .mk _ first later => by
      simp only [Multiplication.rewritten, Multiplication.withoutSpans,
        first.rewritten_blank, laterFactorsRewritten_blank later]

theorem laterFactorsRewritten_blank :
    ∀ later : List (Scaling × Unary),
      laterFactorsRewritten (fun _ => .blank) Atom.blankName later =
        laterFactorsWithoutSpans later
  | [] => rfl
  | (_, factor) :: rest => by
      simp only [laterFactorsRewritten, laterFactorsWithoutSpans,
        factor.rewritten_blank, laterFactorsRewritten_blank rest]

theorem Unary.rewritten_blank :
    ∀ tree : Unary,
      tree.rewritten (fun _ => .blank) Atom.blankName = tree.withoutSpans
  | .signed _ _ operand => by
      simp only [Unary.rewritten, Unary.withoutSpans, operand.rewritten_blank]
  | .primary operand => by
      simp only [Unary.rewritten, Unary.withoutSpans, operand.rewritten_blank]

theorem Primary.rewritten_blank :
    ∀ tree : Primary,
      tree.rewritten (fun _ => .blank) Atom.blankName = tree.withoutSpans
  | .mk _ start chain => by
      simp only [Primary.rewritten, Primary.withoutSpans, start.rewritten_blank,
        linksRewritten_blank chain]

theorem Atom.rewritten_blank :
    ∀ tree : Atom,
      tree.rewritten (fun _ => .blank) Atom.blankName = tree.withoutSpans
  | .number _ _ => rfl
  | .name _ _ => rfl
  | .call _ _ _ items => by
      simp only [Atom.rewritten, Atom.withoutSpans, argumentsRewritten_blank items]
  | .group _ inner => by
      simp only [Atom.rewritten, Atom.withoutSpans, inner.rewritten_blank]
  | .construction _ _ items => by
      simp only [Atom.rewritten, Atom.withoutSpans, argumentsRewritten_blank items]

theorem linksRewritten_blank :
    ∀ chain : List Link,
      linksRewritten (fun _ => .blank) Atom.blankName chain = linksWithoutSpans chain
  | [] => rfl
  | first :: rest => by
      simp only [linksRewritten, linksWithoutSpans, first.rewritten_blank,
        linksRewritten_blank rest]

theorem Link.rewritten_blank :
    ∀ tree : Link,
      tree.rewritten (fun _ => .blank) Atom.blankName = tree.withoutSpans
  | .field _ _ _ => rfl
  | .call _ _ _ items => by
      simp only [Link.rewritten, Link.withoutSpans, argumentsRewritten_blank items]

theorem argumentsRewritten_blank :
    ∀ items : List Addition,
      argumentsRewritten (fun _ => .blank) Atom.blankName items =
        argumentsWithoutSpans items
  | [] => rfl
  | first :: rest => by
      simp only [argumentsRewritten, argumentsWithoutSpans, first.rewritten_blank,
        argumentsRewritten_blank rest]

end

/-! ## The tokens of mentions -/

/-- A token with the mention that it makes, if it makes one. -/
structure Cell where
  token : Token
  mention : Option Mention
  agrees :
    ∀ made ∈ mention, made.span = token.span ∧ token.kind = .identifier made.name

/-- The kinds of the tokens of a cell, with an atom in the place of a name. -/
def Cell.rewrittenKinds
    (atoms : Source.Span → String → Atom)
    (cell : Cell) :
    List Token.Kind :=
  match cell.mention with
  | some { name := name, span := span, isMember := false } => (atoms span name).kinds
  | _ => [cell.token.kind]

/-- Tokens fall into cells that make mentions, and that have kinds when names are rewritten. -/
def FallIntoCells
    (tokens : List Token)
    (mentions : List Mention)
    (rewrittenKinds : (Source.Span → String → Atom) → List Token.Kind) :
    Prop :=
  ∃ cells : List Cell,
    cells.map Cell.token = tokens ∧
      cells.filterMap Cell.mention = mentions ∧
      ∀ atoms, cells.flatMap (Cell.rewrittenKinds atoms) = rewrittenKinds atoms

namespace FallIntoCells

variable
  {tokens tokens' : List Token}
  {mentions mentions' : List Mention}
  {kinds kinds' : (Source.Span → String → Atom) → List Token.Kind}

/-- No tokens fall into no cells. -/
theorem nil : FallIntoCells [] [] fun _ => [] :=
  ⟨[], rfl, rfl, fun _ => rfl⟩

/-- Cells of two runs are the cells of the tokens in both. -/
theorem append
    (first : FallIntoCells tokens mentions kinds)
    (second : FallIntoCells tokens' mentions' kinds') :
    FallIntoCells (tokens ++ tokens') (mentions ++ mentions')
      fun atoms => kinds atoms ++ kinds' atoms := by
  obtain ⟨cells, sameTokens, sameMentions, sameKinds⟩ := first
  obtain ⟨cells', sameTokens', sameMentions', sameKinds'⟩ := second
  refine ⟨cells ++ cells', ?_, ?_, ?_⟩
  · rw [List.map_append, sameTokens, sameTokens']
  · rw [List.filterMap_append, sameMentions, sameMentions']
  · intro atoms
    rw [List.flatMap_append, sameKinds, sameKinds']

/-- A token that makes no mention stands in front of other tokens. -/
theorem cons
    {token : Token}
    {kind : Token.Kind}
    (isKind : token.kind = kind)
    (behind : FallIntoCells tokens mentions kinds) :
    FallIntoCells (token :: tokens) mentions
      fun atoms => kind :: kinds atoms := by
  have alone : FallIntoCells [token] [] fun _ => [kind] := by
    refine ⟨[⟨token, none, by simp⟩], rfl, rfl, fun atoms => ?_⟩
    simp [Cell.rewrittenKinds, isKind]
  exact alone.append behind

/-- A token that makes no mention stands behind other tokens. -/
theorem concat
    {token : Token}
    {kind : Token.Kind}
    (before : FallIntoCells tokens mentions kinds)
    (isKind : token.kind = kind) :
    FallIntoCells (tokens ++ [token]) mentions
      fun atoms => kinds atoms ++ [kind] := by
  have alone : FallIntoCells [token] [] fun _ => [kind] := nil.cons isKind
  have joined := before.append alone
  rwa [List.append_nil] at joined

/-- A name is a cell that makes a mention, and gives way to an atom. -/
theorem name
    {token : Token}
    {found : String}
    (named : token.kind = .identifier found) :
    FallIntoCells [token]
      [{ name := found, span := token.span, isMember := false }]
      fun atoms => (atoms token.span found).kinds := by
  refine ⟨[⟨token, some { name := found, span := token.span, isMember := false }, ?_⟩],
    rfl, rfl, fun atoms => List.append_nil _⟩
  rintro made ⟨⟩
  exact ⟨rfl, named⟩

/-- The name of a member is a cell that makes a mention, and stays. -/
theorem member
    {token : Token}
    {found : String}
    (named : token.kind = .identifier found) :
    FallIntoCells [token]
      [{ name := found, span := token.span, isMember := true }]
      fun _ => [.identifier found] := by
  refine ⟨[⟨token, some { name := found, span := token.span, isMember := true }, ?_⟩],
    rfl, rfl, fun atoms => ?_⟩
  · rintro made ⟨⟩
    exact ⟨rfl, named⟩
  · simp [Cell.rewrittenKinds, named]

end FallIntoCells

/-- The later segments of a type make no mention. -/
theorem laterSegments_fallIntoCells
    {tokens : List Token}
    {later : List (Unit × (String × Token))}
    (written : Separated dot? WritesName tokens later) :
    FallIntoCells tokens []
      fun _ => laterSegmentKinds (later.map fun (_, segment, _) => segment) := by
  induction written with
  | nil =>
      exact .nil
  | cons found nameWritten _ inductionHypothesis =>
      obtain ⟨named⟩ := nameWritten
      exact .cons (dot?_eq_some_iff.mp found) (.cons named inductionHypothesis)

/-- The path of a type makes no mention. -/
theorem TypePath.fallIntoCells
    {tokens : List Token}
    {path : TypePath}
    (written : WritesPath tokens path) :
    FallIntoCells tokens [] fun _ => path.kinds := by
  obtain ⟨⟨named⟩, laterWritten⟩ := written
  exact .cons named (laterSegments_fallIntoCells laterWritten)

section

variable (spans : Source.Span → Source.Span)

mutual

/--
The tokens of an addition make its mentions, and change only there when names
are rewritten.
-/
theorem Addition.fallIntoCells :
    ∀ (tree : Addition) {tokens : List Token},
      tree.Written tokens →
      FallIntoCells tokens tree.mentions fun atoms => (tree.rewritten spans atoms).kinds
  | .mk _ first later, _, .mk firstWritten laterWritten => by
      simp only [Addition.mentions, Addition.rewritten, Addition.kinds]
      exact (first.fallIntoCells firstWritten).append
        (laterTerms_fallIntoCells later laterWritten)

theorem laterTerms_fallIntoCells :
    ∀ (later : List (Sign × Multiplication)) {tokens : List Token},
      Separated Sign.ofKind? Multiplication.Written tokens later →
      FallIntoCells tokens (laterTermMentions later)
        fun atoms => laterTermKinds (laterTermsRewritten spans atoms later)
  | [], _, .nil => by
      simp only [laterTermMentions, laterTermsRewritten, laterTermKinds]
      exact .nil
  | (sign, term) :: rest, _, .cons found termWritten restWritten => by
      simp only [laterTermMentions, laterTermsRewritten, laterTermKinds]
      exact .append
        (.cons (Sign.ofKind?_eq_some_iff.mp found) (term.fallIntoCells termWritten))
        (laterTerms_fallIntoCells rest restWritten)

theorem Multiplication.fallIntoCells :
    ∀ (tree : Multiplication) {tokens : List Token},
      tree.Written tokens →
      FallIntoCells tokens tree.mentions fun atoms => (tree.rewritten spans atoms).kinds
  | .mk _ first later, _, .mk firstWritten laterWritten => by
      simp only [Multiplication.mentions, Multiplication.rewritten, Multiplication.kinds]
      exact (first.fallIntoCells firstWritten).append
        (laterFactors_fallIntoCells later laterWritten)

theorem laterFactors_fallIntoCells :
    ∀ (later : List (Scaling × Unary)) {tokens : List Token},
      Separated Scaling.ofKind? Unary.Written tokens later →
      FallIntoCells tokens (laterFactorMentions later)
        fun atoms => laterFactorKinds (laterFactorsRewritten spans atoms later)
  | [], _, .nil => by
      simp only [laterFactorMentions, laterFactorsRewritten, laterFactorKinds]
      exact .nil
  | (scaling, factor) :: rest, _, .cons found factorWritten restWritten => by
      simp only [laterFactorMentions, laterFactorsRewritten, laterFactorKinds]
      exact .append
        (.cons (Scaling.ofKind?_eq_some_iff.mp found)
          (factor.fallIntoCells factorWritten))
        (laterFactors_fallIntoCells rest restWritten)

theorem Unary.fallIntoCells :
    ∀ (tree : Unary) {tokens : List Token},
      tree.Written tokens →
      FallIntoCells tokens tree.mentions fun atoms => (tree.rewritten spans atoms).kinds
  | .signed _ sign operand, _, .signed found operandWritten => by
      simp only [Unary.mentions, Unary.rewritten, Unary.kinds]
      exact .cons (Sign.ofKind?_eq_some_iff.mp found)
        (operand.fallIntoCells operandWritten)
  | .primary operand, _, .primary operandWritten => by
      simp only [Unary.mentions, Unary.rewritten, Unary.kinds]
      exact operand.fallIntoCells operandWritten

theorem Primary.fallIntoCells :
    ∀ (tree : Primary) {tokens : List Token},
      tree.Written tokens →
      FallIntoCells tokens tree.mentions fun atoms => (tree.rewritten spans atoms).kinds
  | .mk _ start chain, _, .mk startWritten chainWritten => by
      simp only [Primary.mentions, Primary.rewritten, Primary.kinds]
      exact (start.fallIntoCells startWritten).append
        (links_fallIntoCells chain chainWritten)

theorem Atom.fallIntoCells :
    ∀ (tree : Atom) {tokens : List Token},
      tree.Written tokens →
      FallIntoCells tokens tree.mentions fun atoms => (tree.rewritten spans atoms).kinds
  | .number _ _, _, .number found => by
      simp only [Atom.mentions, Atom.rewritten, Atom.kinds]
      exact .cons found .nil
  | .name _ _, _, .name found => by
      simp only [Atom.mentions, Atom.rewritten]
      exact .name found
  | .call _ _ _ items, _, .call found itemsWritten => by
      simp only [Atom.mentions, Atom.rewritten, Atom.kinds]
      exact .cons found (arguments_fallIntoCells items itemsWritten)
  | .group _ inner, _, .group opens innerWritten closes => by
      simp only [Atom.mentions, Atom.rewritten, Atom.kinds]
      exact .concat (.cons opens (inner.fallIntoCells innerWritten)) closes
  | .construction _ path items, _, .construction found pathWritten itemsWritten => by
      simp only [Atom.mentions, Atom.rewritten, Atom.kinds, List.cons_append,
        List.append_assoc]
      exact .cons found
        (.append (TypePath.fallIntoCells pathWritten)
          (arguments_fallIntoCells items itemsWritten))

theorem links_fallIntoCells :
    ∀ (chain : List Link) {tokens : List Token},
      Joined Link.Written tokens chain →
      FallIntoCells tokens (linkMentions chain)
        fun atoms => linkKinds (linksRewritten spans atoms chain)
  | [], _, .nil => by
      simp only [linkMentions, linksRewritten, linkKinds]
      exact .nil
  | first :: rest, _, .cons firstWritten restWritten => by
      simp only [linkMentions, linksRewritten, linkKinds]
      exact (first.fallIntoCells firstWritten).append
        (links_fallIntoCells rest restWritten)

theorem Link.fallIntoCells :
    ∀ (tree : Link) {tokens : List Token},
      tree.Written tokens →
      FallIntoCells tokens tree.mentions fun atoms => (tree.rewritten spans atoms).kinds
  | .field _ _ _, _, .field points named => by
      simp only [Link.mentions, Link.rewritten, Link.kinds]
      exact .cons points (.member named)
  | .call _ _ _ items, _, .call points named itemsWritten => by
      simp only [Link.mentions, Link.rewritten, Link.kinds, List.cons_append]
      exact .cons points (.cons named (arguments_fallIntoCells items itemsWritten))

/-- The tokens of arguments make their mentions, and change only there. -/
theorem arguments_fallIntoCells :
    ∀ (items : List Addition) {tokens : List Token} {close : Token},
      WritesArguments Addition.Written tokens (items, close) →
      FallIntoCells tokens (argumentMentions items)
        fun atoms =>
          .openParen :: argumentKinds (argumentsRewritten spans atoms items) ++ [.closeParen]
  | [], _, _, .none opens closes => by
      simp only [argumentMentions, argumentsRewritten, argumentKinds]
      exact .cons opens (.cons closes .nil)
  | first :: rest, _, _, written => by
      obtain ⟨_, _, _, _, rfl, restShape, opens, firstWritten, laterWritten,
        closes⟩ := written.split_cons
      simp only [argumentMentions, argumentsRewritten, argumentKinds, List.cons_append,
        List.append_assoc]
      exact .cons opens
        (.append (first.fallIntoCells firstWritten)
          (.concat (laterArguments_fallIntoCells rest restShape laterWritten) closes))

theorem laterArguments_fallIntoCells :
    ∀ (items : List Addition) {tokens : List Token}
      {later : List (Unit × Addition)},
      items = later.map Prod.snd →
      Separated comma? Addition.Written tokens later →
      FallIntoCells tokens (argumentMentions items)
        fun atoms => laterArgumentKinds (argumentsRewritten spans atoms items)
  | [], _, [], _, .nil => by
      simp only [argumentMentions, argumentsRewritten, laterArgumentKinds]
      exact .nil
  | first :: rest, _, (_, item) :: later, shape,
      .cons found itemWritten laterWritten => by
      obtain ⟨sameItem, sameRest⟩ := List.cons_eq_cons.mp shape
      subst sameItem
      simp only [argumentMentions, argumentsRewritten, laterArgumentKinds]
      exact .append
        (.cons (comma?_eq_some_iff.mp found) (first.fallIntoCells itemWritten))
        (laterArguments_fallIntoCells rest sameRest laterWritten)

end

/-- The tokens of an expression make its mentions, and change only there. -/
theorem Expression.fallIntoCells
    {expression : Expression}
    {tokens : List Token}
    (written : expression.Written tokens) :
    FallIntoCells tokens expression.mentions
      fun atoms => (expression.root.rewritten spans atoms).kinds :=
  expression.root.fallIntoCells spans written

end

/-- What a mention tells of its token: the span, and the name as a kind. -/
def Mention.trace (mention : Mention) : Source.Span × Token.Kind :=
  (mention.span, .identifier mention.name)

/-- Mentions stand in the order of the tokens that make them. -/
theorem FallIntoCells.mentions_sublist
    {tokens : List Token}
    {mentions : List Mention}
    {kinds : (Source.Span → String → Atom) → List Token.Kind}
    (fall : FallIntoCells tokens mentions kinds) :
    (mentions.map Mention.trace).Sublist
      (tokens.map fun token => (token.span, token.kind)) := by
  obtain ⟨cells, rfl, rfl, sameKinds⟩ := fall
  clear sameKinds
  induction cells with
  | nil =>
      exact .slnil
  | cons cell rest inductionHypothesis =>
      obtain ⟨token, mention, agrees⟩ := cell
      cases mention with
      | none =>
          exact inductionHypothesis.cons _
      | some made =>
          obtain ⟨sameSpan, named⟩ := agrees made rfl
          have same : made.trace = (token.span, token.kind) := by
            rw [Mention.trace, sameSpan, named]
          simp only [List.filterMap_cons, List.map_cons, same]
          exact inductionHypothesis.cons_cons _

end PlanarExpr
