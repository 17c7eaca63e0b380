import PlanarExpr.Proofs.Mentions
import PlanarExpr.Proofs.Reading

namespace PlanarExpr

/-!
# Tokens that stand elsewhere

Tokens that write a tree still write it if they are moved to other places, with
the spans of the tree moved in the same way. Only the places at which tokens
start and stop matter for that.
-/

open Source

/-- A span with its two ends moved. -/
def Source.Span.moved
    (starts stops : Place → Place)
    (span : Span) :
    Span :=
  { start := starts span.start, stop := stops span.stop, file := span.file }

/-- Spans move before or after they are joined. -/
@[simp] theorem Source.Span.moved_through
    (starts stops : Place → Place)
    (first last : Span) :
    (first.through last).moved starts stops =
      (first.moved starts stops).through (last.moved starts stops) :=
  rfl

/-- A token with the ends of its span moved. -/
def Token.moved
    (starts stops : Place → Place)
    (token : Token) :
    Token :=
  { token with span := token.span.moved starts stops }

/-- Tokens stand for the same wherever they stand. -/
theorem Token.map_kind_moved
    (starts stops : Place → Place)
    (tokens : List Token) :
    (tokens.map (Token.moved starts stops)).map Token.kind = tokens.map Token.kind := by
  rw [List.map_map]
  rfl

section Moved

variable (starts stops : Place → Place)

/-- A name at another place. -/
def Atom.movedName
    (span : Span)
    (name : String) :
    Atom :=
  .name (span.moved starts stops) name

/-- An addition with all its spans moved. -/
abbrev Addition.moved (tree : Addition) : Addition :=
  tree.rewritten (Span.moved starts stops) (Atom.movedName starts stops)

/-- A multiplication with all its spans moved. -/
abbrev Multiplication.moved (tree : Multiplication) : Multiplication :=
  tree.rewritten (Span.moved starts stops) (Atom.movedName starts stops)

/-- A unary expression with all its spans moved. -/
abbrev Unary.moved (tree : Unary) : Unary :=
  tree.rewritten (Span.moved starts stops) (Atom.movedName starts stops)

/-- A primary with all its spans moved. -/
abbrev Primary.moved (tree : Primary) : Primary :=
  tree.rewritten (Span.moved starts stops) (Atom.movedName starts stops)

/-- An atom with all its spans moved. -/
abbrev Atom.moved (tree : Atom) : Atom :=
  tree.rewritten (Span.moved starts stops) (Atom.movedName starts stops)

/-- A link with all its spans moved. -/
abbrev Link.moved (tree : Link) : Link :=
  tree.rewritten (Span.moved starts stops) (Atom.movedName starts stops)

/-- The span of a moved atom is its span, moved. -/
theorem Atom.span_moved (tree : Atom) :
    (tree.moved starts stops).span = tree.span.moved starts stops := by
  cases tree <;> simp only [Atom.rewritten, Atom.movedName, Atom.span]

theorem Link.span_moved (tree : Link) :
    (tree.moved starts stops).span = tree.span.moved starts stops := by
  cases tree <;> simp only [Link.rewritten, Link.span]

theorem Primary.span_moved (tree : Primary) :
    (tree.moved starts stops).span = tree.span.moved starts stops := by
  cases tree
  simp only [Primary.rewritten, Primary.span]

theorem Unary.span_moved (tree : Unary) :
    (tree.moved starts stops).span = tree.span.moved starts stops := by
  cases tree with
  | signed span sign operand => simp only [Unary.rewritten, Unary.span]
  | primary operand =>
      simp only [Unary.rewritten, Unary.span]
      exact operand.span_moved starts stops

theorem Multiplication.span_moved (tree : Multiplication) :
    (tree.moved starts stops).span = tree.span.moved starts stops := by
  cases tree
  simp only [Multiplication.rewritten, Multiplication.span]

/-- The span of an operator chain moves with the spans of its items. -/
theorem spanThrough_moved
    {spanOf : α → Span}
    {move : α → α}
    (moves : ∀ item, spanOf (move item) = (spanOf item).moved starts stops)
    (first : Span)
    (later : List α) :
    spanThrough (first.moved starts stops) spanOf (later.map move) =
      (spanThrough first spanOf later).moved starts stops := by
  unfold spanThrough
  rw [List.getLast?_map]
  cases later.getLast? with
  | none => rfl
  | some last => simp only [Option.map_some, moves, Span.moved_through]

/-- Later terms are rewritten one by one. -/
theorem laterTermsRewritten_eq_map
    (spans : Span → Span)
    (atoms : Span → String → Atom)
    (later : List (Sign × Multiplication)) :
    laterTermsRewritten spans atoms later =
      later.map fun (sign, term) => (sign, term.rewritten spans atoms) := by
  induction later with
  | nil => rw [laterTermsRewritten, List.map_nil]
  | cons entry rest inductionHypothesis =>
      rw [laterTermsRewritten, List.map_cons, inductionHypothesis]

theorem laterFactorsRewritten_eq_map
    (spans : Span → Span)
    (atoms : Span → String → Atom)
    (later : List (Scaling × Unary)) :
    laterFactorsRewritten spans atoms later =
      later.map fun (scaling, factor) => (scaling, factor.rewritten spans atoms) := by
  induction later with
  | nil => rw [laterFactorsRewritten, List.map_nil]
  | cons entry rest inductionHypothesis =>
      rw [laterFactorsRewritten, List.map_cons, inductionHypothesis]

theorem linksRewritten_eq_map
    (spans : Span → Span)
    (atoms : Span → String → Atom)
    (chain : List Link) :
    linksRewritten spans atoms chain = chain.map (·.rewritten spans atoms) := by
  induction chain with
  | nil => rw [linksRewritten, List.map_nil]
  | cons link rest inductionHypothesis =>
      rw [linksRewritten, List.map_cons, inductionHypothesis]

theorem spanThrough_moved_terms
    (first : Multiplication)
    (later : List (Sign × Multiplication)) :
    spanThrough (first.moved starts stops).span (fun (_, term) => term.span)
        (laterTermsRewritten (Span.moved starts stops) (Atom.movedName starts stops) later) =
      (spanThrough first.span (fun (_, term) => term.span) later).moved starts stops := by
  rw [laterTermsRewritten_eq_map, Multiplication.span_moved]
  exact spanThrough_moved starts stops (fun (_, term) => term.span_moved starts stops) _ _

theorem spanThrough_moved_factors
    (first : Unary)
    (later : List (Scaling × Unary)) :
    spanThrough (first.moved starts stops).span (fun (_, factor) => factor.span)
        (laterFactorsRewritten (Span.moved starts stops) (Atom.movedName starts stops) later) =
      (spanThrough first.span (fun (_, factor) => factor.span) later).moved starts stops := by
  rw [laterFactorsRewritten_eq_map, Unary.span_moved]
  exact spanThrough_moved starts stops (fun (_, factor) => factor.span_moved starts stops) _ _

theorem spanThrough_moved_links
    (start : Atom)
    (chain : List Link) :
    spanThrough (start.moved starts stops).span Link.span
        (linksRewritten (Span.moved starts stops) (Atom.movedName starts stops) chain) =
      (spanThrough start.span Link.span chain).moved starts stops := by
  rw [linksRewritten_eq_map, Atom.span_moved]
  exact spanThrough_moved starts stops (Link.span_moved starts stops) _ _

/-- Moved tokens write the same later segments of a type. -/
theorem laterSegments_written_moved
    {tokens : List Token}
    {later : List (Unit × (String × Token))}
    (written : Separated dot? WritesName tokens later) :
    Separated dot? WritesName (tokens.map (Token.moved starts stops))
      (later.map fun (separator, name, token) =>
        (separator, name, token.moved starts stops)) := by
  induction written with
  | nil =>
      exact .nil
  | @cons dot _ _ _ _ _ found nameWritten _ inductionHypothesis =>
      obtain @⟨token, _, named⟩ := nameWritten
      have movedFound : dot? (dot.moved starts stops).kind = _ := found
      have movedNamed : (token.moved starts stops).kind = _ := named
      exact .cons movedFound (.mk movedNamed) inductionHypothesis

/-- Moved tokens write the same type. -/
theorem TypePath.written_moved
    {tokens : List Token}
    {path : TypePath}
    (written : WritesPath tokens path) :
    WritesPath (tokens.map (Token.moved starts stops)) path := by
  obtain ⟨@⟨token, _, named⟩, laterWritten⟩ := written
  have movedNamed : (token.moved starts stops).kind = _ := named
  have moved :=
    WritesPath.mk (.mk movedNamed) (laterSegments_written_moved starts stops laterWritten)
  rw [List.map_map] at moved
  rw [List.map_append]
  exact moved

mutual

/-- Moved tokens write the moved addition. -/
theorem Addition.written_moved :
    ∀ (tree : Addition) {tokens : List Token},
      tree.Written tokens →
      (tree.moved starts stops).Written (tokens.map (Token.moved starts stops))
  | .mk _ first later, _, .mk firstWritten laterWritten => by
      rw [Addition.moved, Addition.rewritten, ← spanThrough_moved_terms, List.map_append]
      exact .mk (first.written_moved firstWritten)
        (laterTerms_written_moved later laterWritten)

/-- Moved tokens write the moved later terms. -/
theorem laterTerms_written_moved :
    ∀ (later : List (Sign × Multiplication)) {tokens : List Token},
      Separated Sign.ofKind? Multiplication.Written tokens later →
      Separated Sign.ofKind? Multiplication.Written (tokens.map (Token.moved starts stops))
        (laterTermsRewritten (Span.moved starts stops) (Atom.movedName starts stops) later)
  | [], _, .nil => by
      rw [laterTermsRewritten]
      exact .nil
  | (sign, term) :: rest, _, .cons found termWritten restWritten => by
      rw [laterTermsRewritten, List.map_append]
      exact .cons found (term.written_moved termWritten)
        (laterTerms_written_moved rest restWritten)

theorem Multiplication.written_moved :
    ∀ (tree : Multiplication) {tokens : List Token},
      tree.Written tokens →
      (tree.moved starts stops).Written (tokens.map (Token.moved starts stops))
  | .mk _ first later, _, .mk firstWritten laterWritten => by
      rw [Multiplication.moved, Multiplication.rewritten, ← spanThrough_moved_factors,
        List.map_append]
      exact .mk (first.written_moved firstWritten)
        (laterFactors_written_moved later laterWritten)

theorem laterFactors_written_moved :
    ∀ (later : List (Scaling × Unary)) {tokens : List Token},
      Separated Scaling.ofKind? Unary.Written tokens later →
      Separated Scaling.ofKind? Unary.Written (tokens.map (Token.moved starts stops))
        (laterFactorsRewritten (Span.moved starts stops) (Atom.movedName starts stops) later)
  | [], _, .nil => by
      rw [laterFactorsRewritten]
      exact .nil
  | (scaling, factor) :: rest, _, .cons found factorWritten restWritten => by
      rw [laterFactorsRewritten, List.map_append]
      exact .cons found (factor.written_moved factorWritten)
        (laterFactors_written_moved rest restWritten)

theorem Unary.written_moved :
    ∀ (tree : Unary) {tokens : List Token},
      tree.Written tokens →
      (tree.moved starts stops).Written (tokens.map (Token.moved starts stops))
  | .signed _ sign operand, _, .signed found operandWritten => by
      rw [Unary.moved, Unary.rewritten, Span.moved_through, ← operand.span_moved]
      exact .signed found (operand.written_moved operandWritten)
  | .primary operand, _, .primary operandWritten => by
      rw [Unary.moved, Unary.rewritten]
      exact .primary (operand.written_moved operandWritten)

theorem Primary.written_moved :
    ∀ (tree : Primary) {tokens : List Token},
      tree.Written tokens →
      (tree.moved starts stops).Written (tokens.map (Token.moved starts stops))
  | .mk _ start chain, _, .mk startWritten chainWritten => by
      rw [Primary.moved, Primary.rewritten, ← spanThrough_moved_links, List.map_append]
      exact .mk (start.written_moved startWritten) (links_written_moved chain chainWritten)

theorem Atom.written_moved :
    ∀ (tree : Atom) {tokens : List Token},
      tree.Written tokens →
      (tree.moved starts stops).Written (tokens.map (Token.moved starts stops))
  | .number _ _, _, .number found => by
      rw [Atom.moved, Atom.rewritten]
      exact .number found
  | .name _ _, _, .name found => by
      rw [Atom.moved, Atom.rewritten]
      exact .name found
  | .call _ _ _ items, _, @Atom.Written.call token _ _ _ _ found itemsWritten => by
      have movedFound : (token.moved starts stops).kind = _ := found
      rw [Atom.moved, Atom.rewritten]
      exact .call movedFound (arguments_written_moved items itemsWritten)
  | .group _ inner, _, .group opens innerWritten closes => by
      rw [Atom.moved, Atom.rewritten, List.map_append]
      exact .group opens (inner.written_moved innerWritten) closes
  | .construction _ _ items, _,
      @Atom.Written.construction keyword _ _ _ _ _ found pathWritten itemsWritten => by
      have movedFound : (keyword.moved starts stops).kind = .new := found
      rw [Atom.moved, Atom.rewritten, List.map_append]
      exact .construction movedFound (TypePath.written_moved starts stops pathWritten)
        (arguments_written_moved items itemsWritten)

theorem links_written_moved :
    ∀ (chain : List Link) {tokens : List Token},
      Joined Link.Written tokens chain →
      Joined Link.Written (tokens.map (Token.moved starts stops))
        (linksRewritten (Span.moved starts stops) (Atom.movedName starts stops) chain)
  | [], _, .nil => by
      rw [linksRewritten]
      exact .nil
  | first :: rest, _, .cons firstWritten restWritten => by
      rw [linksRewritten, List.map_append]
      exact .cons (first.written_moved firstWritten) (links_written_moved rest restWritten)

theorem Link.written_moved :
    ∀ (tree : Link) {tokens : List Token},
      tree.Written tokens →
      (tree.moved starts stops).Written (tokens.map (Token.moved starts stops))
  | .field _ _ _, _, .field points named => by
      rw [Link.moved, Link.rewritten]
      exact .field points named
  | .call _ _ _ items, _, @Link.Written.call dot token _ _ _ _ points named itemsWritten => by
      have movedPoints : (dot.moved starts stops).kind = .dot := points
      have movedNamed : (token.moved starts stops).kind = _ := named
      rw [Link.moved, Link.rewritten]
      exact .call movedPoints movedNamed (arguments_written_moved items itemsWritten)

theorem arguments_written_moved :
    ∀ (items : List Addition) {tokens : List Token} {close : Token},
      WritesArguments Addition.Written tokens (items, close) →
      WritesArguments Addition.Written (tokens.map (Token.moved starts stops))
        (argumentsRewritten (Span.moved starts stops) (Atom.movedName starts stops) items,
          close.moved starts stops)
  | [], _, _, .none opens closes => by
      rw [argumentsRewritten]
      exact .none opens closes
  | first :: rest, _, close, written => by
      obtain ⟨opening, _, _, _, rfl, restShape, opens, firstWritten, laterWritten,
        closes⟩ := written.split_cons
      have movedOpens : (opening.moved starts stops).kind = .openParen := opens
      have movedCloses : (close.moved starts stops).kind = .closeParen := closes
      have moved :=
        WritesArguments.some movedOpens (first.written_moved firstWritten)
          (laterArguments_written_moved rest restShape laterWritten) movedCloses
      simp only [List.map_map, Function.comp_def, List.map_id'] at moved
      rw [argumentsRewritten, List.map_append, List.map_append]
      exact moved

theorem laterArguments_written_moved :
    ∀ (items : List Addition) {tokens : List Token}
      {later : List (Unit × Addition)},
      items = later.map Prod.snd →
      Separated comma? Addition.Written tokens later →
      Separated comma? Addition.Written (tokens.map (Token.moved starts stops))
        ((argumentsRewritten (Span.moved starts stops) (Atom.movedName starts stops)
          items).map ((), ·))
  | [], _, [], _, .nil => by
      rw [argumentsRewritten]
      exact .nil
  | first :: rest, _, (_, item) :: later, shape,
      .cons found itemWritten laterWritten => by
      obtain ⟨sameItem, sameRest⟩ := List.cons_eq_cons.mp shape
      subst sameItem
      rw [argumentsRewritten, List.map_append]
      exact .cons found (first.written_moved itemWritten)
        (laterArguments_written_moved rest sameRest laterWritten)

end

end Moved

/-- The tokens that write a tree determine it together with its spans. -/
theorem Addition.Written.unique
    {tokens : List Token}
    {first second : Addition}
    (firstWritten : first.Written tokens)
    (secondWritten : second.Written tokens) :
    first = second := by
  -- Both trees are what the reader finds once the room is enough for either.
  let room := max first.nesting second.nesting
  have covered : (tokens ++ []).length ≤ tokens.length :=
    Nat.le_of_eq (congrArg List.length (List.append_nil tokens))
  have firstRead :=
    Grammar.complete_addition tokens.length room
      ⟨firstWritten, Nat.le_max_left _ _⟩ covered (stops_nil _)
  have secondRead :=
    Grammar.complete_addition tokens.length room
      ⟨secondWritten, Nat.le_max_right _ _⟩ covered (stops_nil _)
  rw [firstRead] at secondRead
  exact (Prod.mk.inj (Except.ok.inj secondRead)).1

end PlanarExpr
