import PlanarExpr.Expression.Parser

namespace PlanarExpr

/-!
# The spelling of an expression

A tree determines the kinds of the tokens that write it, one after the other,
and how deep additions and signs stand inside one another. Neither of them
looks at the spans of the tree.
-/

/-- The kind that writes a sign. -/
def Sign.kind : Sign → Token.Kind
  | .plus => .plus
  | .minus => .minus

/-- The kind that writes an operator of a product. -/
def Scaling.kind : Scaling → Token.Kind
  | .times => .star
  | .over => .slash

/-- A sign is recognised in the kind that writes it and in no other. -/
theorem Sign.ofKind?_eq_some_iff
    {kind : Token.Kind}
    {sign : Sign} :
    Sign.ofKind? kind = some sign ↔ kind = sign.kind := by
  cases kind <;> cases sign <;> simp [Sign.ofKind?, Sign.kind]

/-- A scaling is recognised in the kind that writes it and in no other. -/
theorem Scaling.ofKind?_eq_some_iff
    {kind : Token.Kind}
    {scaling : Scaling} :
    Scaling.ofKind? kind = some scaling ↔ kind = scaling.kind := by
  cases kind <;> cases scaling <;> simp [Scaling.ofKind?, Scaling.kind]

/-- A comma separates arguments, and nothing else does. -/
theorem comma?_eq_some_iff
    {kind : Token.Kind}
    {separator : Unit} :
    comma? kind = some separator ↔ kind = .comma := by
  cases kind <;> simp [comma?]

/-- A point separates the names of a path, and nothing else does. -/
theorem dot?_eq_some_iff
    {kind : Token.Kind}
    {separator : Unit} :
    dot? kind = some separator ↔ kind = .dot := by
  cases kind <;> simp [dot?]

/-! ## Kinds of tokens -/

/-- The later names of a path, each behind a point. -/
def laterSegmentKinds : List String → List Token.Kind
  | [] => []
  | segment :: rest => .dot :: .identifier segment :: laterSegmentKinds rest

/-- The kinds of the tokens of a type path. -/
def TypePath.kinds (path : TypePath) : List Token.Kind :=
  .identifier path.first :: laterSegmentKinds path.later

mutual

/-- The kinds of the tokens of an addition. -/
def Addition.kinds : Addition → List Token.Kind
  | .mk _ first later => first.kinds ++ laterTermKinds later

/-- The kinds of the later terms, each behind its sign. -/
def laterTermKinds : List (Sign × Multiplication) → List Token.Kind
  | [] => []
  | (sign, term) :: rest => sign.kind :: term.kinds ++ laterTermKinds rest

/-- The kinds of the tokens of a multiplication. -/
def Multiplication.kinds : Multiplication → List Token.Kind
  | .mk _ first later => first.kinds ++ laterFactorKinds later

/-- The kinds of the later factors, each behind its operator. -/
def laterFactorKinds : List (Scaling × Unary) → List Token.Kind
  | [] => []
  | (scaling, factor) :: rest =>
      scaling.kind :: factor.kinds ++ laterFactorKinds rest

/-- The kinds of the tokens of a unary expression. -/
def Unary.kinds : Unary → List Token.Kind
  | .signed _ sign operand => sign.kind :: operand.kinds
  | .primary operand => operand.kinds

/-- The kinds of the tokens of a primary. -/
def Primary.kinds : Primary → List Token.Kind
  | .mk _ start chain => start.kinds ++ linkKinds chain

/-- The kinds of the tokens of an atom. -/
def Atom.kinds : Atom → List Token.Kind
  | .number _ value => [.number value]
  | .name _ name => [.identifier name]
  | .call _ name _ items =>
      .identifier name :: .openParen :: argumentKinds items ++ [.closeParen]
  | .group _ inner => .openParen :: inner.kinds ++ [.closeParen]
  | .construction _ path items =>
      .new :: path.kinds ++ .openParen :: argumentKinds items ++ [.closeParen]

/-- The kinds of the tokens of a chain. -/
def linkKinds : List Link → List Token.Kind
  | [] => []
  | first :: rest => first.kinds ++ linkKinds rest

/-- The kinds of the tokens of a link. -/
def Link.kinds : Link → List Token.Kind
  | .field _ member _ => [.dot, .identifier member]
  | .call _ member _ items =>
      .dot :: .identifier member :: .openParen :: argumentKinds items ++
        [.closeParen]

/-- The kinds of the tokens of arguments, without the parentheses. -/
def argumentKinds : List Addition → List Token.Kind
  | [] => []
  | first :: rest => first.kinds ++ laterArgumentKinds rest

/-- The kinds of the tokens of the later arguments, each behind a comma. -/
def laterArgumentKinds : List Addition → List Token.Kind
  | [] => []
  | first :: rest => .comma :: first.kinds ++ laterArgumentKinds rest

end

/-- The kinds of the tokens of an expression. -/
def Expression.kinds (expression : Expression) : List Token.Kind :=
  expression.root.kinds

/-! ## Nesting -/

mutual

/--
The largest number of additions and signs on the way from an addition down to a
leaf, itself included.
-/
def Addition.nesting : Addition → Nat
  | .mk _ first later => max first.nesting (laterTermNesting later) + 1

/-- The nesting of the deepest of the later terms. -/
def laterTermNesting : List (Sign × Multiplication) → Nat
  | [] => 0
  | (_, term) :: rest => max term.nesting (laterTermNesting rest)

/-- The nesting of the deepest factor of a multiplication. -/
def Multiplication.nesting : Multiplication → Nat
  | .mk _ first later => max first.nesting (laterFactorNesting later)

/-- The nesting of the deepest of the later factors. -/
def laterFactorNesting : List (Scaling × Unary) → Nat
  | [] => 0
  | (_, factor) :: rest => max factor.nesting (laterFactorNesting rest)

/-- The nesting of a unary expression, whose sign counts. -/
def Unary.nesting : Unary → Nat
  | .signed _ _ operand => operand.nesting + 1
  | .primary operand => operand.nesting

/-- The nesting of a primary, in its atom or in its links. -/
def Primary.nesting : Primary → Nat
  | .mk _ start chain => max start.nesting (linkNesting chain)

/-- The nesting of what stands between the parentheses of an atom. -/
def Atom.nesting : Atom → Nat
  | .number _ _ => 0
  | .name _ _ => 0
  | .call _ _ _ items => argumentNesting items
  | .group _ inner => inner.nesting
  | .construction _ _ items => argumentNesting items

/-- The nesting of the deepest link of a chain. -/
def linkNesting : List Link → Nat
  | [] => 0
  | first :: rest => max first.nesting (linkNesting rest)

/-- The nesting of the arguments of a link. -/
def Link.nesting : Link → Nat
  | .field _ _ _ => 0
  | .call _ _ _ items => argumentNesting items

/-- The nesting of the deepest argument. -/
def argumentNesting : List Addition → Nat
  | [] => 0
  | first :: rest => max first.nesting (argumentNesting rest)

end

/-- How many additions and signs of an expression stand inside one another. -/
def Expression.nesting (expression : Expression) : Nat :=
  expression.root.nesting

/-- The later terms are nested as deep as the deepest of them. -/
theorem laterTermNesting_le_iff
    {bound : Nat}
    {later : List (Sign × Multiplication)} :
    laterTermNesting later ≤ bound ↔
      ∀ entry ∈ later, entry.2.nesting ≤ bound := by
  induction later with
  | nil =>
      simp [laterTermNesting]
  | cons entry rest inductionHypothesis =>
      simp only [laterTermNesting, Nat.max_le, List.forall_mem_cons, inductionHypothesis]

theorem laterFactorNesting_le_iff
    {bound : Nat}
    {later : List (Scaling × Unary)} :
    laterFactorNesting later ≤ bound ↔
      ∀ entry ∈ later, entry.2.nesting ≤ bound := by
  induction later with
  | nil =>
      simp [laterFactorNesting]
  | cons entry rest inductionHypothesis =>
      simp only [laterFactorNesting, Nat.max_le, List.forall_mem_cons, inductionHypothesis]

/-- Arguments are nested as deep as the deepest of them. -/
theorem argumentNesting_le_iff
    {bound : Nat}
    {items : List Addition} :
    argumentNesting items ≤ bound ↔
      ∀ item ∈ items, item.nesting ≤ bound := by
  induction items with
  | nil =>
      simp [argumentNesting]
  | cons item rest inductionHypothesis =>
      simp only [argumentNesting, Nat.max_le, List.forall_mem_cons, inductionHypothesis]

/-! ## Trees without their spans -/

/-- The span that stands for the lack of one. -/
def Source.Span.blank : Source.Span :=
  { start := .start, stop := .start, file := "" }

mutual

/-- An addition without its spans. -/
def Addition.withoutSpans : Addition → Addition
  | .mk _ first later =>
      .mk .blank first.withoutSpans (laterTermsWithoutSpans later)

/-- Later terms without their spans. -/
def laterTermsWithoutSpans :
    List (Sign × Multiplication) → List (Sign × Multiplication)
  | [] => []
  | (sign, term) :: rest =>
      (sign, term.withoutSpans) :: laterTermsWithoutSpans rest

/-- A multiplication without its spans. -/
def Multiplication.withoutSpans : Multiplication → Multiplication
  | .mk _ first later =>
      .mk .blank first.withoutSpans (laterFactorsWithoutSpans later)

/-- Later factors without their spans. -/
def laterFactorsWithoutSpans :
    List (Scaling × Unary) → List (Scaling × Unary)
  | [] => []
  | (scaling, factor) :: rest =>
      (scaling, factor.withoutSpans) :: laterFactorsWithoutSpans rest

/-- A unary expression without its spans. -/
def Unary.withoutSpans : Unary → Unary
  | .signed _ sign operand => .signed .blank sign operand.withoutSpans
  | .primary operand => .primary operand.withoutSpans

/-- A primary without its spans. -/
def Primary.withoutSpans : Primary → Primary
  | .mk _ start chain =>
      .mk .blank start.withoutSpans (linksWithoutSpans chain)

/-- An atom without its spans. -/
def Atom.withoutSpans : Atom → Atom
  | .number _ value => .number .blank value
  | .name _ name => .name .blank name
  | .call _ name _ items =>
      .call .blank name .blank (argumentsWithoutSpans items)
  | .group _ inner => .group .blank inner.withoutSpans
  | .construction _ path items =>
      .construction .blank path (argumentsWithoutSpans items)

/-- A chain without its spans. -/
def linksWithoutSpans : List Link → List Link
  | [] => []
  | first :: rest => first.withoutSpans :: linksWithoutSpans rest

/-- A link without its spans. -/
def Link.withoutSpans : Link → Link
  | .field _ member _ => .field .blank member .blank
  | .call _ member _ items =>
      .call .blank member .blank (argumentsWithoutSpans items)

/-- Arguments without their spans. -/
def argumentsWithoutSpans : List Addition → List Addition
  | [] => []
  | first :: rest => first.withoutSpans :: argumentsWithoutSpans rest

end

/-- An expression without its spans. -/
def Expression.withoutSpans (expression : Expression) : Expression :=
  { root := expression.root.withoutSpans }

mutual

/-- Spans play no part in the kinds of the tokens of an addition. -/
theorem Addition.kinds_withoutSpans :
    ∀ tree : Addition, tree.withoutSpans.kinds = tree.kinds
  | .mk _ first later => by
      simp only [Addition.withoutSpans, Addition.kinds,
        first.kinds_withoutSpans, laterTermKinds_withoutSpans later]

theorem laterTermKinds_withoutSpans :
    ∀ later : List (Sign × Multiplication),
      laterTermKinds (laterTermsWithoutSpans later) = laterTermKinds later
  | [] => rfl
  | (_, term) :: rest => by
      simp only [laterTermsWithoutSpans, laterTermKinds,
        term.kinds_withoutSpans, laterTermKinds_withoutSpans rest]

theorem Multiplication.kinds_withoutSpans :
    ∀ tree : Multiplication, tree.withoutSpans.kinds = tree.kinds
  | .mk _ first later => by
      simp only [Multiplication.withoutSpans, Multiplication.kinds,
        first.kinds_withoutSpans, laterFactorKinds_withoutSpans later]

theorem laterFactorKinds_withoutSpans :
    ∀ later : List (Scaling × Unary),
      laterFactorKinds (laterFactorsWithoutSpans later) = laterFactorKinds later
  | [] => rfl
  | (_, factor) :: rest => by
      simp only [laterFactorsWithoutSpans, laterFactorKinds,
        factor.kinds_withoutSpans, laterFactorKinds_withoutSpans rest]

theorem Unary.kinds_withoutSpans :
    ∀ tree : Unary, tree.withoutSpans.kinds = tree.kinds
  | .signed _ _ operand => by
      simp only [Unary.withoutSpans, Unary.kinds, operand.kinds_withoutSpans]
  | .primary operand => by
      simp only [Unary.withoutSpans, Unary.kinds, operand.kinds_withoutSpans]

theorem Primary.kinds_withoutSpans :
    ∀ tree : Primary, tree.withoutSpans.kinds = tree.kinds
  | .mk _ start chain => by
      simp only [Primary.withoutSpans, Primary.kinds,
        start.kinds_withoutSpans, linkKinds_withoutSpans chain]

theorem Atom.kinds_withoutSpans :
    ∀ tree : Atom, tree.withoutSpans.kinds = tree.kinds
  | .number _ _ => rfl
  | .name _ _ => rfl
  | .call _ _ _ items => by
      simp only [Atom.withoutSpans, Atom.kinds, argumentKinds_withoutSpans items]
  | .group _ inner => by
      simp only [Atom.withoutSpans, Atom.kinds, inner.kinds_withoutSpans]
  | .construction _ _ items => by
      simp only [Atom.withoutSpans, Atom.kinds, argumentKinds_withoutSpans items]

theorem linkKinds_withoutSpans :
    ∀ chain : List Link, linkKinds (linksWithoutSpans chain) = linkKinds chain
  | [] => rfl
  | first :: rest => by
      simp only [linksWithoutSpans, linkKinds,
        first.kinds_withoutSpans, linkKinds_withoutSpans rest]

theorem Link.kinds_withoutSpans :
    ∀ tree : Link, tree.withoutSpans.kinds = tree.kinds
  | .field _ _ _ => rfl
  | .call _ _ _ items => by
      simp only [Link.withoutSpans, Link.kinds, argumentKinds_withoutSpans items]

theorem argumentKinds_withoutSpans :
    ∀ items : List Addition,
      argumentKinds (argumentsWithoutSpans items) = argumentKinds items
  | [] => rfl
  | first :: rest => by
      simp only [argumentsWithoutSpans, argumentKinds,
        first.kinds_withoutSpans, laterArgumentKinds_withoutSpans rest]

theorem laterArgumentKinds_withoutSpans :
    ∀ items : List Addition,
      laterArgumentKinds (argumentsWithoutSpans items) = laterArgumentKinds items
  | [] => rfl
  | first :: rest => by
      simp only [argumentsWithoutSpans, laterArgumentKinds,
        first.kinds_withoutSpans, laterArgumentKinds_withoutSpans rest]

end

mutual

/-- Spans play no part in the nesting of an addition. -/
theorem Addition.nesting_withoutSpans :
    ∀ tree : Addition, tree.withoutSpans.nesting = tree.nesting
  | .mk _ first later => by
      simp only [Addition.withoutSpans, Addition.nesting,
        first.nesting_withoutSpans, laterTermNesting_withoutSpans later]

theorem laterTermNesting_withoutSpans :
    ∀ later : List (Sign × Multiplication),
      laterTermNesting (laterTermsWithoutSpans later) = laterTermNesting later
  | [] => rfl
  | (_, term) :: rest => by
      simp only [laterTermsWithoutSpans, laterTermNesting,
        term.nesting_withoutSpans, laterTermNesting_withoutSpans rest]

theorem Multiplication.nesting_withoutSpans :
    ∀ tree : Multiplication, tree.withoutSpans.nesting = tree.nesting
  | .mk _ first later => by
      simp only [Multiplication.withoutSpans, Multiplication.nesting,
        first.nesting_withoutSpans, laterFactorNesting_withoutSpans later]

theorem laterFactorNesting_withoutSpans :
    ∀ later : List (Scaling × Unary),
      laterFactorNesting (laterFactorsWithoutSpans later) =
        laterFactorNesting later
  | [] => rfl
  | (_, factor) :: rest => by
      simp only [laterFactorsWithoutSpans, laterFactorNesting,
        factor.nesting_withoutSpans, laterFactorNesting_withoutSpans rest]

theorem Unary.nesting_withoutSpans :
    ∀ tree : Unary, tree.withoutSpans.nesting = tree.nesting
  | .signed _ _ operand => by
      simp only [Unary.withoutSpans, Unary.nesting, operand.nesting_withoutSpans]
  | .primary operand => by
      simp only [Unary.withoutSpans, Unary.nesting, operand.nesting_withoutSpans]

theorem Primary.nesting_withoutSpans :
    ∀ tree : Primary, tree.withoutSpans.nesting = tree.nesting
  | .mk _ start chain => by
      simp only [Primary.withoutSpans, Primary.nesting,
        start.nesting_withoutSpans, linkNesting_withoutSpans chain]

theorem Atom.nesting_withoutSpans :
    ∀ tree : Atom, tree.withoutSpans.nesting = tree.nesting
  | .number _ _ => rfl
  | .name _ _ => rfl
  | .call _ _ _ items => argumentNesting_withoutSpans items
  | .group _ inner => inner.nesting_withoutSpans
  | .construction _ _ items => argumentNesting_withoutSpans items

theorem linkNesting_withoutSpans :
    ∀ chain : List Link, linkNesting (linksWithoutSpans chain) = linkNesting chain
  | [] => rfl
  | first :: rest => by
      simp only [linksWithoutSpans, linkNesting,
        first.nesting_withoutSpans, linkNesting_withoutSpans rest]

theorem Link.nesting_withoutSpans :
    ∀ tree : Link, tree.withoutSpans.nesting = tree.nesting
  | .field _ _ _ => rfl
  | .call _ _ _ items => argumentNesting_withoutSpans items

theorem argumentNesting_withoutSpans :
    ∀ items : List Addition,
      argumentNesting (argumentsWithoutSpans items) = argumentNesting items
  | [] => rfl
  | first :: rest => by
      simp only [argumentsWithoutSpans, argumentNesting,
        first.nesting_withoutSpans, argumentNesting_withoutSpans rest]

end

end PlanarExpr
