import PlanarExpr.Proofs.Spelling

namespace PlanarExpr

/-!
# Tokens that write an expression

The grammar as a relation between tokens and trees: which tokens write a tree,
with every span of the tree taken from the tokens below it. It says nothing of
how tokens are read and knows no limit on nesting.
-/

/-- Tokens that write a list of items, each behind a separator of its own. -/
inductive Separated
    (separator? : Token.Kind → Option σ)
    (writes : List Token → α → Prop) :
    List Token →
    List (σ × α) →
    Prop where
  | nil :
      Separated separator? writes [] []
  | cons
      {token : Token}
      {separator : σ}
      {used behind : List Token}
      {item : α}
      {later : List (σ × α)} :
      separator? token.kind = some separator →
      writes used item →
      Separated separator? writes behind later →
      Separated separator? writes
        (token :: used ++ behind) ((separator, item) :: later)

/-- Tokens that write a list of items with nothing in between. -/
inductive Joined
    (writes : List Token → α → Prop) :
    List Token →
    List α →
    Prop where
  | nil :
      Joined writes [] []
  | cons
      {used behind : List Token}
      {item : α}
      {later : List α} :
      writes used item →
      Joined writes behind later →
      Joined writes (used ++ behind) (item :: later)

/-- One token that writes a name, and the name with its token. -/
inductive WritesName : List Token → String × Token → Prop where
  | mk
      {token : Token}
      {name : String} :
      token.kind = .identifier name →
      WritesName [token] (name, token)

/-- Tokens that write arguments in their parentheses, and the token that closes them. -/
inductive WritesArguments
    (writes : List Token → Addition → Prop) :
    List Token →
    List Addition × Token →
    Prop where
  | none
      {opening close : Token} :
      opening.kind = .openParen →
      close.kind = .closeParen →
      WritesArguments writes [opening, close] ([], close)
  | some
      {opening close : Token}
      {firstTokens laterTokens : List Token}
      {first : Addition}
      {later : List (Unit × Addition)} :
      opening.kind = .openParen →
      writes firstTokens first →
      Separated comma? writes laterTokens later →
      close.kind = .closeParen →
      WritesArguments writes
        (opening :: firstTokens ++ (laterTokens ++ [close]))
        (first :: later.map Prod.snd, close)

/-- Tokens that write the path of a type. -/
inductive WritesPath : List Token → TypePath → Prop where
  | mk
      {firstTokens laterTokens : List Token}
      {first : String × Token}
      {later : List (Unit × (String × Token))} :
      WritesName firstTokens first →
      Separated dot? WritesName laterTokens later →
      WritesPath (firstTokens ++ laterTokens)
        { first := first.1, later := later.map fun (_, segment, _) => segment }

mutual

/-- The tokens that write an addition. -/
inductive Addition.Written : List Token → Addition → Prop where
  | mk
      {firstTokens laterTokens : List Token}
      {first : Multiplication}
      {later : List (Sign × Multiplication)} :
      Multiplication.Written firstTokens first →
      Separated Sign.ofKind? Multiplication.Written laterTokens later →
      Addition.Written (firstTokens ++ laterTokens)
        (.mk (spanThrough first.span (fun (_, term) => term.span) later)
          first later)

/-- The tokens that write a multiplication. -/
inductive Multiplication.Written : List Token → Multiplication → Prop where
  | mk
      {firstTokens laterTokens : List Token}
      {first : Unary}
      {later : List (Scaling × Unary)} :
      Unary.Written firstTokens first →
      Separated Scaling.ofKind? Unary.Written laterTokens later →
      Multiplication.Written (firstTokens ++ laterTokens)
        (.mk (spanThrough first.span (fun (_, factor) => factor.span) later)
          first later)

/-- The tokens that write a unary expression. -/
inductive Unary.Written : List Token → Unary → Prop where
  | signed
      {token : Token}
      {sign : Sign}
      {tokens : List Token}
      {operand : Unary} :
      Sign.ofKind? token.kind = some sign →
      Unary.Written tokens operand →
      Unary.Written (token :: tokens)
        (.signed (token.span.through operand.span) sign operand)
  | primary
      {tokens : List Token}
      {operand : Primary} :
      Primary.Written tokens operand →
      Unary.Written tokens (.primary operand)

/-- The tokens that write a primary. -/
inductive Primary.Written : List Token → Primary → Prop where
  | mk
      {startTokens chainTokens : List Token}
      {start : Atom}
      {chain : List Link} :
      Atom.Written startTokens start →
      Joined Link.Written chainTokens chain →
      Primary.Written (startTokens ++ chainTokens)
        (.mk (spanThrough start.span Link.span chain) start chain)

/-- The tokens that write an atom. -/
inductive Atom.Written : List Token → Atom → Prop where
  | number
      {token : Token}
      {value : Float} :
      token.kind = .number value →
      Atom.Written [token] (.number token.span value)
  | name
      {token : Token}
      {name : String} :
      token.kind = .identifier name →
      Atom.Written [token] (.name token.span name)
  | call
      {token : Token}
      {name : String}
      {tokens : List Token}
      {items : List Addition}
      {close : Token} :
      token.kind = .identifier name →
      WritesArguments Addition.Written tokens (items, close) →
      Atom.Written (token :: tokens)
        (.call (token.span.through close.span) name token.span items)
  | group
      {opening close : Token}
      {tokens : List Token}
      {inner : Addition} :
      opening.kind = .openParen →
      Addition.Written tokens inner →
      close.kind = .closeParen →
      Atom.Written (opening :: tokens ++ [close])
        (.group (opening.span.through close.span) inner)
  | construction
      {keyword : Token}
      {pathTokens tokens : List Token}
      {path : TypePath}
      {items : List Addition}
      {close : Token} :
      keyword.kind = .new →
      WritesPath pathTokens path →
      WritesArguments Addition.Written tokens (items, close) →
      Atom.Written (keyword :: pathTokens ++ tokens)
        (.construction (keyword.span.through close.span) path items)

/-- The tokens that write a link. -/
inductive Link.Written : List Token → Link → Prop where
  | field
      {dot token : Token}
      {member : String} :
      dot.kind = .dot →
      token.kind = .identifier member →
      Link.Written [dot, token]
        (.field (dot.span.through token.span) member token.span)
  | call
      {dot token : Token}
      {member : String}
      {tokens : List Token}
      {items : List Addition}
      {close : Token} :
      dot.kind = .dot →
      token.kind = .identifier member →
      WritesArguments Addition.Written tokens (items, close) →
      Link.Written (dot :: token :: tokens)
        (.call (dot.span.through close.span) member token.span items)

end

/-- The tokens that write an expression. -/
def Expression.Written
    (tokens : List Token)
    (expression : Expression) :
    Prop :=
  expression.root.Written tokens

/-- Written arguments that are not empty start with a first argument and list the later ones. -/
theorem WritesArguments.split_cons
    {writes : List Token → Addition → Prop}
    {tokens : List Token}
    {first : Addition}
    {rest : List Addition}
    {close : Token}
    (written : WritesArguments writes tokens (first :: rest, close)) :
    ∃ opening firstTokens laterTokens,
      ∃ later : List (Unit × Addition),
        tokens = opening :: firstTokens ++ (laterTokens ++ [close]) ∧
          rest = later.map Prod.snd ∧
          opening.kind = .openParen ∧
          writes firstTokens first ∧
          Separated comma? writes laterTokens later ∧
          close.kind = .closeParen := by
  cases written with
  | some opens firstWritten laterWritten closes =>
      exact ⟨_, _, _, _, rfl, rfl, opens, firstWritten, laterWritten, closes⟩

/-! ## The kinds of the tokens that write a tree -/

/-- The tokens that write later segments have their kinds. -/
theorem map_kind_of_laterSegments
    {tokens : List Token}
    {later : List (Unit × (String × Token))}
    (written : Separated dot? WritesName tokens later) :
    tokens.map Token.kind =
      laterSegmentKinds (later.map fun (_, segment, _) => segment) := by
  induction written with
  | nil =>
      rfl
  | cons found nameWritten _ inductionHypothesis =>
      obtain ⟨named⟩ := nameWritten
      simp [laterSegmentKinds, dot?_eq_some_iff.mp found, named,
        inductionHypothesis]

/-- The tokens that write the path of a type have its kinds. -/
theorem TypePath.map_kind_of_written
    {tokens : List Token}
    {path : TypePath}
    (written : WritesPath tokens path) :
    tokens.map Token.kind = path.kinds := by
  obtain ⟨⟨named⟩, laterWritten⟩ := written
  simp [TypePath.kinds, named, map_kind_of_laterSegments laterWritten]

mutual

/-- The tokens that write an addition have its kinds. -/
theorem Addition.map_kind_of_written :
    ∀ (tree : Addition) {tokens : List Token},
      tree.Written tokens → tokens.map Token.kind = tree.kinds
  | .mk _ first later, _, .mk firstWritten laterWritten => by
      rw [List.map_append, Addition.kinds,
        first.map_kind_of_written firstWritten,
        map_kind_of_laterTerms later laterWritten]

theorem map_kind_of_laterTerms :
    ∀ (later : List (Sign × Multiplication)) {tokens : List Token},
      Separated Sign.ofKind? Multiplication.Written tokens later →
      tokens.map Token.kind = laterTermKinds later
  | [], _, .nil => rfl
  | (sign, term) :: rest, _, .cons found termWritten restWritten => by
      simp only [List.map_append, List.map_cons, laterTermKinds,
        Sign.ofKind?_eq_some_iff.mp found,
        term.map_kind_of_written termWritten,
        map_kind_of_laterTerms rest restWritten]

theorem Multiplication.map_kind_of_written :
    ∀ (tree : Multiplication) {tokens : List Token},
      tree.Written tokens → tokens.map Token.kind = tree.kinds
  | .mk _ first later, _, .mk firstWritten laterWritten => by
      rw [List.map_append, Multiplication.kinds,
        first.map_kind_of_written firstWritten,
        map_kind_of_laterFactors later laterWritten]

theorem map_kind_of_laterFactors :
    ∀ (later : List (Scaling × Unary)) {tokens : List Token},
      Separated Scaling.ofKind? Unary.Written tokens later →
      tokens.map Token.kind = laterFactorKinds later
  | [], _, .nil => rfl
  | (scaling, factor) :: rest, _, .cons found factorWritten restWritten => by
      simp only [List.map_append, List.map_cons, laterFactorKinds,
        Scaling.ofKind?_eq_some_iff.mp found,
        factor.map_kind_of_written factorWritten,
        map_kind_of_laterFactors rest restWritten]

theorem Unary.map_kind_of_written :
    ∀ (tree : Unary) {tokens : List Token},
      tree.Written tokens → tokens.map Token.kind = tree.kinds
  | .signed _ sign operand, _, .signed found operandWritten => by
      rw [List.map_cons, Unary.kinds, Sign.ofKind?_eq_some_iff.mp found,
        operand.map_kind_of_written operandWritten]
  | .primary operand, _, .primary operandWritten =>
      operand.map_kind_of_written operandWritten

theorem Primary.map_kind_of_written :
    ∀ (tree : Primary) {tokens : List Token},
      tree.Written tokens → tokens.map Token.kind = tree.kinds
  | .mk _ start chain, _, .mk startWritten chainWritten => by
      rw [List.map_append, Primary.kinds,
        start.map_kind_of_written startWritten,
        map_kind_of_links chain chainWritten]

theorem Atom.map_kind_of_written :
    ∀ (tree : Atom) {tokens : List Token},
      tree.Written tokens → tokens.map Token.kind = tree.kinds
  | .number _ _, _, .number found => by
      simp [Atom.kinds, found]
  | .name _ _, _, .name found => by
      simp [Atom.kinds, found]
  | .call _ _ _ items, _, .call found itemsWritten => by
      simp [Atom.kinds, found, map_kind_of_arguments items itemsWritten]
  | .group _ inner, _, .group opens innerWritten closes => by
      simp [Atom.kinds, opens, closes, inner.map_kind_of_written innerWritten]
  | .construction _ _ items, _, .construction found pathWritten itemsWritten => by
      simp [Atom.kinds, found, TypePath.map_kind_of_written pathWritten,
        map_kind_of_arguments items itemsWritten]

/-- The tokens that write a chain have its kinds. -/
theorem map_kind_of_links :
    ∀ (chain : List Link) {tokens : List Token},
      Joined Link.Written tokens chain → tokens.map Token.kind = linkKinds chain
  | [], _, .nil => rfl
  | first :: rest, _, .cons firstWritten restWritten => by
      rw [List.map_append, linkKinds, first.map_kind_of_written firstWritten,
        map_kind_of_links rest restWritten]

theorem Link.map_kind_of_written :
    ∀ (tree : Link) {tokens : List Token},
      tree.Written tokens → tokens.map Token.kind = tree.kinds
  | .field _ _ _, _, .field points named => by
      simp [Link.kinds, points, named]
  | .call _ _ _ items, _, .call points named itemsWritten => by
      simp [Link.kinds, points, named, map_kind_of_arguments items itemsWritten]

/-- The tokens that write arguments have their kinds, between parentheses. -/
theorem map_kind_of_arguments :
    ∀ (items : List Addition) {tokens : List Token} {close : Token},
      WritesArguments Addition.Written tokens (items, close) →
      tokens.map Token.kind =
        .openParen :: argumentKinds items ++ [.closeParen]
  | [], _, _, .none opens closes => by
      simp [argumentKinds, opens, closes]
  | first :: rest, _, _, written => by
      obtain ⟨_, _, _, _, rfl, restShape, opens, firstWritten, laterWritten,
        closes⟩ := written.split_cons
      simp [argumentKinds, opens, closes,
        first.map_kind_of_written firstWritten,
        map_kind_of_laterArguments rest restShape laterWritten]

theorem map_kind_of_laterArguments :
    ∀ (items : List Addition) {tokens : List Token}
      {later : List (Unit × Addition)},
      items = later.map Prod.snd →
      Separated comma? Addition.Written tokens later →
      tokens.map Token.kind = laterArgumentKinds items
  | [], _, [], _, .nil => rfl
  | first :: rest, _, (_, item) :: later, shape,
      .cons found itemWritten laterWritten => by
      obtain ⟨sameItem, sameRest⟩ := List.cons_eq_cons.mp shape
      subst sameItem
      simp only [List.map_append, List.map_cons, laterArgumentKinds,
        comma?_eq_some_iff.mp found,
        first.map_kind_of_written itemWritten,
        map_kind_of_laterArguments rest sameRest laterWritten]

end

/-! ## Trees written by tokens of the right kinds -/

/-- Tokens of the kinds of later segments write these. -/
theorem exists_laterSegments_of_map_kind
    {tokens : List Token}
    {segments : List String}
    (kinds : tokens.map Token.kind = laterSegmentKinds segments) :
    ∃ later : List (Unit × (String × Token)),
      Separated dot? WritesName tokens later ∧
        (later.map fun (_, segment, _) => segment) = segments := by
  induction segments generalizing tokens with
  | nil =>
      rw [laterSegmentKinds, List.map_eq_nil_iff] at kinds
      subst kinds
      exact ⟨[], .nil, rfl⟩
  | cons segment rest inductionHypothesis =>
      obtain ⟨dot, afterDot, rfl, points, restKinds⟩ :=
        List.map_eq_cons_iff.mp kinds
      obtain ⟨token, behind, rfl, named, laterKinds⟩ :=
        List.map_eq_cons_iff.mp restKinds
      obtain ⟨later, laterWritten, laterSegments⟩ :=
        inductionHypothesis laterKinds
      have segmentWritten : WritesName [token] (segment, token) := .mk named
      refine ⟨((), segment, token) :: later, ?_, by simp [laterSegments]⟩
      exact .cons (dot?_eq_some_iff.mpr points) segmentWritten laterWritten

/-- Tokens of the kinds of a path write it. -/
theorem TypePath.written_of_map_kind
    {tokens : List Token}
    {path : TypePath}
    (kinds : tokens.map Token.kind = path.kinds) :
    WritesPath tokens path := by
  obtain ⟨token, behind, rfl, named, laterKinds⟩ := List.map_eq_cons_iff.mp kinds
  obtain ⟨later, laterWritten, laterSegments⟩ :=
    exists_laterSegments_of_map_kind laterKinds
  have firstWritten : WritesName [token] (path.first, token) := .mk named
  have written := WritesPath.mk firstWritten laterWritten
  rw [laterSegments] at written
  exact written

mutual

/-- Tokens of the kinds of an addition write it, apart from its spans. -/
theorem Addition.exists_written_of_map_kind :
    ∀ (tree : Addition) {tokens : List Token},
      tokens.map Token.kind = tree.kinds →
      ∃ written : Addition,
        written.Written tokens ∧ written.withoutSpans = tree.withoutSpans
  | .mk _ first later, _, kinds => by
      obtain ⟨_, _, rfl, firstKinds, laterKinds⟩ :=
        List.map_eq_append_iff.mp kinds
      obtain ⟨first', firstWritten, firstSame⟩ :=
        first.exists_written_of_map_kind firstKinds
      obtain ⟨later', laterWritten, laterSame⟩ :=
        exists_laterTerms_of_map_kind later laterKinds
      exact ⟨_, .mk firstWritten laterWritten, by
        simp only [Addition.withoutSpans, firstSame, laterSame]⟩

theorem exists_laterTerms_of_map_kind :
    ∀ (later : List (Sign × Multiplication)) {tokens : List Token},
      tokens.map Token.kind = laterTermKinds later →
      ∃ written,
        Separated Sign.ofKind? Multiplication.Written tokens written ∧
          laterTermsWithoutSpans written = laterTermsWithoutSpans later
  | [], _, kinds => by
      obtain rfl := List.map_eq_nil_iff.mp kinds
      exact ⟨[], .nil, rfl⟩
  | (sign, term) :: rest, _, kinds => by
      obtain ⟨token, _, rfl, found, behindKinds⟩ := List.map_eq_cons_iff.mp kinds
      obtain ⟨_, _, rfl, termKinds, restKinds⟩ :=
        List.map_eq_append_iff.mp behindKinds
      obtain ⟨term', termWritten, termSame⟩ :=
        term.exists_written_of_map_kind termKinds
      obtain ⟨rest', restWritten, restSame⟩ :=
        exists_laterTerms_of_map_kind rest restKinds
      exact ⟨_,
        .cons (Sign.ofKind?_eq_some_iff.mpr found) termWritten restWritten, by
          simp only [laterTermsWithoutSpans, termSame, restSame]⟩

theorem Multiplication.exists_written_of_map_kind :
    ∀ (tree : Multiplication) {tokens : List Token},
      tokens.map Token.kind = tree.kinds →
      ∃ written : Multiplication,
        written.Written tokens ∧ written.withoutSpans = tree.withoutSpans
  | .mk _ first later, _, kinds => by
      obtain ⟨_, _, rfl, firstKinds, laterKinds⟩ :=
        List.map_eq_append_iff.mp kinds
      obtain ⟨first', firstWritten, firstSame⟩ :=
        first.exists_written_of_map_kind firstKinds
      obtain ⟨later', laterWritten, laterSame⟩ :=
        exists_laterFactors_of_map_kind later laterKinds
      exact ⟨_, .mk firstWritten laterWritten, by
        simp only [Multiplication.withoutSpans, firstSame, laterSame]⟩

theorem exists_laterFactors_of_map_kind :
    ∀ (later : List (Scaling × Unary)) {tokens : List Token},
      tokens.map Token.kind = laterFactorKinds later →
      ∃ written,
        Separated Scaling.ofKind? Unary.Written tokens written ∧
          laterFactorsWithoutSpans written = laterFactorsWithoutSpans later
  | [], _, kinds => by
      obtain rfl := List.map_eq_nil_iff.mp kinds
      exact ⟨[], .nil, rfl⟩
  | (scaling, factor) :: rest, _, kinds => by
      obtain ⟨token, _, rfl, found, behindKinds⟩ := List.map_eq_cons_iff.mp kinds
      obtain ⟨_, _, rfl, factorKinds, restKinds⟩ :=
        List.map_eq_append_iff.mp behindKinds
      obtain ⟨factor', factorWritten, factorSame⟩ :=
        factor.exists_written_of_map_kind factorKinds
      obtain ⟨rest', restWritten, restSame⟩ :=
        exists_laterFactors_of_map_kind rest restKinds
      exact ⟨_,
        .cons (Scaling.ofKind?_eq_some_iff.mpr found) factorWritten restWritten,
        by simp only [laterFactorsWithoutSpans, factorSame, restSame]⟩

theorem Unary.exists_written_of_map_kind :
    ∀ (tree : Unary) {tokens : List Token},
      tokens.map Token.kind = tree.kinds →
      ∃ written : Unary,
        written.Written tokens ∧ written.withoutSpans = tree.withoutSpans
  | .signed _ sign operand, _, kinds => by
      obtain ⟨token, _, rfl, found, operandKinds⟩ :=
        List.map_eq_cons_iff.mp kinds
      obtain ⟨operand', operandWritten, same⟩ :=
        operand.exists_written_of_map_kind operandKinds
      exact ⟨_, .signed (Sign.ofKind?_eq_some_iff.mpr found) operandWritten, by
        simp only [Unary.withoutSpans, same]⟩
  | .primary operand, _, kinds => by
      obtain ⟨operand', operandWritten, same⟩ :=
        operand.exists_written_of_map_kind kinds
      exact ⟨.primary operand', .primary operandWritten, by
        simp only [Unary.withoutSpans, same]⟩

theorem Primary.exists_written_of_map_kind :
    ∀ (tree : Primary) {tokens : List Token},
      tokens.map Token.kind = tree.kinds →
      ∃ written : Primary,
        written.Written tokens ∧ written.withoutSpans = tree.withoutSpans
  | .mk _ start chain, _, kinds => by
      obtain ⟨_, _, rfl, startKinds, chainKinds⟩ :=
        List.map_eq_append_iff.mp kinds
      obtain ⟨start', startWritten, startSame⟩ :=
        start.exists_written_of_map_kind startKinds
      obtain ⟨chain', chainWritten, chainSame⟩ :=
        exists_links_of_map_kind chain chainKinds
      exact ⟨_, .mk startWritten chainWritten, by
        simp only [Primary.withoutSpans, startSame, chainSame]⟩

theorem Atom.exists_written_of_map_kind :
    ∀ (tree : Atom) {tokens : List Token},
      tokens.map Token.kind = tree.kinds →
      ∃ written : Atom,
        written.Written tokens ∧ written.withoutSpans = tree.withoutSpans
  | .number _ _, _, kinds => by
      obtain ⟨token, rfl, found⟩ := List.map_eq_singleton_iff.mp kinds
      exact ⟨_, .number found, rfl⟩
  | .name _ _, _, kinds => by
      obtain ⟨token, rfl, found⟩ := List.map_eq_singleton_iff.mp kinds
      exact ⟨_, .name found, rfl⟩
  | .call _ _ _ items, _, kinds => by
      obtain ⟨token, _, rfl, found, itemKinds⟩ := List.map_eq_cons_iff.mp kinds
      obtain ⟨items', close, itemsWritten, same⟩ :=
        exists_arguments_of_map_kind items itemKinds
      exact ⟨_, .call found itemsWritten, by
        simp only [Atom.withoutSpans, same]⟩
  | .group _ inner, _, kinds => by
      obtain ⟨opening, _, rfl, opens, behindKinds⟩ :=
        List.map_eq_cons_iff.mp kinds
      obtain ⟨_, _, rfl, innerKinds, closeKinds⟩ :=
        List.map_eq_append_iff.mp behindKinds
      obtain ⟨close, rfl, closes⟩ := List.map_eq_singleton_iff.mp closeKinds
      obtain ⟨inner', innerWritten, same⟩ :=
        inner.exists_written_of_map_kind innerKinds
      exact ⟨_, .group opens innerWritten closes, by
        simp only [Atom.withoutSpans, same]⟩
  | .construction _ path items, _, kinds => by
      rw [Atom.kinds, List.append_assoc, List.cons_append] at kinds
      obtain ⟨keyword, _, rfl, found, behindKinds⟩ :=
        List.map_eq_cons_iff.mp kinds
      obtain ⟨_, _, rfl, pathKinds, itemKinds⟩ :=
        List.map_eq_append_iff.mp behindKinds
      obtain ⟨items', close, itemsWritten, same⟩ :=
        exists_arguments_of_map_kind items itemKinds
      exact ⟨_,
        .construction found (TypePath.written_of_map_kind pathKinds) itemsWritten,
        by simp only [Atom.withoutSpans, same]⟩

/-- Tokens of the kinds of a chain write it, apart from its spans. -/
theorem exists_links_of_map_kind :
    ∀ (chain : List Link) {tokens : List Token},
      tokens.map Token.kind = linkKinds chain →
      ∃ written,
        Joined Link.Written tokens written ∧
          linksWithoutSpans written = linksWithoutSpans chain
  | [], _, kinds => by
      obtain rfl := List.map_eq_nil_iff.mp kinds
      exact ⟨[], .nil, rfl⟩
  | first :: rest, _, kinds => by
      obtain ⟨_, _, rfl, firstKinds, restKinds⟩ := List.map_eq_append_iff.mp kinds
      obtain ⟨first', firstWritten, firstSame⟩ :=
        first.exists_written_of_map_kind firstKinds
      obtain ⟨rest', restWritten, restSame⟩ :=
        exists_links_of_map_kind rest restKinds
      exact ⟨_, .cons firstWritten restWritten, by
        simp only [linksWithoutSpans, firstSame, restSame]⟩

theorem Link.exists_written_of_map_kind :
    ∀ (tree : Link) {tokens : List Token},
      tokens.map Token.kind = tree.kinds →
      ∃ written : Link,
        written.Written tokens ∧ written.withoutSpans = tree.withoutSpans
  | .field _ _ _, _, kinds => by
      obtain ⟨dot, _, rfl, points, behindKinds⟩ := List.map_eq_cons_iff.mp kinds
      obtain ⟨token, rfl, named⟩ := List.map_eq_singleton_iff.mp behindKinds
      exact ⟨_, .field points named, rfl⟩
  | .call _ _ _ items, _, kinds => by
      obtain ⟨dot, _, rfl, points, behindKinds⟩ := List.map_eq_cons_iff.mp kinds
      obtain ⟨token, _, rfl, named, itemKinds⟩ :=
        List.map_eq_cons_iff.mp behindKinds
      obtain ⟨items', close, itemsWritten, same⟩ :=
        exists_arguments_of_map_kind items itemKinds
      exact ⟨_, .call points named itemsWritten, by
        simp only [Link.withoutSpans, same]⟩

/-- Tokens of the kinds of arguments write them, apart from their spans. -/
theorem exists_arguments_of_map_kind :
    ∀ (items : List Addition) {tokens : List Token},
      tokens.map Token.kind =
        .openParen :: argumentKinds items ++ [.closeParen] →
      ∃ written close,
        WritesArguments Addition.Written tokens (written, close) ∧
          argumentsWithoutSpans written = argumentsWithoutSpans items
  | [], _, kinds => by
      obtain ⟨opening, _, rfl, opens, behindKinds⟩ :=
        List.map_eq_cons_iff.mp kinds
      obtain ⟨close, rfl, closes⟩ := List.map_eq_singleton_iff.mp behindKinds
      exact ⟨[], close, .none opens closes, rfl⟩
  | first :: rest, _, kinds => by
      rw [argumentKinds, List.cons_append, List.append_assoc] at kinds
      obtain ⟨opening, _, rfl, opens, behindKinds⟩ :=
        List.map_eq_cons_iff.mp kinds
      obtain ⟨_, _, rfl, firstKinds, laterKinds⟩ :=
        List.map_eq_append_iff.mp behindKinds
      obtain ⟨_, _, rfl, restKinds, closeKinds⟩ :=
        List.map_eq_append_iff.mp laterKinds
      obtain ⟨close, rfl, closes⟩ := List.map_eq_singleton_iff.mp closeKinds
      obtain ⟨first', firstWritten, firstSame⟩ :=
        first.exists_written_of_map_kind firstKinds
      obtain ⟨later, laterWritten, laterSame⟩ :=
        exists_laterArguments_of_map_kind rest restKinds
      exact ⟨_, close, .some opens firstWritten laterWritten closes, by
        simp only [argumentsWithoutSpans, firstSame, laterSame]⟩

theorem exists_laterArguments_of_map_kind :
    ∀ (items : List Addition) {tokens : List Token},
      tokens.map Token.kind = laterArgumentKinds items →
      ∃ later : List (Unit × Addition),
        Separated comma? Addition.Written tokens later ∧
          argumentsWithoutSpans (later.map Prod.snd) =
            argumentsWithoutSpans items
  | [], _, kinds => by
      obtain rfl := List.map_eq_nil_iff.mp kinds
      exact ⟨[], .nil, rfl⟩
  | first :: rest, _, kinds => by
      obtain ⟨comma, _, rfl, found, behindKinds⟩ := List.map_eq_cons_iff.mp kinds
      obtain ⟨_, _, rfl, firstKinds, restKinds⟩ :=
        List.map_eq_append_iff.mp behindKinds
      obtain ⟨first', firstWritten, firstSame⟩ :=
        first.exists_written_of_map_kind firstKinds
      obtain ⟨later, laterWritten, laterSame⟩ :=
        exists_laterArguments_of_map_kind rest restKinds
      refine ⟨((), first') :: later, ?_, ?_⟩
      · exact .cons (comma?_eq_some_iff.mpr found) firstWritten laterWritten
      · simp only [List.map_cons, argumentsWithoutSpans, firstSame, laterSame]

end

end PlanarExpr
