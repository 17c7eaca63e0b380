import PlanarExpr.Proofs.ReaderCompleteness

namespace PlanarExpr

/-!
# Exactly the expressions are read

The reader accepts a list of tokens exactly if it writes an expression that is
nested no deeper than the limit, and it gives that expression. The grammar has
one tree for each list of tokens, so nothing is left to the reader's choice.
-/

/-- Reading succeeds with a tree exactly if the tokens write it within the limit. -/
theorem Expression.ofTokens_eq_ok_iff
    {tokens : List Token}
    {tree : Expression} :
    Expression.ofTokens tokens = .ok tree ↔
      tree.Written tokens ∧ tree.nesting ≤ Grammar.nestingLimit := by
  constructor
  · intro succeeds
    unfold Expression.ofTokens at succeeds
    split at succeeds
    · cases succeeds
    · obtain ⟨⟨root, rest⟩, read, finished⟩ := exists_of_bind_eq_ok succeeds
      simp only at finished
      split at finished
      · next atEnd =>
          cases finished
          obtain ⟨used, rfl, written, bounded⟩ := Grammar.sound_addition _ _ read
          rw [List.isEmpty_iff.mp atEnd, List.append_nil]
          exact ⟨written, bounded⟩
      · cases finished
  · rintro ⟨written, bounded⟩
    have covered : (tokens ++ []).length ≤ tokens.length :=
      Nat.le_of_eq (congrArg List.length (List.append_nil tokens))
    -- Nothing follows the tokens, so they are read to the end.
    have read :=
      Grammar.complete_addition tokens.length Grammar.nestingLimit
        ⟨written, bounded⟩ covered (stops_nil _)
    rw [List.append_nil] at read
    obtain ⟨token, behind, rfl, _⟩ := Addition.Written.exists_first written
    simp only [Expression.ofTokens, List.isEmpty_cons, read, ok_bind]
    rfl

/--
A stream is read as a tree exactly if its tokens write the tree within the
limit, spans included.
-/
theorem TokenStream.parse_eq_ok_iff
    {stream : TokenStream}
    {source : Option (List Char)}
    {tree : Expression} :
    stream.parse source = .ok tree ↔
      tree.Written stream.tokens ∧ tree.nesting ≤ Grammar.nestingLimit := by
  rw [← Expression.ofTokens_eq_ok_iff, TokenStream.parse]
  cases Expression.ofTokens stream.tokens <;> simp

/-- Tokens of the kinds of an expression write it, apart from its spans. -/
theorem Expression.exists_written_of_map_kind
    {tokens : List Token}
    {tree : Expression}
    (kinds : tokens.map Token.kind = tree.kinds) :
    ∃ written : Expression,
      written.Written tokens ∧
        written.withoutSpans = tree.withoutSpans ∧
        written.nesting = tree.nesting := by
  obtain ⟨root, rootWritten, same⟩ :=
    tree.root.exists_written_of_map_kind kinds
  refine ⟨{ root := root }, rootWritten, ?_, ?_⟩
  · simp only [Expression.withoutSpans, same]
  · calc
      root.nesting = root.withoutSpans.nesting := root.nesting_withoutSpans.symm
      _ = tree.root.withoutSpans.nesting := by rw [same]
      _ = tree.root.nesting := tree.root.nesting_withoutSpans

/-- The grammar is unambiguous: the same tokens write the same tree. -/
theorem Expression.withoutSpans_eq_of_map_kind
    {tokens : List Token}
    {first second : Expression}
    (firstKinds : tokens.map Token.kind = first.kinds)
    (secondKinds : tokens.map Token.kind = second.kinds) :
    first.withoutSpans = second.withoutSpans := by
  obtain ⟨first', firstWritten, firstSame, _⟩ :=
    Expression.exists_written_of_map_kind firstKinds
  obtain ⟨second', secondWritten, secondSame, _⟩ :=
    Expression.exists_written_of_map_kind secondKinds
  -- Both trees are what the reader finds once the room is enough for either.
  let room := max first'.nesting second'.nesting
  have covered : (tokens ++ []).length ≤ tokens.length :=
    Nat.le_of_eq (congrArg List.length (List.append_nil tokens))
  have firstRead :=
    Grammar.complete_addition tokens.length room
      ⟨firstWritten, Nat.le_max_left _ _⟩ covered (stops_nil _)
  have secondRead :=
    Grammar.complete_addition tokens.length room
      ⟨secondWritten, Nat.le_max_right _ _⟩ covered (stops_nil _)
  rw [firstRead] at secondRead
  injection secondRead with samePair
  injection samePair with sameRoot _
  rw [← firstSame, ← secondSame, Expression.withoutSpans, sameRoot,
    Expression.withoutSpans]

/-- Every failure of the reader is a problem of the grammar. -/
theorem ParseFailure.stage_problem (failure : ParseFailure) :
    failure.problem.stage = .parsing := by
  rcases failure with ⟨fault, rest⟩
  cases fault <;> cases rest <;> rfl

/-- A stream is read as a tree exactly if its tokens write the tree within the limit. -/
theorem TokenStream.exists_parse_eq_ok_iff
    {stream : TokenStream}
    {source : Option (List Char)}
    {tree : Expression} :
    (∃ found,
        stream.parse source = .ok found ∧
          found.withoutSpans = tree.withoutSpans) ↔
      stream.tokens.map Token.kind = tree.kinds ∧
        tree.nesting ≤ Grammar.nestingLimit := by
  constructor
  · rintro ⟨found, succeeds, same⟩
    have read : Expression.ofTokens stream.tokens = .ok found := by
      unfold TokenStream.parse at succeeds
      split at succeeds
      · next expression read =>
          cases succeeds
          exact read
      · cases succeeds
    obtain ⟨written, bounded⟩ := Expression.ofTokens_eq_ok_iff.mp read
    have sameRoot : found.root.withoutSpans = tree.root.withoutSpans :=
      congrArg Expression.root same
    constructor
    · calc
        stream.tokens.map Token.kind = found.root.kinds :=
          found.root.map_kind_of_written written
        _ = found.root.withoutSpans.kinds := found.root.kinds_withoutSpans.symm
        _ = tree.root.withoutSpans.kinds := by rw [sameRoot]
        _ = tree.kinds := tree.root.kinds_withoutSpans
    · calc
        tree.nesting = tree.root.withoutSpans.nesting :=
          tree.root.nesting_withoutSpans.symm
        _ = found.root.withoutSpans.nesting := by rw [sameRoot]
        _ = found.nesting := found.root.nesting_withoutSpans
        _ ≤ Grammar.nestingLimit := bounded
  · rintro ⟨kinds, bounded⟩
    obtain ⟨found, written, same, sameNesting⟩ :=
      Expression.exists_written_of_map_kind kinds
    have read : Expression.ofTokens stream.tokens = .ok found :=
      Expression.ofTokens_eq_ok_iff.mpr ⟨written, sameNesting ▸ bounded⟩
    exact ⟨found, by simp only [TokenStream.parse, read], same⟩

/--
Reading is exact. A stream gives a tree, up to spans, if and only if the
tree's tokens written one after the other are the tokens of the stream and at
most 64 additions and signs stand inside one another. Those tokens belong to
no other tree. Where there is no such tree the reading ends with a problem of
the grammar.
-/
theorem TokenStream.parse_exact
    (stream : TokenStream)
    (source : Option (List Char)) :
    (∀ tree : Expression,
        (∃ found,
            stream.parse source = .ok found ∧
              found.withoutSpans = tree.withoutSpans) ↔
          stream.tokens.map Token.kind = tree.kinds ∧ tree.nesting ≤ 64) ∧
      (∀ first second : Expression,
        stream.tokens.map Token.kind = first.kinds →
        stream.tokens.map Token.kind = second.kinds →
        first.withoutSpans = second.withoutSpans) ∧
      ((∃ problem span line,
          stream.parse source = .error (Problem.diagnostic problem span line) ∧
            problem.stage = .parsing) ↔
        ¬ ∃ tree : Expression,
            stream.tokens.map Token.kind = tree.kinds ∧ tree.nesting ≤ 64) := by
  refine ⟨fun tree => TokenStream.exists_parse_eq_ok_iff,
    fun first second => Expression.withoutSpans_eq_of_map_kind, ?_⟩
  constructor
  · rintro ⟨problem, span, line, fails, _⟩ ⟨tree, spelled⟩
    obtain ⟨found, succeeds, _⟩ :
        ∃ found : Expression,
          stream.parse source = .ok found ∧
            found.withoutSpans = tree.withoutSpans :=
      TokenStream.exists_parse_eq_ok_iff.mpr spelled
    rw [fails] at succeeds
    cases succeeds
  · intro noTree
    cases read : Expression.ofTokens stream.tokens with
    | error failure =>
        exact ⟨failure.problem, _, _, by simp only [TokenStream.parse, read]; rfl,
          failure.stage_problem⟩
    | ok found =>
        have succeeds : stream.parse source = .ok found := by
          simp only [TokenStream.parse, read]
        exact absurd
          ⟨found, TokenStream.exists_parse_eq_ok_iff.mp ⟨found, succeeds, rfl⟩⟩
          noTree

end PlanarExpr
