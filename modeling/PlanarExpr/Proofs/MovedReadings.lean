import PlanarExpr.Proofs.Lookahead
import PlanarExpr.Proofs.Respanning

namespace PlanarExpr

/-!
# Reading tokens that stand elsewhere

Tokens at other places are read as the same tree, moved with them, or they are
refused for the same problem. For a reader only the kinds of tokens count, so
both readings end at the same token; of one that runs out of room for nesting
it is only known that the other one does as well.
-/

open Source TokenReader

namespace Grammar

/-- Tokens of the same kinds go on alike. -/
theorem startsLike_of_map_kind
    {rest rest' : List Token}
    (sameKinds : rest'.map Token.kind = rest.map Token.kind) :
    StartsLike rest rest' := by
  have atEnd := (startsLike_nil []).append sameKinds
  rwa [List.append_nil, List.append_nil] at atEnd

/-- Two readings of tokens of the same kinds end behind equally many of them. -/
theorem ending_of_map_kind
    {tokens tokens' rest : List Token}
    {fault? : Option ParseFault}
    (sameKinds : tokens'.map Token.kind = tokens.map Token.kind)
    (ends : (addition tokens.length nestingLimit).ending tokens = (fault?, rest))
    (hasRoom : fault? ≠ some .tooDeep) :
    ∃ used used' rest',
      tokens = used ++ rest ∧ tokens' = used' ++ rest' ∧ used'.length = used.length ∧
        (addition tokens'.length nestingLimit).ending tokens' = (fault?, rest') := by
  have sameLength : tokens'.length = tokens.length := by
    simpa using congrArg List.length sameKinds
  have follows :=
    follows_addition (Nat.le_of_eq sameLength.symm) (Nat.le_refl nestingLimit)
  obtain ⟨used, rfl⟩ : rest <:+ tokens := by
    have leaves := follows.leaves tokens
    rwa [ends] at leaves
  rw [List.map_append] at sameKinds
  obtain ⟨used', rest', rfl, usedKinds, restKinds⟩ := List.map_eq_append_iff.mp sameKinds
  refine ⟨used, used', rest', rfl, rfl, ?_, ?_⟩
  · simpa using congrArg List.length usedKinds
  · exact follows.alike usedKinds (startsLike_of_map_kind restKinds) (Nat.le_refl _)
      (Nat.le_refl _) hasRoom ends

/-- Whether room runs out does not depend on where the tokens stand. -/
theorem ending_tooDeep_of_map_kind
    {tokens tokens' rest : List Token}
    (sameKinds : tokens'.map Token.kind = tokens.map Token.kind)
    (ends :
      (addition tokens.length nestingLimit).ending tokens = (some .tooDeep, rest)) :
    ∃ rest',
      (addition tokens'.length nestingLimit).ending tokens' = (some .tooDeep, rest') := by
  rcases ends' : (addition tokens'.length nestingLimit).ending tokens' with ⟨fault?, rest'⟩
  by_cases tooDeep : fault? = some .tooDeep
  · exact ⟨rest', by rw [tooDeep]⟩
  · -- Any other end of the second reading would be one of the first.
    obtain ⟨_, _, _, _, _, _, again⟩ := ending_of_map_kind sameKinds.symm ends' tooDeep
    rw [ends] at again
    exact absurd (Prod.mk.inj again).1.symm tooDeep

end Grammar

section Moved

variable (starts stops : Place → Place)

/--
A reading of moved tokens ends in the same way and, unless room is lacking, at
the same token.
-/
theorem Grammar.exists_ending_moved
    {tokens rest : List Token}
    {fault? : Option ParseFault}
    (ends : (addition tokens.length nestingLimit).ending tokens = (fault?, rest)) :
    let tokens' := tokens.map (Token.moved starts stops)
    ∃ rest',
      (addition tokens'.length nestingLimit).ending tokens' = (fault?, rest') ∧
        (fault? ≠ some .tooDeep → rest' = rest.map (Token.moved starts stops)) := by
  intro tokens'
  have sameKinds := Token.map_kind_moved starts stops tokens
  by_cases tooDeep : fault? = some .tooDeep
  · subst tooDeep
    obtain ⟨rest', ends'⟩ := ending_tooDeep_of_map_kind sameKinds ends
    exact ⟨rest', ends', fun hasRoom => absurd rfl hasRoom⟩
  · obtain ⟨used, used', rest', shape, shape', sameLength, ends'⟩ :=
      ending_of_map_kind sameKinds ends tooDeep
    refine ⟨rest', ends', fun _ => ?_⟩
    rw [shape, List.map_append] at shape'
    have atSameToken : (used.map (Token.moved starts stops)).length = used'.length := by
      rw [List.length_map, sameLength]
    exact (List.append_inj shape' atSameToken).2.symm

/-- Where tokens stand plays no part in the problem that they are refused for. -/
theorem ParseFailure.problem_moved
    (fault : ParseFault)
    (rest : List Token) :
    ParseFailure.problem { fault := fault, rest := rest.map (Token.moved starts stops) } =
      ParseFailure.problem { fault := fault, rest := rest } := by
  cases fault <;> cases rest <;> rfl

namespace Expression

variable {tokens : List Token}

/-- Moved tokens are read as the moved tree. -/
theorem ofTokens_moved_of_ok
    {whole : Expression}
    (read : ofTokens tokens = .ok whole) :
    ofTokens (tokens.map (Token.moved starts stops)) =
      .ok { root := whole.root.moved starts stops } := by
  obtain ⟨written, bounded⟩ := ofTokens_eq_ok_iff.mp read
  have movedWritten := whole.root.written_moved starts stops written
  have kinds :
      (tokens.map (Token.moved starts stops)).map Token.kind = whole.kinds :=
    (Token.map_kind_moved starts stops tokens).trans (whole.root.map_kind_of_written written)
  obtain ⟨found, foundWritten, -, sameNesting⟩ := exists_written_of_map_kind kinds
  have isMoved : found.root = whole.root.moved starts stops := foundWritten.unique movedWritten
  have movedBounded : (whole.root.moved starts stops).nesting ≤ Grammar.nestingLimit := by
    rw [← isMoved]
    exact Nat.le_trans (Nat.le_of_eq sameNesting) bounded
  exact ofTokens_eq_ok_iff.mpr ⟨movedWritten, movedBounded⟩

/-- Moved tokens are refused for the same problem. -/
theorem ofTokens_moved_of_error
    {failure : ParseFailure}
    (fails : ofTokens tokens = .error failure) :
    ∃ failure',
      ofTokens (tokens.map (Token.moved starts stops)) = .error failure' ∧
        failure'.problem = failure.problem := by
  cases ofTokens_eq_error_iff.mp fails with
  | empty nothing =>
      subst nothing
      exact ⟨_, rfl, rfl⟩
  | inside nonempty fails =>
      obtain ⟨rest', ends', atSameToken⟩ :=
        Grammar.exists_ending_moved starts stops (ending_of_error fails)
      have refused :=
        IsRefused.inside (mt List.map_eq_nil_iff.mp nonempty) (error_of_ending ends')
      refine ⟨_, ofTokens_eq_error_iff.mpr refused, ?_⟩
      obtain ⟨fault, rest⟩ := failure
      by_cases tooDeep : fault = .tooDeep
      · subst tooDeep
        rfl
      · rw [atSameToken (by simpa using tooDeep), ParseFailure.problem_moved]
  | @leftOver root rest nonempty read goesOn =>
      obtain ⟨rest', ends', atSameToken⟩ :=
        Grammar.exists_ending_moved starts stops (ending_of_ok read)
      obtain ⟨root', read'⟩ := exists_ok_of_ending ends'
      rw [atSameToken (by simp)] at read'
      have refused :=
        IsRefused.leftOver (mt List.map_eq_nil_iff.mp nonempty) read'
          (mt List.map_eq_nil_iff.mp goesOn)
      exact ⟨_, ofTokens_eq_error_iff.mpr refused,
        ParseFailure.problem_moved starts stops _ rest⟩

/-- What moved tokens are read as is what they are read as where they stood, moved. -/
theorem exists_of_ofTokens_moved
    {whole : Expression}
    (read : ofTokens (tokens.map (Token.moved starts stops)) = .ok whole) :
    ∃ found,
      ofTokens tokens = .ok found ∧ found.root.moved starts stops = whole.root := by
  cases original : ofTokens tokens with
  | error failure =>
      obtain ⟨failure', refused, -⟩ := ofTokens_moved_of_error starts stops original
      rw [refused] at read
      cases read
  | ok found =>
      rw [ofTokens_moved_of_ok starts stops original] at read
      cases read
      exact ⟨found, rfl, rfl⟩

end Expression

/-- A stream of moved tokens gives the moved tree, or a diagnostic that says the same. -/
theorem TokenStream.parse_moved
    {stream stream' : TokenStream}
    (moved : stream'.tokens = stream.tokens.map (Token.moved starts stops))
    (source source' : Option (List Char)) :
    (∃ whole : Expression,
        stream.parse source = .ok whole ∧
          stream'.parse source' = .ok { root := whole.root.moved starts stops }) ∨
      ∃ diagnostic diagnostic' : Diagnostic,
        stream.parse source = .error diagnostic ∧
          stream'.parse source' = .error diagnostic' ∧
          diagnostic'.code = diagnostic.code ∧ diagnostic'.message = diagnostic.message := by
  unfold TokenStream.parse
  rw [moved]
  cases read : Expression.ofTokens stream.tokens with
  | ok whole =>
      left
      rw [Expression.ofTokens_moved_of_ok starts stops read]
      exact ⟨whole, rfl, rfl⟩
  | error failure =>
      right
      obtain ⟨failure', read', sameProblem⟩ :=
        Expression.ofTokens_moved_of_error starts stops read
      rw [read']
      exact ⟨_, _, rfl, rfl, congrArg Problem.code sameProblem,
        congrArg Problem.message sameProblem⟩

end Moved

end PlanarExpr
