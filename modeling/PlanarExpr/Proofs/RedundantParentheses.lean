import PlanarExpr.Proofs.Completions
import PlanarExpr.Proofs.EnclosedTexts
import PlanarExpr.Proofs.ExactSpans
import PlanarExpr.Proofs.Exchange
import PlanarExpr.Proofs.Inlining

namespace PlanarExpr

/-!
# Redundant parentheses

Parentheses around any node of an expression that can stand on its own do not
change what the expression comes to. What is in them is read as the same tree
again, and a group comes to what is in it, be it a number, an object, a name
that waits, or no value at all.
-/

open Source

/-! ## What a node comes to on its own -/

namespace Surroundings

variable (surroundings : Surroundings)

/-- A product on its own comes to the same as a sum. -/
theorem addition_alone (term : Multiplication) :
    surroundings.addition term.alone = surroundings.multiplication term := by
  simp [Multiplication.alone, Surroundings.addition, Surroundings.laterTerms]

theorem multiplication_alone (factor : Unary) :
    surroundings.multiplication factor.alone = surroundings.unary factor := by
  simp [Unary.alone, Surroundings.multiplication, Surroundings.laterFactors]

/-- A primary comes to the same as an operand without a sign. -/
theorem unary_primary (operand : Primary) :
    surroundings.unary (.primary operand) = surroundings.primary operand := by
  rw [Surroundings.unary]

end Surroundings

/-- With no links behind it, an atom comes to the same as a primary, which notes a waiting name. -/
theorem SameOutcome.atom_alone
    {surroundings : Surroundings}
    (hostless : surroundings.host = none)
    (start : Atom) :
    SameOutcome (surroundings.atom start) (surroundings.primary start.alone) := by
  have noted :
      SameOutcome (surroundings.atom start >>= Pure.pure)
        (surroundings.atom start >>= Surroundings.noteWaiting) :=
    ((Correspondence.ofHostless hostless).atom start).bind SameOutcome.pure_noteWaiting
  simpa [Atom.alone, Surroundings.primary, Surroundings.links] using noted

/-- A group that stands alone as a unary expression comes to what is in it. -/
theorem SameOutcome.group_alone
    {surroundings : Surroundings}
    (hostless : surroundings.host = none)
    (span : Span)
    (tree : Addition) :
    SameOutcome (surroundings.addition tree)
      (surroundings.unary (.primary (Atom.group span tree).alone)) := by
  rw [surroundings.unary_primary]
  exact SameOutcome.atom_alone hostless (.group span tree)

/-- A node gives way to a group of the addition that is nothing but the node. -/
theorem Node.exists_group
    {surroundings : Surroundings}
    (hostless : surroundings.host = none)
    {node : Node}
    {tree : Addition}
    (isAlone : node.alone? = some tree)
    {used : List Token}
    (written : node.Written used)
    {opening close : Token}
    (opens : opening.kind = .openParen)
    (closes : close.kind = .closeParen) :
    ∃ node', node'.Written (opening :: used ++ [close]) ∧ node.GivesWayTo surroundings node' := by
  let group : Atom := .group (opening.span.through close.span) tree
  have groupWritten : group.Written (opening :: used ++ [close]) :=
    .group opens (Node.Written.alone isAlone written) closes
  have primaryWritten := Unary.Written.primary groupWritten.alone
  have same := SameOutcome.group_alone hostless (opening.span.through close.span) tree
  cases node with
  | expression whole => cases isAlone
  | link node => cases isAlone
  | addition node =>
      cases isAlone
      refine ⟨.addition (Unary.primary group.alone).alone.alone, primaryWritten.alone.alone,
        _, rfl, ?_⟩
      simp only [Phrases.additions, surroundings.addition_alone,
        surroundings.multiplication_alone]
      exact same
  | multiplication node =>
      cases isAlone
      refine ⟨.multiplication (Unary.primary group.alone).alone, primaryWritten.alone,
        _, rfl, ?_⟩
      rw [surroundings.addition_alone] at same
      simp only [Phrases.multiplications, surroundings.multiplication_alone]
      exact same
  | signed span sign operand =>
      cases isAlone
      rw [surroundings.addition_alone, surroundings.multiplication_alone] at same
      exact ⟨.primary group.alone, groupWritten.alone, .primary group.alone, rfl, same⟩
  | primary node =>
      cases isAlone
      rw [surroundings.addition_alone, surroundings.multiplication_alone] at same
      exact ⟨.primary group.alone, groupWritten.alone, .primary group.alone, rfl, same⟩
  | atom node =>
      cases isAlone
      refine ⟨.atom group, groupWritten, group, rfl, ?_⟩
      -- In the group the atom is a primary of its own, which notes a name that waits.
      have inside :
          surroundings.atom group = surroundings.primary node.alone := by
        rw [Surroundings.atom, surroundings.addition_alone, surroundings.multiplication_alone,
          surroundings.unary_primary]
      simp only [Phrases.atoms, inside]
      exact SameOutcome.atom_alone hostless node

/--
An expression comes to the same if a node of it that may stand on its own is
put in parentheses among the tokens.
-/
theorem Expression.exists_grouped
    {surroundings : Surroundings}
    (hostless : surroundings.host = none)
    {whole : Expression}
    {tokens : List Token}
    (written : whole.Written tokens)
    {node : Node}
    (member : node ∈ whole.nodes)
    (standsAlone : node.alone?.isSome = true) :
    ∃ before used behind,
      tokens = before ++ used ++ behind ∧ node.span.Covers used ∧
        ∃ grouped : Expression,
          grouped.kinds =
              before.map Token.kind ++
                (.openParen :: used.map Token.kind ++ [.closeParen]) ++
                behind.map Token.kind ∧
            SameOutcome (surroundings.expression whole) (surroundings.expression grouped) := by
  obtain ⟨tree, isAlone⟩ := Option.isSome_iff_exists.mp standsAlone
  obtain ⟨before, used, behind, shape, nodeWritten, exchanges⟩ :=
    Expression.exchange_of_mem_nodes hostless written node member
  -- Any two parentheses will do: what is written depends on the kinds of the tokens alone.
  have opens : (Token.ofKind .openParen).kind = .openParen := rfl
  have closes : (Token.ofKind .closeParen).kind = .closeParen := rfl
  obtain ⟨node', written', givesWay⟩ :=
    Node.exists_group hostless isAlone nodeWritten opens closes
  obtain ⟨_, groupedWritten, grouped, rfl, same⟩ := exchanges _ node' written' givesWay
  refine ⟨before, used, behind, shape, Node.Written.covers nodeWritten, grouped, ?_, same⟩
  rw [Expression.kinds, ← grouped.root.map_kind_of_written groupedWritten]
  simp [opens, closes]

/-! ## Texts -/

/-- A text with stray characters is rejected, whoever the host is. -/
theorem exists_rejected_of_unclean
    {text : List Char}
    (unclean : (Lexed.ofText text).diagnostics ≠ [])
    (host : Option Host) :
    ∃ diagnostics message,
      (evaluateText text host).outcome = .ok (.rejected diagnostics message) := by
  rcases evaluateText_cases text with ⟨diagnostics, message, rejects⟩ | ⟨_, clean, -⟩
  · exact ⟨diagnostics, message, (rejects host).2⟩
  · exact absurd clean unclean

/--
Redundant parentheses do not change the value. Let a text be read as an
expression, and let it also be read with parentheses around a node that may
stand on its own. Without a host, both texts come to the same: with the same
success, and to the same value or to a waiting name that is the same.
-/
theorem evaluateText_enclose
    {text : List Char}
    {whole : Expression}
    (parses : (Lexed.ofText text).stream.parse (some text) = .ok whole)
    {node : Node}
    (member : node ∈ whole.nodes)
    (standsAlone : node.alone?.isSome = true)
    {enclosed : Expression}
    (parsesEnclosed :
      (Lexed.ofText (Text.enclose text node.span)).stream.parse
        (some (Text.enclose text node.span)) = .ok enclosed) :
    ∃ result result' : Result,
      (evaluateText text none).outcome = .ok result ∧
        (evaluateText (Text.enclose text node.span) none).outcome = .ok result' ∧
          result.success = result'.success ∧
            result.value.LikeAnywhere result'.value := by
  by_cases clean : (Lexed.ofText text).diagnostics = []
  · generalize isUnhosted :
      ({ host := none, source := text } : Surroundings) = unhosted
    have hostless : unhosted.host = none := by
      rw [← isUnhosted]
    have written := (TokenStream.parse_eq_ok_iff.mp parses).1
    obtain ⟨before, used, behind, shape, covers, grouped, groupedKinds, sameOutcome⟩ :=
      Expression.exists_grouped hostless written member standsAlone
    obtain ⟨enclosedClean, kinds⟩ := Lexed.enclose_tokens clean shape covers
    have enclosedWritten := (TokenStream.parse_eq_ok_iff.mp parsesEnclosed).1
    have sameTree : grouped.withoutSpans = enclosed.withoutSpans :=
      Expression.withoutSpans_eq_of_map_kind (kinds.trans groupedKinds.symm)
        (enclosed.root.map_kind_of_written enclosedWritten)
    rw [evaluateText_of_read clean parses, evaluateText_of_read enclosedClean parsesEnclosed,
      isUnhosted]
    generalize isUnhosted' :
      ({ host := none, source := Text.enclose text node.span } : Surroundings) = unhosted'
    have hostless' : unhosted'.host = none := by
      rw [← isUnhosted']
    have same :
        (unhosted.addition whole.root .empty).1 = (unhosted.addition grouped.root .empty).1 :=
      sameOutcome .empty .empty
    refine Expression.exists_results_of_like hostless' ?_
    rw [same]
    exact
      Likeness.outcomes_like_of_withoutSpans_eq hostless hostless'
        (congrArg Expression.root sameTree) .empty .empty
  · -- Stray characters stay where they are, so both texts are rejected.
    have enclosedUnclean :
        (Lexed.ofText (Text.enclose text node.span)).diagnostics ≠ [] :=
      fun enclosedClean => clean (Lexed.clean_of_enclose_clean enclosedClean)
    obtain ⟨_, _, rejected⟩ := exists_rejected_of_unclean clean none
    obtain ⟨_, _, rejected'⟩ := exists_rejected_of_unclean enclosedUnclean none
    exact ⟨_, _, rejected, rejected', rfl, .settled rfl⟩

/-- The name in parentheses is only part of the name of a constant. -/
theorem evaluateText_enclose_qualifier :
    let text := "2.5 - Rotation2d.kZero.getDegrees()".toList
    let enclosedText := "2.5 - (Rotation2d).kZero.getDegrees()".toList
    ∃ result result' : Result,
      (evaluateText text none).outcome = .ok result ∧
        (evaluateText enclosedText none).outcome = .ok result' ∧
          result.success = result'.success ∧
            result.value.LikeAnywhere result'.value := by
  intro text enclosedText
  have found :
      ((Lexed.ofText text).stream.parse (some text)).toOption.bind
          (fun whole =>
            (whole.nodes.find? fun node => node.label = "Identifier").map fun node =>
              (Text.enclose text node.span, node.alone?.isSome)) =
        some (enclosedText, true) := by
    decide +kernel
  have parses :
      ((Lexed.ofText enclosedText).stream.parse
        (some enclosedText)).toOption.isSome = true := by
    decide +kernel
  -- From here on, the texts are known by these facts alone.
  clear_value text enclosedText
  obtain ⟨whole, read, shape⟩ := Option.bind_eq_some_iff.mp found
  obtain ⟨node, isName, pair⟩ := Option.map_eq_some_iff.mp shape
  obtain ⟨rfl, standsAlone⟩ := Prod.mk.inj pair
  obtain ⟨enclosed, readEnclosed⟩ := Option.isSome_iff_exists.mp parses
  have member : node ∈ whole.nodes := List.mem_of_find?_eq_some isName
  have agree :=
    evaluateText_enclose (eq_ok_of_toOption_eq_some read) member standsAlone
      (eq_ok_of_toOption_eq_some readEnclosed)
  exact agree

end PlanarExpr
