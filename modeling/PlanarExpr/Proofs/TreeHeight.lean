import PlanarExpr.Expression.Dump
import PlanarExpr.Proofs.Completions
import PlanarExpr.Proofs.ExactSpans
import PlanarExpr.Proofs.NestingCounter
import PlanarExpr.Proofs.NodeTokens
import PlanarExpr.Proofs.Reading

namespace PlanarExpr

/-!
# The height of an expression

Between one level of nesting and the next a path down a tree passes at most
four nodes: an addition, a multiplication, a primary or a sign, and an atom or
a link. So the limit on nesting bounds the height of every tree that is read,
and with it how deep a walk over the tree or its dump can get.
-/

namespace Node

/-- How many nodes a path from a node downwards has at most. -/
def height : Node → Nat
  | .expression whole => 4 * whole.nesting + 1
  | .addition node => 4 * node.nesting
  | .multiplication node => 4 * node.nesting + 3
  | .signed span sign operand => 4 * (Unary.signed span sign operand).nesting + 2
  | .primary node => 4 * node.nesting + 2
  | .atom node => 4 * node.nesting + 1
  | .link node => 4 * node.nesting + 1

/-- A path from a node downwards, each node directly below the one before it. -/
inductive Descends : Node → List Node → Prop where
  | last (node : Node) :
      Descends node [node]
  | step {node child : Node} {path : List Node} :
      child ∈ node.children →
      Descends child path →
      Descends node (node :: path)

end Node

/-- A unary expression is as high with a sign as without one, at the same nesting. -/
theorem Unary.height_node (tree : Unary) : tree.node.height = 4 * tree.nesting + 2 := by
  cases tree <;> rfl

/-- Arguments are less high than the atom or link that they belong to. -/
theorem height_lt_of_mem_arguments
    {items : List Addition}
    {bound : Nat}
    (bounded : argumentNesting items ≤ bound) :
    ∀ child ∈ items.map Node.addition, child.height < 4 * bound + 1 := by
  refine List.forall_mem_map.mpr fun item member => ?_
  have itemBounded := argumentNesting_le_iff.mp bounded item member
  simp only [Node.height]
  omega

/-- A path has at least the node that it starts from. -/
theorem Node.height_pos (node : Node) : 0 < node.height := by
  cases node with
  | addition node =>
      obtain ⟨span, first, later⟩ := node
      simp only [height, Addition.nesting]
      omega
  | _ =>
      simp only [height]
      omega

/-- The nodes below a node are less high. -/
theorem Node.height_children_lt (node : Node) :
    ∀ child ∈ node.children, child.height < node.height := by
  cases node with
  | expression whole => exact List.forall_mem_singleton.mpr (Nat.lt_succ_self _)
  | addition node =>
      obtain ⟨span, first, later⟩ := node
      refine List.forall_mem_cons.mpr ⟨?_, List.forall_mem_map.mpr fun entry member => ?_⟩
      · simp only [height, Addition.nesting]
        omega
      · have bounded :=
          laterTermNesting_le_iff.mp (Nat.le_max_right first.nesting _) entry member
        simp only [height, Addition.nesting]
        omega
  | multiplication node =>
      obtain ⟨span, first, later⟩ := node
      refine List.forall_mem_cons.mpr ⟨?_, List.forall_mem_map.mpr fun entry member => ?_⟩
      · rw [first.height_node]
        simp only [height, Multiplication.nesting]
        omega
      · have bounded :=
          laterFactorNesting_le_iff.mp (Nat.le_max_right first.nesting _) entry member
        rw [entry.2.height_node]
        simp only [height, Multiplication.nesting]
        omega
  | signed span sign operand =>
      refine List.forall_mem_singleton.mpr ?_
      rw [operand.height_node]
      simp only [height, Unary.nesting]
      omega
  | primary node =>
      obtain ⟨span, start, chain⟩ := node
      refine List.forall_mem_cons.mpr ⟨?_, List.forall_mem_map.mpr fun link member => ?_⟩
      · simp only [height, Primary.nesting]
        omega
      · have bounded := linkNesting_le_iff.mp (Nat.le_max_right start.nesting _) link member
        simp only [height, Primary.nesting]
        omega
  | atom node =>
      cases node with
      | number span value => exact List.forall_mem_nil _
      | name span name => exact List.forall_mem_nil _
      | call span name nameSpan items => exact height_lt_of_mem_arguments (Nat.le_refl _)
      | group span inner => exact List.forall_mem_singleton.mpr (Nat.lt_succ_self _)
      | construction span path items => exact height_lt_of_mem_arguments (Nat.le_refl _)
  | link node =>
      cases node with
      | field span member memberSpan => exact List.forall_mem_nil _
      | call span member memberSpan items => exact height_lt_of_mem_arguments (Nat.le_refl _)

/-- No path from a node downwards is longer than the node is high. -/
theorem Node.Descends.length_le_height
    {top : Node}
    {path : List Node}
    (descends : top.Descends path) :
    path.length ≤ top.height := by
  induction descends with
  | last node => exact node.height_pos
  | @step node child path member _ inductionHypothesis =>
      have lower := node.height_children_lt child member
      rw [List.length_cons]
      omega

/-- An atom on its own as an addition, which three nodes lie above. -/
def Atom.asAddition (start : Atom) : Addition :=
  (Unary.primary start.alone).alone.alone

/-- A path from an atom is three nodes longer from its addition. -/
theorem Atom.descends_asAddition
    {start : Atom}
    {path : List Node}
    (descends : (Node.atom start).Descends path) :
    ∃ longer,
      (Node.addition start.asAddition).Descends longer ∧
        longer.length = path.length + 3 := by
  have ofPrimary : (Node.primary start.alone).Descends (_ :: path) :=
    .step (List.mem_cons_self ..) descends
  have ofMultiplication :
      (Node.multiplication (Unary.primary start.alone).alone).Descends (_ :: _ :: path) :=
    .step (List.mem_cons_self ..) ofPrimary
  exact ⟨_, .step (List.mem_cons_self ..) ofMultiplication, rfl⟩

/-- Groups within one another have a path with four nodes for each of them. -/
theorem Addition.exists_written_groups (groups : Nat) :
    ∃ tokens path, ∃ tree : Addition,
      tree.Written tokens ∧
        tree.nesting = groups + 1 ∧
        (Node.addition tree).Descends path ∧
        path.length = 4 * groups + 4 := by
  induction groups with
  | zero =>
      have start : Atom.Written [.ofKind (.number 0)] (.number .blank 0) := .number rfl
      have written := (Unary.Written.primary start.alone).alone.alone
      obtain ⟨path, descends, length⟩ :=
        Atom.descends_asAddition (.last (.atom (.number .blank 0)))
      exact ⟨_, path, _, written, rfl, descends, length⟩
  | succ groups inductionHypothesis =>
      obtain ⟨tokens, innerPath, inner, innerWritten, innerNesting, innerDescends,
        innerLength⟩ := inductionHypothesis
      have opens : (Token.ofKind .openParen).kind = .openParen := rfl
      have closes : (Token.ofKind .closeParen).kind = .closeParen := rfl
      have start := Atom.Written.group opens innerWritten closes
      have written := (Unary.Written.primary start.alone).alone.alone
      let group := Atom.group (Source.Span.blank.through .blank) inner
      have ofGroup : (Node.atom group).Descends (_ :: innerPath) :=
        .step (List.mem_singleton_self _) innerDescends
      obtain ⟨path, descends, length⟩ := Atom.descends_asAddition ofGroup
      refine ⟨_, path, _, written, ?_, descends, ?_⟩
      · have isAlone : (Node.atom group).alone? = some group.asAddition := rfl
        exact (Node.nesting_alone isAlone).trans (congrArg (· + 1) innerNesting)
      · rw [length, List.length_cons, innerLength]
        omega

/-- With 63 groups within one another an expression is as high as one can be. -/
theorem Expression.exists_highest :
    ∃ tokens whole path,
      Expression.ofTokens tokens = .ok whole ∧
        (Node.expression whole).Descends path ∧
        path.length = 257 := by
  obtain ⟨tokens, path, root, written, nesting, descends, length⟩ :=
    Addition.exists_written_groups 63
  refine ⟨tokens, { root := root }, _, ?_, .step (List.mem_singleton_self _) descends, ?_⟩
  · exact Expression.ofTokens_eq_ok_iff.mpr ⟨written, Nat.le_of_eq nesting⟩
  · rw [List.length_cons, length]

/-! ## The dump of an expression -/

namespace Dump

/-- No line stands deeper than the given level. -/
def Within (bound : Nat) (lines : List Line) : Prop :=
  ∀ line ∈ lines, line.level ≤ bound

section

variable {bound level : Nat}

/-- A line stands no deeper, and neither do the lines behind it. -/
theorem within_cons
    {line : Line}
    {lines : List Line} :
    Within bound (line :: lines) ↔ line.level ≤ bound ∧ Within bound lines :=
  List.forall_mem_cons

/-- Two runs of lines stand no deeper if neither of them does. -/
theorem within_append
    {first second : List Line} :
    Within bound (first ++ second) ↔ Within bound first ∧ Within bound second :=
  List.forall_mem_append

theorem within_nil : Within bound [] :=
  List.forall_mem_nil _

/-- The lines of a child stand one level below its field. -/
theorem within_childField
    {child : List Line}
    (name : String)
    (fits : level + 1 ≤ bound)
    (childWithin : Within bound child) :
    Within bound (childField level name child) :=
  within_cons.mpr ⟨fits, childWithin⟩

theorem within_scalarField
    (name value : String)
    (fits : level + 1 ≤ bound) :
    Within bound (scalarField level name value) :=
  within_cons.mpr ⟨fits, within_nil⟩

/-- The items of a list stand two levels below their node. -/
theorem within_listField
    {items : List Line}
    (name : String)
    (fits : level + 1 ≤ bound)
    (itemsWithin : Within bound items) :
    Within bound (listField level name items) :=
  within_cons.mpr ⟨fits, within_append.mpr ⟨itemsWithin, within_cons.mpr ⟨fits, within_nil⟩⟩⟩

theorem within_plainItems
    (items : List String)
    (fits : level + 2 ≤ bound) :
    Within bound (plainItems level items) :=
  List.forall_mem_map.mpr fun _ _ => fits

/-- The terms of an operator chain stand two levels below it. -/
theorem within_chainNode
    {terms : List Line}
    (label : String)
    (operators : List String)
    (fits : level + 2 ≤ bound)
    (termsWithin : Within bound terms) :
    Within bound (chainNode level label terms operators) := by
  refine within_cons.mpr ⟨by simp only; omega, within_append.mpr ⟨?_, ?_⟩⟩
  · exact within_listField _ (by omega) termsWithin
  · exact within_listField _ (by omega) (within_plainItems operators fits)

/-- The arguments of a call stand two levels below it. -/
theorem within_callFields
    {items? : Option (List Line)}
    (label name : String)
    (fits : level + 1 ≤ bound)
    (itemsWithin : ∀ items ∈ items?, Within bound items) :
    Within bound (callFields level label name items?) := by
  refine within_append.mpr ⟨within_scalarField _ _ fits, ?_⟩
  cases items? with
  | none => exact within_scalarField _ _ fits
  | some items => exact within_listField _ fits (itemsWithin items rfl)

end

mutual

/-- An addition takes up at most eight levels of a dump for each level of nesting. -/
theorem within_addition
    {bound level : Nat} :
    ∀ tree : Addition,
      level + 8 * tree.nesting ≤ bound → Within bound (addition level tree)
  | .mk _ first later, fits => by
      rw [Addition.nesting] at fits
      rw [addition]
      refine within_chainNode _ _ (by omega) (within_append.mpr ⟨?_, ?_⟩)
      · exact within_multiplication first (by omega)
      · exact within_laterTerms later (by omega)

theorem within_laterTerms
    {bound level : Nat} :
    ∀ later : List (Sign × Multiplication),
      level + 8 * laterTermNesting later + 6 ≤ bound →
      Within bound (laterTerms level later)
  | [], _ => within_nil
  | (_, term) :: rest, fits => by
      rw [laterTermNesting] at fits
      rw [laterTerms]
      refine within_append.mpr ⟨?_, ?_⟩
      · exact within_multiplication term (by omega)
      · exact within_laterTerms rest (by omega)

/-- A multiplication takes up at most six levels besides eight for each level of nesting in it. -/
theorem within_multiplication
    {bound level : Nat} :
    ∀ tree : Multiplication,
      level + 8 * tree.nesting + 6 ≤ bound → Within bound (multiplication level tree)
  | .mk _ first later, fits => by
      rw [Multiplication.nesting] at fits
      rw [multiplication]
      refine within_chainNode _ _ (by omega) (within_append.mpr ⟨?_, ?_⟩)
      · exact within_unary first (by omega)
      · exact within_laterFactors later (by omega)

theorem within_laterFactors
    {bound level : Nat} :
    ∀ later : List (Scaling × Unary),
      level + 8 * laterFactorNesting later + 4 ≤ bound →
      Within bound (laterFactors level later)
  | [], _ => within_nil
  | (_, factor) :: rest, fits => by
      rw [laterFactorNesting] at fits
      rw [laterFactors]
      refine within_append.mpr ⟨?_, ?_⟩
      · exact within_unary factor (by omega)
      · exact within_laterFactors rest (by omega)

/-- A unary expression takes up at most four levels besides eight for each level of nesting. -/
theorem within_unary
    {bound level : Nat} :
    ∀ tree : Unary,
      level + 8 * tree.nesting + 4 ≤ bound → Within bound (unary level tree)
  | .signed _ _ operand, fits => by
      rw [Unary.nesting] at fits
      rw [unary]
      refine within_cons.mpr ⟨by simp only; omega, within_append.mpr ⟨?_, ?_⟩⟩
      · exact within_scalarField _ _ (by omega)
      · exact within_childField _ (by omega) (within_unary operand (by omega))
  | .primary operand, fits => by
      rw [unary]
      exact within_primary operand fits

/-- A primary takes up at most four levels besides eight for each level of nesting in it. -/
theorem within_primary
    {bound level : Nat} :
    ∀ tree : Primary,
      level + 8 * tree.nesting + 4 ≤ bound → Within bound (primary level tree)
  | .mk _ start chain, fits => by
      rw [Primary.nesting] at fits
      rw [primary]
      refine within_cons.mpr ⟨by simp only; omega, within_append.mpr ⟨?_, ?_⟩⟩
      · exact within_childField _ (by omega) (within_atom start (by omega))
      · exact within_listField _ (by omega) (within_links chain (by omega))

/-- An atom takes up at most two levels besides eight for each level of nesting in it. -/
theorem within_atom
    {bound level : Nat} :
    ∀ tree : Atom,
      level + 8 * tree.nesting + 2 ≤ bound → Within bound (atom level tree)
  | .number _ _, fits => by
      rw [atom]
      exact within_cons.mpr ⟨by simp only; omega, within_scalarField _ _ (by omega)⟩
  | .name _ _, fits => by
      rw [atom]
      refine within_cons.mpr ⟨by simp only; omega, ?_⟩
      exact within_callFields _ _ (by omega) nofun
  | .call _ _ _ items, fits => by
      rw [Atom.nesting] at fits
      rw [atom]
      refine within_cons.mpr ⟨by simp only; omega, within_callFields _ _ (by omega) ?_⟩
      rintro _ ⟨⟩
      exact within_arguments items (by omega)
  | .group _ inner, fits => by
      rw [Atom.nesting] at fits
      rw [atom]
      refine within_cons.mpr ⟨by simp only; omega, within_childField _ (by omega) ?_⟩
      exact within_addition inner (by omega)
  | .construction _ path items, fits => by
      rw [Atom.nesting] at fits
      rw [atom]
      refine within_cons.mpr ⟨by simp only; omega, within_append.mpr ⟨?_, ?_⟩⟩
      · exact within_listField _ (by omega) (within_plainItems _ (by omega))
      · exact within_listField _ (by omega) (within_arguments items (by omega))

theorem within_links
    {bound level : Nat} :
    ∀ chain : List Link,
      level + 8 * linkNesting chain + 2 ≤ bound → Within bound (links level chain)
  | [], _ => within_nil
  | first :: rest, fits => by
      rw [linkNesting] at fits
      rw [links]
      refine within_append.mpr ⟨?_, ?_⟩
      · exact within_link first (by omega)
      · exact within_links rest (by omega)

/-- A link takes up at most two levels besides eight for each level of nesting in it. -/
theorem within_link
    {bound level : Nat} :
    ∀ tree : Link,
      level + 8 * tree.nesting + 2 ≤ bound → Within bound (link level tree)
  | .field _ _ _, fits => by
      rw [link]
      refine within_cons.mpr ⟨by simp only; omega, ?_⟩
      exact within_callFields _ _ (by omega) nofun
  | .call _ _ _ items, fits => by
      rw [Link.nesting] at fits
      rw [link]
      refine within_cons.mpr ⟨by simp only; omega, within_callFields _ _ (by omega) ?_⟩
      rintro _ ⟨⟩
      exact within_arguments items (by omega)

/-- Arguments take up at most eight levels for each level of nesting. -/
theorem within_arguments
    {bound level : Nat} :
    ∀ items : List Addition,
      level + 8 * argumentNesting items ≤ bound → Within bound (arguments level items)
  | [], _ => within_nil
  | first :: rest, fits => by
      rw [argumentNesting] at fits
      rw [arguments]
      refine within_append.mpr ⟨?_, ?_⟩
      · exact within_addition first (by omega)
      · exact within_arguments rest (by omega)

end

/-- The lines of a dump stand on at most two levels for each node of a path. -/
theorem within_expression
    {bound : Nat}
    (whole : Expression)
    (fits : 8 * whole.nesting + 2 ≤ bound) :
    Within bound (expression whole) := by
  refine within_cons.mpr ⟨Nat.zero_le _, within_childField _ (by omega) ?_⟩
  exact within_addition whole.root (by rw [Expression.nesting] at fits; omega)

end Dump

/--
Whatever the tokens are, the counter of nesting never gets beyond 64, and every
rule that returns a value leaves it as it was; it is this counter and never the
stack that stops the reading. What is read has no path of more than 257 nodes,
and its dump no line deeper than two levels for each of them.
-/
theorem CountedReader.run_bounded
    (spare : Nat)
    (tokens : List Token) :
    let reading := CountedReader.run (64 + spare) tokens
    reading.1 = .ofExcept (Expression.ofTokens tokens) ∧
      (∀ depth ∈ reading.2.depths, depth ≤ 64) ∧
      (∀ call ∈ reading.2.returned, call.exit = call.entry) ∧
      ∀ whole,
        Expression.ofTokens tokens = .ok whole →
        (∀ path, (Node.expression whole).Descends path → path.length ≤ 257) ∧
          ∀ line ∈ Dump.expression whole, line.level ≤ 2 * 257 := by
  obtain ⟨agrees, kept⟩ := CountedReader.run_eq spare tokens
  refine ⟨agrees, kept.depths, kept.returned, ?_⟩
  intro whole read
  have bounded : whole.nesting ≤ 64 := (Expression.ofTokens_eq_ok_iff.mp read).2
  constructor
  · intro path descends
    have short := descends.length_le_height
    simp only [Node.height] at short
    omega
  · exact Dump.within_expression whole (by omega)

end PlanarExpr
