import PlanarExpr.Proofs.CutTexts
import PlanarExpr.Proofs.MovedReadings

namespace PlanarExpr

/-!
# Spans are exact

In the tree of a text, the span of every node is that of its tokens. The nodes
directly below it have their spans within its own, one behind the other, and
the span of a name cuts the name out of the text. The text that the span of a
node cuts out reads as that node alone, links and whole expressions aside.
-/

open Source

/-! ## A node on its own -/

/-- An atom as a primary without links. -/
def Atom.alone (atom : Atom) : Primary :=
  .mk atom.span atom []

/-- A unary expression as a product of one factor. -/
def Unary.alone (factor : Unary) : Multiplication :=
  .mk factor.span factor []

/-- A product as a sum of one term. -/
def Multiplication.alone (term : Multiplication) : Addition :=
  .mk term.span term []

namespace Node

/-- The addition that is nothing but a node, if the node may stand on its own. -/
def alone? : Node → Option Addition
  | .expression _ => none
  | .addition node => some node
  | .multiplication node => some node.alone
  | .signed span sign operand => some (Unary.signed span sign operand).alone.alone
  | .primary node => some (Unary.primary node).alone.alone
  | .atom node => some (Unary.primary node.alone).alone.alone
  | .link _ => none

end Node

/-- The tokens of an atom write it as a primary. -/
theorem Atom.Written.alone
    {tokens : List Token}
    {atom : Atom}
    (written : atom.Written tokens) :
    atom.alone.Written tokens := by
  have alone := Primary.Written.mk written .nil
  rwa [List.append_nil] at alone

theorem Unary.Written.alone
    {tokens : List Token}
    {factor : Unary}
    (written : factor.Written tokens) :
    factor.alone.Written tokens := by
  have alone := Multiplication.Written.mk written .nil
  rwa [List.append_nil] at alone

theorem Multiplication.Written.alone
    {tokens : List Token}
    {term : Multiplication}
    (written : term.Written tokens) :
    term.alone.Written tokens := by
  have alone := Addition.Written.mk written .nil
  rwa [List.append_nil] at alone

namespace Node

variable
  {node : Node}
  {tree : Addition}
  (isAlone : node.alone? = some tree)

include isAlone

/-- The tokens of a node also write it as an addition of its own. -/
theorem Written.alone
    {tokens : List Token}
    (written : node.Written tokens) :
    tree.Written tokens := by
  cases node with
  | expression whole => cases isAlone
  | addition node =>
      cases isAlone
      exact written
  | multiplication node =>
      cases isAlone
      exact Multiplication.Written.alone written
  | signed span sign operand =>
      cases isAlone
      exact (Unary.Written.alone written).alone
  | primary node =>
      cases isAlone
      exact (Unary.Written.primary written).alone.alone
  | atom node =>
      cases isAlone
      exact (Unary.Written.primary (Atom.Written.alone written)).alone.alone
  | link node => cases isAlone

/-- A node on its own is nested as deep as it is. -/
theorem nesting_alone : tree.nesting = node.nesting := by
  cases node with
  | expression whole => cases isAlone
  | link node => cases isAlone
  | _ =>
      cases isAlone
      simp [nesting, Multiplication.alone, Unary.alone, Atom.alone, Addition.nesting,
        laterTermNesting, Multiplication.nesting, laterFactorNesting, Unary.nesting,
        Primary.nesting, linkNesting]

end Node

/-! ## The text of a node -/

namespace ReadsAs

variable
  {text : List Char}
  {whole : Expression}
  (reads : ReadsAs text whole)
  {node : Node}
  (member : node ∈ whole.nodes)

include reads member

/-- The tokens of a node are a run of the tokens of the text. -/
theorem exists_run :
    ∃ before used behind,
      (Lexed.ofText text).stream.tokens = before ++ used ++ behind ∧ node.Written used :=
  whole.standsIn_of_mem_nodes reads.written node member

/-- The text that the span of a node cuts out reads as an addition of the node alone. -/
theorem exists_readsAs_slice
    {tree : Addition}
    (isAlone : node.alone? = some tree) :
    ∃ found,
      ReadsAs (Text.slice text node.span.start.offset node.span.stop.offset) found ∧
        found.root.raised node.span.start.offset = tree.raised 0 := by
  obtain ⟨before, used, behind, shape, written⟩ := reads.exists_run member
  obtain ⟨clean, sameTokens⟩ := Lexed.ofText_slice reads.clean shape written.covers
  generalize Text.slice text node.span.start.offset node.span.stop.offset = cut
    at clean sameTokens ⊢
  have bounded : tree.nesting ≤ Grammar.nestingLimit := by
    calc
      tree.nesting = node.nesting := Node.nesting_alone isAlone
      _ ≤ whole.nesting := whole.nesting_le_of_mem_nodes node member
      _ ≤ Grammar.nestingLimit := (TokenStream.parse_eq_ok_iff.mp reads.read).2
  have readTree : Expression.ofTokens used = .ok { root := tree } :=
    Expression.ofTokens_eq_ok_iff.mpr ⟨written.alone isAlone, bounded⟩
  -- The tokens of the cut text are those of the node once both are known by offsets alone.
  have readRaised :=
    Expression.ofTokens_moved_of_ok (Place.raised 0) (Place.raised 0) readTree
  rw [← sameTokens] at readRaised
  obtain ⟨found, read, same⟩ := Expression.exists_of_ofTokens_moved _ _ readRaised
  have parsed := Expression.ofTokens_eq_ok_iff.mp read
  exact ⟨found, ⟨clean, TokenStream.parse_eq_ok_iff.mpr parsed⟩, same⟩

end ReadsAs

/-! ## Exact spans -/

/-- The span of a node in a text, those directly below it, and that of its name are exact. -/
structure Node.SpansExactly
    (text : List Char)
    (node : Node) :
    Prop where
  /-- The span runs from the first to the last of the tokens that write the node. -/
  run :
    ∃ before used behind,
      (Lexed.ofText text).stream.tokens = before ++ used ++ behind ∧
        node.Written used ∧ node.span.Covers used
  /-- The spans of the nodes directly below lie within the span, and none of them is empty. -/
  nested :
    ∀ child ∈ node.children,
      node.span.start.offset ≤ child.span.start.offset ∧
        child.span.start.offset < child.span.stop.offset ∧
        child.span.stop.offset ≤ node.span.stop.offset
  /-- The spans of the nodes directly below stand one behind the other. -/
  apart :
    node.children.Pairwise fun first second =>
      first.span.stop.offset ≤ second.span.start.offset
  /-- The span of the name cuts out the name. -/
  named :
    ∀ span, node.nameSpan? = some span →
      ∃ name, node.name? = some name ∧
        Text.slice text span.start.offset span.stop.offset = name.toList
  /-- The text of the node reads as the node alone, with the offsets counted from its start. -/
  selfContained :
    ∀ tree, node.alone? = some tree →
      ∃ found,
        ReadsAs (Text.slice text node.span.start.offset node.span.stop.offset) found ∧
          found.root.raised node.span.start.offset = tree.raised 0

/-- The nodes directly below a node lie within its span, one behind the other. -/
theorem Node.Written.children_inOrder
    {tokens : List Token}
    {node : Node}
    (written : node.Written tokens)
    (inOrder : InOrder tokens) :
    (∀ child ∈ node.children,
      node.span.start.offset ≤ child.span.start.offset ∧
        child.span.start.offset < child.span.stop.offset ∧
        child.span.stop.offset ≤ node.span.stop.offset) ∧
      node.children.Pairwise fun first second =>
        first.span.stop.offset ≤ second.span.start.offset := by
  have covers : ∀ used child, Node.Written used child → child.span.Covers used :=
    fun _ _ childWritten => childWritten.covers
  refine ⟨?_, written.strewn.pairwise_spans covers inOrder⟩
  intro child member
  obtain ⟨before, used, behind, rfl, childWritten⟩ := written.strewn.exists_run child member
  have part : used.Sublist (before ++ used ++ behind) := by simp
  obtain ⟨starts, stops⟩ := written.covers.contains childWritten.covers inOrder
  exact ⟨starts, childWritten.covers.nonempty (inOrder.sublist part), stops⟩

/--
In the tree of a text without stray characters, the spans of all nodes are
exact, and each node but the whole expression and the links can be cut out of
the text and read on its own.
-/
theorem ReadsAs.spansExactly_of_mem_nodes
    {text : List Char}
    {whole : Expression}
    (reads : ReadsAs text whole)
    {node : Node}
    (member : node ∈ whole.nodes) :
    node.SpansExactly text := by
  obtain ⟨before, used, behind, shape, written⟩ := reads.exists_run member
  have part : used.Sublist (Lexed.ofText text).stream.tokens := by
    rw [shape]
    simp
  have inOrder := (Lexed.inOrder_ofText text).sublist part
  obtain ⟨nested, apart⟩ := written.children_inOrder inOrder
  exact {
    run := ⟨before, used, behind, shape, written, written.covers⟩
    nested := nested
    apart := apart
    named := by
      intro span spans
      obtain ⟨name, isName, token, isUsed, rfl, named⟩ :=
        written.exists_token_of_nameSpan? spans
      exact ⟨name, isName, Lexed.slice_name reads.clean (part.subset isUsed) named⟩
    selfContained := fun tree isAlone => reads.exists_readsAs_slice member isAlone
  }

/-- The group in a product, with blanks around it that belong to no node. -/
theorem ReadsAs.spansExactly_group :
    let text := "2 * ( a +b.getX() ) / c".toList
    ∃ whole node,
      ReadsAs text whole ∧ node ∈ whole.nodes ∧
        Text.slice text node.span.start.offset node.span.stop.offset =
          "( a +b.getX() )".toList ∧
        node.alone?.isSome = true ∧ node.SpansExactly text := by
  intro text
  have found :
      ((Lexed.ofText text).stream.parse (some text)).toOption.bind
          (fun whole =>
            (whole.nodes.find? fun node => node.label = "Parenthesized").map fun node =>
              (Text.slice text node.span.start.offset node.span.stop.offset,
                node.alone?.isSome)) =
        some ("( a +b.getX() )".toList, true) := by
    decide +kernel
  have clean : (Lexed.ofText text).diagnostics = [] := by
    decide +kernel
  -- From here on, the text is known by these facts alone.
  clear_value text
  obtain ⟨whole, read, shape⟩ := Option.bind_eq_some_iff.mp found
  obtain ⟨node, isGroup, pair⟩ := Option.map_eq_some_iff.mp shape
  obtain ⟨cut, alone⟩ := Prod.mk.inj pair
  have reads : ReadsAs text whole := ⟨clean, eq_ok_of_toOption_eq_some read⟩
  have member : node ∈ whole.nodes := List.mem_of_find?_eq_some isGroup
  exact ⟨whole, node, reads, member, cut, alone, reads.spansExactly_of_mem_nodes member⟩

end PlanarExpr
