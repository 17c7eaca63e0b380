import PlanarExpr.Proofs.Inlining
import PlanarExpr.Proofs.NodeTokens

namespace PlanarExpr

/-!
# The spans of nodes

The span of a node runs from its first token to its last one. So the spans of
the nodes below it lie within it, one behind the other, and the span of its
name cuts that name out of the text.
-/

open Source

/-- A span runs from the start of the first of some tokens to the end of the last. -/
structure Source.Span.Covers
    (span : Span)
    (tokens : List Token) :
    Prop where
  start : tokens.head?.map (fun token => token.span.start) = some span.start
  stop : tokens.getLast?.map (fun token => token.span.stop) = some span.stop

namespace Source.Span.Covers

/-- The span of a token covers that token. -/
theorem single (token : Token) : token.span.Covers [token] :=
  ⟨rfl, rfl⟩

/-- A span that covers tokens starts where the first of them does. -/
theorem exists_first
    {span : Span}
    {tokens : List Token}
    (covers : span.Covers tokens) :
    ∃ first rest, tokens = first :: rest ∧ first.span.start = span.start := by
  obtain ⟨first, head, starts⟩ := Option.map_eq_some_iff.mp covers.start
  obtain ⟨rest, rfl⟩ := List.head?_eq_some_iff.mp head
  exact ⟨first, rest, rfl, starts⟩

/-- A span that covers tokens stops where the last of them does. -/
theorem exists_last
    {span : Span}
    {tokens : List Token}
    (covers : span.Covers tokens) :
    ∃ front last, tokens = front ++ [last] ∧ last.span.stop = span.stop := by
  obtain ⟨last, isLast, stops⟩ := Option.map_eq_some_iff.mp covers.stop
  obtain ⟨front, rfl⟩ := List.getLast?_eq_some_iff.mp isLast
  exact ⟨front, last, rfl, stops⟩

/-- From a first run of tokens to a last one, with any tokens between them. -/
theorem through
    {first last : Span}
    {firstTokens lastTokens : List Token}
    (firstCovers : first.Covers firstTokens)
    (between : List Token)
    (lastCovers : last.Covers lastTokens) :
    (first.through last).Covers (firstTokens ++ between ++ lastTokens) := by
  obtain ⟨firstToken, rest, rfl, starts⟩ := firstCovers.exists_first
  obtain ⟨front, lastToken, rfl, stops⟩ := lastCovers.exists_last
  constructor
  · rw [List.append_assoc, List.cons_append, List.head?_cons, Option.map_some, starts]
    rfl
  · rw [← List.append_assoc, List.getLast?_concat, Option.map_some, stops]
    rfl

end Source.Span.Covers

/-! ## Every node covers its tokens -/

/-- There are no tokens and no items, or the tokens end with those of the last item. -/
def EndsWithLast
    (writes : List Token → α → Prop)
    (tokens : List Token)
    (items : List α) :
    Prop :=
  tokens = [] ∧ items = [] ∨
    ∃ last front used,
      items.getLast? = some last ∧ tokens = front ++ used ∧ writes used last

namespace EndsWithLast

variable
  {writes : List Token → α → Prop}
  {used behind : List Token}
  {item : α}
  {later : List α}

/-- One item more in front of others, with its tokens. -/
theorem cons
    (front : List Token)
    (written : writes used item)
    (ends : EndsWithLast writes behind later) :
    EndsWithLast writes (front ++ used ++ behind) (item :: later) := by
  rcases ends with ⟨rfl, rfl⟩ | ⟨last, between, lastUsed, isLast, rfl, lastWritten⟩
  · exact .inr ⟨item, front, used, rfl, List.append_nil _, written⟩
  · refine .inr ⟨last, front ++ used ++ between, lastUsed, ?_, ?_, lastWritten⟩
    · rw [List.getLast?_cons, isLast]
      rfl
    · rw [List.append_assoc _ between]

/-- Entries behind separators end with the last of them. -/
theorem of_separated
    {separator? : Token.Kind → Option σ}
    {writes : List Token → α → Prop}
    {tokens : List Token}
    {items : List (σ × α)}
    (written : Separated separator? writes tokens items) :
    EndsWithLast (fun used entry => writes used entry.2) tokens items := by
  induction written with
  | nil => exact .inl ⟨rfl, rfl⟩
  | @cons token separator _ _ item _ _ itemWritten _ inductionHypothesis =>
      have entryWritten : writes _ (separator, item).2 := itemWritten
      exact inductionHypothesis.cons [token] entryWritten

/-- Items with nothing in between end with the last of them. -/
theorem of_joined
    {writes : List Token → α → Prop}
    {tokens : List Token}
    {items : List α}
    (written : Joined writes tokens items) :
    EndsWithLast writes tokens items := by
  induction written with
  | nil => exact .inl ⟨rfl, rfl⟩
  | cons itemWritten _ inductionHypothesis => exact inductionHypothesis.cons [] itemWritten

/-- A span that goes on to the last of some items covers the tokens of all of them. -/
theorem covers_spanThrough
    {first : Span}
    {firstTokens laterTokens : List Token}
    {spanOf : α → Span}
    (firstCovers : first.Covers firstTokens)
    (itemCovers : ∀ used item, writes used item → (spanOf item).Covers used)
    (ends : EndsWithLast writes laterTokens later) :
    (spanThrough first spanOf later).Covers (firstTokens ++ laterTokens) := by
  rcases ends with ⟨rfl, rfl⟩ | ⟨last, front, used, isLast, rfl, written⟩
  · rw [List.append_nil]
    exact firstCovers
  · rw [spanThrough, isLast, ← List.append_assoc]
    exact firstCovers.through front (itemCovers used last written)

end EndsWithLast

/-- Arguments end with the parenthesis that closes them. -/
theorem WritesArguments.exists_front
    {writes : List Token → Addition → Prop}
    {tokens : List Token}
    {items : List Addition}
    {close : Token}
    (written : WritesArguments writes tokens (items, close)) :
    ∃ front, tokens = front ++ [close] := by
  cases written with
  | @none opening close _ _ => exact ⟨[opening], rfl⟩
  | @some opening close firstTokens laterTokens _ _ _ _ _ _ =>
      exact ⟨opening :: firstTokens ++ laterTokens, by rw [List.append_assoc]⟩

/-- The span of an atom covers its tokens. -/
theorem Atom.Written.covers
    {tokens : List Token}
    {tree : Atom}
    (written : tree.Written tokens) :
    tree.span.Covers tokens := by
  cases written with
  | @number token _ _ => exact .single token
  | @name token _ _ => exact .single token
  | @call token _ _ _ close _ itemsWritten =>
      obtain ⟨front, rfl⟩ := itemsWritten.exists_front
      exact (Span.Covers.single token).through front (.single close)
  | @group opening close inside _ _ _ _ =>
      exact (Span.Covers.single opening).through inside (.single close)
  | @construction keyword pathTokens _ _ _ close _ _ itemsWritten =>
      obtain ⟨front, rfl⟩ := itemsWritten.exists_front
      rw [List.cons_append, ← List.append_assoc]
      exact (Span.Covers.single keyword).through (pathTokens ++ front) (.single close)

theorem Link.Written.covers
    {tokens : List Token}
    {tree : Link}
    (written : tree.Written tokens) :
    tree.span.Covers tokens := by
  cases written with
  | @field dot token _ _ _ => exact (Span.Covers.single dot).through [] (.single token)
  | @call dot token _ _ _ close _ _ itemsWritten =>
      obtain ⟨front, rfl⟩ := itemsWritten.exists_front
      exact (Span.Covers.single dot).through (token :: front) (.single close)

theorem Primary.Written.covers
    {tokens : List Token}
    {tree : Primary}
    (written : tree.Written tokens) :
    tree.span.Covers tokens := by
  obtain ⟨startWritten, chainWritten⟩ := written
  exact (EndsWithLast.of_joined chainWritten).covers_spanThrough startWritten.covers
    fun _ _ linkWritten => linkWritten.covers

theorem Unary.covers_of_written
    (tree : Unary)
    {tokens : List Token}
    (written : tree.Written tokens) :
    tree.span.Covers tokens := by
  cases tree with
  | signed span sign operand =>
      obtain @⟨token, _, _, _, _, operandWritten⟩ := written
      exact (Span.Covers.single token).through [] (operand.covers_of_written operandWritten)
  | primary operand =>
      cases written with
      | primary operandWritten => exact operandWritten.covers

theorem Multiplication.Written.covers
    {tokens : List Token}
    {tree : Multiplication}
    (written : tree.Written tokens) :
    tree.span.Covers tokens := by
  obtain @⟨_, _, first, _, firstWritten, laterWritten⟩ := written
  exact (EndsWithLast.of_separated laterWritten).covers_spanThrough
    (first.covers_of_written firstWritten)
    fun _ (_, factor) factorWritten => factor.covers_of_written factorWritten

/-- The span of an addition covers its tokens. -/
theorem Addition.Written.covers
    {tokens : List Token}
    {tree : Addition}
    (written : tree.Written tokens) :
    tree.span.Covers tokens := by
  obtain ⟨firstWritten, laterWritten⟩ := written
  exact (EndsWithLast.of_separated laterWritten).covers_spanThrough firstWritten.covers
    fun _ _ termWritten => termWritten.covers

/-- The span of a node runs from its first token to its last one. -/
theorem Node.Written.covers
    {tokens : List Token}
    {node : Node}
    (written : node.Written tokens) :
    node.span.Covers tokens := by
  cases node with
  | expression whole => exact Addition.Written.covers written
  | addition node => exact Addition.Written.covers written
  | multiplication node => exact Multiplication.Written.covers written
  | signed span sign operand => exact Unary.covers_of_written _ written
  | primary node => exact Primary.Written.covers written
  | atom node => exact Atom.Written.covers written
  | link node => exact Link.Written.covers written

/-! ## Spans in order -/

/-- No token is empty, and each ends before the next one starts. -/
structure InOrder (tokens : List Token) : Prop where
  apart : tokens.Pairwise fun first second => first.stopOffset ≤ second.startOffset
  nonempty : ∀ token ∈ tokens, token.startOffset < token.stopOffset

/-- The tokens of a text are in order. -/
theorem Lexed.inOrder_ofText (text : List Char) :
    InOrder (Lexed.ofText text).stream.tokens :=
  ⟨Lexed.ofNamedText_pairwise _ _ _, fun _ member => Lexed.ofNamedText_nonempty member⟩

/-- Some of the tokens in order are in order. -/
theorem InOrder.sublist
    {tokens run : List Token}
    (inOrder : InOrder tokens)
    (part : run.Sublist tokens) :
    InOrder run :=
  ⟨inOrder.apart.sublist part, fun token member => inOrder.nonempty token (part.subset member)⟩

/-- A span that covers tokens in order starts before all of them and stops behind them. -/
theorem Source.Span.Covers.bounds
    {span : Span}
    {tokens : List Token}
    (covers : span.Covers tokens)
    (inOrder : InOrder tokens) :
    ∀ token ∈ tokens,
      span.start.offset ≤ token.startOffset ∧ token.stopOffset ≤ span.stop.offset := by
  intro token member
  constructor
  · obtain ⟨first, rest, rfl, starts⟩ := covers.exists_first
    rw [← starts]
    rcases List.mem_cons.mp member with isFirst | later
    · rw [isFirst]
      exact Nat.le_refl _
    · have firstNonempty := inOrder.nonempty first List.mem_cons_self
      have before := (List.pairwise_cons.mp inOrder.apart).1 token later
      exact Nat.le_trans (Nat.le_of_lt firstNonempty) before
  · obtain ⟨front, last, rfl, stops⟩ := covers.exists_last
    rw [← stops]
    rcases List.mem_append.mp member with earlier | isLast
    · have before :=
        (List.pairwise_append.mp inOrder.apart).2.2 token earlier last
          (List.mem_singleton_self last)
      have lastNonempty := inOrder.nonempty last (by simp)
      exact Nat.le_trans before (Nat.le_of_lt lastNonempty)
    · rw [List.mem_singleton.mp isLast]
      exact Nat.le_refl _

/-- A span of tokens in order is not empty. -/
theorem Source.Span.Covers.nonempty
    {span : Span}
    {tokens : List Token}
    (covers : span.Covers tokens)
    (inOrder : InOrder tokens) :
    span.start.offset < span.stop.offset := by
  obtain ⟨first, rest, rfl, starts⟩ := covers.exists_first
  have firstBounds := covers.bounds inOrder first List.mem_cons_self
  have firstNonempty := inOrder.nonempty first List.mem_cons_self
  omega

/-- The span of some tokens in order contains that of a run of them. -/
theorem Source.Span.Covers.contains
    {outer inner : Span}
    {before used behind : List Token}
    (outerCovers : outer.Covers (before ++ used ++ behind))
    (innerCovers : inner.Covers used)
    (inOrder : InOrder (before ++ used ++ behind)) :
    outer.start.offset ≤ inner.start.offset ∧ inner.stop.offset ≤ outer.stop.offset := by
  constructor
  · obtain ⟨first, rest, rfl, starts⟩ := innerCovers.exists_first
    rw [← starts]
    exact (outerCovers.bounds inOrder first (by simp)).1
  · obtain ⟨front, last, rfl, stops⟩ := innerCovers.exists_last
    rw [← stops]
    exact (outerCovers.bounds inOrder last (by simp)).2

/-- Items strewn over tokens in order have their spans one behind the other. -/
theorem Strewn.pairwise_spans
    {writes : List Token → α → Prop}
    {spanOf : α → Span}
    (covers : ∀ used item, writes used item → (spanOf item).Covers used)
    {tokens : List Token}
    {items : List α}
    (strewn : Strewn writes tokens items)
    (inOrder : InOrder tokens) :
    items.Pairwise fun first second =>
      (spanOf first).stop.offset ≤ (spanOf second).start.offset := by
  induction strewn with
  | nil => exact .nil
  | @cons between used behind item later written laterStrewn inductionHypothesis =>
      have behindInOrder := inOrder.sublist (List.sublist_append_right _ behind)
      refine List.pairwise_cons.mpr ⟨?_, inductionHypothesis behindInOrder⟩
      intro other member
      obtain ⟨front, otherUsed, after, rfl, otherWritten⟩ :=
        laterStrewn.exists_run other member
      obtain ⟨earlier, last, rfl, stops⟩ := (covers used item written).exists_last
      obtain ⟨first, rest, rfl, starts⟩ := (covers otherUsed other otherWritten).exists_first
      rw [← stops, ← starts]
      have apart := (List.pairwise_append.mp inOrder.apart).2.2
      exact apart last (by simp) first (by simp)

/-! ## Names -/

/-- The name that a node is about. -/
def Node.name? : Node → Option String
  | .atom (.name _ name) => some name
  | .atom (.call _ name _ _) => some name
  | .link (.field _ member _) => some member
  | .link (.call _ member _ _) => some member
  | _ => none

/-- The span of the name of a node is that of a token that gives this name. -/
theorem Node.Written.exists_token_of_nameSpan?
    {tokens : List Token}
    {node : Node}
    (written : node.Written tokens)
    {span : Span}
    (spans : node.nameSpan? = some span) :
    ∃ name, node.name? = some name ∧
      ∃ token ∈ tokens, token.span = span ∧ token.kind = .identifier name := by
  cases node with
  | atom node =>
      cases written with
      | @name token name found =>
          cases spans
          exact ⟨name, rfl, token, List.mem_cons_self, rfl, found⟩
      | @call token name _ _ _ found _ =>
          cases spans
          exact ⟨name, rfl, token, List.mem_cons_self, rfl, found⟩
      | _ => cases spans
  | link node =>
      cases written with
      | @field dot token member _ named =>
          cases spans
          exact ⟨member, rfl, token, by simp, rfl, named⟩
      | @call dot token member _ _ _ _ named _ =>
          cases spans
          exact ⟨member, rfl, token, by simp, rfl, named⟩
  | _ => cases spans

/-- A token of a clean text that is a name is cut out of the text by its span. -/
theorem Lexed.slice_name
    {text : List Char}
    (clean : (Lexed.ofText text).diagnostics = [])
    {token : Token}
    (member : token ∈ (Lexed.ofText text).stream.tokens)
    {name : String}
    (named : token.kind = .identifier name) :
    Text.slice text token.startOffset token.stopOffset = name.toList := by
  obtain ⟨word, behind, isName, shape, stops, -⟩ :=
    Lexed.exists_word_of_name clean member named
  rw [Text.slice_ofNat text _ (Lexed.stopOffset_le member), shape, stops,
    Nat.add_sub_cancel_left, List.take_left, isName, Word.toList_text]

end PlanarExpr
