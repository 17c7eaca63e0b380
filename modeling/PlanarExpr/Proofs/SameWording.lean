import PlanarExpr.Proofs.NodeSpans
import PlanarExpr.Proofs.Respanning

namespace PlanarExpr

/-!
# Texts in the same words

Two texts may be split into tokens of the same types and the same characters.
Then the tokens also stand for the same, and those of the one text are those of
the other one, moved to other places.
-/

open Source

/-- The type of a token and its characters. -/
def Token.wording (token : Token) : String × String :=
  (token.kind.label, token.lexeme)

/-! ## What a wording stands for -/

/-- Only numbers and names are more than their type. -/
theorem Token.Kind.eq_of_label
    {first second : Kind}
    (sameLabel : first.label = second.label)
    (sameNumber : ∀ x y, first = .number x → second = .number y → x = y)
    (sameName : ∀ name other, first = .identifier name → second = .identifier other →
      name = other) :
    first = second := by
  cases first with
  | number x =>
      cases second with
      | number y => rw [sameNumber x y rfl rfl]
      | _ => simp [label] at sameLabel
  | identifier name =>
      cases second with
      | identifier other => rw [sameName name other rfl rfl]
      | _ => simp [label] at sameLabel
  | _ => cases second <;> first | rfl | simp [label] at sameLabel

/-- A number is written by its digits. -/
theorem Lexeme.eq_literalValue_of_kind
    {lexeme : Lexeme}
    {x : Float}
    (isNumber : lexeme.kind = .number x) :
    x = Decimal.literalValue lexeme.characters := by
  cases lexeme with
  | whole digits => exact (Token.Kind.number.inj isNumber).symm
  | decimal digits fraction => exact (Token.Kind.number.inj isNumber).symm
  | mark symbol => cases symbol <;> cases isNumber
  | word letters =>
      simp only [kind] at isNumber
      split at isNumber <;> cases isNumber

/-- A lexeme that is a name is written by that name. -/
theorem Lexeme.eq_ofList_of_kind
    {lexeme : Lexeme}
    {name : String}
    (named : lexeme.kind = .identifier name) :
    name = String.ofList lexeme.characters := by
  obtain ⟨word, rfl, isName⟩ := Lexeme.exists_word_of_kind named
  exact isName

/-- Lexemes of one type with the same characters stand for the same. -/
theorem Lexeme.kind_eq_of_label
    {first second : Lexeme}
    (sameLabel : first.kind.label = second.kind.label)
    (same : first.characters = second.characters) :
    first.kind = second.kind := by
  apply Token.Kind.eq_of_label sameLabel
  · intro x y isNumber isNumber'
    rw [eq_literalValue_of_kind isNumber, eq_literalValue_of_kind isNumber', same]
  · intro name other named named'
    rw [eq_ofList_of_kind named, eq_ofList_of_kind named', same]

/-- Every token of lexemes is one of them, in a text without a name. -/
theorem SpacedLexemes.exists_lexeme_of_token
    {items : SpacedLexemes}
    {place : Place}
    {token : Token}
    (member : token ∈ tokens place items) :
    ∃ lexeme : Lexeme,
      token.kind = lexeme.kind ∧ token.lexeme = String.ofList lexeme.characters ∧
        token.span.file = "" := by
  induction items generalizing place with
  | nil => cases member
  | cons entry rest inductionHypothesis =>
      obtain ⟨lexeme, gap⟩ := entry
      rcases List.mem_cons.mp member with isFirst | later
      · subst isFirst
        exact ⟨lexeme, rfl, rfl, rfl⟩
      · exact inductionHypothesis later

/-- Every token of a clean text is a lexeme. -/
theorem Lexed.exists_lexeme_of_clean
    {text : List Char}
    (clean : (Lexed.ofText text).diagnostics = [])
    {token : Token}
    (member : token ∈ (Lexed.ofText text).stream.tokens) :
    ∃ lexeme : Lexeme,
      token.kind = lexeme.kind ∧ token.lexeme = String.ofList lexeme.characters ∧
        token.span.file = "" := by
  obtain ⟨margin, items, rfl, ended⟩ := Lexed.exists_written_of_clean clean
  rw [Lexed.ofText_of_ended margin ended] at member
  exact SpacedLexemes.exists_lexeme_of_token member

/-- All of a token but its place. -/
def Token.content (token : Token) : Token.Kind × String × String :=
  (token.kind, token.lexeme, token.span.file)

/-- In clean texts, tokens of the same wording differ in their places only. -/
theorem Lexed.content_eq_of_wording
    {text text' : List Char}
    (clean : (Lexed.ofText text).diagnostics = [])
    (clean' : (Lexed.ofText text').diagnostics = [])
    {token token' : Token}
    (member : token ∈ (Lexed.ofText text).stream.tokens)
    (member' : token' ∈ (Lexed.ofText text').stream.tokens)
    (same : token'.wording = token.wording) :
    token'.content = token.content := by
  obtain ⟨lexeme, kind, written, noFile⟩ := Lexed.exists_lexeme_of_clean clean member
  obtain ⟨lexeme', kind', written', noFile'⟩ := Lexed.exists_lexeme_of_clean clean' member'
  obtain ⟨sameLabel, sameLexeme⟩ := Prod.mk.inj same
  have sameCharacters : lexeme'.characters = lexeme.characters := by
    rw [written, written'] at sameLexeme
    exact String.ofList_injective sameLexeme
  have sameKind : lexeme'.kind = lexeme.kind := by
    rw [kind, kind'] at sameLabel
    exact Lexeme.kind_eq_of_label sameLabel sameCharacters
  rw [Token.content, Token.content, kind, kind', sameKind, sameLexeme, noFile, noFile']

/-! ## The same tokens at other places -/

/-- What is determined element by element is determined for lists. -/
theorem map_eq_map_of_determined
    {known : α → β}
    {found : α → γ}
    {items items' : List α}
    (same : items'.map known = items.map known)
    (determines :
      ∀ item ∈ items, ∀ item' ∈ items',
        known item' = known item → found item' = found item) :
    items'.map found = items.map found := by
  induction items generalizing items' with
  | nil =>
      rw [List.map_eq_nil_iff.mp same]
  | cons item rest inductionHypothesis =>
      obtain ⟨item', rest', rfl, sameItem, sameRest⟩ := List.map_eq_cons_iff.mp same
      obtain ⟨ofItem, ofRest⟩ := List.forall_mem_cons.mp determines
      have restDetermines :
          ∀ item ∈ rest, ∀ item' ∈ rest', known item' = known item → found item' = found item :=
        fun other member other' member' =>
          ofRest other member other' (List.mem_cons_of_mem _ member')
      rw [List.map_cons, List.map_cons, inductionHypothesis sameRest restDetermines,
        ofItem item' List.mem_cons_self sameItem]

/-- A token that differs from another one only in its place is that token, moved. -/
theorem Token.eq_moved_of_content
    {token token' : Token}
    {starts stops : Place → Place}
    (sameContent : token'.content = token.content)
    (start : starts token.span.start = token'.span.start)
    (stop : stops token.span.stop = token'.span.stop) :
    token' = token.moved starts stops := by
  obtain ⟨kind, lexeme, span⟩ := token
  obtain ⟨kind', lexeme', start', stop', file'⟩ := token'
  simp only [content, Prod.mk.injEq] at sameContent start stop
  obtain ⟨rfl, rfl, rfl⟩ := sameContent
  rw [moved, Span.moved, start, stop]

/-- Only the places at which a token starts and stops matter when it is moved. -/
theorem Token.moved_congr
    {starts stops starts' stops' : Place → Place}
    {token : Token}
    (sameStart : starts token.span.start = starts' token.span.start)
    (sameStop : stops token.span.stop = stops' token.span.stop) :
    token.moved starts stops = token.moved starts' stops' := by
  simp only [Token.moved, Span.moved, sameStart, sameStop]

/-- Tokens that differ only in their places are the ones in order, moved. -/
theorem Token.exists_moved
    {tokens tokens' : List Token}
    (sameContents : tokens'.map Token.content = tokens.map Token.content)
    (inOrder : InOrder tokens) :
    ∃ starts stops, tokens' = tokens.map (Token.moved starts stops) := by
  induction tokens generalizing tokens' with
  | nil => exact ⟨id, id, List.map_eq_nil_iff.mp sameContents⟩
  | cons token rest inductionHypothesis =>
      obtain ⟨token', rest', rfl, sameContent, sameRest⟩ :=
        List.map_eq_cons_iff.mp sameContents
      obtain ⟨starts, stops, rfl⟩ :=
        inductionHypothesis sameRest (inOrder.sublist (List.sublist_cons_self _ _))
      -- The first token is the only one that starts or stops where it does.
      refine ⟨fun place => if place = token.span.start then token'.span.start else starts place,
        fun place => if place = token.span.stop then token'.span.stop else stops place, ?_⟩
      rw [List.map_cons]
      congr 1
      · exact eq_moved_of_content sameContent (if_pos rfl) (if_pos rfl)
      · refine List.map_congr_left fun other member => moved_congr ?_ ?_
        · rw [if_neg]
          intro same
          have startsBehind := (List.pairwise_cons.mp inOrder.apart).1 other member
          have nonempty := inOrder.nonempty token List.mem_cons_self
          have sameOffset : other.startOffset = token.startOffset :=
            congrArg Place.offset same
          omega
        · rw [if_neg]
          intro same
          have startsBehind := (List.pairwise_cons.mp inOrder.apart).1 other member
          have nonempty := inOrder.nonempty other (List.mem_cons_of_mem _ member)
          have sameOffset : other.stopOffset = token.stopOffset :=
            congrArg Place.offset same
          omega

/-- Two texts without stray characters and with tokens of the same types and characters. -/
structure SameWords (text text' : List Char) : Prop where
  clean : (Lexed.ofText text).diagnostics = []
  clean' : (Lexed.ofText text').diagnostics = []
  wording :
    (Lexed.ofText text').stream.tokens.map Token.wording =
      (Lexed.ofText text).stream.tokens.map Token.wording

/-- The tokens of a text in the same words are those of the other one, moved. -/
theorem SameWords.exists_moved
    {text text' : List Char}
    (same : SameWords text text') :
    ∃ starts stops,
      (Lexed.ofText text').stream.tokens =
        (Lexed.ofText text).stream.tokens.map (Token.moved starts stops) := by
  apply Token.exists_moved _ (Lexed.inOrder_ofText text)
  exact map_eq_map_of_determined same.wording fun _ member _ member' =>
    Lexed.content_eq_of_wording same.clean same.clean' member member'

end PlanarExpr
