import PlanarExpr.Proofs.CleanTexts
import PlanarExpr.Proofs.Mentions

namespace PlanarExpr

/-!
# Inlining a name in a text

A name is inlined in a text by writing another text in parentheses over every
mention of it. If both texts are clean, so is the outcome: a parenthesis ends
whatever stands in front of it. Its tokens are those of the tree in which the
name is inlined.
-/

/-- The text from an offset on, with other characters in the place of each of some spans. -/
def replaceSpans
    (replacement : List Char)
    (offset : Nat) :
    List Source.Span →
    List Char →
    List Char
  | [], text => text
  | span :: rest, text =>
      text.take (span.start.offset - offset) ++
        (replacement ++
          replaceSpans replacement span.stop.offset rest
            (text.drop (span.stop.offset - offset)))

/-- A text with another one in parentheses in the place of every mention of a name. -/
def Expression.inlinedText
    (whole : Expression)
    (text : List Char)
    (name : String)
    (body : List Char) :
    List Char :=
  replaceSpans ('(' :: body ++ [')']) 0
    ((whole.mentions.filter (·.isOf name)).map Mention.span) text

/-- What stands in front of all spans is kept. -/
theorem replaceSpans_append
    (replacement : List Char)
    {offset : Nat}
    (front text : List Char)
    {spans : List Source.Span}
    (behind :
      ∀ span ∈ spans,
        offset + front.length ≤ span.start.offset ∧
          span.start.offset ≤ span.stop.offset) :
    replaceSpans replacement offset spans (front ++ text) =
      front ++ replaceSpans replacement (offset + front.length) spans text := by
  cases spans with
  | nil => rfl
  | cons span rest =>
      obtain ⟨starts, ordered⟩ := behind span List.mem_cons_self
      have toStart :
          span.start.offset - offset =
            front.length + (span.start.offset - (offset + front.length)) := by
        omega
      have toStop :
          span.stop.offset - offset =
            front.length + (span.stop.offset - (offset + front.length)) := by
        omega
      simp only [replaceSpans]
      rw [toStart, toStop, List.take_length_add_append, List.drop_length_add_append,
        List.append_assoc]

/-! ## Where a mark takes over -/

/-- A text that goes on like another one, or up to a mark that is no point. -/
inductive GoesOnLike : List Char → List Char → Prop where
  | same (text : List Char) :
      GoesOnLike text text
  | mark
      (symbol : Mark)
      (noDot : symbol ≠ .dot)
      (text behind : List Char) :
      GoesOnLike text (symbol.character :: behind)
  | cons
      (c : Char)
      {text text' : List Char} :
      GoesOnLike text text' →
      GoesOnLike (c :: text) (c :: text')

/-- Texts that go on alike do so behind any other text. -/
theorem GoesOnLike.append
    {text text' : List Char}
    (alike : GoesOnLike text text')
    (front : List Char) :
    GoesOnLike (front ++ text) (front ++ text') := by
  induction front with
  | nil => exact alike
  | cons c rest inductionHypothesis => exact .cons c inductionHypothesis

/-- No mark may stand in a name. -/
theorem Mark.isNameCharacter_character (symbol : Mark) :
    isNameCharacter symbol.character = false := by
  cases symbol <;> rfl

/-- No mark is a digit. -/
theorem Mark.isDigit_character (symbol : Mark) :
    Decimal.isDigit symbol.character = false := by
  cases symbol <;> rfl

/-- What starts outside of a class without marks does so in a text that goes on like it. -/
theorem StartsOutside.goesOnLike
    {belongs : Char → Bool}
    {text text' : List Char}
    (outside : StartsOutside belongs text)
    (marksOutside : ∀ symbol : Mark, belongs symbol.character = false)
    (alike : GoesOnLike text text') :
    StartsOutside belongs text' := by
  cases alike with
  | same => exact outside
  | mark symbol =>
      rintro _ ⟨⟩
      exact marksOutside symbol
  | cons c later =>
      rintro _ ⟨⟩
      exact outside c rfl

/-- Where a lexeme ends it also ends if a mark takes over. -/
theorem Lexeme.Ends.goesOnLike
    {lexeme : Lexeme}
    {text text' : List Char}
    (ends : lexeme.Ends text)
    (alike : GoesOnLike text text') :
    lexeme.Ends text' := by
  cases lexeme with
  | mark symbol => trivial
  | word letters =>
      exact StartsOutside.goesOnLike ends Mark.isNameCharacter_character alike
  | decimal digits fraction =>
      exact StartsOutside.goesOnLike ends Mark.isDigit_character alike
  | whole digits =>
      obtain ⟨outside, noFraction⟩ := ends
      refine ⟨outside.goesOnLike Mark.isDigit_character alike, ?_⟩
      intro digit later shape
      cases alike with
      | same => exact noFraction digit later shape
      | mark symbol noDot =>
          cases symbol <;> first | exact absurd rfl noDot | cases shape
      | cons c alikeLater =>
          obtain ⟨rfl, rfl⟩ := List.cons.inj shape
          cases alikeLater with
          | same => exact noFraction digit later rfl
          | mark symbol => exact symbol.isDigit_character
          | cons next _ => exact noFraction digit _ rfl

namespace SpacedLexemes

/-- The characters of lexemes in two parts are those of the parts, one behind the other. -/
theorem characters_append (first second : SpacedLexemes) :
    characters (first ++ second) = characters first ++ characters second := by
  induction first with
  | nil => rfl
  | cons entry rest inductionHypothesis =>
      obtain ⟨lexeme, gap⟩ := entry
      simp only [List.cons_append, characters, inductionHypothesis, List.append_assoc]

/-- Lexemes that end in front of nothing also end in front of a mark. -/
theorem Ended.append_mark
    {first : SpacedLexemes}
    (ended : Ended first)
    (symbol : Mark)
    (noDot : symbol ≠ .dot)
    (gap : Blanks)
    {rest : SpacedLexemes}
    (restEnded : Ended rest) :
    Ended (first ++ (.mark symbol, gap) :: rest) := by
  induction first with
  | nil => exact ⟨trivial, restEnded⟩
  | cons entry later inductionHypothesis =>
      obtain ⟨lexeme, space⟩ := entry
      obtain ⟨ends, laterEnded⟩ := ended
      refine ⟨?_, inductionHypothesis laterEnded⟩
      have takesOver :
          GoesOnLike (characters later)
            (characters (later ++ (.mark symbol, gap) :: rest)) := by
        have atEnd :
            GoesOnLike (characters later ++ [])
              (characters later ++ characters ((.mark symbol, gap) :: rest)) :=
          (GoesOnLike.mark symbol noDot _ _).append _
        rwa [List.append_nil, ← characters_append] at atEnd
      exact ends.goesOnLike (takesOver.append _)

end SpacedLexemes

/-! ## Lexemes in the place of mentions -/

/-- Whether a cell makes a mention of a name. -/
def Cell.isOf
    (name : String)
    (cell : Cell) :
    Bool :=
  cell.mention.any (·.isOf name)

namespace SpacedLexemes

/-- Lexemes in parentheses, with blanks behind either of them. -/
def enclosed
    (margin : Blanks)
    (inner : SpacedLexemes)
    (gap : Blanks) :
    SpacedLexemes :=
  (.mark .openParen, margin) :: inner ++ [(.mark .closeParen, gap)]

/-- The lexemes of cells, with others in parentheses where a name is mentioned. -/
def inline
    (name : String)
    (margin : Blanks)
    (inner : SpacedLexemes) :
    List Cell →
    SpacedLexemes →
    SpacedLexemes
  | cell :: cells, (lexeme, gap) :: rest =>
      (if cell.isOf name then enclosed margin inner gap else [(lexeme, gap)]) ++
        inline name margin inner cells rest
  | _, _ => []

variable
  {name : String}
  {margin : Blanks}
  {inner : SpacedLexemes}

/-- Enclosed lexemes are written between parentheses. -/
theorem characters_enclosed (gap : Blanks) :
    characters (enclosed margin inner gap) =
      '(' :: (margin.characters ++ characters inner) ++ [')'] ++ gap.characters := by
  simp [enclosed, characters, characters_append, Lexeme.characters, Mark.character]

/-- Tokens stand behind the place from which they are written. -/
theorem tokens_bounds
    {items : SpacedLexemes}
    {place : Source.Place}
    {token : Token}
    (member : token ∈ tokens place items) :
    place.offset ≤ token.startOffset ∧ token.startOffset ≤ token.stopOffset := by
  induction items generalizing place with
  | nil =>
      cases member
  | cons entry rest inductionHypothesis =>
      obtain ⟨lexeme, gap⟩ := entry
      rcases List.mem_cons.mp member with isFirst | later
      · subst isFirst
        refine ⟨Nat.le_refl _, ?_⟩
        simp only [Token.startOffset, Token.stopOffset, Source.Place.offset_after]
        omega
      · obtain ⟨starts, ordered⟩ := inductionHypothesis later
        simp only [Source.Place.offset_after] at starts
        exact ⟨by omega, ordered⟩

/-- Inlining a name among lexemes replaces the spans of its mentions in their text. -/
theorem characters_inline
    {items : SpacedLexemes}
    {cells : List Cell}
    {place : Source.Place}
    (aligned : cells.map Cell.token = tokens place items) :
    characters (inline name margin inner cells items) =
      replaceSpans ('(' :: (margin.characters ++ characters inner) ++ [')'])
        place.offset
        ((cells.filter (·.isOf name)).map (·.token.span))
        (characters items) := by
  induction items generalizing cells place with
  | nil =>
      rw [tokens, List.map_eq_nil_iff] at aligned
      subst aligned
      rfl
  | cons entry rest inductionHypothesis =>
      obtain ⟨lexeme, gap⟩ := entry
      obtain ⟨cell, later, rfl, isToken, restAligned⟩ := List.map_eq_cons_iff.mp aligned
      have known := inductionHypothesis restAligned
      have behind :
          ∀ span ∈ (later.filter (·.isOf name)).map (·.token.span),
            place.offset + lexeme.characters.length + gap.characters.length ≤
                span.start.offset ∧
              span.start.offset ≤ span.stop.offset := by
        intro span member
        obtain ⟨made, inLater, rfl⟩ := List.mem_map.mp member
        have isToken : made.token ∈ tokens _ rest :=
          restAligned ▸ List.mem_map_of_mem (List.mem_filter.mp inLater).1
        have bounds := tokens_bounds isToken
        simp only [Source.Place.offset_after] at bounds
        exact bounds
      simp only [Source.Place.offset_after] at known
      rw [inline, characters_append, known]
      by_cases isOf : cell.isOf name = true
      · -- The span of the mention is that of the lexeme at hand.
        have span :
            cell.token.span =
              { start := place, stop := place.after lexeme.characters, file := "" } :=
          congrArg Token.span isToken
        rw [if_pos isOf, characters_enclosed, List.filter_cons_of_pos isOf, List.map_cons,
          span, replaceSpans]
        simp only [characters, Source.Place.offset_after, Nat.sub_self, List.take_zero,
          Nat.add_sub_cancel_left, List.drop_left, List.nil_append, List.append_assoc]
        rw [replaceSpans_append _ gap.characters (characters rest) behind]
      · -- Another lexeme stands in front of all spans that are left, so it is kept.
        rw [if_neg isOf, List.filter_cons_of_neg isOf]
        have kept :=
          replaceSpans_append ('(' :: (margin.characters ++ characters inner) ++ [')'])
            (lexeme.characters ++ gap.characters) (characters rest)
            (by rwa [List.length_append, ← Nat.add_assoc])
        rw [List.length_append, ← Nat.add_assoc, List.append_assoc] at kept
        simp only [characters, List.append_nil] at kept ⊢
        exact kept.symm

/-- With a name inlined, a text goes on as before up to the first mention. -/
theorem goesOnLike_inline
    {items : SpacedLexemes}
    {cells : List Cell}
    (sameLength : cells.length = items.length) :
    GoesOnLike (characters items)
      (characters (inline name margin inner cells items)) := by
  induction items generalizing cells with
  | nil =>
      rw [List.length_eq_zero_iff.mp sameLength]
      exact .same []
  | cons entry rest inductionHypothesis =>
      obtain ⟨lexeme, gap⟩ := entry
      obtain ⟨cell, later, rfl⟩ := List.exists_cons_of_length_eq_add_one sameLength
      have alike := inductionHypothesis (Nat.succ.inj sameLength)
      rw [inline, characters_append]
      split
      · rw [characters_enclosed]
        exact .mark .openParen nofun _ _
      · simp only [characters, List.append_nil, List.append_assoc]
        exact (alike.append _).append _

/-- The lexemes with a name inlined end if those inside and outside do. -/
theorem Ended.inline
    {items : SpacedLexemes}
    (ended : Ended items)
    (innerEnded : Ended inner)
    {cells : List Cell}
    (sameLength : cells.length = items.length) :
    Ended (inline name margin inner cells items) := by
  induction items generalizing cells with
  | nil =>
      rw [List.length_eq_zero_iff.mp sameLength]
      trivial
  | cons entry rest inductionHypothesis =>
      obtain ⟨lexeme, gap⟩ := entry
      obtain ⟨ends, restEnded⟩ := ended
      obtain ⟨cell, later, rfl⟩ := List.exists_cons_of_length_eq_add_one sameLength
      have sameRest := Nat.succ.inj sameLength
      have laterEnded := inductionHypothesis restEnded sameRest
      rw [SpacedLexemes.inline]
      split
      · have closes := innerEnded.append_mark .closeParen nofun gap laterEnded
        simp only [enclosed, List.cons_append, List.append_assoc, List.nil_append]
        exact ⟨trivial, closes⟩
      · exact ⟨ends.goesOnLike ((goesOnLike_inline sameRest).append _), laterEnded⟩

/--
The kinds of a cell are those of its lexeme, or those in parentheses where the
name is mentioned.
-/
theorem rewrittenKinds_eq
    {body : Expression}
    (spelled : (inner.map Prod.fst).map Lexeme.kind = body.kinds)
    {cell : Cell}
    {lexeme : Lexeme}
    (sameKind : cell.token.kind = lexeme.kind)
    (gap : Blanks) :
    cell.rewrittenKinds (Atom.inlined name body) =
      ((if cell.isOf name then enclosed margin inner gap else [(lexeme, gap)]).map
        Prod.fst).map Lexeme.kind := by
  obtain ⟨token, mention, agrees⟩ := cell
  rcases mention with _ | ⟨found, span, _ | _⟩
  · simp [Cell.rewrittenKinds, Cell.isOf, ← sameKind]
  · obtain ⟨-, named⟩ := agrees _ rfl
    simp only at sameKind named
    by_cases same : found = name
    · simp [Cell.rewrittenKinds, Cell.isOf, Mention.isOf, Atom.inlined, same, enclosed,
        Atom.kinds, Lexeme.kind, Mark.kind, spelled, Expression.kinds]
    · simp [Cell.rewrittenKinds, Cell.isOf, Mention.isOf, Atom.inlined, same, Atom.kinds,
        ← sameKind, named]
  · simp [Cell.rewrittenKinds, Cell.isOf, Mention.isOf, ← sameKind]

/-- Inlining a name among lexemes changes their kinds as inlining it in their cells does. -/
theorem map_kind_inline
    {body : Expression}
    (spelled : (inner.map Prod.fst).map Lexeme.kind = body.kinds)
    {items : SpacedLexemes}
    {cells : List Cell}
    {place : Source.Place}
    (aligned : cells.map Cell.token = tokens place items) :
    ((inline name margin inner cells items).map Prod.fst).map Lexeme.kind =
      cells.flatMap (Cell.rewrittenKinds (Atom.inlined name body)) := by
  induction items generalizing cells place with
  | nil =>
      rw [tokens, List.map_eq_nil_iff] at aligned
      subst aligned
      rfl
  | cons entry rest inductionHypothesis =>
      obtain ⟨lexeme, gap⟩ := entry
      obtain ⟨cell, later, rfl, isToken, restAligned⟩ := List.map_eq_cons_iff.mp aligned
      have sameKind : cell.token.kind = lexeme.kind := congrArg Token.kind isToken
      rw [inline, List.map_append, List.map_append, List.flatMap_cons,
        inductionHypothesis restAligned, rewrittenKinds_eq spelled sameKind gap]

end SpacedLexemes

/-! ## Texts -/

/-- The spans of the mentions of a name are those of the tokens of its cells. -/
theorem map_span_filter_mentions
    (name : String)
    (cells : List Cell) :
    ((cells.filterMap Cell.mention).filter (·.isOf name)).map Mention.span =
      (cells.filter (·.isOf name)).map (·.token.span) := by
  induction cells with
  | nil => rfl
  | cons cell rest inductionHypothesis =>
      obtain ⟨token, mention, agrees⟩ := cell
      cases mention with
      | none =>
          exact inductionHypothesis
      | some made =>
          obtain ⟨sameSpan, -⟩ := agrees made rfl
          have mentions :
              (⟨token, some made, agrees⟩ :: rest).filterMap Cell.mention =
                made :: rest.filterMap Cell.mention :=
            rfl
          by_cases isOf : made.isOf name = true
          · have cellIsOf : Cell.isOf name ⟨token, some made, agrees⟩ = true := isOf
            rw [List.filter_cons_of_pos cellIsOf, mentions,
              List.filter_cons_of_pos isOf, List.map_cons, List.map_cons,
              inductionHypothesis, sameSpan]
          · have cellIsNotOf : ¬Cell.isOf name ⟨token, some made, agrees⟩ = true := isOf
            rw [List.filter_cons_of_neg cellIsNotOf, mentions,
              List.filter_cons_of_neg isOf, inductionHypothesis]

/--
Inlining a name of a clean text with a clean text gives a clean text. Its
tokens are of the kinds that the tree has when the name is inlined there.
-/
theorem Expression.inlinedText_tokens
    {text bodyText : List Char}
    (clean : (Lexed.ofText text).diagnostics = [])
    (bodyClean : (Lexed.ofText bodyText).diagnostics = [])
    {whole body : Expression}
    (written : whole.Written (Lexed.ofText text).stream.tokens)
    (bodyWritten : body.Written (Lexed.ofText bodyText).stream.tokens)
    (name : String) :
    let lexed := Lexed.ofText (whole.inlinedText text name bodyText)
    lexed.diagnostics = [] ∧
      lexed.stream.tokens.map Token.kind = (whole.inlined name body).kinds := by
  obtain ⟨margin, items, rfl, ended⟩ := Lexed.exists_written_of_clean clean
  obtain ⟨bodyMargin, inner, rfl, innerEnded⟩ := Lexed.exists_written_of_clean bodyClean
  rw [Lexed.ofText_of_ended margin ended] at written
  rw [Lexed.ofText_of_ended bodyMargin innerEnded] at bodyWritten
  obtain ⟨cells, aligned, mentions, kinds⟩ := Expression.fallIntoCells id written
  have spelled : (inner.map Prod.fst).map Lexeme.kind = body.kinds := by
    rw [← SpacedLexemes.map_kind_tokens (Source.Place.start.after bodyMargin.characters)]
    exact body.root.map_kind_of_written bodyWritten
  have behind :
      ∀ span ∈ (cells.filter (·.isOf name)).map (·.token.span),
        0 + margin.characters.length ≤ span.start.offset ∧
          span.start.offset ≤ span.stop.offset := by
    intro span member
    obtain ⟨cell, inCells, rfl⟩ := List.mem_map.mp member
    have isToken := aligned ▸ List.mem_map_of_mem (List.mem_filter.mp inCells).1
    have bounds := SpacedLexemes.tokens_bounds isToken
    rwa [Source.Place.offset_after] at bounds
  have rewritten :
      whole.inlinedText (margin.characters ++ SpacedLexemes.characters items) name
          (bodyMargin.characters ++ SpacedLexemes.characters inner) =
        margin.characters ++
          SpacedLexemes.characters
            (SpacedLexemes.inline name bodyMargin inner cells items) := by
    rw [SpacedLexemes.characters_inline aligned, Source.Place.offset_after,
      Expression.inlinedText, ← mentions, map_span_filter_mentions]
    exact replaceSpans_append _ _ _ behind
  have sameLength : cells.length = items.length := by
    have lengths := congrArg List.length aligned
    rwa [List.length_map, SpacedLexemes.length_tokens] at lengths
  have inlineEnded :
      SpacedLexemes.Ended (SpacedLexemes.inline name bodyMargin inner cells items) :=
    ended.inline innerEnded sameLength
  intro lexed
  simp only [lexed, rewritten, Lexed.ofText_of_ended margin inlineEnded]
  refine ⟨trivial, ?_⟩
  rw [SpacedLexemes.map_kind_tokens, SpacedLexemes.map_kind_inline spelled aligned, kinds]
  rfl

end PlanarExpr
