import PlanarExpr.Proofs.NodeSpans
import PlanarExpr.Proofs.Respanning

namespace PlanarExpr

/-!
# Cutting a run of tokens out of a text

The text from the first token of a run to the last one splits into the tokens
of the run again. The cut in front is at the start of a lexeme, and a lexeme
that ends in front of some text also ends where this text is cut off.
-/

open Source

/-! ## Where the text behind a lexeme is cut off -/

/-- What starts outside starts outside without what stands behind it. -/
theorem StartsOutside.of_append
    {belongs : Char → Bool}
    {text behind : List Char}
    (outside : StartsOutside belongs (text ++ behind)) :
    StartsOutside belongs text := by
  cases text with
  | nil => rintro _ ⟨⟩
  | cons c rest => exact outside

/-- Where a lexeme ends it also ends if the text behind it is cut off. -/
theorem Lexeme.Ends.of_append
    {lexeme : Lexeme}
    {text behind : List Char}
    (ends : lexeme.Ends (text ++ behind)) :
    lexeme.Ends text := by
  cases lexeme with
  | mark symbol => trivial
  | word letters => exact StartsOutside.of_append ends
  | decimal digits fraction => exact StartsOutside.of_append ends
  | whole digits =>
      obtain ⟨outside, noFraction⟩ := ends
      refine ⟨outside.of_append, ?_⟩
      intro digit later shape
      exact noFraction digit (later ++ behind) (by rw [shape, List.cons_append, List.cons_append])

namespace SpacedLexemes

/-- Lexemes without the blanks behind the last of them. -/
def trimmed : SpacedLexemes → SpacedLexemes
  | [] => []
  | [(lexeme, _)] => [(lexeme, .empty)]
  | entry :: next :: rest => entry :: trimmed (next :: rest)

/-- Only blanks stand behind trimmed lexemes. -/
theorem exists_gap_of_trimmed (items : SpacedLexemes) :
    ∃ gap : Blanks, characters items = characters (trimmed items) ++ gap.characters := by
  induction items using trimmed.induct with
  | case1 => exact ⟨.empty, rfl⟩
  | case2 lexeme gap => exact ⟨gap, by simp [characters, trimmed, Blanks.empty]⟩
  | case3 entry next later inductionHypothesis =>
      obtain ⟨gap, shape⟩ := inductionHypothesis
      obtain ⟨lexeme, space⟩ := entry
      refine ⟨gap, ?_⟩
      have first :
          characters ((lexeme, space) :: next :: later) =
            lexeme.characters ++ (space.characters ++ characters (next :: later)) :=
        rfl
      rw [first, shape, trimmed, characters, List.append_assoc, List.append_assoc]

/-- A text that goes on begins with its trimmed lexemes. -/
theorem exists_characters_append
    (items rest : SpacedLexemes) :
    ∃ behind, characters (items ++ rest) = characters (trimmed items) ++ behind := by
  obtain ⟨gap, shape⟩ := exists_gap_of_trimmed items
  exact ⟨gap.characters ++ characters rest, by
    rw [characters_append, shape, List.append_assoc]⟩

/-- Lexemes that end in a text also end where it is cut off behind the last of them. -/
theorem Ended.trimmed
    {items rest : SpacedLexemes}
    (ended : Ended (items ++ rest)) :
    Ended items.trimmed := by
  induction items using trimmed.induct with
  | case1 => trivial
  | case2 lexeme gap =>
      have ends : lexeme.Ends ([] ++ (gap.characters ++ characters rest)) := ended.1
      exact ⟨ends.of_append, trivial⟩
  | case3 entry next later inductionHypothesis =>
      obtain ⟨lexeme, gap⟩ := entry
      obtain ⟨behind, shape⟩ := exists_characters_append (next :: later) rest
      obtain ⟨ends, restEnded⟩ := ended
      have endsBefore :
          lexeme.Ends (gap.characters ++ characters (next :: later ++ rest)) := ends
      rw [shape, ← List.append_assoc] at endsBefore
      exact ⟨endsBefore.of_append, inductionHypothesis restEnded⟩

/-- The later ones of some ended lexemes are ended. -/
theorem Ended.behind
    {first second : SpacedLexemes}
    (ended : Ended (first ++ second)) :
    Ended second := by
  induction first with
  | nil => exact ended
  | cons entry rest inductionHypothesis => exact inductionHypothesis ended.2

/-- Blanks behind the last lexeme change no token. -/
theorem tokens_trimmed
    (place : Place)
    (items : SpacedLexemes) :
    tokens place items.trimmed = tokens place items := by
  induction items using trimmed.induct generalizing place with
  | case1 => rfl
  | case2 lexeme gap => rfl
  | case3 entry next later inductionHypothesis =>
      obtain ⟨lexeme, gap⟩ := entry
      rw [trimmed, tokens, tokens, inductionHypothesis]

/-- The tokens of lexemes in two parts are those of the parts, one behind the other. -/
theorem tokens_append
    (place : Place)
    (first second : SpacedLexemes) :
    tokens place (first ++ second) =
      tokens place first ++ tokens (place.after (characters first)) second := by
  induction first generalizing place with
  | nil => rfl
  | cons entry rest inductionHypothesis =>
      obtain ⟨lexeme, gap⟩ := entry
      simp only [List.cons_append, tokens, characters, inductionHypothesis, Place.after_append]

/-- Lexemes whose tokens are in two parts are themselves in two parts. -/
theorem exists_of_tokens_eq_append
    {place : Place}
    {items : SpacedLexemes}
    {first second : List Token}
    (shape : tokens place items = first ++ second) :
    ∃ firstItems secondItems,
      items = firstItems ++ secondItems ∧
        tokens place firstItems = first ∧
        tokens (place.after (characters firstItems)) secondItems = second := by
  have parts : items.take first.length ++ items.drop first.length = items :=
    List.take_append_drop _ _
  have long : first.length ≤ items.length := by
    rw [← length_tokens place items, shape, List.length_append]
    exact Nat.le_add_right _ _
  rw [← parts, tokens_append] at shape
  have sameLength : (tokens place (items.take first.length)).length = first.length := by
    rw [length_tokens, List.length_take, Nat.min_eq_left long]
  obtain ⟨sameFirst, sameSecond⟩ := List.append_inj shape sameLength
  exact ⟨_, _, parts.symm, sameFirst, sameSecond⟩

/-- The tokens of lexemes reach from the first character to the last one that is no blank. -/
theorem covers_tokens
    (place : Place)
    {items : SpacedLexemes}
    (nonempty : items ≠ []) :
    ({ start := place, stop := place.after items.trimmed.characters, file := "" } :
      Span).Covers (tokens place items) := by
  induction items using trimmed.induct generalizing place with
  | case1 => exact absurd rfl nonempty
  | case2 lexeme gap =>
      have trimmedText : characters (trimmed [(lexeme, gap)]) = lexeme.characters := by
        simp [characters, trimmed, Blanks.empty]
      rw [trimmedText]
      exact ⟨rfl, rfl⟩
  | case3 entry next later inductionHypothesis =>
      obtain ⟨lexeme, gap⟩ := entry
      have covers :=
        inductionHypothesis ((place.after lexeme.characters).after gap.characters)
          (List.cons_ne_nil _ _)
      refine ⟨rfl, ?_⟩
      rw [trimmed, characters, Place.after_append, Place.after_append]
      exact covers.stop

/-- A span that covers the tokens of lexemes has these lexemes between its offsets. -/
theorem offsets_of_covers
    {front : List Char}
    {items : SpacedLexemes}
    {span : Span}
    (covers : span.Covers (tokens (Place.start.after front) items)) :
    span.start.offset = front.length ∧
      span.stop.offset = front.length + items.trimmed.characters.length := by
  have nonempty : items ≠ [] := by
    rintro rfl
    cases covers.start
  have itemsCover := covers_tokens (Place.start.after front) nonempty
  have start : span.start = Place.start.after front :=
    Option.some.inj (covers.start.symm.trans itemsCover.start)
  have stop : span.stop = (Place.start.after front).after items.trimmed.characters :=
    Option.some.inj (covers.stop.symm.trans itemsCover.stop)
  have fromStart : Place.start.offset + front.length = front.length :=
    Nat.zero_add _
  simp only [start, stop, Place.offset_after, fromStart, and_self]

end SpacedLexemes

/-! ## Places by their offset alone -/

/-- A place some characters further on, without its line and column. -/
def Source.Place.raised
    (amount : Nat)
    (place : Place) :
    Place :=
  { line := 0, column := 0, offset := place.offset + amount }

/-- Places with the same raised offset keep it behind any text. -/
theorem Source.Place.raised_after
    {amount amount' : Nat}
    {place place' : Place}
    (same : place.raised amount = place'.raised amount')
    (text : List Char) :
    (place.after text).raised amount = (place'.after text).raised amount' := by
  have sameOffset : place.offset + amount = place'.offset + amount' :=
    congrArg Place.offset same
  simp only [raised, offset_after, Nat.add_right_comm _ text.length, sameOffset]

/-- A token by the offsets of its two ends, both some characters further on. -/
abbrev Token.raised (amount : Nat) : Token → Token :=
  Token.moved (Place.raised amount) (Place.raised amount)

/-- An addition by the offsets of its nodes, all some characters further on. -/
abbrev Addition.raised (amount : Nat) : Addition → Addition :=
  Addition.moved (Place.raised amount) (Place.raised amount)

/-- Lexemes that are written from another place on have the same tokens further on. -/
theorem SpacedLexemes.map_raised_tokens
    {amount amount' : Nat}
    {place place' : Place}
    (same : place.raised amount = place'.raised amount')
    (items : SpacedLexemes) :
    (tokens place items).map (Token.raised amount) =
      (tokens place' items).map (Token.raised amount') := by
  induction items generalizing place place' with
  | nil => rfl
  | cons entry rest inductionHypothesis =>
      obtain ⟨lexeme, gap⟩ := entry
      have sameStop := Place.raised_after same lexeme.characters
      have sameNext := Place.raised_after sameStop gap.characters
      simp only [tokens, List.map_cons, inductionHypothesis sameNext, Token.moved,
        Span.moved, same, sameStop]

/-! ## The cut text -/

/-- A slice between two parts of a text is what stands between them. -/
theorem Text.slice_between
    (front middle behind : List Char) :
    Text.slice (front ++ (middle ++ behind)) front.length (front.length + middle.length : Nat) =
      middle := by
  have inside : front.length + middle.length ≤ (front ++ (middle ++ behind)).length := by
    simp only [List.length_append]
    omega
  rw [Text.slice_ofNat _ _ inside, List.drop_left, Nat.add_sub_cancel_left, List.take_left]

/-- The runs into which the tokens of a clean text are cut are written by runs of its lexemes. -/
theorem Lexed.exists_written_parts
    {text : List Char}
    (clean : (Lexed.ofText text).diagnostics = [])
    {before used behind : List Token}
    (shape : (Lexed.ofText text).stream.tokens = before ++ used ++ behind) :
    ∃ (margin : Blanks) (beforeItems usedItems behindItems : SpacedLexemes),
      let place := Place.start.after margin.characters
      text =
          margin.characters ++ SpacedLexemes.characters (beforeItems ++ usedItems ++ behindItems) ∧
        SpacedLexemes.Ended (beforeItems ++ usedItems ++ behindItems) ∧
        before = SpacedLexemes.tokens place beforeItems ∧
        used = SpacedLexemes.tokens (place.after beforeItems.characters) usedItems ∧
        behind =
          SpacedLexemes.tokens (place.after (beforeItems ++ usedItems).characters) behindItems := by
  obtain ⟨margin, items, rfl, ended⟩ := Lexed.exists_written_of_clean clean
  rw [Lexed.ofText_of_ended margin ended] at shape
  obtain ⟨frontItems, behindItems, rfl, frontTokens, behindTokens⟩ :=
    SpacedLexemes.exists_of_tokens_eq_append shape
  obtain ⟨beforeItems, usedItems, rfl, beforeTokens, usedTokens⟩ :=
    SpacedLexemes.exists_of_tokens_eq_append frontTokens
  exact ⟨margin, beforeItems, usedItems, behindItems, rfl, ended, beforeTokens.symm,
    usedTokens.symm, behindTokens.symm⟩

/-- A run of the tokens of a clean text is written by lexemes that stand in the text. -/
theorem Lexed.exists_written_run
    {text : List Char}
    (clean : (Lexed.ofText text).diagnostics = [])
    {before used behind : List Token}
    (shape : (Lexed.ofText text).stream.tokens = before ++ used ++ behind) :
    ∃ (front : List Char) (items : SpacedLexemes) (rest : List Char),
      text = front ++ (items.trimmed.characters ++ rest) ∧
        SpacedLexemes.Ended items.trimmed ∧
        used = SpacedLexemes.tokens (Place.start.after front) items := by
  obtain ⟨margin, beforeItems, usedItems, behindItems, rfl, ended, -, usedTokens, -⟩ :=
    Lexed.exists_written_parts clean shape
  rw [List.append_assoc] at ended ⊢
  obtain ⟨rest, goesOn⟩ := SpacedLexemes.exists_characters_append usedItems behindItems
  refine ⟨margin.characters ++ beforeItems.characters, usedItems, rest, ?_,
    ended.behind.trimmed, ?_⟩
  · rw [SpacedLexemes.characters_append, goesOn, List.append_assoc]
  · rw [Place.after_append, usedTokens]

/--
The text that a span cuts out of a clean text splits into the tokens that it
covers, with the offsets counted from its start.
-/
theorem Lexed.ofText_slice
    {text : List Char}
    (clean : (Lexed.ofText text).diagnostics = [])
    {before used behind : List Token}
    (shape : (Lexed.ofText text).stream.tokens = before ++ used ++ behind)
    {span : Span}
    (covers : span.Covers used) :
    let cut := Lexed.ofText (Text.slice text span.start.offset span.stop.offset)
    cut.diagnostics = [] ∧
      cut.stream.tokens.map (Token.raised span.start.offset) =
        used.map (Token.raised 0) := by
  obtain ⟨front, items, rest, isText, ended, rfl⟩ := Lexed.exists_written_run clean shape
  obtain ⟨startOffset, stopOffset⟩ := SpacedLexemes.offsets_of_covers covers
  have cutText :
      Text.slice text span.start.offset span.stop.offset = items.trimmed.characters := by
    rw [startOffset, stopOffset, isText, Text.slice_between]
  have split := Lexed.ofText_of_ended .empty ended
  have sameStart :
      Place.start.raised span.start.offset = (Place.start.after front).raised 0 := by
    rw [Place.raised, Place.raised, startOffset, Place.offset_after, Nat.add_zero, Nat.add_comm]
  intro cut
  have isCut : cut = _ := (congrArg Lexed.ofText cutText).trans split
  refine ⟨congrArg Lexed.diagnostics isCut, ?_⟩
  rw [isCut]
  simp only [SpacedLexemes.tokens_trimmed]
  exact SpacedLexemes.map_raised_tokens sameStart items

end PlanarExpr
