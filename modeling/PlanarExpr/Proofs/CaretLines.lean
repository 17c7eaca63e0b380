import PlanarExpr.Expression.Parser
import PlanarExpr.Proofs.DisplayedLines
import PlanarExpr.Proofs.TextCoverage

namespace PlanarExpr

/-!
# What carets mark

A diagnostic that is about a token or a stray character of a text shows a line
of the text and carets below it. They mark what it is about, as long as the
lines counted are the lines displayed and the number of the line has at most
three digits.
-/

open Source

/-! ## Pieces that are not blank -/

/-- No lexeme contains a blank. -/
theorem Lexeme.isBlank_of_mem
    {lexeme : Lexeme}
    {c : Char}
    (member : c ∈ lexeme.characters) :
    Text.isBlank c = false := by
  rcases lexeme.isNameCharacter_or_mark_of_mem member with named | ⟨symbol, rfl⟩
  · exact isBlank_of_isNameCharacter named
  · cases symbol <;> rfl

/-- Characters of a text with the span that they take up. -/
structure StandsAt
    (text run : List Char)
    (span : Span) :
    Prop where
  parts :
    ∃ before behind,
      text = before ++ (run ++ behind) ∧
        span.start = Place.start.after before ∧
        span.stop = span.start.after run
  nonempty : run ≠ []
  unbroken : ∀ c ∈ run, Text.isLineBreak c = false

/-- A piece that is not blank stands where it is placed, without a line break in it. -/
theorem Piece.Placed.standsAt
    {text : List Char}
    {placed : Piece.Placed}
    (member : placed ∈ Lexed.placedPieces text)
    (noBlank : ∀ c, placed.piece ≠ .blank c)
    (file : String) :
    StandsAt text placed.piece.characters (placed.span file) := by
  obtain ⟨before, c, rest, shape, starts, first⟩ := Piece.exists_split_of_placed member
  have whole := Piece.characters_split_append c rest
  rw [← first] at whole
  refine ⟨⟨before, _, by rw [whole, shape], starts, rfl⟩, ?_, ?_⟩
  · rw [first]
    exact Piece.characters_split_ne_nil c rest
  · intro c' inPiece
    apply Text.isLineBreak_of_not_isBlank
    rcases Piece.split_cases c rest with
      ⟨isBlank, _⟩ | ⟨lexeme, behind, isToken, -⟩ | isStray
    · rw [isBlank] at first
      exact absurd first (noBlank c)
    · rw [first, isToken] at inPiece
      exact Lexeme.isBlank_of_mem inPiece
    · have stray := Piece.isStray_of_split isStray
      rw [first, isStray] at inPiece
      obtain rfl := List.mem_singleton.mp inPiece
      simp only [PlanarExpr.isStray, Bool.not_eq_true', Bool.or_eq_false_iff] at stray
      exact stray.1.1

namespace Lexed

/-- Up to the error limit, the tokens and diagnostics are those of the pieces. -/
theorem ofPieces_isPrefix
    (text : List Char)
    (file : String)
    (allowed : Nat)
    (place : Place)
    (pieces : List Piece) :
    (ofPieces text file allowed place pieces).stream.tokens <+:
        (Piece.placedFrom place pieces).filterMap (Piece.Placed.token? file) ∧
      (ofPieces text file allowed place pieces).diagnostics <+:
        (Piece.placedFrom place pieces).filterMap (Piece.Placed.diagnostic? text file) := by
  induction pieces generalizing allowed place with
  | nil => cases allowed <;> exact ⟨List.nil_prefix, List.nil_prefix⟩
  | cons piece rest inductionHypothesis =>
      cases allowed with
      | zero => exact ⟨List.nil_prefix, List.nil_prefix⟩
      | succ allowed =>
          cases piece with
          | blank c => exact inductionHypothesis (allowed + 1) _
          | token kind lexeme =>
              obtain ⟨tokens, diagnostics⟩ :=
                inductionHypothesis (allowed + 1) (place.after lexeme)
              exact ⟨(List.prefix_cons_inj _).mpr tokens, diagnostics⟩
          | stray c =>
              obtain ⟨tokens, diagnostics⟩ := inductionHypothesis allowed (place.after [c])
              exact ⟨tokens, (List.prefix_cons_inj _).mpr diagnostics⟩

/-- The end of a text takes up no room. -/
theorem ofPieces_finish
    (text : List Char)
    (file : String)
    (allowed : Nat)
    (place : Place)
    (pieces : List Piece) :
    let finish := (ofPieces text file allowed place pieces).stream.finish
    finish.stop = finish.start := by
  induction pieces generalizing allowed place with
  | nil => cases allowed <;> rfl
  | cons piece rest inductionHypothesis =>
      cases allowed with
      | zero => rfl
      | succ allowed => cases piece <;> exact inductionHypothesis _ _

variable {text : List Char}

/-- A token of a text stands where its span says. -/
theorem standsAt_of_token
    {token : Token}
    (member : token ∈ (ofText text).stream.tokens) :
    StandsAt text token.lexeme.toList token.span := by
  obtain ⟨placed, placedMember, isToken, spans⟩ :=
    exists_placed_of_token ((ofPieces_isPrefix ..).1.subset member)
  unfold Piece.Placed.token? at isToken
  split at isToken
  · next kind lexeme shape =>
      cases isToken
      have stands := placed.standsAt placedMember (by simp [shape]) ""
      rw [shape] at stands
      rwa [String.toList_ofList]
  · cases isToken

/-- A diagnostic of a text is about a stray character that stands where its span says. -/
theorem standsAt_of_diagnostic
    {diagnostic : Diagnostic}
    (member : diagnostic ∈ (ofText text).diagnostics) :
    ∃ c,
      diagnostic =
          (Problem.unexpectedCharacter (String.singleton c)).diagnostic diagnostic.span
            ((Text.displayLine? text diagnostic.span.start.line).map String.ofList) ∧
        StandsAt text [c] diagnostic.span := by
  obtain ⟨placed, placedMember, isStray, spans⟩ :=
    exists_placed_of_diagnostic ((ofPieces_isPrefix ..).2.subset member)
  unfold Piece.Placed.diagnostic? at isStray
  split at isStray
  · next c shape =>
      cases isStray
      have stands := placed.standsAt placedMember (by simp [shape]) ""
      rw [shape] at stands
      exact ⟨c, rfl, stands⟩
  · cases isStray

end Lexed

/-! ## The line shown and its carets -/

/--
Carets stand below a lexeme in a row, and nowhere else, if they are moved to
the right by the given distance.
-/
def Underlines
    (row carets lexeme : List Char)
    (distance : Nat) :
    Prop :=
  ∃ left right margin,
    row = left ++ (lexeme ++ right) ∧
      carets = margin ++ List.replicate lexeme.length '^' ∧
      '^' ∉ margin ∧
      left.length = margin.length + distance

/--
What a diagnostic shows of the characters that it is about. If no break but
line feeds stands in front of them, they stand in the line shown at their
column, above the carets; from line 1000 on the carets stand too far to the
left. Otherwise the line shown is one of the text in front.
-/
structure Diagnostic.Marks
    (diagnostic : Diagnostic)
    (text lexeme : List Char)
    (line : String) :
    Prop where
  sourceLine : diagnostic.sourceLine = some line
  slice :
    Text.hasOtherBreak (text.take diagnostic.span.start.offset) = false →
    (line.toList.drop (diagnostic.span.start.column - 1)).take lexeme.length = lexeme
  underlines :
    Text.hasOtherBreak (text.take diagnostic.span.start.offset) = false →
    ∃ row carets distance,
      diagnostic.excerpt line = ["  |", row, carets] ∧
        Underlines row.toList carets.toList lexeme distance ∧
        (distance = 0 ↔ diagnostic.span.start.line < 1000)
  in_front :
    Text.hasOtherBreak (text.take diagnostic.span.start.offset) = true →
    line.toList <:+: text.take diagnostic.span.start.offset

/-- Passing characters without a line feed moves a place along its line. -/
theorem Source.Place.after_of_unbroken
    {run : List Char}
    (unbroken : ∀ c ∈ run, Text.isLineBreak c = false)
    (place : Place) :
    (place.after run).line = place.line ∧
      (place.after run).column = place.column + run.length := by
  induction run generalizing place with
  | nil => exact ⟨rfl, rfl⟩
  | cons c later inductionHypothesis =>
      obtain ⟨noBreak, laterUnbroken⟩ := List.forall_mem_cons.mp unbroken
      have noFeed : c ≠ '\n' := by
        rintro rfl
        cases noBreak
      obtain ⟨line, column⟩ := inductionHypothesis laterUnbroken (place.step c)
      rw [Place.after_cons, line, column, Place.step, if_neg noFeed, List.length_cons]
      exact ⟨rfl, by simp only; omega⟩

/-- As many carets as there are characters, behind as many blanks as there are columns in front. -/
theorem Diagnostic.underlines_excerpt
    {diagnostic : Diagnostic}
    {margin lexeme more : List Char}
    {line : String}
    (shape : line.toList = margin ++ (lexeme ++ more))
    (column : diagnostic.span.start.column = margin.length + 1)
    (sameLine : diagnostic.span.stop.line = diagnostic.span.start.line)
    (stop : diagnostic.span.stop.column = diagnostic.span.start.column + lexeme.length)
    (nonempty : lexeme ≠ []) :
    ∃ row carets distance,
      diagnostic.excerpt line = ["  |", row, carets] ∧
        Underlines row.toList carets.toList lexeme distance ∧
        (distance = 0 ↔ diagnostic.span.start.line < 1000) := by
  have count : diagnostic.caretCount line = lexeme.length := by
    have positive := List.length_pos_iff.mpr nonempty
    simp only [caretCount, sameLine, ↓reduceIte, stop]
    omega
  refine ⟨_, _, (Text.natural diagnostic.span.start.line).length - 3, rfl, ?_, ?_⟩
  · refine ⟨Text.padLeft 3 ' ' (Text.natural diagnostic.span.start.line) ++
      [' ', '|', ' '] ++ margin, more,
      [' ', ' ', ' ', ' ', '|', ' '] ++ List.replicate margin.length ' ', ?_, ?_, ?_, ?_⟩
    · simp [String.toList_append, shape]
    · simp [String.toList_append, count, column]
    · simp
    · simp only [List.length_append, Text.padLeft, List.length_replicate, List.length_cons,
        List.length_nil]
      omega
  · have digits :=
      Nat.length_toDigits_le_iff (b := 10) (n := diagnostic.span.start.line) (k := 3)
        (by decide) (by decide)
    rw [← Text.natural] at digits
    omega

/-- A diagnostic that shows the line of its span marks what stands there. -/
theorem StandsAt.marks
    {text lexeme : List Char}
    {diagnostic : Diagnostic}
    (stands : StandsAt text lexeme diagnostic.span)
    (shows :
      diagnostic.sourceLine =
        (Text.displayLine? text diagnostic.span.start.line).map String.ofList) :
    ∃ line, diagnostic.Marks text lexeme line := by
  obtain ⟨⟨before, behind, shape, start, stop⟩, nonempty, unbroken⟩ := stands
  have front : text.take diagnostic.span.start.offset = before := by
    rw [start, Place.offset_after, shape]
    exact List.take_left' (Nat.zero_add _).symm
  obtain ⟨stopLine, stopColumn⟩ := Place.after_of_unbroken unbroken diagnostic.span.start
  rw [← stop] at stopLine stopColumn
  rw [start] at shows
  cases other : Text.hasOtherBreak before with
  | false =>
      obtain ⟨margin, more, displayed, column⟩ :=
        Text.exists_displayLine?_of_run behind nonempty unbroken other
      rw [← shape] at displayed
      rw [displayed] at shows
      rw [← start] at column
      have toList := String.toList_ofList (l := margin ++ (lexeme ++ more))
      refine ⟨_, shows, fun _ => ?_, fun _ => ?_, fun isOther => ?_⟩
      · rw [toList, column, Nat.add_sub_cancel, List.drop_left, List.take_left]
      · exact Diagnostic.underlines_excerpt toList column stopLine stopColumn nonempty
      · rw [front, other] at isOther
        cases isOther
  | true =>
      obtain ⟨line, displayed, inFront⟩ :=
        Text.exists_displayLine?_in_front behind nonempty unbroken other
      rw [← shape] at displayed
      rw [displayed] at shows
      refine ⟨_, shows, fun noOther => ?_, fun noOther => ?_, fun _ => ?_⟩
      · rw [front, other] at noOther
        cases noOther
      · rw [front, other] at noOther
        cases noOther
      · rw [front, String.toList_ofList]
        exact inFront

/-- A parse error at a token shows the line of the token. -/
theorem Lexed.sourceLine_of_atToken
    {text : List Char}
    {diagnostic : Diagnostic}
    {token : Token}
    (fails : (ofText text).stream.parse (some text) = .error diagnostic)
    (member : token ∈ (ofText text).stream.tokens)
    (atToken : diagnostic.span = token.span) :
    diagnostic.sourceLine =
      (Text.displayLine? text diagnostic.span.start.line).map String.ofList := by
  unfold TokenStream.parse at fails
  split at fails
  · cases fails
  · next failure _ =>
      cases fails
      cases rest : failure.rest with
      | nil =>
          -- The end is no token, for a token takes up room.
          have atEnd : (ofText text).stream.finish = token.span := by
            simpa only [ParseFailure.diagnostic, Problem.diagnostic, ParseFailure.span, rest]
              using atToken
          have sameOffset : token.stopOffset = token.startOffset := by
            rw [Token.stopOffset, Token.startOffset, ← atEnd]
            exact congrArg Place.offset (ofPieces_finish ..)
          have nonempty := ofNamedText_nonempty member
          omega
      | cons next behind =>
          have shows : failure.showsSource = true := by
            cases fault : failure.fault <;> simp [ParseFailure.showsSource, fault, rest]
          simp only [ParseFailure.diagnostic, Problem.diagnostic, shows, if_true,
            Option.bind_some]

/--
Every diagnostic for a stray character of a text shows a line and marks the
character as well as the lines allow, and so does every parse error at a token.
-/
theorem Lexed.marks_of_offending (text : List Char) :
    (∀ diagnostic ∈ (Lexed.ofText text).diagnostics,
        ∃ c line,
          diagnostic.message = (Problem.unexpectedCharacter (String.singleton c)).message ∧
            diagnostic.Marks text [c] line) ∧
      ∀ diagnostic,
        (Lexed.ofText text).stream.parse (some text) = .error diagnostic →
        ∀ token ∈ (Lexed.ofText text).stream.tokens,
          diagnostic.span = token.span →
          ∃ line, diagnostic.Marks text token.lexeme.toList line := by
  constructor
  · intro diagnostic member
    obtain ⟨c, shape, stands⟩ := standsAt_of_diagnostic member
    have shows := congrArg Diagnostic.sourceLine shape
    obtain ⟨line, marks⟩ := stands.marks shows
    exact ⟨c, line, congrArg Diagnostic.message shape, marks⟩
  · intro diagnostic fails token member atToken
    have stands := standsAt_of_token member
    rw [← atToken] at stands
    exact stands.marks (sourceLine_of_atToken fails member atToken)

/--
Behind a lone carriage return the line of the character before it is shown, and
from line 1000 on the carets do not stand below what they are about.
-/
theorem Lexed.carets_beside_stray :
    ((Lexed.ofText ['1', ' ', '+', '\r', '#']).diagnostics.map fun diagnostic =>
        (diagnostic.code, diagnostic.span.start.column, diagnostic.sourceLine)) =
        [("E001", 5, some "1 +")] ∧
      ("1 +".toList.drop (5 - 1)).take 1 ≠ ['#'] ∧
      ((Lexed.ofText (List.replicate 999 '\n' ++ ['#'])).diagnostics.map fun diagnostic =>
        (diagnostic.sourceLine, diagnostic.excerpt "#")) =
        [(some "#", ["  |", "1000 | #", "    | ^"])] := by
  decide +kernel

end PlanarExpr
