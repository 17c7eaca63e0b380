import Mathlib.Data.List.Basic
import PlanarExpr.Proofs.CutTexts
import PlanarExpr.Proofs.LongestLexemes

namespace PlanarExpr

/-!
# What becomes of the characters of a text

Every character of a text is a blank, lies in one token, or is stray and has a
diagnostic of its own. As long as the error limit is not reached, the tokens
and diagnostics are read off the pieces of the text one by one, each at the
place where its piece starts; so what holds of the places of the pieces holds
of the tokens and diagnostics together.
-/

open Source

/-- Whether a character is no blank and stands in no lexeme. -/
def isStray (c : Char) : Bool :=
  !(Text.isBlank c || isNameCharacter c || (punctuation? c).isSome)

namespace Source.Span

/-- One span ends before the other one starts, or where it does. -/
def IsBefore (first second : Span) : Prop :=
  first.stop.offset ≤ second.start.offset

/-- An offset lies in a span. -/
def Holds
    (span : Span)
    (offset : Nat) :
    Prop :=
  span.start.offset ≤ offset ∧ offset < span.stop.offset

end Source.Span

/-! ## Pieces and their characters -/

/-- No blank is stray. -/
theorem isStray_of_isBlank
    {c : Char}
    (blank : Text.isBlank c = true) :
    isStray c = false := by
  simp [isStray, blank]

/-- No character of a lexeme is stray. -/
theorem Lexeme.isStray_of_mem
    {lexeme : Lexeme}
    {c : Char}
    (member : c ∈ lexeme.characters) :
    isStray c = false := by
  rcases lexeme.isNameCharacter_or_mark_of_mem member with named | ⟨symbol, rfl⟩
  · simp [isStray, named]
  · cases symbol <;> rfl

namespace Piece

/-- The first piece of a text is stray exactly if its first character is. -/
theorem isStray_of_split
    {c : Char}
    {rest : List Char}
    (stray : split c rest = (.stray c, rest)) :
    isStray c = true := by
  unfold split at stray
  split at stray
  · cases stray
  · next noBlank =>
      split at stray
      · cases stray
      · next noDigit =>
          split at stray
          · cases stray
          · next noStart =>
              split at stray
              · cases stray
              · next noMark => simp [isStray, noBlank, isNameCharacter, noStart, noDigit, noMark]

/-- A piece with the place at which it starts. -/
structure Placed where
  start : Place
  piece : Piece

/-- Pieces one behind the other, the first one at the given place. -/
def placedFrom
    (place : Place) :
    List Piece →
    List Placed
  | [] => []
  | piece :: rest =>
      { start := place, piece := piece } ::
        placedFrom (place.after piece.characters) rest

namespace Placed

/-- The span of a placed piece. -/
def span
    (placed : Placed)
    (file : String) :
    Span :=
  { start := placed.start, stop := placed.start.after placed.piece.characters, file := file }

/-- The token that a placed piece makes, if it makes one. -/
def token?
    (file : String)
    (placed : Placed) :
    Option Token :=
  match placed.piece with
  | .token kind lexeme =>
      some { kind := kind, lexeme := String.ofList lexeme, span := placed.span file }
  | _ => none

/-- The diagnostic that a placed piece makes, if it is a stray character. -/
def diagnostic?
    (text : List Char)
    (file : String)
    (placed : Placed) :
    Option Diagnostic :=
  match placed.piece with
  | .stray c =>
      some
        ((Problem.unexpectedCharacter (String.singleton c)).diagnostic (placed.span file)
          ((Text.displayLine? text placed.start.line).map String.ofList))
  | _ => none

/-- The token of a piece has the span of the piece. -/
theorem span_of_token?
    {file : String}
    {placed : Placed}
    {token : Token}
    (isToken : placed.token? file = some token) :
    token.span = placed.span file := by
  unfold token? at isToken
  split at isToken <;> cases isToken
  rfl

/-- The diagnostic of a piece has the span of the piece. -/
theorem span_of_diagnostic?
    {text : List Char}
    {file : String}
    {placed : Placed}
    {diagnostic : Diagnostic}
    (isStray : placed.diagnostic? text file = some diagnostic) :
    diagnostic.span = placed.span file := by
  unfold diagnostic? at isStray
  split at isStray <;> cases isStray
  rfl

/-- A diagnostic is about a single stray character. -/
theorem stray_of_diagnostic?
    {text : List Char}
    {file : String}
    {placed : Placed}
    {diagnostic : Diagnostic}
    (isStray : placed.diagnostic? text file = some diagnostic) :
    diagnostic.code = "E001" ∧
      diagnostic.span.stop.offset = diagnostic.span.start.offset + 1 := by
  have spans := span_of_diagnostic? isStray
  unfold diagnostic? at isStray
  split at isStray
  · next c shape =>
      cases isStray
      refine ⟨rfl, ?_⟩
      rw [spans, span, shape, Place.offset_after]
      rfl
  · cases isStray

/-- Every stray character makes a diagnostic. -/
theorem exists_diagnostic?_of_stray
    (text : List Char)
    (file : String)
    {placed : Placed}
    {c : Char}
    (stray : placed.piece = .stray c) :
    ∃ diagnostic, placed.diagnostic? text file = some diagnostic := by
  rw [diagnostic?, stray]
  exact ⟨_, rfl⟩

/-- A piece that makes a token makes no diagnostic. -/
theorem diagnostic?_of_token?
    {text : List Char}
    {file : String}
    {placed : Placed}
    {token : Token}
    (isToken : placed.token? file = some token) :
    placed.diagnostic? text file = none := by
  unfold token? at isToken
  split at isToken
  · next shape => rw [diagnostic?, shape]
  · cases isToken

end Placed

/-- The pieces stand one behind the other, none of them before the given place. -/
theorem placedFrom_inOrder
    (file : String)
    (place : Place)
    (pieces : List Piece) :
    (∀ placed ∈ placedFrom place pieces, place.offset ≤ placed.start.offset) ∧
      (placedFrom place pieces).Pairwise fun first second =>
        (first.span file).IsBefore (second.span file) := by
  induction pieces generalizing place with
  | nil => exact ⟨List.forall_mem_nil _, .nil⟩
  | cons piece rest inductionHypothesis =>
      obtain ⟨behind, inOrder⟩ := inductionHypothesis (place.after piece.characters)
      refine ⟨List.forall_mem_cons.mpr ⟨Nat.le_refl _, ?_⟩, List.pairwise_cons.mpr ⟨behind, inOrder⟩⟩
      intro placed member
      have notBefore := behind placed member
      rw [Place.offset_after] at notBefore
      omega

/-- Every offset in the characters of some pieces lies in one of them. -/
theorem exists_placed_holding
    (file : String)
    {place : Place}
    {pieces : List Piece}
    {offset : Nat}
    (notBefore : place.offset ≤ offset)
    (notBehind : offset < place.offset + (pieces.flatMap characters).length) :
    ∃ placed ∈ placedFrom place pieces, (placed.span file).Holds offset := by
  induction pieces generalizing place with
  | nil =>
      simp only [List.flatMap_nil, List.length_nil] at notBehind
      omega
  | cons piece rest inductionHypothesis =>
      have stop := Place.offset_after place piece.characters
      rw [List.flatMap_cons, List.length_append] at notBehind
      by_cases here : offset < place.offset + piece.characters.length
      · refine ⟨_, List.mem_cons_self, notBefore, ?_⟩
        simp only [Placed.span, stop]
        exact here
      · obtain ⟨placed, member, holds⟩ :=
          @inductionHypothesis (place.after piece.characters) (by omega) (by omega)
        exact ⟨placed, List.mem_cons_of_mem _ member, holds⟩

/-- A placed piece is the first one of what the text has from its place on. -/
theorem exists_split_of_placed
    {budget : Nat}
    {place : Place}
    {text : List Char}
    {placed : Placed}
    (member : placed ∈ placedFrom place (firstPieces budget text)) :
    ∃ before c rest,
      text = before ++ c :: rest ∧
        placed.start = place.after before ∧ placed.piece = (split c rest).1 := by
  induction budget generalizing place text with
  | zero => cases member
  | succ budget inductionHypothesis =>
      cases text with
      | nil => cases member
      | cons c rest =>
          have whole := characters_split_append c rest
          rw [firstPieces, placedFrom] at member
          rcases List.mem_cons.mp member with isFirst | later
          · subst isFirst
            exact ⟨[], c, rest, rfl, rfl, rfl⟩
          · obtain ⟨before, c', rest', shape, starts, first⟩ := inductionHypothesis later
            refine ⟨(split c rest).1.characters ++ before, c', rest', ?_, ?_, first⟩
            · rw [← whole, shape, List.append_assoc]
            · rw [starts, Place.after_append]

/-- The diagnostics of the pieces of a text start at its stray characters. -/
theorem starts_of_diagnostics
    (whole : List Char)
    (file : String)
    {budget : Nat}
    {place : Place}
    {text : List Char}
    (enough : text.length ≤ budget) :
    ((placedFrom place (firstPieces budget text)).filterMap
        (Placed.diagnostic? whole file)).map (·.span.start.offset) =
      text.findIdxs isStray place.offset := by
  induction budget generalizing place text with
  | zero =>
      rw [List.length_eq_zero_iff.mp (Nat.le_zero.mp enough)]
      rfl
  | succ budget inductionHypothesis =>
      cases text with
      | nil => rfl
      | cons c rest =>
          have parts := characters_split_append c rest
          have fits := Nat.le_trans (length_split_le c rest) (Nat.le_of_succ_le_succ enough)
          have later :=
            @inductionHypothesis (place.after (split c rest).1.characters) _ fits
          rw [Place.offset_after] at later
          rw [firstPieces, placedFrom, List.filterMap_cons, ← parts, List.findIdxs_append, ← later]
          rcases split_cases c rest with
            ⟨isBlank, blank⟩ | ⟨lexeme, behind, isToken, -⟩ | isStray
          · rw [isBlank]
            simp [Placed.diagnostic?, characters, isStray_of_isBlank blank]
          · have noStray : lexeme.characters.findIdxs isStray place.offset = [] :=
              List.findIdxs_eq_nil_iff.mpr fun _ member => lexeme.isStray_of_mem member
            rw [isToken]
            simp [Placed.diagnostic?, characters, Lexeme.piece, noStray]
          · rw [isStray]
            simp [Placed.diagnostic?, characters, isStray_of_split isStray,
              Problem.diagnostic, Placed.span]

end Piece

/-! ## Tokens and diagnostics -/

namespace Lexed

/-- Below the error limit, tokens and diagnostics are read off the pieces one by one. -/
theorem ofPieces_eq_of_few
    {text : List Char}
    {file : String}
    {allowed : Nat}
    {place : Place}
    {pieces : List Piece}
    (few :
      ((Piece.placedFrom place pieces).filterMap
        (Piece.Placed.diagnostic? text file)).length < allowed) :
    ofPieces text file allowed place pieces =
      let finish := place.after (pieces.flatMap Piece.characters)
      {
        stream := {
          tokens :=
            (Piece.placedFrom place pieces).filterMap (Piece.Placed.token? file)
          finish := { start := finish, stop := finish, file := file }
        }
        diagnostics :=
          (Piece.placedFrom place pieces).filterMap (Piece.Placed.diagnostic? text file)
      } := by
  induction pieces generalizing allowed place with
  | nil =>
      cases allowed with
      | zero => cases few
      | succ allowed => rfl
  | cons piece rest inductionHypothesis =>
      cases allowed with
      | zero => cases few
      | succ allowed =>
          rw [List.flatMap_cons, Place.after_append]
          cases piece with
          | blank c => exact inductionHypothesis few
          | token kind lexeme =>
              have later := @inductionHypothesis (allowed + 1) _ few
              rw [ofPieces, later]
              rfl
          | stray c =>
              have later := inductionHypothesis (Nat.lt_of_succ_lt_succ few)
              rw [ofPieces, later]
              rfl

/--
The tokens and the diagnostics of a text tile it. They stand in order and side
by side, and all that they leave out is blank. Every token is the longest
lexeme at its start, and every stray character has one diagnostic of its own.
The end stands behind the whole text.
-/
structure Tiles
    (lexed : Lexed)
    (text : List Char) :
    Prop where
  tokens_inOrder :
    lexed.stream.tokens.Pairwise fun first second => first.span.IsBefore second.span
  diagnostics_inOrder :
    lexed.diagnostics.Pairwise fun first second => first.span.IsBefore second.span
  apart :
    ∀ token ∈ lexed.stream.tokens, ∀ diagnostic ∈ lexed.diagnostics,
      token.span.IsBefore diagnostic.span ∨ diagnostic.span.IsBefore token.span
  blank_between :
    ∀ offset c,
      text[offset]? = some c →
      (∀ token ∈ lexed.stream.tokens, ¬token.span.Holds offset) →
      (∀ diagnostic ∈ lexed.diagnostics, ¬diagnostic.span.Holds offset) →
        Text.isBlank c = true
  nonempty :
    ∀ token ∈ lexed.stream.tokens, token.startOffset < token.stopOffset
  slice :
    ∀ token ∈ lexed.stream.tokens,
      Text.slice text token.startOffset token.stopOffset = token.lexeme.toList
  longest :
    ∀ token ∈ lexed.stream.tokens, ∃ lexeme : Lexeme,
      token.kind = lexeme.kind ∧
        token.lexeme.toList = lexeme.characters ∧
        lexeme.IsLongestOf (text.drop token.startOffset)
  strays :
    lexed.diagnostics.map (·.span.start.offset) = text.findIdxs isStray
  stray_length :
    ∀ diagnostic ∈ lexed.diagnostics,
      diagnostic.code = "E001" ∧
        diagnostic.span.stop.offset = diagnostic.span.start.offset + 1
  ending :
    ∃ front,
      lexed.stream.entries =
          front ++ [{ text := "EOF", lexeme := "", span := lexed.stream.finish }] ∧
        ∀ entry ∈ front, entry.text ≠ "EOF"
  finish_start : lexed.stream.finish.start.offset = text.length
  finish_stop : lexed.stream.finish.stop.offset = text.length

/-- The pieces of a text, each at its place. -/
def placedPieces (text : List Char) : List Piece.Placed :=
  Piece.placedFrom Place.start (Piece.pieces text)

/-- The tokens of a text, as if there were no error limit. -/
def placedTokens
    (text : List Char)
    (file : String) :
    List Token :=
  (placedPieces text).filterMap (Piece.Placed.token? file)

/-- The diagnostics of a text, as if there were no error limit. -/
def placedDiagnostics
    (text : List Char)
    (file : String) :
    List Diagnostic :=
  (placedPieces text).filterMap (Piece.Placed.diagnostic? text file)

section

variable
  {text : List Char}
  {file : String}

/-- A token comes from a piece, and has its span. -/
theorem exists_placed_of_token
    {token : Token}
    (member : token ∈ placedTokens text file) :
    ∃ placed ∈ placedPieces text,
      placed.token? file = some token ∧ token.span = placed.span file := by
  obtain ⟨placed, placedMember, isToken⟩ := List.mem_filterMap.mp member
  exact ⟨placed, placedMember, isToken, Piece.Placed.span_of_token? isToken⟩

/-- A diagnostic comes from a piece, and has its span. -/
theorem exists_placed_of_diagnostic
    {diagnostic : Diagnostic}
    (member : diagnostic ∈ placedDiagnostics text file) :
    ∃ placed ∈ placedPieces text,
      placed.diagnostic? text file = some diagnostic ∧ diagnostic.span = placed.span file := by
  obtain ⟨placed, placedMember, isStray⟩ := List.mem_filterMap.mp member
  exact ⟨placed, placedMember, isStray, Piece.Placed.span_of_diagnostic? isStray⟩

/-- The pieces of a text stand one behind the other. -/
theorem placedPieces_inOrder (text : List Char) (file : String) :
    (placedPieces text).Pairwise fun first second =>
      (first.span file).IsBefore (second.span file) :=
  (Piece.placedFrom_inOrder file Place.start (Piece.pieces text)).2

/-- The diagnostics of a text stand one behind the other. -/
theorem placedDiagnostics_inOrder (text : List Char) (file : String) :
    (placedDiagnostics text file).Pairwise fun first second =>
      first.span.IsBefore second.span := by
  apply (placedPieces_inOrder text file).filterMap
  intro first second before diagnostic isStray diagnostic' isStray'
  rwa [Piece.Placed.span_of_diagnostic? isStray, Piece.Placed.span_of_diagnostic? isStray']

/-- A token and a diagnostic come from two pieces, one of which stands before the other. -/
theorem placed_apart
    {token : Token}
    {diagnostic : Diagnostic}
    (tokenMember : token ∈ placedTokens text file)
    (diagnosticMember : diagnostic ∈ placedDiagnostics text file) :
    token.span.IsBefore diagnostic.span ∨ diagnostic.span.IsBefore token.span := by
  obtain ⟨first, firstMember, isToken, tokenSpan⟩ := exists_placed_of_token tokenMember
  obtain ⟨second, secondMember, isStray, diagnosticSpan⟩ :=
    exists_placed_of_diagnostic diagnosticMember
  rw [tokenSpan, diagnosticSpan]
  rcases eq_or_related_of_pairwise (placedPieces_inOrder text file) firstMember secondMember with
    same | before | behind
  · subst same
    rw [Piece.Placed.diagnostic?_of_token? isToken] at isStray
    cases isStray
  · exact .inl before
  · exact .inr behind

/-- Diagnostics start at the stray characters of a text. -/
theorem placedDiagnostics_starts (text : List Char) (file : String) :
    (placedDiagnostics text file).map (·.span.start.offset) = text.findIdxs isStray :=
  Piece.starts_of_diagnostics text file (Nat.le_refl text.length)

/-- There is one diagnostic for each stray character. -/
theorem length_placedDiagnostics (text : List Char) (file : String) :
    (placedDiagnostics text file).length = text.countP isStray := by
  have count := congrArg List.length (placedDiagnostics_starts text file)
  rwa [List.length_map, List.length_findIdxs] at count

/-- Below the error limit, a text is split as if there were no limit. -/
theorem ofNamedText_eq_of_few
    {errorLimit : Int}
    (few : (text.countP isStray : Int) < errorLimit) :
    ofNamedText text file errorLimit =
      {
        stream := {
          tokens := placedTokens text file
          finish :=
            { start := Place.start.after text, stop := Place.start.after text, file := file }
        }
        diagnostics := placedDiagnostics text file
      } := by
  have fewDiagnostics : (placedDiagnostics text file).length < errorLimit.toNat := by
    rw [length_placedDiagnostics]
    omega
  rw [ofNamedText, ofPieces_eq_of_few fewDiagnostics, Piece.flatMap_pieces]
  rfl

/-- Every character of a text lies in one of its pieces. -/
theorem exists_placed_of_getElem?
    (file : String)
    {offset : Nat}
    {c : Char}
    (found : text[offset]? = some c) :
    ∃ placed ∈ placedPieces text, (placed.span file).Holds offset := by
  obtain ⟨inside, -⟩ := List.getElem?_eq_some_iff.mp found
  apply Piece.exists_placed_holding file (Nat.zero_le _)
  rw [Piece.flatMap_pieces]
  exact Nat.lt_of_lt_of_eq inside (Nat.zero_add _).symm

/-- The character at an offset that lies in a blank piece is that blank. -/
theorem blank_of_placed
    {placed : Piece.Placed}
    (member : placed ∈ placedPieces text)
    {blank : Char}
    (isBlank : placed.piece = .blank blank)
    {offset : Nat}
    {c : Char}
    (holds : (placed.span file).Holds offset)
    (found : text[offset]? = some c) :
    Text.isBlank c = true := by
  obtain ⟨before, first, rest, shape, starts, isFirst⟩ :=
    Piece.exists_split_of_placed member
  have startOffset : placed.start.offset = before.length := by
    rw [starts, Place.offset_after]
    exact Nat.zero_add _
  have stopOffset : (placed.span file).stop.offset = before.length + 1 := by
    simp only [Piece.Placed.span, isBlank, Place.offset_after, startOffset, Piece.characters]
    rfl
  obtain ⟨notBefore, notBehind⟩ := holds
  have here : offset = before.length := by
    simp only [Piece.Placed.span, startOffset] at notBefore
    omega
  rw [here, shape, List.getElem?_append_right (Nat.le_refl _), Nat.sub_self] at found
  have sameCharacter : first = c := Option.some.inj found
  subst sameCharacter
  rw [isBlank] at isFirst
  rcases Piece.split_cases first rest with
    ⟨_, blankFirst⟩ | ⟨lexeme, behind, isToken, -⟩ | isStray
  · exact blankFirst
  · rw [isToken] at isFirst
    cases isFirst
  · rw [isStray] at isFirst
    cases isFirst

/-- A character outside of all tokens and diagnostics is blank. -/
theorem blank_of_uncovered
    {offset : Nat}
    {c : Char}
    (found : text[offset]? = some c)
    (noToken : ∀ token ∈ placedTokens text file, ¬token.span.Holds offset)
    (noDiagnostic : ∀ diagnostic ∈ placedDiagnostics text file, ¬diagnostic.span.Holds offset) :
    Text.isBlank c = true := by
  obtain ⟨placed, member, holds⟩ := exists_placed_of_getElem? file found
  cases shape : placed.piece with
  | blank blank => exact blank_of_placed member shape holds found
  | token kind lexeme =>
      have isToken :
          placed.token? file =
            some { kind := kind, lexeme := String.ofList lexeme, span := placed.span file } := by
        rw [Piece.Placed.token?, shape]
      exact absurd holds (noToken _ (List.mem_filterMap.mpr ⟨placed, member, isToken⟩))
  | stray stray =>
      obtain ⟨diagnostic, isStray⟩ := Piece.Placed.exists_diagnostic?_of_stray text file shape
      rw [← Piece.Placed.span_of_diagnostic? isStray] at holds
      exact absurd holds (noDiagnostic _ (List.mem_filterMap.mpr ⟨placed, member, isStray⟩))

/-- A token is the longest lexeme that the text has from the start of the token on. -/
theorem longest_of_placed
    {placed : Piece.Placed}
    (member : placed ∈ placedPieces text)
    {token : Token}
    (isToken : placed.token? file = some token) :
    ∃ lexeme : Lexeme,
      token.kind = lexeme.kind ∧
        token.lexeme.toList = lexeme.characters ∧
        lexeme.IsLongestOf (text.drop token.startOffset) := by
  obtain ⟨before, first, rest, shape, starts, isFirst⟩ :=
    Piece.exists_split_of_placed member
  have startOffset : token.startOffset = before.length := by
    rw [Token.startOffset, Piece.Placed.span_of_token? isToken, Piece.Placed.span, starts,
      Place.offset_after]
    exact Nat.zero_add _
  have behindStart : text.drop token.startOffset = first :: rest := by
    rw [startOffset, shape, List.drop_left]
  rcases Piece.split_cases first rest with
    ⟨isBlank, _⟩ | ⟨lexeme, behind, isLexeme, ends⟩ | isStray
  · rw [isBlank] at isFirst
    rw [Piece.Placed.token?, isFirst] at isToken
    cases isToken
  · have whole := Piece.characters_split_append first rest
    rw [isLexeme] at isFirst whole
    rw [Piece.Placed.token?, isFirst] at isToken
    cases isToken
    rw [behindStart, ← whole]
    exact ⟨lexeme, rfl, String.toList_ofList, ends.isLongestOf⟩
  · rw [isStray] at isFirst
    rw [Piece.Placed.token?, isFirst] at isToken
    cases isToken

end

/-- No token is listed like the end. -/
theorem text_ne_of_mem
    {stream : TokenStream}
    {entry : TokenEntry}
    (member :
      entry ∈ stream.tokens.map fun token =>
        { text := token.text, lexeme := token.lexeme, span := token.span : TokenEntry }) :
    entry.text ≠ "EOF" := by
  obtain ⟨⟨kind, lexeme, span⟩, -, rfl⟩ := List.mem_map.mp member
  intro same
  have first := congrArg (fun text => text.toList.head?) same
  cases kind <;> simp [Token.text, Token.Kind.label] at first

/--
Tokens, stray characters and blanks tile a text, NUL characters included, as
long as it has fewer stray characters than the error limit.
-/
theorem ofNamedText_tiles
    (text : List Char)
    (file : String)
    {errorLimit : Int}
    (few : (text.countP isStray : Int) < errorLimit) :
    (ofNamedText text file errorLimit).Tiles text := by
  have fewDiagnostics : (placedDiagnostics text file).length < errorLimit.toNat := by
    rw [length_placedDiagnostics]
    omega
  have lexed := ofPieces_eq_of_few fewDiagnostics
  have tokens : (ofNamedText text file errorLimit).stream.tokens = placedTokens text file :=
    congrArg (·.stream.tokens) lexed
  have diagnostics :
      (ofNamedText text file errorLimit).diagnostics = placedDiagnostics text file :=
    congrArg (·.diagnostics) lexed
  have finish :
      (ofNamedText text file errorLimit).stream.finish =
        { start := Place.start.after text, stop := Place.start.after text, file := file } := by
    rw [ofNamedText, lexed, Piece.flatMap_pieces]
  exact {
    tokens_inOrder := ofNamedText_pairwise text file errorLimit
    diagnostics_inOrder := by
      rw [diagnostics]
      exact placedDiagnostics_inOrder text file
    apart := by
      rw [tokens, diagnostics]
      exact fun _ tokenMember _ diagnosticMember => placed_apart tokenMember diagnosticMember
    blank_between := by
      rw [tokens, diagnostics]
      exact fun _ _ => blank_of_uncovered
    nonempty := fun _ member => ofNamedText_nonempty member
    slice := by
      intro token member
      rw [Text.slice_ofNat text _ (stopOffset_le member), stopOffset_eq member,
        Nat.add_sub_cancel_left]
      exact (List.prefix_iff_eq_take.mp (lexeme_isPrefix member)).symm
    longest := by
      rw [tokens]
      intro token member
      obtain ⟨placed, placedMember, isToken, -⟩ := exists_placed_of_token member
      exact longest_of_placed placedMember isToken
    strays := by
      rw [diagnostics]
      exact placedDiagnostics_starts text file
    stray_length := by
      rw [diagnostics]
      intro diagnostic member
      obtain ⟨placed, -, isStray, -⟩ := exists_placed_of_diagnostic member
      exact Piece.Placed.stray_of_diagnostic? isStray
    ending := ⟨_, rfl, fun _ member => text_ne_of_mem member⟩
    finish_start := by
      rw [finish, Place.offset_after]
      exact Nat.zero_add _
    finish_stop := by
      rw [finish, Place.offset_after]
      exact Nat.zero_add _
  }

/-- A point without a digit behind it, two stray characters, and a name that touches a number. -/
theorem ofNamedText_tiles_nul :
    let text := ['1', '.', '\x00', '2', 'a', ' ', '?', '(']
    (text.countP isStray : Int) < 3 ∧ (ofNamedText text "" 3).Tiles text :=
  ⟨by decide, ofNamedText_tiles _ "" (by decide)⟩

end Lexed

end PlanarExpr
