import PlanarExpr.Proofs.Lexeme

namespace PlanarExpr

/-!
# Splitting a written text

Splitting a text that was written from lexemes gives the lexemes back, each at
the place where it was written. What stands behind a lexeme never belongs to
it: either a blank does, or a lexeme that it does not run into.
-/

/-- The first character of a text, if there is one, is not of the given class. -/
def StartsOutside
    (belongs : Char → Bool)
    (text : List Char) :
    Prop :=
  ∀ c ∈ text.head?, belongs c = false

/-- A run of characters of a class is what is taken and dropped in front of other text. -/
theorem span_append_of_startsOutside
    {belongs : Char → Bool}
    {run rest : List Char}
    (inside : ∀ c ∈ run, belongs c = true)
    (outside : StartsOutside belongs rest) :
    (run ++ rest).takeWhile belongs = run ∧
      (run ++ rest).dropWhile belongs = rest := by
  rw [List.takeWhile_append_of_pos inside, List.dropWhile_append_of_pos inside]
  cases rest with
  | nil =>
      simp
  | cons c later =>
      have cOutside : belongs c = false := outside c rfl
      simp [cOutside]

namespace Lexeme

/-- What stands behind a lexeme does not belong to it. -/
def Ends : Lexeme → List Char → Prop
  | .whole _, rest =>
      StartsOutside Decimal.isDigit rest ∧
        ∀ digit later,
          rest = '.' :: digit :: later → Decimal.isDigit digit = false
  | .decimal _ _, rest => StartsOutside Decimal.isDigit rest
  | .word _, rest => StartsOutside isNameCharacter rest
  | .mark _, _ => True

/-- The piece that a lexeme makes. -/
def piece (lexeme : Lexeme) : Piece :=
  .token lexeme.kind lexeme.characters

/-- The longest number in front of other text, where a whole number ends. -/
theorem splitNumber_whole
    {digits : Digits}
    {rest : List Char}
    (ends : (Lexeme.whole digits).Ends rest) :
    Piece.splitNumber (digits.characters ++ rest) = (digits.characters, rest) := by
  obtain ⟨outside, noFraction⟩ := ends
  obtain ⟨taken, dropped⟩ :=
    span_append_of_startsOutside digits.digits outside
  unfold Piece.splitNumber
  rw [taken, dropped]
  split
  · next digit later =>
      rw [noFraction digit later rfl]
      rfl
  · rfl

/-- The longest number in front of other text, where a decimal one ends. -/
theorem splitNumber_decimal
    {digits fraction : Digits}
    {rest : List Char}
    (ends : (Lexeme.decimal digits fraction).Ends rest) :
    Piece.splitNumber (digits.characters ++ '.' :: (fraction.characters ++ rest)) =
      (digits.characters ++ '.' :: fraction.characters, rest) := by
  have pointOutside :
      StartsOutside Decimal.isDigit ('.' :: (fraction.characters ++ rest)) := by
    rintro c head
    cases head
    rfl
  obtain ⟨wholeTaken, wholeDropped⟩ :=
    span_append_of_startsOutside digits.digits pointOutside
  obtain ⟨fractionTaken, fractionDropped⟩ :=
    span_append_of_startsOutside fraction.digits ends
  obtain ⟨first, later, shape, firstDigit⟩ := fraction.exists_first
  rw [shape, List.cons_append] at wholeTaken wholeDropped
  rw [shape, List.cons_append] at fractionTaken fractionDropped
  rw [shape, List.cons_append]
  unfold Piece.splitNumber
  rw [wholeTaken, wholeDropped]
  simp only [firstDigit, ↓reduceIte, fractionTaken, fractionDropped]

/-- A lexeme in front of text that does not belong to it is the first piece. -/
theorem split_append
    (lexeme : Lexeme)
    {rest : List Char}
    (ends : lexeme.Ends rest) :
    ∃ c later,
      lexeme.characters = c :: later ∧
        Piece.split c (later ++ rest) = (lexeme.piece, rest) := by
  cases lexeme with
  | whole digits =>
      obtain ⟨c, later, shape, digit⟩ := digits.exists_first
      have noBlank : Text.isBlank c = false :=
        isBlank_of_isNameCharacter (isNameCharacter_of_isDigit digit)
      have number := splitNumber_whole ends
      rw [shape, List.cons_append] at number
      refine ⟨c, later, shape, ?_⟩
      simp [Piece.split, noBlank, digit, number, piece, kind, characters, shape]
  | decimal digits fraction =>
      obtain ⟨c, later, shape, digit⟩ := digits.exists_first
      have noBlank : Text.isBlank c = false :=
        isBlank_of_isNameCharacter (isNameCharacter_of_isDigit digit)
      have number := splitNumber_decimal ends
      rw [shape, List.cons_append] at number
      refine ⟨c, later ++ '.' :: fraction.characters, ?_, ?_⟩
      · simp [characters, shape]
      · simp [Piece.split, noBlank, digit, number, piece, kind, characters, shape]
  | word letters =>
      have named : isNameCharacter letters.first = true :=
        isNameCharacter_of_isNameStart letters.starts
      have noBlank : Text.isBlank letters.first = false :=
        isBlank_of_isNameCharacter named
      have noDigit := isDigit_of_isNameStart letters.starts
      have inside : ∀ c ∈ letters.first :: letters.rest, isNameCharacter c = true :=
        List.forall_mem_cons.mpr ⟨named, letters.continues⟩
      obtain ⟨taken, dropped⟩ := span_append_of_startsOutside inside ends
      rw [List.cons_append] at taken dropped
      refine ⟨letters.first, letters.rest, rfl, ?_⟩
      simp [Piece.split, noBlank, noDigit, letters.starts, taken, dropped, piece,
        kind, characters, wordKind]
  | mark symbol =>
      refine ⟨symbol.character, [], rfl, ?_⟩
      cases symbol <;> rfl

end Lexeme

/-! ## Where lexemes end -/

/-- What starts with no character of a name starts with no digit. -/
theorem StartsOutside.digits
    {text : List Char}
    (outside : StartsOutside isNameCharacter text) :
    StartsOutside Decimal.isDigit text := by
  intro c head
  have noName := outside c head
  rw [isNameCharacter, Bool.or_eq_false_iff] at noName
  exact noName.2

/-- A text that starts with a blank starts with no character of a name. -/
theorem Blanks.startsOutside_append
    {gap : Blanks}
    (text : List Char)
    (nonempty : gap.characters ≠ []) :
    StartsOutside isNameCharacter (gap.characters ++ text) := by
  obtain ⟨blank, later, shape⟩ := List.exists_cons_of_ne_nil nonempty
  rw [shape, List.cons_append]
  rintro c head
  cases head
  rw [Bool.eq_false_iff]
  intro named
  have isBlank := gap.blank blank (by simp [shape])
  rw [isBlank_of_isNameCharacter named] at isBlank
  cases isBlank

namespace SpacedLexemes

/-- Lexemes that do not start with a number do not start with a digit. -/
theorem startsOutside_of_startsWithNumber
    {items : SpacedLexemes}
    (noNumber : startsWithNumber items = false) :
    StartsOutside Decimal.isDigit (characters items) := by
  rcases items with _ | ⟨⟨lexeme, gap⟩, rest⟩
  · rintro c head
    cases head
  · cases lexeme with
    | whole digits =>
        cases noNumber
    | decimal digits fraction =>
        cases noNumber
    | word letters =>
        rintro c head
        cases head
        exact isDigit_of_isNameStart letters.starts
    | mark symbol =>
        rintro c head
        cases head
        cases symbol <;> rfl

/-- A number absorbs every number that touches it. -/
theorem startsWithNumber_of_absorbs
    {lexeme : Lexeme}
    {items : SpacedLexemes}
    (number : lexeme.isNumber = true)
    (apart : absorbs lexeme items = false) :
    startsWithNumber items = false := by
  rcases items with _ | ⟨⟨next, gap⟩, rest⟩
  · rfl
  · simp only [absorbs, Bool.or_eq_false_iff, number, Bool.true_and] at apart
    exact apart.1.2

/-- The digit behind a point does not belong to the whole number in front of it. -/
theorem isDigit_of_absorbs_whole
    {digits : Digits}
    {items : SpacedLexemes}
    {digit : Char}
    {later : List Char}
    (apart : absorbs (.whole digits) items = false)
    (shape : characters items = '.' :: digit :: later) :
    Decimal.isDigit digit = false := by
  have isNumber : (Lexeme.whole digits).isNumber = true := rfl
  have noNumber := startsWithNumber_of_absorbs isNumber apart
  rcases items with _ | ⟨⟨next, gap⟩, rest⟩
  · cases shape
  · cases next with
    | whole digits =>
        cases noNumber
    | decimal digits fraction =>
        cases noNumber
    | word letters =>
        have point : letters.first = '.' := (List.cons.inj shape).1
        have starts := letters.starts
        rw [point] at starts
        cases starts
    | mark symbol =>
        obtain ⟨point, behind⟩ := List.cons.inj shape
        have isDot : symbol = .dot := by
          cases symbol <;> first | rfl | cases point
        subst isDot
        have outside :
            StartsOutside Decimal.isDigit (gap.characters ++ characters rest) := by
          by_cases empty : gap.characters = []
          · have noFraction : startsWithNumber rest = false := by
              simpa [absorbs, Lexeme.isWord, Lexeme.isNumber, Lexeme.isWhole,
                empty] using apart
            rw [empty, List.nil_append]
            exact startsOutside_of_startsWithNumber noFraction
          · exact (Blanks.startsOutside_append _ empty).digits
        apply outside
        rw [show gap.characters ++ characters rest = digit :: later from behind]
        rfl

/-- A word ends in front of what it does not absorb. -/
theorem startsOutside_of_absorbs_word
    {letters : Word}
    {items : SpacedLexemes}
    (apart : absorbs (.word letters) items = false) :
    StartsOutside isNameCharacter (characters items) := by
  rcases items with _ | ⟨⟨next, gap⟩, rest⟩
  · rintro c head
    cases head
  · cases next with
    | whole digits =>
        cases apart
    | decimal digits fraction =>
        cases apart
    | word letters =>
        cases apart
    | mark symbol =>
        rintro c head
        cases head
        cases symbol <;> rfl

/-- A lexeme ends in front of blanks and in front of what it does not absorb. -/
theorem ends_of_parted
    {lexeme : Lexeme}
    {gap : Blanks}
    {rest : SpacedLexemes}
    (apart : gap.characters = [] → absorbs lexeme rest = false) :
    lexeme.Ends (gap.characters ++ characters rest) := by
  by_cases empty : gap.characters = []
  · have separate := apart empty
    rw [empty, List.nil_append]
    cases lexeme with
    | whole digits =>
        refine ⟨startsOutside_of_startsWithNumber
          (startsWithNumber_of_absorbs rfl separate), ?_⟩
        intro digit later shape
        exact isDigit_of_absorbs_whole separate shape
    | decimal digits fraction =>
        exact startsOutside_of_startsWithNumber
          (startsWithNumber_of_absorbs rfl separate)
    | word letters =>
        exact startsOutside_of_absorbs_word separate
    | mark symbol =>
        exact trivial
  · have outside := Blanks.startsOutside_append (characters rest) empty
    cases lexeme with
    | whole digits =>
        refine ⟨outside.digits, ?_⟩
        intro digit later shape
        obtain ⟨blank, others, gapShape⟩ := List.exists_cons_of_ne_nil empty
        rw [gapShape, List.cons_append] at shape
        have isBlank := gap.blank blank (by simp [gapShape])
        rw [(List.cons.inj shape).1] at isBlank
        cases isBlank
    | decimal digits fraction =>
        exact outside.digits
    | word letters =>
        exact outside
    | mark symbol =>
        exact trivial

/-- Each lexeme ends in front of what is written behind it. -/
def Ended : SpacedLexemes → Prop
  | [] => True
  | (lexeme, gap) :: rest =>
      lexeme.Ends (gap.characters ++ characters rest) ∧ Ended rest

/-- Lexemes that do not run into one another end where they are written. -/
theorem Parted.ended
    {items : SpacedLexemes}
    (parted : Parted items) :
    Ended items := by
  induction items with
  | nil =>
      trivial
  | cons entry rest inductionHypothesis =>
      obtain ⟨apart, restParted⟩ := parted
      exact ⟨ends_of_parted apart, inductionHypothesis restParted⟩

/-! ## The pieces of a written text -/

/-- The pieces of lexemes and of the blanks behind them. -/
def pieces : SpacedLexemes → List Piece
  | [] => []
  | (lexeme, gap) :: rest =>
      lexeme.piece :: (gap.characters.map .blank ++ pieces rest)

/-- Blanks in front of a text are pieces of their own. -/
theorem firstPieces_blanks
    {blanks text : List Char}
    (blank : ∀ c ∈ blanks, Text.isBlank c = true)
    (budget : Nat) :
    Piece.firstPieces (blanks.length + budget) (blanks ++ text) =
      blanks.map .blank ++ Piece.firstPieces budget text := by
  induction blanks with
  | nil =>
      simp
  | cons c rest inductionHypothesis =>
      obtain ⟨cBlank, restBlank⟩ := List.forall_mem_cons.mp blank
      rw [List.length_cons, Nat.add_right_comm, List.cons_append,
        Piece.firstPieces]
      simp [Piece.split, cBlank, inductionHypothesis restBlank]

/-- The pieces of a written text are its lexemes and blanks. -/
theorem firstPieces_characters
    {items : SpacedLexemes}
    (ended : Ended items)
    {budget : Nat}
    (enough : (characters items).length ≤ budget) :
    Piece.firstPieces budget (characters items) = pieces items := by
  induction items generalizing budget with
  | nil =>
      cases budget <;> rfl
  | cons entry rest inductionHypothesis =>
      obtain ⟨lexeme, gap⟩ := entry
      obtain ⟨ends, restEnded⟩ := ended
      obtain ⟨c, later, shape, split⟩ := lexeme.split_append ends
      simp only [characters, shape, List.cons_append, List.length_cons,
        List.length_append] at enough ⊢
      obtain ⟨remaining, rfl⟩ :
          ∃ remaining, budget = gap.characters.length + remaining + 1 :=
        ⟨budget - gap.characters.length - 1, by omega⟩
      rw [Piece.firstPieces, split]
      simp only
      rw [firstPieces_blanks gap.blank, inductionHypothesis restEnded (by omega)]
      rfl

/-- The tokens of lexemes that are written from a place on. -/
def tokens
    (place : Source.Place) :
    SpacedLexemes → List Token
  | [] => []
  | (lexeme, gap) :: rest =>
      let stop := place.after lexeme.characters
      {
        kind := lexeme.kind
        lexeme := String.ofList lexeme.characters
        span := { start := place, stop := stop, file := "" }
      } :: tokens (stop.after gap.characters) rest

/-- Blanks only move the place from which the pieces are read. -/
theorem ofPieces_blanks
    (text : List Char)
    (allowed : Nat)
    (place : Source.Place)
    (blanks : List Char)
    (rest : List Piece) :
    Lexed.ofPieces text "" (allowed + 1) place (blanks.map .blank ++ rest) =
      Lexed.ofPieces text "" (allowed + 1) (place.after blanks) rest := by
  induction blanks generalizing place with
  | nil =>
      rfl
  | cons c later inductionHypothesis =>
      rw [List.map_cons, List.cons_append, Lexed.ofPieces]
      exact inductionHypothesis (place.step c)

/-- The pieces of a written text give its tokens, an end and no diagnostics. -/
theorem ofPieces_pieces
    (text : List Char)
    (allowed : Nat)
    (place : Source.Place)
    (items : SpacedLexemes) :
    Lexed.ofPieces text "" (allowed + 1) place (pieces items) =
      {
        stream := {
          tokens := tokens place items
          finish := {
            start := place.after (characters items)
            stop := place.after (characters items)
            file := ""
          }
        }
        diagnostics := []
      } := by
  induction items generalizing place with
  | nil =>
      rfl
  | cons entry rest inductionHypothesis =>
      obtain ⟨lexeme, gap⟩ := entry
      rw [pieces, Lexeme.piece, Lexed.ofPieces]
      simp only [Piece.characters]
      rw [ofPieces_blanks, inductionHypothesis]
      simp only [Lexed.addToken, tokens, characters, Source.Place.after_append]

/-- There is one token for each lexeme. -/
theorem length_tokens
    (place : Source.Place)
    (items : SpacedLexemes) :
    (tokens place items).length = items.length := by
  induction items generalizing place with
  | nil => rfl
  | cons entry rest inductionHypothesis =>
      obtain ⟨lexeme, gap⟩ := entry
      simp only [tokens, List.length_cons, inductionHypothesis]

/-- The tokens of lexemes stand for what the lexemes stand for. -/
theorem map_kind_tokens
    (place : Source.Place)
    (items : SpacedLexemes) :
    (tokens place items).map Token.kind = (items.map Prod.fst).map Lexeme.kind := by
  induction items generalizing place with
  | nil => rfl
  | cons entry rest inductionHypothesis =>
      obtain ⟨lexeme, gap⟩ := entry
      simp only [tokens, List.map_cons, inductionHypothesis]

/-- The tokens of written lexemes stand at the offsets at which they were written. -/
theorem map_tokens
    (place : Source.Place)
    (items : SpacedLexemes) :
    (tokens place items).map Token.placement = placed place.offset items := by
  induction items generalizing place with
  | nil =>
      rfl
  | cons entry rest inductionHypothesis =>
      obtain ⟨lexeme, gap⟩ := entry
      simp only [tokens, placed, List.map_cons, inductionHypothesis,
        Source.Place.offset_after]
      simp only [Token.placement, Token.startOffset, Token.stopOffset,
        Source.Place.offset_after]

end SpacedLexemes

/-- Splitting a text whose lexemes end gives exactly its tokens and the place of its end. -/
theorem Lexed.ofText_of_ended
    (margin : Blanks)
    {items : SpacedLexemes}
    (ended : SpacedLexemes.Ended items) :
    let text := margin.characters ++ SpacedLexemes.characters items
    let finish := Source.Place.start.after text
    Lexed.ofText text =
      {
        stream := {
          tokens :=
            SpacedLexemes.tokens (Source.Place.start.after margin.characters) items
          finish := { start := finish, stop := finish, file := "" }
        }
        diagnostics := []
      } := by
  intro text finish
  have textPieces :
      Piece.pieces text =
        margin.characters.map .blank ++ SpacedLexemes.pieces items := by
    rw [Piece.pieces, List.length_append,
      SpacedLexemes.firstPieces_blanks margin.blank,
      SpacedLexemes.firstPieces_characters ended (Nat.le_refl _)]
  have limit : defaultErrorLimit.toNat = 19 + 1 := rfl
  rw [Lexed.ofText, Lexed.ofNamedText, textPieces, limit,
    SpacedLexemes.ofPieces_blanks, SpacedLexemes.ofPieces_pieces,
    ← Source.Place.after_append]

/-- Splitting a written text gives exactly its tokens and the place of its end. -/
theorem Lexed.ofText_characters
    (margin : Blanks)
    {items : SpacedLexemes}
    (parted : SpacedLexemes.Parted items) :
    let text := margin.characters ++ SpacedLexemes.characters items
    let finish := Source.Place.start.after text
    Lexed.ofText text =
      {
        stream := {
          tokens :=
            SpacedLexemes.tokens (Source.Place.start.after margin.characters) items
          finish := { start := finish, stop := finish, file := "" }
        }
        diagnostics := []
      } :=
  Lexed.ofText_of_ended margin (SpacedLexemes.Parted.ended parted)

/--
Splitting undoes writing. A text that was written from lexemes, with blanks
around them and none of them touching one that it runs into, has no stray
characters. Its tokens are the lexemes in their order, each standing for what
it should at the offsets at which it was written, and the end of the stream is
the end of the text.
-/
theorem Lexed.ofText_written
    (margin : Blanks)
    (items : SpacedLexemes)
    (parted : SpacedLexemes.Parted items) :
    let text := margin.characters ++ SpacedLexemes.characters items
    let lexed := Lexed.ofText text
    lexed.diagnostics = [] ∧
      lexed.stream.tokens.map Token.placement =
        SpacedLexemes.placed margin.characters.length items ∧
      lexed.stream.finish.start.offset = text.length ∧
      lexed.stream.finish.stop.offset = text.length := by
  intro text lexed
  have whole := Lexed.ofText_characters margin parted
  have start : Source.Place.start.offset = 0 := rfl
  simp only [lexed, text, whole, SpacedLexemes.map_tokens,
    Source.Place.offset_after, start, Nat.zero_add, and_self]

/--
Lexemes that touch wherever they may: a point between two numbers belongs to
the first, a number runs into no word, and only the two words need a blank.
-/
def touchingLexemes : SpacedLexemes :=
  let new : Word :=
    ⟨'n', ['e', 'w'], rfl,
      List.forall_mem_cons.mpr ⟨rfl, List.forall_mem_singleton.mpr rfl⟩⟩
  let a : Word := ⟨'a', [], rfl, List.forall_mem_nil _⟩
  let blank : Blanks := ⟨[' '], List.forall_mem_singleton.mpr rfl⟩
  [(.decimal (.single '1' rfl) (.single '5' rfl), .empty), (.mark .dot, .empty),
    (.whole (.single '2' rfl), .empty), (.word a, blank), (.word new, .empty),
    (.mark .openParen, .empty)]

/-- A number touches a point, and a number touches a word. -/
theorem Lexed.ofText_written_touching :
    SpacedLexemes.Parted touchingLexemes ∧
      SpacedLexemes.characters touchingLexemes = "1.5.2a new(".toList ∧
      (Lexed.ofText " 1.5.2a new(".toList).stream.tokens.map Token.placement =
        [(.number 1.5, "1.5", 1, 4),
          (.dot, ".", 4, 5),
          (.number 2, "2", 5, 6),
          (.identifier "a", "a", 6, 7),
          (.new, "new", 8, 11),
          (.openParen, "(", 11, 12)] := by
  have parted : SpacedLexemes.Parted touchingLexemes := by decide
  let margin : Blanks := ⟨[' '], List.forall_mem_singleton.mpr rfl⟩
  have first : Decimal.literalValue ['1', '.', '5'] = 1.5 :=
    @Decimal.literalValue_decimal ['1'] (List.forall_mem_singleton.mpr rfl) ['5']
  have second : Decimal.literalValue ['2'] = 2 :=
    Decimal.literalValue_whole (List.forall_mem_singleton.mpr rfl)
  refine ⟨parted, rfl, ?_⟩
  rw [← first, ← second]
  exact (Lexed.ofText_written margin touchingLexemes parted).2.1

end PlanarExpr
