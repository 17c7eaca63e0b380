import Mathlib.Data.List.TakeWhile
import PlanarExpr.Proofs.Splitting
import PlanarExpr.Proofs.Tiling

namespace PlanarExpr

/-!
# Clean texts are written from lexemes

A text without stray characters is written from lexemes and blanks, each
lexeme ending where the text does not go on with it. A name in such a text
stands there as a word, with no further character of a name behind it.
-/

/-- Behind the longest run of characters of a class stands none of them. -/
theorem startsOutside_dropWhile
    (belongs : Char → Bool)
    (text : List Char) :
    StartsOutside belongs (text.dropWhile belongs) := by
  intro c isFirst
  have outside := List.head?_dropWhile_not belongs text
  rw [isFirst] at outside
  exact outside

/-! ## The lexeme of a piece -/

namespace Piece

/-- The longest number at the start of a text is a lexeme that ends there. -/
theorem exists_lexeme_of_splitNumber
    {c : Char}
    (digit : Decimal.isDigit c = true)
    (rest : List Char) :
    ∃ lexeme : Lexeme,
      lexeme.isNumber = true ∧
        lexeme.characters = (splitNumber (c :: rest)).1 ∧
        lexeme.Ends (splitNumber (c :: rest)).2 := by
  have outside := startsOutside_dropWhile Decimal.isDigit (c :: rest)
  let digits : Digits :=
    {
      characters := (c :: rest).takeWhile Decimal.isDigit
      nonempty := by
        rw [List.takeWhile_cons_of_pos digit]
        exact List.cons_ne_nil _ _
      digits := fun _ => List.mem_takeWhile_imp
    }
  unfold splitNumber
  split
  · next point first later shape =>
      rw [shape] at outside
      split
      · next firstDigit =>
          let fraction : Digits :=
            {
              characters := (first :: later).takeWhile Decimal.isDigit
              nonempty := by
                rw [List.takeWhile_cons_of_pos firstDigit]
                exact List.cons_ne_nil _ _
              digits := fun _ => List.mem_takeWhile_imp
            }
          exact ⟨.decimal digits fraction, rfl, rfl, startsOutside_dropWhile _ _⟩
      · next noDigit =>
          refine ⟨.whole digits, rfl, rfl, outside, ?_⟩
          rintro other behind ⟨⟩
          exact Bool.eq_false_iff.mpr noDigit
  · next noFraction =>
      refine ⟨.whole digits, rfl, rfl, outside, ?_⟩
      intro first later shape
      exact absurd shape (noFraction first later)

/-- Every punctuation character is that of a mark. -/
theorem exists_mark_of_punctuation?
    {c : Char}
    {kind : Token.Kind}
    (found : punctuation? c = some kind) :
    ∃ symbol : Mark, symbol.character = c ∧ symbol.kind = kind := by
  unfold punctuation? at found
  split at found <;> cases found
  · exact ⟨.dot, rfl, rfl⟩
  · exact ⟨.openParen, rfl, rfl⟩
  · exact ⟨.closeParen, rfl, rfl⟩
  · exact ⟨.comma, rfl, rfl⟩
  · exact ⟨.plus, rfl, rfl⟩
  · exact ⟨.minus, rfl, rfl⟩
  · exact ⟨.star, rfl, rfl⟩
  · exact ⟨.slash, rfl, rfl⟩

/-- The first piece of a text is a blank, a lexeme that ends there, or a stray character. -/
theorem split_cases
    (c : Char)
    (rest : List Char) :
    (split c rest = (.blank c, rest) ∧ Text.isBlank c = true) ∨
      (∃ (lexeme : Lexeme) (behind : List Char),
        split c rest = (lexeme.piece, behind) ∧ lexeme.Ends behind) ∨
      split c rest = (.stray c, rest) := by
  unfold split
  split
  · next blank => exact .inl ⟨rfl, blank⟩
  · right
    split
    · next digit =>
        obtain ⟨lexeme, isNumber, written, ends⟩ :=
          exists_lexeme_of_splitNumber digit rest
        refine .inl ⟨lexeme, _, ?_, ends⟩
        cases lexeme with
        | whole digits => simp only [Lexeme.piece, Lexeme.kind, written]
        | decimal digits fraction => simp only [Lexeme.piece, Lexeme.kind, written]
        | word letters => cases isNumber
        | mark symbol => cases isNumber
    · split
      · next starts =>
          have named := isNameCharacter_of_isNameStart starts
          let letters : Word := ⟨c, rest.takeWhile isNameCharacter, starts,
            fun _ => List.mem_takeWhile_imp⟩
          refine .inl ⟨.word letters, (c :: rest).dropWhile isNameCharacter, ?_,
            startsOutside_dropWhile _ _⟩
          simp only [List.takeWhile_cons_of_pos named]
          rfl
      · split
        · next kind found =>
            obtain ⟨symbol, rfl, rfl⟩ := exists_mark_of_punctuation? found
            exact .inl ⟨.mark symbol, rest, rfl, trivial⟩
        · exact .inr rfl

end Piece

/-! ## Texts without stray characters -/

namespace SpacedLexemes

/-- A text whose first pieces are no strays is written by lexemes with blanks in between. -/
theorem exists_of_firstPieces
    {budget : Nat}
    {text : List Char}
    (enough : text.length ≤ budget)
    (noStray : ∀ c, .stray c ∉ Piece.firstPieces budget text) :
    ∃ (margin : Blanks) (items : SpacedLexemes),
      text = margin.characters ++ characters items ∧ Ended items := by
  induction budget generalizing text with
  | zero =>
      have empty := List.length_eq_zero_iff.mp (Nat.le_zero.mp enough)
      exact ⟨.empty, [], empty, trivial⟩
  | succ budget inductionHypothesis =>
      cases text with
      | nil =>
          exact ⟨.empty, [], rfl, trivial⟩
      | cons c rest =>
          have whole := Piece.characters_split_append c rest
          have shorter := Piece.length_split_le c rest
          have fits := Nat.le_of_succ_le_succ enough
          rw [Piece.firstPieces] at noStray
          rcases Piece.split_cases c rest with
            ⟨isBlank, blank⟩ | ⟨lexeme, behind, isToken, ends⟩ | isStray
          · rw [isBlank] at noStray
            obtain ⟨margin, items, shape, ended⟩ :=
              inductionHypothesis fits fun c stray =>
                noStray c (List.mem_cons_of_mem _ stray)
            refine ⟨⟨c :: margin.characters,
              List.forall_mem_cons.mpr ⟨blank, margin.blank⟩⟩, items, ?_, ended⟩
            rw [shape]
            rfl
          · rw [isToken] at noStray whole shorter
            obtain ⟨gap, items, shape, ended⟩ :=
              inductionHypothesis (Nat.le_trans shorter fits) fun c stray =>
                noStray c (List.mem_cons_of_mem _ stray)
            refine ⟨.empty, (lexeme, gap) :: items, ?_, ?_, ended⟩
            · rw [← whole, shape]
              rfl
            · rwa [← shape]
          · rw [isStray] at noStray
            exact absurd List.mem_cons_self (noStray c)

end SpacedLexemes

namespace Lexed

/-- Without diagnostics no piece is a stray. -/
theorem stray_not_mem_of_ofPieces
    {text : List Char}
    {file : String}
    {allowed : Nat}
    {place : Source.Place}
    {pieces : List Piece}
    (clean : (ofPieces text file (allowed + 1) place pieces).diagnostics = []) :
    ∀ c, .stray c ∉ pieces := by
  intro c
  induction pieces generalizing place with
  | nil =>
      exact List.not_mem_nil
  | cons piece rest inductionHypothesis =>
      cases piece with
      | blank _ =>
          have later := inductionHypothesis clean
          simpa using later
      | token kind lexeme =>
          have later := inductionHypothesis clean
          simpa using later
      | stray _ =>
          cases clean

/-- A text without stray characters is written from lexemes that end. -/
theorem exists_written_of_clean
    {text : List Char}
    (clean : (Lexed.ofText text).diagnostics = []) :
    ∃ (margin : Blanks) (items : SpacedLexemes),
      text = margin.characters ++ SpacedLexemes.characters items ∧
        SpacedLexemes.Ended items := by
  have limit : defaultErrorLimit.toNat = 19 + 1 := rfl
  rw [Lexed.ofText, Lexed.ofNamedText, limit] at clean
  exact SpacedLexemes.exists_of_firstPieces (Nat.le_refl _) (stray_not_mem_of_ofPieces clean)

end Lexed

/-! ## Names in clean texts -/

/-- The characters of a word. -/
def Word.characters (word : Word) : List Char :=
  word.first :: word.rest

/-- The text of a word. -/
def Word.text (word : Word) : String :=
  String.ofList word.characters

@[simp] theorem Word.toList_text (word : Word) : word.text.toList = word.characters :=
  String.toList_ofList

/-- All characters of a word may stand in a name. -/
theorem Word.isNameCharacter_of_mem
    {word : Word}
    {c : Char}
    (member : c ∈ word.characters) :
    isNameCharacter c = true := by
  rcases List.mem_cons.mp member with isFirst | continues
  · rw [isFirst]
    exact isNameCharacter_of_isNameStart word.starts
  · exact word.continues c continues

/-- A lexeme is written in characters of names and in marks. -/
theorem Lexeme.isNameCharacter_or_mark_of_mem
    {lexeme : Lexeme}
    {c : Char}
    (member : c ∈ lexeme.characters) :
    isNameCharacter c = true ∨ ∃ symbol : Mark, symbol.character = c := by
  cases lexeme with
  | whole digits =>
      exact .inl (isNameCharacter_of_isDigit (digits.digits c member))
  | decimal digits fraction =>
      rcases List.mem_append.mp member with inDigits | behind
      · exact .inl (isNameCharacter_of_isDigit (digits.digits c inDigits))
      · rcases List.mem_cons.mp behind with isPoint | inFraction
        · exact .inr ⟨.dot, isPoint.symm⟩
        · exact .inl (isNameCharacter_of_isDigit (fraction.digits c inFraction))
  | word letters =>
      exact .inl (Word.isNameCharacter_of_mem member)
  | mark symbol =>
      exact .inr ⟨symbol, (List.mem_singleton.mp member).symm⟩

/-- What goes on behind a word that ends is no word. -/
theorem Word.take_ne_of_outside
    {word other : Word}
    {behind : List Char}
    (outside : StartsOutside isNameCharacter behind)
    {more : Nat}
    (inside : more < behind.length) :
    (word.characters ++ behind).take (word.characters.length + (more + 1)) ≠
      other.characters := by
  intro cut
  cases behind with
  | nil => cases inside
  | cons c rest =>
      rw [List.take_length_add_append, List.take_succ_cons] at cut
      have inOther : c ∈ other.characters :=
        cut ▸ List.mem_append_right _ List.mem_cons_self
      have named := Word.isNameCharacter_of_mem inOther
      rw [outside c rfl] at named
      cases named

/-- A name is written as a word. -/
theorem Lexeme.exists_word_of_kind
    {lexeme : Lexeme}
    {name : String}
    (named : lexeme.kind = .identifier name) :
    ∃ word : Word, lexeme = .word word ∧ name = word.text := by
  cases lexeme with
  | whole digits => cases named
  | decimal digits fraction => cases named
  | mark symbol => cases symbol <;> cases named
  | word letters =>
      refine ⟨letters, rfl, ?_⟩
      simp only [kind] at named
      split at named
      · cases named
      · exact (Token.Kind.identifier.inj named).symm

/-- A name among lexemes that end stands there as a word that ends. -/
theorem SpacedLexemes.exists_word_of_name
    {items : SpacedLexemes}
    (ended : Ended items)
    {place : Source.Place}
    {token : Token}
    (member : token ∈ tokens place items)
    {name : String}
    (named : token.kind = .identifier name) :
    ∃ (word : Word) (before behind : List Char),
      name = word.text ∧
        characters items = before ++ (word.characters ++ behind) ∧
        token.startOffset = place.offset + before.length ∧
        token.stopOffset = token.startOffset + word.characters.length ∧
        StartsOutside isNameCharacter behind := by
  induction items generalizing place with
  | nil =>
      cases member
  | cons entry rest inductionHypothesis =>
      obtain ⟨lexeme, gap⟩ := entry
      obtain ⟨ends, restEnded⟩ := ended
      rcases List.mem_cons.mp member with isFirst | later
      · subst isFirst
        obtain ⟨word, rfl, isName⟩ := Lexeme.exists_word_of_kind named
        exact ⟨word, [], _, isName, rfl, rfl, Source.Place.offset_after _ _, ends⟩
      · obtain ⟨word, before, behind, isName, shape, starts, stops, outside⟩ :=
          inductionHypothesis restEnded later
        refine ⟨word, lexeme.characters ++ (gap.characters ++ before), behind, isName,
          ?_, ?_, stops, outside⟩
        · simp only [characters, shape, List.append_assoc]
        · rw [starts]
          simp only [Source.Place.offset_after, List.length_append]
          omega

/-- From the start of a name on, a clean text has the word of that name and then ends it. -/
theorem Lexed.exists_word_of_name
    {text : List Char}
    (clean : (Lexed.ofText text).diagnostics = [])
    {token : Token}
    (member : token ∈ (Lexed.ofText text).stream.tokens)
    {name : String}
    (named : token.kind = .identifier name) :
    ∃ (word : Word) (behind : List Char),
      name = word.text ∧
        text.drop token.startOffset = word.characters ++ behind ∧
        token.stopOffset = token.startOffset + word.characters.length ∧
        StartsOutside isNameCharacter behind := by
  obtain ⟨margin, items, rfl, ended⟩ := Lexed.exists_written_of_clean clean
  rw [Lexed.ofText_of_ended margin ended] at member
  obtain ⟨word, before, behind, isName, shape, starts, stops, outside⟩ :=
    SpacedLexemes.exists_word_of_name ended member named
  refine ⟨word, behind, isName, ?_, stops, outside⟩
  have fromStart :
      token.startOffset = (margin.characters ++ before).length := by
    rw [starts, Source.Place.offset_after, List.length_append]
    exact congrArg (· + before.length) (Nat.zero_add _)
  rw [shape, fromStart, ← List.append_assoc, List.drop_left]

end PlanarExpr
