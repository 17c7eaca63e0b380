import PlanarExpr.Token.Lexer

namespace PlanarExpr

/-!
# Lexemes and texts written from them

A lexeme is a number, a word or a punctuation mark, by its characters alone. A
text is written from lexemes by putting blanks between them. Two lexemes may
touch unless they would run into one another: a word into what continues a
word, a number into digits, and a whole number through a point into the number
behind it.
-/

/-- A run of digits. -/
structure Digits where
  characters : List Char
  nonempty : characters ≠ []
  digits : ∀ c ∈ characters, Decimal.isDigit c = true
deriving DecidableEq

/-- A single digit. -/
def Digits.single
    (c : Char)
    (isDigit : Decimal.isDigit c = true) :
    Digits where
  characters := [c]
  nonempty := List.cons_ne_nil c []
  digits := List.forall_mem_singleton.mpr isDigit

/-- A run of digits starts with a digit. -/
theorem Digits.exists_first (digits : Digits) :
    ∃ c later, digits.characters = c :: later ∧ Decimal.isDigit c = true := by
  obtain ⟨c, later, shape⟩ := List.exists_cons_of_ne_nil digits.nonempty
  exact ⟨c, later, shape, digits.digits c (by simp [shape])⟩

/-- A letter or underscore with letters, digits and underscores behind it. -/
structure Word where
  first : Char
  rest : List Char
  starts : isNameStart first = true
  continues : ∀ c ∈ rest, isNameCharacter c = true
deriving DecidableEq

/-- A punctuation mark. -/
inductive Mark where
  | dot
  | openParen
  | closeParen
  | comma
  | plus
  | minus
  | star
  | slash
deriving DecidableEq

/-- The character of a mark. -/
def Mark.character : Mark → Char
  | .dot => '.'
  | .openParen => '('
  | .closeParen => ')'
  | .comma => ','
  | .plus => '+'
  | .minus => '-'
  | .star => '*'
  | .slash => '/'

/-- What a mark stands for. -/
def Mark.kind : Mark → Token.Kind
  | .dot => .dot
  | .openParen => .openParen
  | .closeParen => .closeParen
  | .comma => .comma
  | .plus => .plus
  | .minus => .minus
  | .star => .star
  | .slash => .slash

/-- A number without or with a fraction, a word, or a mark. -/
inductive Lexeme where
  | whole (digits : Digits)
  | decimal (digits fraction : Digits)
  | word (letters : Word)
  | mark (symbol : Mark)
deriving DecidableEq

namespace Lexeme

/-- The characters of a lexeme. -/
def characters : Lexeme → List Char
  | .whole digits => digits.characters
  | .decimal digits fraction => digits.characters ++ '.' :: fraction.characters
  | .word letters => letters.first :: letters.rest
  | .mark symbol => [symbol.character]

/-- What a lexeme stands for. Of the words only `new` is a keyword. -/
def kind (lexeme : Lexeme) : Token.Kind :=
  match lexeme with
  | .whole _ => .number (Decimal.literalValue lexeme.characters)
  | .decimal _ _ => .number (Decimal.literalValue lexeme.characters)
  | .word _ =>
      if lexeme.characters = ['n', 'e', 'w'] then
        .new
      else
        .identifier (String.ofList lexeme.characters)
  | .mark symbol => symbol.kind

/-- Whether a lexeme is a number. -/
def isNumber : Lexeme → Bool
  | .whole _ => true
  | .decimal _ _ => true
  | _ => false

/-- Whether a lexeme is a number without a fraction. -/
def isWhole : Lexeme → Bool
  | .whole _ => true
  | _ => false

/-- Whether a lexeme is a word. -/
def isWord : Lexeme → Bool
  | .word _ => true
  | _ => false

end Lexeme

/-- A run of blanks, which may be empty. -/
structure Blanks where
  characters : List Char
  blank : ∀ c ∈ characters, Text.isBlank c = true
deriving DecidableEq

/-- No blank at all. -/
def Blanks.empty : Blanks where
  characters := []
  blank := List.forall_mem_nil _

/-- What a token stands for, its characters, and the offsets of its two ends. -/
def Token.placement (token : Token) : Token.Kind × String × Nat × Nat :=
  (token.kind, token.lexeme, token.startOffset, token.stopOffset)

/-- Lexemes, each with the blanks behind it. -/
abbrev SpacedLexemes := List (Lexeme × Blanks)

namespace SpacedLexemes

/-- The characters of lexemes and of the blanks behind them. -/
def characters : SpacedLexemes → List Char
  | [] => []
  | (lexeme, gap) :: rest =>
      lexeme.characters ++ (gap.characters ++ characters rest)

/-- Whether the first of some lexemes is a number. -/
def startsWithNumber : SpacedLexemes → Bool
  | [] => false
  | (lexeme, _) :: _ => lexeme.isNumber

/-- Whether a lexeme that touches the first of some lexemes runs into it. -/
def absorbs
    (lexeme : Lexeme) :
    SpacedLexemes → Bool
  | [] => false
  | (next, gap) :: rest =>
      (lexeme.isWord && (next.isWord || next.isNumber)) ||
        (lexeme.isNumber && next.isNumber) ||
        (lexeme.isWhole && next = .mark .dot && gap.characters.isEmpty &&
          startsWithNumber rest)

/-- No lexeme touches one that it would run into. -/
def Parted : SpacedLexemes → Prop
  | [] => True
  | (lexeme, gap) :: rest =>
      (gap.characters = [] → absorbs lexeme rest = false) ∧ Parted rest

instance decidableParted : (items : SpacedLexemes) → Decidable (Parted items)
  | [] => .isTrue trivial
  | (_, _) :: rest =>
      have := decidableParted rest
      inferInstanceAs (Decidable (_ ∧ _))

/-- What each lexeme stands for, its characters, and the offsets at which it is written. -/
def placed
    (offset : Nat) :
    SpacedLexemes → List (Token.Kind × String × Nat × Nat)
  | [] => []
  | (lexeme, gap) :: rest =>
      let stop := offset + lexeme.characters.length
      (lexeme.kind, String.ofList lexeme.characters, offset, stop) ::
        placed (stop + gap.characters.length) rest

end SpacedLexemes

/-! ## Classes of characters -/

/-- The characters of names by their code points. -/
theorem isNameCharacter_iff {c : Char} :
    isNameCharacter c = true ↔
      c.toNat = 95 ∨ (97 ≤ c.toNat ∧ c.toNat ≤ 122) ∨
        (65 ≤ c.toNat ∧ c.toNat ≤ 90) ∨ (48 ≤ c.toNat ∧ c.toNat ≤ 57) := by
  simp only [isNameCharacter, isNameStart, Decimal.isDigit, Bool.or_eq_true,
    Bool.and_eq_true, decide_eq_true_eq, Char.le_def, UInt32.le_iff_toNat_le,
    ← Char.toNat_inj, Char.toNat_val]
  exact or_assoc.trans or_assoc

/-- The start of a name is no digit. -/
theorem isDigit_of_isNameStart
    {c : Char}
    (starts : isNameStart c = true) :
    Decimal.isDigit c = false := by
  simp only [isNameStart, Bool.or_eq_true, Bool.and_eq_true, decide_eq_true_eq,
    Char.le_def, UInt32.le_iff_toNat_le, ← Char.toNat_inj,
    Char.toNat_val] at starts
  rw [Bool.eq_false_iff]
  intro digit
  simp only [Decimal.isDigit, Bool.and_eq_true, decide_eq_true_eq, Char.le_def,
    UInt32.le_iff_toNat_le, Char.toNat_val] at digit
  have codes :
      '_'.toNat = 95 ∧ 'a'.toNat = 97 ∧ 'A'.toNat = 65 ∧ '9'.toNat = 57 :=
    ⟨rfl, rfl, rfl, rfl⟩
  omega

/-- No character of a name is blank. -/
theorem isBlank_of_isNameCharacter
    {c : Char}
    (named : isNameCharacter c = true) :
    Text.isBlank c = false := by
  rw [isNameCharacter_iff] at named
  rw [Bool.eq_false_iff]
  intro blank
  simp [Text.isBlank, Text.inRanges, Text.blankRanges,
    Text.CodeRange.contains] at blank
  omega

end PlanarExpr
