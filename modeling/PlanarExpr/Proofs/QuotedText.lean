import PlanarExpr.Proofs.WrittenJson
import PlanarExpr.Text.Written

namespace PlanarExpr.Text

/-!
# Quoted text reads back

Every character of a quoted text is written in a way that tells where it ends,
and the quote in use is the first character of the whole. So a quoted text
determines the text that it was made from, and it stands on one line whatever
that text holds.
-/

/-! ## Hexadecimal digits -/

/-- The value of a hexadecimal digit; letters are lower case. -/
def digitValue (c : Char) : Nat :=
  if c.toNat < 58 then c.toNat - 48 else c.toNat - 87

/-- The number that hexadecimal digits are written for. -/
def hexadecimalValue (digits : List Char) : Nat :=
  digits.foldl (fun value c => 16 * value + digitValue c) 0

/-- A number that fits into the digits is read back from them. -/
theorem hexadecimalValue_hexadecimal
    {width number : Nat}
    (fits : number < Nat.pow 16 width) :
    hexadecimalValue (hexadecimal width number) = number := by
  induction width generalizing number with
  | zero =>
      have zero : number = 0 := Nat.lt_one_iff.mp fits
      rw [zero]
      rfl
  | succ width inductionHypothesis =>
      have shorter : number / 16 < Nat.pow 16 width := by
        rw [Nat.div_lt_iff_lt_mul (by decide)]
        exact fits
      have digits : ∀ value < 16, digitValue (digitChar value) = value := by
        decide
      have front := inductionHypothesis shorter
      rw [hexadecimalValue] at front
      rw [hexadecimal, hexadecimalValue, List.foldl_append, front, List.foldl_cons,
        List.foldl_nil, digits _ (Nat.mod_lt _ (by decide)), Nat.div_add_mod]

/-! ## Characters -/

/-- Reads a character that is written by its code. -/
def readCode
    (width : Nat)
    (text : List Char) :
    Char × List Char :=
  (Char.ofNat (hexadecimalValue (text.take width)), text.drop width)

/-- Reads the first character of a quoted text behind its quote, and gives the rest. -/
def readCharacter : List Char → Option (Char × List Char)
  | [] => none
  | '\\' :: 't' :: rest => some ('\t', rest)
  | '\\' :: 'n' :: rest => some ('\n', rest)
  | '\\' :: 'r' :: rest => some ('\r', rest)
  | '\\' :: 'x' :: rest => some (readCode 2 rest)
  | '\\' :: 'u' :: rest => some (readCode 4 rest)
  | '\\' :: 'U' :: rest => some (readCode 8 rest)
  | '\\' :: c :: rest => some (c, rest)
  | c :: rest => some (c, rest)

/-- A code that fits into its digits is read back, and what stands behind it is left. -/
theorem readCode_hexadecimal
    (width : Nat)
    {c : Char}
    (fits : c.toNat < Nat.pow 16 width)
    (rest : List Char) :
    readCode width (hexadecimal width c.toNat ++ rest) = (c, rest) := by
  have length := Json.length_hexadecimal width c.toNat
  rw [readCode, List.take_left' length, List.drop_left' length,
    hexadecimalValue_hexadecimal fits, Char.ofNat_toNat]

/-- What is no backslash stands for itself. -/
theorem readCharacter_of_ne
    {c : Char}
    (noBackslash : c ≠ '\\')
    (rest : List Char) :
    readCharacter (c :: rest) = some (c, rest) := by
  unfold readCharacter
  split <;> simp_all

/-- The two quotes that a text may stand between. -/
def IsQuote (quote : Char) : Prop :=
  quote = '\'' ∨ quote = '"'

/-- A text is quoted by one of the two quotes. -/
theorem isQuote_quoteFor (text : List Char) : IsQuote (quoteFor text) := by
  unfold quoteFor
  split
  · exact .inr rfl
  · exact .inl rfl

section

variable
  {quote : Char}
  (isQuote : IsQuote quote)

include isQuote

/-- Every character is read back from how it is written. -/
theorem readCharacter_escapeCharacter
    (c : Char)
    (rest : List Char) :
    readCharacter (escapeCharacter quote c ++ rest) = some (c, rest) := by
  unfold escapeCharacter
  split
  · next isMark =>
      rcases isMark with rfl | rfl
      · rcases isQuote with rfl | rfl <;> rfl
      · rfl
  next notMark =>
  have noBackslash : c ≠ '\\' := (not_or.mp notMark).2
  split
  · next isTab => rw [isTab]; rfl
  split
  · next isFeed => rw [isFeed]; rfl
  split
  · next isReturn => rw [isReturn]; rfl
  split
  · exact readCharacter_of_ne noBackslash rest
  split
  · next fits => exact congrArg some (readCode_hexadecimal 2 fits rest)
  split
  · next fits => exact congrArg some (readCode_hexadecimal 4 fits rest)
  · have fits : c.toNat < Nat.pow 16 8 := c.val.toNat_lt
    exact congrArg some (readCode_hexadecimal 8 fits rest)

/-- What stands between the quotes determines the text. -/
theorem eq_of_flatMap_escapeCharacter_eq
    {text text' : List Char}
    (same : text.flatMap (escapeCharacter quote) = text'.flatMap (escapeCharacter quote)) :
    text = text' := by
  have read
      (c : Char)
      (rest : List Char) :
      readCharacter ((c :: rest).flatMap (escapeCharacter quote)) =
        some (c, rest.flatMap (escapeCharacter quote)) := by
    rw [List.flatMap_cons, readCharacter_escapeCharacter isQuote]
  induction text generalizing text' with
  | nil =>
      cases text' with
      | nil => rfl
      | cons c rest =>
          have characters := read c rest
          rw [← same] at characters
          cases characters
  | cons c rest inductionHypothesis =>
      have characters := read c rest
      rw [same] at characters
      cases text' with
      | nil => cases characters
      | cons c' rest' =>
          rw [read] at characters
          obtain ⟨sameFirst, sameRest⟩ := Prod.mk.inj (Option.some.inj characters)
          rw [sameFirst, inductionHypothesis sameRest.symm]

/-- No character is written with a line break. -/
theorem newline_not_mem_escapeCharacter (c : Char) : '\n' ∉ escapeCharacter quote c := by
  have inCode
      (width : Nat)
      {mark : Char}
      (noFeed : '\n' ≠ mark) :
      '\n' ∉ '\\' :: mark :: hexadecimal width c.toNat := by
    rw [List.mem_cons, List.mem_cons]
    rintro (isBackslash | isMark | isDigit)
    · exact absurd isBackslash (by decide)
    · exact noFeed isMark
    · exact absurd (Json.isHexadecimalDigit_of_mem_hexadecimal isDigit) (by decide)
  unfold escapeCharacter
  split
  · next isMark =>
      rcases isMark with rfl | rfl
      · rcases isQuote with rfl | rfl <;> decide
      · decide
  split
  · decide
  split
  · decide
  split
  · decide
  split
  · next shown =>
      intro isFeed
      rw [← List.mem_singleton.mp isFeed] at shown
      exact absurd shown (by decide)
  split
  · exact inCode 2 (by decide)
  split
  · exact inCode 4 (by decide)
  · exact inCode 8 (by decide)

end

/-! ## Whole texts -/

/-- A quoted text is its characters, as they are written, between its quotes. -/
theorem toList_quoted (text : List Char) :
    (quoted text).toList =
      quoteFor text :: (text.flatMap (escapeCharacter (quoteFor text)) ++ [quoteFor text]) :=
  String.toList_ofList

/-- A text can be told from how it is quoted. -/
theorem quoted_injective
    {text text' : List Char}
    (same : quoted text = quoted text') :
    text = text' := by
  have characters := congrArg String.toList same
  rw [toList_quoted, toList_quoted] at characters
  obtain ⟨sameQuote, sameRest⟩ := List.cons.inj characters
  rw [← sameQuote] at sameRest
  exact
    eq_of_flatMap_escapeCharacter_eq (isQuote_quoteFor text) (List.append_cancel_right sameRest)

/-- A quoted text stands on one line. -/
theorem newline_not_mem_quoted (text : List Char) : '\n' ∉ (quoted text).toList := by
  have isQuote := isQuote_quoteFor text
  have noQuote : '\n' ≠ quoteFor text := by
    rcases isQuote with same | same <;> rw [same] <;> decide
  rw [toList_quoted, List.mem_cons, List.mem_append, List.mem_flatMap, List.mem_singleton]
  rintro (first | ⟨c, -, inside⟩ | last)
  · exact noQuote first
  · exact newline_not_mem_escapeCharacter isQuote c inside
  · exact noQuote last

end PlanarExpr.Text
