import PlanarExpr.Proofs.CleanTexts

namespace PlanarExpr

/-!
# Longest lexemes

A lexeme that ends where the text does not go on with it is the longest one
that the text starts with. The first character tells whether a lexeme is a
number, a word or a mark, so a longer one would be of the same sort and go on
where this one ends.
-/

/-- A run of a class reaches no further into a text than to what does not belong to the class. -/
theorem length_le_of_startsOutside
    {belongs : Char → Bool}
    {run front behind : List Char}
    (inside : ∀ c ∈ run, belongs c = true)
    (outside : StartsOutside belongs behind)
    (fits : run <+: front ++ behind) :
    run.length ≤ front.length := by
  apply Nat.le_of_not_lt
  intro longer
  obtain ⟨more, rfl⟩ : front <+: run :=
    List.prefix_of_prefix_length_le (List.prefix_append _ _) fits (Nat.le_of_lt longer)
  cases more with
  | nil => simp at longer
  | cons c later =>
      obtain ⟨rest, rfl⟩ := (List.prefix_append_right_inj front).mp fits
      have cOutside : belongs c = false := outside c rfl
      rw [inside c (by simp)] at cOutside
      cases cOutside

/-- The digits in front of a point are all the digits that the text starts with. -/
theorem digits_eq_of_point
    {digits other : Digits}
    {fraction behind : List Char}
    (outside : StartsOutside Decimal.isDigit behind)
    (fits : other.characters ++ '.' :: fraction <+: digits.characters ++ behind) :
    other.characters = digits.characters ∧ '.' :: fraction <+: behind := by
  obtain ⟨more, shape⟩ := fits
  rw [List.append_assoc, List.cons_append] at shape
  have pointOutside : StartsOutside Decimal.isDigit ('.' :: (fraction ++ more)) := by
    rintro c ⟨⟩
    rfl
  obtain ⟨taken, dropped⟩ := span_append_of_startsOutside digits.digits outside
  obtain ⟨otherTaken, otherDropped⟩ :=
    span_append_of_startsOutside other.digits pointOutside
  rw [← shape, otherTaken] at taken
  rw [← shape, otherDropped] at dropped
  exact ⟨taken, more, dropped⟩

namespace Lexeme

/-- The lexeme is the longest one that a text starts with. -/
structure IsLongestOf
    (lexeme : Lexeme)
    (text : List Char) :
    Prop where
  written : lexeme.characters <+: text
  longest :
    ∀ other : Lexeme,
      other.characters <+: text → other.characters.length ≤ lexeme.characters.length

/-- The first character of a lexeme tells of which sort it is. -/
theorem exists_first (lexeme : Lexeme) :
    ∃ c rest,
      lexeme.characters = c :: rest ∧
        Decimal.isDigit c = lexeme.isNumber ∧ isNameStart c = lexeme.isWord := by
  have ofDigits
      (digits : Digits) :
      ∃ c rest,
        digits.characters = c :: rest ∧
          Decimal.isDigit c = true ∧ isNameStart c = false := by
    obtain ⟨c, rest, shape, digit⟩ := digits.exists_first
    refine ⟨c, rest, shape, digit, ?_⟩
    rw [Bool.eq_false_iff]
    intro starts
    rw [isDigit_of_isNameStart starts] at digit
    cases digit
  cases lexeme with
  | whole digits => exact ofDigits digits
  | decimal digits fraction =>
      obtain ⟨c, rest, shape, first⟩ := ofDigits digits
      exact ⟨c, rest ++ '.' :: fraction.characters, by simp [characters, shape], first⟩
  | word letters =>
      exact ⟨letters.first, letters.rest, rfl, isDigit_of_isNameStart letters.starts,
        letters.starts⟩
  | mark symbol =>
      refine ⟨symbol.character, [], rfl, ?_⟩
      cases symbol <;> exact ⟨rfl, rfl⟩

/-- Two lexemes that one text starts with are of the same sort. -/
theorem sameSort_of_prefix
    {lexeme other : Lexeme}
    {behind : List Char}
    (fits : other.characters <+: lexeme.characters ++ behind) :
    other.isNumber = lexeme.isNumber ∧ other.isWord = lexeme.isWord := by
  obtain ⟨c, rest, shape, number, word⟩ := lexeme.exists_first
  obtain ⟨c', rest', shape', number', word'⟩ := other.exists_first
  rw [shape, shape', List.cons_append, List.cons_prefix_cons] at fits
  obtain ⟨rfl, -⟩ := fits
  exact ⟨number'.symm.trans number, word'.symm.trans word⟩

/-- No number that the text starts with is longer than a whole one that ends there. -/
theorem length_le_whole
    {digits : Digits}
    {behind : List Char}
    (ends : (Lexeme.whole digits).Ends behind)
    {other : Lexeme}
    (number : other.isNumber = true)
    (fits : other.characters <+: digits.characters ++ behind) :
    other.characters.length ≤ digits.characters.length := by
  obtain ⟨outside, noFraction⟩ := ends
  cases other with
  | whole others => exact length_le_of_startsOutside others.digits outside fits
  | decimal others fraction =>
      obtain ⟨-, later, shape⟩ := digits_eq_of_point outside fits
      obtain ⟨first, rest, fractionShape, digit⟩ := fraction.exists_first
      rw [fractionShape] at shape
      rw [noFraction first (rest ++ later) shape.symm] at digit
      cases digit
  | word letters => cases number
  | mark symbol => cases number

/-- No number that the text starts with is longer than a decimal one that ends there. -/
theorem length_le_decimal
    {digits fraction : Digits}
    {behind : List Char}
    (ends : (Lexeme.decimal digits fraction).Ends behind)
    {other : Lexeme}
    (number : other.isNumber = true)
    (fits :
      other.characters <+: digits.characters ++ '.' :: (fraction.characters ++ behind)) :
    other.characters.length ≤ (Lexeme.decimal digits fraction).characters.length := by
  have pointOutside :
      StartsOutside Decimal.isDigit ('.' :: (fraction.characters ++ behind)) := by
    rintro c ⟨⟩
    rfl
  have lengthOf
      (digits fraction : Digits) :
      (Lexeme.decimal digits fraction).characters.length =
        digits.characters.length + (fraction.characters.length + 1) := by
    rw [characters, List.length_append, List.length_cons]
  rw [lengthOf]
  cases other with
  | whole others =>
      have noLonger := length_le_of_startsOutside others.digits pointOutside fits
      exact Nat.le_trans noLonger (Nat.le_add_right _ _)
  | decimal others otherFraction =>
      obtain ⟨sameDigits, fractionFits⟩ := digits_eq_of_point pointOutside fits
      obtain ⟨-, fractionFits⟩ := List.cons_prefix_cons.mp fractionFits
      have noLonger := length_le_of_startsOutside otherFraction.digits ends fractionFits
      rw [lengthOf, sameDigits]
      omega
  | word letters => cases number
  | mark symbol => cases number

/-- A lexeme is the longest one that a text starts with, if it ends where the text goes on. -/
theorem Ends.isLongestOf
    {lexeme : Lexeme}
    {behind : List Char}
    (ends : lexeme.Ends behind) :
    lexeme.IsLongestOf (lexeme.characters ++ behind) where
  written := List.prefix_append _ _
  longest other fits := by
    obtain ⟨sameNumber, sameWord⟩ := sameSort_of_prefix fits
    cases lexeme with
    | whole digits => exact length_le_whole ends sameNumber fits
    | decimal digits fraction =>
        rw [characters, List.append_assoc, List.cons_append] at fits
        exact length_le_decimal ends sameNumber fits
    | word letters =>
        cases other with
        | word others =>
            exact
              length_le_of_startsOutside
                (@Word.isNameCharacter_of_mem others) ends fits
        | _ => cases sameWord
    | mark symbol =>
        cases other with
        | mark other => exact Nat.le_refl _
        | word letters => cases sameWord
        | _ => cases sameNumber

end Lexeme

end PlanarExpr
