namespace PlanarExpr.Decimal

/-!
# Number literals

A literal is a run of digits, with a point and a second run of digits behind
it or without. It stands for the floating point number nearest to it, or for
infinity if it is too large.
-/

/-- Whether a character is one of the ten ASCII digits. -/
def isDigit (c : Char) : Bool :=
  '0' ≤ c && c ≤ '9'

/-- The value of a run of digits. -/
def digitsValue (digits : List Char) : Nat :=
  digits.foldl (fun value digit => value * 10 + (digit.toNat - '0'.toNat)) 0

/-- The floating point number nearest to `digits * 10 ^ exponent`. -/
def nearest
    (digits : Nat)
    (exponent : Int) :
    Float :=
  Float.ofScientific digits (decide (exponent < 0)) exponent.natAbs

/-- The value of a number literal. -/
def literalValue (literal : List Char) : Float :=
  let whole := literal.takeWhile isDigit
  let fraction := (literal.dropWhile isDigit).drop 1
  nearest (digitsValue (whole ++ fraction)) (-(fraction.length : Int))

/-! ## The value of a literal on its digits -/

/-- Further digits move those in front of them up by their number. -/
theorem digitsValue_append (front digits : List Char) :
    digitsValue (front ++ digits) =
      digitsValue front * Nat.pow 10 digits.length + digitsValue digits := by
  have fold
      (start : Nat)
      (digits : List Char) :
      digits.foldl (fun value digit => value * 10 + (digit.toNat - '0'.toNat)) start =
        start * Nat.pow 10 digits.length + digitsValue digits := by
    induction digits generalizing start with
    | nil => exact (Nat.mul_one start).symm
    | cons digit rest inductionHypothesis =>
        have power : Nat.pow 10 (rest.length + 1) = Nat.pow 10 rest.length * 10 := rfl
        rw [digitsValue, List.foldl_cons, List.foldl_cons, inductionHypothesis,
          inductionHypothesis, List.length_cons, power]
        grind
  rw [digitsValue, List.foldl_append, fold]
  rfl

/-- Digits without a point stand for their value. -/
theorem literalValue_whole
    {digits : List Char}
    (areDigits : ∀ c ∈ digits, isDigit c = true) :
    literalValue digits = nearest (digitsValue digits) 0 := by
  have parts := @List.takeWhile_append_of_pos _ isDigit digits [] areDigits
  have behind := @List.dropWhile_append_of_pos _ isDigit digits [] areDigits
  rw [List.append_nil, List.takeWhile_nil, List.append_nil] at parts
  rw [List.append_nil, List.dropWhile_nil] at behind
  rw [literalValue, parts, behind, List.drop_nil, List.append_nil]
  rfl

/-- Digits behind a point stand for as many powers of ten less as there are of them. -/
theorem literalValue_decimal
    {whole : List Char}
    (areDigits : ∀ c ∈ whole, isDigit c = true)
    (fraction : List Char) :
    literalValue (whole ++ '.' :: fraction) =
      nearest (digitsValue whole * Nat.pow 10 fraction.length + digitsValue fraction)
        (-(fraction.length : Int)) := by
  have point : isDigit '.' ≠ true := by decide
  rw [literalValue, List.takeWhile_append_of_pos areDigits,
    List.dropWhile_append_of_pos areDigits, List.takeWhile_cons_of_neg point,
    List.dropWhile_cons_of_neg point, List.append_nil, List.drop_succ_cons, List.drop_zero,
    digitsValue_append]

/-- The floating point number nearest to an integer, unless it would be infinite. -/
def ofInt? (value : Int) : Option Float :=
  let magnitude := nearest value.natAbs 0
  if magnitude.isInf then
    none
  else
    some (if value < 0 then -magnitude else magnitude)

end PlanarExpr.Decimal
