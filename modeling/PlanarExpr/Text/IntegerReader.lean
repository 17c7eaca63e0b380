import PlanarExpr.Text.Character

namespace PlanarExpr.Text

/-!
# Reading integers

An integer is written with at most one sign and digits of any script. A single
low line may stand between two digits. Blanks around the whole are allowed,
except for the four separator controls. Texts with too many digits are
refused.
-/

/-! ## Decimal digits

Every script's decimal digits stand in a row of ten, in the order of their
values, so a row is known by its zero.
-/

/-- The code points of the zeros of Unicode 14, ascending. -/
def decimalZeros : List Nat :=
  [0x30, 0x660, 0x6F0, 0x7C0, 0x966, 0x9E6, 0xA66, 0xAE6, 0xB66, 0xBE6, 0xC66, 0xCE6,
    0xD66, 0xDE6, 0xE50, 0xED0, 0xF20, 0x1040, 0x1090, 0x17E0, 0x1810, 0x1946, 0x19D0,
    0x1A80, 0x1A90, 0x1B50, 0x1BB0, 0x1C40, 0x1C50, 0xA620, 0xA8D0, 0xA900, 0xA9D0,
    0xA9F0, 0xAA50, 0xABF0, 0xFF10, 0x104A0, 0x10D30, 0x11066, 0x110F0, 0x11136,
    0x111D0, 0x112F0, 0x11450, 0x114D0, 0x11650, 0x116C0, 0x11730, 0x118E0, 0x11950,
    0x11C50, 0x11D50, 0x11DA0, 0x16A60, 0x16AC0, 0x16B50, 0x1D7CE, 0x1D7D8, 0x1D7E2,
    0x1D7EC, 0x1D7F6, 0x1E140, 0x1E2F0, 0x1E950, 0x1FBF0]

/-- The value of a decimal digit of any script. -/
def decimalValue? (c : Char) : Option Nat :=
  (decimalZeros.find? fun first => first ≤ c.toNat && c.toNat ≤ first + 9).map
    (c.toNat - ·)

/-- A decimal digit is worth less than ten. -/
theorem decimalValue?_lt
    {c : Char}
    {value : Nat}
    (found : decimalValue? c = some value) :
    value < 10 := by
  obtain ⟨first, selected, same⟩ := Option.map_eq_some_iff.1 found
  have inRow := List.find?_some selected
  simp only [Bool.and_eq_true, decide_eq_true_eq] at inRow
  omega

/-! ## Integers -/

/-- Whether a character may stand around an integer. -/
def isMargin (c : Char) : Bool :=
  isBlank c && !(0x1C ≤ c.toNat && c.toNat ≤ 0x1F)

/-- A text without the margins at its two ends. -/
def dropMargins (text : List Char) : List Char :=
  ((text.dropWhile isMargin).reverse.dropWhile isMargin).reverse

/-- The values of digits with single low lines between some of them. -/
def groupedDigits? : List Char → Option (List Nat)
  | [] => none
  | [c] => (decimalValue? c).map ([·])
  | c :: '_' :: rest => do
      let value ← decimalValue? c
      let later ← groupedDigits? rest
      return value :: later
  | c :: next :: rest => do
      let value ← decimalValue? c
      let later ← groupedDigits? (next :: rest)
      return value :: later

/-- How many digits an integer may have. -/
def digitLimit : Nat := 4300

/-- The number that digits in base ten stand for. -/
def numberOfDigits (digits : List Nat) : Nat :=
  digits.foldl (fun number digit => 10 * number + digit) 0

/-- The natural number that a text without margins and sign stands for. -/
def readNatural? (text : List Char) : Option Nat :=
  match groupedDigits? text with
  | none => none
  | some digits =>
      if digitLimit < digits.length then none else some (numberOfDigits digits)

/-- The integer that a text stands for. -/
def readInteger? (text : List Char) : Option Int :=
  match dropMargins text with
  | '-' :: rest => (readNatural? rest).map fun number => -(number : Int)
  | '+' :: rest => (readNatural? rest).map fun number => (number : Int)
  | rest => (readNatural? rest).map fun number => (number : Int)

end PlanarExpr.Text
