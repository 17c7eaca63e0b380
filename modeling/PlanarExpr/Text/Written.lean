import PlanarExpr.Text.Character

namespace PlanarExpr.Text

/-!
# Written integers and quoted texts

Natural numbers are written in base ten or sixteen, and fields are padded to a
width. A text is quoted with apostrophes, or with double quotes if it holds an
apostrophe and no double quote. The quote in use and the backslash stand
behind a backslash, and characters that do not show are written by their
code.
-/

/-! ## Integers -/

/-- The digit with the given value; letters are lower case. -/
def digitChar (value : Nat) : Char :=
  Char.ofNat (if value < 10 then 48 + value else 87 + value)

/-- The four, eight or any other number of low hexadecimal digits of a number. -/
def hexadecimal
    (width : Nat)
    (number : Nat) :
    List Char :=
  match width with
  | 0 => []
  | shorter + 1 => hexadecimal shorter (number / 16) ++ [digitChar (number % 16)]

/-- A natural number in decimal digits. -/
def natural (number : Nat) : List Char :=
  Nat.toDigits 10 number

/-- The decimal digits of an integer, behind a minus sign if it is negative. -/
def integer (number : Int) : String :=
  if number < 0 then
    String.ofList ('-' :: natural number.natAbs)
  else
    String.ofList (natural number.natAbs)

/-- A text filled up on the left to a width. -/
def padLeft
    (width : Nat)
    (fill : Char)
    (text : List Char) :
    List Char :=
  List.replicate (width - text.length) fill ++ text

/-! ## Quoted texts -/

/-- The quote that a text is written with. -/
def quoteFor (text : List Char) : Char :=
  if text.contains '\'' && !text.contains '"' then '"' else '\''

/-- How one character is written between the given quotes. -/
def escapeCharacter
    (quote c : Char) :
    List Char :=
  if c = quote ∨ c = '\\' then
    ['\\', c]
  else if c = '\t' then
    ['\\', 't']
  else if c = '\n' then
    ['\\', 'n']
  else if c = '\r' then
    ['\\', 'r']
  else if isPrintable c then
    [c]
  else if c.toNat < 0x100 then
    '\\' :: 'x' :: hexadecimal 2 c.toNat
  else if c.toNat < 0x10000 then
    '\\' :: 'u' :: hexadecimal 4 c.toNat
  else
    '\\' :: 'U' :: hexadecimal 8 c.toNat

/-- A text between quotes, with every character readable. -/
def quoted (text : List Char) : String :=
  let quote := quoteFor text
  String.ofList (quote :: text.flatMap (escapeCharacter quote) ++ [quote])

end PlanarExpr.Text
