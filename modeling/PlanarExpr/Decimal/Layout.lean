import PlanarExpr.Decimal.Rounding
import PlanarExpr.Decimal.Shortest

namespace PlanarExpr.Decimal

/-!
# How the shortest digits are laid out

Numbers of ordinary size are written positionally, with at least one digit on
either side of the point. All others are written with one digit before the
point and an exponent of ten that has a sign and at least two digits.
-/

/-- The decisions of a number format that the digits leave open. -/
structure Layout where
  /-- The least exponent of a leading digit that is written positionally. -/
  positionalFrom : Int
  /-- The first exponent of a leading digit that is no longer written positionally. -/
  positionalBelow : Int
  /-- The least count of exponent digits. -/
  exponentWidth : Nat
  /-- How a value that is no number is written. -/
  notANumber : String
  /-- How positive infinity is written. -/
  infinity : String

/-- The format of numbers in messages, dumps and printed results. -/
def Layout.plain : Layout where
  positionalFrom := -4
  positionalBelow := 16
  exponentWidth := 2
  notANumber := "nan"
  infinity := "inf"

/-- The digits of a number with the point set behind the digit of exponent zero. -/
def positional
    (digits : List Char)
    (lead : Int) :
    List Char :=
  if lead < 0 then
    '0' :: '.' :: List.replicate (lead.natAbs - 1) '0' ++ digits
  else
    let wholeLength := lead.toNat + 1
    if digits.length ≤ wholeLength then
      digits ++ List.replicate (wholeLength - digits.length) '0' ++ ['.', '0']
    else
      digits.take wholeLength ++ '.' :: digits.drop wholeLength

/-- The digits of a number with one digit before the point, and the exponent behind them. -/
def scientific
    (exponentWidth : Nat)
    (digits : List Char)
    (lead : Int) :
    List Char :=
  let fraction := if digits.length ≤ 1 then [] else '.' :: digits.drop 1
  let sign := if lead < 0 then '-' else '+'
  digits.take 1 ++ fraction ++
    'e' :: sign :: Text.padLeft exponentWidth '0' (Text.natural lead.natAbs)

/-- A magnitude in the given layout. -/
def Layout.magnitude
    (layout : Layout)
    (x : Binary) :
    List Char :=
  if x.significand = 0 then
    ['0', '.', '0']
  else
    let number := x.shortest
    let digits := Text.natural number.digits
    let lead := number.exponent + digits.length - 1
    if layout.positionalFrom ≤ lead ∧ lead < layout.positionalBelow then
      positional digits lead
    else
      scientific layout.exponentWidth digits lead

/-- A number in a layout. -/
def Layout.render
    (layout : Layout)
    (x : Float) :
    String :=
  match Parts.ofFloat x with
  | .notANumber => layout.notANumber
  | .infinite negative =>
      String.ofList (signText negative ++ layout.infinity.toList)
  | .finite negative magnitude =>
      String.ofList (signText negative ++ layout.magnitude magnitude)

/-- A number as messages, dumps and results write it. -/
def shortest (x : Float) : String :=
  Layout.plain.render x

/-- A number as results write it: an integer without point and exponent. -/
def concise (x : Float) : String :=
  match toInt? x with
  | some value => Text.integer value
  | none => shortest x

end PlanarExpr.Decimal
