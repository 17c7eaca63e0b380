import PlanarExpr.Decimal.Literal
import PlanarExpr.Diagnostic.Collection
import PlanarExpr.Diagnostic.Problem
import PlanarExpr.Log
import PlanarExpr.Text.Character
import PlanarExpr.Text.Portion
import PlanarExpr.Token

namespace PlanarExpr

/-!
# Splitting a text into tokens

A text falls into pieces: blanks, tokens, and stray characters that belong to
no token. A number or a name reaches as far as it can. A point belongs to a
number only if a digit follows it.

Stray characters are reported and skipped, so the tokens around them are still
found. Once the error limit is reached the rest of the text is given up.
-/

/-- Whether a character may start a name. -/
def isNameStart (c : Char) : Bool :=
  c = '_' || ('a' ≤ c && c ≤ 'z') || ('A' ≤ c && c ≤ 'Z')

/-- Whether a character may stand in a name behind its start. -/
def isNameCharacter (c : Char) : Bool :=
  isNameStart c || Decimal.isDigit c

/-- What starts a name may also stand behind its start. -/
theorem isNameCharacter_of_isNameStart
    {c : Char}
    (starts : isNameStart c = true) :
    isNameCharacter c = true := by
  rw [isNameCharacter, starts, Bool.true_or]

/-- A digit may stand in a name. -/
theorem isNameCharacter_of_isDigit
    {c : Char}
    (digit : Decimal.isDigit c = true) :
    isNameCharacter c = true := by
  rw [isNameCharacter, digit, Bool.or_true]

/-- The kind of a punctuation character. -/
def punctuation? : Char → Option Token.Kind
  | '.' => some .dot
  | '(' => some .openParen
  | ')' => some .closeParen
  | ',' => some .comma
  | '+' => some .plus
  | '-' => some .minus
  | '*' => some .star
  | '/' => some .slash
  | _ => none

/-- The kind of a name or keyword. -/
def wordKind (word : List Char) : Token.Kind :=
  if word = ['n', 'e', 'w'] then .new else .identifier (String.ofList word)

/-- A piece of a text. -/
inductive Piece where
  | blank (c : Char)
  | token (kind : Token.Kind) (lexeme : List Char)
  | stray (c : Char)
deriving DecidableEq

namespace Piece

/-- The characters a piece stands for. -/
def characters : Piece → List Char
  | .blank c => [c]
  | .token _ lexeme => lexeme
  | .stray c => [c]

/-- The longest number at the start of a text, and the rest. -/
def splitNumber (text : List Char) : List Char × List Char :=
  let whole := text.takeWhile Decimal.isDigit
  match text.dropWhile Decimal.isDigit with
  | '.' :: digit :: rest =>
      if Decimal.isDigit digit then
        (whole ++ '.' :: (digit :: rest).takeWhile Decimal.isDigit,
          (digit :: rest).dropWhile Decimal.isDigit)
      else
        (whole, '.' :: digit :: rest)
  | rest => (whole, rest)

/-- The first piece of a text that starts with the given character, and the rest. -/
def split
    (c : Char)
    (rest : List Char) :
    Piece × List Char :=
  if Text.isBlank c then
    (.blank c, rest)
  else if Decimal.isDigit c then
    let (lexeme, behind) := splitNumber (c :: rest)
    (.token (.number (Decimal.literalValue lexeme)) lexeme, behind)
  else if isNameStart c then
    let word := (c :: rest).takeWhile isNameCharacter
    (.token (wordKind word) word, (c :: rest).dropWhile isNameCharacter)
  else
    match punctuation? c with
    | some kind => (.token kind [c], rest)
    | none => (.stray c, rest)

/-- The first pieces of a text, at most as many as the budget allows. -/
def firstPieces :
    Nat →
    List Char →
    List Piece
  | 0, _ => []
  | _ + 1, [] => []
  | budget + 1, c :: rest =>
      let (piece, behind) := split c rest
      piece :: firstPieces budget behind

/-- The pieces of a text; there are at most as many as it has characters. -/
def pieces (text : List Char) : List Piece :=
  firstPieces text.length text

end Piece

/-- What splitting a text gave. -/
structure Lexed where
  stream : TokenStream
  diagnostics : List Diagnostic

namespace Lexed

/-- Whether every character found its place. -/
def isClean (lexed : Lexed) : Bool :=
  lexed.diagnostics.isEmpty

/-- Puts a token before what was read. -/
def addToken
    (token : Token)
    (lexed : Lexed) :
    Lexed :=
  { lexed with
    stream := { lexed.stream with tokens := token :: lexed.stream.tokens } }

/-- Puts a diagnostic before those that were found. -/
def addDiagnostic
    (diagnostic : Diagnostic)
    (lexed : Lexed) :
    Lexed :=
  { lexed with diagnostics := diagnostic :: lexed.diagnostics }

/-- Nothing but an end at a place. -/
def ending
    (place : Source.Place)
    (file : String) :
    Lexed :=
  {
    stream := { tokens := [], finish := { start := place, stop := place, file := file } }
    diagnostics := []
  }

/--
The tokens and diagnostics of the pieces that start at a place. When no more
errors are allowed the end is put behind the whole text, on the line and
column that were reached.
-/
def ofPieces
    (text : List Char)
    (file : String) :
    Nat →
    Source.Place →
    List Piece →
    Lexed
  | 0, place, _ => ending { place with offset := text.length } file
  | _ + 1, place, [] => ending place file
  | allowed + 1, place, piece :: rest =>
      let stop := place.after piece.characters
      let span : Source.Span := { start := place, stop := stop, file := file }
      match piece with
      | .blank _ => ofPieces text file (allowed + 1) stop rest
      | .token kind lexeme =>
          addToken
            { kind := kind, lexeme := String.ofList lexeme, span := span }
            (ofPieces text file (allowed + 1) stop rest)
      | .stray c =>
          addDiagnostic
            ((Problem.unexpectedCharacter (String.singleton c)).diagnostic span
              ((Text.displayLine? text place.line).map String.ofList))
            (ofPieces text file allowed stop rest)

/-- The tokens of a text with a name, up to an error limit. -/
def ofNamedText
    (text : List Char)
    (file : String)
    (errorLimit : Int) :
    Lexed :=
  ofPieces text file errorLimit.toNat Source.Place.start (Piece.pieces text)

/-- The tokens of a text. -/
def ofText (text : List Char) : Lexed :=
  ofNamedText text "" defaultErrorLimit

/-- What splitting a text reports. -/
def log
    (text : List Char)
    (lexed : Lexed) :
    List LogRecord :=
  if lexed.isClean then
    []
  else
    [.debug "poseval.lexer"
      ("lexing " ++ Text.quoted text ++ " produced " ++
        Text.integer lexed.diagnostics.length ++ " error(s)")]

end Lexed

end PlanarExpr
