import PlanarExpr.Decimal.Layout
import PlanarExpr.Source.Span
import PlanarExpr.Text.Written

namespace PlanarExpr

/-!
# Tokens

A token is a number, a name, the keyword `new`, or one punctuation character.
The end of the input is no token: a stream of tokens keeps the place of its
end next to its tokens.
-/

/-- What a token stands for. -/
inductive Token.Kind where
  | number (value : Float)
  | identifier (name : String)
  | new
  | dot
  | openParen
  | closeParen
  | comma
  | plus
  | minus
  | star
  | slash
deriving DecidableEq

/-- A token with its text and its place. -/
structure Token where
  kind : Token.Kind
  /-- The characters of the source that make up the token. -/
  lexeme : String
  span : Source.Span
deriving DecidableEq

namespace Token

/-- The name of a kind. -/
def Kind.label : Kind → String
  | .number _ => "NUMBER"
  | .identifier _ => "IDENTIFIER"
  | .new => "NEW"
  | .dot => "DOT"
  | .openParen => "LPAREN"
  | .closeParen => "RPAREN"
  | .comma => "COMMA"
  | .plus => "PLUS"
  | .minus => "MINUS"
  | .star => "STAR"
  | .slash => "SLASH"

/-- A token in words, with the value of a number or a name. -/
def text (token : Token) : String :=
  match token.kind with
  | .number value => token.kind.label ++ "(" ++ Decimal.shortest value ++ ")"
  | .identifier name => token.kind.label ++ "(" ++ Text.quoted name.toList ++ ")"
  | _ => token.kind.label

/-- A token as an error message names it. -/
def description (token : Token) : String :=
  match token.kind with
  | .number _ => token.kind.label ++ " '" ++ token.lexeme ++ "'"
  | .identifier _ => token.kind.label ++ " '" ++ token.lexeme ++ "'"
  | _ => "'" ++ token.lexeme ++ "'"

/-- The name that a token gives, if it is a name. -/
def name? (token : Token) : Option String :=
  match token.kind with
  | .identifier name => some name
  | _ => none

/-- Whether a token is a name. -/
def isName (token : Token) : Bool :=
  token.name?.isSome

/-- The offset of the first character of a token. -/
def startOffset (token : Token) : Nat :=
  token.span.start.offset

/-- The offset behind the last character of a token. -/
def stopOffset (token : Token) : Nat :=
  token.span.stop.offset

end Token

/-- The tokens of a text and the empty span at its end. -/
structure TokenStream where
  tokens : List Token
  finish : Source.Span
deriving DecidableEq

/-- One entry of the listing of a token stream. -/
structure TokenEntry where
  /-- The entry in words. -/
  text : String
  lexeme : String
  span : Source.Span

namespace TokenStream

/-- The rows of a token table; the end of the text has one as well. -/
def entries (stream : TokenStream) : List TokenEntry :=
  stream.tokens.map (fun token =>
      { text := token.text, lexeme := token.lexeme, span := token.span }) ++
    [{ text := "EOF", lexeme := "", span := stream.finish }]

/-- The names among the tokens, in order. -/
def names (stream : TokenStream) : List Token :=
  stream.tokens.filter (·.isName)

/--
The stream that consists of the first entries only. Its end mark is the last
entry, so a shorter cut has no end mark and gives no stream.
-/
def take?
    (stream : TokenStream)
    (count : Nat) :
    Option TokenStream :=
  if stream.tokens.length < count then some stream else none

/-- What is said about tokens that lack their end mark. -/
def missingEndMessage : String :=
  "token list must end with an EOF token"

end TokenStream

end PlanarExpr
