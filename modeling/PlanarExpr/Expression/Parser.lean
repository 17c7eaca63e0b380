import PlanarExpr.Diagnostic.Problem
import PlanarExpr.Expression
import PlanarExpr.Text.Portion
import PlanarExpr.Token

namespace PlanarExpr

/-!
# Reading an expression from its tokens

Each rule of the grammar reads from the front of a list of tokens and leaves
the rest, or fails at the first token that cannot continue the input. The
empty list is the end of the input.

Additions and signs use up room for nesting, and every other rule that calls
itself does so through one of these two. So the room left is what the reading
recurses on, and the nesting limit is the room it starts with. The repetitions
inside a rule use up tokens, so the number of tokens bounds them.
-/

/-- What the grammar asks for at some place. -/
inductive Expectation where
  | expression
  | typeName
  | memberName
  | openParen
  | closeParen
  | closeParenOrComma
deriving DecidableEq

/-- What was expected, in words. -/
def Expectation.text : Expectation → String
  | .expression => "expression"
  | .typeName => "type name"
  | .memberName => "member name"
  | .openParen => "'('"
  | .closeParen => "')'"
  | .closeParenOrComma => "')' or ','"

/-- Why tokens are no expression. -/
inductive ParseFault where
  | expected (what : Expectation)
  | noExpression
  | trailingInput
  | tooDeep
deriving DecidableEq

/-- A fault and the tokens from the one at fault on; none if the input ends too early. -/
structure ParseFailure where
  fault : ParseFault
  rest : List Token
deriving DecidableEq

/-- Reads a value from the front of a list of tokens and leaves the rest. -/
abbrev TokenReader (α : Type) :=
  List Token → Except ParseFailure (α × List Token)

namespace TokenReader

/-- A reader that always fails, where it starts. -/
def fail (fault : ParseFault) : TokenReader α :=
  fun tokens => .error { fault := fault, rest := tokens }

/-- Reads one token of the given kind. -/
def exactly
    (kind : Token.Kind)
    (what : Expectation) :
    TokenReader Token
  | [] => fail (.expected what) []
  | token :: rest =>
      if token.kind = kind then
        .ok (token, rest)
      else
        fail (.expected what) (token :: rest)

/-- Reads one name. -/
def name (what : Expectation) : TokenReader (String × Token)
  | [] => fail (.expected what) []
  | token :: rest =>
      match token.kind with
      | .identifier found => .ok ((found, token), rest)
      | _ => fail (.expected what) (token :: rest)

/-- Reads an item behind each separator, as long as there is one and the budget lasts. -/
def repeated
    (separator? : Token.Kind → Option σ)
    (item : TokenReader α) :
    Nat →
    TokenReader (List (σ × α))
  | 0, tokens => .ok ([], tokens)
  | _ + 1, [] => .ok ([], [])
  | budget + 1, token :: rest =>
      match separator? token.kind with
      | none => .ok ([], token :: rest)
      | some separator => do
          let (value, behind) ← item rest
          let (later, remaining) ← repeated separator? item budget behind
          return ((separator, value) :: later, remaining)

end TokenReader

/-- The sign that a token writes. -/
def Sign.ofKind? : Token.Kind → Option Sign
  | .plus => some .plus
  | .minus => some .minus
  | _ => none

/-- The scaling that a token writes. -/
def Scaling.ofKind? : Token.Kind → Option Scaling
  | .star => some .times
  | .slash => some .over
  | _ => none

/-- Recognises the separator of arguments. -/
def comma? : Token.Kind → Option Unit
  | .comma => some ()
  | _ => none

/-- Recognises the separator of names. -/
def dot? : Token.Kind → Option Unit
  | .dot => some ()
  | _ => none

/-- The span from the first of some spans to the last item of a list that follows it. -/
def spanThrough
    (first : Source.Span)
    (spanOf : α → Source.Span)
    (later : List α) :
    Source.Span :=
  match later.getLast? with
  | some last => first.through (spanOf last)
  | none => first

namespace Grammar

open TokenReader

/-- The deepest nesting of additions and signs that is read. -/
def nestingLimit : Nat := 64

/-- Reads a multiplication whose factors are read by the given reader. -/
def multiplication
    (budget : Nat)
    (unary : TokenReader Unary) :
    TokenReader Multiplication :=
  fun tokens => do
    let (first, behind) ← unary tokens
    let (later, rest) ← repeated Scaling.ofKind? unary budget behind
    let span := spanThrough first.span (fun (_, factor) => factor.span) later
    return (.mk span first later, rest)

/-- Reads an addition whose factors are read by the given reader. -/
def additionOf
    (budget : Nat)
    (unary : TokenReader Unary) :
    TokenReader Addition :=
  fun tokens => do
    let (first, behind) ← multiplication budget unary tokens
    let (later, rest) ←
      repeated Sign.ofKind? (multiplication budget unary) budget behind
    let span := spanThrough first.span (fun (_, term) => term.span) later
    return (.mk span first later, rest)

/--
Reads the arguments of a call behind their opening parenthesis, and the token
that closes them.
-/
def argumentItems
    (budget : Nat)
    (addition : TokenReader Addition) :
    TokenReader (List Addition × Token) :=
  fun tokens =>
    match exactly .closeParen .closeParenOrComma tokens with
    | .ok (close, rest) => .ok (([], close), rest)
    | .error _ => do
        let (first, behind) ← addition tokens
        let (later, remaining) ← repeated comma? addition budget behind
        let (close, rest) ← exactly .closeParen .closeParenOrComma remaining
        return ((first :: later.map Prod.snd, close), rest)

/-- Reads the arguments of a call and the token that closes them. -/
def arguments
    (budget : Nat)
    (addition : TokenReader Addition) :
    TokenReader (List Addition × Token) :=
  fun tokens => do
    let (_, behind) ← exactly .openParen .openParen tokens
    argumentItems budget addition behind

/-- Reads what may follow a name: its arguments, if a parenthesis opens them. -/
def arguments?
    (budget : Nat)
    (addition : TokenReader Addition) :
    TokenReader (Option (List Addition × Token)) :=
  fun tokens =>
    match tokens with
    | [] => .ok (none, [])
    | token :: behind =>
        if token.kind = .openParen then do
          let (found, rest) ← argumentItems budget addition behind
          return (some found, rest)
        else
          .ok (none, token :: behind)

/-- Reads a member behind its point. -/
def link
    (budget : Nat)
    (addition : TokenReader Addition)
    (dot : Token) :
    TokenReader Link :=
  fun tokens => do
    let ((member, token), behind) ← name .memberName tokens
    let (called, rest) ← arguments? budget addition behind
    match called with
    | none =>
        return (.field (dot.span.through token.span) member token.span, rest)
    | some (items, close) =>
        return (.call (dot.span.through close.span) member token.span items, rest)

/-- Reads a chain of links, as long as there is one and the budget lasts. -/
def links
    (budget : Nat)
    (addition : TokenReader Addition) :
    Nat →
    TokenReader (List Link)
  | 0, tokens => .ok ([], tokens)
  | _ + 1, [] => .ok ([], [])
  | steps + 1, token :: rest =>
      if token.kind = .dot then do
        let (first, behind) ← link budget addition token rest
        let (later, remaining) ← links budget addition steps behind
        return (first :: later, remaining)
      else
        .ok ([], token :: rest)

/-- Reads a construction behind its keyword. -/
def construction
    (budget : Nat)
    (addition : TokenReader Addition)
    (keyword : Token) :
    TokenReader Atom :=
  fun tokens => do
    let ((first, _), behind) ← name .typeName tokens
    let (later, remaining) ← repeated dot? (name .typeName) budget behind
    let ((items, close), rest) ← arguments budget addition remaining
    let path : TypePath :=
      { first := first, later := later.map fun (_, segment, _) => segment }
    return (.construction (keyword.span.through close.span) path items, rest)

/-- Reads a group behind its opening parenthesis. -/
def group
    (addition : TokenReader Addition)
    (opening : Token) :
    TokenReader Atom :=
  fun tokens => do
    let (inner, behind) ← addition tokens
    let (close, rest) ← exactly .closeParen .closeParen behind
    return (.group (opening.span.through close.span) inner, rest)

/-- Reads a name and its arguments, if it is called. -/
def nameOrCall
    (budget : Nat)
    (addition : TokenReader Addition)
    (identifier : String)
    (token : Token) :
    TokenReader Atom :=
  fun tokens => do
    let (called, rest) ← arguments? budget addition tokens
    match called with
    | none =>
        return (.name token.span identifier, rest)
    | some (items, close) =>
        return (.call (token.span.through close.span) identifier token.span items,
          rest)

/-- Reads an atom, told from its first token. -/
def atom
    (budget : Nat)
    (addition : TokenReader Addition) :
    TokenReader Atom
  | [] => fail (.expected .expression) []
  | token :: rest =>
      match token.kind with
      | .number value => .ok (.number token.span value, rest)
      | .new => construction budget addition token rest
      | .identifier identifier => nameOrCall budget addition identifier token rest
      | .openParen => group addition token rest
      | _ => fail (.expected .expression) (token :: rest)

/-- Reads a primary. -/
def primary
    (budget : Nat)
    (addition : TokenReader Addition) :
    TokenReader Primary :=
  fun tokens => do
    let (first, behind) ← atom budget addition tokens
    let (chain, rest) ← links budget addition budget behind
    return (.mk (spanThrough first.span Link.span chain) first chain, rest)

/-- Reads a sign with its operand, or a primary. -/
def signedOr
    (budget : Nat)
    (operand : TokenReader Unary)
    (addition : TokenReader Addition) :
    TokenReader Unary :=
  fun tokens =>
    match tokens with
    | [] => fail (.expected .expression) []
    | token :: behind =>
        match Sign.ofKind? token.kind with
        | some sign => do
            let (inner, rest) ← operand behind
            return (.signed (token.span.through inner.span) sign inner, rest)
        | none => do
            let (inner, rest) ← primary budget addition (token :: behind)
            return (.primary inner, rest)

/-- Reads a unary expression in the given room for nesting. -/
def unary
    (budget : Nat) :
    Nat →
    TokenReader Unary
  | 0 => signedOr budget (fail .tooDeep) (fail .tooDeep)
  | room + 1 =>
      signedOr budget (unary budget room) (additionOf budget (unary budget room))

/-- Reads an addition inside others; room is left for so many more levels of nesting. -/
def addition
    (budget : Nat) :
    Nat →
    TokenReader Addition
  | 0 => fail .tooDeep
  | room + 1 => additionOf budget (unary budget room)

end Grammar

/-- The expression that a list of tokens writes. -/
def Expression.ofTokens
    (tokens : List Token) :
    Except ParseFailure Expression := do
  if tokens.isEmpty then
    throw { fault := .noExpression, rest := [] }
  let (root, rest) ← Grammar.addition tokens.length Grammar.nestingLimit tokens
  if rest.isEmpty then
    return { root := root }
  else
    throw { fault := .trailingInput, rest := rest }

namespace ParseFailure

/-- Where a failure is reported: at the token it starts from, or at the end of the text. -/
def span
    (failure : ParseFailure)
    (finish : Source.Span) :
    Source.Span :=
  match failure.rest with
  | [] => finish
  | token :: _ => token.span

/-- The problem that a failure reports. -/
def problem (failure : ParseFailure) : Problem :=
  match failure.fault, failure.rest with
  | .expected what, [] => .unexpectedEnd what.text
  | .expected what, token :: _ => .unexpectedToken what.text token.description
  | .noExpression, _ => .invalidExpression
  | .trailingInput, [] => .invalidExpression
  | .trailingInput, token :: _ => .trailingInput token.description
  | .tooDeep, _ => .nestingTooDeep Grammar.nestingLimit

/-- Whether the source line is shown with a failure. -/
def showsSource (failure : ParseFailure) : Bool :=
  match failure.fault, failure.rest with
  | .tooDeep, _ => true
  | _, [] => false
  | _, _ :: _ => true

/-- The diagnostic for a failure in a text, which may be unknown. -/
def diagnostic
    (failure : ParseFailure)
    (source : Option (List Char))
    (finish : Source.Span) :
    Diagnostic :=
  let span := failure.span finish
  let line :=
    if failure.showsSource then
      source.bind fun text => Text.displayLine? text span.start.line
    else
      none
  failure.problem.diagnostic span (line.map String.ofList)

end ParseFailure

/-- The expression that a stream of tokens writes, or the diagnostic that says why there is none. -/
def TokenStream.parse
    (stream : TokenStream)
    (source : Option (List Char)) :
    Except Diagnostic Expression :=
  match Expression.ofTokens stream.tokens with
  | .ok expression => .ok expression
  | .error failure => .error (failure.diagnostic source stream.finish)

end PlanarExpr
