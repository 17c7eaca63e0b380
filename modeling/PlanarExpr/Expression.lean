import PlanarExpr.Source.Span

namespace PlanarExpr

/-!
# Expressions

The tree of an expression has one type for each rule of the grammar:

    addition       = multiplication (("+" | "-") multiplication)*
    multiplication = unary (("*" | "/") unary)*
    unary          = ("+" | "-") unary | primary
    primary        = atom link*
    atom           = NUMBER | NAME | NAME arguments | "(" addition ")"
                   | "new" NAME ("." NAME)* arguments
    link           = "." NAME | "." NAME arguments
    arguments      = "(" (addition ("," addition)*)? ")"

An operator chain keeps its first term apart from the later ones, each of
which stands with the operator in front of it, so there is always one operator
less than there are terms. Every node knows the span of the source from its
first token to its last.
-/

/-- Plus or minus, between two terms or in front of one. -/
inductive Sign where
  | plus
  | minus
deriving DecidableEq

/-- The name of the token of a sign. -/
def Sign.label : Sign → String
  | .plus => "PLUS"
  | .minus => "MINUS"

/-- Times or over, between two factors. -/
inductive Scaling where
  | times
  | over
deriving DecidableEq

/-- The name of the token of a scaling. -/
def Scaling.label : Scaling → String
  | .times => "STAR"
  | .over => "SLASH"

/-- The dotted name of a type. -/
structure TypePath where
  first : String
  later : List String
deriving DecidableEq

/-- The names between the points. -/
def TypePath.segments (path : TypePath) : List String :=
  path.first :: path.later

/-- A path as it is written. -/
def TypePath.text (path : TypePath) : String :=
  String.intercalate "." path.segments

mutual

/-- A left-associative chain of `+` and `-`. -/
inductive Addition where
  | mk
      (span : Source.Span)
      (first : Multiplication)
      (later : List (Sign × Multiplication))

/-- A left-associative chain of `*` and `/`. -/
inductive Multiplication where
  | mk
      (span : Source.Span)
      (first : Unary)
      (later : List (Scaling × Unary))

/-- A primary behind any number of signs. -/
inductive Unary where
  | signed (span : Source.Span) (sign : Sign) (operand : Unary)
  | primary (operand : Primary)

/-- An atom followed by a chain of links. -/
inductive Primary where
  | mk (span : Source.Span) (atom : Atom) (chain : List Link)

/-- The start of a primary. -/
inductive Atom where
  /-- A number literal. -/
  | number (span : Source.Span) (value : Float)
  /-- A name on its own. -/
  | name (span : Source.Span) (name : String)
  /-- A call of a name; the second span is that of the name alone. -/
  | call
      (span : Source.Span)
      (name : String)
      (nameSpan : Source.Span)
      (arguments : List Addition)
  /-- A group in parentheses. -/
  | group (span : Source.Span) (inner : Addition)
  /-- The construction of an object. -/
  | construction
      (span : Source.Span)
      (path : TypePath)
      (arguments : List Addition)

/-- One access to a member; the second span is that of the member's name alone. -/
inductive Link where
  /-- A member on its own. -/
  | field
      (span : Source.Span)
      (member : String)
      (memberSpan : Source.Span)
  /-- A call of a member. -/
  | call
      (span : Source.Span)
      (member : String)
      (memberSpan : Source.Span)
      (arguments : List Addition)

end

/-- A complete expression. -/
structure Expression where
  root : Addition

/-- What an addition spans. -/
def Addition.span : Addition → Source.Span
  | .mk span _ _ => span

/-- What a multiplication spans. -/
def Multiplication.span : Multiplication → Source.Span
  | .mk span _ _ => span

/-- What a primary spans. -/
def Primary.span : Primary → Source.Span
  | .mk span _ _ => span

/-- What a unary expression spans, the sign included. -/
def Unary.span : Unary → Source.Span
  | .signed span _ _ => span
  | .primary operand => operand.span

/-- What an atom spans. -/
def Atom.span : Atom → Source.Span
  | .number span _ => span
  | .name span _ => span
  | .call span _ _ _ => span
  | .group span _ => span
  | .construction span _ _ => span

/-- What a link spans, from its point on. -/
def Link.span : Link → Source.Span
  | .field span _ _ => span
  | .call span _ _ _ => span

/-- What an expression spans. -/
def Expression.span (expression : Expression) : Source.Span :=
  expression.root.span

end PlanarExpr
