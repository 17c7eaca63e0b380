import PlanarExpr.Decimal.Layout
import PlanarExpr.Expression
import PlanarExpr.Text.Written

namespace PlanarExpr

/-!
# Dumping an expression

A dump shows a tree as indented lines. A node is its class name, below it one
entry for each of its parts. Parts that are nodes stand two levels deeper than
the node they belong to; so do the items of a list, between brackets. Spans
are left out.
-/

namespace Dump

/-- One line of a dump; a level is two blanks wide. -/
structure Line where
  level : Nat
  text : String
deriving DecidableEq

/-- A line behind its indentation. -/
def Line.render (line : Line) : String :=
  String.ofList (List.replicate (2 * line.level) ' ') ++ line.text

/-- The lines of a dump as one text. -/
def render (lines : List Line) : String :=
  String.intercalate "\n" (lines.map Line.render)

/-- A part that is a single node. -/
def childField
    (level : Nat)
    (name : String)
    (child : List Line) :
    List Line :=
  { level := level + 1, text := name ++ ":" } :: child

/-- A part that is written on one line. -/
def scalarField
    (level : Nat)
    (name value : String) :
    List Line :=
  [{ level := level + 1, text := name ++ ": " ++ value }]

/-- A part that is a list, given the lines of its items. -/
def listField
    (level : Nat)
    (name : String)
    (items : List Line) :
    List Line :=
  { level := level + 1, text := name ++ ": [" } ::
    items ++ [{ level := level + 1, text := "]" }]

/-- The lines of items that are no nodes. -/
def plainItems
    (level : Nat)
    (items : List String) :
    List Line :=
  items.map fun item => { level := level + 2, text := item }

/-- An operator chain, given the lines of its terms and the names of its operators. -/
def chainNode
    (level : Nat)
    (label : String)
    (terms : List Line)
    (operators : List String) :
    List Line :=
  { level := level, text := label } ::
    listField level "terms" terms ++
      listField level "operators" (plainItems level operators)

/-- The lines of a name, given the lines of its arguments if it is called. -/
def callFields
    (level : Nat)
    (label name : String)
    (arguments : Option (List Line)) :
    List Line :=
  scalarField level label (Text.quoted name.toList) ++
    match arguments with
    | none => scalarField level "arguments" "None"
    | some items => listField level "arguments" items

mutual

/-- The dump of an addition. -/
def addition
    (level : Nat) :
    Addition →
    List Line
  | .mk _ first later =>
      chainNode level "Addition"
        (multiplication (level + 2) first ++ laterTerms (level + 2) later)
        (later.map fun (sign, _) => sign.label)

/-- The dumps of the later terms of an addition. -/
def laterTerms
    (level : Nat) :
    List (Sign × Multiplication) →
    List Line
  | [] => []
  | (_, term) :: rest => multiplication level term ++ laterTerms level rest

/-- The dump of a multiplication. -/
def multiplication
    (level : Nat) :
    Multiplication →
    List Line
  | .mk _ first later =>
      chainNode level "Multiplication"
        (unary (level + 2) first ++ laterFactors (level + 2) later)
        (later.map fun (scaling, _) => scaling.label)

/-- The dumps of the later factors of a multiplication. -/
def laterFactors
    (level : Nat) :
    List (Scaling × Unary) →
    List Line
  | [] => []
  | (_, factor) :: rest => unary level factor ++ laterFactors level rest

/-- The dump of a unary expression; one without a sign is the dump of its primary. -/
def unary
    (level : Nat) :
    Unary →
    List Line
  | .signed _ sign operand =>
      { level := level, text := "SignedUnary" } ::
        scalarField level "sign" sign.label ++
          childField level "operand" (unary (level + 2) operand)
  | .primary operand => primary level operand

/-- The dump of a primary. -/
def primary
    (level : Nat) :
    Primary →
    List Line
  | .mk _ first chain =>
      { level := level, text := "Primary" } ::
        childField level "atom" (atom (level + 2) first) ++
          listField level "chain" (links (level + 2) chain)

/-- The dump of an atom. -/
def atom
    (level : Nat) :
    Atom →
    List Line
  | .number _ value =>
      { level := level, text := "NumberLiteral" } ::
        scalarField level "value" (Decimal.shortest value)
  | .name _ name =>
      { level := level, text := "Identifier" } :: callFields level "name" name none
  | .call _ name _ items =>
      { level := level, text := "Identifier" } ::
        callFields level "name" name (some (arguments (level + 2) items))
  | .group _ inner =>
      { level := level, text := "Parenthesized" } ::
        childField level "expression" (addition (level + 2) inner)
  | .construction _ path items =>
      { level := level, text := "Construction" } ::
        listField level "type_path"
          (plainItems level (path.segments.map fun name => Text.quoted name.toList)) ++
          listField level "arguments" (arguments (level + 2) items)

/-- The dumps of the links of a chain. -/
def links
    (level : Nat) :
    List Link →
    List Line
  | [] => []
  | first :: rest => link level first ++ links level rest

/-- The dump of a link. -/
def link
    (level : Nat) :
    Link →
    List Line
  | .field _ member _ =>
      { level := level, text := "ChainLink" } ::
        callFields level "member" member none
  | .call _ member _ items =>
      { level := level, text := "ChainLink" } ::
        callFields level "member" member (some (arguments (level + 2) items))

/-- The dumps of arguments. -/
def arguments
    (level : Nat) :
    List Addition →
    List Line
  | [] => []
  | first :: rest => addition level first ++ arguments level rest

end

/-- The dump of an expression. -/
def expression (whole : Expression) : List Line :=
  { level := 0, text := "Expression" } ::
    childField 0 "root" (addition 2 whole.root)

/-- Which operator chain is asked for. -/
inductive ChainKind where
  | addition
  | multiplication

/-- The class name of an operator chain. -/
def ChainKind.label : ChainKind → String
  | .addition => "Addition"
  | .multiplication => "Multiplication"

/--
The dump of an operator chain with texts for terms. A chain has one operator
less than terms, so another number of operators is refused.
-/
def textChain
    (kind : ChainKind)
    (terms operators : List String) :
    Except String String :=
  let needed := (terms.length : Int) - 1
  if (operators.length : Int) = needed then
    let lines := plainItems 0 (terms.map fun term => Text.quoted term.toList)
    .ok (render (chainNode 0 kind.label lines operators))
  else
    .error
      (kind.label ++ " needs " ++ Text.integer needed ++ " operator(s), got " ++
        Text.integer operators.length)

end Dump

/-- An expression as an indented outline. -/
def Expression.dump (expression : Expression) : String :=
  Dump.render (Dump.expression expression)

end PlanarExpr
