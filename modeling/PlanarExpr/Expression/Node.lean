import PlanarExpr.Expression

namespace PlanarExpr

/-!
# The nodes of an expression

All nodes of a tree in one list, each before the nodes below it and those from
left to right. A node names its class, its span and, where it has one, the
span of its name.
-/

/-- A node of a tree, with everything below it. -/
inductive Node where
  | expression (whole : Expression)
  | addition (node : Addition)
  | multiplication (node : Multiplication)
  | signed (span : Source.Span) (sign : Sign) (operand : Unary)
  | primary (node : Primary)
  | atom (node : Atom)
  | link (node : Link)

mutual

/-- The nodes of an addition. -/
def Addition.nodes : Addition → List Node
  | .mk span first later =>
      .addition (.mk span first later) :: first.nodes ++ laterTermNodes later

/-- The nodes of the later terms of an addition. -/
def laterTermNodes : List (Sign × Multiplication) → List Node
  | [] => []
  | (_, term) :: rest => term.nodes ++ laterTermNodes rest

/-- The nodes of a multiplication. -/
def Multiplication.nodes : Multiplication → List Node
  | .mk span first later =>
      .multiplication (.mk span first later) :: first.nodes ++ laterFactorNodes later

/-- The nodes of the later factors of a multiplication. -/
def laterFactorNodes : List (Scaling × Unary) → List Node
  | [] => []
  | (_, factor) :: rest => factor.nodes ++ laterFactorNodes rest

/-- The nodes of a unary expression. -/
def Unary.nodes : Unary → List Node
  | .signed span sign operand => .signed span sign operand :: operand.nodes
  | .primary operand => operand.nodes

/-- The nodes of a primary. -/
def Primary.nodes : Primary → List Node
  | .mk span first chain =>
      .primary (.mk span first chain) :: first.nodes ++ linkNodes chain

/-- The nodes of an atom. -/
def Atom.nodes : Atom → List Node
  | .number span value => [.atom (.number span value)]
  | .name span name => [.atom (.name span name)]
  | .call span name nameSpan items =>
      .atom (.call span name nameSpan items) :: argumentNodes items
  | .group span inner => .atom (.group span inner) :: inner.nodes
  | .construction span path items =>
      .atom (.construction span path items) :: argumentNodes items

/-- The nodes of the links of a chain. -/
def linkNodes : List Link → List Node
  | [] => []
  | first :: rest => first.nodes ++ linkNodes rest

/-- The nodes of a link. -/
def Link.nodes : Link → List Node
  | .field span member memberSpan => [.link (.field span member memberSpan)]
  | .call span member memberSpan items =>
      .link (.call span member memberSpan items) :: argumentNodes items

/-- The nodes of arguments. -/
def argumentNodes : List Addition → List Node
  | [] => []
  | first :: rest => first.nodes ++ argumentNodes rest

end

/-- The nodes of an expression, itself first. -/
def Expression.nodes (whole : Expression) : List Node :=
  .expression whole :: whole.root.nodes

namespace Node

/-- The class name of a node. -/
def label : Node → String
  | .expression _ => "Expression"
  | .addition _ => "Addition"
  | .multiplication _ => "Multiplication"
  | .signed _ _ _ => "SignedUnary"
  | .primary _ => "Primary"
  | .atom (.number _ _) => "NumberLiteral"
  | .atom (.name _ _) => "Identifier"
  | .atom (.call _ _ _ _) => "Identifier"
  | .atom (.group _ _) => "Parenthesized"
  | .atom (.construction _ _ _) => "Construction"
  | .link _ => "ChainLink"

/-- What a node spans. -/
def span : Node → Source.Span
  | .expression whole => whole.span
  | .addition node => node.span
  | .multiplication node => node.span
  | .signed span _ _ => span
  | .primary node => node.span
  | .atom node => node.span
  | .link node => node.span

/-- The source of the name that a node is about. -/
def nameSpan? : Node → Option Source.Span
  | .atom (.name span _) => some span
  | .atom (.call _ _ nameSpan _) => some nameSpan
  | .link (.field _ _ memberSpan) => some memberSpan
  | .link (.call _ _ memberSpan _) => some memberSpan
  | _ => none

/-- A node that is about a name, in words; other nodes have no such description. -/
def describe : Node → Except String String
  | .atom (.name _ name) => .ok ("identifier " ++ name)
  | .atom (.call _ name _ _) => .ok ("identifier " ++ name ++ "()")
  | .atom (.construction _ path _) => .ok ("new " ++ path.text)
  | .link (.field _ member _) => .ok ("link " ++ member)
  | .link (.call _ member _ _) => .ok ("link " ++ member ++ "()")
  | node => .error ("No visitor for " ++ node.label)

end Node

end PlanarExpr
