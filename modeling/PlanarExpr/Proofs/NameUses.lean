import PlanarExpr.Proofs.Mentions

namespace PlanarExpr

/-!
# What names are used for

Each name among the tokens of an expression has one use: it stands on its own,
is a member, is called, or belongs to the path of a type. The uses are listed
from left to right, beside the names. A mention is made by a name that stands
on its own or is a member, and by no other.
-/

/-- What a name among the tokens of an expression is used for. -/
inductive NameUse where
  /-- A name on its own, which is not called. -/
  | free
  /-- A member that is not called. -/
  | member
  | calledName
  | calledMember
  /-- A part of the path of a type. -/
  | typeSegment
deriving DecidableEq

mutual

/-- The uses of the names of an addition, from left to right. -/
def Addition.nameUses : Addition → List NameUse
  | .mk _ first later => first.nameUses ++ laterTermNameUses later

/-- The uses of the names of later terms. -/
def laterTermNameUses : List (Sign × Multiplication) → List NameUse
  | [] => []
  | (_, term) :: rest => term.nameUses ++ laterTermNameUses rest

/-- The uses of the names of a multiplication. -/
def Multiplication.nameUses : Multiplication → List NameUse
  | .mk _ first later => first.nameUses ++ laterFactorNameUses later

/-- The uses of the names of later factors. -/
def laterFactorNameUses : List (Scaling × Unary) → List NameUse
  | [] => []
  | (_, factor) :: rest => factor.nameUses ++ laterFactorNameUses rest

/-- The uses of the names of a unary expression. -/
def Unary.nameUses : Unary → List NameUse
  | .signed _ _ operand => operand.nameUses
  | .primary operand => operand.nameUses

/-- The uses of the names of a primary. -/
def Primary.nameUses : Primary → List NameUse
  | .mk _ start chain => start.nameUses ++ linkNameUses chain

/-- The uses of the names of an atom. -/
def Atom.nameUses : Atom → List NameUse
  | .number _ _ => []
  | .name _ _ => [.free]
  | .call _ _ _ items => .calledName :: argumentNameUses items
  | .group _ inner => inner.nameUses
  | .construction _ path items =>
      path.segments.map (fun _ => .typeSegment) ++ argumentNameUses items

/-- The uses of the names of a chain. -/
def linkNameUses : List Link → List NameUse
  | [] => []
  | first :: rest => first.nameUses ++ linkNameUses rest

/-- The uses of the names of a link. -/
def Link.nameUses : Link → List NameUse
  | .field _ _ _ => [.member]
  | .call _ _ _ items => .calledMember :: argumentNameUses items

/-- The uses of the names of arguments. -/
def argumentNameUses : List Addition → List NameUse
  | [] => []
  | first :: rest => first.nameUses ++ argumentNameUses rest

end

/-- The uses of the names of an expression, from left to right. -/
def Expression.nameUses (expression : Expression) : List NameUse :=
  expression.root.nameUses

/-- The mention that a name makes by its use, if it makes one. -/
def NameUse.mention? (use : NameUse) (token : Token) : Option Mention :=
  match use with
  | .free => token.name?.map fun name =>
      { name := name, span := token.span, isMember := false }
  | .member => token.name?.map fun name =>
      { name := name, span := token.span, isMember := true }
  | .calledName => none
  | .calledMember => none
  | .typeSegment => none

/-- A name that makes a mention stands where the mention does, and is used as it says. -/
theorem NameUse.of_mention?
    {use : NameUse}
    {token : Token}
    {mention : Mention}
    (made : use.mention? token = some mention) :
    token.span = mention.span ∧
      use = if mention.isMember then .member else .free := by
  cases use with
  | free =>
      obtain ⟨name, _, rfl⟩ := Option.map_eq_some_iff.mp made
      exact ⟨rfl, rfl⟩
  | member =>
      obtain ⟨name, _, rfl⟩ := Option.map_eq_some_iff.mp made
      exact ⟨rfl, rfl⟩
  | _ => cases made

/-- The names among tokens have the given uses, and make the given mentions by them. -/
structure NamesUsed
    (tokens : List Token)
    (uses : List NameUse)
    (mentions : List Mention) :
    Prop where
  length : (tokens.filter Token.isName).length = uses.length
  mentions :
    ((tokens.filter Token.isName).zip uses).filterMap
        (fun (token, use) => use.mention? token) =
      mentions

namespace NamesUsed

variable
  {tokens tokens' : List Token}
  {uses uses' : List NameUse}
  {mentions mentions' : List Mention}
  {token : Token}
  {kind : Token.Kind}

/-- Without tokens there are no names. -/
theorem nil : NamesUsed [] [] [] :=
  ⟨rfl, rfl⟩

/-- The names of two runs are those of the first and then those of the second. -/
theorem append
    (first : NamesUsed tokens uses mentions)
    (second : NamesUsed tokens' uses' mentions') :
    NamesUsed (tokens ++ tokens') (uses ++ uses') (mentions ++ mentions') := by
  constructor
  · rw [List.filter_append, List.length_append, List.length_append, first.length,
      second.length]
  · rw [List.filter_append, List.zip_append first.length, List.filterMap_append,
      first.mentions, second.mentions]

/-- One name has one use, and makes the mention that belongs to it. -/
theorem single
    {name : String}
    (named : token.kind = .identifier name)
    (use : NameUse) :
    NamesUsed [token] [use] (use.mention? token).toList := by
  have isName : [token].filter Token.isName = [token] := by
    simp [Token.isName, Token.name?, named]
  constructor
  · rw [isName]
    rfl
  · rw [isName]
    cases made : use.mention? token <;> simp [made]

/-- A token that is no name has no use. -/
theorem noName
    (isKind : token.kind = kind)
    (other : ∀ name, kind ≠ .identifier name) :
    NamesUsed [token] [] [] := by
  have notName : [token].filter Token.isName = [] := by
    obtain ⟨found, lexeme, span⟩ := token
    cases isKind
    cases found with
    | identifier name => exact absurd rfl (other name)
    | _ => rfl
  constructor
  · rw [notName]
    rfl
  · rw [notName]
    rfl

/-- A token that is no name stands in front of other tokens. -/
theorem behind
    (isKind : token.kind = kind)
    (other : ∀ name, kind ≠ .identifier name)
    (used : NamesUsed tokens uses mentions) :
    NamesUsed (token :: tokens) uses mentions :=
  (noName isKind other).append used

/-- A token that is no name stands behind other tokens. -/
theorem before
    (used : NamesUsed tokens uses mentions)
    (isKind : token.kind = kind)
    (other : ∀ name, kind ≠ .identifier name) :
    NamesUsed (tokens ++ [token]) uses mentions := by
  have joined := used.append (noName isKind other)
  rwa [List.append_nil, List.append_nil] at joined

/-- A name that makes no mention stands in front of other tokens. -/
theorem called
    {name : String}
    (named : token.kind = .identifier name)
    {use : NameUse}
    (silent : use.mention? token = none)
    (used : NamesUsed tokens uses mentions) :
    NamesUsed (token :: tokens) (use :: uses) mentions := by
  have joined := (single named use).append used
  rwa [silent] at joined

end NamesUsed

/-! ## The names of a tree -/

theorem Sign.kind_ne_identifier (sign : Sign) : ∀ name, sign.kind ≠ .identifier name := by
  cases sign <;> nofun

theorem Scaling.kind_ne_identifier (scaling : Scaling) :
    ∀ name, scaling.kind ≠ .identifier name := by
  cases scaling <;> nofun

/-- The later segments of a type are used as that. -/
theorem laterSegments_namesUsed
    {tokens : List Token}
    {later : List (Unit × (String × Token))}
    (written : Separated dot? WritesName tokens later) :
    NamesUsed tokens
      ((later.map fun (_, segment, _) => segment).map fun _ => .typeSegment) [] := by
  induction written with
  | nil => exact .nil
  | cons found nameWritten _ inductionHypothesis =>
      obtain ⟨named⟩ := nameWritten
      exact .behind (dot?_eq_some_iff.mp found) nofun
        (.called named rfl inductionHypothesis)

/-- All segments of a type are used as that. -/
theorem TypePath.namesUsed
    {tokens : List Token}
    {path : TypePath}
    (written : WritesPath tokens path) :
    NamesUsed tokens (path.segments.map fun _ => .typeSegment) [] := by
  obtain ⟨⟨named⟩, laterWritten⟩ := written
  exact .called named rfl (laterSegments_namesUsed laterWritten)

mutual

/-- The names among the tokens of an addition are used and mentioned as the addition says. -/
theorem Addition.namesUsed :
    ∀ (tree : Addition) {tokens : List Token},
      tree.Written tokens → NamesUsed tokens tree.nameUses tree.mentions
  | .mk _ first later, _, .mk firstWritten laterWritten => by
      rw [Addition.nameUses, Addition.mentions]
      exact (first.namesUsed firstWritten).append (laterTerms_namesUsed later laterWritten)

theorem laterTerms_namesUsed :
    ∀ (later : List (Sign × Multiplication)) {tokens : List Token},
      Separated Sign.ofKind? Multiplication.Written tokens later →
      NamesUsed tokens (laterTermNameUses later) (laterTermMentions later)
  | [], _, .nil => by
      rw [laterTermNameUses, laterTermMentions]
      exact .nil
  | (sign, term) :: rest, _, .cons found termWritten restWritten => by
      rw [laterTermNameUses, laterTermMentions]
      exact .behind (Sign.ofKind?_eq_some_iff.mp found) sign.kind_ne_identifier
        ((term.namesUsed termWritten).append (laterTerms_namesUsed rest restWritten))

theorem Multiplication.namesUsed :
    ∀ (tree : Multiplication) {tokens : List Token},
      tree.Written tokens → NamesUsed tokens tree.nameUses tree.mentions
  | .mk _ first later, _, .mk firstWritten laterWritten => by
      rw [Multiplication.nameUses, Multiplication.mentions]
      exact (first.namesUsed firstWritten).append (laterFactors_namesUsed later laterWritten)

theorem laterFactors_namesUsed :
    ∀ (later : List (Scaling × Unary)) {tokens : List Token},
      Separated Scaling.ofKind? Unary.Written tokens later →
      NamesUsed tokens (laterFactorNameUses later) (laterFactorMentions later)
  | [], _, .nil => by
      rw [laterFactorNameUses, laterFactorMentions]
      exact .nil
  | (scaling, factor) :: rest, _, .cons found factorWritten restWritten => by
      rw [laterFactorNameUses, laterFactorMentions]
      exact .behind (Scaling.ofKind?_eq_some_iff.mp found) scaling.kind_ne_identifier
        ((factor.namesUsed factorWritten).append (laterFactors_namesUsed rest restWritten))

theorem Unary.namesUsed :
    ∀ (tree : Unary) {tokens : List Token},
      tree.Written tokens → NamesUsed tokens tree.nameUses tree.mentions
  | .signed _ sign operand, _, .signed found operandWritten => by
      rw [Unary.nameUses, Unary.mentions]
      exact .behind (Sign.ofKind?_eq_some_iff.mp found) sign.kind_ne_identifier
        (operand.namesUsed operandWritten)
  | .primary operand, _, .primary operandWritten => by
      rw [Unary.nameUses, Unary.mentions]
      exact operand.namesUsed operandWritten

theorem Primary.namesUsed :
    ∀ (tree : Primary) {tokens : List Token},
      tree.Written tokens → NamesUsed tokens tree.nameUses tree.mentions
  | .mk _ start chain, _, .mk startWritten chainWritten => by
      rw [Primary.nameUses, Primary.mentions]
      exact (start.namesUsed startWritten).append (links_namesUsed chain chainWritten)

theorem Atom.namesUsed :
    ∀ (tree : Atom) {tokens : List Token},
      tree.Written tokens → NamesUsed tokens tree.nameUses tree.mentions
  | .number _ _, _, .number found => by
      rw [Atom.nameUses, Atom.mentions]
      exact .noName found nofun
  | .name _ _, _, .name found => by
      have used := NamesUsed.single found .free
      rw [NameUse.mention?, Token.name?, found] at used
      rw [Atom.nameUses, Atom.mentions]
      exact used
  | .call _ _ _ items, _, .call found itemsWritten => by
      rw [Atom.nameUses, Atom.mentions]
      exact .called found rfl (arguments_namesUsed items itemsWritten)
  | .group _ inner, _, .group opens innerWritten closes => by
      rw [Atom.nameUses, Atom.mentions]
      exact .before (.behind opens nofun (inner.namesUsed innerWritten)) closes nofun
  | .construction _ path items, _, .construction found pathWritten itemsWritten => by
      rw [Atom.nameUses, Atom.mentions]
      exact
        ((TypePath.namesUsed pathWritten).behind found nofun).append
          (arguments_namesUsed items itemsWritten)

/-- The names of a chain are used and mentioned as its links say. -/
theorem links_namesUsed :
    ∀ (chain : List Link) {tokens : List Token},
      Joined Link.Written tokens chain →
      NamesUsed tokens (linkNameUses chain) (linkMentions chain)
  | [], _, .nil => by
      rw [linkNameUses, linkMentions]
      exact .nil
  | first :: rest, _, .cons firstWritten restWritten => by
      rw [linkNameUses, linkMentions]
      exact (first.namesUsed firstWritten).append (links_namesUsed rest restWritten)

theorem Link.namesUsed :
    ∀ (tree : Link) {tokens : List Token},
      tree.Written tokens → NamesUsed tokens tree.nameUses tree.mentions
  | .field _ _ _, _, .field points named => by
      have used := NamesUsed.single named .member
      rw [NameUse.mention?, Token.name?, named] at used
      rw [Link.nameUses, Link.mentions]
      exact .behind points nofun used
  | .call _ _ _ items, _, .call points named itemsWritten => by
      rw [Link.nameUses, Link.mentions]
      exact .behind points nofun (.called named rfl (arguments_namesUsed items itemsWritten))

/-- The names of arguments are used and mentioned as these say. -/
theorem arguments_namesUsed :
    ∀ (items : List Addition) {tokens : List Token} {close : Token},
      WritesArguments Addition.Written tokens (items, close) →
      NamesUsed tokens (argumentNameUses items) (argumentMentions items)
  | [], _, _, .none opens closes => by
      rw [argumentNameUses, argumentMentions]
      exact .behind opens nofun (.noName closes nofun)
  | first :: rest, _, _, written => by
      obtain ⟨_, _, _, _, rfl, restShape, opens, firstWritten, laterWritten,
        closes⟩ := written.split_cons
      rw [argumentNameUses, argumentMentions]
      exact
        ((first.namesUsed firstWritten).behind opens nofun).append
          (.before (laterArguments_namesUsed rest restShape laterWritten) closes nofun)

theorem laterArguments_namesUsed :
    ∀ (items : List Addition) {tokens : List Token}
      {later : List (Unit × Addition)},
      items = later.map Prod.snd →
      Separated comma? Addition.Written tokens later →
      NamesUsed tokens (argumentNameUses items) (argumentMentions items)
  | [], _, [], _, .nil => by
      rw [argumentNameUses, argumentMentions]
      exact .nil
  | first :: rest, _, (_, item) :: later, shape,
      .cons found itemWritten laterWritten => by
      obtain ⟨sameItem, sameRest⟩ := List.cons_eq_cons.mp shape
      subst sameItem
      rw [argumentNameUses, argumentMentions]
      exact .behind (comma?_eq_some_iff.mp found) nofun
        ((first.namesUsed itemWritten).append
          (laterArguments_namesUsed rest sameRest laterWritten))

end

/-- The names of a written expression are used as the expression says. -/
theorem Expression.namesUsed
    {expression : Expression}
    {stream : TokenStream}
    (written : expression.Written stream.tokens) :
    stream.names.length = expression.nameUses.length ∧
      (stream.names.zip expression.nameUses).filterMap
          (fun (token, use) => use.mention? token) =
        expression.mentions :=
  have used := expression.root.namesUsed written
  ⟨used.length, used.mentions⟩

/-- A mention of a written expression is made by one of its names. -/
theorem Expression.exists_use_of_mention
    {expression : Expression}
    {stream : TokenStream}
    (written : expression.Written stream.tokens)
    {mention : Mention}
    (member : mention ∈ expression.mentions) :
    ∃ name use,
      (name, use) ∈ stream.names.zip expression.nameUses ∧
        name.span = mention.span ∧
        use = if mention.isMember then .member else .free := by
  rw [← (Expression.namesUsed written).2] at member
  obtain ⟨⟨name, use⟩, isUsed, made⟩ := List.mem_filterMap.mp member
  exact ⟨name, use, isUsed, NameUse.of_mention? made⟩

end PlanarExpr
