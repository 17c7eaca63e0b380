import PlanarExpr.Proofs.ReaderSoundness

namespace PlanarExpr

/-!
# What a reader finds

Tokens that write a tree are read as this tree, whatever stands behind them,
as long as it does not continue the tree and the room is large enough for its
nesting. The budget of the repetitions is no obstacle: it covers the input.
-/

/-- The first of some tokens, if there is one, is of none of the given kinds. -/
def Stops
    (kinds : List Token.Kind)
    (tokens : List Token) :
    Prop :=
  ∀ token ∈ tokens.head?, token.kind ∉ kinds

@[simp] theorem stops_nil (kinds : List Token.Kind) : Stops kinds [] := by
  simp [Stops]

@[simp] theorem stops_cons
    (kinds : List Token.Kind)
    (token : Token)
    (rest : List Token) :
    Stops kinds (token :: rest) ↔ token.kind ∉ kinds := by
  simp [Stops]

/-- What is of none of some kinds is of none of fewer kinds. -/
theorem Stops.subset
    {kinds fewer : List Token.Kind}
    {tokens : List Token}
    (stops : Stops kinds tokens)
    (included : fewer ⊆ kinds) :
    Stops fewer tokens :=
  fun token first member => stops token first (included member)

/-- The kinds that continue a primary. -/
def primaryContinuers : List Token.Kind :=
  [.dot, .openParen]

/-- The kinds that continue a multiplication. -/
def multiplicationContinuers : List Token.Kind :=
  .star :: .slash :: primaryContinuers

/-- The kinds that continue an addition. -/
def additionContinuers : List Token.Kind :=
  .plus :: .minus :: multiplicationContinuers

/-- Behind a separated item comes a separator, or what follows the whole. -/
theorem Separated.stops_append
    {separator? : Token.Kind → Option σ}
    {writes : List Token → α → Prop}
    {tokens rest : List Token}
    {items : List (σ × α)}
    {kinds : List Token.Kind}
    (written : Separated separator? writes tokens items)
    (separators : ∀ kind ∈ kinds, separator? kind = none)
    (stops : Stops kinds rest) :
    Stops kinds (tokens ++ rest) := by
  cases written with
  | nil =>
      exact stops
  | cons found _ _ =>
      rw [List.cons_append, List.cons_append, stops_cons]
      intro member
      rw [separators _ member] at found
      cases found

/-- A link starts with a point. -/
theorem Link.Written.exists_dot
    {tokens : List Token}
    {tree : Link}
    (written : tree.Written tokens) :
    ∃ dot behind, tokens = dot :: behind ∧ dot.kind = .dot := by
  cases written with
  | field points _ =>
      exact ⟨_, _, rfl, points⟩
  | call points _ _ =>
      exact ⟨_, _, rfl, points⟩

/-- Behind an atom or a link comes a point, or what follows the chain. -/
theorem joined_stops_append
    {tokens rest : List Token}
    {chain : List Link}
    (written : Joined Link.Written tokens chain)
    (stops : Stops primaryContinuers rest) :
    Stops [.openParen] (tokens ++ rest) := by
  cases written with
  | nil =>
      exact stops.subset (by simp [primaryContinuers])
  | cons first _ =>
      obtain ⟨dot, behind, rfl, points⟩ := first.exists_dot
      simp [points]

/-! ## How trees start -/

/-- An atom starts with a token that is neither a sign nor a closing parenthesis. -/
theorem Atom.Written.exists_first
    {tokens : List Token}
    {tree : Atom}
    (written : tree.Written tokens) :
    ∃ token behind,
      tokens = token :: behind ∧
        Sign.ofKind? token.kind = none ∧ token.kind ≠ .closeParen := by
  cases written with
  | number found =>
      exact ⟨_, _, rfl, by simp [found, Sign.ofKind?], by simp [found]⟩
  | name found =>
      exact ⟨_, _, rfl, by simp [found, Sign.ofKind?], by simp [found]⟩
  | call found _ =>
      exact ⟨_, _, rfl, by simp [found, Sign.ofKind?], by simp [found]⟩
  | group opens _ _ =>
      exact ⟨_, _, rfl, by simp [opens, Sign.ofKind?], by simp [opens]⟩
  | construction found _ _ =>
      exact ⟨_, _, rfl, by simp [found, Sign.ofKind?], by simp [found]⟩

/-- A primary starts like its atom. -/
theorem Primary.Written.exists_first
    {tokens : List Token}
    {tree : Primary}
    (written : tree.Written tokens) :
    ∃ token behind,
      tokens = token :: behind ∧
        Sign.ofKind? token.kind = none ∧ token.kind ≠ .closeParen := by
  obtain ⟨startWritten, _⟩ := written
  obtain ⟨token, behind, rfl, noSign, noClose⟩ := startWritten.exists_first
  exact ⟨token, _, List.cons_append, noSign, noClose⟩

/-- A unary expression does not start with a closing parenthesis. -/
theorem Unary.Written.exists_first
    {tokens : List Token}
    {tree : Unary}
    (written : tree.Written tokens) :
    ∃ token behind, tokens = token :: behind ∧ token.kind ≠ .closeParen := by
  cases written with
  | signed found _ =>
      refine ⟨_, _, rfl, ?_⟩
      intro closes
      rw [closes] at found
      cases found
  | primary operandWritten =>
      obtain ⟨token, behind, rfl, _, noClose⟩ := operandWritten.exists_first
      exact ⟨token, behind, rfl, noClose⟩

/-- An addition does not start with a closing parenthesis. -/
theorem Addition.Written.exists_first
    {tokens : List Token}
    {tree : Addition}
    (written : tree.Written tokens) :
    ∃ token behind, tokens = token :: behind ∧ token.kind ≠ .closeParen := by
  obtain ⟨⟨firstWritten, _⟩, _⟩ := written
  obtain ⟨token, behind, rfl, noClose⟩ := firstWritten.exists_first
  exact ⟨token, _, by rw [List.append_assoc, List.cons_append], noClose⟩

namespace TokenReader

/--
Tokens that write a value are read as this value, if the budget covers the
input and what follows does not continue the value.
-/
def Complete
    (budget : Nat)
    (reader : TokenReader α)
    (writes : List Token → α → Prop)
    (continuers : List Token.Kind) :
    Prop :=
  ∀ ⦃used : List Token⦄ ⦃value : α⦄ ⦃rest : List Token⦄,
    writes used value →
    (used ++ rest).length ≤ budget →
    Stops continuers rest →
    reader (used ++ rest) = .ok (value, rest)

/-- A token of the kind that is asked for is read. -/
theorem exactly_cons
    {kind : Token.Kind}
    {token : Token}
    (what : Expectation)
    (rest : List Token)
    (same : token.kind = kind) :
    exactly kind what (token :: rest) = .ok (token, rest) := by
  simp [exactly, same]

/-- A name is read, whatever it is expected to name. -/
theorem name_cons
    {token : Token}
    {found : String}
    (what : Expectation)
    (rest : List Token)
    (named : token.kind = .identifier found) :
    name what (token :: rest) = .ok ((found, token), rest) := by
  simp [name, named]

theorem complete_name
    (budget : Nat)
    (what : Expectation) :
    Complete budget (name what) WritesName [] := by
  intro used value rest written _ _
  obtain ⟨named⟩ := written
  exact name_cons what rest named

/-- Separated items are read up to the first token that is no separator. -/
theorem complete_repeated
    {separator? : Token.Kind → Option σ}
    {item : TokenReader α}
    {writes : List Token → α → Prop}
    {continuers : List Token.Kind}
    {budget steps : Nat}
    {used rest : List Token}
    {items : List (σ × α)}
    (itemComplete : Complete budget item writes continuers)
    (separators : ∀ kind ∈ continuers, separator? kind = none)
    (written : Separated separator? writes used items)
    (covered : (used ++ rest).length ≤ budget)
    (enough : (used ++ rest).length ≤ steps)
    (stops : Stops continuers rest)
    (ends : ∀ token ∈ rest.head?, separator? token.kind = none) :
    repeated separator? item steps (used ++ rest) = .ok (items, rest) := by
  induction written generalizing steps with
  | nil =>
      cases steps with
      | zero =>
          rfl
      | succ steps =>
          cases rest with
          | nil =>
              rfl
          | cons token behind =>
              simp [repeated, ends token rfl]
  | @cons token separator used behind value later found first others
      inductionHypothesis =>
      cases steps with
      | zero =>
          simp at enough
      | succ steps =>
          have laterLength : (behind ++ rest).length ≤ steps := by
            simp only [List.cons_append, List.append_assoc, List.length_cons,
              List.length_append] at enough ⊢
            omega
          have itemLength : (used ++ (behind ++ rest)).length ≤ budget := by
            simp only [List.cons_append, List.append_assoc, List.length_cons,
              List.length_append] at covered ⊢
            omega
          have behindLength : (behind ++ rest).length ≤ budget := by
            rw [List.length_append] at itemLength
            omega
          have itemRead :=
            itemComplete first itemLength (others.stops_append separators stops)
          have laterRead := inductionHypothesis behindLength laterLength
          simp only [List.cons_append, List.append_assoc, repeated, found,
            itemRead, laterRead, ok_bind]
          rfl

end TokenReader

namespace Grammar

open TokenReader

/-- A multiplication is read up to what continues neither it nor a factor. -/
theorem complete_multiplication
    {budget bound : Nat}
    {unary : TokenReader Unary}
    (unaryComplete :
      Complete budget unary (Within bound Unary.nesting Unary.Written)
        primaryContinuers) :
    Complete budget (multiplication budget unary)
      (Within bound Multiplication.nesting Multiplication.Written)
      multiplicationContinuers := by
  rintro used tree rest ⟨written, bounded⟩ covered stops
  cases written with
  | @mk firstTokens laterTokens first later firstWritten laterWritten =>
      rw [List.append_assoc] at covered ⊢
      obtain ⟨firstBounded, laterBounded⟩ := Nat.max_le.mp bounded
      have factorStops : Stops primaryContinuers rest :=
        stops.subset (by simp [multiplicationContinuers])
      have separators :
          ∀ kind ∈ primaryContinuers, Scaling.ofKind? kind = none := by
        decide
      have firstRead :=
        unaryComplete ⟨firstWritten, firstBounded⟩ covered
          (laterWritten.stops_append separators factorStops)
      have laterCovered : (laterTokens ++ rest).length ≤ budget := by
        rw [List.length_append] at covered
        omega
      have ends : ∀ token ∈ rest.head?, Scaling.ofKind? token.kind = none := by
        intro token head
        have outside := stops token head
        cases kind : token.kind <;>
          simp_all [multiplicationContinuers, Scaling.ofKind?]
      have laterRead :=
        complete_repeated unaryComplete separators
          (separated_within_iff.mpr
            ⟨laterWritten, laterFactorNesting_le_iff.mp laterBounded⟩)
          laterCovered laterCovered factorStops ends
      simp only [multiplication, firstRead, laterRead, ok_bind]
      rfl

/-- An addition is read up to what continues neither it nor a term. -/
theorem complete_additionOf
    {budget bound : Nat}
    {unary : TokenReader Unary}
    (unaryComplete :
      Complete budget unary (Within bound Unary.nesting Unary.Written)
        primaryContinuers) :
    Complete budget (additionOf budget unary)
      (Within (bound + 1) Addition.nesting Addition.Written)
      additionContinuers := by
  rintro used tree rest ⟨written, bounded⟩ covered stops
  cases written with
  | @mk firstTokens laterTokens first later firstWritten laterWritten =>
      rw [List.append_assoc] at covered ⊢
      have termComplete := complete_multiplication unaryComplete
      obtain ⟨firstBounded, laterBounded⟩ :=
        Nat.max_le.mp (Nat.le_of_succ_le_succ bounded)
      have termStops : Stops multiplicationContinuers rest :=
        stops.subset (by simp [additionContinuers])
      have separators :
          ∀ kind ∈ multiplicationContinuers, Sign.ofKind? kind = none := by
        decide
      have firstRead :=
        termComplete ⟨firstWritten, firstBounded⟩ covered
          (laterWritten.stops_append separators termStops)
      have laterCovered : (laterTokens ++ rest).length ≤ budget := by
        rw [List.length_append] at covered
        omega
      have ends : ∀ token ∈ rest.head?, Sign.ofKind? token.kind = none := by
        intro token head
        have outside := stops token head
        cases kind : token.kind <;> simp_all [additionContinuers, Sign.ofKind?]
      have laterRead :=
        complete_repeated termComplete separators
          (separated_within_iff.mpr
            ⟨laterWritten, laterTermNesting_le_iff.mp laterBounded⟩)
          laterCovered laterCovered termStops ends
      simp only [additionOf, firstRead, laterRead, ok_bind]
      rfl

section Primaries

variable
  {budget bound : Nat}
  {addition : TokenReader Addition}
  (additionComplete :
    Complete budget addition (Within bound Addition.nesting Addition.Written)
      additionContinuers)

include additionComplete

/-- Arguments are read behind their opening parenthesis, whatever follows them. -/
theorem complete_argumentItems
    {used rest : List Token}
    {found : List Addition × Token}
    (written : WritesArguments Addition.Written used found)
    (bounded : argumentNesting found.1 ≤ bound)
    (covered : (used ++ rest).length ≤ budget) :
    ∃ opening behind,
      used = opening :: behind ∧
        opening.kind = .openParen ∧
        argumentItems budget addition (behind ++ rest) = .ok (found, rest) := by
  cases written with
  | @none opening close opens closes =>
      refine ⟨opening, [close], rfl, opens, ?_⟩
      simp [argumentItems, exactly_cons _ _ closes]
  | @some opening close firstTokens laterTokens first later opens firstWritten
      laterWritten closes =>
      refine ⟨opening, firstTokens ++ (laterTokens ++ [close]), rfl, opens, ?_⟩
      simp only [List.append_assoc, List.cons_append, List.nil_append,
        List.length_cons] at covered ⊢
      rw [argumentNesting_le_iff, List.forall_mem_cons,
        List.forall_mem_map] at bounded
      have separators : ∀ kind ∈ additionContinuers, comma? kind = none := by
        decide
      have closeStops : Stops additionContinuers (close :: rest) := by
        rw [stops_cons, closes]
        decide
      have firstCovered :
          (firstTokens ++ (laterTokens ++ close :: rest)).length ≤ budget := by
        omega
      have laterCovered : (laterTokens ++ close :: rest).length ≤ budget := by
        rw [List.length_append] at firstCovered
        omega
      have firstRead :=
        additionComplete ⟨firstWritten, bounded.1⟩ firstCovered
          (laterWritten.stops_append separators closeStops)
      have laterRead :=
        complete_repeated additionComplete separators
          (separated_within_iff.mpr ⟨laterWritten, bounded.2⟩)
          laterCovered laterCovered closeStops
          (by simp [closes, comma?])
      -- An argument does not start with a parenthesis that closes, so the list is not empty.
      obtain ⟨token, behind, rfl, noClose⟩ := firstWritten.exists_first
      have notClosed :
          exactly .closeParen .closeParenOrComma
              (token :: behind ++ (laterTokens ++ close :: rest)) =
            .error
              { fault := .expected .closeParenOrComma,
                rest := token :: behind ++ (laterTokens ++ close :: rest) } := by
        simp [exactly, noClose, fail]
      simp only [argumentItems, notClosed, firstRead, laterRead, ok_bind,
        exactly_cons _ rest closes]
      rfl

/-- Arguments in their parentheses are read in room for their nesting. -/
theorem complete_arguments
    {used rest : List Token}
    {found : List Addition × Token}
    (written : WritesArguments Addition.Written used found)
    (bounded : argumentNesting found.1 ≤ bound)
    (covered : (used ++ rest).length ≤ budget) :
    arguments budget addition (used ++ rest) = .ok (found, rest) := by
  obtain ⟨opening, behind, rfl, opens, itemsRead⟩ :=
    complete_argumentItems additionComplete written bounded covered
  simp only [arguments, List.cons_append, exactly_cons _ _ opens, ok_bind,
    itemsRead]

/-- Arguments are read where they may be missing. -/
theorem complete_arguments?
    {used rest : List Token}
    {found : List Addition × Token}
    (written : WritesArguments Addition.Written used found)
    (bounded : argumentNesting found.1 ≤ bound)
    (covered : (used ++ rest).length ≤ budget) :
    arguments? budget addition (used ++ rest) = .ok (some found, rest) := by
  obtain ⟨opening, behind, rfl, opens, itemsRead⟩ :=
    complete_argumentItems additionComplete written bounded covered
  simp only [arguments?, List.cons_append, opens, ↓reduceIte, ok_bind, itemsRead]
  rfl

omit additionComplete in
/-- No arguments are read where no parenthesis opens. -/
theorem arguments?_of_stops
    {rest : List Token}
    (stops : Stops [.openParen] rest) :
    arguments? budget addition rest = .ok (none, rest) := by
  cases rest with
  | nil =>
      rfl
  | cons token behind =>
      rw [stops_cons, List.mem_singleton] at stops
      simp [arguments?, stops]

/-- A link is read in room for its nesting, if no parenthesis opens behind it. -/
theorem complete_link
    {used rest : List Token}
    {tree : Link}
    (written : tree.Written used)
    (bounded : tree.nesting ≤ bound)
    (covered : (used ++ rest).length ≤ budget)
    (stops : Stops [.openParen] rest) :
    ∃ dot behind,
      used = dot :: behind ∧
        dot.kind = .dot ∧
        link budget addition dot (behind ++ rest) = .ok (tree, rest) := by
  cases written with
  | @field dot token member points named =>
      refine ⟨dot, [token], rfl, points, ?_⟩
      simp only [link, List.cons_append, List.nil_append, name_cons _ _ named,
        ok_bind, arguments?_of_stops stops]
      rfl
  | @call dot token member tokens items close points named itemsWritten =>
      refine ⟨dot, token :: tokens, rfl, points, ?_⟩
      have itemsCovered : (tokens ++ rest).length ≤ budget := by
        simp only [List.cons_append, List.length_cons] at covered
        omega
      have itemsRead :=
        complete_arguments? additionComplete itemsWritten bounded itemsCovered
      simp only [link, List.cons_append, name_cons _ _ named, ok_bind, itemsRead]
      rfl

/-- A chain is read in room for its nesting, if it is not continued. -/
theorem complete_links
    {used rest : List Token}
    {chain : List Link}
    {steps : Nat}
    (written : Joined Link.Written used chain)
    (bounded : linkNesting chain ≤ bound)
    (covered : (used ++ rest).length ≤ budget)
    (enough : (used ++ rest).length ≤ steps)
    (stops : Stops primaryContinuers rest) :
    links budget addition steps (used ++ rest) = .ok (chain, rest) := by
  induction written generalizing steps with
  | nil =>
      cases steps with
      | zero =>
          rfl
      | succ steps =>
          cases rest with
          | nil =>
              rfl
          | cons token behind =>
              rw [stops_cons] at stops
              have noPoint : token.kind ≠ .dot := by
                intro points
                simp [points, primaryContinuers] at stops
              simp [links, noPoint]
  | @cons used behind first later firstWritten laterWritten
      inductionHypothesis =>
      rw [List.append_assoc] at covered enough ⊢
      obtain ⟨firstBounded, laterBounded⟩ := Nat.max_le.mp bounded
      obtain ⟨dot, afterDot, rfl, points, firstRead⟩ :=
        complete_link additionComplete firstWritten firstBounded covered
          (joined_stops_append laterWritten stops)
      simp only [List.cons_append, List.length_cons,
        List.length_append] at covered enough
      cases steps with
      | zero =>
          omega
      | succ steps =>
          have laterRead :=
            inductionHypothesis laterBounded
              (by rw [List.length_append]; omega)
              (show (behind ++ rest).length ≤ steps by
                rw [List.length_append]; omega)
          simp only [List.cons_append, links, points, ↓reduceIte, firstRead,
            laterRead, ok_bind]
          rfl

/-- An atom is read; only behind a name it matters what follows. -/
theorem complete_atom :
    Complete budget (atom budget addition)
      (Within bound Atom.nesting Atom.Written) [.openParen] := by
  rintro used tree rest ⟨written, bounded⟩ covered stops
  cases written with
  | number found =>
      simp [atom, found]
  | name found =>
      simp only [atom, List.cons_append, List.nil_append, found, nameOrCall,
        arguments?_of_stops stops, ok_bind]
      rfl
  | @call token name tokens items close found itemsWritten =>
      have itemsCovered : (tokens ++ rest).length ≤ budget := by
        simp only [List.cons_append, List.length_cons] at covered
        omega
      have itemsRead :=
        complete_arguments? additionComplete itemsWritten bounded itemsCovered
      simp only [atom, List.cons_append, found, nameOrCall, itemsRead, ok_bind]
      rfl
  | @group opening close tokens inner opens innerWritten closes =>
      simp only [List.cons_append, List.append_assoc, List.nil_append,
        List.length_cons] at covered ⊢
      have closeStops : Stops additionContinuers (close :: rest) := by
        rw [stops_cons, closes]
        decide
      have innerCovered : (tokens ++ close :: rest).length ≤ budget := by
        omega
      have innerRead :=
        additionComplete ⟨innerWritten, bounded⟩ innerCovered closeStops
      simp only [atom, opens, group, innerRead, ok_bind, exactly_cons _ _ closes]
      rfl
  | @construction keyword pathTokens tokens path items close isNew pathWritten
      itemsWritten =>
      obtain @⟨firstTokens, laterTokens, first, later, ⟨named⟩, laterWritten⟩ :=
        pathWritten
      have itemsCovered : (tokens ++ rest).length ≤ budget := by
        simp only [List.cons_append, List.append_assoc, List.length_cons,
          List.length_append] at covered ⊢
        omega
      obtain ⟨opening, behind, rfl, opens, _⟩ :=
        complete_argumentItems additionComplete itemsWritten bounded itemsCovered
      simp only [List.cons_append, List.append_assoc, List.nil_append,
        List.length_cons, List.length_append] at covered ⊢
      have separators : ∀ kind ∈ ([] : List Token.Kind), dot? kind = none := by
        simp
      have laterCovered :
          (laterTokens ++ opening :: (behind ++ rest)).length ≤ budget := by
        simp only [List.length_append, List.length_cons]
        omega
      -- The path of the type ends in front of the parenthesis, which is no point.
      have openingStops : Stops [] (opening :: (behind ++ rest)) := by
        simp [Stops]
      have openingEnds :
          ∀ token ∈ (opening :: (behind ++ rest)).head?, dot? token.kind = none := by
        simp [opens, dot?]
      have laterRead :=
        complete_repeated (complete_name budget .typeName) separators laterWritten
          laterCovered laterCovered openingStops openingEnds
      have itemsRead :=
        complete_arguments additionComplete itemsWritten bounded itemsCovered
      rw [List.cons_append] at itemsRead
      simp only [atom, isNew, construction, name_cons _ _ named, ok_bind,
        laterRead, itemsRead]
      rfl

/-- A primary is read in room for its nesting. -/
theorem complete_primary :
    Complete budget (primary budget addition)
      (Within bound Primary.nesting Primary.Written) primaryContinuers := by
  rintro used tree rest ⟨written, bounded⟩ covered stops
  cases written with
  | @mk startTokens chainTokens start chain startWritten chainWritten =>
      rw [List.append_assoc] at covered ⊢
      obtain ⟨startBounded, chainBounded⟩ := Nat.max_le.mp bounded
      have startRead :=
        complete_atom additionComplete ⟨startWritten, startBounded⟩ covered
          (joined_stops_append chainWritten stops)
      have chainCovered : (chainTokens ++ rest).length ≤ budget := by
        rw [List.length_append] at covered
        omega
      have chainRead :=
        complete_links additionComplete chainWritten chainBounded chainCovered
          chainCovered stops
      simp only [primary, startRead, chainRead, ok_bind]
      rfl

/-- An operand is read with its sign if it is read one level further in. -/
theorem complete_signedOr
    {operand : TokenReader Unary}
    (operandComplete :
      Complete budget operand
        (Within bound (fun tree => tree.nesting + 1) Unary.Written)
        primaryContinuers) :
    Complete budget (signedOr budget operand addition)
      (Within bound Unary.nesting Unary.Written) primaryContinuers := by
  rintro used tree rest ⟨written, bounded⟩ covered stops
  cases written with
  | @signed token sign tokens inner found innerWritten =>
      have innerCovered : (tokens ++ rest).length ≤ budget := by
        simp only [List.cons_append, List.length_cons] at covered
        omega
      have innerRead :=
        operandComplete ⟨innerWritten, bounded⟩ innerCovered stops
      simp only [signedOr, List.cons_append, found, innerRead, ok_bind]
      rfl
  | primary innerWritten =>
      have innerRead :=
        complete_primary additionComplete ⟨innerWritten, bounded⟩ covered stops
      obtain ⟨token, behind, rfl, noSign, _⟩ := innerWritten.exists_first
      rw [List.cons_append] at innerRead
      simp only [signedOr, List.cons_append, noSign, innerRead, ok_bind]
      rfl

end Primaries

/-- In room for its nesting a unary expression is read. -/
theorem complete_unary (budget room : Nat) :
    Complete budget (unary budget room)
      (Within room Unary.nesting Unary.Written) primaryContinuers := by
  induction room with
  | zero =>
      apply complete_signedOr
      · rintro used tree rest ⟨_, bounded⟩
        cases tree
        cases bounded
      · rintro used tree rest ⟨_, bounded⟩
        cases bounded
  | succ room inductionHypothesis =>
      apply complete_signedOr (complete_additionOf inductionHypothesis)
      rintro used tree rest ⟨written, bounded⟩
      exact inductionHypothesis ⟨written, Nat.le_of_succ_le_succ bounded⟩

/-- In room for its nesting an addition is read. -/
theorem complete_addition (budget room : Nat) :
    Complete budget (addition budget room)
      (Within room Addition.nesting Addition.Written) additionContinuers := by
  cases room with
  | zero =>
      rintro used tree rest ⟨_, bounded⟩
      cases tree
      cases bounded
  | succ room =>
      exact complete_additionOf (complete_unary budget room)

end Grammar

end PlanarExpr
