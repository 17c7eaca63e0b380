import PlanarExpr.Proofs.ReaderSoundness

namespace PlanarExpr

/-!
# The shapes of readers

The readers of the grammar are put together in two ways. Either one reader goes
on where another one stopped, or the kind of the next token decides what is
read. What holds of these two shapes, of a reader that only fails and of one
that is done holds of every reader.
-/

namespace TokenReader

/-- The fault a reading ends with, if any, and the tokens from the place where it ends. -/
def ending
    (reader : TokenReader α)
    (tokens : List Token) :
    Option ParseFault × List Token :=
  match reader tokens with
  | .ok (_, rest) => (none, rest)
  | .error failure => (some failure.fault, failure.rest)

/-- A reading that finds a value ends without a fault where it stops. -/
theorem ending_of_ok
    {reader : TokenReader α}
    {tokens rest : List Token}
    {value : α}
    (read : reader tokens = .ok (value, rest)) :
    reader.ending tokens = (none, rest) := by
  rw [ending, read]

/-- A reading that fails ends with its fault in front of the tokens that are left. -/
theorem ending_of_error
    {reader : TokenReader α}
    {tokens : List Token}
    {failure : ParseFailure}
    (read : reader tokens = .error failure) :
    reader.ending tokens = (some failure.fault, failure.rest) := by
  rw [ending, read]

/-- A reading that ends without a fault has found a value. -/
theorem exists_ok_of_ending
    {reader : TokenReader α}
    {tokens rest : List Token}
    (ends : reader.ending tokens = (none, rest)) :
    ∃ value, reader tokens = .ok (value, rest) := by
  rw [ending] at ends
  split at ends
  · next value behind read =>
      obtain ⟨_, rfl⟩ := Prod.mk.inj ends
      exact ⟨value, read⟩
  · cases (Prod.mk.inj ends).1

/-- A reading that ends with a fault has failed. -/
theorem error_of_ending
    {reader : TokenReader α}
    {tokens rest : List Token}
    {fault : ParseFault}
    (ends : reader.ending tokens = (some fault, rest)) :
    reader tokens = .error { fault := fault, rest := rest } := by
  rw [ending] at ends
  split at ends
  · cases (Prod.mk.inj ends).1
  · next failure read =>
      obtain ⟨sameFault, rfl⟩ := Prod.mk.inj ends
      obtain rfl := Option.some.inj sameFault
      exact read

/-- Reads nothing and finds a value. -/
def done (value : α) : TokenReader α :=
  fun tokens => .ok (value, tokens)

/-- One reader, and another one from where it stopped. -/
def followed
    (first : TokenReader α)
    (next : α → TokenReader β) :
    TokenReader β :=
  fun tokens => do
    let (value, behind) ← first tokens
    next value behind

/-- What is read behind a token that makes a choice, or else from that token on. -/
def selected
    (choice? : Token.Kind → Option σ)
    (next : σ → Token → TokenReader α)
    (otherwise : TokenReader α) :
    TokenReader α
  | [] => otherwise []
  | token :: rest =>
      match choice? token.kind with
      | some choice => next choice token rest
      | none => otherwise (token :: rest)

/-- Behind a first reader that finds a value the second one decides the end. -/
theorem ending_followed_of_ok
    {first : TokenReader α}
    {tokens behind : List Token}
    {value : α}
    (read : first tokens = .ok (value, behind))
    (next : α → TokenReader β) :
    (first.followed next).ending tokens = (next value).ending behind := by
  simp only [ending, followed, read, ok_bind]

/-- A first reader that fails decides the end. -/
theorem ending_followed_of_error
    {first : TokenReader α}
    {tokens : List Token}
    {failure : ParseFailure}
    (read : first tokens = .error failure)
    (next : α → TokenReader β) :
    (first.followed next).ending tokens = first.ending tokens := by
  simp only [ending, followed, read]
  rfl

/-- A token that makes a choice is followed by what is chosen. -/
theorem ending_selected_of_some
    {choice? : Token.Kind → Option σ}
    {token : Token}
    {choice : σ}
    (found : choice? token.kind = some choice)
    (next : σ → Token → TokenReader α)
    (otherwise : TokenReader α)
    (rest : List Token) :
    (selected choice? next otherwise).ending (token :: rest) =
      (next choice token).ending rest := by
  simp only [ending, selected, found]

/-- Without a choice the other reader has all of the tokens. -/
theorem ending_selected_of_none
    {choice? : Token.Kind → Option σ}
    {tokens : List Token}
    (undecided : ∀ token ∈ tokens.head?, choice? token.kind = none)
    (next : σ → Token → TokenReader α)
    (otherwise : TokenReader α) :
    (selected choice? next otherwise).ending tokens = otherwise.ending tokens := by
  cases tokens with
  | nil =>
      rfl
  | cons token rest =>
      simp only [ending, selected, undecided token rfl]

/-! ## The readers of the grammar -/

/-- Recognises one kind. -/
def only? (kind found : Token.Kind) : Option Unit :=
  if found = kind then some () else none

/-- A kind is recognised as itself alone. -/
theorem only?_eq_some_iff
    {kind found : Token.Kind}
    {choice : Unit} :
    only? kind found = some choice ↔ found = kind := by
  rw [only?]
  split <;> simp_all

/-- Reading a token of a kind is a choice by the next token. -/
theorem exactly_eq_selected
    (kind : Token.Kind)
    (what : Expectation) :
    exactly kind what =
      selected (only? kind) (fun _ token => done token) (fail (.expected what)) := by
  funext tokens
  cases tokens with
  | nil =>
      rfl
  | cons token rest =>
      simp only [exactly, selected, only?]
      split <;> rfl

/-- The name that a token gives. -/
def identifier? : Token.Kind → Option String
  | .identifier name => some name
  | _ => none

/-- Reading a name is a choice by the next token. -/
theorem name_eq_selected (what : Expectation) :
    name what =
      selected identifier? (fun found token => done (found, token))
        (fail (.expected what)) := by
  funext tokens
  cases tokens with
  | nil =>
      rfl
  | cons token rest =>
      cases kind : token.kind <;> simp [name, selected, identifier?, kind, done]

/-- A repetition goes on or ends by the next token. -/
theorem repeated_succ_eq_selected
    (separator? : Token.Kind → Option σ)
    (item : TokenReader α)
    (steps : Nat) :
    repeated separator? item (steps + 1) =
      selected separator?
        (fun separator _ =>
          item.followed fun value =>
            (repeated separator? item steps).followed fun later =>
              done ((separator, value) :: later))
        (done []) := by
  funext tokens
  cases tokens with
  | nil =>
      rfl
  | cons token rest =>
      unfold repeated
      cases found : separator? token.kind <;> simp only [selected, found] <;> rfl

end TokenReader

namespace Grammar

open TokenReader

/-- The kinds that an atom may start with. -/
def atomStart? : Token.Kind → Option Token.Kind
  | .number value => some (.number value)
  | .identifier name => some (.identifier name)
  | .new => some .new
  | .openParen => some .openParen
  | _ => none

/-- An atom starts with the kind that it is chosen by. -/
theorem eq_of_atomStart?
    {kind start : Token.Kind}
    (found : atomStart? kind = some start) :
    kind = start := by
  cases kind <;> cases found <;> rfl

section

variable
  (budget : Nat)
  (unary : TokenReader Unary)
  (addition : TokenReader Addition)

theorem multiplication_eq_followed :
    multiplication budget unary =
      unary.followed fun first =>
        (repeated Scaling.ofKind? unary budget).followed fun later =>
          done
            (.mk (spanThrough first.span (fun (_, factor) => factor.span) later) first
              later) :=
  rfl

/-- A sum is read term by term. -/
theorem additionOf_eq_followed :
    additionOf budget unary =
      (multiplication budget unary).followed fun first =>
        (repeated Sign.ofKind? (multiplication budget unary) budget).followed fun later =>
          done
            (.mk (spanThrough first.span (fun (_, term) => term.span) later) first
              later) :=
  rfl

/-- Arguments end or go on by the token behind their parenthesis. -/
theorem argumentItems_eq_selected :
    argumentItems budget addition =
      selected (only? .closeParen) (fun _ close => done ([], close))
        (addition.followed fun first =>
          (repeated comma? addition budget).followed fun later =>
            (exactly .closeParen .closeParenOrComma).followed fun close =>
              done (first :: later.map Prod.snd, close)) := by
  funext tokens
  cases tokens with
  | nil =>
      rfl
  | cons token rest =>
      by_cases closes : token.kind = .closeParen
      · simp [argumentItems, exactly, selected, only?, closes, done]
      · simp only [argumentItems, exactly, selected, only?, closes, ↓reduceIte, fail]
        rfl

theorem arguments_eq_followed :
    arguments budget addition =
      (exactly .openParen .openParen).followed fun _ => argumentItems budget addition :=
  rfl

/-- Whether there are arguments is a choice by the next token. -/
theorem arguments?_eq_selected :
    arguments? budget addition =
      selected (only? .openParen)
        (fun _ _ => (argumentItems budget addition).followed fun found => done (some found))
        (done none) := by
  funext tokens
  cases tokens with
  | nil =>
      rfl
  | cons token rest =>
      by_cases opens : token.kind = .openParen
      · simp only [arguments?, selected, only?, opens, ↓reduceIte]
        rfl
      · simp only [arguments?, selected, only?, opens, ↓reduceIte]
        rfl

/-- A link is a member, and a call if arguments follow. -/
theorem link_eq_followed (dot : Token) :
    link budget addition dot =
      (name .memberName).followed fun (member, token) =>
        (arguments? budget addition).followed fun called =>
          done
            (match called with
            | none => .field (dot.span.through token.span) member token.span
            | some (items, close) =>
                .call (dot.span.through close.span) member token.span items) := by
  funext tokens
  simp only [link, followed]
  cases name .memberName tokens with
  | error failure =>
      rfl
  | ok found =>
      obtain ⟨⟨member, token⟩, behind⟩ := found
      simp only [ok_bind]
      cases arguments? budget addition behind with
      | error failure =>
          rfl
      | ok found =>
          obtain ⟨_ | ⟨items, close⟩, rest⟩ := found <;> rfl

/-- A chain goes on as long as points follow. -/
theorem links_succ_eq_selected (steps : Nat) :
    links budget addition (steps + 1) =
      selected (only? .dot)
        (fun _ dot =>
          (link budget addition dot).followed fun first =>
            (links budget addition steps).followed fun later => done (first :: later))
        (done []) := by
  funext tokens
  cases tokens with
  | nil =>
      rfl
  | cons token rest =>
      by_cases points : token.kind = .dot
      · simp only [links, selected, only?, points, ↓reduceIte]
        rfl
      · simp only [links, selected, only?, points, ↓reduceIte]
        rfl

/-- A construction is a path of names with arguments behind it. -/
theorem construction_eq_followed (keyword : Token) :
    construction budget addition keyword =
      (name .typeName).followed fun (first, _) =>
        (repeated dot? (name .typeName) budget).followed fun later =>
          (arguments budget addition).followed fun (items, close) =>
            done
              (.construction (keyword.span.through close.span)
                { first := first, later := later.map fun (_, segment, _) => segment }
                items) :=
  rfl

theorem group_eq_followed (opening : Token) :
    group addition opening =
      addition.followed fun inner =>
        (exactly .closeParen .closeParen).followed fun close =>
          done (.group (opening.span.through close.span) inner) :=
  rfl

/-- A name is called if arguments follow. -/
theorem nameOrCall_eq_followed
    (identifier : String)
    (token : Token) :
    nameOrCall budget addition identifier token =
      (arguments? budget addition).followed fun called =>
        done
          (match called with
          | none => .name token.span identifier
          | some (items, close) =>
              .call (token.span.through close.span) identifier token.span items) := by
  funext tokens
  simp only [nameOrCall, followed]
  cases arguments? budget addition tokens with
  | error failure =>
      rfl
  | ok found =>
      obtain ⟨_ | ⟨items, close⟩, rest⟩ := found <;> rfl

/-- What is read of an atom behind its first token, which is of the given kind. -/
def atomBehind : Token.Kind → Token → TokenReader Atom
  | .number value, token => done (.number token.span value)
  | .new, token => construction budget addition token
  | .identifier identifier, token => nameOrCall budget addition identifier token
  | .openParen, token => group addition token
  | _, _ => fail (.expected .expression)

/-- What an atom is, is a choice by its first token. -/
theorem atom_eq_selected :
    atom budget addition =
      selected atomStart? (atomBehind budget addition) (fail (.expected .expression)) := by
  funext tokens
  cases tokens with
  | nil =>
      rfl
  | cons token rest =>
      cases kind : token.kind <;> simp [atom, selected, atomStart?, atomBehind, kind, done]

/-- A primary is an atom with a chain behind it. -/
theorem primary_eq_followed :
    primary budget addition =
      (atom budget addition).followed fun first =>
        (links budget addition budget).followed fun chain =>
          done (.mk (spanThrough first.span Link.span chain) first chain) :=
  rfl

/-- Whether an operand has a sign is a choice by the next token. -/
theorem signedOr_eq_selected (operand : TokenReader Unary) :
    signedOr budget operand addition =
      selected Sign.ofKind?
        (fun sign token =>
          operand.followed fun inner =>
            done (.signed (token.span.through inner.span) sign inner))
        ((primary budget addition).followed fun inner => done (.primary inner)) := by
  funext tokens
  cases tokens with
  | nil =>
      rfl
  | cons token rest =>
      cases found : Sign.ofKind? token.kind with
      | none =>
          simp only [signedOr, selected, found]
          rfl
      | some sign =>
          simp only [signedOr, selected, found]
          rfl

end

end Grammar

/-! ## Whole inputs -/

/--
How tokens come to be refused: there are none, the reader of additions fails
among them, or some are left over behind the addition that was read.
-/
inductive Expression.IsRefused (tokens : List Token) : ParseFailure → Prop where
  | empty
      (nothing : tokens = []) :
      IsRefused tokens { fault := .noExpression, rest := [] }
  | inside
      {failure : ParseFailure}
      (nonempty : tokens ≠ [])
      (fails :
        Grammar.addition tokens.length Grammar.nestingLimit tokens = .error failure) :
      IsRefused tokens failure
  | leftOver
      {root : Addition}
      {rest : List Token}
      (nonempty : tokens ≠ [])
      (read :
        Grammar.addition tokens.length Grammar.nestingLimit tokens = .ok (root, rest))
      (goesOn : rest ≠ []) :
      IsRefused tokens { fault := .trailingInput, rest := rest }

/-- Reading an expression fails exactly if the tokens are refused in one of these ways. -/
theorem Expression.ofTokens_eq_error_iff
    {tokens : List Token}
    {failure : ParseFailure} :
    Expression.ofTokens tokens = .error failure ↔ Expression.IsRefused tokens failure := by
  constructor
  · intro fails
    unfold Expression.ofTokens at fails
    split at fails
    · next nothing =>
        cases fails
        exact .empty (List.isEmpty_iff.mp nothing)
    · next nonempty =>
        have nonempty : tokens ≠ [] := by simpa using nonempty
        cases read : Grammar.addition tokens.length Grammar.nestingLimit tokens with
        | error found =>
            rw [read] at fails
            cases fails
            exact .inside nonempty read
        | ok found =>
            obtain ⟨root, rest⟩ := found
            rw [read, ok_bind] at fails
            simp only at fails
            split at fails
            · cases fails
            · next goesOn =>
                cases fails
                exact .leftOver nonempty read (by simpa using goesOn)
  · intro refused
    cases refused with
    | empty nothing =>
        subst nothing
        rfl
    | inside nonempty fails =>
        rw [Expression.ofTokens, if_neg (by simpa using nonempty), fails]
        rfl
    | leftOver nonempty read goesOn =>
        rw [Expression.ofTokens, if_neg (by simpa using nonempty), read, ok_bind]
        exact if_neg (by simpa using goesOn)

end PlanarExpr
