import PlanarExpr.Proofs.ReaderShapes

namespace PlanarExpr

/-!
# The counter of nesting

The reader of expressions recurses on the room that is left for nesting. The
same reading can be done with one counter in the state: additions and signs
count up before what they enclose and down behind it, and refuse to count
beyond the limit; the recursion is only bounded by a stack. With more than the
limit on the stack both readings agree, the counter stays within the limit, and
behind every rule it is what it was before.
-/

/-- The rules of the grammar, each of which is read by a call. -/
inductive Rule where
  | expression
  | addition
  | multiplication
  | unary
  | primary
  | atom
  | link
  | arguments
deriving DecidableEq

/-- A call of a rule that has returned a value, with the counter at its two ends. -/
structure Returned where
  rule : Rule
  entry : Nat
  exit : Nat
deriving DecidableEq

/--
What a counted reading works on: the tokens left and the counter, with all
values the counter has had and all calls that have returned, the latest first.
-/
structure CountedState where
  rest : List Token
  depth : Nat
  depths : List Nat
  returned : List Returned

namespace CountedState

/-- Before anything is read. -/
def start (tokens : List Token) : CountedState :=
  { rest := tokens, depth := 0, depths := [0], returned := [] }

/-- Sets the counter, and keeps its value among those it has had. -/
def withDepth
    (state : CountedState)
    (depth : Nat) :
    CountedState :=
  { state with depth := depth, depths := depth :: state.depths }

/-- The counter has stayed within the limit, and is restored by every call that returns. -/
structure Kept (state : CountedState) : Prop where
  depths : ∀ depth ∈ state.depths, depth ≤ Grammar.nestingLimit
  returned : ∀ call ∈ state.returned, call.exit = call.entry

end CountedState

/-- How a counted reading ends: with a value, with a failure or without any stack left. -/
inductive CountedOutcome (α : Type) where
  | read (value : α)
  | failed (failure : ParseFailure)
  | overflowed

/-- The outcome of a counted reading that ends as a plain one does. -/
def CountedOutcome.ofExcept : Except ParseFailure α → CountedOutcome α
  | .ok value => .read value
  | .error failure => .failed failure

/-- A reader that works on the counter as well as on the tokens. -/
abbrev CountedReader (α : Type) :=
  CountedState → CountedOutcome α × CountedState

namespace CountedReader

/-- A reader that takes nothing and gives a value. -/
def done (value : α) : CountedReader α :=
  fun state => (.read value, state)

/-- A reader that fails in front of the next token. -/
def fail (fault : ParseFault) : CountedReader α :=
  fun state => (.failed { fault := fault, rest := state.rest }, state)

/-- A reader for which there is no stack left. -/
def overflow : CountedReader α :=
  fun state => (.overflowed, state)

/-- One reader, and another one from where it stopped. -/
def followed
    (first : CountedReader α)
    (next : α → CountedReader β) :
    CountedReader β :=
  fun state =>
    match first state with
    | (.read value, behind) => next value behind
    | (.failed failure, behind) => (.failed failure, behind)
    | (.overflowed, behind) => (.overflowed, behind)

/-- What is read behind a token that makes a choice, or else from that token on. -/
def selected
    (choice? : Token.Kind → Option σ)
    (next : σ → Token → CountedReader α)
    (otherwise : CountedReader α) :
    CountedReader α :=
  fun state =>
    match state.rest with
    | [] => otherwise state
    | token :: rest =>
        match choice? token.kind with
        | some choice => next choice token { state with rest := rest }
        | none => otherwise state

/-- One reader at the end of the tokens, another one before it. -/
def atEnd (ended goesOn : CountedReader α) : CountedReader α :=
  fun state => if state.rest.isEmpty then ended state else goesOn state

/-- Reads one token of a kind. -/
def exactly
    (kind : Token.Kind)
    (what : Expectation) :
    CountedReader Token :=
  selected (TokenReader.only? kind) (fun _ token => done token) (fail (.expected what))

/-- Reads one name, with its token. -/
def name (what : Expectation) : CountedReader (String × Token) :=
  selected TokenReader.identifier? (fun found token => done (found, token))
    (fail (.expected what))

/-- Reads an item behind each separator, as long as there is one and the budget lasts. -/
def repeated
    (separator? : Token.Kind → Option σ)
    (item : CountedReader α) :
    Nat →
    CountedReader (List (σ × α))
  | 0 => done []
  | budget + 1 =>
      selected separator?
        (fun separator _ =>
          item.followed fun value =>
            (repeated separator? item budget).followed fun later =>
              done ((separator, value) :: later))
        (done [])

/-- Counts one level more, unless the limit is reached. -/
def enter : CountedReader Unit :=
  fun state =>
    if Grammar.nestingLimit ≤ state.depth then
      fail .tooDeep state
    else
      (.read (), state.withDepth (state.depth + 1))

/-- Counts one level less. -/
def leave : CountedReader Unit :=
  fun state => (.read (), state.withDepth (state.depth - 1))

/-- What is read one level further in. -/
def enclosed (reader : CountedReader α) : CountedReader α :=
  enter.followed fun _ => reader.followed fun value => leave.followed fun _ => done value

/-- A call of a rule; when it returns a value, the counter at its ends is noted. -/
def called
    (rule : Rule)
    (reader : CountedReader α) :
    CountedReader α :=
  fun state =>
    match reader state with
    | (.read value, behind) =>
        (.read value,
          { behind with
            returned :=
              { rule := rule, entry := state.depth, exit := behind.depth } ::
                behind.returned })
    | (.failed failure, behind) => (.failed failure, behind)
    | (.overflowed, behind) => (.overflowed, behind)

/-! ## The rules of the grammar -/

/-- A call of the rule for products. -/
def multiplication
    (budget : Nat)
    (unary : CountedReader Unary) :
    CountedReader Multiplication :=
  called .multiplication <|
    unary.followed fun first =>
      (repeated Scaling.ofKind? unary budget).followed fun later =>
        done (.mk (spanThrough first.span (fun (_, factor) => factor.span) later) first later)

/-- A call of the rule for sums, which counts as a level. -/
def addition
    (budget : Nat)
    (unary : CountedReader Unary) :
    CountedReader Addition :=
  called .addition <| enclosed <|
    (multiplication budget unary).followed fun first =>
      (repeated Sign.ofKind? (multiplication budget unary) budget).followed fun later =>
        done (.mk (spanThrough first.span (fun (_, term) => term.span) later) first later)

section

variable
  (budget : Nat)
  (addition : CountedReader Addition)

/-- What stands behind the parenthesis that opens arguments. -/
def argumentItems : CountedReader (List Addition × Token) :=
  selected (TokenReader.only? .closeParen) (fun _ close => done ([], close))
    (addition.followed fun first =>
      (repeated comma? addition budget).followed fun later =>
        (exactly .closeParen .closeParenOrComma).followed fun close =>
          done (first :: later.map Prod.snd, close))

/-- A call of the rule for arguments. -/
def arguments : CountedReader (List Addition × Token) :=
  called .arguments <|
    (exactly .openParen .openParen).followed fun _ => argumentItems budget addition

/-- Arguments, if the next token opens them. -/
def arguments? : CountedReader (Option (List Addition × Token)) :=
  fun state =>
    match state.rest with
    | [] => done none state
    | token :: _ =>
        if token.kind = .openParen then
          ((arguments budget addition).followed fun found => done (some found)) state
        else
          done none state

/-- A call of the rule for links, behind the point. -/
def link (dot : Token) : CountedReader Link :=
  called .link <|
    (name .memberName).followed fun (member, token) =>
      (arguments? budget addition).followed fun called =>
        done
          (match called with
          | none => .field (dot.span.through token.span) member token.span
          | some (items, close) =>
              .call (dot.span.through close.span) member token.span items)

/-- Reads links as long as points follow and the steps last. -/
def links : Nat → CountedReader (List Link)
  | 0 => done []
  | steps + 1 =>
      selected (TokenReader.only? .dot)
        (fun _ dot =>
          (link budget addition dot).followed fun first =>
            (links steps).followed fun later => done (first :: later))
        (done [])

/-- Reads a construction behind its keyword. -/
def construction (keyword : Token) : CountedReader Atom :=
  (name .typeName).followed fun (first, _) =>
    (repeated dot? (name .typeName) budget).followed fun later =>
      (arguments budget addition).followed fun (items, close) =>
        done
          (.construction (keyword.span.through close.span)
            { first := first, later := later.map fun (_, segment, _) => segment }
            items)

/-- Reads a group behind its parenthesis. -/
def group (opening : Token) : CountedReader Atom :=
  addition.followed fun inner =>
    (exactly .closeParen .closeParen).followed fun close =>
      done (.group (opening.span.through close.span) inner)

/-- Reads what stands behind a name: arguments if it is called. -/
def nameOrCall
    (identifier : String)
    (token : Token) :
    CountedReader Atom :=
  (arguments? budget addition).followed fun called =>
    done
      (match called with
      | none => .name token.span identifier
      | some (items, close) =>
          .call (token.span.through close.span) identifier token.span items)

/-- What is read of an atom behind its first token, which is of the given kind. -/
def atomBehind : Token.Kind → Token → CountedReader Atom
  | .number value, token => done (.number token.span value)
  | .new, token => construction budget addition token
  | .identifier identifier, token => nameOrCall budget addition identifier token
  | .openParen, token => group addition token
  | _, _ => fail (.expected .expression)

/-- A call of the rule for atoms. -/
def atom : CountedReader Atom :=
  called .atom <|
    selected Grammar.atomStart? (atomBehind budget addition) (fail (.expected .expression))

/-- A call of the rule for primaries. -/
def primary : CountedReader Primary :=
  called .primary <|
    (atom budget addition).followed fun first =>
      (links budget addition budget).followed fun chain =>
        done (.mk (spanThrough first.span Link.span chain) first chain)

/-- A call of the rule for unary expressions; what is signed counts as a level. -/
def signedOr (operand : CountedReader Unary) : CountedReader Unary :=
  called .unary <|
    selected Sign.ofKind?
      (fun sign token =>
        (enclosed operand).followed fun inner =>
          done (.signed (token.span.through inner.span) sign inner))
      ((primary budget addition).followed fun inner => done (.primary inner))

end

/-- Reads a unary expression with a stack for so many calls of this rule within one another. -/
def unary (budget : Nat) : Nat → CountedReader Unary
  | 0 => overflow
  | stack + 1 =>
      signedOr budget (addition budget (unary budget stack)) (unary budget stack)

/-- A whole input, behind which nothing may be left. -/
def expression
    (budget stack : Nat) :
    CountedReader Expression :=
  called .expression <|
    atEnd (fail .noExpression) <|
      (addition budget (unary budget stack)).followed fun root =>
        atEnd (done { root := root }) (fail .trailingInput)

/-- How a reading of some tokens ends, and the state that it ends in. -/
def run
    (stack : Nat)
    (tokens : List Token) :
    CountedOutcome Expression × CountedState :=
  expression tokens.length stack (.start tokens)

end CountedReader

/-! ## The counted reading and the one that recurses on the room -/

/-- One reader at the end of the tokens, another one before it. -/
def TokenReader.atEnd (ended goesOn : TokenReader α) : TokenReader α :=
  fun tokens => if tokens.isEmpty then ended tokens else goesOn tokens

/-- The reader of a whole input. -/
def Grammar.expression (budget : Nat) : TokenReader Expression :=
  TokenReader.atEnd (TokenReader.fail .noExpression) <|
    (addition budget nestingLimit).followed fun root =>
      TokenReader.atEnd (TokenReader.done { root := root }) (TokenReader.fail .trailingInput)

/-- Reading an expression is reading a whole input. -/
theorem Expression.ofTokens_eq_expression (tokens : List Token) :
    Expression.ofTokens tokens =
      (Grammar.expression tokens.length tokens).map Prod.fst := by
  cases tokens with
  | nil => rfl
  | cons token behind =>
      simp only [Expression.ofTokens, Grammar.expression, TokenReader.atEnd,
        TokenReader.followed, List.isEmpty_cons, Bool.false_eq_true, if_false]
      cases Grammar.addition (token :: behind).length Grammar.nestingLimit (token :: behind) with
      | error failure => rfl
      | ok found =>
          obtain ⟨root, rest⟩ := found
          cases rest <;> rfl

/-- Two readings end alike, and if they succeed the counter is back where it was. -/
inductive EndsAlike
    (depth : Nat) :
    Except ParseFailure (α × List Token) →
    CountedOutcome α × CountedState →
    Prop where
  | read {value : α} {rest : List Token} {final : CountedState} :
      final.rest = rest →
      final.depth = depth →
      final.Kept →
      EndsAlike depth (.ok (value, rest)) (.read value, final)
  | failed {failure : ParseFailure} {final : CountedState} :
      final.Kept →
      EndsAlike depth (.error failure) (.failed failure, final)

/-- Readings that end alike give the same outcome, and the counter is kept. -/
theorem EndsAlike.result
    {depth : Nat}
    {plain : Except ParseFailure (α × List Token)}
    {counted : CountedOutcome α × CountedState}
    (alike : EndsAlike depth plain counted) :
    counted.1 = .ofExcept (plain.map Prod.fst) ∧ counted.2.Kept := by
  cases alike with
  | read _ _ kept => exact ⟨rfl, kept⟩
  | failed kept => exact ⟨rfl, kept⟩

/-- From every state with the given room left, a counted reader does what a plain one does. -/
def Counts
    (room : Nat)
    (counted : CountedReader α)
    (plain : TokenReader α) :
    Prop :=
  ∀ state : CountedState,
    state.depth + room = Grammar.nestingLimit →
    state.Kept →
    EndsAlike state.depth (plain state.rest) (counted state)

namespace Counts

variable {room : Nat}

/-- Taking nothing leaves the counter as it is. -/
theorem done (value : α) : Counts room (.done value) (TokenReader.done value) :=
  fun _ _ kept => .read rfl rfl kept

/-- A failure is the same in both readings. -/
theorem fail (fault : ParseFault) :
    Counts room (.fail fault : CountedReader α) (TokenReader.fail fault) :=
  fun _ _ kept => .failed kept

/-- Two readers in a row do the same if both parts of them do. -/
theorem followed
    {first : CountedReader α}
    {plainFirst : TokenReader α}
    {next : α → CountedReader β}
    {plainNext : α → TokenReader β}
    (firstCounts : Counts room first plainFirst)
    (nextCounts : ∀ value, Counts room (next value) (plainNext value)) :
    Counts room (first.followed next) (plainFirst.followed plainNext) := by
  intro state fits kept
  have alike := firstCounts state fits kept
  rw [CountedReader.followed, TokenReader.followed]
  generalize first state = found, plainFirst state.rest = plainFound at alike ⊢
  cases alike with
  | read left restored finalKept =>
      rw [← restored] at fits ⊢
      rw [← left]
      exact nextCounts _ _ fits finalKept
  | failed finalKept => exact .failed finalKept

/-- Choices do the same if everything that may be chosen does. -/
theorem selected
    {choice? : Token.Kind → Option σ}
    {next : σ → Token → CountedReader α}
    {plainNext : σ → Token → TokenReader α}
    {otherwise : CountedReader α}
    {plainOtherwise : TokenReader α}
    (nextCounts : ∀ choice token, Counts room (next choice token) (plainNext choice token))
    (otherwiseCounts : Counts room otherwise plainOtherwise) :
    Counts room (.selected choice? next otherwise)
      (TokenReader.selected choice? plainNext plainOtherwise) := by
  rintro ⟨_ | ⟨token, rest⟩, depth, depths, returned⟩ fits kept
  · exact otherwiseCounts _ fits kept
  · simp only [CountedReader.selected, TokenReader.selected]
    cases choice? token.kind with
    | none => exact otherwiseCounts _ fits kept
    | some choice =>
        exact nextCounts choice token { rest := rest, depth, depths, returned } fits
          ⟨kept.depths, kept.returned⟩

/-- At the end and before it the same is done if both readers do the same. -/
theorem atEnd
    {ended goesOn : CountedReader α}
    {plainEnded plainGoesOn : TokenReader α}
    (endedCounts : Counts room ended plainEnded)
    (goesOnCounts : Counts room goesOn plainGoesOn) :
    Counts room (.atEnd ended goesOn) (TokenReader.atEnd plainEnded plainGoesOn) := by
  intro state fits kept
  rw [CountedReader.atEnd, TokenReader.atEnd]
  split
  · exact endedCounts state fits kept
  · exact goesOnCounts state fits kept

/-- A token of a kind is read alike. -/
theorem exactly
    (kind : Token.Kind)
    (what : Expectation) :
    Counts room (.exactly kind what) (TokenReader.exactly kind what) := by
  rw [TokenReader.exactly_eq_selected]
  exact selected (fun _ token => done token) (fail _)

/-- A name is read alike. -/
theorem name (what : Expectation) : Counts room (.name what) (TokenReader.name what) := by
  rw [TokenReader.name_eq_selected]
  exact selected (fun found token => done (found, token)) (fail _)

/-- Repetitions do the same if their items do. -/
theorem repeated
    {separator? : Token.Kind → Option σ}
    {item : CountedReader α}
    {plainItem : TokenReader α}
    (itemCounts : Counts room item plainItem)
    (budget : Nat) :
    Counts room (.repeated separator? item budget)
      (TokenReader.repeated separator? plainItem budget) := by
  induction budget with
  | zero => exact done []
  | succ budget inductionHypothesis =>
      rw [TokenReader.repeated_succ_eq_selected]
      apply selected
      · intro separator _
        exact followed itemCounts fun _ => followed inductionHypothesis fun _ => done _
      · exact done []

/-- A call changes nothing but what is noted about it: that the counter is restored. -/
theorem called
    {reader : CountedReader α}
    {plain : TokenReader α}
    (rule : Rule)
    (counts : Counts room reader plain) :
    Counts room (.called rule reader) plain := by
  intro state fits kept
  have alike := counts state fits kept
  rw [CountedReader.called]
  generalize reader state = found, plain state.rest = plainFound at alike ⊢
  cases alike with
  | read left restored finalKept =>
      refine .read left restored ⟨finalKept.depths, List.forall_mem_cons.mpr ?_⟩
      exact ⟨restored, finalKept.returned⟩
  | failed finalKept => exact .failed finalKept

/-- One level further in there is room for one level less. -/
theorem enclosed
    {reader : CountedReader α}
    {plain : TokenReader α}
    (counts : Counts room reader plain) :
    Counts (room + 1) (.enclosed reader) plain := by
  intro state fits kept
  have below : state.depth + 1 ≤ Grammar.nestingLimit := by omega
  have alike :=
    counts (state.withDepth (state.depth + 1)) (by simp only [CountedState.withDepth]; omega)
      ⟨List.forall_mem_cons.mpr ⟨below, kept.depths⟩, kept.returned⟩
  simp only [CountedReader.enclosed, CountedReader.followed, CountedReader.enter,
    if_neg (Nat.not_le_of_lt below)]
  change EndsAlike _ (plain state.rest) _ at alike
  generalize reader (state.withDepth (state.depth + 1)) = found,
    plain state.rest = plainFound at alike ⊢
  cases alike with
  | @read value rest final left restored finalKept =>
      have back : final.depth - 1 = state.depth := by
        rw [restored]
        rfl
      refine .read left back ⟨List.forall_mem_cons.mpr ⟨?_, finalKept.depths⟩, finalKept.returned⟩
      omega
  | failed finalKept => exact .failed finalKept

/-- At the limit nothing is read one level further in. -/
theorem enclosed_atLimit (reader : CountedReader α) :
    Counts 0 (.enclosed reader) (TokenReader.fail .tooDeep) := by
  intro state fits kept
  have reached : Grammar.nestingLimit ≤ state.depth := Nat.le_of_eq fits.symm
  simp only [CountedReader.enclosed, CountedReader.followed, CountedReader.enter,
    if_pos reached]
  exact .failed kept

end Counts

namespace CountedReader

variable {room budget : Nat}

section

variable
  {unary : CountedReader Unary}
  {plainUnary : TokenReader Unary}
  (unaryCounts : Counts room unary plainUnary)

include unaryCounts

theorem counts_multiplication :
    Counts room (multiplication budget unary) (Grammar.multiplication budget plainUnary) := by
  rw [Grammar.multiplication_eq_followed]
  apply Counts.called
  apply unaryCounts.followed
  intro first
  exact (unaryCounts.repeated budget).followed fun _ => .done _

/-- Sums are read as by the plain reader, and take one level of the room. -/
theorem counts_addition :
    Counts (room + 1) (addition budget unary) (Grammar.additionOf budget plainUnary) := by
  have termCounts :
      Counts room (multiplication budget unary) (Grammar.multiplication budget plainUnary) :=
    counts_multiplication unaryCounts
  rw [Grammar.additionOf_eq_followed]
  apply Counts.called
  apply Counts.enclosed
  apply termCounts.followed
  intro first
  exact (termCounts.repeated budget).followed fun _ => .done _

end

section

variable
  {addition : CountedReader Addition}
  {plainAddition : TokenReader Addition}
  (additionCounts : Counts room addition plainAddition)

include additionCounts

/-- Arguments behind their parenthesis are read as by the plain reader. -/
theorem counts_argumentItems :
    Counts room (argumentItems budget addition)
      (Grammar.argumentItems budget plainAddition) := by
  rw [Grammar.argumentItems_eq_selected]
  apply Counts.selected
  · exact fun _ _ => .done _
  · apply additionCounts.followed
    intro first
    apply (additionCounts.repeated budget).followed
    intro later
    exact (Counts.exactly _ _).followed fun _ => .done _

theorem counts_arguments :
    Counts room (arguments budget addition) (Grammar.arguments budget plainAddition) := by
  rw [Grammar.arguments_eq_followed]
  apply Counts.called
  exact (Counts.exactly _ _).followed fun _ => counts_argumentItems additionCounts

/-- Arguments are called in front of their parenthesis; it is only looked at before. -/
theorem counts_arguments? :
    Counts room (arguments? budget addition) (Grammar.arguments? budget plainAddition) := by
  intro state fits kept
  have calledCounts :
      Counts room ((arguments budget addition).followed fun found => done (some found))
        ((Grammar.arguments budget plainAddition).followed fun found =>
          TokenReader.done (some found)) :=
    (counts_arguments additionCounts).followed fun _ => .done _
  have alike := calledCounts state fits kept
  unfold arguments?
  cases left : state.rest with
  | nil => exact .read left rfl kept
  | cons token behind =>
      simp only [Grammar.arguments?]
      split
      · next opens =>
          have looked :
              Grammar.arguments budget plainAddition (token :: behind) =
                Grammar.argumentItems budget plainAddition behind := by
            simp only [Grammar.arguments, TokenReader.exactly, if_pos opens, ok_bind]
          rw [left, TokenReader.followed, looked] at alike
          exact alike
      · exact .read left rfl kept

theorem counts_link (dot : Token) :
    Counts room (link budget addition dot) (Grammar.link budget plainAddition dot) := by
  rw [Grammar.link_eq_followed]
  apply Counts.called
  apply (Counts.name _).followed
  rintro ⟨member, token⟩
  exact (counts_arguments? additionCounts).followed fun _ => .done _

/-- Chains are read as by the plain reader, link by link. -/
theorem counts_links (steps : Nat) :
    Counts room (links budget addition steps) (Grammar.links budget plainAddition steps) := by
  induction steps with
  | zero => exact .done []
  | succ steps inductionHypothesis =>
      rw [Grammar.links_succ_eq_selected]
      apply Counts.selected
      · intro _ dot
        apply (counts_link additionCounts dot).followed
        exact fun first => inductionHypothesis.followed fun _ => .done _
      · exact .done []

theorem counts_construction (keyword : Token) :
    Counts room (construction budget addition keyword)
      (Grammar.construction budget plainAddition keyword) := by
  rw [Grammar.construction_eq_followed]
  apply (Counts.name _).followed
  rintro ⟨first, _⟩
  apply ((Counts.name _).repeated budget).followed
  intro later
  apply (counts_arguments additionCounts).followed
  rintro ⟨items, close⟩
  exact .done _

theorem counts_group (opening : Token) :
    Counts room (group addition opening) (Grammar.group plainAddition opening) := by
  rw [Grammar.group_eq_followed]
  apply additionCounts.followed
  exact fun inner => (Counts.exactly _ _).followed fun _ => .done _

theorem counts_nameOrCall
    (identifier : String)
    (token : Token) :
    Counts room (nameOrCall budget addition identifier token)
      (Grammar.nameOrCall budget plainAddition identifier token) := by
  rw [Grammar.nameOrCall_eq_followed]
  exact (counts_arguments? additionCounts).followed fun _ => .done _

theorem counts_atom :
    Counts room (atom budget addition) (Grammar.atom budget plainAddition) := by
  rw [Grammar.atom_eq_selected]
  apply Counts.called
  apply Counts.selected
  · intro start token
    cases start with
    | number value => exact .done _
    | identifier name => exact counts_nameOrCall additionCounts name token
    | new => exact counts_construction additionCounts token
    | openParen => exact counts_group additionCounts token
    | _ => exact .fail _
  · exact .fail _

theorem counts_primary :
    Counts room (primary budget addition) (Grammar.primary budget plainAddition) := by
  rw [Grammar.primary_eq_followed]
  apply Counts.called
  apply (counts_atom additionCounts).followed
  exact fun first => (counts_links additionCounts budget).followed fun _ => .done _

/-- Unary expressions are read as by the plain reader if operands are, one level further in. -/
theorem counts_signedOr
    {operand : CountedReader Unary}
    {plainOperand : TokenReader Unary}
    (operandCounts : Counts room (enclosed operand) plainOperand) :
    Counts room (signedOr budget addition operand)
      (Grammar.signedOr budget plainOperand plainAddition) := by
  rw [Grammar.signedOr_eq_selected]
  apply Counts.called
  apply Counts.selected
  · exact fun sign token => operandCounts.followed fun _ => .done _
  · exact (counts_primary additionCounts).followed fun _ => .done _

end

/-- With a stack for more calls than there is room for levels, it is the room that runs out. -/
theorem counts_unary
    (budget room spare : Nat) :
    Counts room (unary budget (room + 1 + spare)) (Grammar.unary budget room) := by
  induction room with
  | zero =>
      rw [Nat.zero_add, Nat.add_comm]
      apply counts_signedOr
      · exact (Counts.enclosed_atLimit _).called _
      · exact .enclosed_atLimit _
  | succ room inductionHypothesis =>
      rw [Nat.add_right_comm]
      apply counts_signedOr
      · exact counts_addition inductionHypothesis
      · exact inductionHypothesis.enclosed

/-- The counted reading of an expression does what the plain one does. -/
theorem counts_expression (budget spare : Nat) :
    Counts Grammar.nestingLimit (expression budget (Grammar.nestingLimit + spare))
      (Grammar.expression budget) := by
  apply Counts.called
  apply Counts.atEnd (.fail _)
  apply (counts_addition (counts_unary budget 63 spare)).followed
  exact fun root => .atEnd (.done _) (.fail _)

/-- The counted reading is the reading of an expression, and it keeps the counter. -/
theorem run_eq
    (spare : Nat)
    (tokens : List Token) :
    (run (Grammar.nestingLimit + spare) tokens).1 =
        .ofExcept (Expression.ofTokens tokens) ∧
      (run (Grammar.nestingLimit + spare) tokens).2.Kept := by
  have startKept : (CountedState.start tokens).Kept :=
    ⟨List.forall_mem_singleton.mpr (Nat.zero_le _), List.forall_mem_nil _⟩
  rw [Expression.ofTokens_eq_expression]
  exact (counts_expression tokens.length spare (.start tokens) rfl startKept).result

end CountedReader

end PlanarExpr
