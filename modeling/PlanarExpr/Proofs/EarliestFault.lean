import PlanarExpr.Proofs.Completions
import PlanarExpr.Proofs.Lookahead
import PlanarExpr.Proofs.Reading
import PlanarExpr.Token.Lexer

namespace PlanarExpr

/-!
# Faults are found at the earliest place

Tokens that are no expression are refused at the first token that no expression
can have there: the tokens before it can still become one, and with it they
cannot. If there is no such token, the input ends too early. The code of the
diagnostic tells whether the tokens before that place are an expression
already.
-/

namespace Grammar

/-- The kinds of the tokens of some expression, however deep it is nested. -/
def IsSentence (kinds : List Token.Kind) : Prop :=
  ∃ expression : Expression, expression.kinds = kinds

/-- The kinds that some sentence starts with. -/
def IsViable (kinds : List Token.Kind) : Prop :=
  ∃ behind, IsSentence (kinds ++ behind)

/-- Tokens that write an expression are a sentence by their kinds. -/
theorem isSentence_of_written
    {tokens : List Token}
    {tree : Addition}
    (written : tree.Written tokens) :
    IsSentence (tokens.map Token.kind) :=
  ⟨{ root := tree }, (tree.map_kind_of_written written).symm⟩

/-- Tokens whose kinds are a sentence write some expression. -/
theorem exists_written_of_isSentence
    {tokens : List Token}
    (sentence : IsSentence (tokens.map Token.kind)) :
    ∃ tree : Addition, tree.Written tokens := by
  obtain ⟨expression, kinds⟩ := sentence
  obtain ⟨written, rootWritten, _⟩ := Expression.exists_written_of_map_kind kinds.symm
  exact ⟨written.root, rootWritten⟩

/-- Tokens that can be completed are viable by their kinds. -/
theorem isViable_of_completable
    {used : List Token}
    (completable : Completable Addition.Written used) :
    IsViable (used.map Token.kind) := by
  obtain ⟨behind, tree, written⟩ := completable
  refine ⟨behind.map Token.kind, ?_⟩
  rw [← List.map_append]
  exact isSentence_of_written written

/-- The empty input is no sentence, but every sentence starts with it. -/
theorem not_isSentence_nil : ¬ IsSentence [] := by
  intro sentence
  have written : ∃ tree, Addition.Written [] tree := exists_written_of_isSentence sentence
  obtain ⟨tree, nothingWritten⟩ := written
  obtain ⟨token, behind, impossible, _⟩ := nothingWritten.exists_first
  cases impossible

/-- Every sentence goes on from the empty input. -/
theorem isViable_nil : IsViable [] :=
  isViable_of_completable completable_addition

/--
A sentence that goes on like the tokens up to where their reading ends is over
there, and then the reading has found an expression.
-/
theorem nil_of_isSentence
    {budget : Nat}
    {used rest used' rest' : List Token}
    {fault? : Option ParseFault}
    (ends : (addition budget nestingLimit).ending (used ++ rest) = (fault?, rest))
    (fits : (used ++ rest).length ≤ budget)
    (hasRoom : fault? ≠ some .tooDeep)
    (sameKinds : used'.map Token.kind = used.map Token.kind)
    (starts : StartsLike rest rest')
    (sentence : IsSentence ((used' ++ rest').map Token.kind)) :
    fault? = none ∧ rest' = [] := by
  obtain ⟨tree, written⟩ := exists_written_of_isSentence sentence
  let budget' := max budget (used' ++ rest').length
  let room' := max nestingLimit tree.nesting
  have fits' : (used' ++ rest').length ≤ budget' := Nat.le_max_right _ _
  have follows :
      TokenReader.Follows budget budget' (addition budget nestingLimit)
        (addition budget' room') :=
    follows_addition (Nat.le_max_left _ _) (Nat.le_max_left _ _)
  have ends' := follows.alike sameKinds starts fits fits' hasRoom ends
  have read : addition budget' room' (used' ++ rest' ++ []) = .ok (tree, []) :=
    complete_addition budget' room' ⟨written, Nat.le_max_right _ _⟩ (by simpa using fits')
      (stops_nil _)
  rw [List.append_nil] at read
  rw [TokenReader.ending_of_ok read] at ends'
  obtain ⟨sameFault, sameRest⟩ := Prod.mk.inj ends'
  exact ⟨sameFault.symm, sameRest.symm⟩

/-- Where the reading of some tokens ends, no sentence goes on with the next one. -/
theorem not_isViable_of_ending
    {budget : Nat}
    {used rest : List Token}
    {fault? : Option ParseFault}
    (ends : (addition budget nestingLimit).ending (used ++ rest) = (fault?, rest))
    (fits : (used ++ rest).length ≤ budget)
    (hasRoom : fault? ≠ some .tooDeep) :
    ∀ token ∈ rest.head?, ¬ IsViable (used.map Token.kind ++ [token.kind]) := by
  cases rest with
  | nil =>
      rintro token ⟨⟩
  | cons token behind =>
      rintro _ ⟨⟩ ⟨more, sentence⟩
      have kinds :
          used.map Token.kind ++ [token.kind] ++ more =
            (used ++ token :: more.map Token.ofKind).map Token.kind := by
        simp [Function.comp_def, Token.ofKind]
      rw [kinds] at sentence
      obtain ⟨_, impossible⟩ :=
        nil_of_isSentence ends fits hasRoom rfl (startsLike_cons rfl _ _) sentence
      cases impossible

/-- Tokens whose reading ends in a fault are no sentence up to there. -/
theorem not_isSentence_of_ending
    {budget : Nat}
    {used rest : List Token}
    {fault : ParseFault}
    (ends : (addition budget nestingLimit).ending (used ++ rest) = (some fault, rest))
    (fits : (used ++ rest).length ≤ budget)
    (hasRoom : fault ≠ .tooDeep) :
    ¬ IsSentence (used.map Token.kind) := by
  intro sentence
  rw [← List.append_nil used] at sentence
  obtain ⟨impossible, _⟩ :=
    nil_of_isSentence ends fits (by simpa using hasRoom) rfl (startsLike_nil rest) sentence
  cases impossible

end Grammar

/-- How the tokens before a fault and the first one from there on relate to the sentences. -/
structure ParseFailure.IsEarliest
    (failure : ParseFailure)
    (used : List Token) :
    Prop where
  viable : Grammar.IsViable (used.map Token.kind)
  wrong :
    ∀ token ∈ failure.rest.head?,
      ¬ Grammar.IsViable (used.map Token.kind ++ [token.kind])
  sentence_iff :
    Grammar.IsSentence (used.map Token.kind) ↔ failure.fault = .trailingInput
  noExpression_iff : failure.fault = .noExpression ↔ used ++ failure.rest = []
  trailing : failure.fault = .trailingInput → failure.rest ≠ []

/-- Apart from the limit on nesting, tokens are refused at the earliest place. -/
theorem Expression.isEarliest_of_ofTokens
    {tokens : List Token}
    {failure : ParseFailure}
    (fails : Expression.ofTokens tokens = .error failure)
    (hasRoom : failure.fault ≠ .tooDeep) :
    ∃ used, tokens = used ++ failure.rest ∧ failure.IsEarliest used := by
  cases ofTokens_eq_error_iff.mp fails with
  | empty nothing =>
      refine ⟨[], nothing, Grammar.isViable_nil, ?_, ?_, ?_, ?_⟩
      · rintro token ⟨⟩
      · simp [Grammar.not_isSentence_nil]
      · simp
      · simp
  | inside nonempty fails =>
      -- The tokens before the fault can be completed, so they are no sentence yet.
      obtain ⟨ofRule, used, rfl, completable⟩ := Grammar.promising_addition _ _ fails
      have someRoom : some failure.fault ≠ some .tooDeep := by
        simpa using hasRoom
      have ends := TokenReader.ending_of_error fails
      have noSentence :=
        Grammar.not_isSentence_of_ending ends (Nat.le_refl _) hasRoom
      refine ⟨used, rfl, Grammar.isViable_of_completable completable,
        Grammar.not_isViable_of_ending ends (Nat.le_refl _) someRoom, ?_, ?_, ?_⟩
      · constructor
        · intro sentence
          exact absurd sentence noSentence
        · intro trailing
          rw [trailing] at ofRule
          cases ofRule
      · constructor
        · intro noExpression
          rw [noExpression] at ofRule
          cases ofRule
        · intro empty
          exact absurd empty nonempty
      · intro trailing
        rw [trailing] at ofRule
        cases ofRule
  | leftOver nonempty read goesOn =>
      -- The tokens before the fault are a sentence, which no token can continue here.
      obtain ⟨used, rfl, written, _⟩ := Grammar.sound_addition _ _ read
      have ends := TokenReader.ending_of_ok read
      have sentence := Grammar.isSentence_of_written written
      refine ⟨used, rfl, ⟨[], by rwa [List.append_nil]⟩,
        Grammar.not_isViable_of_ending ends (Nat.le_refl _) (by simp), ?_, ?_, ?_⟩
      · simp [sentence]
      · constructor
        · rintro ⟨⟩
        · intro empty
          exact absurd empty nonempty
      · intro _
        exact goesOn

/-- The kinds of the tokens of a stream. -/
def TokenStream.kinds (stream : TokenStream) : List Token.Kind :=
  stream.tokens.map Token.kind

/--
A diagnostic stands at the earliest wrong entry of a stream, and its code says
what is wrong there. The end of the input counts as the last entry.
-/
structure TokenStream.ReportsEarliest
    (stream : TokenStream)
    (diagnostic : Diagnostic)
    (place : Nat) :
    Prop where
  span : (stream.entries[place]?).map TokenEntry.span = some diagnostic.span
  viable : Grammar.IsViable (stream.kinds.take place)
  wrong :
    place < stream.tokens.length → ¬ Grammar.IsViable (stream.kinds.take (place + 1))
  incomplete : place = stream.tokens.length → ¬ Grammar.IsSentence stream.kinds
  invalidExpression_iff :
    diagnostic.code = "E103" ↔ place = 0 ∧ stream.tokens.length = 0
  unexpectedEnd_iff :
    diagnostic.code = "E102" ↔ place = stream.tokens.length ∧ 0 < place
  trailingInput_iff :
    diagnostic.code = "E104" ↔
      place < stream.tokens.length ∧ Grammar.IsSentence (stream.kinds.take place)
  unexpectedToken_iff :
    diagnostic.code = "E101" ↔
      place < stream.tokens.length ∧ ¬ Grammar.IsSentence (stream.kinds.take place)

/-- The entry at which a failure is shown. -/
theorem TokenStream.span_entries_of_append
    {stream : TokenStream}
    {used : List Token}
    {failure : ParseFailure}
    (shape : stream.tokens = used ++ failure.rest) :
    (stream.entries[used.length]?).map TokenEntry.span =
      some (failure.span stream.finish) := by
  rw [TokenStream.entries, shape, ParseFailure.span]
  cases failure.rest with
  | nil => simp
  | cons token behind => simp

/-- The code of a failure; what the grammar asks for is missing at a token or at the end. -/
theorem ParseFailure.code_problem
    {failure : ParseFailure}
    (trailing : failure.fault = .trailingInput → failure.rest ≠ []) :
    failure.problem.code =
      match failure.fault with
      | .expected _ => if failure.rest = [] then "E102" else "E101"
      | .noExpression => "E103"
      | .trailingInput => "E104"
      | .tooDeep => "E105" := by
  obtain ⟨fault, rest⟩ := failure
  cases fault <;> cases rest <;> first | rfl | exact absurd rfl (trailing rfl)

namespace ParseFailure.IsEarliest

variable
  {failure : ParseFailure}
  {used : List Token}
  (earliest : failure.IsEarliest used)

include earliest

/-- An expression is missing exactly where the input is empty. -/
theorem code_eq_invalidExpression_iff :
    failure.problem.code = "E103" ↔ used = [] ∧ failure.rest = [] := by
  rw [code_problem earliest.trailing, ← List.append_eq_nil_iff,
    ← earliest.noExpression_iff]
  cases failure.fault with
  | expected what =>
      simp only [reduceCtorEq, iff_false]
      split <;> decide
  | _ => simp

/-- Input is left over exactly behind a sentence. -/
theorem code_eq_trailingInput_iff :
    failure.problem.code = "E104" ↔
      failure.rest ≠ [] ∧ Grammar.IsSentence (used.map Token.kind) := by
  rw [earliest.sentence_iff, and_iff_right_of_imp earliest.trailing,
    code_problem earliest.trailing]
  cases failure.fault with
  | expected what =>
      simp only [reduceCtorEq, iff_false]
      split <;> decide
  | _ => simp

/-- The end is unexpected exactly if something but no sentence was read up to it. -/
theorem code_eq_unexpectedEnd_iff (hasRoom : failure.fault ≠ .tooDeep) :
    failure.problem.code = "E102" ↔ failure.rest = [] ∧ used ≠ [] := by
  have noInput := earliest.noExpression_iff
  rw [code_problem earliest.trailing]
  by_cases atEnd : failure.rest = []
  · rw [atEnd, List.append_nil] at noInput
    rw [if_pos atEnd, eq_true atEnd, true_and, ne_eq, ← noInput]
    cases fault : failure.fault with
    | trailingInput => exact absurd atEnd (earliest.trailing fault)
    | tooDeep => exact absurd fault hasRoom
    | _ => simp
  · rw [if_neg atEnd]
    cases failure.fault <;> simp [atEnd]

/-- A token is unexpected exactly if what was read before it is no sentence. -/
theorem code_eq_unexpectedToken_iff (hasRoom : failure.fault ≠ .tooDeep) :
    failure.problem.code = "E101" ↔
      failure.rest ≠ [] ∧ ¬ Grammar.IsSentence (used.map Token.kind) := by
  rw [earliest.sentence_iff, code_problem earliest.trailing]
  by_cases atEnd : failure.rest = []
  · rw [if_pos atEnd]
    cases failure.fault <;> simp [atEnd]
  · have someInput : failure.fault ≠ .noExpression := by
      intro noExpression
      exact atEnd (List.append_eq_nil_iff.mp (earliest.noExpression_iff.mp noExpression)).2
    rw [if_neg atEnd]
    cases fault : failure.fault with
    | noExpression => exact absurd fault someInput
    | tooDeep => exact absurd fault hasRoom
    | _ => simp [atEnd]

/-- A failure at the earliest place is reported there, with the code for what is wrong. -/
theorem reportsEarliest
    {stream : TokenStream}
    (shape : stream.tokens = used ++ failure.rest)
    (hasRoom : failure.fault ≠ .tooDeep)
    (source : Option (List Char)) :
    stream.ReportsEarliest (failure.diagnostic source stream.finish) used.length := by
  have code : (failure.diagnostic source stream.finish).code = failure.problem.code :=
    rfl
  have length : stream.tokens.length = used.length + failure.rest.length := by
    rw [shape, List.length_append]
  have goesOn : used.length < stream.tokens.length ↔ failure.rest ≠ [] := by
    rw [length, ← List.length_pos_iff]
    exact Nat.lt_add_right_iff_pos
  have ended : used.length = stream.tokens.length ↔ failure.rest = [] := by
    rw [length, ← List.length_eq_zero_iff]
    exact Nat.left_eq_add
  have noInput :
      used.length = 0 ∧ stream.tokens.length = 0 ↔ used = [] ∧ failure.rest = [] := by
    rw [length, Nat.add_eq_zero_iff, List.length_eq_zero_iff, List.length_eq_zero_iff,
      ← and_assoc, and_self]
  have kinds : stream.kinds = used.map Token.kind ++ failure.rest.map Token.kind := by
    rw [TokenStream.kinds, shape, List.map_append]
  have taken : stream.kinds.take used.length = used.map Token.kind := by
    rw [kinds]
    exact List.take_left' (List.length_map Token.kind)
  constructor
  case span =>
    exact TokenStream.span_entries_of_append shape
  case viable =>
    rw [taken]
    exact earliest.viable
  case wrong =>
    intro before
    obtain ⟨token, behind, rest⟩ := List.exists_cons_of_ne_nil (goesOn.mp before)
    have takenMore :
        stream.kinds.take (used.length + 1) = used.map Token.kind ++ [token.kind] := by
      rw [kinds, rest, List.map_cons, ← List.length_map Token.kind,
        List.take_length_add_append]
      rfl
    rw [takenMore]
    exact earliest.wrong token (by rw [rest]; rfl)
  case incomplete =>
    intro atEnd sentence
    have nothingLeft := ended.mp atEnd
    rw [kinds, nothingLeft, List.map_nil, List.append_nil] at sentence
    exact earliest.trailing (earliest.sentence_iff.mp sentence) nothingLeft
  case invalidExpression_iff =>
    rw [code, noInput]
    exact earliest.code_eq_invalidExpression_iff
  case unexpectedEnd_iff =>
    rw [code, ended, List.length_pos_iff]
    exact earliest.code_eq_unexpectedEnd_iff hasRoom
  case trailingInput_iff =>
    rw [code, goesOn, taken]
    exact earliest.code_eq_trailingInput_iff
  case unexpectedToken_iff =>
    rw [code, goesOn, taken]
    exact earliest.code_eq_unexpectedToken_iff hasRoom

end ParseFailure.IsEarliest

/--
Whenever a stream is refused for something else than too deep a nesting, the
diagnostic stands at an entry up to which the stream can still become an
expression and beyond which it cannot. Its code tells an empty input from an
input that ends too early, a token behind a whole expression and any other
token that does not fit.
-/
theorem TokenStream.reportsEarliest_of_parse
    {stream : TokenStream}
    {source : Option (List Char)}
    {diagnostic : Diagnostic}
    (fails : stream.parse source = .error diagnostic)
    (hasRoom : diagnostic.code ≠ "E105") :
    ∃ place, stream.ReportsEarliest diagnostic place := by
  unfold TokenStream.parse at fails
  split at fails
  · cases fails
  · next failure read =>
      cases fails
      have roomLeft : failure.fault ≠ .tooDeep := by
        intro tooDeep
        apply hasRoom
        obtain ⟨_, rest⟩ := failure
        cases tooDeep
        rfl
      obtain ⟨used, shape, earliest⟩ := Expression.isEarliest_of_ofTokens read roomLeft
      exact ⟨used.length, earliest.reportsEarliest shape roomLeft source⟩

/-- A second argument without a comma: the token that starts it is the wrong one. -/
theorem TokenStream.reportsEarliest_missingComma :
    let stream := (Lexed.ofText "f(a b)".toList).stream
    ∃ diagnostic place,
      stream.parse none = .error diagnostic ∧
        diagnostic.code = "E101" ∧
        stream.ReportsEarliest diagnostic place := by
  intro stream
  have code :
      (match stream.parse none with
        | .error diagnostic => diagnostic.code
        | .ok _ => "") =
        "E101" := by
    decide +kernel
  clear_value stream
  cases fails : stream.parse none with
  | ok expression =>
      rw [fails] at code
      simp at code
  | error diagnostic =>
      have isUnexpected : diagnostic.code = "E101" := by
        rwa [fails] at code
      obtain ⟨place, reports⟩ :=
        TokenStream.reportsEarliest_of_parse fails (by rw [isUnexpected]; decide)
      exact ⟨diagnostic, place, rfl, isUnexpected, reports⟩

end PlanarExpr
