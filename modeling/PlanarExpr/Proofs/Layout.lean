import PlanarExpr.Proofs.MovedReadings
import PlanarExpr.Proofs.SameWording

namespace PlanarExpr

/-!
# Layout does not matter

Two texts in the same words come to the same, as long as their hosts answer
alike for ranges between the same tokens. Only the ranges that the hosts are
asked about and the places that are reported follow the layout.
-/

open Source

/-! ## Places and ranges that correspond -/

/-- Two tokens stand at the same position among the tokens of their texts. -/
def Correspond
    (text text' : List Char)
    (token token' : Token) :
    Prop :=
  ∃ position : Nat,
    (Lexed.ofText text).stream.tokens[position]? = some token ∧
      (Lexed.ofText text').stream.tokens[position]? = some token'

/-- Tokens that correspond are paired with one another. -/
theorem Correspond.mem_zip
    {text text' : List Char}
    {token token' : Token}
    (correspond : Correspond text text' token token') :
    (token, token') ∈
      (Lexed.ofText text).stream.tokens.zip (Lexed.ofText text').stream.tokens := by
  obtain ⟨position, found, found'⟩ := correspond
  exact List.mem_iff_getElem?.mpr
    ⟨position, List.getElem?_zip_eq_some.mpr ⟨found, found'⟩⟩

/-- Two offsets at which tokens start that correspond. -/
def StartsCorrespond
    (text text' : List Char)
    (start start' : Int) :
    Prop :=
  ∃ token token',
    Correspond text text' token token' ∧
      start = token.startOffset ∧ start' = token'.startOffset

/--
Two hosts answer alike for ranges between corresponding tokens, and never with
a waiting name.
-/
structure Host.AgreeAcross
    (text text' : List Char)
    (host host' : Host) :
    Prop where
  same :
    ∀ {first first' last last' : Token},
      Correspond text text' first first' →
      Correspond text text' last last' →
      (host' first'.startOffset last'.stopOffset).answer =
        (host first.startOffset last.stopOffset).answer
  settled :
    ∀ {first first' last last' : Token},
      Correspond text text' first first' →
      Correspond text text' last last' →
      ∀ waiting,
        (host first.startOffset last.stopOffset).answer ≠ some (.value (.pending waiting))

/-- Two texts have hosts that agree, or none of them has a host. -/
def HostsAgree
    (text text' : List Char) :
    Option Host → Option Host → Prop
  | some host, some host' => host.AgreeAcross text text' host'
  | none, none => True
  | _, _ => False

/--
Results that are the same, apart from the places that diagnostics and a waiting
name point at.
-/
structure Result.Alike
    (starts : Int → Int → Prop)
    (result result' : Result) :
    Prop where
  success : result'.success = result.success
  unresolvedNames : result'.unresolvedNames = result.unresolvedNames
  errorMessage : result'.errorMessage = result.errorMessage
  codes : result'.diagnostics.map Diagnostic.code = result.diagnostics.map Diagnostic.code
  value : result.value.Like starts result'.value

/-! ## Answers -/

/-- What a reply stands for is no waiting name, unless the answer is one. -/
theorem Reply.isSettled_of_value
    {reply : Reply}
    (settled : ∀ waiting, reply.answer ≠ some (.value (.pending waiting)))
    {value : Value}
    (found : reply.value = .ok (some value)) :
    value.isSettled = true := by
  obtain ⟨answer, log⟩ := reply
  rcases answer with _ | object
  · cases found
  · cases object with
    | scalar number =>
        simp only [Reply.value, HostObject.toValue] at found
        cases converted : number.toFloat with
        | error fault =>
            rw [converted] at found
            cases found
        | ok x =>
            rw [converted] at found
            cases found
            rfl
    | value inner =>
        cases found
        cases value with
        | pending waiting => exact absurd rfl (settled waiting)
        | _ => rfl
    | _ => cases found <;> rfl

namespace Likeness

/-- Evaluations with the same names without a value, whose waiting names start at related places. -/
def ofNames (starts : Int → Int → Prop) : Likeness where
  sessions session session' := session'.unresolvedNames = session.unresolvedNames
  starts := starts
  addLog _ _ same := same
  noteUnresolved name same := by
    unfold Session.noteUnresolved
    rw [same]
    split
    · exact same
    · rfl

end Likeness

section Hosts

variable
  {text text' : List Char}
  {host host' : Option Host}

/-- Hosts that agree give like answers for ranges between corresponding tokens. -/
theorem HostsAgree.asksAlike
    (agree : HostsAgree text text' host host')
    {first first' last last' : Token}
    (firsts : Correspond text text' first first')
    (lasts : Correspond text text' last last')
    (starts : Int → Int → Prop) :
    (Likeness.ofNames starts).AsksAlike
      (({ host := host, source := text } : Surroundings).ask
        first.startOffset last.stopOffset)
      (({ host := host', source := text' } : Surroundings).ask
        first'.startOffset last'.stopOffset) := by
  cases host with
  | none =>
      cases host' with
      | none => exact .pure ⟨rfl, by simp⟩
      | some host' => exact agree.elim
  | some host =>
      cases host' with
      | none => exact agree.elim
      | some host' =>
          intro session session' same
          obtain ⟨records, asked⟩ :=
            Surroundings.ask_apply host text first.startOffset last.stopOffset session
          obtain ⟨records', asked'⟩ :=
            Surroundings.ask_apply host' text' first'.startOffset last'.stopOffset session'
          have sameValue :
              (host' first'.startOffset last'.stopOffset).value =
                (host first.startOffset last.stopOffset).value := by
            rw [Reply.value, Reply.value, agree.same firsts lasts]
          rw [asked, asked', sameValue]
          refine ⟨?_, same⟩
          cases reached : (host first.startOffset last.stopOffset).value with
          | error fault => exact .error fault
          | ok found =>
              refine .ok ⟨rfl, ?_⟩
              rintro value ⟨⟩
              exact Reply.isSettled_of_value (agree.settled firsts lasts) reached

variable
  {starts stops : Place → Place}
  (moved :
    (Lexed.ofText text').stream.tokens =
      (Lexed.ofText text).stream.tokens.map (Token.moved starts stops))

include moved

/-- A token corresponds to where it is moved. -/
theorem correspond_moved
    {token : Token}
    (member : token ∈ (Lexed.ofText text).stream.tokens) :
    Correspond text text' token (token.moved starts stops) := by
  obtain ⟨position, found⟩ := List.mem_iff_getElem?.mp member
  refine ⟨position, found, ?_⟩
  rw [moved, List.getElem?_map, found]
  rfl

/-- All mentions of a tree come to like values in the moved tree. -/
theorem ReadsAs.coversAll_moved
    {whole : Expression}
    (reads : ReadsAs text whole)
    (agree : HostsAgree text text' host host') :
    (Likeness.ofNames (StartsCorrespond text text')).CoversAll
      { host := host, source := text }
      { host := host', source := text' }
      (Span.moved starts stops) (Atom.movedName starts stops) whole.mentions := by
  rintro ⟨name, span, isMember⟩ mentioned
  obtain ⟨token, isToken, rfl, -⟩ := reads.exists_token_of_mention mentioned
  have correspond := correspond_moved moved isToken
  cases isMember with
  | true =>
      rintro qualified _ _ ⟨first, first', firsts, rfl, rfl⟩
      exact
        Likeness.qualifiedValue_like qualified ⟨first, first', firsts, rfl, rfl⟩
          (agree.asksAlike firsts correspond _)
  | false =>
      change
        (Likeness.ofNames _).ValueSteps (Surroundings.nameValue _ name token.span)
          (Surroundings.atom _ (.name (token.span.moved starts stops) name))
      rw [Surroundings.atom]
      exact
        Likeness.nameValue_like name ⟨_, _, correspond, rfl, rfl⟩
          (agree.asksAlike correspond correspond _)

end Hosts

/-! ## Results -/

/-- Like values with the same names make results that are alike. -/
theorem Result.evaluated_alike
    {starts : Int → Int → Prop}
    {value value' : Value}
    (like : value.Like starts value')
    (names : List String) :
    (Result.evaluated value names).Alike starts (Result.evaluated value' names) where
  success := like.isLive_eq
  unresolvedNames := rfl
  errorMessage := by
    rw [Result.evaluated, Result.evaluated, like.isLive_eq]
  codes := rfl
  value := like

/-- Diagnostics with the same code make results that are alike. -/
theorem Result.rejected_alike
    {starts : Int → Int → Prop}
    {diagnostic diagnostic' : Diagnostic}
    (code : diagnostic'.code = diagnostic.code)
    (message : String) :
    (Result.rejected [diagnostic] message).Alike starts
      (Result.rejected [diagnostic'] message) where
  success := rfl
  unresolvedNames := rfl
  errorMessage := rfl
  codes := by
    simp only [Result.rejected, List.map_cons, List.map_nil, code]
  value := .settled rfl

/-- Like evaluations have like results. -/
theorem Expression.evaluate_alike
    {starts : Int → Int → Prop}
    {expression expression' : Expression}
    {surroundings surroundings' : Surroundings}
    (like :
      (Likeness.ofNames starts).ValueSteps
        (surroundings.addition expression.root)
        (surroundings'.addition expression'.root)) :
    LikeOutcomes (Result.Alike starts)
      (expression.evaluate surroundings).outcome
      (expression'.evaluate surroundings').outcome := by
  obtain ⟨outcomes, names⟩ := like .empty .empty rfl
  rw [Expression.outcome_evaluate, Expression.outcome_evaluate, names]
  generalize (surroundings.addition expression.root .empty).1 = outcome at outcomes ⊢
  generalize (surroundings'.addition expression'.root .empty).1 = outcome' at outcomes ⊢
  cases outcomes with
  | ok like => exact .ok (Result.evaluated_alike like _)
  | error fault => exact .error fault

/-- A clean text that cannot be read has its diagnostic as the result. -/
theorem evaluateText_of_refused
    {text : List Char}
    {diagnostic : Diagnostic}
    (clean : (Lexed.ofText text).diagnostics = [])
    (refused : (Lexed.ofText text).stream.parse (some text) = .error diagnostic)
    (host : Option Host) :
    (evaluateText text host).outcome =
      .ok (.rejected [diagnostic] ("Parser error: " ++ diagnostic.message)) := by
  simp only [evaluateText, clean, refused]
  rfl

/--
Layout does not matter. Let two texts be in the same words, with hosts that
agree across them or without a host. Then both stop with the same fault, or
both have results with the same success, the same names without a value, the
same error message, the same diagnostic codes and the same value; if that is a
waiting name, it starts at corresponding tokens.
-/
theorem evaluateText_alike_of_sameWords
    {text text' : List Char}
    (same : SameWords text text')
    {host host' : Option Host}
    (agree : HostsAgree text text' host host') :
    LikeOutcomes (Result.Alike (StartsCorrespond text text'))
      (evaluateText text host).outcome
      (evaluateText text' host').outcome := by
  obtain ⟨starts, stops, moved⟩ := same.exists_moved
  rcases TokenStream.parse_moved starts stops moved (some text) (some text') with
    ⟨whole, read, read'⟩ | ⟨diagnostic, diagnostic', refused, refused', code, message⟩
  · have covers := ReadsAs.coversAll_moved moved ⟨same.clean, read⟩ agree
    rw [evaluateText_of_read same.clean read, evaluateText_of_read same.clean' read']
    exact Expression.evaluate_alike (Likeness.addition_like _ _ _ _ _ whole.root covers)
  · rw [evaluateText_of_refused same.clean refused,
      evaluateText_of_refused same.clean' refused', message]
    exact .ok (Result.rejected_alike code _)

/-- A sum on one line and on two, with hosts that answer for one of its names. -/
theorem evaluateText_alike_twoLines :
    let text := "x.getX()+y".toList
    let text' := " x . getX( )\n+ y".toList
    let answer := HostObject.translation { x := 1, y := 2 }
    let host := Host.answeringFor ['x'] text answer
    let host' := Host.answeringFor ['x'] text' answer
    SameWords text text' ∧ host.AgreeAcross text text' host' ∧
      LikeOutcomes (Result.Alike (StartsCorrespond text text'))
        (evaluateText text (some host)).outcome
        (evaluateText text' (some host')).outcome := by
  intro text text' answer host host'
  have clean : (Lexed.ofText text).diagnostics = [] := by
    decide +kernel
  have clean' : (Lexed.ofText text').diagnostics = [] := by
    decide +kernel
  have wording :
      (Lexed.ofText text').stream.tokens.map Token.wording =
        (Lexed.ofText text).stream.tokens.map Token.wording := by
    decide +kernel
  have sameCuts :
      ∀ firsts ∈ (Lexed.ofText text).stream.tokens.zip (Lexed.ofText text').stream.tokens,
        ∀ lasts ∈ (Lexed.ofText text).stream.tokens.zip (Lexed.ofText text').stream.tokens,
          Text.slice text' firsts.2.startOffset lasts.2.stopOffset = ['x'] ↔
            Text.slice text firsts.1.startOffset lasts.1.stopOffset = ['x'] := by
    decide +kernel
  have same : SameWords text text' := ⟨clean, clean', wording⟩
  -- From here on, the texts are known by these facts alone.
  clear_value text text'
  have agree : host.AgreeAcross text text' host' := by
    constructor
    case same =>
      intro first first' last last' firsts lasts
      have cuts := sameCuts (first, first') firsts.mem_zip (last, last') lasts.mem_zip
      simp only [host, host', Host.answeringFor, Reply.object, cuts]
    case settled =>
      intro first first' last last' _ _ waiting
      simp only [host, Host.answeringFor, Reply.object, answer]
      split <;> simp
  exact ⟨same, agree, evaluateText_alike_of_sameWords same agree⟩

end PlanarExpr
