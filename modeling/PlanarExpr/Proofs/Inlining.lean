import PlanarExpr.Presentation
import PlanarExpr.Proofs.EvaluationFaults
import PlanarExpr.Proofs.HostlessEvaluation
import PlanarExpr.Proofs.InlinedTexts
import PlanarExpr.Proofs.Questions

namespace PlanarExpr

/-!
# Resolving a name is inlining it

A host that answers for one name with the value of an expression does the same
as that expression in parentheses in the place of the name. The host is asked
about names and about dotted names that begin with one; only the former can
be the name it answers for.
-/

/-- A text without stray characters that reads as an expression. -/
structure ReadsAs
    (text : List Char)
    (expression : Expression) :
    Prop where
  clean : (Lexed.ofText text).diagnostics = []
  read : (Lexed.ofText text).stream.parse (some text) = .ok expression

/-- The host that answers where the source is a given name, and nowhere else. -/
def Host.answeringFor
    (name text : List Char)
    (answer : HostObject) :
    Host :=
  fun start stop =>
    .object (if Text.slice text start stop = name then answer else .nothing)

/-! ## Slices -/

/-- A slice inside a text skips what is in front and takes its own length. -/
theorem Text.slice_ofNat
    (text : List Char)
    (start : Nat)
    {stop : Nat}
    (inside : stop ≤ text.length) :
    Text.slice text start stop = (text.drop start).take (stop - start) := by
  have startNonneg : ¬(start : Int) < 0 := by omega
  have stopNonneg : ¬(stop : Int) < 0 := by omega
  simp only [slice, clampOffset, if_neg startNonneg, if_neg stopNonneg, Int.toNat_natCast,
    Nat.min_eq_left inside]
  by_cases reaches : start ≤ text.length
  · rw [Nat.min_eq_left reaches]
  · have beyond : text.length ≤ start := by omega
    rw [Nat.min_eq_right beyond, List.drop_length, List.drop_eq_nil_of_le beyond,
      List.take_nil, List.take_nil]

namespace ReadsAs

variable
  {text : List Char}
  {whole : Expression}
  (reads : ReadsAs text whole)

include reads

/-- The tokens of the text write the expression. -/
theorem written : whole.Written (Lexed.ofText text).stream.tokens :=
  (TokenStream.parse_eq_ok_iff.mp reads.read).1

/-! ## Where mentions stand -/

/-- A mention is made by a token of the text. -/
theorem exists_token_of_mention
    {mention : Mention}
    (member : mention ∈ whole.mentions) :
    ∃ token ∈ (Lexed.ofText text).stream.tokens,
      token.span = mention.span ∧ token.kind = .identifier mention.name := by
  have traces := (Expression.fallIntoCells id reads.written).mentions_sublist.subset
  obtain ⟨token, isToken, isTrace⟩ :=
    List.mem_map.mp (traces (List.mem_map_of_mem member))
  exact ⟨token, isToken, congrArg Prod.fst isTrace, congrArg Prod.snd isTrace⟩

/-- A mention is known by the offset at which it ends. -/
theorem eq_of_mention_stops
    {first second : Mention}
    (firstMember : first ∈ whole.mentions)
    (secondMember : second ∈ whole.mentions)
    (same : first.span.stop.offset = second.span.stop.offset) :
    first = second := by
  have names :
      ((Lexed.ofText text).stream.names.map fun name => (name.stopOffset : Int)).Pairwise
        (· < ·) := by
    refine List.pairwise_map.mpr ((Lexed.names_stops_pairwise text).imp ?_)
    intro first second before
    exact Int.ofNat_lt.mpr before
  have mentions :
      whole.mentions.Pairwise fun first second =>
        (first.span.stop.offset : Int) < second.span.stop.offset :=
    List.pairwise_map.mp (names.sublist (Expression.mentionStops_sublist reads.written))
  rcases eq_or_related_of_pairwise mentions firstMember secondMember with
    equal | before | behind
  · exact equal
  · omega
  · omega

/-- The span of a mention cuts its name out of the text. -/
theorem slice_mention
    {mention : Mention}
    (member : mention ∈ whole.mentions) :
    Text.slice text mention.span.start.offset mention.span.stop.offset =
      mention.name.toList := by
  obtain ⟨token, isToken, sameSpan, named⟩ := reads.exists_token_of_mention member
  obtain ⟨word, behind, isName, shape, stops, -⟩ :=
    Lexed.exists_word_of_name reads.clean isToken named
  have inside := Lexed.stopOffset_le isToken
  simp only [Token.startOffset, Token.stopOffset, sameSpan] at shape stops inside
  rw [Text.slice_ofNat text _ inside, shape, stops, Nat.add_sub_cancel_left,
    List.take_left, isName, Word.toList_text]

/-- A range from a name to the end of a later member is more than a word. -/
theorem slice_to_member_ne
    {free member : Mention}
    (freeMentioned : free ∈ whole.mentions)
    (memberMentioned : member ∈ whole.mentions)
    (differ : free ≠ member)
    (word : Word) :
    Text.slice text free.span.start.offset member.span.stop.offset ≠
      word.characters := by
  obtain ⟨freeToken, isFree, freeSpan, freeNamed⟩ :=
    reads.exists_token_of_mention freeMentioned
  obtain ⟨memberToken, isMember, memberSpan, -⟩ :=
    reads.exists_token_of_mention memberMentioned
  obtain ⟨freeWord, behind, -, shape, stops, outside⟩ :=
    Lexed.exists_word_of_name reads.clean isFree freeNamed
  have inside := Lexed.stopOffset_le isMember
  have nonempty := Lexed.ofNamedText_nonempty isMember
  have stopsDiffer :
      free.span.stop.offset ≠ member.span.stop.offset :=
    fun same => differ (reads.eq_of_mention_stops freeMentioned memberMentioned same)
  have apart :=
    eq_or_related_of_pairwise (Lexed.ofNamedText_pairwise text "" defaultErrorLimit)
      isFree isMember
  simp only [Token.startOffset, Token.stopOffset, freeSpan,
    memberSpan] at shape stops inside nonempty apart
  rw [Text.slice_ofNat text _ inside, shape]
  rcases apart with same | before | after
  · subst same
    exact absurd (congrArg (·.stop.offset) (freeSpan.symm.trans memberSpan)) stopsDiffer
  · -- The character behind the name belongs to the range, and to no word.
    have lengths := congrArg List.length shape
    rw [List.length_drop, List.length_append] at lengths
    obtain ⟨more, size⟩ :
        ∃ more,
          member.span.stop.offset - free.span.start.offset =
            freeWord.characters.length + (more + 1) :=
      ⟨member.span.stop.offset - free.span.stop.offset - 1, by omega⟩
    rw [size]
    exact Word.take_ne_of_outside outside (by omega)
  · have empty : member.span.stop.offset - free.span.start.offset = 0 := by omega
    rw [empty, List.take_zero]
    exact (List.cons_ne_nil _ _).symm

end ReadsAs

/-! ## The answer and the body -/

/-- The result of a live value stands for that value. -/
theorem Value.reply_result_of_isLive
    {value : Value}
    (live : value.isLive = true) :
    (Reply.object value.result).value = .ok (some value) := by
  cases value <;> first | rfl | cases live

section Answering

variable
  {name text : List Char}
  {answer : HostObject}
  {start stop : Int}

/-- No value is found where the source is another name. -/
theorem Surroundings.unanswered_of_slice_ne
    (other : Text.slice text start stop ≠ name) :
    ({ host := some (Host.answeringFor name text answer), source := text } :
      Surroundings).Unanswered start stop := by
  intro session
  obtain ⟨records, asked⟩ :=
    ask_apply (Host.answeringFor name text answer) text start stop session
  rw [asked, Host.answeringFor, if_neg other]
  rfl

/-- The value is found where the source is the name. -/
theorem Surroundings.ask_of_slice_eq
    {value : Value}
    (live : value.isLive = true)
    (named : Text.slice text start stop = name)
    (session : Session) :
    (({ host := some (Host.answeringFor name text value.result), source := text } :
      Surroundings).ask start stop session).1 = .ok (some value) := by
  obtain ⟨records, asked⟩ :=
    ask_apply (Host.answeringFor name text value.result) text start stop session
  rw [asked, Host.answeringFor, if_pos named]
  exact Value.reply_result_of_isLive live

end Answering

/-- A name that is no constant comes to the value that is answered for it. -/
theorem Surroundings.nameValue_of_answered
    {surroundings : Surroundings}
    {name : String}
    (noConstant : Registry.constant? name = none)
    {span : Source.Span}
    {session : Session}
    {value : Value}
    (answered :
      (surroundings.ask span.start.offset span.stop.offset session).1 = .ok (some value)) :
    (surroundings.nameValue name span session).1 = .ok value := by
  unfold nameValue
  rw [noConstant]
  simp only [Evaluation.bind_apply]
  split
  · next stopped =>
      rw [stopped] at answered
      cases answered
  · next found later asked =>
      rw [asked] at answered
      cases answered
      rfl

/-- What an evaluation comes to is what its tree comes to in an empty session. -/
theorem Expression.outcome_evaluate
    (expression : Expression)
    (surroundings : Surroundings) :
    (expression.evaluate surroundings).outcome =
      (surroundings.addition expression.root .empty).1.map fun value =>
        .evaluated value
          (surroundings.addition expression.root .empty).2.unresolvedNames :=
  rfl

/-- A result holds the value that the tree comes to, and succeeds if that is live. -/
theorem Expression.value_of_evaluate_eq_ok
    {expression : Expression}
    {surroundings : Surroundings}
    {result : Result}
    (evaluated : (expression.evaluate surroundings).outcome = .ok result) :
    (surroundings.addition expression.root .empty).1 = .ok result.value ∧
      result.success = result.value.isLive := by
  rw [Expression.outcome_evaluate] at evaluated
  cases reached : (surroundings.addition expression.root .empty).1 with
  | error fault =>
      rw [reached] at evaluated
      cases evaluated
  | ok value =>
      rw [reached] at evaluated
      cases evaluated
      exact ⟨rfl, rfl⟩

/-- Without a host, an evaluation has a result. -/
theorem Expression.exists_result_of_hostless
    (expression : Expression)
    {surroundings : Surroundings}
    (hostless : surroundings.host = none) :
    ∃ result, (expression.evaluate surroundings).outcome = .ok result := by
  cases outcome : (expression.evaluate surroundings).outcome with
  | ok result => exact ⟨result, rfl⟩
  | error fault =>
      obtain ⟨-, question, -, host, isHost, -⟩ :=
        (expression.evaluate_eq_error_iff surroundings fault).mp outcome
      rw [hostless] at isHost
      cases isHost

/-- Like outcomes, of which one has no host to stop it, are results that are alike. -/
theorem Expression.exists_results_of_like
    {expression expression' : Expression}
    {surroundings surroundings' : Surroundings}
    (hostless : surroundings'.host = none)
    (like :
      LikeOutcomes Value.LikeAnywhere
        (surroundings.addition expression.root .empty).1
        (surroundings'.addition expression'.root .empty).1) :
    ∃ result result' : Result,
      (expression.evaluate surroundings).outcome = .ok result ∧
        (expression'.evaluate surroundings').outcome = .ok result' ∧
          result.success = result'.success ∧
            result.value.LikeAnywhere result'.value := by
  obtain ⟨result', evaluated'⟩ := expression'.exists_result_of_hostless hostless
  obtain ⟨reached', succeeds'⟩ := Expression.value_of_evaluate_eq_ok evaluated'
  rw [reached'] at like
  obtain ⟨value, reached, likeValues⟩ := like.exists_eq_ok
  have evaluated := expression.outcome_evaluate surroundings
  rw [reached] at evaluated
  refine ⟨_, result', evaluated, evaluated', ?_, likeValues⟩
  rw [succeeds', likeValues.isLive_eq]
  rfl

/-- An expression with a live value has that value wherever there is no host. -/
theorem Expression.outcome_of_isLive
    {body : Expression}
    {source : List Char}
    {result : Result}
    (evaluated :
      (body.evaluate { host := none, source := source }).outcome = .ok result)
    (live : result.value.isLive = true)
    {surroundings : Surroundings}
    (hostless : surroundings.host = none)
    (session : Session) :
    (surroundings.addition body.root session).1 = .ok result.value := by
  have like :
      LikeOutcomes Value.LikeAnywhere
        (surroundings.addition body.root session).1
        (({ host := none, source := source } : Surroundings).addition body.root .empty).1 :=
    Likeness.outcomes_like_of_withoutSpans_eq hostless rfl rfl session .empty
  rw [(Expression.value_of_evaluate_eq_ok evaluated).1] at like
  obtain ⟨value, reached, likeValues⟩ := like.exists_eq_ok
  rw [reached, likeValues.symm.eq_of_isLive live]

/-! ## Inlining -/

/-- An offset at which a name of the expression starts. -/
def Expression.StartsName
    (whole : Expression)
    (start : Int) :
    Prop :=
  ∃ mention ∈ whole.mentions,
    mention.isMember = false ∧ start = mention.span.start.offset

/--
The mentions of a name come to the value that the host answers with, in the
one tree by asking for it, in the other by evaluating what is inlined. Nobody
answers for any other mention.
-/
theorem ReadsAs.coversAll_inlined
    {text : List Char}
    {whole body : Expression}
    (reads : ReadsAs text whole)
    (name : Word)
    (noConstant : Registry.constant? name.text = none)
    {value : Value}
    (live : value.isLive = true)
    {second : Surroundings}
    (hostless : second.host = none)
    (reached : ∀ session, (second.addition body.root session).1 = .ok value) :
    (Likeness.ofStarts fun start start' => start' = start ∧ whole.StartsName start).CoversAll
      {
        host := some (Host.answeringFor name.characters text value.result)
        source := text
      }
      second id (Atom.inlined name.text body) whole.mentions := by
  rintro ⟨found, span, isMember⟩ mentioned
  have nobody := Surroundings.unanswered_of_hostless hostless
  cases isMember with
  | true =>
      -- A member ends a range that is longer than any word, so nobody answers for it.
      rintro qualified start _ ⟨rfl, free, freeMentioned, isFree, rfl⟩
      refine
        Likeness.qualifiedValue_like_of_unanswered qualified
          ⟨rfl, free, freeMentioned, isFree, rfl⟩ ?_ (nobody _ _)
      refine Surroundings.unanswered_of_slice_ne ?_
      refine reads.slice_to_member_ne freeMentioned mentioned ?_ name
      rintro rfl
      cases isFree
  | false =>
      have cut := reads.slice_mention mentioned
      have starts : whole.StartsName span.start.offset :=
        ⟨_, mentioned, rfl, rfl⟩
      change
        (Likeness.ofStarts _).ValueSteps
          (Surroundings.nameValue _ found span)
          (second.atom (Atom.inlined name.text body span found))
      by_cases isName : found = name.text
      · have cutsName :
            Text.slice text span.start.offset span.stop.offset = name.characters := by
          rw [cut, isName, Word.toList_text]
        rw [isName, Atom.inlined, if_pos rfl, Surroundings.atom]
        -- One side asks the host, the other evaluates what is inlined; both get the value.
        refine Likeness.steps_of_outcomes fun session session' => ?_
        rw [reached session',
          Surroundings.nameValue_of_answered noConstant
            (Surroundings.ask_of_slice_eq live cutsName session)]
        exact .ok (.settled (Value.isSettled_of_isLive live))
      · have cutsOther :
            Text.slice text span.start.offset span.stop.offset ≠ name.characters := by
          rw [cut]
          intro sameCharacters
          exact isName (String.toList_injective (sameCharacters.trans name.toList_text.symm))
        rw [Atom.inlined, if_neg isName, Surroundings.atom]
        exact
          Likeness.nameValue_like_of_unanswered found ⟨rfl, starts⟩
            (Surroundings.unanswered_of_slice_ne cutsOther) (nobody _ _)

/--
Resolving a name is inlining it. Let a text without stray characters be read,
and another one that comes to a live value on its own. With a host that gives
this value for a name which is no constant, the first text comes to the same as
without a host, but with the second text in parentheses wherever it mentions
the name: with the same success, and to the same value or to a waiting name
that is the same.
-/
theorem evaluateText_inlined
    {text bodyText : List Char}
    {whole body : Expression}
    (reads : ReadsAs text whole)
    (bodyReads : ReadsAs bodyText body)
    (name : Word)
    (noConstant : Registry.constant? name.text = none)
    {result : Result}
    (evaluated : (evaluateText bodyText none).outcome = .ok result)
    (live : result.value.isLive = true)
    {grafted : Expression}
    (parses :
      (Lexed.ofText (whole.inlinedText text name.text bodyText)).stream.parse
        (some (whole.inlinedText text name.text bodyText)) = .ok grafted) :
    ∃ resolved inlined : Result,
      (evaluateText text
        (some (Host.answeringFor name.characters text result.value.result))).outcome =
          .ok resolved ∧
        (evaluateText (whole.inlinedText text name.text bodyText) none).outcome =
          .ok inlined ∧
          resolved.success = inlined.success ∧
            resolved.value.LikeAnywhere inlined.value := by
  obtain ⟨clean, kinds⟩ :=
    Expression.inlinedText_tokens reads.clean bodyReads.clean reads.written
      bodyReads.written name.text
  have graftedWritten : grafted.Written _ := (TokenStream.parse_eq_ok_iff.mp parses).1
  have same : grafted.withoutSpans = (whole.inlined name.text body).withoutSpans :=
    Expression.withoutSpans_eq_of_map_kind
      (grafted.root.map_kind_of_written graftedWritten) kinds
  rw [evaluateText_of_read bodyReads.clean bodyReads.read] at evaluated
  rw [evaluateText_of_read reads.clean reads.read, evaluateText_of_read clean parses]
  generalize isUnhosted :
    ({ host := none, source := whole.inlinedText text name.text bodyText } :
      Surroundings) = unhosted
  have hostless : unhosted.host = none := by
    rw [← isUnhosted]
  have reached := Expression.outcome_of_isLive evaluated live hostless
  have inlines :=
    Likeness.addition_like _ _ _ _ _ whole.root
      (reads.coversAll_inlined name noConstant live hostless reached) .empty .empty trivial
  have grafts :=
    Likeness.outcomes_like_of_withoutSpans_eq hostless hostless
      (congrArg Expression.root same.symm) .empty .empty
  exact Expression.exists_results_of_like hostless (inlines.1.anywhere.trans grafts)

/-- An outcome with a result is that result. -/
theorem eq_ok_of_toOption_eq_some
    {outcome : Except ε α}
    {result : α}
    (known : outcome.toOption = some result) :
    outcome = .ok result := by
  cases outcome with
  | error fault => cases known
  | ok found =>
      cases known
      rfl

/-- One translation is the receiver of a call and an argument of a construction. -/
theorem evaluateText_inlined_translation :
    let text := "x.getX() + new Pose2d(x, Rotation2d.kZero).getY()".toList
    let inlinedText :=
      ("(new Translation2d(1, 2)).getX() + " ++
        "new Pose2d((new Translation2d(1, 2)), Rotation2d.kZero).getY()").toList
    let host := Host.answeringFor ['x'] text (.translation { x := 1, y := 2 })
    ∃ resolved inlined : Result,
      (evaluateText text (some host)).outcome = .ok resolved ∧
        (evaluateText inlinedText none).outcome = .ok inlined ∧
          resolved.success = inlined.success ∧
            resolved.value.LikeAnywhere inlined.value := by
  intro text inlinedText host
  let bodyText := "new Translation2d(1, 2)".toList
  let name : Word := ⟨'x', [], rfl, List.forall_mem_nil _⟩
  have inlines :
      ((Lexed.ofText text).stream.parse (some text)).toOption.map
          (fun whole => whole.inlinedText text name.text bodyText) =
        some inlinedText := by
    decide +kernel
  have bodyParses :
      ((Lexed.ofText bodyText).stream.parse (some bodyText)).toOption.isSome = true := by
    decide +kernel
  have parses :
      ((Lexed.ofText inlinedText).stream.parse
        (some inlinedText)).toOption.isSome = true := by
    decide +kernel
  have evaluated :
      (evaluateText bodyText none).outcome.toOption =
        some (.evaluated (.translation { x := 1, y := 2 }) []) := by
    decide +kernel
  have clean : (Lexed.ofText text).diagnostics = [] := by
    decide +kernel
  have bodyClean : (Lexed.ofText bodyText).diagnostics = [] := by
    decide +kernel
  have noConstant : Registry.constant? name.text = none := by
    decide +kernel
  -- From here on, the texts are known by these facts alone.
  clear_value text bodyText inlinedText
  obtain ⟨whole, read, rfl⟩ := Option.map_eq_some_iff.mp inlines
  obtain ⟨body, bodyRead⟩ := Option.isSome_iff_exists.mp bodyParses
  obtain ⟨grafted, graftedRead⟩ := Option.isSome_iff_exists.mp parses
  have agree :=
    evaluateText_inlined
      ⟨clean, eq_ok_of_toOption_eq_some read⟩
      ⟨bodyClean, eq_ok_of_toOption_eq_some bodyRead⟩
      name noConstant (eq_ok_of_toOption_eq_some evaluated) rfl
      (eq_ok_of_toOption_eq_some graftedRead)
  exact agree

end PlanarExpr
