import PlanarExpr.Proofs.AskedRanges

namespace PlanarExpr

/-!
# Where a dotted name is resolved

A text that is a dotted name is resolved at the first of its names with which
a value is known: the single name if it is a constant or the host answers for
it, and a longer beginning if the host answers for it or it is a constant. The
names behind that one are read as fields of the value. If no value is known
with any of the names, the whole text waits.
-/

open Source

/-! ## Names and what is known with them -/

/-- One of the names in a dotted name, with the offsets of its two ends. -/
structure Segment where
  name : String
  start : Int
  stop : Int
deriving DecidableEq

/-- The segment of a name with its span. -/
def Segment.ofSpan
    (span : Span)
    (name : String) :
    Segment :=
  { name := name, start := span.start.offset, stop := span.stop.offset }

/-- The segment that a token makes if it is a name. -/
def Token.segment? (token : Token) : Option Segment :=
  token.name?.map (Segment.ofSpan token.span)

/-- The names of a text, from left to right. -/
def segments (text : List Char) : List Segment :=
  (Lexed.ofText text).stream.tokens.filterMap Token.segment?

/-- Names joined by points. -/
def dottedName (names : List Segment) : String :=
  String.intercalate "." (names.map Segment.name)

/--
The value that is known with a name behind other names. A constant goes before
the answer of the host for a single name, and behind it for a longer one.
-/
def knownValue?
    (answer? : Int → Option Value)
    (front : List Segment)
    (last : Segment) :
    Option Value :=
  match front with
  | [] => (Registry.constant? last.name).or (answer? last.stop)
  | _ :: _ => (answer? last.stop).or (Registry.constant? (dottedName (front ++ [last])))

/-- No value is known with any of some names behind other names. -/
def Unknown
    (answer? : Int → Option Value)
    (front names : List Segment) :
    Prop :=
  ∀ earlier name later,
    names = earlier ++ name :: later → knownValue? answer? (front ++ earlier) name = none

/-- If nothing is known with some names, nothing is known with the first or behind it. -/
theorem Unknown.split
    {answer? : Int → Option Value}
    {front names : List Segment}
    {next : Segment}
    (unknown : Unknown answer? front (next :: names)) :
    knownValue? answer? front next = none ∧ Unknown answer? (front ++ [next]) names := by
  constructor
  · have nextUnknown := unknown [] next names rfl
    rwa [List.append_nil] at nextUnknown
  · rintro earlier name later rfl
    have nameUnknown := unknown (next :: earlier) name later rfl
    rwa [List.append_cons] at nameUnknown

/-- The first name with which a value is known, the names in front of it and those behind it. -/
structure ResolvesAt
    (answer? : Int → Option Value)
    (names front : List Segment)
    (last : Segment)
    (rest : List Segment)
    (value : Value) :
    Prop where
  shape : names = front ++ last :: rest
  unknown : Unknown answer? [] front
  known : knownValue? answer? front last = some value

/-- Nothing is known with some names if nothing is known with all but the last, and with that. -/
theorem Unknown.concat
    {answer? : Int → Option Value}
    {names : List Segment}
    {last : Segment}
    (unknown : Unknown answer? [] names)
    (lastUnknown : knownValue? answer? names last = none) :
    Unknown answer? [] (names ++ [last]) := by
  intro earlier name later shape
  rcases List.eq_nil_or_concat later with rfl | ⟨middle, final, rfl⟩
  · obtain ⟨rfl, isLast⟩ := List.append_inj' shape rfl
    cases isLast
    exact lastUnknown
  · rw [List.concat_eq_append, ← List.cons_append, ← List.append_assoc] at shape
    obtain ⟨rfl, -⟩ := List.append_inj' shape rfl
    exact unknown earlier name middle rfl

/-- A value is known with some of the names first, or with none of them. -/
theorem exists_resolvesAt_or_unknown
    (answer? : Int → Option Value)
    (names : List Segment) :
    (∃ front last rest value, ResolvesAt answer? names front last rest value) ∨
      Unknown answer? [] names := by
  have further :
      ∀ behind front, Unknown answer? [] front →
        (∃ earlier last rest value,
          ResolvesAt answer? (front ++ behind) earlier last rest value) ∨
          Unknown answer? [] (front ++ behind) := by
    intro behind
    induction behind with
    | nil =>
        intro front unknown
        rw [List.append_nil]
        exact .inr unknown
    | cons next rest inductionHypothesis =>
        intro front unknown
        cases known : knownValue? answer? front next with
        | some value => exact .inl ⟨front, next, rest, value, rfl, unknown, known⟩
        | none =>
            rw [List.append_cons]
            exact inductionHypothesis (front ++ [next]) (unknown.concat known)
  refine further names [] ?_
  intro earlier name later shape
  cases earlier <;> cases shape

/-- The value that is reached from a value by fields with the given names. -/
def Value.followed (value : Value) : List String → Value
  | [] => value
  | member :: rest => ((value.field? member).getD .unresolved).followed rest

/-- A host that answers without a fault, and never with a waiting name. -/
def Host.AnswersPlainly (host : Host) : Prop :=
  ∀ start stop, ∃ found,
    (host start stop).value = .ok found ∧ ∀ value ∈ found, value.isSettled = true

/-- The value that a host answers with, if any. -/
def Host.answer?
    (host : Host)
    (start stop : Int) :
    Option Value :=
  match (host start stop).value with
  | .ok found => found
  | .error _ => none

namespace Host.AnswersPlainly

variable
  {host : Host}
  (plainly : host.AnswersPlainly)

include plainly

/-- What a plain host answers with is the value of its reply. -/
theorem value_eq (start stop : Int) :
    (host start stop).value = .ok (host.answer? start stop) := by
  obtain ⟨found, isFound, -⟩ := plainly start stop
  rw [answer?, isFound]

/-- A plain host never answers with a waiting name. -/
theorem isSettled
    {start stop : Int}
    {value : Value}
    (answered : host.answer? start stop = some value) :
    value.isSettled = true := by
  obtain ⟨found, isFound, settled⟩ := plainly start stop
  rw [answer?, isFound] at answered
  exact settled value answered

/-- A value that is known with a name is settled, as a constant or as an answer. -/
theorem isSettled_of_known
    {start : Int}
    {front : List Segment}
    {last : Segment}
    {value : Value}
    (known : knownValue? (host.answer? start) front last = some value) :
    value.isSettled = true := by
  cases front with
  | nil =>
      rcases Option.or_eq_some_iff.mp known with constant | ⟨-, answered⟩
      · exact Registry.isSettled_of_constant? constant
      · exact plainly.isSettled answered
  | cons first rest =>
      rcases Option.or_eq_some_iff.mp known with answered | ⟨-, constant⟩
      · exact plainly.isSettled answered
      · exact Registry.isSettled_of_constant? constant

end Host.AnswersPlainly

/-- A dotted name with one name more. -/
theorem dottedName_concat
    {names : List Segment}
    (nonempty : names ≠ [])
    (last : Segment) :
    dottedName (names ++ [last]) = dottedName names ++ "." ++ last.name := by
  have grows :
      ∀ (later : List String) (first : String),
        String.intercalate "." (first :: (later ++ [last.name])) =
          String.intercalate "." (first :: later) ++ "." ++ last.name := by
    intro later
    induction later with
    | nil => exact fun _ => rfl
    | cons name rest inductionHypothesis =>
        exact fun first => inductionHypothesis (first ++ "." ++ name)
  cases names with
  | nil => exact absurd rfl nonempty
  | cons first later =>
      rw [dottedName, List.map_append, List.map_cons]
      exact grows _ _

/-- Fields never hold a waiting name. -/
theorem Value.isSettled_field
    (value : Value)
    (member : String) :
    ((value.field? member).getD .unresolved).isSettled = true := by
  cases found : value.field? member with
  | none => rfl
  | some field => exact Value.isSettled_of_field? found

/-- Following fields from a settled value ends at a settled value. -/
theorem Value.isSettled_followed
    {value : Value}
    (settled : value.isSettled = true)
    (names : List String) :
    (value.followed names).isSettled = true := by
  induction names generalizing value with
  | nil => exact settled
  | cons member rest inductionHypothesis =>
      exact inductionHypothesis (value.isSettled_field member)

/-- A settled value waits for nothing. -/
theorem Value.waitingNames_of_isSettled
    {value : Value}
    (settled : value.isSettled = true) :
    value.waitingNames = [] := by
  cases value with
  | pending waiting => cases settled
  | _ => rfl

/-- A value that is unresolved has no fields to follow. -/
theorem Value.followed_unresolved (names : List String) :
    Value.unresolved.followed names = .unresolved := by
  induction names with
  | nil => rfl
  | cons member rest inductionHypothesis => exact inductionHypothesis

/-- What is not live has no fields. -/
theorem Value.followed_of_not_isLive
    {value : Value}
    (dead : value.isLive = false)
    (member : String)
    (rest : List String) :
    value.followed (member :: rest) = .unresolved := by
  have noField : value.field? member = none := by
    cases value <;> first | rfl | cases dead
  rw [followed, noField, Option.getD_none, followed_unresolved]

/-! ## Steps with a known result -/

/-- A step gives a value, asks about some ranges and notes nothing. -/
def Evaluation.Gives
    (value : α)
    (asked : List (Int × Int))
    (step : Evaluation α) :
    Prop :=
  ∀ session, ∃ later,
    step session = (.ok value, later) ∧
      later.queries = session.queries ++ asked ∧
      later.unresolvedNames = session.unresolvedNames

namespace Evaluation.Gives

/-- A value that is simply given is given without questions. -/
theorem pure (value : α) : (Pure.pure value : Evaluation α).Gives value [] :=
  fun session => ⟨session, rfl, (List.append_nil _).symm, rfl⟩

/-- What a step asks and then what the next one asks is asked by both together. -/
theorem bind
    {step : Evaluation α}
    {next : α → Evaluation β}
    {found : α}
    {value : β}
    {asked askedLater : List (Int × Int)}
    (first : step.Gives found asked)
    (second : (next found).Gives value askedLater) :
    (step >>= next).Gives value (asked ++ askedLater) := by
  intro session
  obtain ⟨middle, runs, grown, sameNames⟩ := first session
  obtain ⟨later, runsLater, grownLater, sameNamesLater⟩ := second middle
  refine ⟨later, ?_, ?_, sameNamesLater.trans sameNames⟩
  · rw [bind_apply, runs]
    exact runsLater
  · rw [grownLater, grown, List.append_assoc]

/-- A step that asks and then one that does not. -/
theorem bind_silent
    {step : Evaluation α}
    {next : α → Evaluation β}
    {found : α}
    {value : β}
    {asked : List (Int × Int)}
    (first : step.Gives found asked)
    (second : (next found).Gives value []) :
    (step >>= next).Gives value asked := by
  have whole := first.bind second
  rwa [List.append_nil] at whole

end Evaluation.Gives

/-- The segment that a link adds to a name if it is no call. -/
def Link.segment? : Link → Option Segment
  | .field _ member memberSpan => some (.ofSpan memberSpan member)
  | .call _ _ _ _ => none

/-- Links that are members with the given names. -/
def AreMembers
    (chain : List Link)
    (names : List Segment) :
    Prop :=
  chain.map Link.segment? = names.map some

namespace Surroundings

/-- A field is read without questions. -/
theorem fieldValue_gives
    (receiver : Value)
    (member : String) :
    (fieldValue receiver member).Gives ((receiver.field? member).getD .unresolved) [] := by
  unfold fieldValue
  cases receiver.field? member with
  | some value => exact .pure value
  | none =>
      intro session
      exact ⟨_, rfl, (List.append_nil _).symm, rfl⟩

/-- From a settled value, members are fields one after the other. -/
theorem links_gives_of_isSettled
    (surroundings : Surroundings)
    {value : Value}
    {chain : List Link}
    {names : List Segment}
    (settled : value.isSettled = true)
    (members : AreMembers chain names) :
    (surroundings.links value chain).Gives (value.followed (names.map Segment.name)) [] := by
  induction names generalizing value chain with
  | nil =>
      cases List.map_eq_nil_iff.mp members
      rw [links]
      exact .pure value
  | cons next rest inductionHypothesis =>
      obtain ⟨link, behind, rfl, isNext, behindMembers⟩ := List.map_eq_cons_iff.mp members
      cases link with
      | call span member memberSpan items => cases isNext
      | field span member memberSpan =>
          cases isNext
          by_cases live : value.isLive = true
          · rw [links_of_isLive live, liveLink]
            exact (fieldValue_gives value member).bind
              (inductionHypothesis (value.isSettled_field member) behindMembers)
          · cases value with
            | pending waiting => cases settled
            | unresolved =>
                rw [links, List.map_cons, Value.followed_of_not_isLive rfl]
                exact .pure _
            | null =>
                rw [links, List.map_cons, Value.followed_of_not_isLive rfl]
                exact .pure _
            | _ => exact absurd rfl live

section Plainly

variable
  {host : Host}
  (plainly : host.AnswersPlainly)
  (source : List Char)

include plainly

/-- A question is asked once, and gives what the host answers. -/
theorem ask_gives (start stop : Int) :
    (({ host := some host, source := source } : Surroundings).ask start stop).Gives
      (host.answer? start stop) [(start, stop)] := by
  intro session
  obtain ⟨records, asked⟩ := ask_apply host source start stop session
  rw [plainly.value_eq] at asked
  exact ⟨_, asked, rfl, rfl⟩

/-- A single name comes to the value that is known with it, or waits. -/
theorem nameValue_gives
    (name : String)
    (span : Span) :
    (({ host := some host, source := source } : Surroundings).nameValue name span).Gives
      ((knownValue? (host.answer? span.start.offset) [] (.ofSpan span name)).getD
        (.pending { name := name, start := span.start.offset }))
      (if (Registry.constant? name).isSome then [] else
        [((span.start.offset : Int), (span.stop.offset : Int))]) := by
  simp only [nameValue, knownValue?, Segment.ofSpan]
  cases Registry.constant? name with
  | some value => exact .pure value
  | none =>
      refine (ask_gives plainly source _ _).bind_silent ?_
      rw [Option.none_or]
      cases host.answer? span.start.offset span.stop.offset with
      | none => exact .pure _
      | some value => exact .pure value

/-- A waiting name comes to the value that is known with one name more, or waits on. -/
theorem waitingLink_gives
    (start : Int)
    {front : List Segment}
    (nonempty : front ≠ [])
    {link : Link}
    {next : Segment}
    (isNext : link.segment? = some next) :
    (({ host := some host, source := source } : Surroundings).waitingLink
        { name := dottedName front, start := start } link).Gives
      ((knownValue? (host.answer? start) front next).getD
        (.pending { name := dottedName (front ++ [next]), start := start }))
      [(start, next.stop)] := by
  cases link with
  | call span member memberSpan items => cases isNext
  | field span member memberSpan =>
      cases isNext
      cases front with
      | nil => exact absurd rfl nonempty
      | cons first later =>
          simp only [waitingLink, qualifiedValue, PendingName.extend, knownValue?, Segment.ofSpan]
          rw [dottedName_concat nonempty]
          refine (ask_gives plainly source _ _).bind_silent ?_
          cases host.answer? start memberSpan.stop.offset with
          | some value => exact .pure value
          | none =>
              rw [Option.none_or]
              cases Registry.constant? (dottedName (first :: later) ++ "." ++ member) with
              | some value => exact .pure value
              | none => exact .pure _

/-- A waiting name goes on through names with which nothing is known. -/
theorem links_gives_of_unknown
    {start : Int}
    {front names : List Segment}
    (nonempty : front ≠ [])
    {chain behind : List Link}
    (members : AreMembers chain names)
    (unknown : Unknown (host.answer? start) front names)
    {value : Value}
    {asked : List (Int × Int)}
    (gives :
      (({ host := some host, source := source } : Surroundings).links
          (.pending { name := dottedName (front ++ names), start := start }) behind).Gives
        value asked) :
    (({ host := some host, source := source } : Surroundings).links
        (.pending { name := dottedName front, start := start }) (chain ++ behind)).Gives
      value (names.map (fun name => (start, name.stop)) ++ asked) := by
  induction names generalizing front chain with
  | nil =>
      cases List.map_eq_nil_iff.mp members
      rwa [List.append_nil] at gives
  | cons next rest inductionHypothesis =>
      obtain ⟨link, later, rfl, isNext, laterMembers⟩ := List.map_eq_cons_iff.mp members
      obtain ⟨nextUnknown, restUnknown⟩ := unknown.split
      have waits := waitingLink_gives plainly source start nonempty isNext
      rw [nextUnknown, Option.getD_none] at waits
      rw [List.append_cons] at gives
      rw [List.cons_append, links]
      exact waits.bind
        (inductionHypothesis (List.append_ne_nil_of_right_ne_nil _ (List.cons_ne_nil _ _))
          laterMembers restUnknown gives)

/-- A waiting name comes to a value with the next name, and then to the fields of that. -/
theorem links_gives_of_known
    {start : Int}
    {front names : List Segment}
    (nonempty : front ≠ [])
    {last : Segment}
    {link : Link}
    (isLast : link.segment? = some last)
    {value : Value}
    (known : knownValue? (host.answer? start) front last = some value)
    {chain : List Link}
    (members : AreMembers chain names) :
    (({ host := some host, source := source } : Surroundings).links
        (.pending { name := dottedName front, start := start }) (link :: chain)).Gives
      (value.followed (names.map Segment.name)) [(start, last.stop)] := by
  have comes := waitingLink_gives plainly source start nonempty isLast
  rw [known, Option.getD_some] at comes
  rw [links]
  exact comes.bind_silent
    (links_gives_of_isSettled _ (plainly.isSettled_of_known known) members)

variable
  {name : String}
  {span : Span}
  {chain : List Link}
  {later : List Segment}
  (members : AreMembers chain later)

include members

/--
The chain of a name comes to the value that is known first, with the later
names as fields, and asks about all beginnings up to that one. A constant is
not asked about.
-/
theorem name_gives_of_resolvesAt
    {front rest : List Segment}
    {last : Segment}
    {value : Value}
    (resolves :
      ResolvesAt (host.answer? span.start.offset) (.ofSpan span name :: later) front last rest
        value) :
    (({ host := some host, source := source } : Surroundings).nameValue name span >>=
        fun value =>
          ({ host := some host, source := source } : Surroundings).links value chain).Gives
      (value.followed (rest.map Segment.name))
      (if (Registry.constant? name).isSome then [] else
        (front ++ [last]).map fun name => ((span.start.offset : Int), name.stop)) := by
  have starts := nameValue_gives plainly source name span
  obtain ⟨shape, unknown, known⟩ := resolves
  cases front with
  | nil =>
      obtain ⟨rfl, rfl⟩ := List.cons_eq_cons.mp shape
      rw [known, Option.getD_some] at starts
      exact starts.bind_silent
        (links_gives_of_isSettled _ (plainly.isSettled_of_known known) members)
  | cons first more =>
      obtain ⟨rfl, rfl⟩ := List.cons_eq_cons.mp shape
      obtain ⟨firstUnknown, moreUnknown⟩ := unknown.split
      obtain ⟨chainMore, chainLast, rfl, moreMembers, lastMembers⟩ :=
        List.map_eq_append_iff.mp (members.trans List.map_append)
      obtain ⟨link, chainRest, rfl, isLast, restMembers⟩ :=
        List.map_eq_cons_iff.mp lastMembers
      have noConstant : Registry.constant? name = none :=
        (Option.or_eq_none_iff.mp firstUnknown).1
      rw [firstUnknown, noConstant, Option.getD_none] at starts
      rw [noConstant, List.map_append, List.map_cons]
      exact starts.bind
        (links_gives_of_unknown plainly source (List.cons_ne_nil (Segment.ofSpan span name) [])
          moreMembers moreUnknown
          (links_gives_of_known plainly source (List.cons_ne_nil _ more) isLast known
            restMembers))

/-- The chain of a name waits with all names, and asks about all beginnings, if none is known. -/
theorem name_gives_of_unknown
    (unknown :
      Unknown (host.answer? span.start.offset) [] (.ofSpan span name :: later)) :
    (({ host := some host, source := source } : Surroundings).nameValue name span >>=
        fun value =>
          ({ host := some host, source := source } : Surroundings).links value chain).Gives
      (.pending
        { name := dottedName (.ofSpan span name :: later), start := span.start.offset })
      ((Segment.ofSpan span name :: later).map fun name =>
        ((span.start.offset : Int), name.stop)) := by
  have starts := nameValue_gives plainly source name span
  obtain ⟨firstUnknown, laterUnknown⟩ := unknown.split
  have noConstant : Registry.constant? name = none :=
    (Option.or_eq_none_iff.mp firstUnknown).1
  rw [firstUnknown, noConstant, Option.getD_none] at starts
  have ends :
      (({ host := some host, source := source } : Surroundings).links
          (.pending
            { name := dottedName ([.ofSpan span name] ++ later), start := span.start.offset })
          []).Gives
        (.pending
          { name := dottedName ([.ofSpan span name] ++ later), start := span.start.offset })
        [] := by
    rw [links]
    exact .pure _
  have waits :=
    links_gives_of_unknown plainly source (List.cons_ne_nil (Segment.ofSpan span name) [])
      members laterUnknown ends
  rw [List.append_nil, List.append_nil] at waits
  exact starts.bind waits

end Plainly

end Surroundings

/-! ## Texts -/

/-- Tokens of the later names of a dotted name write members. -/
theorem exists_members_of_map_kind
    {tokens : List Token}
    {names : List String}
    (kinds : tokens.map Token.kind = laterSegmentKinds names) :
    ∃ chain,
      Joined Link.Written tokens chain ∧
        linkNesting chain = 0 ∧
        AreMembers chain (tokens.filterMap Token.segment?) ∧
        (tokens.filterMap Token.segment?).map Segment.name = names := by
  induction names generalizing tokens with
  | nil =>
      cases List.map_eq_nil_iff.mp kinds
      exact ⟨[], .nil, rfl, rfl, rfl⟩
  | cons name rest inductionHypothesis =>
      obtain ⟨dot, afterDot, rfl, points, afterKinds⟩ := List.map_eq_cons_iff.mp kinds
      obtain ⟨token, behind, rfl, named, restKinds⟩ := List.map_eq_cons_iff.mp afterKinds
      obtain ⟨chain, written, flat, members, sameNames⟩ := inductionHypothesis restKinds
      have noSegment : dot.segment? = none := by
        rw [Token.segment?, Token.name?, points]
        rfl
      have isSegment : token.segment? = some (.ofSpan token.span name) := by
        rw [Token.segment?, Token.name?, named]
        rfl
      rw [List.filterMap_cons_none noSegment, List.filterMap_cons_some isSegment]
      have linkWritten :
          Link.Written [dot, token] (.field (dot.span.through token.span) name token.span) :=
        .field points named
      refine ⟨_, .cons linkWritten written, ?_, ?_, ?_⟩
      · rw [linkNesting, flat]
        rfl
      · exact List.cons_eq_cons.mpr ⟨rfl, members⟩
      · exact List.cons_eq_cons.mpr ⟨rfl, sameNames⟩

/-- The expression that is nothing but a primary. -/
def Expression.ofPrimary (operand : Primary) : Expression :=
  { root := (Unary.primary operand).alone.alone }

/-- An expression that is nothing but a primary is nested one level deeper than it. -/
theorem Expression.nesting_ofPrimary (operand : Primary) :
    (Expression.ofPrimary operand).nesting = operand.nesting + 1 := by
  have isAlone : (Node.primary operand).alone? = some (Expression.ofPrimary operand).root := rfl
  exact Node.nesting_alone isAlone

/-- A text that spells a dotted name reads as the chain of the first name. -/
theorem SpellsName.exists_readsAs
    {text : List Char}
    {path : TypePath}
    (spells : SpellsName text path) :
    ∃ (outer span : Span) (chain : List Link) (later : List Segment),
      ReadsAs text (.ofPrimary (.mk outer (.name span path.first) chain)) ∧
        segments text = .ofSpan span path.first :: later ∧
        AreMembers chain later ∧
        later.map Segment.name = path.later := by
  obtain ⟨clean, kinds⟩ := spells
  obtain ⟨token, behind, shape, named, laterKinds⟩ := List.map_eq_cons_iff.mp kinds
  obtain ⟨chain, chainWritten, flat, members, sameNames⟩ :=
    exists_members_of_map_kind laterKinds
  have isSegment : token.segment? = some (.ofSpan token.span path.first) := by
    rw [Token.segment?, Token.name?, named]
    rfl
  have primaryWritten := Primary.Written.mk (Atom.Written.name named) chainWritten
  have written := (Unary.Written.primary primaryWritten).alone.alone
  refine
    ⟨spanThrough token.span Link.span chain, token.span, chain, _, ⟨clean, ?_⟩, ?_, members,
      sameNames⟩
  · refine TokenStream.parse_eq_ok_iff.mpr ⟨?_, ?_⟩
    · rw [shape]
      exact written
    · rw [Expression.nesting_ofPrimary, Primary.nesting, Atom.nesting, flat]
      decide
  · rw [segments, shape, List.filterMap_cons_some isSegment]

/-- An expression that is nothing but a primary comes to what the primary comes to. -/
theorem Surroundings.addition_ofPrimary
    (surroundings : Surroundings)
    (operand : Primary) :
    surroundings.addition (Expression.ofPrimary operand).root =
      surroundings.primary operand := by
  simp only [Expression.ofPrimary, Unary.alone, Multiplication.alone, addition,
    multiplication, unary, laterTerms, laterFactors, bind_pure]

/-- A chain that comes to a value notes the name that the value waits with, if it waits. -/
theorem Expression.evaluate_of_gives
    {surroundings : Surroundings}
    {span : Span}
    {name : String}
    {chain : List Link}
    {value : Value}
    {asked : List (Int × Int)}
    (gives :
      (surroundings.nameValue name span >>= fun first => surroundings.links first chain).Gives
        value asked)
    (outer : Span) :
    let report :=
      (Expression.ofPrimary (.mk outer (.name span name) chain)).evaluate surroundings
    report.outcome = .ok (.evaluated value value.waitingNames) ∧ report.queries = asked := by
  obtain ⟨middle, runs, grown, sameNames⟩ := gives .empty
  have comes :
      surroundings.addition (Expression.ofPrimary (.mk outer (.name span name) chain)).root
          .empty =
        Surroundings.noteWaiting value middle := by
    rw [Surroundings.addition_ofPrimary, Surroundings.primary, Surroundings.atom, ← bind_assoc,
      Evaluation.bind_apply, runs]
  intro report
  have outcome :
      report.outcome =
        (Surroundings.noteWaiting value middle).1.map fun found =>
          .evaluated found (Surroundings.noteWaiting value middle).2.unresolvedNames := by
    rw [Expression.outcome_evaluate, comes]
  have queries : report.queries = (Surroundings.noteWaiting value middle).2.queries := by
    rw [← comes]
    rfl
  rw [outcome, queries]
  obtain ⟨names, earlier, log⟩ := middle
  cases sameNames
  cases grown
  cases value <;> exact ⟨rfl, rfl⟩

end PlanarExpr
