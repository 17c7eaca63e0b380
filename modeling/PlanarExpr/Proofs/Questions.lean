import PlanarExpr.Proofs.HostAnswers
import PlanarExpr.Proofs.Mentions
import PlanarExpr.Proofs.Reading
import PlanarExpr.Proofs.TokenOrder

namespace PlanarExpr

/-!
# What an evaluation asks about

An evaluation goes through its tree from left to right and asks its host only
at mentions. So the ranges that it asks about end where mentions end, each at
a mention of its own, in the order of the tree.
-/

/-- The offsets at which mentions end. -/
def mentionStops (mentions : List Mention) : List Int :=
  mentions.map fun mention => (mention.span.stop.offset : Int)

/-- Mentions in two parts end where those of the parts end. -/
theorem mentionStops_append (first second : List Mention) :
    mentionStops (first ++ second) = mentionStops first ++ mentionStops second :=
  List.map_append

/-- A step asks only about ranges that end at mentions, each at a later one. -/
def Evaluation.AsksAt
    (mentions : List Mention)
    (step : Evaluation α) :
    Prop :=
  ∀ session, ∃ asked,
    (step session).2.queries = session.queries ++ asked ∧
      (asked.map Prod.snd).Sublist (mentionStops mentions)

namespace Evaluation.AsksAt

variable {mentions : List Mention}

/-- A step that asks nothing asks at any mentions. -/
theorem of_silent
    {step : Evaluation α}
    (silent : ∀ session, (step session).2.queries = session.queries) :
    step.AsksAt mentions := by
  intro session
  refine ⟨[], ?_, List.nil_sublist _⟩
  rw [silent, List.append_nil]

/-- What is simply given asks nothing. -/
theorem pure (result : α) : (Pure.pure result : Evaluation α).AsksAt mentions :=
  of_silent fun _ => rfl

/-- Two steps ask at the mentions of the one and then at those of the other. -/
theorem bind
    {later : List Mention}
    {step : Evaluation α}
    {next : α → Evaluation β}
    (first : step.AsksAt mentions)
    (second : ∀ result, (next result).AsksAt later) :
    (step >>= next).AsksAt (mentions ++ later) := by
  intro session
  obtain ⟨asked, grown, ordered⟩ := first session
  rw [bind_apply, mentionStops_append]
  rcases runs : step session with ⟨fault | result, middle⟩
  · rw [runs] at grown
    exact ⟨asked, grown, ordered.trans (List.sublist_append_left _ _)⟩
  · rw [runs] at grown
    obtain ⟨askedLater, grownLater, orderedLater⟩ := second result middle
    refine ⟨asked ++ askedLater, ?_, ?_⟩
    · rw [grownLater, grown, List.append_assoc]
    · rw [List.map_append]
      exact ordered.append orderedLater

/-- A step that asks and then one that does not. -/
theorem bind_silent
    {step : Evaluation α}
    {next : α → Evaluation β}
    (first : step.AsksAt mentions)
    (second : ∀ result, (next result).AsksAt []) :
    (step >>= next).AsksAt mentions := by
  have whole := first.bind second
  rwa [List.append_nil] at whole

/-- Asking about a range that ends at a mention. -/
theorem ask
    (surroundings : Surroundings)
    (start : Int)
    (mention : Mention) :
    (surroundings.ask start mention.span.stop.offset).AsksAt [mention] := by
  obtain ⟨answering, source⟩ := surroundings
  cases answering with
  | none =>
      exact of_silent fun _ => rfl
  | some host =>
      intro session
      obtain ⟨records, asked⟩ :=
        Surroundings.ask_apply host source start mention.span.stop.offset session
      refine ⟨[(start, mention.span.stop.offset)], ?_, List.Sublist.refl _⟩
      rw [asked]
      rfl

end Evaluation.AsksAt

/-! ## Steps that ask nothing -/

/-- A guarded call asks nothing. -/
theorem guarded_asksAt
    (mentions : List Mention)
    (what : String)
    (call : Calculation (Option Value)) :
    (guarded what call).AsksAt mentions := by
  refine .of_silent fun session => ?_
  obtain ⟨log, fault | none | value⟩ := call <;> rfl

theorem callWith_asksAt
    (mentions : List Mention)
    (arguments : Option (List Value))
    (name : String)
    (call : List Value → Calculation (Option Value)) :
    (callWith arguments name call).AsksAt mentions := by
  cases arguments with
  | none => exact .pure _
  | some values => exact guarded_asksAt _ _ _

namespace Surroundings

theorem fieldValue_asksAt
    (mentions : List Mention)
    (receiver : Value)
    (member : String) :
    (fieldValue receiver member).AsksAt mentions := by
  refine .of_silent fun session => ?_
  unfold fieldValue
  cases receiver.field? member <;> rfl

/-- Noting a name that waits asks nothing. -/
theorem noteWaiting_asksAt
    (mentions : List Mention)
    (value : Value) :
    (noteWaiting value).AsksAt mentions := by
  refine .of_silent fun session => ?_
  cases value with
  | pending waiting =>
      change (session.noteUnresolved waiting.name).queries = session.queries
      unfold Session.noteUnresolved
      split <;> rfl
  | _ => rfl

/-! ## Trees -/

variable (surroundings : Surroundings)

/-- A name alone asks about a range that ends where it ends. -/
theorem nameValue_asksAt
    (name : String)
    (span : Source.Span) :
    (surroundings.nameValue name span).AsksAt
      [{ name := name, span := span, isMember := false }] := by
  unfold nameValue
  cases Registry.constant? name with
  | some value => exact .pure value
  | none =>
      refine .bind_silent (.ask surroundings _ { name := name, span := span, isMember := false }) ?_
      rintro (none | value)
      · exact .pure _
      · exact .pure value

/-- A longer name asks about a range that ends where its last member ends. -/
theorem qualifiedValue_asksAt
    (qualified : PendingName)
    (member : String)
    (memberSpan : Source.Span) :
    (surroundings.qualifiedValue qualified memberSpan).AsksAt
      [{ name := member, span := memberSpan, isMember := true }] := by
  unfold qualifiedValue
  refine
    .bind_silent (.ask surroundings _ { name := member, span := memberSpan, isMember := true }) ?_
  rintro (none | value)
  · cases Registry.constant? qualified.name with
    | none => exact .pure _
    | some value => exact .pure value
  · exact .pure value

mutual

/-- The evaluation of an addition asks at its mentions. -/
theorem addition_asksAt :
    (tree : Addition) → (surroundings.addition tree).AsksAt tree.mentions
  | .mk _ first later => by
      rw [addition, Addition.mentions]
      exact (multiplication_asksAt first).bind fun value => laterTerms_asksAt value later

/-- Later terms ask at their mentions. -/
theorem laterTerms_asksAt
    (left : Value) :
    (later : List (Sign × Multiplication)) →
    (surroundings.laterTerms left later).AsksAt (laterTermMentions later)
  | [] => by
      rw [laterTerms]
      exact .pure left
  | (sign, term) :: rest => by
      rw [laterTerms, laterTermMentions]
      refine (multiplication_asksAt term).bind fun right => ?_
      split
      · exact laterTerms_asksAt _ rest
      · exact .pure _

theorem multiplication_asksAt :
    (tree : Multiplication) → (surroundings.multiplication tree).AsksAt tree.mentions
  | .mk _ first later => by
      rw [multiplication, Multiplication.mentions]
      exact (unary_asksAt first).bind fun value => laterFactors_asksAt value later

theorem laterFactors_asksAt
    (left : Value) :
    (later : List (Scaling × Unary)) →
    (surroundings.laterFactors left later).AsksAt (laterFactorMentions later)
  | [] => by
      rw [laterFactors]
      exact .pure left
  | (scaling, factor) :: rest => by
      rw [laterFactors, laterFactorMentions]
      refine (unary_asksAt factor).bind fun right => ?_
      split
      · exact laterFactors_asksAt _ rest
      · exact .pure _

theorem unary_asksAt :
    (tree : Unary) → (surroundings.unary tree).AsksAt tree.mentions
  | .signed _ sign operand => by
      rw [unary, Unary.mentions]
      refine (unary_asksAt operand).bind_silent fun value => ?_
      split
      · exact .pure _
      · exact .pure _
  | .primary operand => by
      rw [unary, Unary.mentions]
      exact primary_asksAt operand

theorem primary_asksAt :
    (tree : Primary) → (surroundings.primary tree).AsksAt tree.mentions
  | .mk _ start chain => by
      rw [primary, Primary.mentions]
      refine (atom_asksAt start).bind fun first => ?_
      exact (links_asksAt first chain).bind_silent (noteWaiting_asksAt [])

theorem atom_asksAt :
    (tree : Atom) → (surroundings.atom tree).AsksAt tree.mentions
  | .number _ _ => by
      rw [atom]
      exact .pure _
  | .name span name => by
      rw [atom, Atom.mentions]
      exact surroundings.nameValue_asksAt name span
  | .call _ name _ items => by
      rw [atom, Atom.mentions]
      exact (arguments_asksAt items).bind_silent fun values => callWith_asksAt [] values _ _
  | .group _ inner => by
      rw [atom, Atom.mentions]
      exact addition_asksAt inner
  | .construction _ path items => by
      rw [atom, Atom.mentions]
      exact (arguments_asksAt items).bind_silent fun values => callWith_asksAt [] values _ _

/-- The evaluation of arguments asks at their mentions, as far as it gets. -/
theorem arguments_asksAt :
    (items : List Addition) →
    (surroundings.arguments items).AsksAt (argumentMentions items)
  | [] => by
      rw [arguments]
      exact .pure _
  | first :: rest => by
      rw [arguments, argumentMentions]
      refine (addition_asksAt first).bind fun value => ?_
      split
      · exact (arguments_asksAt rest).bind_silent fun later => .pure _
      · exact .pure _

/-- The evaluation of a chain asks at the mentions of its links. -/
theorem links_asksAt
    (value : Value) :
    (chain : List Link) →
    (surroundings.links value chain).AsksAt (linkMentions chain)
  | [] => by
      rw [links]
      exact .pure value
  | first :: rest => by
      rw [linkMentions]
      cases value with
      | unresolved =>
          rw [links]
          exact .pure _
      | null =>
          rw [links]
          exact .pure _
      | pending waiting =>
          rw [links]
          exact (waitingLink_asksAt waiting first).bind fun next => links_asksAt next rest
      | _ =>
          rw [links_of_isLive rfl]
          exact (liveLink_asksAt _ first).bind fun next => links_asksAt next rest

/-- A link behind a waiting name asks at its mentions. -/
theorem waitingLink_asksAt
    (waiting : PendingName) :
    (link : Link) → (surroundings.waitingLink waiting link).AsksAt link.mentions
  | .field _ member memberSpan => by
      rw [waitingLink, Link.mentions]
      exact surroundings.qualifiedValue_asksAt _ member memberSpan
  | .call _ member _ items => by
      rw [waitingLink, Link.mentions]
      exact (arguments_asksAt items).bind_silent fun values => callWith_asksAt [] values _ _

/-- A link behind a live value asks at its mentions. -/
theorem liveLink_asksAt
    (receiver : Value) :
    (link : Link) → (surroundings.liveLink receiver link).AsksAt link.mentions
  | .field _ member _ => by
      rw [liveLink]
      exact fieldValue_asksAt _ receiver member
  | .call _ member _ items => by
      rw [liveLink, Link.mentions]
      exact (arguments_asksAt items).bind_silent fun values => callWith_asksAt [] values _ _

end

end Surroundings

/-! ## Texts -/

/-- The mentions of a written expression are names among its tokens, in their order. -/
theorem Expression.mentionStops_sublist
    {expression : Expression}
    {stream : TokenStream}
    (written : expression.Written stream.tokens) :
    (mentionStops expression.mentions).Sublist
      (stream.names.map fun name => (name.stopOffset : Int)) := by
  let isName (trace : Source.Span × Token.Kind) : Bool :=
    Token.isName { kind := trace.2, lexeme := "", span := trace.1 }
  have allNames :
      (expression.mentions.map Mention.trace).filter isName =
        expression.mentions.map Mention.trace := by
    rw [List.filter_eq_self]
    rintro trace member
    obtain ⟨mention, _, rfl⟩ := List.mem_map.mp member
    rfl
  have sameNames :
      (isName ∘ fun token : Token => (token.span, token.kind)) = Token.isName := by
    funext token
    obtain ⟨kind, lexeme, span⟩ := token
    cases kind <;> rfl
  have ordered :=
    (Expression.fallIntoCells id written).mentions_sublist.filter isName
  rw [allNames, List.filter_map, sameNames] at ordered
  have stops := ordered.map fun trace => (trace.1.stop.offset : Int)
  rwa [List.map_map, List.map_map] at stops

/-- The ranges that the evaluation of a text asks about end where names end, each at a later one. -/
theorem evaluateText_queries_sublist
    (text : List Char)
    (host : Option Host) :
    ((evaluateText text host).queries.map Prod.snd).Sublist
      ((Lexed.ofText text).stream.names.map fun name => (name.stopOffset : Int)) := by
  rcases evaluateText_cases text with
    ⟨diagnostics, message, rejected⟩ | ⟨expression, _, read, evaluated⟩
  · rw [(rejected host).1]
    exact List.nil_sublist _
  · rw [evaluated]
    have written := (TokenStream.parse_eq_ok_iff.mp read).1
    obtain ⟨asked, grown, ordered⟩ :=
      Surroundings.addition_asksAt { host := host, source := text } expression.root .empty
    have queries :
        (expression.evaluate { host := host, source := text }).queries = asked :=
      grown
    rw [queries]
    exact ordered.trans (Expression.mentionStops_sublist written)

/--
Each range that the evaluation of a text asks about ends with one of its names,
and with no other.
-/
theorem exists_name_of_query
    {text : List Char}
    {host : Option Host}
    {question : Int × Int}
    (asked : question ∈ (evaluateText text host).queries) :
    ∃ name ∈ (Lexed.ofText text).stream.names,
      (name.stopOffset : Int) = question.2 ∧
        ∀ other ∈ (Lexed.ofText text).stream.names,
          (other.stopOffset : Int) = question.2 → other = name := by
  have stops := (evaluateText_queries_sublist text host).subset
  obtain ⟨name, member, ends⟩ :=
    List.mem_map.mp (stops (List.mem_map_of_mem asked))
  refine ⟨name, member, ends, ?_⟩
  intro other otherMember otherEnds
  have same : other.stopOffset = name.stopOffset := by
    rw [← ends] at otherEnds
    exact Int.ofNat_inj.mp otherEnds
  exact
    Lexed.eq_of_stopOffset (List.mem_filter.mp otherMember).1
      (List.mem_filter.mp member).1 same

end PlanarExpr
