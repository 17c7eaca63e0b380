import PlanarExpr.Proofs.ExactSpans
import PlanarExpr.Proofs.WaitingNames

namespace PlanarExpr

/-!
# The ranges that a host is asked about

The ranges follow the names of a text: each ends at a name of its own, in the
order of the text, and starts at a name that stands on its own. So no range is
asked about twice, and a host whose answers change over time is still a
function of the range.

What a range cuts out of the text is a dotted name, unless the name starts in a
group of which the range then holds the closing parenthesis, but not the
opening one.
-/

open Source

/-! ## Dotted names among the tokens -/

/-- Whether a kind is the closing parenthesis. -/
def Token.Kind.isClosing : Token.Kind → Bool
  | .closeParen => true
  | _ => false

/-- The kinds of some tokens, without closing parentheses. -/
def unclosedKinds (tokens : List Token) : List Token.Kind :=
  (tokens.map Token.kind).filter fun kind => !kind.isClosing

/-- Kinds are left out on both sides of a cut. -/
theorem unclosedKinds_append (tokens behind : List Token) :
    unclosedKinds (tokens ++ behind) = unclosedKinds tokens ++ unclosedKinds behind := by
  rw [unclosedKinds, List.map_append, List.filter_append]
  rfl

theorem isClosing_laterSegmentKinds (segments : List String) :
    ∀ kind ∈ laterSegmentKinds segments, kind.isClosing = false := by
  induction segments with
  | nil => exact List.forall_mem_nil _
  | cons segment rest inductionHypothesis =>
      exact List.forall_mem_cons.mpr
        ⟨rfl, List.forall_mem_cons.mpr ⟨rfl, inductionHypothesis⟩⟩

/-- No parenthesis is part of the segments of a name. -/
theorem closeParen_not_mem_laterSegmentKinds (segments : List String) :
    .closeParen ∉ laterSegmentKinds segments := by
  intro member
  cases isClosing_laterSegmentKinds segments _ member

theorem laterSegmentKinds_append (segments rest : List String) :
    laterSegmentKinds (segments ++ rest) =
      laterSegmentKinds segments ++ laterSegmentKinds rest := by
  induction segments with
  | nil => rfl
  | cons segment later inductionHypothesis =>
      rw [List.cons_append, laterSegmentKinds, laterSegmentKinds, inductionHypothesis]
      rfl

/-- Members of a name have no parenthesis among their tokens. -/
theorem unclosedKinds_of_map_kind
    {tokens : List Token}
    {segments : List String}
    (kinds : tokens.map Token.kind = laterSegmentKinds segments) :
    unclosedKinds tokens = laterSegmentKinds segments := by
  rw [unclosedKinds, kinds, List.filter_eq_self]
  intro kind member
  rw [isClosing_laterSegmentKinds segments kind member]
  rfl

/-- Tokens that write a dotted name from a given span on, apart from closing parentheses. -/
structure RunsFrom
    (head : Span)
    (tokens : List Token) :
    Prop where
  first : tokens.head?.map Token.span = some head
  path : ∃ path : TypePath, unclosedKinds tokens = path.kinds

namespace RunsFrom

variable
  {head : Span}
  {tokens : List Token}

/-- A name alone is a run from its own span on. -/
theorem name
    {token : Token}
    {name : String}
    (named : token.kind = .identifier name) :
    RunsFrom token.span [token] where
  first := rfl
  path := by
    refine ⟨{ first := name, later := [] }, ?_⟩
    rw [unclosedKinds, List.map_singleton, named]
    rfl

/-- A run starts at its head, whatever stands behind it. -/
theorem head?_append
    (runs : RunsFrom head tokens)
    (behind : List Token) :
    (tokens ++ behind).head?.map Token.span = some head := by
  obtain ⟨first, isFirst, starts⟩ := Option.map_eq_some_iff.mp runs.first
  obtain ⟨rest, rfl⟩ := List.head?_eq_some_iff.mp isFirst
  exact congrArg some starts

/-- A run goes on with members. -/
theorem members
    (runs : RunsFrom head tokens)
    {behind : List Token}
    {segments : List String}
    (kinds : behind.map Token.kind = laterSegmentKinds segments) :
    RunsFrom head (tokens ++ behind) where
  first := runs.head?_append behind
  path := by
    obtain ⟨path, isPath⟩ := runs.path
    refine ⟨{ path with later := path.later ++ segments }, ?_⟩
    rw [unclosedKinds_append, isPath, unclosedKinds_of_map_kind kinds, TypePath.kinds,
      TypePath.kinds, laterSegmentKinds_append, List.cons_append]

/-- A run goes on with a closing parenthesis. -/
theorem close
    (runs : RunsFrom head tokens)
    {token : Token}
    (closes : token.kind = .closeParen) :
    RunsFrom head (tokens ++ [token]) where
  first := runs.head?_append [token]
  path := by
    obtain ⟨path, isPath⟩ := runs.path
    refine ⟨path, ?_⟩
    rw [unclosedKinds_append, isPath, unclosedKinds, List.map_singleton, closes]
    exact List.append_nil _

end RunsFrom

/-! ## The run of tokens from the head of a part -/

/-- Links that keep a name waiting are members without calls. -/
theorem exists_segments_of_chainHead?
    {head : Span}
    {head? : Option Span}
    {tokens : List Token}
    {chain : List Link}
    (written : Joined Link.Written tokens chain)
    (waits : chainHead? head? chain = some head) :
    ∃ segments, tokens.map Token.kind = laterSegmentKinds segments := by
  induction written with
  | nil => exact ⟨[], rfl⟩
  | @cons used behind link later linkWritten _ inductionHypothesis =>
      cases linkWritten with
      | @field dot token member points named =>
          obtain ⟨segments, kinds⟩ := inductionHypothesis waits
          refine ⟨member :: segments, ?_⟩
          rw [List.map_append, kinds, laterSegmentKinds, ← points, ← named]
          rfl
      | call points named itemsWritten => cases waits

section Runs

variable {head : Span}

mutual

/-- The tokens of an addition that may wait end with those from its head on. -/
theorem Addition.exists_run_of_head? :
    ∀ (tree : Addition) {tokens : List Token},
      tree.Written tokens →
      tree.head? = some head →
      ∃ before run, tokens = before ++ run ∧ RunsFrom head run
  | .mk _ first later, _, .mk firstWritten laterWritten, waits => by
      rw [Addition.head?] at waits
      obtain ⟨rfl, firstWaits⟩ := eq_of_aloneHead?_eq_some waits
      cases laterWritten with
      | nil =>
          rw [List.append_nil]
          exact first.exists_run_of_head? firstWritten firstWaits

theorem Multiplication.exists_run_of_head? :
    ∀ (tree : Multiplication) {tokens : List Token},
      tree.Written tokens →
      tree.head? = some head →
      ∃ before run, tokens = before ++ run ∧ RunsFrom head run
  | .mk _ first later, _, .mk firstWritten laterWritten, waits => by
      rw [Multiplication.head?] at waits
      obtain ⟨rfl, firstWaits⟩ := eq_of_aloneHead?_eq_some waits
      cases laterWritten with
      | nil =>
          rw [List.append_nil]
          exact first.exists_run_of_head? firstWritten firstWaits

theorem Unary.exists_run_of_head? :
    ∀ (tree : Unary) {tokens : List Token},
      tree.Written tokens →
      tree.head? = some head →
      ∃ before run, tokens = before ++ run ∧ RunsFrom head run
  | .signed _ _ _, _, _, waits => by
      rw [Unary.head?] at waits
      cases waits
  | .primary operand, _, .primary operandWritten, waits => by
      rw [Unary.head?] at waits
      exact operand.exists_run_of_head? operandWritten waits

theorem Primary.exists_run_of_head? :
    ∀ (tree : Primary) {tokens : List Token},
      tree.Written tokens →
      tree.head? = some head →
      ∃ before run, tokens = before ++ run ∧ RunsFrom head run
  | .mk _ start chain, _, .mk startWritten chainWritten, waits => by
      rw [Primary.head?] at waits
      obtain ⟨before, run, rfl, runs⟩ :=
        start.exists_run_of_head? startWritten (eq_of_chainHead?_eq_some waits)
      obtain ⟨segments, kinds⟩ := exists_segments_of_chainHead? chainWritten waits
      exact ⟨before, _, List.append_assoc _ _ _, runs.members kinds⟩

theorem Atom.exists_run_of_head? :
    ∀ (tree : Atom) {tokens : List Token},
      tree.Written tokens →
      tree.head? = some head →
      ∃ before run, tokens = before ++ run ∧ RunsFrom head run
  | .name _ _, _, .name found, waits => by
      rw [Atom.head?] at waits
      cases waits
      exact ⟨[], _, rfl, .name found⟩
  | .group _ inner, _, @Atom.Written.group opening _ _ _ _ innerWritten closes, waits => by
      rw [Atom.head?] at waits
      obtain ⟨before, run, rfl, runs⟩ := inner.exists_run_of_head? innerWritten waits
      exact ⟨opening :: before, _, by simp, runs.close closes⟩
  | .number _ _, _, _, waits => by
      rw [Atom.head?] at waits
      cases waits
  | .call _ _ _ _, _, _, waits => by
      rw [Atom.head?] at waits
      cases waits
  | .construction _ _ _, _, _, waits => by
      rw [Atom.head?] at waits
      cases waits

end

end Runs

/-- What a chain asks about ends with one of its members, behind members alone. -/
theorem exists_segments_of_mem_chainQuestions
    {head? : Option Span}
    {tokens : List Token}
    {chain : List Link}
    (written : Joined Link.Written tokens chain)
    {question : Question}
    (asks : question ∈ chainQuestions head? chain) :
    ∃ used behind segments,
      tokens = used ++ behind ∧
        used.map Token.kind = laterSegmentKinds segments ∧
        used.getLast?.map Token.span = some question.last := by
  induction written with
  | nil => cases asks
  | @cons linkTokens behind link later linkWritten _ inductionHypothesis =>
      cases linkWritten with
      | call points named itemsWritten => cases asks
      | @field dot token member points named =>
          rcases List.mem_append.mp asks with here | further
          · obtain ⟨head, -, rfl⟩ := List.mem_map.mp here
            refine ⟨[dot, token], behind, [member], rfl, ?_, rfl⟩
            rw [laterSegmentKinds, ← points, ← named]
            rfl
          · obtain ⟨used, rest, segments, rfl, kinds, lasts⟩ := inductionHypothesis further
            refine ⟨[dot, token] ++ used, rest, member :: segments,
              (List.append_assoc _ _ _).symm, ?_, ?_⟩
            · rw [List.map_append, kinds, laterSegmentKinds, ← points, ← named]
              rfl
            · obtain ⟨last, isLast, _⟩ := Option.map_eq_some_iff.mp lasts
              rw [List.getLast?_append, isLast, Option.some_or, ← isLast]
              exact lasts

/-- Whether a chain of links stands behind a group in parentheses. -/
def Node.startsWithGroup : Node → Bool
  | .primary (.mk _ (.group _ _) _) => true
  | _ => false

/-- The tokens of a question: a dotted name, and closing parentheses if it starts in a group. -/
structure Question.StandsFor
    (question : Question)
    (grouped : Bool)
    (tokens : List Token) :
    Prop where
  covers : (question.head.through question.last).Covers tokens
  path : ∃ path : TypePath, unclosedKinds tokens = path.kinds
  closed : .closeParen ∈ tokens.map Token.kind ↔ grouped = true

namespace Question.StandsFor

/-- A run from the head of a question that goes on with members to its end. -/
theorem of_runsFrom
    {question : Question}
    {grouped : Bool}
    {run used : List Token}
    {segments : List String}
    (runs : RunsFrom question.head run)
    (closed : .closeParen ∈ run.map Token.kind ↔ grouped = true)
    (kinds : used.map Token.kind = laterSegmentKinds segments)
    (lasts : used.getLast?.map Token.span = some question.last) :
    question.StandsFor grouped (run ++ used) where
  covers := by
    constructor
    · have starts := congrArg (Option.map Span.start) (runs.head?_append used)
      rw [Option.map_map] at starts
      exact starts
    · obtain ⟨last, isLast, stops⟩ := Option.map_eq_some_iff.mp lasts
      rw [List.getLast?_append, isLast, Option.some_or]
      exact congrArg (fun span => some span.stop) stops
  path := (runs.members kinds).path
  closed := by
    rw [List.map_append, List.mem_append, kinds, ← closed]
    exact or_iff_left (closeParen_not_mem_laterSegmentKinds segments)

end Question.StandsFor

/-- The tokens of a node hold those of what is asked about at the node. -/
theorem Node.Written.exists_run_of_question
    {tokens : List Token}
    {node : Node}
    (written : node.Written tokens)
    {question : Question}
    (asks : question ∈ node.questions) :
    ∃ before run behind,
      tokens = before ++ run ++ behind ∧
        question.StandsFor node.startsWithGroup run := by
  cases node with
  | atom node =>
      cases written with
      | @name token name found =>
          cases List.mem_singleton.mp asks
          refine ⟨[], [token], [], rfl, .single token, (RunsFrom.name found).path, ?_⟩
          rw [List.map_singleton, found]
          simp [startsWithGroup]
      | _ => cases asks
  | primary node =>
      cases written with
      | @mk startTokens chainTokens start chain startWritten chainWritten =>
          have waits := head?_of_mem_chainQuestions asks
          obtain ⟨used, behind, segments, rfl, kinds, lasts⟩ :=
            exists_segments_of_mem_chainQuestions chainWritten asks
          cases startWritten with
          | @name token name found =>
              rw [Atom.head?] at waits
              obtain ⟨head, last⟩ := question
              cases waits
              refine ⟨[], _, behind, (List.append_assoc _ _ _).symm,
                .of_runsFrom (.name found) ?_ kinds lasts⟩
              rw [List.map_singleton, found]
              simp [startsWithGroup]
          | @group opening close _ inner opens innerWritten closes =>
              -- The name starts inside the group, so its run takes in what closes the group.
              rw [Atom.head?] at waits
              obtain ⟨before, run, rfl, runs⟩ := inner.exists_run_of_head? innerWritten waits
              refine ⟨opening :: before, _, behind, by simp,
                .of_runsFrom (runs.close closes) ?_ kinds lasts⟩
              rw [List.map_append, List.map_singleton, closes]
              simp [startsWithGroup]
          | _ =>
              rw [Atom.head?] at waits
              cases waits
  | _ => cases asks

/-! ## What a range cuts out of a text -/

/-- A text that consists of a dotted name and nothing else. -/
structure SpellsName
    (text : List Char)
    (path : TypePath) :
    Prop where
  clean : (Lexed.ofText text).diagnostics = []
  kinds : (Lexed.ofText text).stream.tokens.map Token.kind = path.kinds

/--
A text that a range cuts out: a dotted name, and exactly if the name starts in
a group also parentheses that close the group.
-/
structure CutsName
    (grouped : Bool)
    (text : List Char) :
    Prop where
  clean : (Lexed.ofText text).diagnostics = []
  path : ∃ path : TypePath, unclosedKinds (Lexed.ofText text).stream.tokens = path.kinds
  alone : (∃ path, SpellsName text path) ↔ grouped = false

/-- Tokens of a dotted name without closing parentheses are a dotted name. -/
theorem unclosedKinds_of_not_mem
    {tokens : List Token}
    (unclosed : .closeParen ∉ tokens.map Token.kind) :
    unclosedKinds tokens = tokens.map Token.kind := by
  rw [unclosedKinds, List.filter_eq_self]
  intro kind member
  cases kind with
  | closeParen => exact absurd member unclosed
  | _ => rfl

/-- A type path is written without parentheses. -/
theorem closeParen_not_mem_kinds (path : TypePath) : .closeParen ∉ path.kinds := by
  intro member
  rcases List.mem_cons.mp member with isFirst | later
  · cases isFirst
  · exact closeParen_not_mem_laterSegmentKinds _ later

/-- The range of a question cuts out the tokens of the question. -/
theorem Question.StandsFor.cutsName
    {text : List Char}
    (clean : (Lexed.ofText text).diagnostics = [])
    {before run behind : List Token}
    (shape : (Lexed.ofText text).stream.tokens = before ++ run ++ behind)
    {question : Question}
    {grouped : Bool}
    (stands : question.StandsFor grouped run) :
    CutsName grouped (Text.slice text question.range.1 question.range.2) := by
  obtain ⟨cutClean, sameTokens⟩ := Lexed.ofText_slice clean shape stands.covers
  have sameKinds :
      (Lexed.ofText (Text.slice text question.range.1 question.range.2)).stream.tokens.map
          Token.kind =
        run.map Token.kind := by
    have kinds := congrArg (List.map Token.kind) sameTokens
    rwa [Token.map_kind_moved, Token.map_kind_moved] at kinds
  constructor
  case clean => exact cutClean
  case path =>
    obtain ⟨path, isPath⟩ := stands.path
    exact ⟨path, (congrArg (List.filter _) sameKinds).trans isPath⟩
  case alone =>
    constructor
    · rintro ⟨path, -, kinds⟩
      rw [sameKinds] at kinds
      rw [← Bool.not_eq_true, ← stands.closed, kinds]
      exact closeParen_not_mem_kinds path
    · rintro rfl
      obtain ⟨path, isPath⟩ := stands.path
      have unclosed : .closeParen ∉ run.map Token.kind := by
        rw [stands.closed]
        exact Bool.false_ne_true
      rw [unclosedKinds_of_not_mem unclosed] at isPath
      exact ⟨path, cutClean, sameKinds.trans isPath⟩

namespace ReadsAs

variable
  {text : List Char}
  {whole : Expression}
  (reads : ReadsAs text whole)

include reads

/-- The tokens of a question stand in the text, from a name on. -/
theorem exists_run_of_question
    {node : Node}
    (member : node ∈ whole.nodes)
    {question : Question}
    (asks : question ∈ node.questions) :
    ∃ before run behind,
      (Lexed.ofText text).stream.tokens = before ++ run ++ behind ∧
        question.StandsFor node.startsWithGroup run := by
  obtain ⟨before, used, behind, shape, written⟩ := reads.exists_run member
  obtain ⟨front, run, rest, rfl, stands⟩ := written.exists_run_of_question asks
  refine ⟨before ++ front, run, rest ++ behind, ?_, stands⟩
  rw [shape]
  simp

/--
If no answer is a waiting name, every range that is asked about is that of a
question at a node. It cuts out a dotted name and nothing else, unless the
chain of the node starts with a group; then it cuts out a dotted name with
parentheses that close the group.
-/
theorem cutsName_of_query
    {host : Host}
    (settled : ∀ range ∈ (evaluateText text (some host)).queries, host.IsSettledOn range)
    {range : Int × Int}
    (asked : range ∈ (evaluateText text (some host)).queries) :
    ∃ node ∈ whole.nodes, ∃ question ∈ node.questions,
      question.range = range ∧
        CutsName node.startsWithGroup (Text.slice text range.1 range.2) := by
  obtain ⟨node, member, question, asks, rfl⟩ := reads.exists_question_of_query settled asked
  obtain ⟨before, run, behind, shape, stands⟩ := reads.exists_run_of_question member asks
  exact ⟨node, member, question, asks, rfl, stands.cutsName reads.clean shape⟩

end ReadsAs

/-- In one of the chains in the text the name stands in a group, and in the other it does not. -/
theorem ReadsAs.cutsName_of_query_oneGroup :
    let text := "c . d + (a).b".toList
    let host : Host := fun _ _ => .object .nothing
    let asked := (evaluateText text (some host)).queries
    ∃ whole,
      ReadsAs text whole ∧
        (∀ range ∈ asked, host.IsSettledOn range) ∧
        asked = [(0, 1), (0, 5), (9, 10), (9, 13)] ∧
        ∀ range ∈ asked, ∃ node ∈ whole.nodes, ∃ question ∈ node.questions,
          question.range = range ∧
            CutsName node.startsWithGroup (Text.slice text range.1 range.2) := by
  intro text host asked
  have parses : ((Lexed.ofText text).stream.parse (some text)).toOption.isSome = true := by
    decide +kernel
  have clean : (Lexed.ofText text).diagnostics = [] := by
    decide +kernel
  have queries : asked = [(0, 1), (0, 5), (9, 10), (9, 13)] := by
    decide +kernel
  have settled : ∀ range ∈ asked, host.IsSettledOn range := by
    rintro range - waiting ⟨⟩
  obtain ⟨whole, read⟩ := Option.isSome_iff_exists.mp parses
  have reads : ReadsAs text whole := ⟨clean, eq_ok_of_toOption_eq_some read⟩
  exact ⟨whole, reads, settled, queries, fun range isAsked =>
    reads.cutsName_of_query settled isAsked⟩

/-- The host is asked about a range that holds a parenthesis. -/
theorem evaluateText_asks_closing :
    let text := "(a).b".toList
    let host : Host := fun _ _ => .object .nothing
    (∃ whole, ReadsAs text whole) ∧
      (∀ question, host.IsSettledOn question) ∧
      (1, 5) ∈ (evaluateText text (some host)).queries ∧
      ¬∃ path, SpellsName (Text.slice text 1 5) path := by
  intro text host
  have parses : ((Lexed.ofText text).stream.parse (some text)).toOption.isSome = true := by
    decide +kernel
  have clean : (Lexed.ofText text).diagnostics = [] := by
    decide +kernel
  have kinds :
      (Lexed.ofText (Text.slice text 1 5)).stream.tokens.map Token.kind =
        [.identifier "a", .closeParen, .dot, .identifier "b"] := by
    decide +kernel
  obtain ⟨whole, read⟩ := Option.isSome_iff_exists.mp parses
  refine ⟨⟨whole, clean, eq_ok_of_toOption_eq_some read⟩, ?_, by decide +kernel, ?_⟩
  · rintro question waiting ⟨⟩
  · rintro ⟨path, -, isPath⟩
    refine closeParen_not_mem_kinds path ?_
    rw [← isPath, kinds]
    exact List.mem_cons_of_mem _ List.mem_cons_self

/-! ## Names from left to right -/

/-- The names of a text, each with its use in the expression that the text reads as. -/
def usedNames
    (text : List Char)
    (whole : Expression) :
    List (Token × NameUse) :=
  (Lexed.ofText text).stream.names.zip whole.nameUses

/-- Ranges that go along the names of a text. -/
structure GoAlongNames
    (text : List Char)
    (whole : Expression)
    (ranges : List (Int × Int)) :
    Prop where
  /-- Every name of the text has a use. -/
  complete : (usedNames text whole).map Prod.fst = (Lexed.ofText text).stream.names
  /-- Each range ends behind the one before it. -/
  ascending : ranges.Pairwise fun first second => first.2 < second.2
  /-- A range ends where one name does, which is not called and belongs to no type. -/
  ends :
    ∀ range ∈ ranges, ∃ name use,
      (name, use) ∈ usedNames text whole ∧
        (use = .free ∨ use = .member) ∧
        (name.stopOffset : Int) = range.2 ∧
        ∀ other ∈ usedNames text whole,
          (other.1.stopOffset : Int) = range.2 → other = (name, use)

namespace ReadsAs

variable
  {text : List Char}
  {whole : Expression}
  (reads : ReadsAs text whole)

include reads

/-- The names in use are the names of the text, in order. -/
theorem map_fst_usedNames :
    (usedNames text whole).map Prod.fst = (Lexed.ofText text).stream.names :=
  List.map_fst_zip (Nat.le_of_eq (Expression.namesUsed reads.written).1)

/-- A name of the text is known, with its use, by the offset at which it ends. -/
theorem eq_of_usedName_stops
    {first second : Token × NameUse}
    (firstMember : first ∈ usedNames text whole)
    (secondMember : second ∈ usedNames text whole)
    (same : first.1.stopOffset = second.1.stopOffset) :
    first = second := by
  have names := Lexed.names_stops_pairwise text
  rw [← reads.map_fst_usedNames] at names
  rcases eq_or_related_of_pairwise (List.pairwise_map.mp names) firstMember secondMember with
    equal | before | behind
  · exact equal
  · exact absurd same (Nat.ne_of_lt before)
  · exact absurd same (Nat.ne_of_gt behind)

/-- A range that is asked about ends at a mention. -/
theorem exists_mention_of_query
    {host : Option Host}
    {range : Int × Int}
    (asked : range ∈ (evaluateText text host).queries) :
    ∃ mention ∈ whole.mentions, (mention.span.stop.offset : Int) = range.2 := by
  obtain ⟨found, grown, ordered⟩ :=
    Surroundings.addition_asksAt { host := host, source := text } whole.root .empty
  have queries : (evaluateText text host).queries = found := by
    rw [evaluateText_of_read reads.clean reads.read]
    exact grown
  rw [queries] at asked
  exact List.mem_map.mp (ordered.subset (List.mem_map_of_mem asked))

/--
The ranges that the evaluation of a text asks about go along its names. If no
answer is a waiting name, each range starts where a name starts that stands on
its own, and it is not empty.
-/
theorem queries_goAlongNames (host : Host) :
    let asked := (evaluateText text (some host)).queries
    GoAlongNames text whole asked ∧
      ((∀ range ∈ asked, host.IsSettledOn range) →
        ∀ range ∈ asked,
          range.1 < range.2 ∧
            ∃ name, (name, .free) ∈ usedNames text whole ∧
              (name.startOffset : Int) = range.1) := by
  intro asked
  constructor
  · constructor
    case complete => exact reads.map_fst_usedNames
    case ascending =>
      have names :
          ((Lexed.ofText text).stream.names.map fun name => (name.stopOffset : Int)).Pairwise
            (· < ·) :=
        List.pairwise_map.mpr
          ((Lexed.names_stops_pairwise text).imp fun before => Int.ofNat_lt.mpr before)
      exact List.pairwise_map.mp
        (names.sublist (evaluateText_queries_sublist text (some host)))
    case ends =>
      intro range isAsked
      obtain ⟨mention, mentioned, stops⟩ := reads.exists_mention_of_query isAsked
      obtain ⟨name, use, isUsed, sameSpan, isUse⟩ :=
        Expression.exists_use_of_mention reads.written mentioned
      have nameStops : (name.stopOffset : Int) = range.2 := by
        rw [Token.stopOffset, sameSpan]
        exact stops
      refine ⟨name, use, isUsed, ?_, nameStops, ?_⟩
      · rw [isUse]
        cases mention.isMember with
        | true => exact .inr rfl
        | false => exact .inl rfl
      · intro other otherUsed otherStops
        refine reads.eq_of_usedName_stops otherUsed isUsed ?_
        exact Int.ofNat_inj.mp (otherStops.trans nameStops.symm)
  · intro settled range isAsked
    obtain ⟨node, member, question, asks, rfl⟩ :=
      reads.exists_question_of_query settled isAsked
    constructor
    · obtain ⟨before, run, behind, shape, stands⟩ := reads.exists_run_of_question member asks
      have part : run.Sublist (Lexed.ofText text).stream.tokens := by
        rw [shape]
        simp
      exact Int.ofNat_lt.mpr
        (stands.covers.nonempty ((Lexed.inOrder_ofText text).sublist part))
    · obtain ⟨word, mentioned⟩ := Expression.exists_mention_of_question member asks
      obtain ⟨name, use, isUsed, sameSpan, rfl⟩ :=
        Expression.exists_use_of_mention reads.written mentioned
      refine ⟨name, isUsed, ?_⟩
      rw [Token.startOffset, sameSpan]
      rfl

end ReadsAs

/-- Two chains that wait, one of them behind a group, and an argument that has no value. -/
theorem ReadsAs.queries_goAlongNames_twoChains :
    let text := "a.b + Math.max(c, PI) * (d).e".toList
    let host : Host := fun _ _ => .object .nothing
    let asked := (evaluateText text (some host)).queries
    ∃ whole,
      ReadsAs text whole ∧
        asked = [(0, 1), (0, 3), (6, 10), (15, 16), (25, 26), (25, 29)] ∧
        GoAlongNames text whole asked ∧
        ∀ range ∈ asked,
          range.1 < range.2 ∧
            ∃ name, (name, .free) ∈ usedNames text whole ∧
              (name.startOffset : Int) = range.1 := by
  intro text host asked
  have parses : ((Lexed.ofText text).stream.parse (some text)).toOption.isSome = true := by
    decide +kernel
  have clean : (Lexed.ofText text).diagnostics = [] := by
    decide +kernel
  have queries : asked = [(0, 1), (0, 3), (6, 10), (15, 16), (25, 26), (25, 29)] := by
    decide +kernel
  have settled : ∀ range ∈ asked, host.IsSettledOn range := by
    rintro range - waiting ⟨⟩
  obtain ⟨whole, read⟩ := Option.isSome_iff_exists.mp parses
  have reads : ReadsAs text whole := ⟨clean, eq_ok_of_toOption_eq_some read⟩
  obtain ⟨along, starts⟩ := reads.queries_goAlongNames host
  exact ⟨whole, reads, queries, along, starts settled⟩

end PlanarExpr
