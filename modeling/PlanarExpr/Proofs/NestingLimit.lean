import PlanarExpr.Proofs.EarliestFault
import PlanarExpr.Proofs.NestingLevels

namespace PlanarExpr

/-!
# The limit on nesting

An expression is read exactly if none of its tokens lies inside more than 63
signs, groups and argument lists: the limit of 64 counts the outermost addition
as well. Where the reader runs out of room, the tokens in front open 64 of
them.
-/

/-- How tokens write values, and on which level each of them lies. -/
structure Levelled (α : Type) where
  writes : List Token → α → Prop
  levels : α → List Nat
  length_levels :
    ∀ {used : List Token} {value : α},
      writes used value → (levels value).length = used.length

namespace Levelled

/-- Levels for values that have as many of them as kinds of tokens. -/
def ofKinds
    (writes : List Token → α → Prop)
    (kinds : α → List Token.Kind)
    (levels : α → List Nat)
    (map_kind : ∀ {used value}, writes used value → used.map Token.kind = kinds value)
    (length_levels : ∀ value, (levels value).length = (kinds value).length) :
    Levelled α where
  writes := writes
  levels := levels
  length_levels {_ value} written := by
    rw [length_levels value, ← map_kind written, List.length_map]

/-- Additions on a level. -/
def addition (around : Nat) : Levelled Addition :=
  ofKinds Addition.Written Addition.kinds (Addition.levels around)
    (Addition.map_kind_of_written _) (Addition.length_levels around)

/-- Multiplications on a level. -/
def multiplication (around : Nat) : Levelled Multiplication :=
  ofKinds Multiplication.Written Multiplication.kinds (Multiplication.levels around)
    (Multiplication.map_kind_of_written _) (Multiplication.length_levels around)

/-- Unary expressions on a level. -/
def unary (around : Nat) : Levelled Unary :=
  ofKinds Unary.Written Unary.kinds (Unary.levels around)
    (Unary.map_kind_of_written _) (Unary.length_levels around)

/-- Primaries on a level. -/
def primary (around : Nat) : Levelled Primary :=
  ofKinds Primary.Written Primary.kinds (Primary.levels around)
    (Primary.map_kind_of_written _) (Primary.length_levels around)

/-- Atoms on a level. -/
def atom (around : Nat) : Levelled Atom :=
  ofKinds Atom.Written Atom.kinds (Atom.levels around)
    (Atom.map_kind_of_written _) (Atom.length_levels around)

/-- Links on a level. -/
def link (around : Nat) : Levelled Link :=
  ofKinds Link.Written Link.kinds (Link.levels around)
    (Link.map_kind_of_written _) (Link.length_levels around)

/-- Chains of links on a level. -/
def chain (around : Nat) : Levelled (List Link) :=
  ofKinds (Joined Link.Written) linkKinds (linkLevels around)
    (map_kind_of_links _) (length_linkLevels around)

/-- Arguments in their parentheses, which lie on the level around them. -/
def arguments (around : Nat) : Levelled (List Addition × Token) :=
  ofKinds (WritesArguments Addition.Written)
    (fun (items, _) => .openParen :: argumentKinds items ++ [.closeParen])
    (fun (items, _) => around :: argumentLevels (around + 1) items ++ [around])
    (map_kind_of_arguments _)
    (fun (items, _) => by
      simp only [List.length_append, List.length_cons, List.length_nil,
        length_argumentLevels (around + 1) items])

/-- Arguments in their parentheses, or nothing at all. -/
def arguments? (around : Nat) : Levelled (Option (List Addition × Token)) where
  writes := WritesArguments? Addition.Written
  levels
    | none => []
    | some found => (arguments around).levels found
  length_levels {used called} written := by
    cases called with
    | none =>
        obtain rfl : used = [] := written
        rfl
    | some found => exact (arguments around).length_levels written

/-- Items behind separators that lie on the level around them. -/
def later
    (separator? : Token.Kind → Option σ)
    (around : Nat)
    (item : Levelled α) :
    Levelled (List (σ × α)) where
  writes := Separated separator? item.writes
  levels items := items.flatMap fun entry => around :: item.levels entry.2
  length_levels written := by
    induction written with
    | nil => rfl
    | cons found itemWritten _ inductionHypothesis =>
        simp only [List.flatMap_cons, List.length_append, List.length_cons,
          inductionHypothesis, item.length_levels itemWritten]

/--
Where a value is written it can be the next part of another one, behind the
given tokens, and its tokens lie on the same levels there.
-/
def BeginsIn
    (before : List Token)
    (part : Levelled α)
    (whole : Levelled β) :
    Prop :=
  ∀ used value,
    part.writes used value →
      ∃ behind result,
        whole.writes (before ++ used ++ behind) result ∧
          part.levels value <+: (whole.levels result).drop before.length

/-- What is written with the part in it, behind as many levels as there are tokens. -/
theorem exists_beginning
    {part : List Nat}
    {whole : Levelled β}
    {before used tokens : List Token}
    {result : β}
    (behind : List Token)
    (front rest : List Nat)
    (written : whole.writes tokens result)
    (sameTokens : tokens = before ++ used ++ behind)
    (shape : whole.levels result = front ++ (part ++ rest))
    (sameLength : front.length = before.length) :
    ∃ behind result,
      whole.writes (before ++ used ++ behind) result ∧
        part <+: (whole.levels result).drop before.length := by
  refine ⟨behind, result, sameTokens ▸ written, ?_⟩
  rw [shape, ← sameLength, List.drop_left]
  exact List.prefix_append _ _

end Levelled

/-- The levels of later terms are those of each, behind its sign. -/
theorem laterTermLevels_eq_flatMap
    (around : Nat)
    (later : List (Sign × Multiplication)) :
    laterTermLevels around later =
      later.flatMap fun entry => around :: entry.2.levels around := by
  induction later with
  | nil => rfl
  | cons entry rest inductionHypothesis =>
      rw [laterTermLevels, inductionHypothesis, List.flatMap_cons]

theorem laterFactorLevels_eq_flatMap
    (around : Nat)
    (later : List (Scaling × Unary)) :
    laterFactorLevels around later =
      later.flatMap fun entry => around :: entry.2.levels around := by
  induction later with
  | nil => rfl
  | cons entry rest inductionHypothesis =>
      rw [laterFactorLevels, inductionHypothesis, List.flatMap_cons]

theorem laterArgumentLevels_eq_flatMap
    (around : Nat)
    (later : List (Unit × Addition)) :
    laterArgumentLevels around (later.map Prod.snd) =
      later.flatMap fun entry => around :: entry.2.levels around := by
  induction later with
  | nil => rfl
  | cons entry rest inductionHypothesis =>
      rw [List.map_cons, laterArgumentLevels, inductionHypothesis, List.flatMap_cons]

namespace TokenReader

/--
Where the reader runs out of room, the tokens in front can be completed so that
the next one lies on the given level.
-/
def RunsOutAt
    (level : Nat)
    (before : List Token)
    (reader : TokenReader α)
    (whole : Levelled α) :
    Prop :=
  ∀ ⦃tokens : List Token⦄ ⦃failure : ParseFailure⦄,
    reader tokens = .error failure →
    failure.fault = .tooDeep →
    ∃ used behind value,
      tokens = used ++ failure.rest ∧
        whole.writes (before ++ used ++ behind) value ∧
        (whole.levels value)[before.length + used.length]? = some level

/-- A reader that fails for other reasons than the lack of room. -/
def HasRoom (reader : TokenReader α) : Prop :=
  ∀ ⦃tokens : List Token⦄ ⦃failure : ParseFailure⦄,
    reader tokens = .error failure → failure.fault ≠ .tooDeep

namespace HasRoom

/-- A reader that takes nothing has room. -/
theorem done (value : α) : HasRoom (TokenReader.done value) := by
  intro tokens failure read
  cases read

/-- A reader that misses something has room. -/
theorem fail (what : Expectation) :
    HasRoom (TokenReader.fail (.expected what) : TokenReader α) := by
  intro tokens failure read
  cases read
  exact nofun

/-- Two readers in a row have room if both of them do. -/
theorem followed
    {first : TokenReader α}
    {next : α → TokenReader β}
    (firstHasRoom : HasRoom first)
    (nextHasRoom : ∀ value, HasRoom (next value)) :
    HasRoom (first.followed next) := by
  intro tokens failure read
  cases firstRead : first tokens with
  | error firstFailure =>
      simp only [TokenReader.followed, firstRead] at read
      cases read
      exact firstHasRoom firstRead
  | ok found =>
      simp only [TokenReader.followed, firstRead, ok_bind] at read
      exact nextHasRoom _ read

/-- A choice has room if everything that may be chosen does. -/
theorem selected
    {choice? : Token.Kind → Option σ}
    {next : σ → Token → TokenReader α}
    {otherwise : TokenReader α}
    (nextHasRoom : ∀ choice token, HasRoom (next choice token))
    (otherwiseHasRoom : HasRoom otherwise) :
    HasRoom (selected choice? next otherwise) := by
  intro tokens failure read
  cases tokens with
  | nil => exact otherwiseHasRoom read
  | cons token rest =>
      cases found : choice? token.kind with
      | none =>
          simp only [TokenReader.selected, found] at read
          exact otherwiseHasRoom read
      | some choice =>
          simp only [TokenReader.selected, found] at read
          exact nextHasRoom choice token read

theorem exactly
    (kind : Token.Kind)
    (what : Expectation) :
    HasRoom (TokenReader.exactly kind what) := by
  rw [exactly_eq_selected]
  exact selected (fun _ _ => done _) (fail what)

/-- Reading a name takes no room. -/
theorem name (what : Expectation) : HasRoom (TokenReader.name what) := by
  rw [name_eq_selected]
  exact selected (fun _ _ => done _) (fail what)

/-- A repetition has room if its items do. -/
theorem repeated
    {separator? : Token.Kind → Option σ}
    {item : TokenReader α}
    (itemHasRoom : HasRoom item)
    (steps : Nat) :
    HasRoom (TokenReader.repeated separator? item steps) := by
  induction steps with
  | zero => exact done []
  | succ steps inductionHypothesis =>
      rw [repeated_succ_eq_selected]
      apply selected
      · intro _ _
        exact followed itemHasRoom fun _ => followed inductionHypothesis fun _ => done _
      · exact done []

end HasRoom

namespace RunsOutAt

variable
  {level : Nat}
  {before : List Token}
  {part : Levelled α}
  {whole : Levelled β}

/-- A reader that has room never runs out of it. -/
theorem of_hasRoom
    {reader : TokenReader β}
    (hasRoom : HasRoom reader) :
    RunsOutAt level before reader whole :=
  fun _ _ read tooDeep => absurd tooDeep (hasRoom read)

/-- A reader that takes nothing never runs out of room. -/
theorem done (value : β) : RunsOutAt level before (TokenReader.done value) whole :=
  of_hasRoom (.done value)

/-- A reader that had no room to begin with stops at the first token of what it looks for. -/
theorem tooDeep
    {behind : List Token}
    {value : β}
    (written : whole.writes behind value)
    (starts : (whole.levels value)[0]? = some level) :
    RunsOutAt level [] (fail .tooDeep) whole := by
  intro tokens failure read _
  cases read
  exact ⟨[], behind, value, rfl, written, starts⟩

/-- Of two readers one behind the other, either the first one runs out of room or the second. -/
theorem of_parts
    {writes : List Token → α → Prop}
    {first : TokenReader α}
    {next : α → TokenReader β}
    (firstSound : Sound first writes)
    (firstRunsOut :
      ∀ {tokens : List Token} {failure : ParseFailure},
        first tokens = .error failure →
        failure.fault = .tooDeep →
        ∃ used behind value,
          tokens = used ++ failure.rest ∧
            whole.writes (before ++ used ++ behind) value ∧
            (whole.levels value)[before.length + used.length]? = some level)
    (nextRunsOut :
      ∀ used value,
        writes used value → RunsOutAt level (before ++ used) (next value) whole) :
    RunsOutAt level before (first.followed next) whole := by
  intro tokens failure read tooDeep
  cases firstRead : first tokens with
  | error firstFailure =>
      simp only [TokenReader.followed, firstRead] at read
      cases read
      exact firstRunsOut firstRead tooDeep
  | ok found =>
      obtain ⟨value, behind⟩ := found
      simp only [TokenReader.followed, firstRead, ok_bind] at read
      obtain ⟨used, rfl, written⟩ := firstSound firstRead
      obtain ⟨more, last, result, rfl, resultWritten, here⟩ :=
        nextRunsOut used value written read tooDeep
      refine ⟨used ++ more, last, result, (List.append_assoc _ _ _).symm, ?_, ?_⟩
      · simpa using resultWritten
      · simpa [Nat.add_assoc] using here

/--
The value of the first reader must be able to begin the whole, in which some
more tokens stand in front of it.
-/
theorem followed_behind
    {front : List Token}
    {first : TokenReader α}
    {next : α → TokenReader β}
    (firstSound : Sound first fun used value => part.writes (front ++ used) value)
    (firstRunsOut : RunsOutAt level front first part)
    (begins : part.BeginsIn before whole)
    (nextRunsOut :
      ∀ used value,
        part.writes (front ++ used) value →
        RunsOutAt level (before ++ front ++ used) (next value) whole) :
    RunsOutAt level (before ++ front) (first.followed next) whole := by
  apply of_parts firstSound _ nextRunsOut
  intro tokens failure firstRead tooDeep
  obtain ⟨used, behind, value, shape, written, here⟩ := firstRunsOut firstRead tooDeep
  obtain ⟨more, result, resultWritten, rest, levels⟩ := begins _ value written
  obtain ⟨inside, -⟩ := List.getElem?_eq_some_iff.mp here
  refine ⟨used, behind ++ more, result, shape, by simpa using resultWritten, ?_⟩
  rw [List.length_append, Nat.add_assoc, ← List.getElem?_drop, ← levels,
    List.getElem?_append_left inside, here]

/-- The first of two readers may run out of room if its part can begin the whole. -/
theorem followed
    {first : TokenReader α}
    {next : α → TokenReader β}
    (firstSound : Sound first part.writes)
    (firstRunsOut : RunsOutAt level [] first part)
    (begins : part.BeginsIn before whole)
    (nextRunsOut :
      ∀ used value,
        part.writes used value → RunsOutAt level (before ++ used) (next value) whole) :
    RunsOutAt level before (first.followed next) whole := by
  rw [← List.append_nil before] at nextRunsOut ⊢
  exact followed_behind firstSound firstRunsOut begins nextRunsOut

/-- If the first of two readers has room, only the second one can run out of it. -/
theorem followed_of_hasRoom
    {writes : List Token → α → Prop}
    {first : TokenReader α}
    {next : α → TokenReader β}
    (firstSound : Sound first writes)
    (firstHasRoom : HasRoom first)
    (nextRunsOut :
      ∀ used value,
        writes used value → RunsOutAt level (before ++ used) (next value) whole) :
    RunsOutAt level before (first.followed next) whole :=
  of_parts firstSound (fun read tooDeep => absurd tooDeep (firstHasRoom read)) nextRunsOut

/-- What is chosen runs out of room behind the token that chose it. -/
theorem selected
    {choice? : Token.Kind → Option σ}
    {next : σ → Token → TokenReader β}
    {otherwise : TokenReader β}
    (nextRunsOut :
      ∀ choice token,
        choice? token.kind = some choice →
        RunsOutAt level (before ++ [token]) (next choice token) whole)
    (otherwiseRunsOut : RunsOutAt level before otherwise whole) :
    RunsOutAt level before (selected choice? next otherwise) whole := by
  intro tokens failure read tooDeep
  cases tokens with
  | nil => exact otherwiseRunsOut read tooDeep
  | cons token rest =>
      cases found : choice? token.kind with
      | none =>
          simp only [TokenReader.selected, found] at read
          exact otherwiseRunsOut read tooDeep
      | some choice =>
          simp only [TokenReader.selected, found] at read
          obtain ⟨more, behind, value, rfl, written, here⟩ :=
            nextRunsOut choice token found read tooDeep
          refine ⟨token :: more, behind, value, rfl, by simpa using written, ?_⟩
          simpa [Nat.add_assoc, Nat.add_comm 1] using here

end RunsOutAt

/-- A repetition runs out of room where one of its items does. -/
theorem runsOut_repeated
    {level : Nat}
    {separator? : Token.Kind → Option σ}
    {item : TokenReader α}
    {levelled : Levelled α}
    (around : Nat)
    (itemSound : Sound item levelled.writes)
    (itemRunsOut : RunsOutAt level [] item levelled)
    (steps : Nat) :
    RunsOutAt level [] (repeated separator? item steps)
      (Levelled.later separator? around levelled) := by
  induction steps with
  | zero => exact .done []
  | succ steps inductionHypothesis =>
      rw [repeated_succ_eq_selected]
      apply RunsOutAt.selected
      · intro separator token found
        apply RunsOutAt.followed itemSound itemRunsOut
        · intro used value written
          exact Levelled.exists_beginning [] [around] [] (.cons found written .nil) rfl rfl rfl
        · intro used value written
          apply RunsOutAt.followed (sound_repeated itemSound steps) inductionHypothesis
          · intro laterUsed later laterWritten
            exact Levelled.exists_beginning [] (around :: levelled.levels value) []
              (.cons found written laterWritten) (by simp) (by simp [Levelled.later])
              (by simp [levelled.length_levels written])
          · intro laterUsed later _
            exact .done _
      · exact .done []

end TokenReader

namespace Grammar

open TokenReader

/-- Without room for an operand the next token lies on the level of the operand. -/
theorem tooDeep_unary (around : Nat) :
    RunsOutAt around [] (fail .tooDeep) (.unary around) := by
  have start : Atom.Written [.ofKind (.number 0)] (.number .blank 0) := .number rfl
  exact .tooDeep (.primary (.mk start .nil)) rfl

/-- Without room for an addition the next token lies on the level of the addition. -/
theorem tooDeep_addition (around : Nat) :
    RunsOutAt around [] (fail .tooDeep) (.addition around) := by
  have start : Atom.Written [.ofKind (.number 0)] (.number .blank 0) := .number rfl
  exact .tooDeep (.mk (.mk (.primary (.mk start .nil)) .nil) .nil) rfl

section

variable
  {budget bound level around : Nat}
  {unary : TokenReader Unary}
  (unarySound : Sound unary (Within bound Unary.nesting Unary.Written))
  (unaryRunsOut : RunsOutAt level [] unary (.unary around))

include unarySound unaryRunsOut

/-- A product runs out of room where one of its factors does. -/
theorem runsOut_multiplication :
    RunsOutAt level [] (multiplication budget unary) (.multiplication around) := by
  have factorSound : Sound unary (Levelled.unary around).writes :=
    unarySound.mono fun _ _ => And.left
  rw [multiplication_eq_followed]
  apply RunsOutAt.followed factorSound unaryRunsOut
  · intro used first written
    exact Levelled.exists_beginning [] [] [] (.mk written .nil) (by simp) rfl rfl
  · intro used first written
    apply RunsOutAt.followed (sound_repeated factorSound budget)
      (runsOut_repeated around factorSound unaryRunsOut budget)
    · intro laterUsed later laterWritten
      refine Levelled.exists_beginning [] (first.levels around) [] (.mk written laterWritten)
        (by simp) ?_ ((Levelled.unary around).length_levels written)
      exact congrArg (first.levels around ++ ·)
        ((laterFactorLevels_eq_flatMap around later).trans (List.append_nil _).symm)
    · intro laterUsed later _
      exact .done _

theorem runsOut_additionOf :
    RunsOutAt level [] (additionOf budget unary) (.addition around) := by
  have termSound : Sound (multiplication budget unary) (Levelled.multiplication around).writes :=
    (sound_multiplication unarySound).mono fun _ _ => And.left
  have termRunsOut :
      RunsOutAt level [] (multiplication budget unary) (.multiplication around) :=
    runsOut_multiplication unarySound unaryRunsOut
  rw [additionOf_eq_followed]
  apply RunsOutAt.followed termSound termRunsOut
  · intro used first written
    exact Levelled.exists_beginning [] [] [] (.mk written .nil) (by simp) rfl rfl
  · intro used first written
    apply RunsOutAt.followed (sound_repeated termSound budget)
      (runsOut_repeated around termSound termRunsOut budget)
    · intro laterUsed later laterWritten
      refine Levelled.exists_beginning [] (first.levels around) [] (.mk written laterWritten)
        (by simp) ?_ ((Levelled.multiplication around).length_levels written)
      exact congrArg (first.levels around ++ ·)
        ((laterTermLevels_eq_flatMap around later).trans (List.append_nil _).symm)
    · intro laterUsed later _
      exact .done _

end

section

variable
  {budget bound level around : Nat}
  {addition : TokenReader Addition}
  (additionSound : Sound addition (Within bound Addition.nesting Addition.Written))
  (additionRunsOut : RunsOutAt level [] addition (.addition (around + 1)))

include additionSound additionRunsOut

/-- Arguments run out of room where one of them does, behind their parenthesis. -/
theorem runsOut_argumentItems
    {opening : Token}
    (opens : opening.kind = .openParen) :
    RunsOutAt level [opening] (argumentItems budget addition) (.arguments around) := by
  have itemSound : Sound addition (Levelled.addition (around + 1)).writes :=
    additionSound.mono fun _ _ => And.left
  have closes : (Token.ofKind .closeParen).kind = .closeParen := rfl
  rw [argumentItems_eq_selected]
  apply RunsOutAt.selected
  · intro _ close _
    exact .done _
  · apply RunsOutAt.followed itemSound additionRunsOut
    · intro used first written
      refine Levelled.exists_beginning [.ofKind .closeParen] [around] [around]
        (.some opens written .nil closes) (by simp) ?_ rfl
      exact congrArg (around :: · ++ [around]) (List.append_nil _)
    · intro used first written
      apply RunsOutAt.followed (sound_repeated itemSound budget)
        (runsOut_repeated (around + 1) itemSound additionRunsOut budget)
      · intro laterUsed later laterWritten
        refine Levelled.exists_beginning [.ofKind .closeParen]
          (around :: first.levels (around + 1)) [around]
          (.some opens written laterWritten closes) (by simp) ?_ ?_
        · have levels := laterArgumentLevels_eq_flatMap (around + 1) later
          simp [Levelled.arguments, Levelled.ofKinds, argumentLevels, levels, Levelled.later,
            Levelled.addition]
        · exact congrArg (· + 1) ((Levelled.addition (around + 1)).length_levels written)
      · intro laterUsed later _
        apply RunsOutAt.followed_of_hasRoom (sound_exactly _ _) (.exactly _ _)
        intro _ close _
        exact .done _

theorem runsOut_arguments :
    RunsOutAt level [] (arguments budget addition) (.arguments around) := by
  rw [arguments_eq_followed]
  apply RunsOutAt.followed_of_hasRoom (sound_exactly _ _) (.exactly _ _)
  rintro _ opening ⟨rfl, opens⟩
  exact runsOut_argumentItems additionSound additionRunsOut opens

theorem runsOut_arguments? :
    RunsOutAt level [] (arguments? budget addition) (.arguments? around) := by
  have itemSound : Sound addition Addition.Written := additionSound.mono fun _ _ => And.left
  rw [arguments?_eq_selected]
  apply RunsOutAt.selected
  · intro _ opening found
    have opens := only?_eq_some_iff.mp found
    apply RunsOutAt.followed_behind (sound_argumentItems itemSound opens)
      (runsOut_argumentItems additionSound additionRunsOut opens)
    · intro used called written
      have calls : (Levelled.arguments? around).writes used (some called) := written
      exact Levelled.exists_beginning [] [] [] calls (by simp) (List.append_nil _).symm rfl
    · intro used called _
      exact .done _
  · exact .done none

theorem runsOut_link
    {dot : Token}
    (points : dot.kind = .dot) :
    RunsOutAt level [dot] (link budget addition dot) (.link around) := by
  rw [link_eq_followed]
  apply RunsOutAt.followed_of_hasRoom (sound_name _) (.name _)
  rintro _ _ ⟨named⟩
  apply RunsOutAt.followed (sound_called additionSound)
    (runsOut_arguments? additionSound additionRunsOut)
  · rintro used (_ | ⟨items, close⟩) written
    · obtain rfl : used = [] := written
      exact Levelled.exists_beginning [] [around, around] [] (.field points named) rfl rfl rfl
    · exact Levelled.exists_beginning [] [around, around] [] (.call points named written)
        (by simp) (List.append_nil _).symm rfl
  · intro used called _
    exact .done _

/-- A chain runs out of room where one of its links does. -/
theorem runsOut_links (steps : Nat) :
    RunsOutAt level [] (links budget addition steps) (.chain around) := by
  induction steps with
  | zero => exact .done []
  | succ steps inductionHypothesis =>
      rw [links_succ_eq_selected]
      apply RunsOutAt.selected
      · intro _ dot found
        have points := only?_eq_some_iff.mp found
        apply RunsOutAt.followed_behind
          ((sound_link additionSound points).mono fun _ _ => And.left)
          (runsOut_link additionSound additionRunsOut points)
        · intro used first written
          exact Levelled.exists_beginning [] [] [] (.cons written .nil) (by simp) rfl rfl
        · intro used first written
          apply RunsOutAt.followed
            ((sound_links additionSound steps).mono fun _ _ => And.left) inductionHypothesis
          · intro laterUsed later laterWritten
            exact Levelled.exists_beginning [] (first.levels around) []
              (.cons written laterWritten) (by simp)
              (congrArg (first.levels around ++ ·) (List.append_nil _).symm)
              ((Levelled.link around).length_levels written)
          · intro laterUsed later _
            exact .done _
      · exact .done []

theorem runsOut_construction
    {keyword : Token}
    (isNew : keyword.kind = .new) :
    RunsOutAt level [keyword] (construction budget addition keyword) (.atom around) := by
  have itemSound : Sound addition Addition.Written := additionSound.mono fun _ _ => And.left
  rw [construction_eq_followed]
  apply RunsOutAt.followed_of_hasRoom (sound_name _) (.name _)
  intro firstUsed first firstWritten
  apply RunsOutAt.followed_of_hasRoom (sound_repeated (sound_name _) budget)
    (.repeated (.name _) budget)
  intro laterUsed later laterWritten
  apply RunsOutAt.followed (sound_arguments itemSound)
    (runsOut_arguments additionSound additionRunsOut)
  · intro used called written
    obtain ⟨path, pathWritten⟩ : ∃ path, WritesPath (firstUsed ++ laterUsed) path :=
      ⟨_, .mk firstWritten laterWritten⟩
    have sameLength := congrArg List.length (TypePath.map_kind_of_written pathWritten)
    refine Levelled.exists_beginning []
      (around :: List.replicate path.kinds.length around) []
      (.construction isNew pathWritten written) (by simp) ?_ ?_
    · simp [Levelled.atom, Levelled.arguments, Levelled.ofKinds, Atom.levels]
    · simpa using sameLength.symm
  · intro used called _
    exact .done _

theorem runsOut_group
    {opening : Token}
    (opens : opening.kind = .openParen) :
    RunsOutAt level [opening] (group addition opening) (.atom around) := by
  have innerSound : Sound addition (Levelled.addition (around + 1)).writes :=
    additionSound.mono fun _ _ => And.left
  have closes : (Token.ofKind .closeParen).kind = .closeParen := rfl
  rw [group_eq_followed]
  apply RunsOutAt.followed innerSound additionRunsOut
  · intro used inner written
    exact Levelled.exists_beginning [.ofKind .closeParen] [around] [around]
      (.group opens written closes) (by simp) rfl rfl
  · intro used inner written
    apply RunsOutAt.followed_of_hasRoom (sound_exactly _ _) (.exactly _ _)
    intro _ close _
    exact .done _

/-- A name that is called runs out of room in its arguments. -/
theorem runsOut_nameOrCall
    {token : Token}
    {identifier : String}
    (named : token.kind = .identifier identifier) :
    RunsOutAt level [token] (nameOrCall budget addition identifier token)
      (.atom around) := by
  rw [nameOrCall_eq_followed]
  apply RunsOutAt.followed (sound_called additionSound)
    (runsOut_arguments? additionSound additionRunsOut)
  · rintro used (_ | ⟨items, close⟩) written
    · obtain rfl : used = [] := written
      exact Levelled.exists_beginning [] [around] [] (.name named) rfl rfl rfl
    · exact Levelled.exists_beginning [] [around] [] (.call named written)
        (by simp) (List.append_nil _).symm rfl
  · intro used called _
    exact .done _

/-- An atom runs out of room where what its first token chooses does. -/
theorem runsOut_atom : RunsOutAt level [] (atom budget addition) (.atom around) := by
  rw [atom_eq_selected]
  apply RunsOutAt.selected
  · intro start token found
    have kind := eq_of_atomStart? found
    cases start with
    | number value => exact .done _
    | identifier name => exact runsOut_nameOrCall additionSound additionRunsOut kind
    | new => exact runsOut_construction additionSound additionRunsOut kind
    | openParen => exact runsOut_group additionSound additionRunsOut kind
    | _ =>
        rw [kind] at found
        cases found
  · exact .of_hasRoom (.fail _)

/-- A primary runs out of room in its atom or in its links. -/
theorem runsOut_primary :
    RunsOutAt level [] (primary budget addition) (.primary around) := by
  rw [primary_eq_followed]
  apply RunsOutAt.followed ((sound_atom additionSound).mono fun _ _ => And.left)
    (runsOut_atom additionSound additionRunsOut)
  · intro used first written
    exact Levelled.exists_beginning [] [] [] (.mk written .nil) (by simp) rfl rfl
  · intro used first written
    apply RunsOutAt.followed ((sound_links additionSound budget).mono fun _ _ => And.left)
      (runsOut_links additionSound additionRunsOut budget)
    · intro chainUsed chain chainWritten
      exact Levelled.exists_beginning [] (first.levels around) [] (.mk written chainWritten)
        (by simp) (congrArg (first.levels around ++ ·) (List.append_nil _).symm)
        ((Levelled.atom around).length_levels written)
    · intro chainUsed chain _
      exact .done _

/-- A signed operand runs out of room one level further in. -/
theorem runsOut_signedOr
    {operand : TokenReader Unary}
    (operandSound : Sound operand Unary.Written)
    (operandRunsOut : RunsOutAt level [] operand (.unary (around + 1))) :
    RunsOutAt level [] (signedOr budget operand addition) (.unary around) := by
  rw [signedOr_eq_selected]
  apply RunsOutAt.selected
  · intro sign token found
    apply RunsOutAt.followed operandSound operandRunsOut
    · intro used inner written
      exact Levelled.exists_beginning [] [around] [] (.signed found written)
        (by simp) (congrArg (around :: ·) (List.append_nil _).symm) rfl
    · intro used inner _
      exact .done _
  · apply RunsOutAt.followed ((sound_primary additionSound).mono fun _ _ => And.left)
      (runsOut_primary additionSound additionRunsOut)
    · intro used inner written
      exact Levelled.exists_beginning [] [] [] (.primary written) (by simp)
        (List.append_nil _).symm rfl
    · intro used inner _
      exact .done _

end

/-- An operand runs out of room as many levels further in as it has room for. -/
theorem runsOut_unary
    (budget room around : Nat) :
    RunsOutAt (around + room + 1) [] (unary budget room) (.unary around) := by
  induction room generalizing around with
  | zero =>
      have noneRead :
          Sound (fail .tooDeep) (Within 0 Addition.nesting Addition.Written) :=
        sound_fail
      exact runsOut_signedOr noneRead (tooDeep_addition _) sound_fail (tooDeep_unary _)
  | succ room inductionHypothesis =>
      have unarySound := sound_unary budget room
      have unaryRunsOut := inductionHypothesis (around + 1)
      rw [Nat.add_right_comm around 1 room] at unaryRunsOut
      exact runsOut_signedOr (sound_additionOf unarySound)
        (runsOut_additionOf unarySound unaryRunsOut)
        (unarySound.mono fun _ _ => And.left) unaryRunsOut

/-- The reader of additions runs out of room as many levels further in as it has room for. -/
theorem runsOut_addition
    (budget room around : Nat) :
    RunsOutAt (around + room) [] (addition budget room) (.addition around) := by
  cases room with
  | zero => exact tooDeep_addition around
  | succ room =>
      exact runsOut_additionOf (sound_unary budget room) (runsOut_unary budget room around)

end Grammar

/-- Of the kinds of an expression nothing is refused but too deep a nesting. -/
theorem Expression.tooDeep_of_ofTokens
    {tokens : List Token}
    {tree : Expression}
    {failure : ParseFailure}
    (kinds : tokens.map Token.kind = tree.kinds)
    (fails : Expression.ofTokens tokens = .error failure) :
    failure.fault = .tooDeep := by
  apply Decidable.byContradiction
  intro hasRoom
  obtain ⟨used, shape, earliest⟩ := Expression.isEarliest_of_ofTokens fails hasRoom
  have sentence : Grammar.IsSentence (tokens.map Token.kind) := ⟨tree, kinds.symm⟩
  rw [shape, List.map_append] at sentence
  cases rest : failure.rest with
  | nil =>
      rw [rest, List.map_nil, List.append_nil] at sentence
      exact earliest.trailing (earliest.sentence_iff.mp sentence) rest
  | cons token behind =>
      apply earliest.wrong token (by rw [rest]; rfl)
      rw [rest, List.map_cons, ← List.singleton_append, ← List.append_assoc] at sentence
      exact ⟨_, sentence⟩

/-- Where an expression is nested too deep, its beginning opens 64 levels. -/
theorem Expression.exists_level_of_tooDeep
    {tokens : List Token}
    {failure : ParseFailure}
    (fails : Expression.ofTokens tokens = .error failure)
    (tooDeep : failure.fault = .tooDeep) :
    ∃ used, ∃ tree : Expression,
      tokens = used ++ failure.rest ∧
        tree.kinds.take used.length = used.map Token.kind ∧
        tree.levels[used.length]? = some 64 := by
  cases ofTokens_eq_error_iff.mp fails with
  | empty nothing => cases tooDeep
  | leftOver nonempty read goesOn => cases tooDeep
  | inside nonempty fails =>
      -- The reader has room for 64 levels, the first of which is the addition itself.
      obtain ⟨used, behind, root, shape, written, here⟩ :=
        Grammar.runsOut_addition _ _ 0 fails tooDeep
      rw [List.length_nil, Nat.zero_add] at here
      refine ⟨used, { root := root }, shape, ?_, here⟩
      have kinds : root.kinds = used.map Token.kind ++ behind.map Token.kind := by
        rw [← List.map_append]
        exact (Addition.map_kind_of_written _ written).symm
      rw [Expression.kinds, kinds]
      exact List.take_left' (List.length_map Token.kind)

/-- Too deep a nesting has a code of its own. -/
theorem ParseFailure.code_problem_eq_nestingTooDeep_iff (failure : ParseFailure) :
    failure.problem.code = "E105" ↔ failure.fault = .tooDeep := by
  obtain ⟨fault, rest⟩ := failure
  cases fault <;> cases rest <;> simp [ParseFailure.problem, Problem.code]

/--
Up to a place a stream of tokens begins an expression whose token at that place
lies inside the given number of signs, groups and argument lists.
-/
def TokenStream.OpensLevel
    (stream : TokenStream)
    (place level : Nat) :
    Prop :=
  ∃ tree : Expression,
    tree.kinds.take place = stream.kinds.take place ∧ tree.levels[place]? = some level

section

variable
  {stream : TokenStream}
  {source : Option (List Char)}

/-- The tokens of an expression are read exactly if none of them lies on a level above 63. -/
theorem TokenStream.exists_parse_eq_ok_iff_levels
    {tree : Expression}
    (kinds : stream.kinds = tree.kinds) :
    (∃ found,
        stream.parse source = .ok found ∧ found.withoutSpans = tree.withoutSpans) ↔
      ∀ level ∈ tree.levels, level ≤ 63 := by
  rw [TokenStream.exists_parse_eq_ok_iff, tree.levels_le_iff]
  exact and_iff_right kinds

/-- The tokens of an expression are refused as nested too deep if one lies on a level above 63. -/
theorem TokenStream.exists_parse_eq_tooDeep_iff_levels
    {tree : Expression}
    (kinds : stream.kinds = tree.kinds) :
    (∃ diagnostic,
        stream.parse source = .error diagnostic ∧ diagnostic.code = "E105") ↔
      ∃ level ∈ tree.levels, 64 ≤ level := by
  have accepted := @TokenStream.exists_parse_eq_ok_iff_levels _ source _ kinds
  constructor
  · rintro ⟨diagnostic, fails, _⟩
    apply Classical.byContradiction
    intro noneDeep
    obtain ⟨found, succeeds, _⟩ := accepted.mpr fun level member =>
      Nat.le_of_lt_succ (Nat.lt_of_not_le fun deep => noneDeep ⟨level, member, deep⟩)
    rw [fails] at succeeds
    cases succeeds
  · rintro ⟨level, member, deep⟩
    cases read : Expression.ofTokens stream.tokens with
    | error failure =>
        refine ⟨_, by simp only [TokenStream.parse, read]; rfl, ?_⟩
        exact failure.code_problem_eq_nestingTooDeep_iff.mpr
          (Expression.tooDeep_of_ofTokens kinds read)
    | ok found =>
        have succeeds : stream.parse source = .ok found := by
          simp only [TokenStream.parse, read]
        have foundKinds :=
          (TokenStream.exists_parse_eq_ok_iff.mp ⟨found, succeeds, rfl⟩).1
        have same := Expression.withoutSpans_eq_of_map_kind foundKinds kinds
        have fits := accepted.mp ⟨found, succeeds, same⟩ level member
        omega

/-- A diagnostic about too deep a nesting points at an entry that lies on level 64. -/
theorem TokenStream.exists_opensLevel_of_tooDeep
    {diagnostic : Diagnostic}
    (fails : stream.parse source = .error diagnostic)
    (code : diagnostic.code = "E105") :
    ∃ place,
      (stream.entries[place]?).map TokenEntry.span = some diagnostic.span ∧
        stream.OpensLevel place 64 := by
  unfold TokenStream.parse at fails
  split at fails
  · cases fails
  · next failure read =>
      cases fails
      obtain ⟨used, tree, shape, kinds, here⟩ :=
        Expression.exists_level_of_tooDeep read
          (failure.code_problem_eq_nestingTooDeep_iff.mp code)
      refine ⟨used.length, TokenStream.span_entries_of_append shape, tree, ?_, here⟩
      rw [kinds, TokenStream.kinds, shape, List.map_append]
      exact (List.take_left' (List.length_map Token.kind)).symm

end

/--
An expression is read exactly if none of its tokens lies inside more than 63
signs, groups and argument lists, and is refused for too deep a nesting if one
does. Whatever else is refused for that reason opens 64 of them in front of the
entry that the diagnostic points at.
-/
theorem TokenStream.parse_levels
    (stream : TokenStream)
    (source : Option (List Char)) :
    (∀ tree : Expression,
        stream.kinds = tree.kinds →
        ((∃ found,
            stream.parse source = .ok found ∧
              found.withoutSpans = tree.withoutSpans) ↔
          ∀ level ∈ tree.levels, level ≤ 63) ∧
        ((∃ diagnostic,
            stream.parse source = .error diagnostic ∧ diagnostic.code = "E105") ↔
          ∃ level ∈ tree.levels, 64 ≤ level)) ∧
      ∀ diagnostic,
        stream.parse source = .error diagnostic →
        diagnostic.code = "E105" →
        ∃ place,
          (stream.entries[place]?).map TokenEntry.span = some diagnostic.span ∧
            stream.OpensLevel place 64 := by
  refine ⟨fun tree kinds => ⟨?_, ?_⟩, fun diagnostic fails code => ?_⟩
  · exact TokenStream.exists_parse_eq_ok_iff_levels kinds
  · exact TokenStream.exists_parse_eq_tooDeep_iff_levels kinds
  · exact TokenStream.exists_opensLevel_of_tooDeep fails code

/-- A number behind some signs. -/
def Unary.behindSigns (number : Float) : Nat → Unary
  | 0 => .primary (.mk .blank (.number .blank number) [])
  | signs + 1 => .signed .blank .minus (behindSigns number signs)

/-- Of 64 levels of signs the reader has room for 63: the outermost addition takes one of them. -/
theorem TokenStream.parse_refuses_signs :
    let stream := (Lexed.ofText (List.replicate 64 '-' ++ ['1'])).stream
    let tree : Expression :=
      { root := .mk .blank (.mk .blank (.behindSigns 1 64) []) [] }
    stream.kinds = tree.kinds ∧
      (∀ level ∈ tree.levels, level ≤ 64) ∧
      (match stream.parse none with
        | .ok _ => none
        | .error diagnostic => some diagnostic.code) = some "E105" := by
  decide +kernel

end PlanarExpr
