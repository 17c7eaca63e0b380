import PlanarExpr.Proofs.ReaderShapes

namespace PlanarExpr

/-!
# What a failed reading can still become

A reader fails only in front of a token that it cannot take. The tokens before
that one are the beginning of something that the reader looks for: some tokens
behind them complete it. The grammar knows no limit on nesting, so that holds
of a reading that ran out of room as well.
-/

/-- Tokens that write a value, with some more tokens behind them. -/
def Completable
    (writes : List Token → α → Prop)
    (used : List Token) :
    Prop :=
  ∃ behind value, writes (used ++ behind) value

/-- What is written is completed by nothing. -/
theorem Completable.of_written
    {writes : List Token → α → Prop}
    {used : List Token}
    {value : α}
    (written : writes used value) :
    Completable writes used := by
  refine ⟨[], value, ?_⟩
  rwa [List.append_nil]

/-- Nothing is completed by what is written. -/
theorem Completable.nil_of_written
    {writes : List Token → α → Prop}
    {tokens : List Token}
    {value : α}
    (written : writes tokens value) :
    Completable writes [] :=
  ⟨tokens, value, written⟩

/-- Tokens that write nothing, or arguments in their parentheses. -/
def WritesArguments?
    (writes : List Token → Addition → Prop)
    (tokens : List Token) :
    Option (List Addition × Token) → Prop
  | none => tokens = []
  | some found => WritesArguments writes tokens found

/-- A token of some kind that comes from no text. -/
def Token.ofKind (kind : Token.Kind) : Token :=
  { kind := kind, lexeme := "", span := .blank }

/-- A name can still be written where nothing is. -/
theorem completable_name : Completable WritesName [] :=
  ⟨[.ofKind (.identifier "x")], _, .mk rfl⟩

/-- A number is an expression of each level. -/
theorem completable_unary : Completable Unary.Written [] := by
  have start : Atom.Written [.ofKind (.number 0)] (.number .blank 0) := .number rfl
  exact .nil_of_written (.primary (.mk start .nil))

/-- An addition can still be written where nothing is. -/
theorem completable_addition : Completable Addition.Written [] := by
  obtain ⟨behind, operand, written⟩ := completable_unary
  exact .nil_of_written (.mk (.mk written .nil) .nil)

/-- The faults that the rules of the grammar have, apart from the whole input. -/
inductive ParseFault.IsOfRule : ParseFault → Prop where
  | expected (what : Expectation) :
      IsOfRule (.expected what)
  | tooDeep :
      IsOfRule .tooDeep

namespace TokenReader

/-- Up to where the reader fails, the tokens can be completed. -/
def Promising
    (reader : TokenReader α)
    (writes : List Token → α → Prop) :
    Prop :=
  ∀ ⦃tokens : List Token⦄ ⦃failure : ParseFailure⦄,
    reader tokens = .error failure →
    failure.fault.IsOfRule ∧
      ∃ used, tokens = used ++ failure.rest ∧ Completable writes used

namespace Promising

/-- A reader that takes nothing fails nowhere. -/
theorem done
    (value : α)
    (writes : List Token → α → Prop) :
    Promising (done value) writes := by
  intro tokens failure read
  cases read

/-- A reader that fails at once promises what can be written from nothing. -/
theorem fail
    {writes : List Token → α → Prop}
    {fault : ParseFault}
    (possible : Completable writes [])
    (ofRule : fault.IsOfRule) :
    Promising (TokenReader.fail fault) writes := by
  intro tokens failure read
  cases read
  exact ⟨ofRule, [], rfl, possible⟩

/-- Where one reader goes on behind another, the first one's value must be a possible beginning. -/
theorem followed
    {first : TokenReader α}
    {next : α → TokenReader β}
    {firstWrites : List Token → α → Prop}
    {writes : List Token → β → Prop}
    (firstSound : Sound first firstWrites)
    (firstPromising : Promising first firstWrites)
    (possible : ∀ used value, firstWrites used value → Completable writes used)
    (nextPromising :
      ∀ used value,
        firstWrites used value →
        Promising (next value) fun more result => writes (used ++ more) result) :
    Promising (first.followed next) writes := by
  intro tokens failure read
  cases firstRead : first tokens with
  | error firstFailure =>
      simp only [TokenReader.followed, firstRead] at read
      cases read
      obtain ⟨ofRule, used, shape, behind, value, written⟩ := firstPromising firstRead
      obtain ⟨more, result, resultWritten⟩ := possible _ value written
      rw [List.append_assoc] at resultWritten
      exact ⟨ofRule, used, shape, behind ++ more, result, resultWritten⟩
  | ok found =>
      obtain ⟨value, behind⟩ := found
      simp only [TokenReader.followed, firstRead, ok_bind] at read
      obtain ⟨used, rfl, written⟩ := firstSound firstRead
      obtain ⟨ofRule, more, rfl, last, result, resultWritten⟩ :=
        nextPromising used value written read
      rw [← List.append_assoc] at resultWritten
      exact ⟨ofRule, used ++ more, (List.append_assoc _ _ _).symm, last, result,
        resultWritten⟩

/-- A choice leads to something that starts with the token that made it. -/
theorem selected
    {choice? : Token.Kind → Option σ}
    {next : σ → Token → TokenReader α}
    {otherwise : TokenReader α}
    {writes : List Token → α → Prop}
    (nextPromising :
      ∀ choice token,
        choice? token.kind = some choice →
        Promising (next choice token) fun more result => writes (token :: more) result)
    (otherwisePromising : Promising otherwise writes) :
    Promising (selected choice? next otherwise) writes := by
  intro tokens failure read
  cases tokens with
  | nil =>
      exact otherwisePromising read
  | cons token rest =>
      cases found : choice? token.kind with
      | none =>
          simp only [TokenReader.selected, found] at read
          exact otherwisePromising read
      | some choice =>
          simp only [TokenReader.selected, found] at read
          obtain ⟨ofRule, more, rfl, possible⟩ := nextPromising choice token found read
          exact ⟨ofRule, token :: more, rfl, possible⟩

end Promising

/-- A sound reader is sound for everything that its values imply. -/
theorem Sound.mono
    {reader : TokenReader α}
    {writes writes' : List Token → α → Prop}
    (sound : Sound reader writes)
    (weaker : ∀ used value, writes used value → writes' used value) :
    Sound reader writes' := by
  intro tokens value rest read
  obtain ⟨used, shape, written⟩ := sound read
  exact ⟨used, shape, weaker used value written⟩

/-- Up to where a token is missing, that token completes. -/
theorem promising_exactly
    (kind : Token.Kind)
    (what : Expectation) :
    Promising (exactly kind what)
      (fun used token => used = [token] ∧ token.kind = kind) := by
  rw [exactly_eq_selected]
  apply Promising.selected
  · intro _ token _
    exact .done token _
  · exact .fail ⟨[.ofKind kind], _, rfl, rfl⟩ (.expected _)

/-- Up to where a name is missing, a name completes. -/
theorem promising_name (what : Expectation) : Promising (name what) WritesName := by
  rw [name_eq_selected]
  apply Promising.selected
  · intro found token _
    exact .done _ _
  · exact .fail completable_name (.expected _)

/-- Up to where a repetition fails, the item that failed can be completed. -/
theorem promising_repeated
    {separator? : Token.Kind → Option σ}
    {item : TokenReader α}
    {writes : List Token → α → Prop}
    (itemSound : Sound item writes)
    (itemPromising : Promising item writes)
    (steps : Nat) :
    Promising (repeated separator? item steps) (Separated separator? writes) := by
  induction steps with
  | zero =>
      exact .done [] _
  | succ steps inductionHypothesis =>
      rw [repeated_succ_eq_selected]
      apply Promising.selected
      · intro separator token found
        apply Promising.followed itemSound itemPromising
        · intro used value written
          exact ⟨[], _, .cons found written .nil⟩
        · intro used value written
          apply Promising.followed (sound_repeated itemSound steps) inductionHypothesis
          · intro laterUsed later laterWritten
            exact .of_written (.cons found written laterWritten)
          · intro laterUsed later _
            exact .done _ _
      · exact .done [] _

end TokenReader

namespace Grammar

open TokenReader

section

variable
  {budget bound : Nat}
  {unary : TokenReader Unary}
  (unarySound : Sound unary (Within bound Unary.nesting Unary.Written))
  (unaryPromising : Promising unary Unary.Written)

include unarySound unaryPromising

theorem promising_multiplication :
    Promising (multiplication budget unary) Multiplication.Written := by
  have factorSound := unarySound.mono fun _ _ => And.left
  rw [multiplication_eq_followed]
  apply Promising.followed factorSound unaryPromising
  · intro used first written
    exact ⟨[], _, .mk written .nil⟩
  · intro used first written
    apply Promising.followed (sound_repeated factorSound budget)
      (promising_repeated factorSound unaryPromising budget)
    · intro laterUsed later laterWritten
      exact .of_written (.mk written laterWritten)
    · intro laterUsed later _
      exact .done _ _

/-- Up to where the reader of a sum fails, the tokens begin an addition. -/
theorem promising_additionOf :
    Promising (additionOf budget unary) Addition.Written := by
  have termSound : Sound (multiplication budget unary) Multiplication.Written :=
    (sound_multiplication unarySound).mono fun _ _ => And.left
  have termPromising : Promising (multiplication budget unary) Multiplication.Written :=
    promising_multiplication unarySound unaryPromising
  rw [additionOf_eq_followed]
  apply Promising.followed termSound termPromising
  · intro used first written
    exact ⟨[], _, .mk written .nil⟩
  · intro used first written
    apply Promising.followed (sound_repeated termSound budget)
      (promising_repeated termSound termPromising budget)
    · intro laterUsed later laterWritten
      exact .of_written (.mk written laterWritten)
    · intro laterUsed later _
      exact .done _ _

end

section

variable
  {budget bound : Nat}
  {addition : TokenReader Addition}
  (additionSound : Sound addition (Within bound Addition.nesting Addition.Written))
  (additionPromising : Promising addition Addition.Written)

include additionSound additionPromising

/-- Up to where the reader of arguments fails, they can be completed behind their parenthesis. -/
theorem promising_argumentItems
    {opening : Token}
    (opens : opening.kind = .openParen) :
    Promising (argumentItems budget addition)
      (fun used found => WritesArguments Addition.Written (opening :: used) found) := by
  have itemSound := additionSound.mono fun _ _ => And.left
  rw [argumentItems_eq_selected]
  apply Promising.selected
  · intro _ close _
    exact .done _ _
  · apply Promising.followed itemSound additionPromising
    · intro used first written
      exact ⟨[.ofKind .closeParen], _, .some opens written .nil rfl⟩
    · intro used first written
      apply Promising.followed (sound_repeated itemSound budget)
        (promising_repeated itemSound additionPromising budget)
      · intro laterUsed later laterWritten
        exact ⟨[.ofKind .closeParen], _, .some opens written laterWritten rfl⟩
      · intro laterUsed later laterWritten
        apply Promising.followed (sound_exactly _ _) (promising_exactly _ _)
        · rintro _ close ⟨rfl, closes⟩
          exact .of_written (.some opens written laterWritten closes)
        · intro _ close _
          exact .done _ _

/-- Up to where the reader of a parenthesis with arguments fails, both can be completed. -/
theorem promising_arguments :
    Promising (arguments budget addition) (WritesArguments Addition.Written) := by
  rw [arguments_eq_followed]
  apply Promising.followed (sound_exactly _ _) (promising_exactly _ _)
  · rintro _ opening ⟨rfl, opens⟩
    exact ⟨[.ofKind .closeParen], _, .none opens rfl⟩
  · rintro _ opening ⟨rfl, opens⟩
    exact promising_argumentItems additionSound additionPromising opens

/-- Where arguments may be missing, nothing completes as well. -/
theorem promising_arguments? :
    Promising (arguments? budget addition) (WritesArguments? Addition.Written) := by
  have itemSound : Sound addition Addition.Written := additionSound.mono fun _ _ => And.left
  rw [arguments?_eq_selected]
  apply Promising.selected
  · intro _ opening found
    have opens := only?_eq_some_iff.mp found
    apply Promising.followed (sound_argumentItems itemSound opens)
      (promising_argumentItems additionSound additionPromising opens)
    · intro used found written
      have called : WritesArguments? Addition.Written (opening :: used) (some found) :=
        written
      exact .of_written called
    · intro used found _
      exact .done _ _
  · exact .done none _

omit additionPromising in
/-- What is read as arguments is written as arguments, or nothing is. -/
theorem sound_called :
    Sound (arguments? budget addition) (WritesArguments? Addition.Written) := by
  intro tokens called rest read
  rcases sound_arguments? additionSound read with
    ⟨rfl, rfl⟩ | ⟨found, used, rfl, rfl, written⟩
  · exact ⟨[], rfl, rfl⟩
  · exact ⟨used, rfl, (writesArguments_within_iff.mp written).1⟩

theorem promising_link
    {dot : Token}
    (points : dot.kind = .dot) :
    Promising (link budget addition dot) (fun used tree => Link.Written (dot :: used) tree) := by
  rw [link_eq_followed]
  apply Promising.followed (sound_name _) (promising_name _)
  · rintro _ _ ⟨named⟩
    exact .of_written (.field points named)
  · rintro _ _ ⟨named⟩
    apply Promising.followed (sound_called additionSound)
      (promising_arguments? additionSound additionPromising)
    · rintro used (_ | ⟨items, close⟩) written
      · obtain rfl : used = [] := written
        exact .of_written (.field points named)
      · exact .of_written (.call points named written)
    · intro used called _
      exact .done _ _

theorem promising_links (steps : Nat) :
    Promising (links budget addition steps) (Joined Link.Written) := by
  induction steps with
  | zero =>
      exact .done [] _
  | succ steps inductionHypothesis =>
      rw [links_succ_eq_selected]
      apply Promising.selected
      · intro _ dot found
        have points := only?_eq_some_iff.mp found
        apply Promising.followed
          ((sound_link additionSound points).mono fun _ _ => And.left)
          (promising_link additionSound additionPromising points)
        · intro used first written
          exact ⟨[], _, .cons written .nil⟩
        · intro used first written
          apply Promising.followed
            ((sound_links additionSound steps).mono fun _ _ => And.left) inductionHypothesis
          · intro laterUsed later laterWritten
            exact .of_written (.cons written laterWritten)
          · intro laterUsed later _
            exact .done _ _
      · exact .done [] _

theorem promising_construction
    {keyword : Token}
    (isNew : keyword.kind = .new) :
    Promising (construction budget addition keyword)
      (fun used tree => Atom.Written (keyword :: used) tree) := by
  have itemSound : Sound addition Addition.Written := additionSound.mono fun _ _ => And.left
  have noArguments :
      WritesArguments Addition.Written [.ofKind .openParen, .ofKind .closeParen]
        ([], .ofKind .closeParen) :=
    .none rfl rfl
  rw [construction_eq_followed]
  apply Promising.followed (sound_name _) (promising_name _)
  · intro firstUsed first firstWritten
    have written := Atom.Written.construction isNew (.mk firstWritten .nil) noArguments
    exact ⟨_, _, by rwa [List.append_nil] at written⟩
  · intro firstUsed first firstWritten
    apply Promising.followed (sound_repeated (sound_name _) budget)
      (promising_repeated (sound_name _) (promising_name _) budget)
    · intro laterUsed later laterWritten
      have written :=
        Atom.Written.construction isNew (.mk firstWritten laterWritten) noArguments
      rw [List.cons_append, List.append_assoc] at written
      exact ⟨_, _, written⟩
    · intro laterUsed later laterWritten
      apply Promising.followed (sound_arguments itemSound)
        (promising_arguments additionSound additionPromising)
      · intro used found written
        have whole := Atom.Written.construction isNew (.mk firstWritten laterWritten) written
        rw [List.cons_append, List.append_assoc] at whole
        exact .of_written whole
      · intro used found _
        exact .done _ _

/-- Up to where the reader of a group fails, the tokens begin a group. -/
theorem promising_group
    {opening : Token}
    (opens : opening.kind = .openParen) :
    Promising (group addition opening)
      (fun used tree => Atom.Written (opening :: used) tree) := by
  rw [group_eq_followed]
  apply Promising.followed (additionSound.mono fun _ _ => And.left) additionPromising
  · intro used inner written
    exact ⟨[.ofKind .closeParen], _, .group opens written rfl⟩
  · intro used inner written
    apply Promising.followed (sound_exactly _ _) (promising_exactly _ _)
    · rintro _ close ⟨rfl, closes⟩
      exact .of_written (.group opens written closes)
    · intro _ close _
      exact .done _ _

/-- Behind a name a call may begin, or the name stands alone. -/
theorem promising_nameOrCall
    {token : Token}
    {identifier : String}
    (named : token.kind = .identifier identifier) :
    Promising (nameOrCall budget addition identifier token)
      (fun used tree => Atom.Written (token :: used) tree) := by
  rw [nameOrCall_eq_followed]
  apply Promising.followed (sound_called additionSound)
    (promising_arguments? additionSound additionPromising)
  · rintro used (_ | ⟨items, close⟩) written
    · obtain rfl : used = [] := written
      exact .of_written (.name named)
    · exact .of_written (.call named written)
  · intro used called _
    exact .done _ _

/-- Up to where the reader of atoms fails, the tokens begin an atom. -/
theorem promising_atom : Promising (atom budget addition) Atom.Written := by
  rw [atom_eq_selected]
  apply Promising.selected
  · intro start token found
    have kind := eq_of_atomStart? found
    cases start with
    | number value => exact .done _ _
    | identifier name => exact promising_nameOrCall additionSound additionPromising kind
    | new => exact promising_construction additionSound additionPromising kind
    | openParen => exact promising_group additionSound additionPromising kind
    | _ =>
        rw [kind] at found
        cases found
  · have start : Atom.Written [.ofKind (.number 0)] (.number .blank 0) := .number rfl
    exact .fail (.nil_of_written start) (.expected _)

theorem promising_primary : Promising (primary budget addition) Primary.Written := by
  rw [primary_eq_followed]
  apply Promising.followed ((sound_atom additionSound).mono fun _ _ => And.left)
    (promising_atom additionSound additionPromising)
  · intro used first written
    exact ⟨[], _, .mk written .nil⟩
  · intro used first written
    apply Promising.followed ((sound_links additionSound budget).mono fun _ _ => And.left)
      (promising_links additionSound additionPromising budget)
    · intro chainUsed chain chainWritten
      exact .of_written (.mk written chainWritten)
    · intro chainUsed chain _
      exact .done _ _

/-- Up to where the reader of a sign or an operand fails, the tokens begin a signed operand. -/
theorem promising_signedOr
    {operand : TokenReader Unary}
    (operandSound : Sound operand Unary.Written)
    (operandPromising : Promising operand Unary.Written) :
    Promising (signedOr budget operand addition) Unary.Written := by
  rw [signedOr_eq_selected]
  apply Promising.selected
  · intro sign token found
    apply Promising.followed operandSound operandPromising
    · intro used inner written
      exact .of_written (.signed found written)
    · intro used inner _
      exact .done _ _
  · apply Promising.followed ((sound_primary additionSound).mono fun _ _ => And.left)
      (promising_primary additionSound additionPromising)
    · intro used inner written
      exact .of_written (.primary written)
    · intro used inner _
      exact .done _ _

end

/-- Up to where the reader of operands fails, the tokens begin an operand, whatever its room. -/
theorem promising_unary (budget room : Nat) :
    Promising (unary budget room) Unary.Written := by
  induction room with
  | zero =>
      have noneRead :
          Sound (fail .tooDeep) (Within 0 Addition.nesting Addition.Written) :=
        sound_fail
      exact promising_signedOr noneRead (.fail completable_addition .tooDeep) sound_fail
        (.fail completable_unary .tooDeep)
  | succ room inductionHypothesis =>
      have unarySound := sound_unary budget room
      exact promising_signedOr (sound_additionOf unarySound)
        (promising_additionOf unarySound inductionHypothesis)
        (unarySound.mono fun _ _ => And.left) inductionHypothesis

/-- Up to where the reader of additions fails, the tokens begin an addition. -/
theorem promising_addition (budget room : Nat) :
    Promising (addition budget room) Addition.Written := by
  cases room with
  | zero =>
      exact .fail completable_addition .tooDeep
  | succ room =>
      exact promising_additionOf (sound_unary budget room) (promising_unary budget room)

end Grammar

end PlanarExpr
