import PlanarExpr.Proofs.ReaderShapes

namespace PlanarExpr

/-!
# Readers look one token ahead

Where a reader stops, and whether it has found its value there, depends on the
kinds of the tokens up to that place and of the one token behind it. Nothing
changes if the input ends in front of that token, and more room for nesting
changes only the readings that had none left.
-/

/-- Some tokens are none, or they start with a token of the same kind as some others. -/
def StartsLike (rest rest' : List Token) : Prop :=
  ∀ token' ∈ rest'.head?, ∃ token ∈ rest.head?, token'.kind = token.kind

theorem startsLike_nil (rest : List Token) : StartsLike rest [] := by
  rintro token' ⟨⟩

theorem startsLike_cons
    {token token' : Token}
    (same : token'.kind = token.kind)
    (rest rest' : List Token) :
    StartsLike (token :: rest) (token' :: rest') := by
  rintro _ ⟨⟩
  exact ⟨token, rfl, same⟩

/-- Tokens of the same kinds in front keep what starts alike so. -/
theorem StartsLike.append
    {rest rest' : List Token}
    (alike : StartsLike rest rest')
    {used used' : List Token}
    (sameKinds : used'.map Token.kind = used.map Token.kind) :
    StartsLike (used ++ rest) (used' ++ rest') := by
  cases used with
  | nil =>
      rw [List.map_nil, List.map_eq_nil_iff] at sameKinds
      rw [sameKinds]
      exact alike
  | cons token more =>
      obtain ⟨token', more', rfl, same, _⟩ := List.map_eq_cons_iff.mp sameKinds
      exact startsLike_cons same _ _

namespace TokenReader

/--
The second reader ends where the first one does, and the same way, on tokens of
the same kinds that go on alike there. Readings without room are left out, and
the budgets cover the tokens.
-/
structure Follows
    (budget budget' : Nat)
    (reader reader' : TokenReader α) :
    Prop where
  leaves : ∀ tokens, (reader.ending tokens).2 <:+ tokens
  alike :
    ∀ ⦃used used' rest rest' : List Token⦄ ⦃fault? : Option ParseFault⦄,
      used'.map Token.kind = used.map Token.kind →
      StartsLike rest rest' →
      (used ++ rest).length ≤ budget →
      (used' ++ rest').length ≤ budget' →
      fault? ≠ some .tooDeep →
      reader.ending (used ++ rest) = (fault?, rest) →
      reader'.ending (used' ++ rest') = (fault?, rest')

namespace Follows

variable {budget budget' : Nat}

/-- A reader is followed within smaller budgets as well. -/
theorem mono
    {smaller smaller' : Nat}
    {reader reader' : TokenReader α}
    (follows : Follows budget budget' reader reader')
    (covers : smaller ≤ budget)
    (covers' : smaller' ≤ budget') :
    Follows smaller smaller' reader reader' where
  leaves := follows.leaves
  alike _ _ _ _ _ sameKinds starts fits fits' :=
    follows.alike sameKinds starts (Nat.le_trans fits covers) (Nat.le_trans fits' covers')

/-- Two readers that end at once in the same way. -/
theorem of_still
    {reader reader' : TokenReader α}
    (fault? : Option ParseFault)
    (still : ∀ tokens, reader.ending tokens = (fault?, tokens))
    (still' : ∀ tokens, reader'.ending tokens = (fault?, tokens)) :
    Follows budget budget' reader reader' where
  leaves tokens := by
    rewrite [still]
    exact List.suffix_rfl
  alike := by
    intro used used' rest rest' found? sameKinds _ _ _ _ ends
    obtain ⟨rfl, nothingUsed⟩ := Prod.mk.inj ((still _).symm.trans ends)
    obtain rfl : used = [] := List.append_left_eq_self.mp nothingUsed
    obtain rfl : used' = [] := List.map_eq_nil_iff.mp sameKinds
    exact still' rest'

/-- A reader that takes nothing is followed by any other such reader. -/
theorem done (value value' : α) :
    Follows budget budget' (TokenReader.done value) (TokenReader.done value') :=
  of_still none (fun _ => rfl) fun _ => rfl

/-- A reader that fails at once is followed by itself. -/
theorem fail (fault : ParseFault) :
    Follows budget budget' (TokenReader.fail fault : TokenReader α)
      (TokenReader.fail fault) :=
  of_still (some fault) (fun _ => rfl) fun _ => rfl

/-- A reader without room has nothing to be followed in. -/
theorem of_tooDeep (reader' : TokenReader α) :
    Follows budget budget' (TokenReader.fail .tooDeep) reader' where
  leaves _ := List.suffix_rfl
  alike := by
    intro used used' rest rest' fault? _ _ _ _ hasRoom ends
    exact absurd (Prod.mk.inj ends).1.symm hasRoom

/-- Where no token fits, only the end of the input counts. -/
theorem of_noBudget
    {reader reader' : TokenReader α}
    (leaves : ∀ tokens, (reader.ending tokens).2 <:+ tokens)
    (atEnd : reader'.ending [] = reader.ending []) :
    Follows 0 budget' reader reader' where
  leaves := leaves
  alike := by
    intro used used' rest rest' fault? sameKinds starts fits _ _ ends
    obtain ⟨rfl, rfl⟩ :=
      List.append_eq_nil_iff.mp (List.eq_nil_of_length_eq_zero (Nat.le_zero.mp fits))
    obtain rfl : used' = [] := List.map_eq_nil_iff.mp sameKinds
    cases rest' with
    | nil =>
        exact atEnd.trans ends
    | cons token behind =>
        obtain ⟨_, inside, _⟩ := starts token rfl
        cases inside

/-- A reader that goes on where another one stopped is followed in both parts. -/
theorem followed
    {first first' : TokenReader α}
    {next next' : α → TokenReader β}
    (firstFollows : Follows budget budget' first first')
    (nextFollows :
      ∀ value value', Follows budget budget' (next value) (next' value')) :
    Follows budget budget' (first.followed next) (first'.followed next') where
  leaves tokens := by
    have firstLeaves := firstFollows.leaves tokens
    cases read : first tokens with
    | error failure =>
        rw [ending_followed_of_error read]
        exact firstLeaves
    | ok found =>
        obtain ⟨value, behind⟩ := found
        rw [ending_of_ok read] at firstLeaves
        rw [ending_followed_of_ok read]
        exact ((nextFollows value value).leaves behind).trans firstLeaves
  alike := by
    intro used used' rest rest' fault? sameKinds starts fits fits' hasRoom ends
    cases read : first (used ++ rest) with
    | error failure =>
        rw [ending_followed_of_error read] at ends
        have firstEnds' := firstFollows.alike sameKinds starts fits fits' hasRoom ends
        obtain ⟨rfl, rfl⟩ := Prod.mk.inj ((ending_of_error read).symm.trans ends)
        rw [ending_followed_of_error (error_of_ending firstEnds')]
        exact firstEnds'
    | ok found =>
        obtain ⟨value, behind⟩ := found
        have firstEnds := ending_of_ok read
        rw [ending_followed_of_ok read] at ends
        -- The first reader stops within the tokens that both take, and the second goes on there.
        obtain ⟨more, rfl⟩ : rest <:+ behind := by
          have nextLeaves := (nextFollows value value).leaves behind
          rwa [ends] at nextLeaves
        obtain ⟨firstUsed, shape⟩ : more ++ rest <:+ used ++ rest := by
          have firstLeaves := firstFollows.leaves (used ++ rest)
          rwa [firstEnds] at firstLeaves
        obtain rfl : firstUsed ++ more = used := by
          rw [← List.append_assoc] at shape
          exact List.append_cancel_right shape
        rw [List.map_append] at sameKinds
        obtain ⟨firstUsed', more', rfl, firstKinds, moreKinds⟩ :=
          List.map_eq_append_iff.mp sameKinds
        rw [List.append_assoc] at fits fits' firstEnds ⊢
        have firstEnds' :=
          firstFollows.alike firstKinds (starts.append moreKinds) fits fits' (by simp)
            firstEnds
        obtain ⟨value', read'⟩ := exists_ok_of_ending firstEnds'
        rw [ending_followed_of_ok read']
        rw [List.length_append] at fits fits'
        exact (nextFollows value value').alike moreKinds starts
          (Nat.le_trans (Nat.le_add_left _ _) fits)
          (Nat.le_trans (Nat.le_add_left _ _) fits') hasRoom ends

/-- The kind of the next token leads two readers the same way. -/
theorem selected
    {choice? : Token.Kind → Option σ}
    {next next' : σ → Token → TokenReader α}
    {otherwise otherwise' : TokenReader α}
    (nextFollows :
      ∀ choice token token',
        Follows (budget - 1) (budget' - 1) (next choice token) (next' choice token'))
    (otherwiseFollows : Follows budget budget' otherwise otherwise') :
    Follows budget budget' (selected choice? next otherwise)
      (selected choice? next' otherwise') where
  leaves tokens := by
    cases tokens with
    | nil =>
        exact otherwiseFollows.leaves []
    | cons token rest =>
        cases found : choice? token.kind with
        | none =>
            rw [ending_selected_of_none (by simpa using found)]
            exact otherwiseFollows.leaves (token :: rest)
        | some choice =>
            rw [ending_selected_of_some found]
            exact ((nextFollows choice token token).leaves rest).trans
              (List.suffix_cons token rest)
  alike := by
    intro used used' rest rest' fault? sameKinds starts fits fits' hasRoom ends
    have startsAll := starts.append sameKinds
    by_cases undecided : ∀ token ∈ (used ++ rest).head?, choice? token.kind = none
    · have undecided' :
          ∀ token' ∈ (used' ++ rest').head?, choice? token'.kind = none := by
        intro token' first'
        obtain ⟨token, first, same⟩ := startsAll token' first'
        rw [same]
        exact undecided token first
      rw [ending_selected_of_none undecided] at ends
      rw [ending_selected_of_none undecided']
      exact otherwiseFollows.alike sameKinds starts fits fits' hasRoom ends
    · cases used with
      | nil =>
          cases rest with
          | nil =>
              exact absurd (by simp) undecided
          | cons token behind =>
              -- a reading that takes a token cannot end in front of it
              obtain ⟨choice, found⟩ : ∃ choice, choice? token.kind = some choice := by
                simpa [Option.ne_none_iff_exists'] using undecided
              rw [List.nil_append, ending_selected_of_some found] at ends
              have left := (nextFollows choice token token).leaves behind
              rw [ends] at left
              exact absurd left.length_le (by simp)
      | cons token more =>
          obtain ⟨token', more', rfl, same, moreKinds⟩ := List.map_eq_cons_iff.mp sameKinds
          obtain ⟨choice, found⟩ : ∃ choice, choice? token.kind = some choice := by
            simpa [Option.ne_none_iff_exists'] using undecided
          rw [List.cons_append, ending_selected_of_some found] at ends
          rw [List.cons_append, ending_selected_of_some (same ▸ found)]
          exact (nextFollows choice token token').alike moreKinds starts
            (Nat.le_sub_one_of_lt fits) (Nat.le_sub_one_of_lt fits') hasRoom ends

/-- The token that is asked for is found or missing alike. -/
theorem exactly
    (kind : Token.Kind)
    (what : Expectation) :
    Follows budget budget' (TokenReader.exactly kind what) (TokenReader.exactly kind what) := by
  rw [exactly_eq_selected]
  apply selected
  · intro _ token token'
    exact done token token'
  · exact fail _

/-- A name is found or missing alike. -/
theorem name (what : Expectation) :
    Follows budget budget' (TokenReader.name what) (TokenReader.name what) := by
  rw [name_eq_selected]
  apply selected
  · intro found token token'
    exact done _ _
  · exact fail _

/-- The steps of a repetition cover the tokens, as does the budget of its items. -/
theorem repeated_steps
    {separator? : Token.Kind → Option σ}
    {item item' : TokenReader α}
    (itemFollows : Follows budget budget' item item')
    {steps steps' : Nat}
    (larger : steps ≤ steps') :
    Follows (min budget steps) (min budget' steps')
      (TokenReader.repeated separator? item steps)
      (TokenReader.repeated separator? item' steps') := by
  induction steps generalizing steps' with
  | zero =>
      rw [Nat.min_zero]
      apply of_noBudget
      · intro tokens
        exact List.suffix_rfl
      · cases steps' <;> rfl
  | succ steps inductionHypothesis =>
      obtain ⟨steps', rfl⟩ := Nat.exists_eq_add_one_of_ne_zero (Nat.ne_zero_of_lt larger)
      rw [repeated_succ_eq_selected, repeated_succ_eq_selected]
      apply selected
      · intro separator _ _
        apply followed
        · apply itemFollows.mono <;> omega
        · intro value value'
          apply followed
          · apply (inductionHypothesis (Nat.le_of_succ_le_succ larger)).mono <;> omega
          · intro later later'
            exact done _ _
      · exact done [] []

/-- A repetition is followed where its items are. -/
theorem repeated
    {separator? : Token.Kind → Option σ}
    {item item' : TokenReader α}
    (larger : budget ≤ budget')
    (itemFollows : Follows budget budget' item item') :
    Follows budget budget' (TokenReader.repeated separator? item budget)
      (TokenReader.repeated separator? item' budget') := by
  simpa using itemFollows.repeated_steps larger

end Follows

end TokenReader

namespace Grammar

open TokenReader

section

variable
  {budget budget' : Nat}
  {unary unary' : TokenReader Unary}
  {addition addition' : TokenReader Addition}

theorem follows_multiplication
    (larger : budget ≤ budget')
    (unaryFollows : Follows budget budget' unary unary') :
    Follows budget budget' (multiplication budget unary) (multiplication budget' unary') := by
  rw [multiplication_eq_followed, multiplication_eq_followed]
  apply Follows.followed unaryFollows
  intro first first'
  apply Follows.followed (Follows.repeated larger unaryFollows)
  intro later later'
  exact .done _ _

/-- A reader of sums is followed where its terms are. -/
theorem follows_additionOf
    (larger : budget ≤ budget')
    (unaryFollows : Follows budget budget' unary unary') :
    Follows budget budget' (additionOf budget unary) (additionOf budget' unary') := by
  have termFollows := follows_multiplication larger unaryFollows
  rw [additionOf_eq_followed, additionOf_eq_followed]
  apply Follows.followed termFollows
  intro first first'
  apply Follows.followed (Follows.repeated larger termFollows)
  intro later later'
  exact .done _ _

variable
  (larger : budget ≤ budget')
  (additionFollows : Follows budget budget' addition addition')

include larger additionFollows

/-- A reader of arguments behind their parenthesis is followed where each argument is. -/
theorem follows_argumentItems :
    Follows budget budget' (argumentItems budget addition)
      (argumentItems budget' addition') := by
  rw [argumentItems_eq_selected, argumentItems_eq_selected]
  apply Follows.selected
  · intro _ close close'
    exact .done _ _
  · apply Follows.followed additionFollows
    intro first first'
    apply Follows.followed (Follows.repeated larger additionFollows)
    intro later later'
    apply Follows.followed (Follows.exactly _ _)
    intro close close'
    exact .done _ _

theorem follows_arguments :
    Follows budget budget' (arguments budget addition) (arguments budget' addition') := by
  rw [arguments_eq_followed, arguments_eq_followed]
  apply Follows.followed (Follows.exactly _ _)
  intro _ _
  exact follows_argumentItems larger additionFollows

/-- Whether arguments follow is told alike. -/
theorem follows_arguments? :
    Follows budget budget' (arguments? budget addition) (arguments? budget' addition') := by
  rw [arguments?_eq_selected, arguments?_eq_selected]
  apply Follows.selected
  · intro _ _ _
    apply Follows.followed
    · apply (follows_argumentItems larger additionFollows).mono <;> omega
    · intro found found'
      exact .done _ _
  · exact .done none none

theorem follows_link (dot dot' : Token) :
    Follows budget budget' (link budget addition dot) (link budget' addition' dot') := by
  rw [link_eq_followed, link_eq_followed]
  apply Follows.followed (Follows.name _)
  intro _ _
  apply Follows.followed (follows_arguments? larger additionFollows)
  intro called called'
  exact .done _ _

theorem follows_links
    {steps steps' : Nat}
    (longer : steps ≤ steps') :
    Follows (min budget steps) (min budget' steps') (links budget addition steps)
      (links budget' addition' steps') := by
  induction steps generalizing steps' with
  | zero =>
      rw [Nat.min_zero]
      apply Follows.of_noBudget
      · intro tokens
        exact List.suffix_rfl
      · cases steps' <;> rfl
  | succ steps inductionHypothesis =>
      obtain ⟨steps', rfl⟩ := Nat.exists_eq_add_one_of_ne_zero (Nat.ne_zero_of_lt longer)
      rw [links_succ_eq_selected, links_succ_eq_selected]
      apply Follows.selected
      · intro _ dot dot'
        apply Follows.followed
        · apply (follows_link larger additionFollows dot dot').mono <;> omega
        · intro first first'
          apply Follows.followed
          · apply (inductionHypothesis (Nat.le_of_succ_le_succ longer)).mono <;> omega
          · intro later later'
            exact .done _ _
      · exact .done [] []

theorem follows_construction (keyword keyword' : Token) :
    Follows budget budget' (construction budget addition keyword)
      (construction budget' addition' keyword') := by
  rw [construction_eq_followed, construction_eq_followed]
  apply Follows.followed (Follows.name _)
  intro _ _
  apply Follows.followed (Follows.repeated larger (Follows.name _))
  intro later later'
  apply Follows.followed (follows_arguments larger additionFollows)
  intro _ _
  exact .done _ _

omit larger in
/-- A reader of groups is followed. -/
theorem follows_group (opening opening' : Token) :
    Follows budget budget' (group addition opening) (group addition' opening') := by
  rw [group_eq_followed, group_eq_followed]
  apply Follows.followed additionFollows
  intro inner inner'
  apply Follows.followed (Follows.exactly _ _)
  intro close close'
  exact .done _ _

/-- Whether a name is called is told alike. -/
theorem follows_nameOrCall
    (identifier identifier' : String)
    (token token' : Token) :
    Follows budget budget' (nameOrCall budget addition identifier token)
      (nameOrCall budget' addition' identifier' token') := by
  rw [nameOrCall_eq_followed, nameOrCall_eq_followed]
  apply Follows.followed (follows_arguments? larger additionFollows)
  intro called called'
  exact .done _ _

/-- A reader of atoms is followed: its first token chooses alike. -/
theorem follows_atom :
    Follows budget budget' (atom budget addition) (atom budget' addition') := by
  rw [atom_eq_selected, atom_eq_selected]
  apply Follows.selected
  · intro start token token'
    have behindFollows :
        Follows budget budget' (atomBehind budget addition start token)
          (atomBehind budget' addition' start token') := by
      cases start with
      | number value => exact .done _ _
      | new => exact follows_construction larger additionFollows token token'
      | identifier name =>
          exact follows_nameOrCall larger additionFollows name name token token'
      | openParen => exact follows_group additionFollows token token'
      | _ => exact .fail _
    apply behindFollows.mono <;> omega
  · exact .fail _

theorem follows_primary :
    Follows budget budget' (primary budget addition) (primary budget' addition') := by
  rw [primary_eq_followed, primary_eq_followed]
  apply Follows.followed (follows_atom larger additionFollows)
  intro first first'
  apply Follows.followed
  · simpa using follows_links larger additionFollows larger
  · intro chain chain'
    exact .done _ _

/-- Whether an operand has a sign is told alike. -/
theorem follows_signedOr
    {operand operand' : TokenReader Unary}
    (operandFollows : Follows budget budget' operand operand') :
    Follows budget budget' (signedOr budget operand addition)
      (signedOr budget' operand' addition') := by
  rw [signedOr_eq_selected, signedOr_eq_selected]
  apply Follows.selected
  · intro sign token token'
    apply Follows.followed
    · apply operandFollows.mono <;> omega
    · intro inner inner'
      exact .done _ _
  · apply Follows.followed (follows_primary larger additionFollows)
    intro inner inner'
    exact .done _ _

end

/-- A reader of unary expressions is followed by one with at least as much room. -/
theorem follows_unary
    {budget budget' : Nat}
    (larger : budget ≤ budget')
    {room room' : Nat}
    (wider : room ≤ room') :
    Follows budget budget' (unary budget room) (unary budget' room') := by
  induction room generalizing room' with
  | zero =>
      cases room' with
      | zero => exact follows_signedOr larger (.of_tooDeep _) (.of_tooDeep _)
      | succ room' => exact follows_signedOr larger (.of_tooDeep _) (.of_tooDeep _)
  | succ room inductionHypothesis =>
      obtain ⟨room', rfl⟩ := Nat.exists_eq_add_one_of_ne_zero (Nat.ne_zero_of_lt wider)
      have innerFollows := inductionHypothesis (Nat.le_of_succ_le_succ wider)
      exact follows_signedOr larger (follows_additionOf larger innerFollows) innerFollows

/-- A reader of additions is followed by one with at least as much room. -/
theorem follows_addition
    {budget budget' : Nat}
    (larger : budget ≤ budget')
    {room room' : Nat}
    (wider : room ≤ room') :
    Follows budget budget' (addition budget room) (addition budget' room') := by
  cases room with
  | zero =>
      exact .of_tooDeep _
  | succ room =>
      obtain ⟨room', rfl⟩ := Nat.exists_eq_add_one_of_ne_zero (Nat.ne_zero_of_lt wider)
      exact follows_additionOf larger (follows_unary larger (Nat.le_of_succ_le_succ wider))

end Grammar

end PlanarExpr
