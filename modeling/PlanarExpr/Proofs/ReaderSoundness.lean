import PlanarExpr.Proofs.Writing

namespace PlanarExpr

/-!
# What a reader takes

Every reader of the grammar takes tokens that write the value it gives, and no
value is nested deeper than the room in which it was read. Each reader is
related to the readers it is made of, so the only induction over the grammar
is the one over the room.
-/

/-- A sequence of two steps succeeds only if both of them do. -/
theorem exists_of_bind_eq_ok
    {first : Except ε α}
    {next : α → Except ε β}
    {result : β}
    (succeeds : (first >>= next) = .ok result) :
    ∃ value, first = .ok value ∧ next value = .ok result := by
  cases first with
  | error fault =>
      cases succeeds
  | ok value =>
      exact ⟨value, rfl, succeeds⟩

@[simp] theorem ok_bind
    (value : α)
    (next : α → Except ε β) :
    ((Except.ok value : Except ε α) >>= next) = next value :=
  rfl

/-- Whatever a reader takes writes the value that it gives. -/
def TokenReader.Sound
    (reader : TokenReader α)
    (writes : List Token → α → Prop) :
    Prop :=
  ∀ ⦃tokens : List Token⦄ ⦃value : α⦄ ⦃rest : List Token⦄,
    reader tokens = .ok (value, rest) →
    ∃ used, tokens = used ++ rest ∧ writes used value

/-- Tokens write a tree that is nested no deeper than a bound. -/
def Within
    (bound : Nat)
    (nesting : α → Nat)
    (writes : List Token → α → Prop)
    (tokens : List Token)
    (tree : α) :
    Prop :=
  writes tokens tree ∧ nesting tree ≤ bound

/-- A bound on all separated items is a bound on each of them. -/
theorem separated_within_iff
    {separator? : Token.Kind → Option σ}
    {writes : List Token → α → Prop}
    {nesting : α → Nat}
    {bound : Nat}
    {tokens : List Token}
    {items : List (σ × α)} :
    Separated separator? (Within bound nesting writes) tokens items ↔
      Separated separator? writes tokens items ∧
        ∀ entry ∈ items, nesting entry.2 ≤ bound := by
  constructor
  · intro written
    induction written with
    | nil =>
        exact ⟨.nil, by simp⟩
    | cons found first _ inductionHypothesis =>
        refine ⟨.cons found first.1 inductionHypothesis.1, ?_⟩
        exact List.forall_mem_cons.mpr ⟨first.2, inductionHypothesis.2⟩
  · rintro ⟨written, bounded⟩
    induction written with
    | nil =>
        exact .nil
    | cons found first _ inductionHypothesis =>
        obtain ⟨firstBounded, restBounded⟩ := List.forall_mem_cons.mp bounded
        exact .cons found ⟨first, firstBounded⟩
          (inductionHypothesis restBounded)

/-- A bound on the nesting of a chain is a bound on each of its links. -/
theorem joined_within_iff
    {bound : Nat}
    {tokens : List Token}
    {chain : List Link} :
    Joined (Within bound Link.nesting Link.Written) tokens chain ↔
      Joined Link.Written tokens chain ∧ linkNesting chain ≤ bound := by
  constructor
  · intro written
    induction written with
    | nil =>
        exact ⟨.nil, by simp [linkNesting]⟩
    | cons first _ inductionHypothesis =>
        refine ⟨.cons first.1 inductionHypothesis.1, ?_⟩
        exact Nat.max_le.mpr ⟨first.2, inductionHypothesis.2⟩
  · rintro ⟨written, bounded⟩
    induction written with
    | nil =>
        exact .nil
    | cons first _ inductionHypothesis =>
        obtain ⟨firstBounded, restBounded⟩ := Nat.max_le.mp bounded
        exact .cons ⟨first, firstBounded⟩ (inductionHypothesis restBounded)

/-- A bound on the nesting of arguments is a bound on each of them. -/
theorem writesArguments_within_iff
    {writes : List Token → Addition → Prop}
    {bound : Nat}
    {tokens : List Token}
    {found : List Addition × Token} :
    WritesArguments (Within bound Addition.nesting writes) tokens found ↔
      WritesArguments writes tokens found ∧ argumentNesting found.1 ≤ bound := by
  constructor
  · intro written
    cases written with
    | none opens closes =>
        exact ⟨.none opens closes, by simp [argumentNesting]⟩
    | some opens first later closes =>
        obtain ⟨laterWritten, laterBounded⟩ := separated_within_iff.mp later
        refine ⟨.some opens first.1 laterWritten closes, ?_⟩
        rw [argumentNesting_le_iff, List.forall_mem_cons, List.forall_mem_map]
        exact ⟨first.2, laterBounded⟩
  · rintro ⟨written, bounded⟩
    cases written with
    | none opens closes =>
        exact .none opens closes
    | some opens first later closes =>
        rw [argumentNesting_le_iff, List.forall_mem_cons,
          List.forall_mem_map] at bounded
        exact .some opens ⟨first, bounded.1⟩
          (separated_within_iff.mpr ⟨later, bounded.2⟩) closes

namespace TokenReader

/-- A reader that fails takes nothing. -/
theorem sound_fail
    {fault : ParseFault}
    {writes : List Token → α → Prop} :
    Sound (fail fault) writes := by
  intro tokens value rest read
  cases read

/-- A token of a kind is taken. -/
theorem sound_exactly
    (kind : Token.Kind)
    (what : Expectation) :
    Sound (exactly kind what)
      (fun used token => used = [token] ∧ token.kind = kind) := by
  intro tokens value rest read
  cases tokens with
  | nil =>
      cases read
  | cons token behind =>
      simp only [exactly] at read
      split at read
      · next same =>
          cases read
          exact ⟨[_], rfl, rfl, same⟩
      · cases read

/-- A token that writes a name is taken. -/
theorem sound_name (what : Expectation) : Sound (name what) WritesName := by
  intro tokens value rest read
  cases tokens with
  | nil =>
      cases read
  | cons token behind =>
      simp only [name] at read
      split at read
      · next found named =>
          cases read
          exact ⟨[token], rfl, .mk named⟩
      · cases read

/-- What a repetition takes are items behind separators. -/
theorem sound_repeated
    {separator? : Token.Kind → Option σ}
    {item : TokenReader α}
    {writes : List Token → α → Prop}
    (itemSound : Sound item writes)
    (budget : Nat) :
    Sound (repeated separator? item budget) (Separated separator? writes) := by
  intro tokens items rest read
  induction budget generalizing tokens items with
  | zero =>
      cases read
      exact ⟨[], rfl, .nil⟩
  | succ budget inductionHypothesis =>
      cases tokens with
      | nil =>
          cases read
          exact ⟨[], rfl, .nil⟩
      | cons token behind =>
          unfold repeated at read
          split at read
          · cases read
            exact ⟨[], rfl, .nil⟩
          · next separator found =>
              obtain ⟨⟨value, afterItem⟩, itemRead, laterRead⟩ :=
                exists_of_bind_eq_ok read
              obtain ⟨⟨later, remaining⟩, restRead, finished⟩ :=
                exists_of_bind_eq_ok laterRead
              cases finished
              obtain ⟨used, rfl, itemWritten⟩ := itemSound itemRead
              obtain ⟨laterUsed, rfl, laterWritten⟩ :=
                inductionHypothesis restRead
              exact ⟨token :: used ++ laterUsed, by simp,
                .cons found itemWritten laterWritten⟩

end TokenReader

namespace Grammar

open TokenReader

/-- What the reader of products takes writes a multiplication. -/
theorem sound_multiplication
    {budget bound : Nat}
    {unary : TokenReader Unary}
    (unarySound : Sound unary (Within bound Unary.nesting Unary.Written)) :
    Sound (multiplication budget unary)
      (Within bound Multiplication.nesting Multiplication.Written) := by
  intro tokens tree rest read
  obtain ⟨⟨first, behind⟩, firstRead, laterRead⟩ := exists_of_bind_eq_ok read
  obtain ⟨⟨later, remaining⟩, repeatedRead, finished⟩ :=
    exists_of_bind_eq_ok laterRead
  cases finished
  obtain ⟨firstUsed, rfl, firstWritten, firstBounded⟩ := unarySound firstRead
  obtain ⟨laterUsed, rfl, laterFound⟩ :=
    sound_repeated unarySound budget repeatedRead
  obtain ⟨laterWritten, laterBounded⟩ := separated_within_iff.mp laterFound
  refine ⟨firstUsed ++ laterUsed, by simp, .mk firstWritten laterWritten, ?_⟩
  exact Nat.max_le.mpr
    ⟨firstBounded, laterFactorNesting_le_iff.mpr laterBounded⟩

/-- An addition is nested one deeper than its factors. -/
theorem sound_additionOf
    {budget bound : Nat}
    {unary : TokenReader Unary}
    (unarySound : Sound unary (Within bound Unary.nesting Unary.Written)) :
    Sound (additionOf budget unary)
      (Within (bound + 1) Addition.nesting Addition.Written) := by
  intro tokens tree rest read
  have termSound :
      Sound (multiplication budget unary)
        (Within bound Multiplication.nesting Multiplication.Written) :=
    sound_multiplication unarySound
  obtain ⟨⟨first, behind⟩, firstRead, laterRead⟩ := exists_of_bind_eq_ok read
  obtain ⟨⟨later, remaining⟩, repeatedRead, finished⟩ :=
    exists_of_bind_eq_ok laterRead
  cases finished
  obtain ⟨firstUsed, rfl, firstWritten, firstBounded⟩ := termSound firstRead
  obtain ⟨laterUsed, rfl, laterFound⟩ :=
    sound_repeated termSound budget repeatedRead
  obtain ⟨laterWritten, laterBounded⟩ := separated_within_iff.mp laterFound
  refine ⟨firstUsed ++ laterUsed, by simp, .mk firstWritten laterWritten, ?_⟩
  exact Nat.succ_le_succ
    (Nat.max_le.mpr ⟨firstBounded, laterTermNesting_le_iff.mpr laterBounded⟩)

section Arguments

variable
  {budget : Nat}
  {addition : TokenReader Addition}
  {writes : List Token → Addition → Prop}
  (additionSound : Sound addition writes)

include additionSound

/-- What is read behind an opening parenthesis closes it. -/
theorem sound_argumentItems
    {opening : Token}
    (opens : opening.kind = .openParen) :
    Sound (argumentItems budget addition)
      (fun used found => WritesArguments writes (opening :: used) found) := by
  intro tokens found rest read
  unfold argumentItems at read
  split at read
  · next close behind closeRead =>
      cases read
      obtain ⟨used, rfl, rfl, closes⟩ := sound_exactly _ _ closeRead
      exact ⟨[close], rfl, .none opens closes⟩
  · obtain ⟨⟨first, behind⟩, firstRead, laterRead⟩ := exists_of_bind_eq_ok read
    obtain ⟨⟨later, remaining⟩, repeatedRead, closeRead⟩ :=
      exists_of_bind_eq_ok laterRead
    obtain ⟨⟨close, afterClose⟩, exactlyRead, finished⟩ :=
      exists_of_bind_eq_ok closeRead
    cases finished
    obtain ⟨firstUsed, rfl, firstWritten⟩ := additionSound firstRead
    obtain ⟨laterUsed, rfl, laterWritten⟩ :=
      sound_repeated additionSound budget repeatedRead
    obtain ⟨closeUsed, rfl, rfl, closes⟩ := sound_exactly _ _ exactlyRead
    exact ⟨firstUsed ++ (laterUsed ++ [close]), by simp,
      .some opens firstWritten laterWritten closes⟩

/-- What the reader of arguments takes writes arguments in their parentheses. -/
theorem sound_arguments :
    Sound (arguments budget addition) (WritesArguments writes) := by
  intro tokens found rest read
  obtain ⟨⟨opening, behind⟩, openingRead, itemsRead⟩ := exists_of_bind_eq_ok read
  obtain ⟨openingUsed, rfl, rfl, opens⟩ := sound_exactly _ _ openingRead
  obtain ⟨used, rfl, written⟩ := sound_argumentItems additionSound opens itemsRead
  exact ⟨opening :: used, rfl, written⟩

/-- What follows a name is nothing, or arguments in their parentheses. -/
theorem sound_arguments?
    {tokens rest : List Token}
    {called : Option (List Addition × Token)}
    (read : arguments? budget addition tokens = .ok (called, rest)) :
    (called = none ∧ tokens = rest) ∨
      ∃ found used,
        called = some found ∧ tokens = used ++ rest ∧
          WritesArguments writes used found := by
  cases tokens with
  | nil =>
      cases read
      exact .inl ⟨rfl, rfl⟩
  | cons token behind =>
      simp only [arguments?] at read
      split at read
      · next opens =>
          obtain ⟨⟨found, remaining⟩, itemsRead, finished⟩ :=
            exists_of_bind_eq_ok read
          cases finished
          obtain ⟨used, rfl, written⟩ :=
            sound_argumentItems additionSound opens itemsRead
          exact .inr ⟨found, token :: used, rfl, rfl, written⟩
      · cases read
        exact .inl ⟨rfl, rfl⟩

end Arguments

section Primaries

variable
  {budget bound : Nat}
  {addition : TokenReader Addition}
  (additionSound :
    Sound addition (Within bound Addition.nesting Addition.Written))

include additionSound

theorem sound_link
    {dot : Token}
    (points : dot.kind = .dot) :
    Sound (link budget addition dot)
      (fun used tree => Within bound Link.nesting Link.Written (dot :: used) tree) := by
  intro tokens tree rest read
  obtain ⟨⟨⟨member, token⟩, behind⟩, nameRead, calledRead⟩ :=
    exists_of_bind_eq_ok read
  obtain ⟨⟨called, remaining⟩, argumentsRead, finished⟩ :=
    exists_of_bind_eq_ok calledRead
  obtain ⟨nameUsed, rfl, ⟨named⟩⟩ := sound_name _ nameRead
  rcases sound_arguments? additionSound argumentsRead with
    ⟨rfl, rfl⟩ | ⟨⟨items, close⟩, used, rfl, rfl, found⟩
  · cases finished
    exact ⟨[token], rfl, .field points named, Nat.zero_le bound⟩
  · cases finished
    obtain ⟨itemsWritten, itemsBounded⟩ := writesArguments_within_iff.mp found
    exact ⟨token :: used, rfl, .call points named itemsWritten, itemsBounded⟩

/-- What the reader of chains takes writes links one behind the other. -/
theorem sound_links (steps : Nat) :
    Sound (links budget addition steps)
      (Within bound linkNesting (Joined Link.Written)) := by
  have joined :
      Sound (links budget addition steps)
        (Joined (Within bound Link.nesting Link.Written)) := by
    intro tokens chain rest read
    induction steps generalizing tokens chain with
    | zero =>
        cases read
        exact ⟨[], rfl, .nil⟩
    | succ steps inductionHypothesis =>
        cases tokens with
        | nil =>
            cases read
            exact ⟨[], rfl, .nil⟩
        | cons token behind =>
            unfold links at read
            split at read
            · next points =>
                obtain ⟨⟨first, afterLink⟩, linkRead, laterRead⟩ :=
                  exists_of_bind_eq_ok read
                obtain ⟨⟨later, remaining⟩, restRead, finished⟩ :=
                  exists_of_bind_eq_ok laterRead
                cases finished
                obtain ⟨used, rfl, firstWritten⟩ :=
                  sound_link additionSound points linkRead
                obtain ⟨laterUsed, rfl, laterWritten⟩ :=
                  inductionHypothesis restRead
                exact ⟨token :: used ++ laterUsed, by simp,
                  .cons firstWritten laterWritten⟩
            · cases read
              exact ⟨[], rfl, .nil⟩
  intro tokens chain rest read
  obtain ⟨used, shape, written⟩ := joined read
  exact ⟨used, shape, joined_within_iff.mp written⟩

theorem sound_construction
    {keyword : Token}
    (isNew : keyword.kind = .new) :
    Sound (construction budget addition keyword)
      (fun used tree =>
        Within bound Atom.nesting Atom.Written (keyword :: used) tree) := by
  intro tokens tree rest read
  obtain ⟨⟨first, behind⟩, firstRead, laterRead⟩ := exists_of_bind_eq_ok read
  obtain ⟨⟨later, afterPath⟩, repeatedRead, itemsRead⟩ :=
    exists_of_bind_eq_ok laterRead
  obtain ⟨⟨⟨items, close⟩, remaining⟩, argumentsRead, finished⟩ :=
    exists_of_bind_eq_ok itemsRead
  cases finished
  obtain ⟨firstUsed, rfl, firstWritten⟩ := sound_name _ firstRead
  obtain ⟨laterUsed, rfl, laterWritten⟩ :=
    sound_repeated (sound_name _) budget repeatedRead
  obtain ⟨itemsUsed, rfl, found⟩ := sound_arguments additionSound argumentsRead
  obtain ⟨itemsWritten, itemsBounded⟩ := writesArguments_within_iff.mp found
  exact ⟨firstUsed ++ laterUsed ++ itemsUsed, by simp,
    .construction isNew (.mk firstWritten laterWritten) itemsWritten,
    itemsBounded⟩

theorem sound_group
    {opening : Token}
    (opens : opening.kind = .openParen) :
    Sound (group addition opening)
      (fun used tree =>
        Within bound Atom.nesting Atom.Written (opening :: used) tree) := by
  intro tokens tree rest read
  obtain ⟨⟨inner, behind⟩, innerRead, closeRead⟩ := exists_of_bind_eq_ok read
  obtain ⟨⟨close, remaining⟩, exactlyRead, finished⟩ :=
    exists_of_bind_eq_ok closeRead
  cases finished
  obtain ⟨innerUsed, rfl, innerWritten, innerBounded⟩ := additionSound innerRead
  obtain ⟨closeUsed, rfl, rfl, closes⟩ := sound_exactly _ _ exactlyRead
  exact ⟨innerUsed ++ [close], by simp, .group opens innerWritten closes,
    innerBounded⟩

/-- Behind a name its arguments are read, if it is called. -/
theorem sound_nameOrCall
    {token : Token}
    {identifier : String}
    (named : token.kind = .identifier identifier) :
    Sound (nameOrCall budget addition identifier token)
      (fun used tree =>
        Within bound Atom.nesting Atom.Written (token :: used) tree) := by
  intro tokens tree rest read
  obtain ⟨⟨called, remaining⟩, argumentsRead, finished⟩ :=
    exists_of_bind_eq_ok read
  rcases sound_arguments? additionSound argumentsRead with
    ⟨rfl, rfl⟩ | ⟨⟨items, close⟩, used, rfl, rfl, found⟩
  · cases finished
    exact ⟨[], rfl, .name named, Nat.zero_le bound⟩
  · cases finished
    obtain ⟨itemsWritten, itemsBounded⟩ := writesArguments_within_iff.mp found
    exact ⟨used, rfl, .call named itemsWritten, itemsBounded⟩

/-- An atom is nested as deep as the additions inside it. -/
theorem sound_atom :
    Sound (atom budget addition) (Within bound Atom.nesting Atom.Written) := by
  intro tokens tree rest read
  cases tokens with
  | nil =>
      cases read
  | cons token behind =>
      simp only [atom] at read
      split at read
      · next value found =>
          cases read
          exact ⟨[token], rfl, .number found, Nat.zero_le bound⟩
      · next isNew =>
          obtain ⟨used, rfl, written⟩ := sound_construction additionSound isNew read
          exact ⟨token :: used, rfl, written⟩
      · next identifier named =>
          obtain ⟨used, rfl, written⟩ := sound_nameOrCall additionSound named read
          exact ⟨token :: used, rfl, written⟩
      · next opens =>
          obtain ⟨used, rfl, written⟩ := sound_group additionSound opens read
          exact ⟨token :: used, rfl, written⟩
      · cases read

theorem sound_primary :
    Sound (primary budget addition)
      (Within bound Primary.nesting Primary.Written) := by
  intro tokens tree rest read
  obtain ⟨⟨first, behind⟩, atomRead, chainRead⟩ := exists_of_bind_eq_ok read
  obtain ⟨⟨chain, remaining⟩, linksRead, finished⟩ :=
    exists_of_bind_eq_ok chainRead
  cases finished
  obtain ⟨atomUsed, rfl, atomWritten, atomBounded⟩ :=
    sound_atom additionSound atomRead
  obtain ⟨chainUsed, rfl, chainWritten, chainBounded⟩ :=
    sound_links additionSound budget linksRead
  exact ⟨atomUsed ++ chainUsed, by simp, .mk atomWritten chainWritten,
    Nat.max_le.mpr ⟨atomBounded, chainBounded⟩⟩

/-- A sign is nested one deeper than its operand. -/
theorem sound_signedOr
    {operand : TokenReader Unary}
    (operandSound :
      Sound operand (Within bound (fun tree => tree.nesting + 1) Unary.Written)) :
    Sound (signedOr budget operand addition)
      (Within bound Unary.nesting Unary.Written) := by
  intro tokens tree rest read
  cases tokens with
  | nil =>
      cases read
  | cons token behind =>
      simp only [signedOr] at read
      split at read
      · next sign found =>
          obtain ⟨⟨inner, remaining⟩, innerRead, finished⟩ :=
            exists_of_bind_eq_ok read
          cases finished
          obtain ⟨used, rfl, written, bounded⟩ := operandSound innerRead
          exact ⟨token :: used, rfl, .signed found written, bounded⟩
      · obtain ⟨⟨inner, remaining⟩, innerRead, finished⟩ :=
          exists_of_bind_eq_ok read
        cases finished
        obtain ⟨used, shape, written, bounded⟩ :=
          sound_primary additionSound innerRead
        exact ⟨used, shape, .primary written, bounded⟩

end Primaries

/-- In the given room no unary expression is nested deeper than the room. -/
theorem sound_unary (budget room : Nat) :
    Sound (unary budget room) (Within room Unary.nesting Unary.Written) := by
  induction room with
  | zero =>
      exact sound_signedOr sound_fail sound_fail
  | succ room inductionHypothesis =>
      apply sound_signedOr (sound_additionOf inductionHypothesis)
      intro tokens tree rest read
      obtain ⟨used, shape, written, bounded⟩ := inductionHypothesis read
      exact ⟨used, shape, written, Nat.succ_le_succ bounded⟩

/-- In the given room no addition is nested deeper than the room. -/
theorem sound_addition (budget room : Nat) :
    Sound (addition budget room)
      (Within room Addition.nesting Addition.Written) := by
  cases room with
  | zero =>
      exact sound_fail
  | succ room =>
      exact sound_additionOf (sound_unary budget room)

end Grammar

end PlanarExpr
