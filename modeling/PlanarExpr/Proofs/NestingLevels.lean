import PlanarExpr.Proofs.Writing

namespace PlanarExpr

/-!
# Levels of nesting

Every token of an expression lies inside a number of signs, groups and
argument lists: that is its level. A sign, a parenthesis or a name stands on
the level around it, what it opens is one level further in. The levels of the
tokens and the nesting that the reader has room for say the same, except that
the reader counts the outermost addition as well.
-/

mutual

/-- The level of each token of an addition, on a given level around it. -/
def Addition.levels (around : Nat) : Addition → List Nat
  | .mk _ first later => first.levels around ++ laterTermLevels around later

/-- The levels of the later terms, each behind its sign. -/
def laterTermLevels (around : Nat) : List (Sign × Multiplication) → List Nat
  | [] => []
  | (_, term) :: rest => around :: term.levels around ++ laterTermLevels around rest

/-- The level of each token of a multiplication. -/
def Multiplication.levels (around : Nat) : Multiplication → List Nat
  | .mk _ first later => first.levels around ++ laterFactorLevels around later

/-- The levels of the later factors, each behind its operator. -/
def laterFactorLevels (around : Nat) : List (Scaling × Unary) → List Nat
  | [] => []
  | (_, factor) :: rest => around :: factor.levels around ++ laterFactorLevels around rest

/-- The levels of a unary expression; what is signed lies one level further in. -/
def Unary.levels (around : Nat) : Unary → List Nat
  | .signed _ _ operand => around :: operand.levels (around + 1)
  | .primary operand => operand.levels around

/-- The level of each token of a primary. -/
def Primary.levels (around : Nat) : Primary → List Nat
  | .mk _ start chain => start.levels around ++ linkLevels around chain

/-- The level of each token of an atom; what its parentheses hold lies one level further in. -/
def Atom.levels (around : Nat) : Atom → List Nat
  | .number _ _ => [around]
  | .name _ _ => [around]
  | .call _ _ _ items =>
      around :: around :: argumentLevels (around + 1) items ++ [around]
  | .group _ inner => around :: inner.levels (around + 1) ++ [around]
  | .construction _ path items =>
      around :: List.replicate path.kinds.length around ++
        around :: argumentLevels (around + 1) items ++ [around]

/-- The levels of a chain, link by link. -/
def linkLevels (around : Nat) : List Link → List Nat
  | [] => []
  | first :: rest => first.levels around ++ linkLevels around rest

/-- The level of each token of a link; its arguments lie one level further in. -/
def Link.levels (around : Nat) : Link → List Nat
  | .field _ _ _ => [around, around]
  | .call _ _ _ items =>
      around :: around :: around :: argumentLevels (around + 1) items ++ [around]

/-- The levels of arguments between their parentheses. -/
def argumentLevels (around : Nat) : List Addition → List Nat
  | [] => []
  | first :: rest => first.levels around ++ laterArgumentLevels around rest

/-- The levels of the later arguments, each behind its comma. -/
def laterArgumentLevels (around : Nat) : List Addition → List Nat
  | [] => []
  | first :: rest => around :: first.levels around ++ laterArgumentLevels around rest

end

/-- How many signs, groups and argument lists each token of an expression lies inside. -/
def Expression.levels (expression : Expression) : List Nat :=
  expression.root.levels 0

/-! ## One level for each token -/

mutual

/-- An addition has a level for each of its tokens. -/
theorem Addition.length_levels
    (around : Nat) :
    ∀ tree : Addition, (tree.levels around).length = tree.kinds.length
  | .mk _ first later => by
      simp only [Addition.levels, Addition.kinds, List.length_append,
        first.length_levels, length_laterTermLevels around later]

theorem length_laterTermLevels
    (around : Nat) :
    ∀ later : List (Sign × Multiplication),
      (laterTermLevels around later).length = (laterTermKinds later).length
  | [] => rfl
  | (_, term) :: rest => by
      simp only [laterTermLevels, laterTermKinds, List.length_append, List.length_cons,
        term.length_levels, length_laterTermLevels around rest]

theorem Multiplication.length_levels
    (around : Nat) :
    ∀ tree : Multiplication, (tree.levels around).length = tree.kinds.length
  | .mk _ first later => by
      simp only [Multiplication.levels, Multiplication.kinds, List.length_append,
        first.length_levels, length_laterFactorLevels around later]

theorem length_laterFactorLevels
    (around : Nat) :
    ∀ later : List (Scaling × Unary),
      (laterFactorLevels around later).length = (laterFactorKinds later).length
  | [] => rfl
  | (_, factor) :: rest => by
      simp only [laterFactorLevels, laterFactorKinds, List.length_append, List.length_cons,
        factor.length_levels, length_laterFactorLevels around rest]

theorem Unary.length_levels
    (around : Nat) :
    ∀ tree : Unary, (tree.levels around).length = tree.kinds.length
  | .signed _ _ operand => by
      simp only [Unary.levels, Unary.kinds, List.length_cons, operand.length_levels]
  | .primary operand => by
      simp only [Unary.levels, Unary.kinds, operand.length_levels]

theorem Primary.length_levels
    (around : Nat) :
    ∀ tree : Primary, (tree.levels around).length = tree.kinds.length
  | .mk _ start chain => by
      simp only [Primary.levels, Primary.kinds, List.length_append, start.length_levels,
        length_linkLevels around chain]

theorem Atom.length_levels
    (around : Nat) :
    ∀ tree : Atom, (tree.levels around).length = tree.kinds.length
  | .number _ _ => rfl
  | .name _ _ => rfl
  | .call _ _ _ items => by
      simp only [Atom.levels, Atom.kinds, List.length_append, List.length_cons,
        length_argumentLevels (around + 1) items, List.length_nil]
  | .group _ inner => by
      simp only [Atom.levels, Atom.kinds, List.length_append, List.length_cons,
        inner.length_levels, List.length_nil]
  | .construction _ _ items => by
      simp only [Atom.levels, Atom.kinds, List.length_append, List.length_cons,
        List.length_replicate, length_argumentLevels (around + 1) items, List.length_nil]

theorem length_linkLevels
    (around : Nat) :
    ∀ chain : List Link, (linkLevels around chain).length = (linkKinds chain).length
  | [] => rfl
  | first :: rest => by
      simp only [linkLevels, linkKinds, List.length_append, first.length_levels,
        length_linkLevels around rest]

theorem Link.length_levels
    (around : Nat) :
    ∀ tree : Link, (tree.levels around).length = tree.kinds.length
  | .field _ _ _ => rfl
  | .call _ _ _ items => by
      simp only [Link.levels, Link.kinds, List.length_append, List.length_cons,
        length_argumentLevels (around + 1) items, List.length_nil]

theorem length_argumentLevels
    (around : Nat) :
    ∀ items : List Addition,
      (argumentLevels around items).length = (argumentKinds items).length
  | [] => rfl
  | first :: rest => by
      simp only [argumentLevels, argumentKinds, List.length_append, first.length_levels,
        length_laterArgumentLevels around rest]

theorem length_laterArgumentLevels
    (around : Nat) :
    ∀ items : List Addition,
      (laterArgumentLevels around items).length = (laterArgumentKinds items).length
  | [] => rfl
  | first :: rest => by
      simp only [laterArgumentLevels, laterArgumentKinds, List.length_append,
        List.length_cons, first.length_levels, length_laterArgumentLevels around rest]

end

/-! ## The deepest level -/

/-- Every addition takes a level of nesting. -/
theorem Addition.nesting_pos (tree : Addition) : 0 < tree.nesting := by
  obtain ⟨span, first, later⟩ := tree
  exact Nat.succ_pos _

section Deepest

variable {bound : Nat}

/-- Between parentheses and what stands in front of them, only what is inside matters. -/
theorem enclosedLevels_le_iff
    {around : Nat}
    (front : List Nat)
    (outside : ∀ level ∈ front, level = around)
    (inside : List Nat) :
    (∀ level ∈ front ++ inside ++ [around], level ≤ bound) ↔
      around ≤ bound ∧ ∀ level ∈ inside, level ≤ bound := by
  rw [List.forall_mem_append, List.forall_mem_append, List.forall_mem_singleton]
  constructor
  · rintro ⟨⟨-, within⟩, fits⟩
    exact ⟨fits, within⟩
  · rintro ⟨fits, within⟩
    exact ⟨⟨fun level member => outside level member ▸ fits, within⟩, fits⟩

mutual

/-- The reader counts one more than the deepest level of an addition: the addition itself. -/
theorem Addition.levels_le_iff
    (around : Nat) :
    ∀ tree : Addition,
      (∀ level ∈ tree.levels around, level ≤ bound) ↔ around + tree.nesting ≤ bound + 1
  | .mk _ first later => by
      have ofFirst := first.levels_le_iff around
      rw [Addition.levels, List.forall_mem_append, ofFirst, Addition.nesting]
      constructor
      · rintro ⟨firstFits, laterFits⟩
        have fits := (laterTermLevels_le_iff (by omega) later).mp laterFits
        omega
      · intro fits
        exact ⟨by omega, (laterTermLevels_le_iff (by omega) later).mpr (by omega)⟩

/-- The terms behind a first one lie as deep as the reader counts. -/
theorem laterTermLevels_le_iff
    {around : Nat}
    (inside : around ≤ bound) :
    ∀ later : List (Sign × Multiplication),
      (∀ level ∈ laterTermLevels around later, level ≤ bound) ↔
        around + laterTermNesting later ≤ bound
  | [] => by simpa [laterTermLevels, laterTermNesting] using inside
  | (_, term) :: rest => by
      rw [laterTermLevels, List.cons_append, List.forall_mem_cons, List.forall_mem_append,
        term.levels_le_iff around, laterTermLevels_le_iff inside rest, laterTermNesting]
      omega

theorem Multiplication.levels_le_iff
    (around : Nat) :
    ∀ tree : Multiplication,
      (∀ level ∈ tree.levels around, level ≤ bound) ↔ around + tree.nesting ≤ bound
  | .mk _ first later => by
      have ofFirst := first.levels_le_iff around
      rw [Multiplication.levels, List.forall_mem_append, ofFirst, Multiplication.nesting]
      constructor
      · rintro ⟨firstFits, laterFits⟩
        have fits := (laterFactorLevels_le_iff (by omega) later).mp laterFits
        omega
      · intro fits
        exact ⟨by omega, (laterFactorLevels_le_iff (by omega) later).mpr (by omega)⟩

theorem laterFactorLevels_le_iff
    {around : Nat}
    (inside : around ≤ bound) :
    ∀ later : List (Scaling × Unary),
      (∀ level ∈ laterFactorLevels around later, level ≤ bound) ↔
        around + laterFactorNesting later ≤ bound
  | [] => by simpa [laterFactorLevels, laterFactorNesting] using inside
  | (_, factor) :: rest => by
      rw [laterFactorLevels, List.cons_append, List.forall_mem_cons, List.forall_mem_append,
        factor.levels_le_iff around, laterFactorLevels_le_iff inside rest,
        laterFactorNesting]
      omega

theorem Unary.levels_le_iff
    (around : Nat) :
    ∀ tree : Unary,
      (∀ level ∈ tree.levels around, level ≤ bound) ↔ around + tree.nesting ≤ bound
  | .signed _ _ operand => by
      rw [Unary.levels, List.forall_mem_cons, operand.levels_le_iff (around + 1),
        Unary.nesting]
      omega
  | .primary operand => by
      rw [Unary.levels, operand.levels_le_iff around, Unary.nesting]

theorem Primary.levels_le_iff
    (around : Nat) :
    ∀ tree : Primary,
      (∀ level ∈ tree.levels around, level ≤ bound) ↔ around + tree.nesting ≤ bound
  | .mk _ start chain => by
      have ofStart := start.levels_le_iff around
      rw [Primary.levels, List.forall_mem_append, ofStart, Primary.nesting]
      constructor
      · rintro ⟨startFits, chainFits⟩
        have fits := (linkLevels_le_iff (by omega) chain).mp chainFits
        omega
      · intro fits
        exact ⟨by omega, (linkLevels_le_iff (by omega) chain).mpr (by omega)⟩

theorem Atom.levels_le_iff
    (around : Nat) :
    ∀ tree : Atom,
      (∀ level ∈ tree.levels around, level ≤ bound) ↔ around + tree.nesting ≤ bound
  | .number _ _ => by simp [Atom.levels, Atom.nesting]
  | .name _ _ => by simp [Atom.levels, Atom.nesting]
  | .call _ _ _ items => by
      rw [Atom.levels, Atom.nesting, ← argumentLevels_le_iff around items]
      exact enclosedLevels_le_iff [around, around] (by simp) _
  | .group _ inner => by
      have counts := inner.nesting_pos
      rw [Atom.levels, Atom.nesting]
      refine (enclosedLevels_le_iff [around] (by simp) _).trans ?_
      rw [inner.levels_le_iff (around + 1)]
      omega
  | .construction _ path items => by
      rw [Atom.levels, Atom.nesting, ← argumentLevels_le_iff around items]
      have outside :
          ∀ level ∈ around :: List.replicate path.kinds.length around ++ [around],
            level = around :=
        List.forall_mem_append.mpr
          ⟨List.forall_mem_cons.mpr ⟨rfl, fun _ => List.eq_of_mem_replicate⟩,
            List.forall_mem_singleton.mpr rfl⟩
      refine Iff.trans ?_ (enclosedLevels_le_iff _ outside (argumentLevels (around + 1) items))
      simp only [List.append_assoc, List.cons_append, List.nil_append]

theorem linkLevels_le_iff
    {around : Nat}
    (inside : around ≤ bound) :
    ∀ chain : List Link,
      (∀ level ∈ linkLevels around chain, level ≤ bound) ↔
        around + linkNesting chain ≤ bound
  | [] => by simpa [linkLevels, linkNesting] using inside
  | first :: rest => by
      rw [linkLevels, List.forall_mem_append, first.levels_le_iff around,
        linkLevels_le_iff inside rest, linkNesting]
      omega

theorem Link.levels_le_iff
    (around : Nat) :
    ∀ tree : Link,
      (∀ level ∈ tree.levels around, level ≤ bound) ↔ around + tree.nesting ≤ bound
  | .field _ _ _ => by simp [Link.levels, Link.nesting]
  | .call _ _ _ items => by
      rw [Link.levels, Link.nesting, ← argumentLevels_le_iff around items]
      exact enclosedLevels_le_iff [around, around, around] (by simp) _

/-- Arguments lie one level further in than their parentheses. -/
theorem argumentLevels_le_iff
    (around : Nat) :
    ∀ items : List Addition,
      (around ≤ bound ∧ ∀ level ∈ argumentLevels (around + 1) items, level ≤ bound) ↔
        around + argumentNesting items ≤ bound
  | [] => by simp [argumentLevels, argumentNesting]
  | first :: rest => by
      have ofFirst := first.levels_le_iff (around + 1)
      have counts := first.nesting_pos
      rw [argumentLevels, List.forall_mem_append, ofFirst, argumentNesting]
      constructor
      · rintro ⟨-, firstFits, restFits⟩
        have fits := (laterArgumentLevels_le_iff (by omega) rest).mp restFits
        omega
      · intro fits
        refine ⟨by omega, by omega, ?_⟩
        exact (laterArgumentLevels_le_iff (by omega) rest).mpr (by omega)

/-- The arguments behind a first one lie as deep as the reader counts. -/
theorem laterArgumentLevels_le_iff
    {around : Nat}
    (inside : around + 1 ≤ bound) :
    ∀ items : List Addition,
      (∀ level ∈ laterArgumentLevels (around + 1) items, level ≤ bound) ↔
        around + argumentNesting items ≤ bound
  | [] => by simpa [laterArgumentLevels, argumentNesting] using Nat.le_of_succ_le inside
  | first :: rest => by
      rw [laterArgumentLevels, List.cons_append, List.forall_mem_cons,
        List.forall_mem_append, first.levels_le_iff (around + 1),
        laterArgumentLevels_le_iff inside rest, argumentNesting]
      omega

end

end Deepest

/-- The levels stay within a bound exactly if the reader needs one more than that. -/
theorem Expression.levels_le_iff
    {bound : Nat}
    (expression : Expression) :
    (∀ level ∈ expression.levels, level ≤ bound) ↔ expression.nesting ≤ bound + 1 := by
  rw [Expression.levels, expression.root.levels_le_iff 0, Nat.zero_add]
  rfl

end PlanarExpr
