import PlanarExpr.Json
import PlanarExpr.Proofs.JsonGrammar

namespace PlanarExpr

/-!
# How numbers are written

Every integer and every finite floating point number is written as the grammar
has it. The shortest digits of a number other than zero are not all zeros, so
they begin with another digit, and a leading zero stands alone before a point
whatever the layout. Infinities and the value that is no number are written as
names, and these are not in the grammar.
-/

open Json (IsWhole IsFraction IsExponent IsMagnitude IsNumber)

/-! ## Digits of natural numbers -/

namespace Text

/-- A natural number is written in digits. -/
theorem isDigit_of_mem_natural
    {number : Nat}
    {c : Char}
    (member : c ∈ natural number) :
    Decimal.isDigit c = true := by
  have digit := Nat.isDigit_of_mem_toDigits (by decide) (by decide) member
  simpa [Char.isDigit, Decimal.isDigit, Char.le_def] using digit

/-- Only zero is written with a zero in front. -/
theorem exists_natural_eq_cons
    {number : Nat}
    (positive : 0 < number) :
    ∃ first rest, natural number = first :: rest ∧ first ≠ '0' := by
  induction number using Nat.strongRecOn with
  | ind number inductionHypothesis =>
      by_cases single : number < 10
      · have noZero : ∀ digit < 10, 0 < digit → Nat.digitChar digit ≠ '0' := by decide
        exact ⟨_, [], Nat.toDigits_of_lt_base single, noZero number single positive⟩
      · have shorter : 0 < number / 10 ∧ number / 10 < number := by omega
        obtain ⟨first, rest, leading, noZero⟩ :=
          inductionHypothesis (number / 10) shorter.2 shorter.1
        rw [natural] at leading
        refine ⟨first, rest ++ [Nat.digitChar (number % 10)], ?_, noZero⟩
        rw [natural, Nat.toDigits_of_base_le (by decide) (by omega), leading]
        rfl

/-- A natural number is written as the part of a number before its point. -/
theorem isWhole_natural (number : Nat) : IsWhole (natural number) := by
  rcases Nat.eq_zero_or_pos number with rfl | positive
  · exact .zero
  · obtain ⟨first, rest, shape, noZero⟩ := exists_natural_eq_cons positive
    have digits : ∀ c ∈ natural number, Decimal.isDigit c = true :=
      fun c => isDigit_of_mem_natural
    rw [shape] at digits ⊢
    exact .leading noZero digits

theorem isMagnitude_natural (number : Nat) : IsMagnitude (natural number) := by
  have magnitude := IsMagnitude.mk (isWhole_natural number) .absent .absent
  rwa [List.append_nil, List.append_nil] at magnitude

/-- An integer is written as a number. -/
theorem isNumber_integer (number : Int) : IsNumber (integer number).toList := by
  unfold integer
  by_cases negative : number < 0
  · rw [if_pos negative, String.toList_ofList]
    exact .negative (isMagnitude_natural _)
  · rw [if_neg negative, String.toList_ofList]
    exact .unsigned (isMagnitude_natural _)

end Text

namespace Decimal

/-! ## The shortest digits are not zero -/

/-- Digits that read back to a number other than zero are not zero. -/
theorem Binary.digits_ne_zero_of_readsBack
    {x : Binary}
    {grid : Int}
    {digits : Nat}
    (positive : x.significand ≠ 0)
    (reads : x.readsBack grid digits = true) :
    digits ≠ 0 := by
  rintro rfl
  have lowerPositive (below : Nat) (near : below ≤ 2) :
      0 < x.onGrid (4 * x.significand - below) grid := by
    have quarters : 0 < 4 * x.significand - below := by omega
    exact Nat.mul_pos (Nat.mul_pos quarters (Nat.pow_pos (by decide))) (Nat.pow_pos (by decide))
  have lower := lowerPositive (if x.narrowBelow then 1 else 2) (by split <;> decide)
  simp only [readsBack, Nat.zero_mul] at reads
  split at reads
  · simp only [Bool.and_eq_true, decide_eq_true_eq] at reads
    omega
  · simp only [Bool.and_eq_true, decide_eq_true_eq] at reads
    omega

/-- The nearest digits on a grid, if there are any, read back. -/
theorem Binary.readsBack_of_nearestOn?
    {x : Binary}
    {grid : Int}
    {digits : Nat}
    (nearest : x.nearestOn? grid = some digits) :
    x.readsBack grid digits = true := by
  simp only [nearestOn?] at nearest
  generalize x.onGrid (4 * x.significand) grid = value at nearest
  generalize x.gridUnit grid = unit at nearest
  split at nearest
  · cases nearest
  · next below _ =>
      cases nearest
      exact below
  · next _ above =>
      cases nearest
      exact above
  · next below above =>
      have even : value / unit % 2 = 0 ∨ value / unit % 2 = 1 := by omega
      split at nearest
      · cases nearest
        exact below
      · split at nearest
        · cases nearest
          exact above
        · cases nearest
          rcases even with even | odd
          · rwa [even]
          · rwa [odd]

/-- The exact digits of a number other than zero are not zero. -/
theorem Binary.exact_digits_ne_zero
    {x : Binary}
    (positive : x.significand ≠ 0) :
    x.exact.digits ≠ 0 := by
  refine Nat.ne_of_gt (Nat.mul_pos (Nat.mul_pos ?_ ?_) ?_)
  · exact Nat.pos_of_ne_zero positive
  · exact Nat.pow_pos (by decide)
  · exact Nat.pow_pos (by decide)

/-- Dropping zeros at the end leaves digits that are not zero. -/
theorem Scaled.dropZeros_digits_ne_zero
    {number : Scaled}
    (positive : number.digits ≠ 0)
    (budget : Nat) :
    (number.dropZeros budget).digits ≠ 0 := by
  induction budget generalizing number with
  | zero => exact positive
  | succ budget inductionHypothesis =>
      unfold dropZeros
      split
      · refine inductionHypothesis ?_
        change number.digits / 10 ≠ 0
        omega
      · exact positive

/-- The shortest digits of a number other than zero are not zero. -/
theorem Binary.shortest_digits_ne_zero
    {x : Binary}
    (positive : x.significand ≠ 0) :
    x.shortest.digits ≠ 0 := by
  refine Scaled.dropZeros_digits_ne_zero ?_ _
  cases found :
      (List.range 17).findSome? fun (dropped : Nat) =>
        let grid := x.decimalScale - ((dropped : Int) + 1)
        (x.nearestOn? grid).map fun digits => Scaled.mk digits grid with
  | none => exact exact_digits_ne_zero positive
  | some number =>
      obtain ⟨dropped, -, isNearest⟩ := List.exists_of_findSome?_eq_some found
      obtain ⟨digits, nearest, rfl⟩ := Option.map_eq_some_iff.mp isNearest
      exact digits_ne_zero_of_readsBack positive (readsBack_of_nearestOn? nearest)

/-! ## Layouts -/

theorem isDigit_of_mem_zeros
    {count : Nat}
    {c : Char}
    (member : c ∈ List.replicate count '0') :
    isDigit c = true := by
  rw [List.eq_of_mem_replicate member]
  decide

theorem isFraction_zero : IsFraction ['.', '0'] :=
  .digits ⟨['0'], List.cons_ne_nil _ _, List.forall_mem_singleton.mpr rfl⟩

section

variable
  {first : Char}
  {rest : List Char}
  (noZero : first ≠ '0')
  (digits : ∀ c ∈ first :: rest, isDigit c = true)

include noZero digits

/-- A number laid out around its point has the magnitude of the grammar. -/
theorem isMagnitude_positional (lead : Int) :
    IsMagnitude (positional (first :: rest) lead) := by
  simp only [positional]
  split
  · let fraction : Digits :=
      ⟨List.replicate (lead.natAbs - 1) '0' ++ first :: rest,
        List.append_ne_nil_of_right_ne_nil _ (List.cons_ne_nil _ _),
        List.forall_mem_append.mpr ⟨fun _ => isDigit_of_mem_zeros, digits⟩⟩
    have magnitude := IsMagnitude.mk .zero (.digits fraction) .absent
    rwa [List.append_nil] at magnitude
  · split
    · next short =>
        let zeros := List.replicate (lead.toNat + 1 - (first :: rest).length) '0'
        have whole : IsWhole (first :: rest ++ zeros) :=
          .leading noZero (List.forall_mem_append.mpr ⟨digits, fun _ => isDigit_of_mem_zeros⟩)
        have magnitude := IsMagnitude.mk whole isFraction_zero .absent
        rwa [List.append_nil] at magnitude
    · next long =>
        obtain ⟨isFirst, areDigits⟩ := List.forall_mem_cons.mp digits
        have whole : IsWhole (first :: rest.take lead.toNat) :=
          .leading noZero
            (List.forall_mem_cons.mpr
              ⟨isFirst, fun c member => areDigits c (List.mem_of_mem_take member)⟩)
        have remains : rest.drop lead.toNat ≠ [] := by
          intro empty
          have := List.drop_eq_nil_iff.mp empty
          rw [List.length_cons] at long
          omega
        let fraction : Digits :=
          ⟨rest.drop lead.toNat, remains,
            fun c member => areDigits c (List.mem_of_mem_drop member)⟩
        have magnitude := IsMagnitude.mk whole (.digits fraction) .absent
        rwa [List.append_nil] at magnitude

/-- A number laid out with an exponent has the magnitude of the grammar. -/
theorem isMagnitude_scientific
    (exponentWidth : Nat)
    (lead : Int) :
    IsMagnitude (scientific exponentWidth (first :: rest) lead) := by
  obtain ⟨isFirst, areDigits⟩ := List.forall_mem_cons.mp digits
  have whole : IsWhole [first] :=
    .leading noZero (List.forall_mem_singleton.mpr isFirst)
  have fraction :
      IsFraction (if (first :: rest).length ≤ 1 then [] else '.' :: rest) := by
    cases rest with
    | nil => exact .absent
    | cons second rest => exact .digits ⟨second :: rest, List.cons_ne_nil _ _, areDigits⟩
  let exponentDigits : Digits :=
    ⟨Text.padLeft exponentWidth '0' (Text.natural lead.natAbs),
      List.append_ne_nil_of_right_ne_nil _ Nat.toDigits_ne_nil,
      List.forall_mem_append.mpr
        ⟨fun _ => isDigit_of_mem_zeros, fun _ => Text.isDigit_of_mem_natural⟩⟩
  have exponent :
      IsExponent ('e' :: (if lead < 0 then '-' else '+') :: exponentDigits.characters) := by
    split
    · exact .digits (.inl rfl) (.inr (.inr rfl)) exponentDigits
    · exact .digits (.inl rfl) (.inr (.inl rfl)) exponentDigits
  exact .mk whole fraction exponent

end

/-- Every layout writes the magnitude of the grammar. -/
theorem Layout.isMagnitude_magnitude
    (layout : Layout)
    (x : Binary) :
    IsMagnitude (layout.magnitude x) := by
  unfold magnitude
  split
  · exact .mk .zero isFraction_zero .absent
  · next positive =>
      have digits : ∀ c ∈ Text.natural x.shortest.digits, isDigit c = true :=
        fun c => Text.isDigit_of_mem_natural
      obtain ⟨first, rest, shape, noZero⟩ :=
        Text.exists_natural_eq_cons (Nat.pos_of_ne_zero (Binary.shortest_digits_ne_zero positive))
      simp only [shape] at digits ⊢
      split
      · exact isMagnitude_positional noZero digits _
      · exact isMagnitude_scientific noZero digits _ _

/-! ## Finite numbers -/

open Float.Model.UnpackedFloat (unpack unpackExponent unpackMantissa) in
/-- The exponent field of a number that is not finite is all ones. -/
theorem isFinite_iff_exponentField (x : Float) :
    x.isFinite = true ↔ x.toBits.toNat / Nat.pow 2 52 % Nat.pow 2 11 ≠ 2047 := by
  have field :
      @unpackExponent .binary64 x.toBits.toBitVec = -1#11 ↔
        x.toBits.toNat / Nat.pow 2 52 % Nat.pow 2 11 = 2047 := by
    rw [← BitVec.toNat_inj, unpackExponent, BitVec.toNat_cast, BitVec.extractLsb_toNat,
      Nat.shiftRight_eq_div_pow]
    exact Iff.rfl
  rw [ne_eq, ← field]
  change (unpack .binary64 x.toBits.toBitVec).isFinite = true ↔ _
  by_cases ones : @unpackExponent .binary64 x.toBits.toBitVec = -1#11
  · have special : unpack .binary64 x.toBits.toBitVec = _ := if_pos ones
    constructor
    · intro finite
      rw [special] at finite
      split at finite <;> cases finite
    · exact fun notOnes => absurd ones notOnes
  · have ordinary : unpack .binary64 x.toBits.toBitVec = _ := if_neg ones
    refine ⟨fun _ => ones, fun _ => ?_⟩
    by_cases small : @unpackExponent .binary64 x.toBits.toBitVec = 0#11
    · by_cases zero : @unpackMantissa .binary64 x.toBits.toBitVec = 0#52
      · rw [ordinary, if_pos small, dif_pos zero]
        rfl
      · rw [ordinary, if_pos small, dif_neg zero]
        rfl
    · rw [ordinary, if_neg small]
      rfl

/-- The parts of a number are finite exactly if it is neither infinite nor no number. -/
theorem Parts.ofFloat_finite_iff (x : Float) :
    x.isFinite = true ↔ ∃ negative magnitude, Parts.ofFloat x = .finite negative magnitude := by
  rw [isFinite_iff_exponentField]
  simp only [Parts.ofFloat]
  by_cases ones : x.toBits.toNat / Nat.pow 2 52 % Nat.pow 2 11 = 2047
  · rw [if_pos ones]
    constructor
    · exact fun notOnes => absurd ones notOnes
    · rintro ⟨negative, magnitude, isFinite⟩
      split at isFinite <;> cases isFinite
  · rw [if_neg ones]
    exact ⟨fun _ => ⟨_, _, rfl⟩, fun _ => ones⟩

/-- Every layout writes a finite number as the grammar has it. -/
theorem Layout.isNumber_render
    (layout : Layout)
    {x : Float}
    (finite : x.isFinite = true) :
    IsNumber (layout.render x).toList := by
  obtain ⟨negative, magnitude, parts⟩ := (Parts.ofFloat_finite_iff x).mp finite
  simp only [render, parts, String.toList_ofList]
  cases negative with
  | false => exact .unsigned (layout.isMagnitude_magnitude magnitude)
  | true => exact .negative (layout.isMagnitude_magnitude magnitude)

end Decimal

end PlanarExpr
