import Monomorph.Proofs.Constant.Arithmetic

/-! Powers of integers.

Repeated squaring computes the power modulo the word. Exponents that a count cannot hold
are refused, and those of more than 32 bits act as the largest one of 32 bits. A power
by such an exponent is the true one where the base is even, or where what was left out
of the exponent makes no difference.
-/

set_option autoImplicit false

namespace Monomorph

theorem Word.toNat_power_modEq {width : Nat} (within : width ≤ maxWidth) (base : Word) (exponent : Nat) :
    ((base.power exponent).toNat : Int) ≡ (base.toNat : Int) ^ exponent [ZMOD twoPow width] := by
  fun_induction Word.power base exponent with
  | case1 base => exact Int.ModEq.refl _
  | case2 base exponent positive half odd ih =>
    have split : exponent = 2 * (exponent / 2) + 1 := by omega
    calc ((base * half).toNat : Int)
        ≡ base.toNat * half.toNat [ZMOD twoPow width] := toNat_mul_modEq within _ _
      _ ≡ base.toNat * ((base * base).toNat : Int) ^ (exponent / 2) [ZMOD twoPow width] := ih.mul_left _
      _ ≡ base.toNat * (base.toNat * base.toNat : Int) ^ (exponent / 2) [ZMOD twoPow width] :=
        ((toNat_mul_modEq within base base).pow _).mul_left _
      _ = (base.toNat : Int) ^ (2 * (exponent / 2) + 1) := by rw [pow_succ', pow_mul, pow_two]
      _ = (base.toNat : Int) ^ exponent := by rw [← split]
  | case3 base exponent positive half even ih =>
    have split : exponent = 2 * (exponent / 2) := by omega
    calc (half.toNat : Int)
        ≡ ((base * base).toNat : Int) ^ (exponent / 2) [ZMOD twoPow width] := ih
      _ ≡ (base.toNat * base.toNat : Int) ^ (exponent / 2) [ZMOD twoPow width] :=
        (toNat_mul_modEq within base base).pow _
      _ = (base.toNat : Int) ^ (2 * (exponent / 2)) := by rw [pow_mul, pow_two]
      _ = (base.toNat : Int) ^ exponent := by rw [← split]

/-- A power by a smaller exponent is the same modulo a power of two when the base is even and both powers
vanish, or when the rest of the exponent makes no difference. -/
theorem pow_modEq_pow_iff {width least exponent : Nat} {base : Int} (enough : width ≤ least)
    (le : least ≤ exponent) :
    base ^ least ≡ base ^ exponent [ZMOD twoPow width] ↔
      Even base ∨ base ^ (exponent - least) ≡ 1 [ZMOD twoPow width] := by
  rcases Int.even_or_odd base with even | odd
  · have vanishes {many : Nat} (beyond : width ≤ many) : base ^ many ≡ 0 [ZMOD twoPow width] := by
      apply Int.modEq_zero_iff_dvd.mpr
      rw [twoPow_eq, Nat.cast_pow]
      exact (pow_dvd_pow_of_dvd (even_iff_two_dvd.mp even) width).trans (pow_dvd_pow base beyond)
    exact iff_of_true ((vanishes enough).trans (vanishes (Nat.le_trans enough le)).symm) (.inl even)
  · have coprime : IsCoprime ((twoPow width : Nat) : Int) (base ^ least) := by
      rw [twoPow_eq, Nat.cast_pow]
      exact (Int.isCoprime_two_left.mpr odd).pow
    have parts : base ^ exponent - base ^ least = base ^ least * (base ^ (exponent - least) - 1) := by
      rw [mul_sub, ← pow_add, Nat.add_sub_cancel' le, mul_one]
    rw [Int.modEq_iff_dvd, parts, Int.modEq_comm, Int.modEq_iff_dvd, or_iff_right (Int.not_even_iff_odd.mpr odd)]
    exact ⟨coprime.dvd_of_dvd_mul_left, fun divides => divides.mul_left _⟩

namespace IntValue

variable {a b : IntValue} {exponent : Nat}

theorem toCount?_eq (formed : b.WellFormed) :
    b.toCount? = if 0 ≤ b.toInt ∧ b.toInt < UInt64.size then some b.toInt.toNat else none := by
  have negative := isNegative_iff formed
  unfold toCount?
  split
  · rename_i below
    rw [if_neg (by have := negative.mp below; omega)]
  · rename_i above
    rw [toInt_of_isNegative_eq_false (by simpa using above), Int.toNat_natCast]
    split
    · rename_i small
      rw [if_pos (by omega)]
    · rename_i large
      rw [if_neg (by omega)]

theorem wraps_pow_of_lt (left : a.WellFormed) (right : b.WellFormed) (value : b.toInt = exponent)
    (small : exponent < UInt64.size) :
    a.Wraps b (a.beside b ^ min exponent (UInt32.size - 1)) (a.binary .pow b) := by
  have within := maxWidth_of_wellFormed left right
  have counted : b.toCount? = some exponent := by
    rw [toCount?_eq right, value, if_pos (by omega), Int.toNat_natCast]
  generalize most : UInt32.size - 1 = limit
  simp only [binary, counted, most]
  exact wraps_of_modEq ((Word.toNat_power_modEq within _ _).trans ((operand_left_modEq left right).pow _))

theorem binary_pow_eq_error_iff (left : a.WellFormed) (right : b.WellFormed) :
    a.binary .pow b = .error (.typeMismatch ("negative exponent " ++ b.text)) ↔
      b.toInt < 0 ∨ UInt64.size ≤ b.toInt := by
  by_cases inside : 0 ≤ b.toInt ∧ b.toInt < UInt64.size
  · obtain ⟨exponent, value⟩ := Int.eq_ofNat_of_zero_le inside.1
    obtain ⟨result, found, _⟩ := wraps_pow_of_lt left right value (by omega)
    rw [found]
    exact iff_of_false (by simp) (by omega)
  · have refused : b.toCount? = none := by rw [toCount?_eq right, if_neg inside]
    simp only [binary, refused, true_iff]
    omega

theorem Wraps.iff_modEq {exact other : Int} {outcome : Except EvalError Value} (wraps : a.Wraps b exact outcome) :
    a.Wraps b other outcome ↔ exact ≡ other [ZMOD twoPow (max a.width b.width)] := by
  obtain ⟨result, rfl, typed, bits⟩ := wraps
  constructor
  · rintro ⟨_, same, _, again⟩
    cases same
    exact bits.symm.trans again
  · intro agree
    exact ⟨result, rfl, typed, bits.trans agree⟩

/-- Where powers are the true ones. -/
theorem wraps_pow_iff (left : a.WellFormed) (right : b.WellFormed) (value : b.toInt = exponent) :
    a.Wraps b (a.beside b ^ exponent) (a.binary .pow b) ↔ exponent < UInt64.size ∧
      (exponent < UInt32.size ∨ Even (a.beside b) ∨
        a.beside b ^ (exponent - (UInt32.size - 1)) ≡ 1 [ZMOD twoPow (max a.width b.width)]) := by
  by_cases small : exponent < UInt64.size
  · rw [(wraps_pow_of_lt left right value small).iff_modEq, and_iff_right small]
    by_cases short : exponent < UInt32.size
    · rw [Nat.min_eq_left (Nat.le_sub_one_of_lt short)]
      exact iff_of_true (Int.ModEq.refl _) (.inl short)
    · have most : maxWidth ≤ UInt32.size - 1 := by decide
      have le : UInt32.size - 1 ≤ exponent := by omega
      rw [Nat.min_eq_right le, or_iff_right short]
      exact pow_modEq_pow_iff (Nat.le_trans (maxWidth_of_wellFormed left right) most) le
  · -- a refused power is no integer
    have refused := (binary_pow_eq_error_iff left right).mpr (.inr (by omega))
    refine iff_of_false ?_ fun inside => small inside.1
    rintro ⟨result, found, _⟩
    rw [refused] at found
    cases found

/-- What powers are: those of exponents up to 32 bits, and for which others they are the true ones. -/
structure Raises (a b : IntValue) : Prop where
  clamped : ∀ exponent : Nat, b.toInt = exponent → exponent < UInt64.size →
    a.Wraps b (a.beside b ^ min exponent (UInt32.size - 1)) (a.binary .pow b)
  exact_iff : ∀ exponent : Nat, b.toInt = exponent →
    (a.Wraps b (a.beside b ^ exponent) (a.binary .pow b) ↔ exponent < UInt64.size ∧
      (exponent < UInt32.size ∨ Even (a.beside b) ∨
        a.beside b ^ (exponent - (UInt32.size - 1)) ≡ 1 [ZMOD twoPow (max a.width b.width)]))
  refused_iff : a.binary .pow b = .error (.typeMismatch ("negative exponent " ++ b.text)) ↔
    b.toInt < 0 ∨ UInt64.size ≤ b.toInt

theorem raises_of_wellFormed (left : a.WellFormed) (right : b.WellFormed) : a.Raises b where
  clamped _ value small := wraps_pow_of_lt left right value small
  exact_iff _ value := wraps_pow_iff left right value
  refused_iff := binary_pow_eq_error_iff left right

theorem raises_minusThree :
    let minusThree : IntValue := ⟨0xfd, 8, true, true⟩
    let large : IntValue := ⟨0x100000000, 40, true, false⟩
    (minusThree.WellFormed ∧ large.WellFormed) ∧ minusThree.Raises large := by
  intro minusThree large
  have formed : minusThree.WellFormed ∧ large.WellFormed := by decide
  exact ⟨formed, raises_of_wellFormed formed.1 formed.2⟩

/-- Powers of three by `2 ^ 32` and by `2 ^ 64`: the first one is not the true one, and the second one is refused
although its exponent is not negative. -/
theorem not_wraps_pow_three :
    let three : IntValue := ⟨3, 32, false, false⟩
    let large : IntValue := ⟨0x100000000, 33, false, false⟩
    let huge : IntValue := ⟨0x10000000000000000, 65, false, false⟩
    (three.WellFormed ∧ large.WellFormed ∧ huge.WellFormed) ∧
      (large.toInt = (2 ^ 32 : Nat) ∧ ¬three.Wraps large (three.beside large ^ 2 ^ 32) (three.binary .pow large)) ∧
      huge.toInt = (2 ^ 64 : Nat) ∧
      three.binary .pow huge = .error (.typeMismatch ("negative exponent " ++ huge.text)) := by
  intro three large huge
  have formed : three.WellFormed ∧ large.WellFormed ∧ huge.WellFormed := by decide
  have largeValue : large.toInt = (2 ^ 32 : Nat) := by decide
  have hugeValue : huge.toInt = (2 ^ 64 : Nat) := by decide
  refine ⟨formed, ⟨largeValue, ?_⟩, hugeValue, ?_⟩
  · have base : three.beside large = 3 := by decide
    have rest : 2 ^ 32 - (UInt32.size - 1) = 1 := by decide
    rw [wraps_pow_iff formed.1 formed.2.1 largeValue, base, rest]
    rintro ⟨_, short | even | one⟩
    · exact absurd short (by decide)
    · exact absurd even (by decide)
    · exact absurd one (by decide)
  · exact (binary_pow_eq_error_iff formed.1 formed.2.2).mpr (.inr (by rw [hugeValue]; decide))

end IntValue
end Monomorph
