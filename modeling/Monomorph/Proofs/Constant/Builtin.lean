import Monomorph.Proofs.Constant.Power

/-! What the functions on constants compute.

The logarithm is the least exponent of two that reaches its argument, and an argument is
a power of two just when that exponent hits it. Both results, and the powers of two
themselves, come in the default width unless they need more. The larger and the smaller
of two integers are these two integers, in the order that the evaluator compares them in.
-/

set_option autoImplicit false

namespace Monomorph

namespace Word

theorem toNat_ofNat_of_lt {number : Nat} (small : number < twoPow maxWidth) :
    (BitVec.ofNat 128 number).toNat = number := by
  rw [BitVec.toNat_ofNat]
  exact Nat.mod_eq_of_lt small

theorem length_ofNat {number : Nat} (small : number < twoPow maxWidth) :
    Word.length (BitVec.ofNat 128 number) = number.size := by
  apply Nat.le_antisymm
  · rw [length_le_iff, toNat_ofNat_of_lt small]
    exact Nat.lt_size_self number
  · rw [Nat.size_le]
    have short := toNat_lt_length (BitVec.ofNat 128 number)
    rwa [toNat_ofNat_of_lt small] at short

end Word

namespace IntValue

/-- A natural number in an unwritten width, which is the default one unless the number needs more. -/
structure Counts (result : IntValue) (number defaultWidth : Nat) : Prop where
  formed : result.WellFormed
  value : result.toInt = number
  typed : result.Typed (max (min (max defaultWidth 1) maxWidth) number.size) false false

theorem counts_ofLiteral {number : Nat} (small : number < twoPow maxWidth) (defaultWidth : Nat) :
    (ofLiteral (BitVec.ofNat 128 number) defaultWidth).Counts number defaultWidth where
  formed := wellFormed_ofLiteral _ _
  value := by
    rw [toInt_of_isNegative_eq_false rfl]
    exact congrArg Nat.cast (Word.toNat_ofNat_of_lt small)
  typed := by
    refine ⟨?_, rfl, rfl⟩
    have positive : 1 ≤ min (max defaultWidth 1) maxWidth := Nat.le_min.mpr ⟨Nat.le_max_right _ _, by decide⟩
    simp only [ofLiteral, Word.length_ofNat small]
    omega

theorem binary_gt {a b : IntValue} (left : a.WellFormed) (right : b.WellFormed) :
    a.binary .gt b = .ok (.bool (decide (b.beside a < a.beside b))) := by
  simp only [binary, read_left left right, read_right left right]

end IntValue

namespace Builtin

theorem le_twoPow_ceilLog2 (n : Nat) : n ≤ twoPow (ceilLog2 n) := by
  unfold ceilLog2
  split
  · rename_i small
    exact small
  · have below : n - 1 < twoPow ((n - 1).log2 + 1) := Nat.lt_log2_self
    omega

theorem ceilLog2_le_of_le {n exponent : Nat} (reaches : n ≤ twoPow exponent) : ceilLog2 n ≤ exponent := by
  unfold ceilLog2
  split
  · exact Nat.zero_le _
  · have below : n - 1 < twoPow exponent := by
      have positive := twoPow_pos exponent
      omega
    exact (Nat.log2_lt (by omega)).mpr below

theorem ceilLog2_twoPow (exponent : Nat) : ceilLog2 (twoPow exponent) = exponent := by
  apply Nat.le_antisymm (ceilLog2_le_of_le (Nat.le_refl _))
  exact (Nat.pow_le_pow_iff_right (by decide)).mp (le_twoPow_ceilLog2 (twoPow exponent))

/-- The test rounds the logarithm down, which makes no difference for powers of two. -/
theorem isPower_iff (n : Nat) : isPower n = true ↔ 0 < n ∧ twoPow (ceilLog2 n) = n := by
  unfold isPower
  rw [Bool.and_eq_true, bne_iff_ne, beq_iff_eq, Nat.pos_iff_ne_zero]
  apply and_congr_right
  intro _
  constructor
  · intro power
    rw [power, ceilLog2_twoPow]
  · intro power
    rw [← power]
    exact congrArg twoPow Nat.log2_two_pow.symm

structure Measures (argument : Value) (n defaultWidth : Nat) : Prop where
  logarithm : ∃ exponent result, clog2.apply defaultWidth [argument] = .ok (.int result) ∧
    result.Counts exponent defaultWidth ∧ IsLeast {exponent | n ≤ 2 ^ exponent} exponent ∧
    (n ≤ 1 → exponent = 0) ∧
    isPowerOf2.apply defaultWidth [argument] = .ok (.bool (decide (0 < n ∧ 2 ^ exponent = n)))
  power : n < 128 → ∃ result, pow2.apply defaultWidth [argument] = .ok (.int result) ∧
    result.Counts (2 ^ n) defaultWidth
  /-- The width that is reported is the one that the power needs, as long as a count can hold it. -/
  refused : 128 ≤ n → ∃ width, pow2.apply defaultWidth [argument] = .error (.unsupportedWidth width) ∧
    (n + 1 < UInt64.size → width = n + 1)

/-- The larger and the smaller of two integers. -/
structure Orders (first second : IntValue) (defaultWidth : Nat) (larger smaller : Value) : Prop where
  maximum : max.apply defaultWidth [.int first, .int second] = .ok larger
  minimum : min.apply defaultWidth [.int first, .int second] = .ok smaller
  both : larger = .int first ∧ smaller = .int second ∨ larger = .int second ∧ smaller = .int first
  ordered : Value.binary .gt smaller larger = .ok (.bool false)

section Integers

variable {argument first second : IntValue} {n : Nat}

theorem count_int (function : Builtin) (formed : argument.WellFormed) (value : argument.toInt = n)
    (small : n < UInt64.size) : function.count (.int argument) = .ok n := by
  have counted : Value.toCount? (.int argument) = some n := by
    rw [Value.toCount?, IntValue.toCount?_eq formed, value, if_pos (by omega), Int.toNat_natCast]
  rw [count, counted]

theorem apply_pow2 (formed : argument.WellFormed) (value : argument.toInt = n) (small : n < UInt64.size)
    (defaultWidth : Nat) : pow2.apply defaultWidth [.int argument]
      = if 128 ≤ n then .error (.unsupportedWidth (n + 1))
        else .ok (.int (.ofLiteral (BitVec.ofNat 128 (2 ^ n)) defaultWidth)) := by
  rw [apply, count_int pow2 formed value small]
  by_cases large : 128 ≤ n
  · rw [if_pos large]
    exact if_pos large
  · rw [if_neg large]
    exact if_neg large

theorem measures_of_wellFormed (formed : argument.WellFormed) (value : argument.toInt = n)
    (small : n < UInt64.size) (defaultWidth : Nat) : Measures (.int argument) n defaultWidth where
  logarithm := by
    have low : ceilLog2 n ≤ 64 := ceilLog2_le_of_le (Nat.le_of_lt small)
    have short : ceilLog2 n < twoPow maxWidth := Nat.lt_of_le_of_lt low (by decide)
    refine ⟨ceilLog2 n, .ofLiteral (BitVec.ofNat 128 (ceilLog2 n)) defaultWidth, ?_,
      IntValue.counts_ofLiteral short defaultWidth, ⟨le_twoPow_ceilLog2 n, fun _ => ceilLog2_le_of_le⟩, ?_, ?_⟩
    · rw [apply, count_int clog2 formed value small]
      rfl
    · intro least
      rw [ceilLog2, if_pos least]
    · have same : isPower n = decide (0 < n ∧ 2 ^ ceilLog2 n = n) := by
        rw [Bool.eq_iff_iff, decide_eq_true_iff]
        exact isPower_iff n
      rw [apply, count_int isPowerOf2 formed value small, ← same]
      rfl
  power inside := by
    have room : 2 ^ n < twoPow maxWidth := Nat.pow_lt_pow_right (by decide) inside
    rw [apply_pow2 formed value small, if_neg (by omega)]
    exact ⟨_, rfl, IntValue.counts_ofLiteral room defaultWidth⟩
  refused outside := by
    rw [apply_pow2 formed value small, if_pos outside]
    exact ⟨n + 1, rfl, fun _ => rfl⟩

theorem orders_of_wellFormed (left : first.WellFormed) (right : second.WellFormed) (defaultWidth : Nat) :
    ∃ larger smaller, Orders first second defaultWidth larger smaller := by
  have compared : Value.binary .gt (.int first) (.int second) = _ := IntValue.binary_gt left right
  have reversed : Value.binary .gt (.int second) (.int first) = _ := IntValue.binary_gt right left
  by_cases greater : second.beside first < first.beside second
  · rw [decide_eq_true greater] at compared
    refine ⟨.int first, .int second, ?_, ?_, .inl ⟨rfl, rfl⟩, ?_⟩
    · rw [apply, pick, compared]
      rfl
    · rw [apply, pick, compared]
      rfl
    · rw [reversed, decide_eq_false (by omega)]
  · rw [decide_eq_false greater] at compared
    refine ⟨.int second, .int first, ?_, ?_, .inr ⟨rfl, rfl⟩, compared⟩
    · rw [apply, pick, compared]
      rfl
    · rw [apply, pick, compared]
      rfl

end Integers

/-- The functions agree with arithmetic, with each other and with the comparison of the evaluator. -/
theorem apply_agrees (defaultWidth : Nat) :
    (∀ (argument : IntValue) (n : Nat), argument.WellFormed → argument.toInt = n → n < UInt64.size →
      Measures (.int argument) n defaultWidth) ∧
    ∀ first second : IntValue, first.WellFormed → second.WellFormed →
      ∃ larger smaller, Orders first second defaultWidth larger smaller :=
  ⟨fun _ _ formed value small => measures_of_wellFormed formed value small defaultWidth,
    fun _ _ left right => orders_of_wellFormed left right defaultWidth⟩

/-- One beyond a power of two that fills a count, and minus one beside an unsigned one: as patterns, minus one
is the larger of the two. -/
theorem apply_agrees_narrow :
    let beyond : IntValue := ⟨0x8000000000000001, 64, false, true⟩
    let minusOne : IntValue := ⟨0xff, 8, true, true⟩
    let one : IntValue := ⟨1, 16, false, false⟩
    (beyond.WellFormed ∧ beyond.toInt = (2 ^ 63 + 1 : Nat) ∧ 2 ^ 63 + 1 < UInt64.size ∧
      Measures (.int beyond) (2 ^ 63 + 1) 1) ∧
    (minusOne.WellFormed ∧ one.WellFormed) ∧ ∃ larger smaller, Orders minusOne one 1 larger smaller := by
  intro beyond minusOne one
  have formed : beyond.WellFormed ∧ minusOne.WellFormed ∧ one.WellFormed := by decide
  have value : beyond.toInt = (2 ^ 63 + 1 : Nat) := by decide
  have small : 2 ^ 63 + 1 < UInt64.size := by decide
  exact ⟨⟨formed.1, value, small, (apply_agrees 1).1 beyond _ formed.1 value small⟩, formed.2,
    (apply_agrees 1).2 minusOne one formed.2.1 formed.2.2⟩

end Builtin
end Monomorph
