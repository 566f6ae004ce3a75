import Monomorph.Proofs.Constant.Literal

/-! The integers of a type.

A width and a signedness have a range of integers, and of the integers that agree
modulo the power of two just one lies in it. So a pattern is read as the one integer
of its type that it agrees with, and a value can be had in another type without a
change just where the range of that type contains it.
-/

set_option autoImplicit false

namespace Monomorph

def Represents (width : Nat) (signed : Bool) (number : Int) : Prop :=
  if signed then -(twoPow (width - 1) : Int) ≤ number ∧ number < twoPow (width - 1)
  else 0 ≤ number ∧ number < twoPow width

theorem twoPow_pos (width : Nat) : 0 < twoPow width := Nat.two_pow_pos width

theorem twoPow_eq_two_mul {width : Nat} (positive : 1 ≤ width) : twoPow width = 2 * twoPow (width - 1) := by
  rw [twoPow_eq, twoPow_eq, ← Nat.pow_succ', Nat.succ_eq_add_one, Nat.sub_add_cancel positive]

theorem twoPow_mul_twoPow_sub {width wider : Nat} (le : width ≤ wider) :
    twoPow width * twoPow (wider - width) = twoPow wider := by
  rw [twoPow_eq, twoPow_eq, twoPow_eq, ← Nat.pow_add, Nat.add_sub_cancel' le]

namespace Represents

variable {width : Nat} {signed : Bool} {first second : Int}

theorem signed_iff : Represents width true first ↔
    -(twoPow (width - 1) : Int) ≤ first ∧ first < twoPow (width - 1) := by
  rw [Represents, if_pos rfl]

theorem unsigned_iff : Represents width false first ↔ 0 ≤ first ∧ first < twoPow width := by
  rw [Represents, if_neg Bool.false_ne_true]

theorem eq_of_modEq (positive : 1 ≤ width) (here : Represents width signed first)
    (there : Represents width signed second) (agree : first ≡ second [ZMOD twoPow width]) : first = second := by
  have double := twoPow_eq_two_mul positive
  have near : |second - first| < twoPow width := by
    rw [abs_lt]
    cases signed with
    | true =>
      rw [signed_iff] at here there
      omega
    | false =>
      rw [unsigned_iff] at here there
      omega
  have apart := Int.eq_zero_of_abs_lt_dvd (Int.modEq_iff_dvd.mp agree) near
  omega

theorem mono {wider : Nat} (le : width ≤ wider) (here : Represents width signed first) :
    Represents wider signed first := by
  cases signed with
  | true =>
    have grows := twoPow_le_twoPow (Nat.sub_le_sub_right le 1)
    rw [signed_iff] at here ⊢
    omega
  | false =>
    have grows := twoPow_le_twoPow le
    rw [unsigned_iff] at here ⊢
    omega

theorem bounds (here : Represents width signed first) : -(twoPow width : Int) ≤ first ∧ first < twoPow width := by
  have half := twoPow_le_twoPow (Nat.sub_le width 1)
  cases signed with
  | true =>
    rw [signed_iff] at here
    omega
  | false =>
    rw [unsigned_iff] at here
    omega

theorem toInt_ofInt (wide : Represents maxWidth true first) : (BitVec.ofInt 128 first).toInt = first := by
  have half : twoPow (maxWidth - 1) = 2 ^ 127 := rfl
  rw [signed_iff] at wide
  rw [BitVec.toInt_ofInt]
  apply Int.bmod_eq_of_le <;> omega

end Represents

namespace Word

theorem length_le_iff {width : Nat} {bits : Word} : bits.length ≤ width ↔ bits.toNat < twoPow width := by
  constructor
  · intro short
    exact Nat.lt_of_lt_of_le bits.toNat_lt_length (twoPow_le_twoPow short)
  · exact length_le_of_lt

theorem getLsbD_top_iff {bits : Word} {width : Nat} (positive : 1 ≤ width) (within : bits.toNat < twoPow width) :
    bits.getLsbD (width - 1) = true ↔ twoPow (width - 1) ≤ bits.toNat := by
  rw [← BitVec.testBit_toNat]
  constructor
  · exact Nat.ge_two_pow_of_testBit
  · intro high
    apply Nat.testBit_of_two_pow_le_and_two_pow_add_one_gt high
    rwa [Nat.sub_add_cancel positive]

theorem represents_read {bits : Word} {width : Nat} (positive : 1 ≤ width) (within : bits.toNat < twoPow width)
    (signed : Bool) : Represents width signed (bits.read width signed) := by
  cases signed with
  | false =>
    rw [Represents.unsigned_iff, read, Bool.false_and, if_neg Bool.false_ne_true]
    omega
  | true =>
    have double := twoPow_eq_two_mul positive
    have top := getLsbD_top_iff positive within
    rw [Represents.signed_iff, read, Bool.true_and]
    split
    · rename_i negative
      have high := top.mp negative
      omega
    · rename_i negative
      have low := mt top.mpr negative
      omega

theorem read_eq_of_modEq {bits : Word} {width : Nat} {signed : Bool} {number : Int} (positive : 1 ≤ width)
    (within : bits.toNat < twoPow width) (represents : Represents width signed number)
    (agree : (bits.toNat : Int) ≡ number [ZMOD twoPow width]) : bits.read width signed = number :=
  (represents_read positive within signed).eq_of_modEq positive represents ((read_modEq _ _ _).trans agree)

end Word

namespace IntValue

variable {value : IntValue} {width : Nat} {signed : Bool}

theorem represents_toInt (formed : value.WellFormed) : Represents value.width value.signed value.toInt :=
  Word.represents_read formed.1 formed.2.2 value.signed

theorem isNegative_iff (formed : value.WellFormed) : value.isNegative = true ↔ value.toInt < 0 := by
  have within := formed.2.2
  unfold isNegative toInt Word.read
  split
  · rename_i negative
    exact iff_of_true negative (by omega)
  · rename_i positive
    exact iff_of_false positive (by omega)

theorem toInt_of_isNegative_eq_false (positive : value.isNegative = false) : value.toInt = value.bits.toNat := by
  unfold isNegative at positive
  rw [toInt, Word.read, positive, if_neg Bool.false_ne_true]

theorem toSigned_eq_toInt (formed : value.WellFormed) (signed : value.signed = true) :
    value.toSigned = value.toInt := by
  have wide := (represents_toInt formed).mono formed.2.1
  rw [signed] at wide
  exact wide.toInt_ofInt

/-- A value is representable in the types whose range contains it. -/
theorem fits_iff (formed : value.WellFormed) : value.fits width signed = true ↔
    (1 ≤ width ∧ width ≤ maxWidth) ∧ Represents width signed value.toInt := by
  unfold fits
  split
  · rename_i outside
    exact iff_of_false Bool.false_ne_true (by omega)
  rename_i inside
  rw [and_iff_right (by omega)]
  have negative := isNegative_iff formed
  split
  · rename_i isNegative
    have below := negative.mp isNegative
    have own : value.signed = true := by
      simp only [IntValue.isNegative, Bool.and_eq_true] at isNegative
      exact isNegative.1
    cases signed with
    | false => exact iff_of_false Bool.false_ne_true (by rw [Represents.unsigned_iff]; omega)
    | true =>
      have room := (represents_toInt formed).mono formed.2.1
      have some := twoPow_pos (width - 1)
      rw [own, Represents.signed_iff] at room
      rw [Represents.signed_iff, toSigned_eq_toInt formed own, Bool.true_and, Bool.or_eq_true, beq_iff_eq,
        decide_eq_true_iff]
      constructor
      · rintro (rfl | low)
        · exact room
        · omega
      · rintro ⟨low, _⟩
        exact .inr low
  · rename_i isPositive
    rw [toInt_of_isNegative_eq_false (by simpa using isPositive)]
    split
    · rename_i isSigned
      rw [isSigned, Represents.signed_iff, decide_eq_true_iff, Nat.lt_iff_le_pred (by omega), Word.length_le_iff]
      omega
    · rename_i isUnsigned
      rw [Bool.not_eq_true] at isUnsigned
      rw [isUnsigned, Represents.unsigned_iff, decide_eq_true_iff, Word.length_le_iff]
      omega

theorem of_retyped {result : IntValue} (found : value.retyped width signed = .ok result) :
    result.width = width ∧ result.signed = signed ∧ result.sized = true := by
  unfold retyped ofBits at found
  split at found
  · cases found
  · cases found
    exact ⟨rfl, rfl, rfl⟩

theorem toInt_retyped {result : IntValue} (found : value.retyped width signed = .ok result)
    (represents : Represents width signed value.toInt) : result.toInt = value.toInt := by
  unfold retyped ofBits at found
  split at found
  · cases found
  · rename_i inside
    have positive : 1 ≤ width := by omega
    have wide : width ≤ maxWidth := by omega
    cases found
    apply Word.read_eq_of_modEq positive (Word.toNat_truncate_lt _ _) represents
    exact (Word.toNat_truncate_modEq _ _).trans (Word.toNat_ofInt_modEq wide _)

/-- A retyped value is an integer of the new type, so it is the one that went in just where that type has it. -/
theorem toInt_retyped_eq_iff {result : IntValue} (found : value.retyped width signed = .ok result) :
    result.toInt = value.toInt ↔ Represents width signed value.toInt := by
  obtain ⟨hasWidth, hasSign, _⟩ := of_retyped found
  have room := represents_toInt (wellFormed_ofBits found)
  rw [hasWidth, hasSign] at room
  constructor
  · intro same
    rwa [same] at room
  · exact toInt_retyped found

/-- What becomes of a value in a type, and how `fits` tells it beforehand. -/
structure Retypes (value : IntValue) (width : Nat) (signed : Bool) : Prop where
  inside : 1 ≤ width → width ≤ maxWidth → ∃ result, value.retyped width signed = .ok result ∧
    (result.width = width ∧ result.signed = signed) ∧
    (value.fits width signed = true ↔ Represents width signed value.toInt) ∧
    (value.fits width signed = true ↔ result.toInt = value.toInt)
  outside : width = 0 ∨ maxWidth < width →
    value.fits width signed = false ∧ value.retyped width signed = .error (.unsupportedWidth width)

/-- A value can be had in another type without loss exactly where it fits. -/
theorem retypes_of_wellFormed (formed : value.WellFormed) (width : Nat) (signed : Bool) :
    value.Retypes width signed := by
  have fits : value.fits width signed = true ↔ _ := fits_iff formed
  constructor
  · intro positive within
    have found : value.retyped width signed = _ := if_neg (by omega)
    obtain ⟨hasWidth, hasSign, _⟩ := of_retyped found
    rw [and_iff_right ⟨positive, within⟩] at fits
    exact ⟨_, found, ⟨hasWidth, hasSign⟩, fits, fits.trans (toInt_retyped_eq_iff found).symm⟩
  · intro outside
    constructor
    · rw [← Bool.not_eq_true, fits]
      omega
    · exact if_pos outside

/-- The unsigned `2 ^ 127` just misses the widest signed type, where its pattern is the least integer. -/
theorem retypes_half :
    let half : IntValue := ⟨0x80000000000000000000000000000000, 128, false, false⟩
    half.WellFormed ∧ half.fits 128 true = false ∧ half.Retypes 128 true := by
  intro half
  have formed : half.WellFormed := by decide
  exact ⟨formed, by decide, retypes_of_wellFormed formed 128 true⟩

end IntValue
end Monomorph
