import Monomorph.Proofs.Constant.Range

/-! Operators compute with the integers that their operands are read as.

Operands are brought to the wider width, where their patterns agree with those integers
modulo the power of two. Sums, products and quotients wrap accordingly, and comparisons
are exact. A shift moves the pattern, or the integer, of its left operand by any amount.
-/

set_option autoImplicit false

namespace Monomorph

namespace Word

variable {width : Nat}

theorem ofInt_toNat (bits : Word) : BitVec.ofInt 128 bits.toNat = bits := by
  rw [BitVec.ofInt_natCast, BitVec.ofNat_toNat, BitVec.setWidth_eq]

theorem toNat_add_modEq (within : width ≤ maxWidth) (x y : Word) :
    ((x + y).toNat : Int) ≡ x.toNat + y.toNat [ZMOD twoPow width] := by
  have sum : x + y = BitVec.ofInt 128 (x.toNat + y.toNat) := by
    rw [BitVec.ofInt_add, ofInt_toNat, ofInt_toNat]
  rw [sum]
  exact toNat_ofInt_modEq within _

theorem toNat_sub_modEq (within : width ≤ maxWidth) (x y : Word) :
    ((x - y).toNat : Int) ≡ x.toNat - y.toNat [ZMOD twoPow width] := by
  rw [BitVec.sub_eq_add_neg, sub_eq_add_neg]
  exact (toNat_add_modEq within x (-y)).trans ((toNat_neg_modEq within y).add_left _)

theorem toNat_mul_modEq (within : width ≤ maxWidth) (x y : Word) :
    ((x * y).toNat : Int) ≡ x.toNat * y.toNat [ZMOD twoPow width] := by
  have product : x * y = BitVec.ofInt 128 (x.toNat * y.toNat) := by
    rw [BitVec.ofInt_mul, ofInt_toNat, ofInt_toNat]
  rw [product]
  exact toNat_ofInt_modEq within _

theorem toInt_modEq (within : width ≤ maxWidth) (bits : Word) :
    (bits.toNat : Int) ≡ bits.toInt [ZMOD twoPow width] := by
  have whole : BitVec.ofInt 128 bits.toInt = bits := BitVec.ofInt_toInt
  calc (bits.toNat : Int) = (BitVec.ofInt 128 bits.toInt).toNat := by rw [whole]
    _ ≡ bits.toInt [ZMOD twoPow width] := toNat_ofInt_modEq within _

theorem setWidth_eq_ofInt {bits : Word} {number : Int}
    (agree : (bits.toNat : Int) ≡ number [ZMOD twoPow width]) : bits.setWidth width = BitVec.ofInt width number := by
  apply BitVec.eq_of_toNat_eq
  rw [BitVec.toNat_setWidth, BitVec.toNat_ofInt]
  have same : ((bits.toNat % 2 ^ width : Nat) : Int) = number % ((2 ^ width : Nat) : Int) := by
    rw [Int.natCast_mod]
    exact agree
  rw [← same, Int.toNat_natCast]

theorem toNat_truncate_eq_setWidth (bits : Word) (width : Nat) :
    (bits.truncate width).toNat = (bits.setWidth width).toNat := by
  rw [toNat_truncate, BitVec.toNat_setWidth, twoPow_eq]

end Word

/-- An integer of at most so many bits is shifted out but for its sign. -/
theorem ediv_twoPow_of_le {number : Int} {amount : Nat} (low : -(twoPow amount : Int) ≤ number)
    (high : number < twoPow amount) : number / twoPow amount = if number < 0 then -1 else 0 := by
  have positive : (0 : Int) < twoPow amount := by exact_mod_cast twoPow_pos amount
  split
  · rw [Int.ediv_eq_iff_of_pos positive]
    omega
  · exact Int.ediv_eq_zero_of_lt (by omega) high

theorem Represents.ediv {width : Nat} {signed : Bool} {number : Int} (here : Represents width signed number)
    (amount : Nat) : Represents width signed (number / twoPow amount) := by
  have positive : (1 : Int) ≤ twoPow amount := by exact_mod_cast twoPow_pos amount
  have upper : 0 ≤ number → number / twoPow amount ≤ number := fun nonneg => Int.ediv_le_self _ nonneg
  have lower : number < 0 → number ≤ number / twoPow amount := by
    intro negative
    rw [Int.le_ediv_iff_mul_le (by omega)]
    nlinarith
  have sign : 0 ≤ number / twoPow amount ↔ 0 ≤ number := Int.ediv_nonneg_iff_of_pos (by omega)
  cases signed with
  | true =>
    have room : 0 < twoPow (width - 1) := twoPow_pos _
    rw [signed_iff] at here ⊢
    omega
  | false =>
    rw [unsigned_iff] at here ⊢
    omega

namespace IntValue

variable {value a b : IntValue} {width : Nat} {signed : Bool}

/-- The integer that a value is read as in an operation: its pattern as it is, unless the operation is signed. -/
def readAs (value : IntValue) (signed : Bool) : Int := if signed then value.toInt else value.bits.toNat

theorem toNat_operand_lt (formed : value.WellFormed) (le : value.width ≤ width) :
    (value.operand width signed).toNat < twoPow width := by
  unfold operand
  split
  · exact Word.toNat_truncate_lt _ _
  · exact Nat.lt_of_lt_of_le formed.2.2 (twoPow_le_twoPow le)

theorem operand_modEq (within : width ≤ maxWidth) :
    ((value.operand width signed).toNat : Int) ≡ value.readAs signed [ZMOD twoPow width] := by
  unfold operand readAs
  split
  · exact (Word.toNat_truncate_modEq _ _).trans (Word.toNat_ofInt_modEq within _)
  · exact Int.ModEq.refl _

theorem represents_readAs (formed : value.WellFormed) (le : value.width ≤ width)
    (own : signed = true → value.signed = true) : Represents width signed (value.readAs signed) := by
  cases signed with
  | true =>
    have here := represents_toInt formed
    rw [own rfl] at here
    exact here.mono le
  | false =>
    have within := Nat.lt_of_lt_of_le formed.2.2 (twoPow_le_twoPow le)
    rw [Represents.unsigned_iff, readAs, if_neg Bool.false_ne_true]
    omega

theorem read_operand (formed : value.WellFormed) (le : value.width ≤ width) (within : width ≤ maxWidth)
    (own : signed = true → value.signed = true) :
    (value.operand width signed).read width signed = value.readAs signed :=
  Word.read_eq_of_modEq (Nat.le_trans formed.1 le) (toNat_operand_lt formed le) (represents_readAs formed le own)
    (operand_modEq within)

structure Typed (result : IntValue) (width : Nat) (signed sized : Bool) : Prop where
  width : result.width = width
  signed : result.signed = signed
  sized : result.sized = sized

/-- The integer that an operand is read as beside another one: as signed when both are. -/
def beside (a b : IntValue) : Int := a.readAs (a.signed && b.signed)

/-- The outcome of an operation is an exact result modulo the wider width. -/
def Wraps (a b : IntValue) (exact : Int) (outcome : Except EvalError Value) : Prop :=
  ∃ result : IntValue, outcome = .ok (.int result) ∧
    result.Typed (max a.width b.width) (a.signed && b.signed) (a.sized || b.sized) ∧
    (result.bits.toNat : Int) = exact % twoPow (max a.width b.width)

theorem wraps_of_modEq {bits : Word} {exact : Int}
    (agree : (bits.toNat : Int) ≡ exact [ZMOD twoPow (max a.width b.width)]) :
    a.Wraps b exact (.ok (.int ⟨bits.truncate (max a.width b.width), max a.width b.width, a.signed && b.signed,
      a.sized || b.sized⟩)) := by
  refine ⟨_, rfl, ⟨rfl, rfl, rfl⟩, ?_⟩
  rw [Word.toNat_truncate, Int.natCast_mod]
  exact agree

/-- An amount that a shift by `b` acts as. A negative one acts as every amount that leaves nothing of a pattern. -/
def ShiftsBy (b : IntValue) (amount : Nat) : Prop := b.toInt = amount ∨ b.toInt < 0 ∧ maxWidth ≤ amount

/-- What the operators have to make of two integers. -/
structure Exact (a b : IntValue) : Prop where
  add : a.Wraps b (a.beside b + b.beside a) (a.binary .add b)
  sub : a.Wraps b (a.beside b - b.beside a) (a.binary .sub b)
  mul : a.Wraps b (a.beside b * b.beside a) (a.binary .mul b)
  div : if b.beside a = 0 then a.binary .div b = .error .divisionByZero
    else a.Wraps b ((a.beside b).tdiv (b.beside a)) (a.binary .div b)
  rem : if b.beside a = 0 then a.binary .rem b = .error .divisionByZero
    else a.Wraps b ((a.beside b).tmod (b.beside a)) (a.binary .rem b)
  bitAnd : a.Wraps b (BitVec.ofInt (max a.width b.width) (a.beside b)
    &&& BitVec.ofInt (max a.width b.width) (b.beside a)).toNat (a.binary .bitAnd b)
  bitOr : a.Wraps b (BitVec.ofInt (max a.width b.width) (a.beside b)
    ||| BitVec.ofInt (max a.width b.width) (b.beside a)).toNat (a.binary .bitOr b)
  bitXor : a.Wraps b (BitVec.ofInt (max a.width b.width) (a.beside b)
    ^^^ BitVec.ofInt (max a.width b.width) (b.beside a)).toNat (a.binary .bitXor b)
  eq : a.binary .eq b = .ok (.bool (a.beside b = b.beside a))
  ne : a.binary .ne b = .ok (.bool (a.beside b ≠ b.beside a))
  lt : a.binary .lt b = .ok (.bool (a.beside b < b.beside a))
  le : a.binary .le b = .ok (.bool (a.beside b ≤ b.beside a))
  gt : a.binary .gt b = .ok (.bool (b.beside a < a.beside b))
  ge : a.binary .ge b = .ok (.bool (b.beside a ≤ a.beside b))
  shl : ∀ amount, b.ShiftsBy amount → ∃ result : IntValue, a.binary .shl b = .ok (.int result) ∧
    result.Typed a.width a.signed (a.sized || b.sized) ∧
    result.bits.toNat = a.bits.toNat * twoPow amount % twoPow a.width
  shr : ∀ amount, b.ShiftsBy amount → ∃ result : IntValue, a.binary .shr b = .ok (.int result) ∧
    result.Typed a.width a.signed (a.sized || b.sized) ∧
    result.toInt = a.toInt / twoPow amount

section Operands

variable (left : a.WellFormed) (right : b.WellFormed)

include left right

theorem maxWidth_of_wellFormed : max a.width b.width ≤ maxWidth := Nat.max_le.mpr ⟨left.2.1, right.2.1⟩

theorem operand_left_modEq : ((a.operand (max a.width b.width) (a.signed && b.signed)).toNat : Int)
    ≡ a.beside b [ZMOD twoPow (max a.width b.width)] :=
  operand_modEq (maxWidth_of_wellFormed left right)

theorem operand_right_modEq : ((b.operand (max a.width b.width) (a.signed && b.signed)).toNat : Int)
    ≡ b.beside a [ZMOD twoPow (max a.width b.width)] := by
  rw [beside, Bool.and_comm]
  exact operand_modEq (maxWidth_of_wellFormed left right)

theorem read_left : (a.operand (max a.width b.width) (a.signed && b.signed)).read (max a.width b.width)
    (a.signed && b.signed) = a.beside b :=
  read_operand left (Nat.le_max_left _ _) (maxWidth_of_wellFormed left right)
    fun both => (Bool.and_eq_true_iff.mp both).1

theorem read_right : (b.operand (max a.width b.width) (a.signed && b.signed)).read (max a.width b.width)
    (a.signed && b.signed) = b.beside a := by
  rw [beside, Bool.and_comm b.signed]
  exact read_operand right (Nat.le_max_right _ _) (maxWidth_of_wellFormed left right)
    fun both => (Bool.and_eq_true_iff.mp both).2

/-- Operands have one pattern when they are read as one integer. -/
theorem operand_eq_iff : a.operand (max a.width b.width) (a.signed && b.signed)
    = b.operand (max a.width b.width) (a.signed && b.signed) ↔ a.beside b = b.beside a := by
  constructor
  · intro same
    rw [← read_left left right, ← read_right left right, same]
  · intro same
    apply Word.eq_of_modEq (toNat_operand_lt left (Nat.le_max_left _ _))
      (toNat_operand_lt right (Nat.le_max_right _ _))
    exact (operand_left_modEq left right).trans (same ▸ (operand_right_modEq left right).symm)

theorem operand_right_eq_zero_iff :
    b.operand (max a.width b.width) (a.signed && b.signed) = 0 ↔ b.beside a = 0 := by
  have agree := operand_right_modEq left right
  constructor
  · intro zero
    have read := read_right left right
    rw [zero] at read
    rw [← read, Word.read]
    simp
  · intro zero
    rw [zero] at agree
    exact Word.eq_of_modEq (toNat_operand_lt right (Nat.le_max_right _ _)) (twoPow_pos _) agree

end Operands

section Shifts

/-- The amount that a shift uses may differ from the one it acts as only where both leave nothing. -/
theorem shiftAmount_of_shiftsBy (formed : b.WellFormed) {amount : Nat} (shifts : b.ShiftsBy amount) :
    b.shiftAmount = amount ∨ maxWidth ≤ b.shiftAmount ∧ maxWidth ≤ amount := by
  have most : maxWidth ≤ UInt64.size - 1 := by decide
  unfold shiftAmount toCount?
  have negative := isNegative_iff formed
  split
  · rename_i below
    have : b.toInt < 0 := negative.mp below
    unfold ShiftsBy at shifts
    exact .inr ⟨most, by omega⟩
  · rename_i above
    rw [Bool.not_eq_true] at above
    have same := toInt_of_isNegative_eq_false above
    unfold ShiftsBy at shifts
    split
    · rename_i small
      left
      rw [Option.getD_some]
      omega
    · rename_i large
      have : UInt64.size - 1 ≤ amount := by omega
      exact .inr ⟨most, Nat.le_trans most this⟩

theorem toNat_shiftLeft (formed : a.WellFormed) (amount : Nat) :
    ((a.shiftLeft amount).truncate a.width).toNat = a.bits.toNat * twoPow amount % twoPow a.width := by
  rw [Word.toNat_truncate]
  unfold shiftLeft
  split
  · rename_i beyond
    have gone : twoPow a.width ∣ a.bits.toNat * twoPow amount := (Nat.pow_dvd_pow 2 beyond).mul_left _
    rw [Nat.mod_eq_zero_of_dvd gone]
    rfl
  · have narrow : twoPow a.width ∣ 2 ^ 128 := Nat.pow_dvd_pow 2 formed.2.1
    rw [BitVec.toNat_shiftLeft, Nat.shiftLeft_eq, Nat.mod_mod_of_dvd _ narrow, twoPow_eq amount]

theorem shiftRight_modEq (formed : a.WellFormed) (amount : Nat) :
    ((a.shiftRight amount).toNat : Int) ≡ a.toInt / twoPow amount [ZMOD twoPow a.width] := by
  unfold shiftRight
  split
  · rename_i signed
    have room : -(twoPow 127 : Int) ≤ a.toInt ∧ a.toInt < twoPow 127 := by
      have wide := (represents_toInt formed).mono formed.2.1
      rwa [signed, Represents.signed_iff] at wide
    have moved : (a.extended.sshiftRight (min amount 127)).toInt = a.toInt / twoPow amount := by
      rw [BitVec.toInt_sshiftRight, Int.shiftRight_eq_div_pow]
      show a.toSigned / (twoPow (min amount 127) : Int) = a.toInt / twoPow amount
      rw [toSigned_eq_toInt formed signed]
      by_cases small : amount ≤ 127
      · rw [Nat.min_eq_left small]
      · -- from here on only the sign is left
        have grows : twoPow 127 ≤ twoPow amount := twoPow_le_twoPow (by omega)
        rw [Nat.min_eq_right (by omega), ediv_twoPow_of_le room.1 room.2, ediv_twoPow_of_le (by omega) (by omega)]
    rw [← moved]
    exact Word.toInt_modEq formed.2.1 _
  · rename_i unsigned
    have same : a.toInt = a.bits.toNat := by
      apply toInt_of_isNegative_eq_false
      simp [isNegative, unsigned]
    have narrow := Nat.lt_of_lt_of_le formed.2.2 (twoPow_le_twoPow formed.2.1)
    rw [same]
    split
    · rename_i beyond
      have grows := twoPow_le_twoPow beyond
      rw [ediv_twoPow_of_le (by omega) (by omega), if_neg (by omega)]
      exact Int.ModEq.refl _
    · rw [BitVec.toNat_ushiftRight, Nat.shiftRight_eq_div_pow, Int.natCast_ediv]
      exact Int.ModEq.refl _

theorem toInt_shiftRight (formed : a.WellFormed) (amount : Nat) (sized : Bool) :
    (⟨(a.shiftRight amount).truncate a.width, a.width, a.signed, sized⟩ : IntValue).toInt
      = a.toInt / twoPow amount :=
  Word.read_eq_of_modEq formed.1 (Word.toNat_truncate_lt _ _) ((represents_toInt formed).ediv amount)
    ((Word.toNat_truncate_modEq _ _).trans (shiftRight_modEq formed amount))

end Shifts

theorem wraps_bitwise (left : a.WellFormed) (right : b.WellFormed)
    (act : ∀ {width : Nat}, BitVec width → BitVec width → BitVec width)
    (cuts : ∀ x y : Word, (act x y).setWidth (max a.width b.width)
      = act (x.setWidth (max a.width b.width)) (y.setWidth (max a.width b.width))) :
    a.Wraps b (act (BitVec.ofInt (max a.width b.width) (a.beside b))
      (BitVec.ofInt (max a.width b.width) (b.beside a))).toNat
      (.ok (.int ⟨Word.truncate (max a.width b.width) (act (a.operand (max a.width b.width) (a.signed && b.signed))
        (b.operand (max a.width b.width) (a.signed && b.signed))), max a.width b.width, a.signed && b.signed,
        a.sized || b.sized⟩)) := by
  refine ⟨_, rfl, ⟨rfl, rfl, rfl⟩, ?_⟩
  rw [Word.toNat_truncate_eq_setWidth, cuts, Word.setWidth_eq_ofInt (operand_left_modEq left right),
    Word.setWidth_eq_ofInt (operand_right_modEq left right)]
  exact (Int.emod_eq_of_lt (Int.natCast_nonneg _) (by exact_mod_cast BitVec.isLt _)).symm

theorem exact_of_wellFormed (left : a.WellFormed) (right : b.WellFormed) : a.Exact b := by
  have within := maxWidth_of_wellFormed left right
  have agreeLeft := operand_left_modEq left right
  have agreeRight := operand_right_modEq left right
  constructor
  case add => exact wraps_of_modEq ((Word.toNat_add_modEq within _ _).trans (agreeLeft.add agreeRight))
  case sub => exact wraps_of_modEq ((Word.toNat_sub_modEq within _ _).trans (agreeLeft.sub agreeRight))
  case mul => exact wraps_of_modEq ((Word.toNat_mul_modEq within _ _).trans (agreeLeft.mul agreeRight))
  case div | rem =>
    simp only [binary, operand_right_eq_zero_iff left right, read_left left right, read_right left right]
    split
    · rfl
    · exact wraps_of_modEq (Word.toNat_ofInt_modEq within _)
  case bitAnd => exact wraps_bitwise left right (· &&& ·) fun _ _ => BitVec.setWidth_and
  case bitOr => exact wraps_bitwise left right (· ||| ·) fun _ _ => BitVec.setWidth_or
  case bitXor => exact wraps_bitwise left right (· ^^^ ·) fun _ _ => BitVec.setWidth_xor
  case eq => simp only [binary, beq_eq_decide, operand_eq_iff left right]
  case ne => simp only [binary, bne, beq_eq_decide, operand_eq_iff left right, ne_eq, decide_not]
  case lt | le | gt | ge => simp only [binary, read_left left right, read_right left right]
  case shl =>
    intro amount shifts
    refine ⟨_, rfl, ⟨rfl, rfl, rfl⟩, ?_⟩
    rw [toNat_shiftLeft left]
    rcases shiftAmount_of_shiftsBy right shifts with same | ⟨used, meant⟩
    · rw [same]
    · -- both amounts are beyond the pattern, and need not be the same
      have gone {many : Nat} (beyond : maxWidth ≤ many) : a.bits.toNat * twoPow many % twoPow a.width = 0 :=
        Nat.mod_eq_zero_of_dvd ((Nat.pow_dvd_pow 2 (Nat.le_trans left.2.1 beyond)).mul_left _)
      rw [gone used, gone meant]
  case shr =>
    intro amount shifts
    refine ⟨_, rfl, ⟨rfl, rfl, rfl⟩, ?_⟩
    rw [toInt_shiftRight left]
    rcases shiftAmount_of_shiftsBy right shifts with same | ⟨used, meant⟩
    · rw [same]
    · have gone {many : Nat} (beyond : maxWidth ≤ many) : a.toInt / twoPow many = if a.toInt < 0 then -1 else 0 := by
        have bounds := (represents_toInt left).bounds
        have grows := twoPow_le_twoPow (Nat.le_trans left.2.1 beyond)
        exact ediv_twoPow_of_le (by omega) (by omega)
      rw [gone used, gone meant]

theorem exact_least :
    let least : IntValue := ⟨0x80, 8, true, true⟩
    let minusOne : IntValue := ⟨0xff, 8, true, false⟩
    (least.WellFormed ∧ minusOne.WellFormed) ∧ least.Exact minusOne := by
  intro least minusOne
  have formed : least.WellFormed ∧ minusOne.WellFormed := by decide
  exact ⟨formed, exact_of_wellFormed formed.1 formed.2⟩

end IntValue
end Monomorph
