import Monomorph.Proofs.Constant.Arithmetic
import Monomorph.Proofs.Guarded.Evaluator

/-! Steps on well-formed values.

On values whose patterns keep within their widths, every step of an operator can be taken,
and the operator gives what it is defined to give. Of the functions, only one forms the
successor of a count, which the largest count does not have.
-/

set_option autoImplicit false

namespace Monomorph

namespace Guarded

theorem ok_bind {α β : Type} (value : α) (next : α → Step β) : (Except.ok value >>= next) = next value := rfl

theorem shiftLeft_of_lt {bits : Word} {amount : Nat} (small : amount < maxWidth) :
    shiftLeft bits amount = .ok (bits <<< amount) := if_pos small

theorem shiftRight_of_lt {bits : Word} {amount : Nat} (small : amount < maxWidth) :
    shiftRight bits amount = .ok (bits >>> amount) := if_pos small

theorem shiftSigned_of_lt {bits : Word} {amount : Nat} (small : amount < maxWidth) :
    shiftSigned bits amount = .ok (bits.sshiftRight amount) := if_pos small

theorem difference_of_le {first second : Nat} (le : second ≤ first) :
    difference first second = .ok (first - second) := if_pos le

section Words

variable {bits : Word} {width : Nat}

theorem mask_spec (width : Nat) : ∃ low, mask width = .ok low ∧ ∀ bits : Word, bits &&& low = bits.truncate width := by
  unfold mask
  split
  · rename_i wide
    refine ⟨_, rfl, fun bits => ?_⟩
    rw [BitVec.and_allOnes, Word.truncate_of_lt (Nat.lt_of_lt_of_le bits.isLt (twoPow_le_twoPow wide))]
  · rename_i narrow
    have small : width < maxWidth := by omega
    have next : ((1 : Word) <<< width).toNat = 2 ^ width := by
      have one : (1 : Word).toNat = 1 := rfl
      rw [BitVec.toNat_shiftLeft, Nat.shiftLeft_eq, one, Nat.one_mul]
      exact Nat.mod_eq_of_lt (Nat.pow_lt_pow_right (by decide) small)
    have positive : 1 ≤ 2 ^ width := Nat.two_pow_pos width
    rw [shiftLeft_of_lt small, ok_bind, next, difference_of_le positive, ok_bind]
    refine ⟨_, rfl, fun bits => BitVec.eq_of_toNat_eq ?_⟩
    have fits : 2 ^ width - 1 < 2 ^ 128 := by
      have := Nat.pow_lt_pow_right (show 1 < 2 by decide) small
      rw [maxWidth] at this
      omega
    rw [BitVec.toNat_and, BitVec.toNat_ofNat, Nat.mod_eq_of_lt fits, Nat.and_two_pow_sub_one_eq_mod,
      Word.toNat_truncate, twoPow_eq]

theorem withBits_eq (bits : Word) (width : Nat) (signed sized : Bool) :
    withBits bits width signed sized = .ok ⟨bits.truncate width, width, signed, sized⟩ := by
  obtain ⟨low, found, cuts⟩ := mask_spec width
  rw [withBits, found, ok_bind, cuts]
  rfl

theorem shiftLeft_eq_ofInt {number : Int} (within : width ≤ maxWidth)
    (agree : number ≡ bits.toNat [ZMOD twoPow width]) :
    bits <<< (maxWidth - width) = BitVec.ofInt 128 (number * twoPow (maxWidth - width)) := by
  have wraps : ((bits <<< (maxWidth - width)).toNat : Int)
      ≡ bits.toNat * twoPow (maxWidth - width) [ZMOD twoPow maxWidth] := by
    rw [BitVec.toNat_shiftLeft, Nat.shiftLeft_eq, Int.natCast_mod, Int.natCast_mul]
    exact Int.mod_modEq _ _
  have scaled : (bits.toNat * twoPow (maxWidth - width) : Int)
      ≡ number * twoPow (maxWidth - width) [ZMOD twoPow maxWidth] := by
    rw [← twoPow_mul_twoPow_sub within, Int.natCast_mul]
    exact agree.symm.mul_right'
  exact Word.eq_of_modEq (BitVec.isLt _) (BitVec.isLt _)
    ((wraps.trans scaled).trans (Word.toNat_ofInt_modEq (Nat.le_refl _) _).symm)

theorem represents_mul_twoPow {number : Int} (positive : 1 ≤ width) (within : width ≤ maxWidth)
    (range : Represents width true number) : Represents maxWidth true (number * twoPow (maxWidth - width)) := by
  have unit : (0 : Int) < twoPow (maxWidth - width) := by exact_mod_cast twoPow_pos _
  have half := twoPow_mul_twoPow_sub (Nat.sub_le_sub_right within 1)
  rw [Nat.sub_sub_sub_cancel_right positive] at half
  rw [Represents.signed_iff] at range ⊢
  rw [← half, Int.natCast_mul]
  constructor
  · rw [← Int.neg_mul]
    exact Int.mul_le_mul_of_nonneg_right range.1 unit.le
  · exact Int.mul_lt_mul_of_pos_right range.2 unit

theorem signExtend_eq (positive : 1 ≤ width) (within : width ≤ maxWidth) (small : bits.toNat < twoPow width) :
    signExtend bits width = .ok (BitVec.ofInt 128 (bits.read width true)) := by
  have agree := bits.read_modEq width true
  have range := Word.represents_read positive small true
  unfold signExtend
  split
  · rename_i wide
    obtain rfl : width = maxWidth := by omega
    apply congrArg Except.ok
    exact Word.eq_of_modEq bits.isLt (BitVec.isLt _) (agree.symm.trans (Word.toNat_ofInt_modEq within _).symm)
  · rename_i narrow
    have below : maxWidth - width < maxWidth := by omega
    rw [difference_of_le within, ok_bind, shiftLeft_of_lt below, ok_bind, shiftSigned_of_lt below]
    apply congrArg Except.ok
    -- up there the word is read with the sign of the pattern, so that the way down is a division
    apply BitVec.eq_of_toInt_eq
    rw [BitVec.toInt_sshiftRight, shiftLeft_eq_ofInt within agree,
      (represents_mul_twoPow positive within range).toInt_ofInt, (range.mono within).toInt_ofInt,
      Int.shiftRight_eq_div_pow]
    exact Int.mul_ediv_cancel _ (by exact_mod_cast (twoPow_pos _).ne')

theorem length_eq_sub_clz (bits : Word) : bits.length = maxWidth - bits.clz.toNat := by
  apply Nat.le_antisymm
  · exact Word.length_le_of_lt BitVec.toNat_lt_two_pow_sub_clz
  · by_cases zero : bits = 0
    · rw [zero]
      decide
    · have high : 2 ^ (128 - 1 - bits.clz.toNat) ≤ bits.toNat :=
        BitVec.two_pow_sub_clz_le_toNat_of_ne_zero (by decide) zero
      have long := mt Word.length_le_iff.mp (Nat.not_lt_of_le high)
      rw [maxWidth]
      omega

end Words

section Values

variable {value : IntValue} {width : Nat} {signed : Bool}

theorem isNegative_eq (formed : value.WellFormed) : isNegative value = .ok value.isNegative := by
  unfold isNegative IntValue.isNegative
  cases value.signed with
  | false => rfl
  | true =>
    have small : value.width - 1 < maxWidth := by
      have := formed.1
      have := formed.2.1
      omega
    rw [if_pos rfl, difference_of_le formed.1, ok_bind, shiftRight_of_lt small, ok_bind]
    apply congrArg Except.ok
    have low : value.bits >>> (value.width - 1) &&& 1
        = BitVec.setWidth 128 (BitVec.ofBool ((value.bits >>> (value.width - 1)).getLsbD 0)) :=
      BitVec.and_one_eq_setWidth_ofBool_getLsbD
    rw [low, BitVec.getLsbD_ushiftRight, Nat.add_zero, Bool.true_and]
    cases value.bits.getLsbD (value.width - 1) <;> rfl

theorem toCount?_eq (formed : value.WellFormed) : toCount? value = .ok value.toCount? := by
  rw [toCount?, isNegative_eq formed, ok_bind, IntValue.toCount?]
  cases value.isNegative <;> rfl

theorem ofBits_eq (bits : Word) (width : Nat) (signed : Bool) :
    ofBits bits width signed = (IntValue.ofBits bits width signed).mapError .error := by
  unfold ofBits IntValue.ofBits
  split
  · rfl
  · exact withBits_eq bits width signed true

theorem ofLiteral_eq (value : Word) (defaultWidth : Nat) :
    ofLiteral value defaultWidth = .ok (IntValue.ofLiteral value defaultWidth) := by
  have most : value.clz.toNat ≤ maxWidth := BitVec.clz_le
  rw [ofLiteral, difference_of_le most, ok_bind, IntValue.ofLiteral, length_eq_sub_clz]
  rfl

theorem signExtend_bits (formed : value.WellFormed) (signed : value.signed = true) :
    signExtend value.bits value.width = .ok value.extended := by
  rw [signExtend_eq formed.1 formed.2.1 formed.2.2, IntValue.extended, IntValue.toInt, signed]

theorem retyped_eq (formed : value.WellFormed) :
    retyped value width signed = (value.retyped width signed).mapError .error := by
  rw [retyped, IntValue.retyped]
  cases own : value.signed with
  | true =>
    rw [if_pos rfl, signExtend_bits formed own, ok_bind]
    exact ofBits_eq _ _ _
  | false =>
    have same : value.extended = value.bits := by
      rw [IntValue.extended, IntValue.toInt, own]
      exact Word.ofInt_toNat value.bits
    rw [if_neg Bool.false_ne_true, ok_bind, same]
    exact ofBits_eq _ _ _

theorem operand_eq (formed : value.WellFormed) (own : signed = true → value.signed = true) :
    operand value width signed = .ok (value.operand width signed) := by
  unfold operand IntValue.operand
  split
  · rename_i both
    obtain ⟨low, found, cuts⟩ := mask_spec width
    rw [signExtend_bits formed (own both), ok_bind, found, ok_bind, cuts]
    rfl
  · rfl

end Values

section Operands

variable {x y : Word} {width : Nat} {signed : Bool}

theorem compared_eq (positive : 1 ≤ width) (within : width ≤ maxWidth) (left : x.toNat < twoPow width)
    (right : y.toNat < twoPow width) :
    compared width signed x y = .ok (compare (x.read width signed) (y.read width signed)) := by
  unfold compared
  cases signed with
  | true =>
    have first := (Word.represents_read positive left true).mono within
    have second := (Word.represents_read positive right true).mono within
    rw [if_pos rfl, signExtend_eq positive within left, ok_bind, signExtend_eq positive within right, ok_bind,
      first.toInt_ofInt, second.toInt_ofInt]
    rfl
  | false => rfl

theorem divided_eq {onSigned onUnsigned : Word → Word → Word} {exact : Int → Int → Int}
    (positive : 1 ≤ width) (within : width ≤ maxWidth) (left : x.toNat < twoPow width)
    (right : y.toNat < twoPow width)
    (signedExact : ∀ x y : Word, onSigned x y = BitVec.ofInt 128 (exact x.toInt y.toInt))
    (unsignedExact : ∀ x y : Word, onUnsigned x y = BitVec.ofInt 128 (exact x.toNat y.toNat)) :
    divided onSigned onUnsigned width signed x y
      = if y = 0 then fail .divisionByZero
        else .ok (BitVec.ofInt 128 (exact (x.read width signed) (y.read width signed))) := by
  obtain ⟨low, found, cuts⟩ := mask_spec width
  rw [divided, found, ok_bind, cuts, Word.truncate_of_lt right]
  split
  · rfl
  rename_i nonzero
  cases signed with
  | false =>
    rw [if_neg Bool.false_ne_true, divide, if_neg nonzero, unsignedExact]
    rfl
  | true =>
    have first := (Word.represents_read positive left true).mono within
    have second := (Word.represents_read positive right true).mono within
    have remains : BitVec.ofInt 128 (y.read width true) ≠ 0 := by
      intro zero
      have value : y.read width true = 0 := by
        rw [← second.toInt_ofInt, zero]
        rfl
      have agree := y.read_modEq width true
      rw [value] at agree
      have none : (0 : Word).toNat < twoPow width := twoPow_pos width
      exact nonzero (Word.eq_of_modEq right none agree.symm)
    rw [if_pos rfl, signExtend_eq positive within left, ok_bind, signExtend_eq positive within right, ok_bind,
      divide, if_neg remains, signedExact, first.toInt_ofInt, second.toInt_ofInt]

end Operands

section Operators

variable {a b : IntValue}

theorem shifted_shl (left : a.WellFormed) (right : b.WellFormed) :
    shifted .shl a b = .ok (a.shiftLeft b.shiftAmount) := by
  rw [shifted, toCount?_eq right, ok_bind, if_pos rfl, IntValue.shiftLeft, IntValue.shiftAmount]
  split
  · rfl
  · rename_i inside
    have := left.2.1
    exact shiftLeft_of_lt (by omega)

theorem shifted_shr (left : a.WellFormed) (right : b.WellFormed) :
    shifted .shr a b = .ok (a.shiftRight b.shiftAmount) := by
  rw [shifted, toCount?_eq right, ok_bind, if_neg (by decide), IntValue.shiftRight, IntValue.shiftAmount]
  split
  · rename_i signed
    rw [signExtend_bits left signed, ok_bind]
    exact shiftSigned_of_lt (Nat.lt_of_le_of_lt (Nat.min_le_right _ _) (by decide))
  · split
    · rfl
    · rename_i inside
      exact shiftRight_of_lt (Nat.lt_of_not_le inside)

theorem isLT_compare (first second : Int) : (compare first second).isLT = decide (first < second) := by
  rw [Bool.eq_iff_iff, Ordering.isLT_iff_eq_lt, Int.compare_eq_lt, decide_eq_true_iff]

theorem isLE_compare (first second : Int) : (compare first second).isLE = decide (first ≤ second) := by
  rw [Bool.eq_iff_iff, Int.isLE_compare, decide_eq_true_iff]

theorem isGT_compare (first second : Int) : (compare first second).isGT = decide (second < first) := by
  rw [Bool.eq_iff_iff, Ordering.isGT_iff_eq_gt, Int.compare_eq_gt, decide_eq_true_iff]

theorem isGE_compare (first second : Int) : (compare first second).isGE = decide (second ≤ first) := by
  rw [Bool.eq_iff_iff, Int.isGE_compare, decide_eq_true_iff]

theorem sdiv_eq_ofInt (x y : Word) : x.sdiv y = BitVec.ofInt 128 (x.toInt.tdiv y.toInt) := by
  apply BitVec.eq_of_toInt_eq
  rw [BitVec.toInt_sdiv, BitVec.toInt_ofInt]

theorem srem_eq_ofInt (x y : Word) : x.srem y = BitVec.ofInt 128 (x.toInt.tmod y.toInt) := by
  rw [← BitVec.toInt_srem, BitVec.ofInt_toInt]

theorem udiv_eq_ofInt (x y : Word) : x / y = BitVec.ofInt 128 ((x.toNat : Int).tdiv y.toNat) := by
  rw [← Word.ofInt_toNat (x / y), BitVec.toNat_udiv]
  rfl

theorem umod_eq_ofInt (x y : Word) : x % y = BitVec.ofInt 128 ((x.toNat : Int).tmod y.toNat) := by
  rw [← Word.ofInt_toNat (x % y), BitVec.toNat_umod]
  rfl

/-- On well-formed integers no step of an operator traps, other than those that integers do not have. -/
theorem intBinary_eq (left : a.WellFormed) (right : b.WellFormed) {op : BinaryOp}
    (proper : op ≠ .logicAnd ∧ op ≠ .logicOr) : intBinary op a b = (a.binary op b).mapError .error := by
  have within := IntValue.maxWidth_of_wellFormed left right
  have positive : 1 ≤ max a.width b.width := Nat.le_trans left.1 (Nat.le_max_left _ _)
  have small : (a.operand (max a.width b.width) (a.signed && b.signed)).toNat < _ :=
    IntValue.toNat_operand_lt left (Nat.le_max_left _ _)
  have small' : (b.operand (max a.width b.width) (a.signed && b.signed)).toNat < _ :=
    IntValue.toNat_operand_lt right (Nat.le_max_right _ _)
  have first : operand a (max a.width b.width) (a.signed && b.signed) = .ok _ :=
    operand_eq left fun both => (Bool.and_eq_true_iff.mp both).1
  have second : operand b (max a.width b.width) (a.signed && b.signed) = .ok _ :=
    operand_eq right fun both => (Bool.and_eq_true_iff.mp both).2
  cases op with
  | shl =>
    rw [intBinary, if_pos (.inl rfl), shifted_shl left right, ok_bind, withBits_eq]
    rfl
  | shr =>
    rw [intBinary, if_pos (.inr rfl), shifted_shr left right, ok_bind, withBits_eq]
    rfl
  | add | sub | mul | bitAnd | bitOr | bitXor =>
    rw [intBinary, if_neg (by decide)]
    simp only [first, second, ok_bind, withBits_eq]
    rfl
  | div =>
    rw [intBinary, if_neg (by decide)]
    simp only [first, second, ok_bind, divided_eq positive within small small' sdiv_eq_ofInt udiv_eq_ofInt,
      IntValue.binary]
    split
    · rfl
    · rw [ok_bind, withBits_eq]
      rfl
  | rem =>
    rw [intBinary, if_neg (by decide)]
    simp only [first, second, ok_bind, divided_eq positive within small small' srem_eq_ofInt umod_eq_ofInt,
      IntValue.binary]
    split
    · rfl
    · rw [ok_bind, withBits_eq]
      rfl
  | pow =>
    rw [intBinary, if_neg (by decide)]
    simp only [first, second, ok_bind, withBits_eq, toCount?_eq right, IntValue.binary]
    cases b.toCount? <;> rfl
  | eq | ne =>
    rw [intBinary, if_neg (by decide)]
    simp only [first, second, ok_bind]
    rfl
  | lt | le | gt | ge =>
    rw [intBinary, if_neg (by decide)]
    simp only [first, second, ok_bind, compared_eq positive within small small', isLT_compare, isLE_compare,
      isGT_compare, isGE_compare]
    rfl
  | logicAnd => exact absurd rfl proper.1
  | logicOr => exact absurd rfl proper.2

theorem binary_eq {left right : Value} (leftFormed : left.WellFormed) (rightFormed : right.WellFormed)
    (op : BinaryOp) : binary op left right = (Value.binary op left right).mapError .error := by
  cases left with
  | int a =>
    cases right with
    | int b =>
      cases op with
      | logicAnd | logicOr => rfl
      | _ => exact intBinary_eq leftFormed rightFormed (by decide)
    | bool b => cases op <;> rfl
  | bool a =>
    cases right with
    | int b => cases op <;> rfl
    | bool b => cases op <;> rfl

theorem unary_eq (op : UnaryOp) (operand : Value) : unary op operand = (Value.unary op operand).mapError .error := by
  unfold unary Value.unary
  split
  · rfl
  · rw [withBits_eq]
    rfl
  · rw [withBits_eq]
    rfl
  · rfl
  · rfl

theorem literal_eq (evaluator : Evaluator) (value : Literal) :
    literal evaluator.defaultWidth value = (evaluator.literal value).mapError .error := by
  cases value with
  | bool value => rfl
  | int value width signed =>
    cases width with
    | none =>
      rw [literal, ofLiteral_eq, Evaluator.literal]
      rfl
    | some width =>
      rw [literal, ofBits_eq, Evaluator.literal]
      cases IntValue.ofBits value width signed <;> rfl

end Operators

/-- A step does what is defined, or it asks for the successor of the largest count. -/
inductive Follows {α : Type} : Step α → Except EvalError α → Prop where
  | same (result : Except EvalError α) : Follows (result.mapError .error) result
  | carry : Follows (trap (.carry (UInt64.size - 1))) (.error (.unsupportedWidth UInt64.size))

section Functions

variable {function : Builtin} {argument : Value} {arguments : List Value} {defaultWidth : Nat}

theorem valueCount?_eq (formed : argument.WellFormed) : valueCount? argument = .ok argument.toCount? := by
  cases argument with
  | int value => exact toCount?_eq formed
  | bool value => rfl

theorem count_eq (function : Builtin) (formed : argument.WellFormed) :
    count function argument = (function.count argument).mapError .error := by
  rw [count, valueCount?_eq formed, ok_bind, Builtin.count]
  cases argument.toCount? <;> rfl

theorem count_lt {n : Nat} (found : function.count argument = .ok n) : n < UInt64.size := by
  cases argument with
  | bool value => cases found
  | int value =>
    simp only [Builtin.count, Value.toCount?, IntValue.toCount?] at found
    split at found
    · rename_i counted
      cases found
      split at counted
      · cases counted
      · split at counted
        · cases counted
          assumption
        · cases counted
    · cases found

theorem onlyCount_of_one (function : Builtin) (formed : argument.WellFormed) :
    onlyCount function [argument] = (function.count argument).mapError .error :=
  count_eq function formed

theorem onlyCount_of_ne (other : arguments.length ≠ 1) :
    onlyCount function arguments = fail (.argumentCount function.name 1 arguments.length) := by
  rw [onlyCount, arity, if_neg other]
  rfl

theorem pick_of_two (function : Builtin) (greater : Bool) {first second : Value} (one : first.WellFormed)
    (two : second.WellFormed) :
    pick function [first, second] greater = (Builtin.pick first second greater).mapError .error := by
  show (do
    let isGreater ← binary .gt first second
    if isGreater.isTruthy == greater then .ok first else .ok second) = _
  rw [binary_eq one two, Builtin.pick]
  cases Value.binary .gt first second with
  | error error => rfl
  | ok isGreater =>
    show (if isGreater.isTruthy == greater then (.ok first : Step Value) else .ok second)
      = .ok (if isGreater.isTruthy == greater then first else second)
    split <;> rfl

theorem pick_of_ne {greater : Bool} (other : arguments.length ≠ 2) :
    pick function arguments greater = fail (.argumentCount function.name 2 arguments.length) := by
  rw [pick, arity, if_neg other]
  rfl

theorem ceilLog2_eq {n : Nat} (small : n < UInt64.size) : ceilLog2 n = .ok (Builtin.ceilLog2 n) := by
  unfold ceilLog2 Builtin.ceilLog2
  split
  · rfl
  · rename_i large
    have nonzero : n - 1 ≠ 0 := by omega
    have short : (n - 1).log2 < 64 := (Nat.log2_lt nonzero).mpr (Nat.lt_of_le_of_lt (Nat.sub_le n 1) small)
    have next : (n - 1).log2 + 1 < UInt32.size := Nat.lt_of_lt_of_le (Nat.succ_lt_succ short) (by decide)
    rw [difference_of_le (by omega), ok_bind, logarithm, if_neg nonzero, ok_bind, successor, if_pos next]

theorem Follows.bind {α β : Type} {first : Except EvalError α} {next : α → Step β} {next' : α → Except EvalError β}
    (continues : ∀ value, first = .ok value → Follows (next value) (next' value)) :
    Follows (first.mapError .error >>= next) (first >>= next') := by
  cases first with
  | error error => exact .same (.error error)
  | ok value => exact continues value rfl

theorem pow2_follows {n : Nat} (small : n < UInt64.size) :
    Follows (pow2 n defaultWidth) (if maxWidth ≤ n then .error (.unsupportedWidth (n + 1))
      else .ok (.int (.ofLiteral (BitVec.ofNat 128 (twoPow n)) defaultWidth))) := by
  unfold pow2
  split
  · by_cases next : n + 1 < UInt64.size
    · rw [successor, if_pos next, ok_bind]
      exact .same (.error (.unsupportedWidth (n + 1)))
    · obtain rfl : n = UInt64.size - 1 := by omega
      rw [successor, if_neg next]
      exact .carry
  · rename_i inside
    have power : (1 : Word) <<< n = BitVec.ofNat 128 (twoPow n) := by
      have one : (1 : Word).toNat = 1 := rfl
      apply BitVec.eq_of_toNat_eq
      rw [BitVec.toNat_shiftLeft, Nat.shiftLeft_eq, one, Nat.one_mul, BitVec.toNat_ofNat, twoPow_eq]
    rw [shiftLeft_of_lt (Nat.lt_of_not_le inside), ok_bind, power, ofLiteral_eq]
    exact .same (.ok _)

theorem apply_of_length_ne {expected : Nat} (other : arguments.length ≠ expected)
    (takes : expected = if function = .max ∨ function = .min then 2 else 1) :
    function.apply defaultWidth arguments = .error (.argumentCount function.name expected arguments.length) := by
  cases function with
  | clog2 | pow2 | isPowerOf2 =>
    cases takes
    match arguments with
    | [] => rfl
    | [argument] => exact absurd rfl other
    | first :: second :: rest => rfl
  | max | min =>
    cases takes
    match arguments with
    | [] => rfl
    | [argument] => rfl
    | [first, second] => exact absurd rfl other
    | first :: second :: third :: rest => rfl

theorem follows_of_count {next : Nat → Step Value} {next' : Nat → Except EvalError Value}
    (formed : ∀ argument ∈ arguments, argument.WellFormed) (single : ¬(function = .max ∨ function = .min))
    (counts : ∀ argument, function.apply defaultWidth [argument] = function.count argument >>= next')
    (continues : ∀ n, n < UInt64.size → Follows (next n) (next' n)) :
    Follows (onlyCount function arguments >>= next) (function.apply defaultWidth arguments) := by
  by_cases one : arguments.length = 1
  · obtain ⟨argument, rfl⟩ := List.length_eq_one_iff.mp one
    rw [onlyCount_of_one function (formed argument List.mem_cons_self), counts]
    exact .bind fun n counted => continues n (count_lt counted)
  · rw [onlyCount_of_ne one, apply_of_length_ne one (if_neg single).symm]
    exact .same (.error _)

/-- Functions of well-formed arguments trap nowhere but in the successor of the largest count. -/
theorem apply_follows (formed : ∀ argument ∈ arguments, argument.WellFormed) :
    Follows (apply function defaultWidth arguments) (function.apply defaultWidth arguments) := by
  cases function with
  | clog2 =>
    apply follows_of_count formed (by decide) fun argument => rfl
    intro n small
    rw [ceilLog2_eq small, ok_bind, ofLiteral_eq]
    exact .same (.ok _)
  | pow2 =>
    apply follows_of_count formed (by decide) fun argument => rfl
    intro n small
    convert pow2_follows small using 1
    split <;> rfl
  | isPowerOf2 => exact follows_of_count formed (by decide) (fun argument => rfl) fun n _ => .same (.ok _)
  | max | min =>
    by_cases two : arguments.length = 2
    · obtain ⟨first, second, rfl⟩ := List.length_eq_two.mp two
      rw [apply, pick_of_two _ _ (formed first (by simp)) (formed second (by simp))]
      exact .same _
    · rw [apply, pick_of_ne two, apply_of_length_ne two rfl]
      exact .same (.error _)

end Functions

end Guarded
end Monomorph
