import Monomorph.Proofs.Constant.Range
import Monomorph.Proofs.Instance.Name

/-! What the text of a value tells.

An integer of written width shows its type and the integer that it denotes. Where the width
is not written, only a number is shown, which is the integer read as a signed one of the widest
width. Digits, signs and marks cannot be taken for each other, so the text tells all this
and nothing else: values of unwritten width may differ in their types and read the same.
-/

set_option autoImplicit false

namespace Monomorph

/-- The content of a text: a truth value, a number, or a number with a type. -/
inductive Spelling where
  | truth (value : Bool)
  | plain (number : Int)
  | typed (width : Nat) (signed : Bool) (number : Int)
  deriving DecidableEq

def signMark (number : Int) : List Char := if number < 0 then ['-'] else []

def typeMark (signed : Bool) : List Char := if signed then ['\'', 's', 'd'] else ['\'', 'd']

namespace Spelling

def chars : Spelling → List Char
  | truth true => ['t', 'r', 'u', 'e']
  | truth false => ['f', 'a', 'l', 's', 'e']
  | plain number => signMark number ++ (Nat.toDigits 10 number.natAbs ++ [])
  | typed width signed number =>
    signMark number ++ (Nat.toDigits 10 width ++ (typeMark signed ++ Nat.toDigits 10 number.natAbs))

theorem toDigits_injective {first second : Nat} (same : Nat.toDigits 10 first = Nat.toDigits 10 second) :
    first = second := by
  have numbers := congrArg (Nat.ofDigitChars 10 · 0) same
  simpa only [Nat.ofDigitChars_ten_toDigits] using numbers

theorem sign_ne_toDigits (number : Nat) (rest text : List Char) : '-' :: text ≠ Nat.toDigits 10 number ++ rest := by
  intro same
  obtain ⟨digit, others, digits, isDigit⟩ := InstanceId.exists_toDigits_eq_cons number
  rw [digits, List.cons_append, List.cons.injEq] at same
  rw [← same.1] at isDigit
  cases isDigit

variable {first second : Int} {m n : Nat} {rest rest' : List Char}

theorem digits_cancel (ends : ∀ char ∈ rest.head?, char.isDigit = false)
    (ends' : ∀ char ∈ rest'.head?, char.isDigit = false)
    (same : Nat.toDigits 10 m ++ rest = Nat.toDigits 10 n ++ rest') : m = n ∧ rest = rest' := by
  obtain ⟨taken, dropped⟩ := InstanceId.span_toDigits m ends
  obtain ⟨taken', dropped'⟩ := InstanceId.span_toDigits n ends'
  rw [same] at taken dropped
  exact ⟨toDigits_injective (taken.symm.trans taken'), dropped.symm.trans dropped'⟩

theorem sign_digits_cancel (ends : ∀ char ∈ rest.head?, char.isDigit = false)
    (ends' : ∀ char ∈ rest'.head?, char.isDigit = false)
    (same : signMark first ++ (Nat.toDigits 10 m ++ rest) = signMark second ++ (Nat.toDigits 10 n ++ rest')) :
    (first < 0 ↔ second < 0) ∧ m = n ∧ rest = rest' := by
  unfold signMark at same
  by_cases negative : first < 0
  all_goals by_cases negative' : second < 0
  · rw [if_pos negative, if_pos negative'] at same
    exact ⟨iff_of_true negative negative', digits_cancel ends ends' (List.cons.inj same).2⟩
  · rw [if_pos negative, if_neg negative'] at same
    exact absurd same (sign_ne_toDigits n rest' _)
  · rw [if_neg negative, if_pos negative'] at same
    exact absurd same.symm (sign_ne_toDigits m rest _)
  · rw [if_neg negative, if_neg negative'] at same
    exact ⟨iff_of_false negative negative', digits_cancel ends ends' same⟩

theorem truth_ne_sign_digits (value : Bool) (number : Int) (magnitude : Nat) (rest : List Char) :
    (truth value).chars ≠ signMark number ++ (Nat.toDigits 10 magnitude ++ rest) := by
  intro same
  obtain ⟨digit, others, digits, isDigit⟩ := InstanceId.exists_toDigits_eq_cons magnitude
  have letter (char : Char) (text : List Char) (noSign : char ≠ '-') (noDigit : char.isDigit = false) :
      char :: text ≠ signMark number ++ (Nat.toDigits 10 magnitude ++ rest) := by
    unfold signMark
    intro starts
    split at starts
    · exact noSign (List.cons.inj starts).1
    · rw [digits, List.nil_append, List.cons_append, List.cons.injEq] at starts
      rw [starts.1, isDigit] at noDigit
      cases noDigit
  cases value with
  | true => exact letter 't' _ (by decide) (by decide) same
  | false => exact letter 'f' _ (by decide) (by decide) same

theorem ends_typeMark (signed : Bool) (text : List Char) :
    ∀ char ∈ (typeMark signed ++ text).head?, char.isDigit = false := by
  cases signed
  all_goals
    intro char head
    cases head
    rfl

theorem typeMark_cancel {signed signed' : Bool}
    (same : typeMark signed ++ Nat.toDigits 10 m = typeMark signed' ++ Nat.toDigits 10 n) :
    signed = signed' ∧ m = n := by
  cases signed <;> cases signed'
  · exact ⟨rfl, toDigits_injective (List.append_cancel_left same)⟩
  · cases (List.cons.inj (List.cons.inj same).2).1
  · cases (List.cons.inj (List.cons.inj same).2).1
  · exact ⟨rfl, toDigits_injective (List.append_cancel_left same)⟩

theorem chars_injective {first second : Spelling} (same : first.chars = second.chars) : first = second := by
  have none : ∀ char ∈ ([] : List Char).head?, char.isDigit = false := fun _ head => by cases head
  cases first with
  | truth value =>
    cases second with
    | truth value' =>
      cases value <;> cases value'
      · rfl
      · cases same
      · cases same
      · rfl
    | plain number => exact absurd same (truth_ne_sign_digits value number _ _)
    | typed width signed number => exact absurd same (truth_ne_sign_digits value number _ _)
  | plain number =>
    cases second with
    | truth value => exact absurd same.symm (truth_ne_sign_digits value number _ _)
    | plain number' =>
      obtain ⟨signs, magnitudes, _⟩ := sign_digits_cancel none none same
      rw [show number = number' by omega]
    | typed width signed number' =>
      obtain ⟨_, _, empty⟩ := sign_digits_cancel none (ends_typeMark signed _) same
      cases signed <;> cases empty
  | typed width signed number =>
    cases second with
    | truth value => exact absurd same.symm (truth_ne_sign_digits value number _ _)
    | plain number' =>
      obtain ⟨_, _, empty⟩ := sign_digits_cancel (ends_typeMark signed _) none same
      cases signed <;> cases empty
    | typed width' signed' number' =>
      obtain ⟨signs, rfl, marks⟩ := sign_digits_cancel (ends_typeMark signed _) (ends_typeMark signed' _) same
      obtain ⟨rfl, magnitudes⟩ := typeMark_cancel marks
      rw [show number = number' by omega]

end Spelling

namespace IntValue

variable {value : IntValue}

theorem bits_eq_of_extended_eq {other : IntValue} (left : value.WellFormed) (right : other.WellFormed)
    (widths : value.width = other.width) (same : value.extended = other.extended) : value.bits = other.bits := by
  have agree := toNat_extended_modEq right
  rw [← same, ← widths] at agree
  exact Word.eq_of_modEq left.2.2 (widths ▸ right.2.2) ((toNat_extended_modEq left).symm.trans agree)

theorem toList_toString (number : Int) :
    (toString number).toList = signMark number ++ Nat.toDigits 10 number.natAbs := by
  cases number with
  | ofNat magnitude =>
    have nonneg : ¬(Int.ofNat magnitude < 0) := Int.not_lt.mpr (Int.natCast_nonneg magnitude)
    rw [signMark, if_neg nonneg]
    exact Nat.toList_repr
  | negSucc below =>
    rw [signMark, if_pos (Int.negSucc_lt_zero below)]
    show ("-" ++ (below + 1).repr).toList = _
    rw [String.toList_append, Nat.toList_repr]
    rfl

/-- A set top bit is written as a sign and the distance to the next power of two, which is the magnitude of
the integer. -/
theorem toList_signedText (formed : value.WellFormed) (signed : value.signed = true) :
    (Literal.signedText value.bits value.width).toList = (Spelling.typed value.width true value.toInt).chars := by
  obtain ⟨positive, within, fits⟩ := formed
  have top : (decide (0 < value.width) && value.bits.getLsbD (min (value.width - 1) 127)) = value.isNegative := by
    have low : value.width - 1 ≤ 127 := Nat.sub_le_sub_right within 1
    rw [isNegative, signed, decide_eq_true (show 0 < value.width from positive), Nat.min_eq_left low]
  rw [Literal.signedText, top]
  split
  · rename_i negative
    have below : value.toInt = value.bits.toNat - (twoPow value.width : Int) := if_pos negative
    have magnitude : (if maxWidth ≤ value.width then (-value.bits).toNat else twoPow value.width - value.bits.toNat)
        = value.toInt.natAbs := by
      split
      · rename_i wide
        have all : twoPow value.width = 2 ^ 128 := by rw [Nat.le_antisymm within wide, twoPow_eq, maxWidth]
        have some : 0 < value.bits.toNat := by
          rw [isNegative, signed, Bool.true_and, Word.getLsbD_top_iff positive fits] at negative
          exact Nat.lt_of_lt_of_le (twoPow_pos _) negative
        rw [BitVec.toNat_neg, Nat.mod_eq_of_lt (by omega)]
        omega
      · omega
    simp only [magnitude, Spelling.chars, signMark, if_pos (show value.toInt < 0 by omega)]
    simp [typeMark]
  · rename_i nonneg
    have same := toInt_of_isNegative_eq_false (by simpa using nonneg)
    simp only [same, Spelling.chars, signMark, if_neg (show ¬((value.bits.toNat : Int) < 0) by omega)]
    simp [typeMark]

end IntValue

namespace Value

def spelling : Value → Spelling
  | int value => if value.sized then .typed value.width value.signed value.toInt else .plain value.toSigned
  | bool value => .truth value

theorem toList_text {value : Value} (formed : value.WellFormed) : value.text.toList = value.spelling.chars := by
  cases value with
  | bool value => cases value <;> rfl
  | int value =>
    rw [text, IntValue.text, spelling]
    split
    · cases signed : value.signed with
      | true => exact IntValue.toList_signedText formed signed
      | false =>
        have same : value.toInt = value.bits.toNat := by
          apply IntValue.toInt_of_isNegative_eq_false
          rw [IntValue.isNegative, signed, Bool.false_and]
        simp only [same, Literal.text, Spelling.chars, signMark, if_neg (show ¬((value.bits.toNat : Int) < 0) by omega)]
        simp [typeMark]
    · rw [IntValue.toList_toString, Spelling.chars, List.append_nil]

theorem text_eq_iff {first second : Value} (left : first.WellFormed) (right : second.WellFormed) :
    first.text = second.text ↔ first.spelling = second.spelling := by
  rw [← String.toList_inj, toList_text left, toList_text right]
  exact ⟨Spelling.chars_injective, congrArg Spelling.chars⟩

theorem same_of_spelling_eq {first second : Value} (left : first.WellFormed) (right : second.WellFormed)
    (alike : first.spelling = second.spelling) (types : first.type = second.type) : first.same second = true := by
  cases first with
  | bool value =>
    cases second with
    | bool value' =>
      cases alike
      exact beq_self_eq_true value
    | int b => cases types
  | int a =>
    cases second with
    | bool value => cases types
    | int b =>
      obtain ⟨widths, signs⟩ := ValueType.int.inj types
      refine IntValue.same_iff.mpr ⟨widths, signs, IntValue.bits_eq_of_extended_eq left right widths ?_⟩
      simp only [spelling] at alike
      split at alike
      all_goals split at alike
      · rw [IntValue.extended, IntValue.extended, (Spelling.typed.inj alike).2.2]
      · cases alike
      · cases alike
      · exact BitVec.eq_of_toInt_eq (Spelling.plain.inj alike)

end Value
end Monomorph
