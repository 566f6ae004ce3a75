import Mathlib
import Monomorph.Binding.Arguments

/-! Integers keep within their widths.

Operators cut their results to the width that they give them, literals bring the
width that their digits need, and conversions check it. So evaluation leads from
well-formed integers to well-formed ones.
-/

set_option autoImplicit false

namespace Monomorph

theorem twoPow_eq (exponent : Nat) : twoPow exponent = 2 ^ exponent := rfl

theorem twoPow_le_twoPow {low high : Nat} (le : low ≤ high) : twoPow low ≤ twoPow high := by
  rw [twoPow_eq, twoPow_eq]
  exact Nat.pow_le_pow_right (by omega) le

namespace Word

theorem toNat_truncate (width : Nat) (bits : Word) :
    (bits.truncate width).toNat = bits.toNat % twoPow width := by
  have small : bits.toNat % twoPow width < 2 ^ 128 :=
    Nat.lt_of_le_of_lt (Nat.mod_le _ _) bits.isLt
  rw [truncate, BitVec.toNat_ofNat, Nat.mod_eq_of_lt small]

theorem toNat_truncate_lt (width : Nat) (bits : Word) :
    (bits.truncate width).toNat < twoPow width := by
  rw [toNat_truncate]
  exact Nat.mod_lt _ (Nat.two_pow_pos width)

theorem truncate_of_lt {width : Nat} {bits : Word} (within : bits.toNat < twoPow width) :
    bits.truncate width = bits := by
  apply BitVec.eq_of_toNat_eq
  rw [toNat_truncate, Nat.mod_eq_of_lt within]

theorem toNat_lt_length (bits : Word) : bits.toNat < twoPow bits.length := by
  unfold length
  split
  · rename_i zero
    subst zero
    decide
  · exact Nat.lt_log2_self

theorem length_le_of_lt {width : Nat} {bits : Word} (within : bits.toNat < twoPow width) :
    bits.length ≤ width := by
  unfold length
  split
  · exact Nat.zero_le _
  · rename_i nonzero
    have positive : bits.toNat ≠ 0 := fun zero => nonzero (BitVec.eq_of_toNat_eq zero)
    exact (Nat.log2_lt positive).mpr within

end Word

namespace IntValue

theorem wellFormed_truncate {width : Nat} (bits : Word) (signed sized : Bool) (positive : 1 ≤ width)
    (le : width ≤ maxWidth) :
    (⟨bits.truncate width, width, signed, sized⟩ : IntValue).WellFormed :=
  ⟨positive, le, Word.toNat_truncate_lt width bits⟩

theorem wellFormed_ofBits {bits : Word} {width : Nat} {signed : Bool} {value : IntValue}
    (made : ofBits bits width signed = .ok value) : value.WellFormed := by
  unfold ofBits at made
  split at made
  · cases made
  · rename_i within
    cases made
    exact wellFormed_truncate bits signed true (by omega) (by omega)

theorem wellFormed_ofLiteral (value : Word) (defaultWidth : Nat) :
    (ofLiteral value defaultWidth).WellFormed := by
  have fits := value.toNat_lt_length
  have short : value.length ≤ maxWidth := Word.length_le_of_lt value.isLt
  have wide : value.length ≤ (ofLiteral value defaultWidth).width := by
    simp only [ofLiteral]
    omega
  refine ⟨?_, ?_, Nat.lt_of_lt_of_le fits (twoPow_le_twoPow wide)⟩
  · simp only [ofLiteral]
    omega
  · simp only [ofLiteral, maxWidth] at short ⊢
    omega

theorem wellFormed_binary {op : BinaryOp} {a b : IntValue} {result : Value} (left : a.WellFormed)
    (right : b.WellFormed) (found : a.binary op b = .ok result) : result.WellFormed := by
  have low : 1 ≤ max a.width b.width := Nat.le_trans left.1 (Nat.le_max_left _ _)
  have high : max a.width b.width ≤ maxWidth := Nat.max_le.mpr ⟨left.2.1, right.2.1⟩
  cases op with
  | shl | shr =>
    cases found
    exact wellFormed_truncate _ _ _ left.1 left.2.1
  | add | sub | mul | bitAnd | bitOr | bitXor =>
    cases found
    exact wellFormed_truncate _ _ _ low high
  | div | rem =>
    simp only [binary] at found
    split at found
    · cases found
    · cases found
      exact wellFormed_truncate _ _ _ low high
  | pow =>
    simp only [binary] at found
    split at found
    · cases found
      exact wellFormed_truncate _ _ _ low high
    · cases found
  | logicAnd | logicOr | eq | ne | lt | le | gt | ge =>
    cases found
    trivial

theorem wellFormed_same {first second : IntValue} (same : first.same second = true)
    (wellFormed : first.WellFormed) : second.WellFormed := by
  simp only [IntValue.same, Bool.and_eq_true, beq_iff_eq] at same
  obtain ⟨⟨width, _⟩, bits⟩ := same
  unfold WellFormed at wellFormed ⊢
  rwa [← width, ← bits]

end IntValue

namespace Value

theorem wellFormed_same {first second : Value} (same : first.same second = true)
    (wellFormed : first.WellFormed) : second.WellFormed := by
  cases first with
  | int a =>
    cases second with
    | int b => exact IntValue.wellFormed_same same wellFormed
    | bool b => cases same
  | bool a =>
    cases second with
    | int b => cases same
    | bool b => trivial

theorem wellFormed_binary {op : BinaryOp} {left right result : Value} (leftFormed : left.WellFormed)
    (rightFormed : right.WellFormed) (found : binary op left right = .ok result) :
    result.WellFormed := by
  unfold binary at found
  split at found
  · cases found
    trivial
  · cases found
    trivial
  · exact IntValue.wellFormed_binary leftFormed rightFormed found
  · unfold boolBinary at found
    split at found <;> cases found <;> trivial
  · cases found

theorem wellFormed_unary {op : UnaryOp} {operand result : Value} (formed : operand.WellFormed)
    (found : unary op operand = .ok result) : result.WellFormed := by
  unfold unary at found
  split at found
  · cases found
    trivial
  · cases found
    exact IntValue.wellFormed_truncate _ _ _ formed.1 formed.2.1
  · cases found
    exact IntValue.wellFormed_truncate _ _ _ formed.1 formed.2.1
  · cases found
    trivial
  · cases found

/-- A value is converted by being left as it is, or, if it is an integer without a written width, by being retyped. -/
theorem coerce?_cases {value result : Value} {expected : ValueType} (found : value.coerce? expected = some result) :
    (result = value ∧ value.type = expected ∧ ∀ number, value = .int number → number.sized = true) ∨
      ∃ number width signed retyped, value = .int number ∧ expected = .int width signed ∧
        number.fits width signed = true ∧ number.retyped width signed = .ok retyped ∧ result = .int retyped := by
  unfold coerce? at found
  split at found
  · cases found
    exact .inl ⟨rfl, rfl, nofun⟩
  · rename_i width signed number
    split at found
    · rename_i sized
      split at found
      · rename_i own
        cases found
        refine .inl ⟨rfl, congrArg₂ ValueType.int own.1 own.2, ?_⟩
        intro other same
        cases same
        exact sized
      · cases found
    · split at found
      · rename_i fits
        split at found
        · rename_i retyped made
          cases found
          exact .inr ⟨number, width, signed, retyped, rfl, rfl, fits, made, rfl⟩
        · cases found
      · cases found
  · cases found

theorem wellFormed_coerce? {value result : Value} {expected : ValueType} (formed : value.WellFormed)
    (found : value.coerce? expected = some result) : result.WellFormed := by
  rcases coerce?_cases found with ⟨same, _⟩ | ⟨_, _, _, _, _, _, _, made, same⟩
  · rw [same]
    exact formed
  · rw [same]
    exact IntValue.wellFormed_ofBits made

end Value

theorem Builtin.wellFormed_apply {function : Builtin} {defaultWidth : Nat} {arguments : List Value}
    {result : Value} (formed : ∀ argument ∈ arguments, argument.WellFormed)
    (found : function.apply defaultWidth arguments = .ok result) : result.WellFormed := by
  have picks {first second : Value} {greater : Bool} (one : first.WellFormed) (two : second.WellFormed)
      (picked : pick first second greater = .ok result) : result.WellFormed := by
    unfold pick at picked
    cases compared : Value.binary .gt first second with
    | error error =>
      rw [compared] at picked
      cases picked
    | ok isGreater =>
      rw [compared] at picked
      cases picked
      split
      · exact one
      · exact two
  unfold apply at found
  split at found
  · rename_i argument
    cases counted : clog2.count argument with
    | error error =>
      rw [counted] at found
      cases found
    | ok n =>
      rw [counted] at found
      cases found
      exact IntValue.wellFormed_ofLiteral _ _
  · rename_i argument
    cases counted : pow2.count argument with
    | error error =>
      rw [counted] at found
      cases found
    | ok n =>
      rw [counted] at found
      simp only [bind, Except.bind] at found
      split at found
      · cases found
      · cases found
        exact IntValue.wellFormed_ofLiteral _ _
  · rename_i argument
    cases counted : isPowerOf2.count argument with
    | error error =>
      rw [counted] at found
      cases found
    | ok n =>
      rw [counted] at found
      cases found
      trivial
  · exact picks (formed _ (by simp)) (formed _ (by simp)) found
  · exact picks (formed _ (by simp)) (formed _ (by simp)) found
  all_goals cases found

theorem Evaluator.wellFormed_literal {evaluator : Evaluator} {literal : Literal} {result : Value}
    (found : evaluator.literal literal = .ok result) : result.WellFormed := by
  unfold Evaluator.literal at found
  split at found
  · cases found
    trivial
  · cases found
    exact IntValue.wellFormed_ofLiteral _ _
  · rename_i value width signed
    cases made : IntValue.ofBits value width signed with
    | error error =>
      rw [made] at found
      cases found
    | ok value =>
      rw [made] at found
      cases found
      exact IntValue.wellFormed_ofBits made

def Arguments.WellFormed (arguments : Arguments) : Prop := ∀ value ∈ arguments, value.WellFormed

namespace Bindings

variable {bindings : Bindings} {name : String} {value : Value} {pairs : List (String × Value)}

theorem mem_of_get? (found : bindings.get? name = some value) : (name, value) ∈ bindings := by
  unfold get? at found
  obtain ⟨before, after, rfl, _⟩ := List.lookup_eq_some_iff.mp found
  simp

theorem mem_insertAll {pair : String × Value} (member : pair ∈ bindings.insertAll pairs) :
    pair ∈ bindings ∨ pair ∈ pairs := by
  induction pairs generalizing bindings with
  | nil => exact .inl member
  | cons first rest ih =>
    have step : pair ∈ bindings.insert first.1 first.2 ∨ pair ∈ rest := ih member
    rcases step with inserted | later
    · rcases List.mem_cons.mp inserted with same | kept
      · exact .inr (same ▸ List.mem_cons_self)
      · exact .inl (List.mem_of_mem_filter kept)
    · exact .inr (List.mem_cons_of_mem _ later)

end Bindings

namespace Evaluator

def WellFormed (evaluator : Evaluator) : Prop :=
  ∀ name value, evaluator.bindings.get? name = some value → value.WellFormed

theorem wellFormed_ofWidth (defaultWidth : Nat) : (Evaluator.ofWidth defaultWidth).WellFormed := by
  intro name value found
  cases found

theorem wellFormed_bindAll {defaultWidth : Nat} {names : List String} {arguments : Arguments}
    (formed : arguments.WellFormed) :
    ((Evaluator.ofWidth defaultWidth).bindAll (names.zip arguments)).WellFormed := by
  intro name value found
  rcases Bindings.mem_insertAll (Bindings.mem_of_get? found) with old | new
  · cases old
  · exact formed value (List.of_mem_zip new).2

end Evaluator
end Monomorph
