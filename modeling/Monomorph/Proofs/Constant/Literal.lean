import Monomorph.Proofs.Constant.WellFormed

/-! What the literal of a value evaluates to.

An integer is spelled without a width where that spelling brings its width and its
sign along. Every other integer is spelled with its width, and evaluates to an equal
value whose width counts as written. It does so wherever it stands.
-/

set_option autoImplicit false

namespace Monomorph

namespace Word

variable {width : Nat}

theorem toNat_truncate_modEq (width : Nat) (bits : Word) :
    ((bits.truncate width).toNat : Int) ≡ bits.toNat [ZMOD twoPow width] := by
  rw [toNat_truncate, Int.natCast_mod]
  exact Int.mod_modEq _ _

theorem twoPow_dvd (within : width ≤ maxWidth) : (twoPow width : Int) ∣ ((2 ^ 128 : Nat) : Int) := by
  have powers : twoPow width ∣ 2 ^ 128 := Nat.pow_dvd_pow 2 within
  exact_mod_cast powers

theorem toNat_ofInt_modEq (within : width ≤ maxWidth) (number : Int) :
    ((BitVec.ofInt 128 number).toNat : Int) ≡ number [ZMOD twoPow width] := by
  have whole : ((BitVec.ofInt 128 number).toNat : Int) = number % ((2 ^ 128 : Nat) : Int) := by
    rw [BitVec.toNat_ofInt]
    exact Int.toNat_of_nonneg (Int.emod_nonneg _ (by decide))
  rw [whole]
  exact (Int.mod_modEq number _).of_dvd (twoPow_dvd within)

theorem toNat_neg_modEq (within : width ≤ maxWidth) (bits : Word) :
    ((-bits).toNat : Int) ≡ -bits.toNat [ZMOD twoPow width] := by
  have negated : -bits = BitVec.ofInt 128 (-(bits.toNat : Int)) := by
    rw [BitVec.ofInt_neg, BitVec.ofInt_natCast, BitVec.ofNat_toNat, BitVec.setWidth_eq]
  rw [negated]
  exact toNat_ofInt_modEq within _

theorem read_modEq (bits : Word) (width : Nat) (signed : Bool) :
    bits.read width signed ≡ bits.toNat [ZMOD twoPow width] := by
  unfold read
  split
  · exact Int.modEq_iff_dvd.mpr ⟨1, by ring⟩
  · exact Int.ModEq.refl _

theorem eq_of_modEq {first second : Word} (left : first.toNat < twoPow width)
    (right : second.toNat < twoPow width)
    (agree : (first.toNat : Int) ≡ second.toNat [ZMOD twoPow width]) : first = second := by
  apply BitVec.eq_of_toNat_eq
  have agree' : first.toNat % twoPow width = second.toNat % twoPow width := by
    exact_mod_cast agree
  rwa [Nat.mod_eq_of_lt left, Nat.mod_eq_of_lt right] at agree'

end Word

namespace IntValue

theorem toInt_modEq (value : IntValue) :
    value.toInt ≡ value.bits.toNat [ZMOD twoPow value.width] :=
  value.bits.read_modEq value.width value.signed

theorem toNat_extended_modEq {value : IntValue} (wellFormed : value.WellFormed) :
    (value.extended.toNat : Int) ≡ value.bits.toNat [ZMOD twoPow value.width] :=
  (Word.toNat_ofInt_modEq wellFormed.2.1 _).trans value.toInt_modEq

theorem truncate_neg_magnitude {value : IntValue} (wellFormed : value.WellFormed) :
    (-((-value.extended).truncate value.width)).truncate value.width = value.bits := by
  apply Word.eq_of_modEq (Word.toNat_truncate_lt _ _) wellFormed.2.2
  have within := wellFormed.2.1
  calc (((-((-value.extended).truncate value.width)).truncate value.width).toNat : Int)
      ≡ (-((-value.extended).truncate value.width)).toNat [ZMOD twoPow value.width] :=
        Word.toNat_truncate_modEq _ _
    _ ≡ -((-value.extended).truncate value.width).toNat [ZMOD twoPow value.width] :=
        Word.toNat_neg_modEq within _
    _ ≡ -((-value.extended).toNat : Int) [ZMOD twoPow value.width] :=
        (Word.toNat_truncate_modEq _ _).neg
    _ ≡ -(-(value.extended.toNat : Int)) [ZMOD twoPow value.width] :=
        (Word.toNat_neg_modEq within _).neg
    _ = value.extended.toNat := neg_neg _
    _ ≡ value.bits.toNat [ZMOD twoPow value.width] := toNat_extended_modEq wellFormed

def bare (value : IntValue) (defaultWidth : Nat) : Bool :=
  !value.sized &&
    if value.signed then
      value.isNegative &&
        (ofLiteral ((-value.extended).truncate value.width) defaultWidth).width == value.width
    else (ofLiteral value.bits defaultWidth).same value

def relit (value : IntValue) (defaultWidth : Nat) : IntValue :=
  { value with sized := !value.bare defaultWidth }

theorem same_relit (value : IntValue) (defaultWidth : Nat) :
    (value.relit defaultWidth).same value = true := by
  simp [relit, same]

theorem relit_of_sized {value : IntValue} (sized : value.sized = true) (defaultWidth : Nat) :
    value.relit defaultWidth = value := by
  have written : value.bare defaultWidth = false := by simp [bare, sized]
  rw [relit, written]
  cases value
  simp_all

end IntValue

namespace Value

def relit (defaultWidth : Nat) : Value → Value
  | int value => .int (value.relit defaultWidth)
  | bool value => .bool value

theorem same_relit (value : Value) (defaultWidth : Nat) :
    (value.relit defaultWidth).same value = true := by
  cases value with
  | int value => exact value.same_relit defaultWidth
  | bool value => exact beq_self_eq_true value

end Value

/-- How the literal of a value spells it: directly, or as the negation of a literal. -/
inductive Expr.Spells (evaluator : Evaluator) : Expr → Value → Prop where
  | direct {literal : Literal} {value : Value} :
      evaluator.literal literal = .ok value → Spells evaluator (.literal literal) value
  | negated {literal : Literal} {operand value : Value} :
      evaluator.literal literal = .ok operand → Value.unary .neg operand = .ok value →
      Spells evaluator (.unary .neg (.literal literal)) value

namespace IntValue

variable {value : IntValue} {evaluator : Evaluator}

theorem literal_written (wellFormed : value.WellFormed) :
    evaluator.literal (.int value.bits (some value.width) value.signed)
      = .ok (.int { value with sized := true }) := by
  have within : ¬(value.width = 0 ∨ maxWidth < value.width) := by
    have := wellFormed.1
    have := wellFormed.2.1
    omega
  simp [Evaluator.literal, ofBits, within, Word.truncate_of_lt wellFormed.2.2, Except.map]

theorem toExpr_spells (wellFormed : value.WellFormed) :
    Expr.Spells evaluator (value.toExpr evaluator.defaultWidth)
      (.int (value.relit evaluator.defaultWidth)) := by
  have written (wide : value.bare evaluator.defaultWidth = false) :
      Expr.Spells evaluator (.literal (.int value.bits (some value.width) value.signed))
        (.int (value.relit evaluator.defaultWidth)) := by
    rw [relit, wide]
    exact .direct (literal_written wellFormed)
  unfold toExpr
  split
  · rename_i sized
    exact written (by simp [bare, sized])
  rename_i unsized
  have unsized : value.sized = false := by simpa using unsized
  split
  · rename_i unsigned
    have unsigned : value.signed = false := by simpa using unsigned
    split
    · rename_i same
      -- the digits alone give the width
      have spelled : ofLiteral value.bits evaluator.defaultWidth = value.relit evaluator.defaultWidth := by
        have kept : value.bare evaluator.defaultWidth = true := by simp [bare, unsized, unsigned, same]
        simp only [IntValue.same, Bool.and_eq_true, beq_iff_eq] at same
        rw [relit, kept]
        obtain ⟨⟨width, _⟩, _⟩ := same
        cases value
        simp_all [ofLiteral]
      rw [← spelled]
      exact .direct rfl
    · rename_i other
      exact written (by simp [bare, unsized, unsigned, other])
  rename_i signed
  have signed : value.signed = true := by simpa using signed
  split
  · rename_i negative
    simp only
    split
    · rename_i width
      -- the digits of the magnitude give the width, and the minus gives the sign
      have kept : value.bare evaluator.defaultWidth = true := by
        simp [bare, unsized, signed, negative, width]
      refine .negated rfl ?_
      have pattern := truncate_neg_magnitude wellFormed
      simp only [Value.unary, width, relit, kept]
      cases value
      simp_all [ofLiteral]
    · rename_i other
      exact written (by simp [bare, unsized, signed, negative, other])
  · rename_i positive
    exact written (by simp [bare, unsized, signed, positive])

end IntValue

/-- The literal of a well-formed value evaluates to an equal value. -/
theorem Value.toExpr_spells {value : Value} {evaluator : Evaluator} (wellFormed : value.WellFormed) :
    Expr.Spells evaluator (value.toExpr evaluator.defaultWidth) (value.relit evaluator.defaultWidth) := by
  cases value with
  | int value => exact IntValue.toExpr_spells wellFormed
  | bool value => exact .direct rfl

theorem IntValue.ofLiteral_ofWidth (bits : Word) (defaultWidth : Nat) :
    ofLiteral bits (Evaluator.ofWidth defaultWidth).defaultWidth = ofLiteral bits defaultWidth := by
  have clamped : min (max (Evaluator.ofWidth defaultWidth).defaultWidth 1) maxWidth
      = min (max defaultWidth 1) maxWidth := by
    simp only [Evaluator.ofWidth, maxWidth]
    omega
  rw [ofLiteral, clamped, ofLiteral]

theorem Value.toExpr_ofWidth (value : Value) (defaultWidth : Nat) :
    value.toExpr (Evaluator.ofWidth defaultWidth).defaultWidth = value.toExpr defaultWidth := by
  cases value with
  | int value => simp only [Value.toExpr, IntValue.toExpr, IntValue.ofLiteral_ofWidth]
  | bool value => rfl

theorem Expr.Spells.eval_eq_pure {ε : Type} {m : Type → Type} [Monad m] [LawfulMonad m] {evaluator : Evaluator}
    {expr : Expr} {value : Value} (spells : expr.Spells evaluator value) (bindings : Bindings)
    (resolver : Resolver ε m) :
    { evaluator with bindings := bindings }.eval resolver expr = pure value := by
  have literal (literal : Literal) :
      { evaluator with bindings := bindings }.literal literal = evaluator.literal literal := by
    unfold Evaluator.literal
    rfl
  cases spells with
  | direct found => rw [Evaluator.eval, literal, found, Resolver.lift]
  | negated found negated =>
    rw [Evaluator.eval, Evaluator.eval, literal, found, Resolver.lift, pure_bind, negated, Resolver.lift]

theorem Value.eval_toExpr {value : Value} (formed : value.WellFormed) (defaultWidth : Nat) :
    ∃ again : Value, again.same value = true ∧
      ∀ {ε : Type} {m : Type → Type} [Monad m] [LawfulMonad m] (bindings : Bindings) (resolver : Resolver ε m),
        { Evaluator.ofWidth defaultWidth with bindings := bindings }.eval resolver (value.toExpr defaultWidth)
          = pure again := by
  refine ⟨_, value.same_relit (Evaluator.ofWidth defaultWidth).defaultWidth, fun bindings resolver => ?_⟩
  rw [← value.toExpr_ofWidth]
  exact (Value.toExpr_spells formed).eval_eq_pure bindings resolver

theorem eval_toExpr_least :
    let least : Value := .int ⟨BitVec.intMin 128, 128, true, false⟩
    least.WellFormed ∧ ∃ again : Value, again.same least = true ∧
      { Evaluator.ofWidth 4294967295 with bindings := [("N", .bool true)] }.eval Resolver.closed
        (least.toExpr 4294967295) = pure again := by
  intro least
  have formed : least.WellFormed := ⟨by decide, by decide, (BitVec.intMin 128).isLt⟩
  obtain ⟨again, same, evaluated⟩ := Value.eval_toExpr formed 4294967295
  exact ⟨formed, again, same, evaluated _ _⟩

end Monomorph
