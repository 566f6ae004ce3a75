import Monomorph.Constant.IntValue

/-! Constant values and their types. -/

set_option autoImplicit false

namespace Monomorph

inductive ValueType where
  | int (width : Nat) (signed : Bool)
  | bool
  deriving DecidableEq, Repr

def ValueType.text : ValueType → String
  | int width signed => toString width ++ "-bit " ++ (if signed then "signed" else "unsigned")
  | bool => "bool"

inductive Value where
  | int (value : IntValue)
  | bool (value : Bool)
  deriving DecidableEq, Repr

namespace Value

def type : Value → ValueType
  | int value => .int value.width value.signed
  | bool _ => .bool

def WellFormed : Value → Prop
  | int value => value.WellFormed
  | bool _ => True

def same : Value → Value → Bool
  | int first, int second => first.same second
  | bool first, bool second => first == second
  | _, _ => false

def isTruthy : Value → Bool
  | int value => value.bits != 0
  | bool value => value

def toCount? : Value → Option Nat
  | int value => value.toCount?
  | bool _ => none

def toExpr : Value → Nat → Expr
  | int value, defaultWidth => value.toExpr defaultWidth
  | bool value, _ => .literal (.bool value)

def text : Value → String
  | int value => value.text
  | bool value => toString value

end Value

/-- The values bound to the parameters of a generic package, in their order. -/
abbrev Arguments := List Value

namespace Arguments

def same : Arguments → Arguments → Bool
  | [], [] => true
  | first :: rest, first' :: rest' => first.same first' && same rest rest'
  | _, _ => false

def text (arguments : Arguments) : String := ", ".intercalate (arguments.map Value.text)

end Arguments

theorem IntValue.same_iff {first second : IntValue} :
    first.same second = true ↔
      first.width = second.width ∧ first.signed = second.signed ∧ first.bits = second.bits := by
  simp [IntValue.same, and_assoc]

namespace Value

theorem same_refl (value : Value) : value.same value = true := by
  cases value with
  | int value => exact IntValue.same_iff.mpr ⟨rfl, rfl, rfl⟩
  | bool value => exact beq_self_eq_true value

theorem same_symm {first second : Value} (same : first.same second = true) :
    second.same first = true := by
  cases first <;> cases second <;> simp_all [Value.same, IntValue.same_iff]

theorem same_trans {first second third : Value} (same : first.same second = true)
    (next : second.same third = true) : first.same third = true := by
  cases first <;> cases second <;> cases third <;> simp_all [Value.same, IntValue.same_iff]

end Value

namespace Arguments

theorem same_refl (arguments : Arguments) : arguments.same arguments = true := by
  induction arguments with
  | nil => rfl
  | cons first rest ih => simp [same, first.same_refl, ih]

theorem same_symm {first second : Arguments} (agree : first.same second = true) :
    second.same first = true := by
  induction first generalizing second with
  | nil =>
    cases second with
    | nil => rfl
    | cons other others => cases agree
  | cons value rest ih =>
    cases second with
    | nil => cases agree
    | cons other others =>
      simp only [same, Bool.and_eq_true] at agree ⊢
      exact ⟨Value.same_symm agree.1, ih agree.2⟩

theorem same_trans {first second third : Arguments} (agree : first.same second = true)
    (next : second.same third = true) : first.same third = true := by
  induction first generalizing second third with
  | nil =>
    cases second with
    | nil => exact next
    | cons other others => cases agree
  | cons value rest ih =>
    cases second with
    | nil => cases agree
    | cons other others =>
      cases third with
      | nil => cases next
      | cons last lasts =>
        simp only [same, Bool.and_eq_true] at agree next ⊢
        exact ⟨Value.same_trans agree.1 next.1, ih agree.2 next.2⟩

end Arguments

end Monomorph
