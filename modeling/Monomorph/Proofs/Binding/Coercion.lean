import Monomorph.Proofs.Binding.Arguments
import Monomorph.Proofs.Constant.Spelling

/-! Conversion of values to a declared type.

A truth value and an integer of written width are only let through in their own type.
An integer whose width is not written is let through where the range of the type contains
it. What comes out has the type, is the integer or the truth value that went in, and
is let through again as it is.
-/

set_option autoImplicit false

namespace Monomorph

def ValueType.Proper : ValueType → Prop
  | .int width _ => 1 ≤ width ∧ width ≤ maxWidth
  | .bool => True

namespace Value

inductive Suits : Value → ValueType → Prop where
  | bool (value : Bool) : Suits (.bool value) .bool
  | written {number : IntValue} : number.sized = true → Suits (.int number) (.int number.width number.signed)
  | represented {number : IntValue} {width : Nat} {signed : Bool} : number.sized = false →
      Represents width signed number.toInt → Suits (.int number) (.int width signed)

variable {value result : Value} {expected : ValueType}

theorem Suits.of_coerce? (formed : value.WellFormed) (converted : value.coerce? expected = some result) :
    value.Suits expected := by
  rcases coerce?_cases converted with ⟨_, rfl, sized⟩ | ⟨number, _, _, _, rfl, rfl, fits, _, _⟩
  · cases value with
    | bool value => exact .bool value
    | int number => exact .written (sized number rfl)
  · have inside := (IntValue.fits_iff formed).mp fits
    cases sized : number.sized with
    | false => exact .represented sized inside.2
    | true =>
      -- retyping is tried for unwritten widths only, so this one was kept
      rw [coerce?, if_pos sized] at converted
      split at converted
      · rename_i own
        rw [← own.1, ← own.2]
        exact .written sized
      · cases converted

theorem Suits.exists_coerce? (suits : value.Suits expected) (formed : value.WellFormed) (proper : expected.Proper) :
    ∃ result, value.coerce? expected = some result := by
  cases suits with
  | bool value => exact ⟨_, rfl⟩
  | written sized => exact ⟨_, by rw [coerce?, if_pos sized, if_pos ⟨rfl, rfl⟩]⟩
  | represented unwritten represents =>
    have fits := (IntValue.fits_iff formed).mpr ⟨proper, represents⟩
    obtain ⟨retyped, made⟩ := IntValue.retyped_of_fits fits
    refine ⟨.int retyped, ?_⟩
    rw [coerce?, if_neg (by rw [unwritten]; exact Bool.false_ne_true), if_pos fits, made]

theorem coerce?_of_isSized (sized : value.isSized = true) : value.coerce? value.type = some value := by
  cases value with
  | bool value => rfl
  | int number =>
    rw [isSized] at sized
    rw [type, coerce?, if_pos sized, if_pos ⟨rfl, rfl⟩]

/-- What a conversion of a value to a type gives: the value, in that type, for good. -/
structure Converts (value : Value) (expected : ValueType) (result : Value) : Prop where
  type : result.type = expected
  sized : result.isSized = true
  content : result.content = value.content
  again : ∀ what site, result.coerce expected what site = .ok result

/-- A value is converted exactly where the type has it, and is not changed by that. -/
theorem coerce_iff_suits (formed : value.WellFormed) (proper : expected.Proper) (what : String) (site : Span) :
    ((∃ result, value.coerce expected what site = .ok result) ↔ value.Suits expected) ∧
      ∀ result, value.coerce expected what site = .ok result → value.Converts expected result := by
  constructor
  · constructor
    · rintro ⟨result, converted⟩
      exact .of_coerce? formed (coerce_eq_ok_iff.mp converted)
    · intro suits
      obtain ⟨result, converted⟩ := suits.exists_coerce? formed proper
      exact ⟨result, coerce_eq_ok_iff.mpr converted⟩
  · intro result converted
    rw [coerce_eq_ok_iff] at converted
    obtain ⟨type, content⟩ := type_content_of_coerce? formed converted
    have sized := isSized_of_coerce? converted
    refine ⟨type, sized, content, fun what site => ?_⟩
    rw [coerce_eq_ok_iff, ← type]
    exact coerce?_of_isSized sized

/-- The only two integers of one signed bit are zero and minus one, and minus one goes in. -/
theorem coerce_minusOne :
    let value : Value := .int ⟨0xFFFFFFFF, 32, true, false⟩
    let bit : Value := .int ⟨1, 1, true, true⟩
    (value.WellFormed ∧ ValueType.Proper (.int 1 true)) ∧
      value.coerce (.int 1 true) "mask" .unknown = .ok bit ∧ value.Suits (.int 1 true) ∧
      value.Converts (.int 1 true) bit := by
  intro value bit
  have formed : value.WellFormed := ⟨by decide, by decide, by decide⟩
  have proper : ValueType.Proper (.int 1 true) := ⟨by decide, by decide⟩
  have converted : value.coerce (.int 1 true) "mask" .unknown = .ok bit := by decide
  obtain ⟨suits, converts⟩ := coerce_iff_suits formed proper "mask" .unknown
  exact ⟨⟨formed, proper⟩, converted, suits.mp ⟨bit, converted⟩, converts bit converted⟩

end Value
end Monomorph
