import Mathlib
import Monomorph.Instance.Name
import Monomorph.Proofs.Instance.Registry

/-! Generated names identify instances.

The number of an instance has no underscore in it, so the last marker of a generated
name tells the base and the number apart, whatever the base contains. A number is
written in one way only, so a name is read exactly if it was generated.
-/

set_option autoImplicit false

namespace Monomorph

theorem cutAtMarker_eq_none {chars : List Char} (plain : '_' ∉ chars) : cutAtMarker chars = none := by
  induction chars with
  | nil => rfl
  | cons first rest ih =>
    rw [List.mem_cons, not_or] at plain
    unfold cutAtMarker
    simp only [ih plain.2]
    split
    · exact absurd rfl plain.1
    · rfl

/-- What follows the last marker has no underscore, so the cut is there, also behind a base that ends
in underscores. -/
theorem cutAtMarker_append (before : List Char) {after : List Char} (plain : '_' ∉ after) :
    cutAtMarker (before ++ '_' :: '_' :: after) = some (before, after) := by
  induction before with
  | nil =>
    have single : cutAtMarker ('_' :: after) = none := by
      unfold cutAtMarker
      simp only [cutAtMarker_eq_none plain]
      split
      · exact absurd List.mem_cons_self plain
      · rfl
    rw [List.nil_append]
    unfold cutAtMarker
    simp only [single]
  | cons first rest ih =>
    rw [List.cons_append]
    unfold cutAtMarker
    simp only [ih]

theorem eq_append_of_cutAtMarker {chars before after : List Char}
    (cut : cutAtMarker chars = some (before, after)) : chars = before ++ '_' :: '_' :: after := by
  induction chars generalizing before with
  | nil => cases cut
  | cons first rest ih =>
    unfold cutAtMarker at cut
    split at cut
    · rename_i found
      cases cut
      rw [ih found]
      rfl
    · split at cut
      · cases cut
        rfl
      · cases cut

namespace InstanceId

theorem digitChar_of_isDigit {digit : Char} (isDigit : digit.isDigit = true) :
    digit.toNat - '0'.toNat < 10 ∧ (digit.toNat - '0'.toNat).digitChar = digit := by
  obtain ⟨low, high⟩ := Char.isDigit_iff_toNat.mp isDigit
  have small : digit.toNat - '0'.toNat < 10 := by
    have nine : '9'.toNat = '0'.toNat + 9 := rfl
    omega
  refine ⟨small, Char.toNat_inj.mp ?_⟩
  rw [Nat.toNat_digitChar_of_lt_ten small]
  exact Nat.add_sub_cancel' low

theorem toDigits_ofDigitChars {digits : List Char} (start : digits.head? ≠ some '0') (filled : digits ≠ [])
    (all : ∀ digit ∈ digits, digit.isDigit = true) :
    Nat.toDigits 10 (Nat.ofDigitChars 10 digits 0) = digits := by
  induction digits using List.reverseRecOn with
  | nil => exact absurd rfl filled
  | append_singleton front last ih =>
    obtain ⟨small, same⟩ := digitChar_of_isDigit (all last (by simp))
    rw [Nat.ofDigitChars_append, Nat.ofDigitChars_cons, Nat.ofDigitChars_nil]
    cases front with
    | nil =>
      rw [Nat.ofDigitChars_nil, Nat.mul_zero, Nat.zero_add, Nat.toDigits_of_lt_base small, same]
      rfl
    | cons first rest =>
      -- the digits before the last one denote a positive number
      have front := ih start (List.cons_ne_nil _ _) fun digit member => all digit (List.mem_append_left _ member)
      have positive : 0 < Nat.ofDigitChars 10 (first :: rest) 0 := by
        apply Nat.pos_of_ne_zero
        intro zero
        rw [zero, Nat.toDigits_zero] at front
        cases front
        exact start rfl
      rw [← Nat.toDigits_append_toDigits (by decide) positive small, front, Nat.toDigits_of_lt_base small, same]

theorem head?_toDigits {number : Nat} (positive : 0 < number) : (Nat.toDigits 10 number).head? ≠ some '0' := by
  induction number using Nat.strongRecOn with
  | ind number ih =>
    rw [Nat.toDigits_eq_if (by decide)]
    split
    · simp [Nat.pos_iff_ne_zero.mp positive]
    · rename_i large
      rw [List.head?_append_of_ne_nil _ Nat.toDigits_ne_nil]
      exact ih (number / 10) (by omega) (by omega)

theorem exists_toDigits_eq_cons (number : Nat) :
    ∃ digit others, Nat.toDigits 10 number = digit :: others ∧ digit.isDigit = true := by
  obtain ⟨digit, others, digits⟩ := List.exists_cons_of_ne_nil (Nat.toDigits_ne_nil (b := 10) (n := number))
  exact ⟨digit, others, digits, Nat.isDigit_of_mem_toDigits (by decide) (by decide) (digits ▸ List.mem_cons_self)⟩

theorem span_toDigits (number : Nat) {rest : List Char} (ends : ∀ char ∈ rest.head?, char.isDigit = false) :
    (Nat.toDigits 10 number ++ rest).takeWhile Char.isDigit = Nat.toDigits 10 number ∧
      (Nat.toDigits 10 number ++ rest).dropWhile Char.isDigit = rest := by
  have all (digit : Char) (member : digit ∈ Nat.toDigits 10 number) : digit.isDigit = true :=
    Nat.isDigit_of_mem_toDigits (by decide) (by decide) member
  rw [List.takeWhile_append_of_pos all, List.dropWhile_append_of_pos all]
  cases rest with
  | nil => exact ⟨List.append_nil _, rfl⟩
  | cons char rest =>
    have ended := ends char rfl
    simp [ended]

theorem parse?_eq_some_iff {digits : List Char} {id : InstanceId} :
    parse? digits = some id ↔ digits = Nat.toDigits 10 id.number := by
  unfold parse?
  constructor
  · intro parsed
    split at parsed
    · cases parsed
    · rename_i canonical
      simp only [Bool.or_eq_true, not_or, List.isEmpty_iff, beq_iff_eq, Bool.not_eq_true',
        Bool.not_eq_false, List.all_eq_true] at canonical
      obtain ⟨⟨filled, start⟩, all⟩ := canonical
      rw [number_of_ofNat? parsed, toDigits_ofDigitChars start filled all]
  · rintro rfl
    rw [Nat.ofDigitChars_ten_toDigits, ofNat?_number, if_neg]
    simp only [Bool.or_eq_true, not_or, List.isEmpty_iff, beq_iff_eq, Bool.not_eq_true',
        Bool.not_eq_false, List.all_eq_true]
    exact ⟨⟨Nat.toDigits_ne_nil, head?_toDigits id.positive⟩,
      fun _ member => Nat.isDigit_of_mem_toDigits (by decide) (by decide) member⟩

end InstanceId

namespace Instance

theorem toList_name (target : Instance) :
    target.name.toList
      = '_' :: '_' :: (target.base.toList ++ '_' :: '_' :: Nat.toDigits 10 target.id.number) := by
  simp [name, marker]

theorem isReserved_name (target : Instance) : isReserved target.name = true := by
  simp [isReserved, toList_name]

theorem cutAtMarker_name (target : Instance) :
    cutAtMarker (target.base.toList ++ '_' :: '_' :: Nat.toDigits 10 target.id.number)
      = some (target.base.toList, Nat.toDigits 10 target.id.number) :=
  cutAtMarker_append _ Nat.underscore_not_in_toDigits

theorem name_injective {first second : Instance} (same : first.name = second.name) : first = second := by
  have lists := congrArg String.toList same
  rw [toList_name, toList_name] at lists
  have cuts := congrArg cutAtMarker (List.cons.inj (List.cons.inj lists).2).2
  rw [cutAtMarker_name, cutAtMarker_name, Option.some.injEq, Prod.mk.injEq] at cuts
  obtain ⟨bases, digits⟩ := cuts
  have ids : first.id = second.id := by
    have parsed : InstanceId.parse? (Nat.toDigits 10 first.id.number) = some second.id :=
      InstanceId.parse?_eq_some_iff.mpr digits
    rw [InstanceId.parse?_eq_some_iff.mpr rfl] at parsed
    exact Option.some.inj parsed
  cases first
  cases second
  cases String.toList_injective bases
  cases ids
  rfl

theorem parse?_name {target : Instance} (filled : target.base ≠ "") : parse? target.name = some target := by
  have base : target.base.toList ≠ [] := fun empty => filled (String.toList_eq_nil_iff.mp empty)
  unfold parse?
  rw [toList_name]
  simp [cutAtMarker_name, base, InstanceId.parse?_eq_some_iff.mpr rfl]

theorem eq_name_of_parse? {name : String} {target : Instance} (parsed : parse? name = some target) :
    target.base ≠ "" ∧ name = target.name := by
  unfold parse? at parsed
  split at parsed
  · rename_i rest chars
    simp only [Option.bind_eq_bind, Option.bind_eq_some_iff] at parsed
    obtain ⟨⟨base, digits⟩, cut, parsed⟩ := parsed
    split at parsed
    · cases parsed
    · rename_i filled
      obtain ⟨id, number, same⟩ := Option.bind_eq_some_iff.mp parsed
      cases same
      have digits_eq : digits = Nat.toDigits 10 id.number := InstanceId.parse?_eq_some_iff.mp number
      refine ⟨fun empty => ?_, String.toList_injective ?_⟩
      · rw [String.ofList_eq_empty_iff.mp empty] at filled
        exact filled rfl
      · rw [chars, eq_append_of_cutAtMarker cut, toList_name, String.toList_ofList, digits_eq]
  · cases parsed

/-- Reading is the exact inverse of naming: a name is read as an instance just when it is the name of
this instance and the base is not empty. No two instances share a name, an empty base included. -/
theorem parse?_inverse_name :
    (∀ name base id, parse? name = some ⟨base, id⟩ ↔ base ≠ "" ∧ name = Instance.name ⟨base, id⟩) ∧
      Function.Injective Instance.name := by
  refine ⟨fun name base id => ⟨eq_name_of_parse?, ?_⟩, fun _ _ => name_injective⟩
  rintro ⟨filled, rfl⟩
  exact parse?_name filled

end Instance
end Monomorph
