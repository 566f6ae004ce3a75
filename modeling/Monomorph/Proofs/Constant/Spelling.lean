import Monomorph.Proofs.Constant.Range
import Monomorph.Proofs.Instance.Registry

/-! Values that differ only in whether their width is written.

Such values compare equal, and operators take them to equal results: nothing but
the negation of an unsigned integer and the conversion to another type looks at how a
width came about.
-/

set_option autoImplicit false

namespace Monomorph

namespace IntValue

variable {value : IntValue}

theorem fits_self (formed : value.WellFormed) : value.fits value.width value.signed = true :=
  (fits_iff formed).mpr ⟨⟨formed.1, formed.2.1⟩, represents_toInt formed⟩

theorem retyped_self (formed : value.WellFormed) :
    value.retyped value.width value.signed = .ok { value with sized := true } := by
  have within : ¬(value.width = 0 ∨ maxWidth < value.width) := by
    have := formed.1
    have := formed.2.1
    omega
  have bits : value.extended.truncate value.width = value.bits :=
    Word.eq_of_modEq (Word.toNat_truncate_lt _ _) formed.2.2
      ((Word.toNat_truncate_modEq _ _).trans (toNat_extended_modEq formed))
  rw [retyped, ofBits, if_neg within, bits]

theorem retyped_of_fits {width : Nat} {signed : Bool} (fits : value.fits width signed = true) :
    ∃ retyped, value.retyped width signed = .ok retyped := by
  unfold IntValue.fits at fits
  split at fits
  · cases fits
  · rename_i within
    rw [retyped, ofBits, if_neg within]
    exact ⟨_, rfl⟩

end IntValue

/-- Two computations have related results, or both of them fail. -/
inductive Agree {ε δ α β : Type} (related : α → β → Prop) : Except ε α → Except δ β → Prop where
  | ok {first : α} {second : β} : related first second → Agree related (.ok first) (.ok second)
  | error {first : ε} {second : δ} : Agree related (.error first) (.error second)

namespace Agree

variable {ε δ α β : Type} {related : α → β → Prop}

theorem of_ok {first : Except ε α} {second : Except δ β} (agree : Agree related first second) {a : α} {b : β}
    (found : first = .ok a) (found' : second = .ok b) : related a b := by
  cases agree with
  | ok here =>
    cases found
    cases found'
    exact here
  | error => cases found

theorem imp {other : α → β → Prop} {first : Except ε α} {second : Except δ β}
    (agree : Agree related first second)
    (next : ∀ a b, first = .ok a → related a b → other a b) : Agree other first second := by
  cases agree with
  | ok here => exact .ok (next _ _ rfl here)
  | error => exact .error

theorem refl {related : α → α → Prop} (reflexive : ∀ value, related value value) (result : Except ε α) :
    Agree related result result := by
  cases result with
  | ok value => exact .ok (reflexive value)
  | error error => exact .error

theorem bind {γ ζ : Type} {other : γ → ζ → Prop} {first : Except ε α} {second : Except δ β}
    {next : α → Except ε γ} {next' : β → Except δ ζ} (agree : Agree related first second)
    (continues : ∀ a b, related a b → Agree other (next a) (next' b)) :
    Agree other (first >>= next) (second >>= next') := by
  cases agree with
  | ok here => exact continues _ _ here
  | error => exact .error

theorem ite {first first' : Except ε α} {second second' : Except δ β} {condition : Prop} [Decidable condition]
    (whenTrue : Agree related first second) (whenFalse : Agree related first' second') :
    Agree related (if condition then first else first') (if condition then second else second') := by
  by_cases holds : condition
  · rw [if_pos holds, if_pos holds]
    exact whenTrue
  · rw [if_neg holds, if_neg holds]
    exact whenFalse

end Agree

def Value.Same (first second : Value) : Prop := first.same second = true

namespace IntValue

variable {a b : IntValue}

theorem eq_of_same (same : a.same b = true) : b = { a with sized := b.sized } := by
  obtain ⟨width, signed, bits⟩ := same_iff.mp same
  cases a
  cases b
  simp_all

theorem toCount?_sized (sized : Bool) : ({ a with sized := sized } : IntValue).toCount? = a.toCount? := rfl

theorem binary_same (op : BinaryOp) {a' b' : IntValue} (left : a.same a' = true) (right : b.same b' = true) :
    Agree Value.Same (a.binary op b) (a'.binary op b') := by
  rw [eq_of_same left, eq_of_same right]
  generalize a'.sized = first
  generalize b'.sized = second
  have kept {bits : Word} {width : Nat} {signed sized sized' : Bool} :
      Value.Same (.int ⟨bits, width, signed, sized⟩) (.int ⟨bits, width, signed, sized'⟩) :=
    same_iff.mpr ⟨rfl, rfl, rfl⟩
  cases op with
  | shl | shr | add | sub | mul | bitAnd | bitOr | bitXor => exact .ok kept
  | div | rem => exact .ite .error (.ok kept)
  | pow =>
    simp only [binary, toCount?_sized]
    split
    · exact .ok kept
    · exact .error
  | eq | ne | lt | le | gt | ge | logicAnd | logicOr => exact .ok (Value.same_refl _)

end IntValue

namespace Value

variable {a a' b b' : Value}

theorem isTruthy_same (same : a.Same a') : a'.isTruthy = a.isTruthy := by
  cases a <;> cases a' <;> simp_all [Same, Value.same, IntValue.same_iff, isTruthy]

theorem toCount?_same (same : a.Same a') : a'.toCount? = a.toCount? := by
  cases a with
  | int value =>
    cases a' with
    | int value' => rw [IntValue.eq_of_same same, toCount?, IntValue.toCount?_sized, toCount?]
    | bool value' => cases same
  | bool value =>
    cases a' with
    | int value' => cases same
    | bool value' => rfl

theorem eq_of_same_bool {value : Bool} (same : (Value.bool value).Same a') : a' = .bool value := by
  cases a' with
  | int value' => cases same
  | bool value' => rw [eq_of_beq same]

theorem exists_int_of_same {value : IntValue} (same : (Value.int value).Same a') :
    ∃ value', a' = .int value' ∧ value.same value' = true := by
  cases a' with
  | int value' => exact ⟨value', rfl, same⟩
  | bool value' => cases same

theorem binary_int (op : BinaryOp) (a b : IntValue) : Value.binary op (.int a) (.int b) = a.binary op b := by
  cases op <;> rfl

/-- Operators take equal operands to equal results. -/
theorem binary_same (op : BinaryOp) (left : a.Same a') (right : b.Same b') :
    Agree Same (Value.binary op a b) (Value.binary op a' b') := by
  -- operands of two kinds only have the logical operators
  have logical {a a' b b' : Value} (op : BinaryOp) (isLogical : op = .logicAnd ∨ op = .logicOr)
      (left : a.Same a') (right : b.Same b') : Agree Same (Value.binary op a b) (Value.binary op a' b') := by
    rcases isLogical with rfl | rfl <;>
    · rw [Value.binary, Value.binary, isTruthy_same left, isTruthy_same right]
      exact .ok (same_refl _)
  cases a with
  | bool x =>
    cases eq_of_same_bool left
    cases b with
    | bool y =>
      cases eq_of_same_bool right
      exact .refl same_refl _
    | int y =>
      obtain ⟨y', rfl, same⟩ := exists_int_of_same right
      cases op with
      | logicAnd => exact logical _ (.inl rfl) left right
      | logicOr => exact logical _ (.inr rfl) left right
      | _ => exact .error
  | int x =>
    obtain ⟨x', rfl, same⟩ := exists_int_of_same left
    cases b with
    | int y =>
      obtain ⟨y', rfl, same'⟩ := exists_int_of_same right
      rw [binary_int, binary_int]
      exact IntValue.binary_same op same same'
    | bool y =>
      cases eq_of_same_bool right
      cases op with
      | logicAnd => exact logical _ (.inl rfl) left right
      | logicOr => exact logical _ (.inr rfl) left right
      | _ => exact .error

/-- Whether the negations of two equal values differ: an unsigned integer has its width written in one
of them only. -/
def negatesApart : Value → Value → Bool
  | int a, int b => !a.signed && a.sized != b.sized
  | _, _ => false

theorem unary_same (op : UnaryOp) (operand : a.Same a') (together : op = .neg → a.negatesApart a' = false) :
    Agree Same (Value.unary op a) (Value.unary op a') := by
  cases a with
  | bool x =>
    cases eq_of_same_bool operand
    exact .refl same_refl _
  | int x =>
    obtain ⟨x', rfl, same⟩ := exists_int_of_same operand
    cases op with
    | not =>
      rw [unary, unary, isTruthy_same operand]
      exact .ok (same_refl _)
    | bitNot =>
      rw [IntValue.eq_of_same same]
      exact .ok (IntValue.same_iff.mpr ⟨rfl, rfl, rfl⟩)
    | neg =>
      have signs : (x'.signed || !x'.sized) = (x.signed || !x.sized) := by
        have apart := together rfl
        rw [← (IntValue.same_iff.mp same).2.1]
        simp only [negatesApart] at apart
        revert apart
        cases x.signed <;> cases x.sized <;> cases x'.sized <;> decide
      obtain ⟨width, _, bits⟩ := IntValue.same_iff.mp same
      apply Agree.ok
      apply IntValue.same_iff.mpr
      simp only [width, bits, signs, and_self]

end Value

namespace Builtin

theorem count_same (function : Builtin) {argument argument' : Value} (same : argument.Same argument') :
    Agree Eq (function.count argument) (function.count argument') := by
  unfold count
  rw [Value.toCount?_same same]
  cases argument.toCount? with
  | none => exact .error
  | some n => exact .ok rfl

theorem pick_same (greater : Bool) {first first' second second' : Value} (one : first.Same first')
    (two : second.Same second') : Agree Value.Same (pick first second greater) (pick first' second' greater) := by
  apply Agree.bind (Value.binary_same .gt one two)
  intro found found' same
  rw [Value.isTruthy_same same]
  apply Agree.ok
  split
  · exact one
  · exact two

theorem apply_same (function : Builtin) (defaultWidth : Nat) {arguments arguments' : List Value}
    (same : List.Forall₂ Value.Same arguments arguments') :
    Agree Value.Same (function.apply defaultWidth arguments) (function.apply defaultWidth arguments') := by
  cases same with
  | nil => cases function <;> exact .error
  | cons one rest =>
    cases rest with
    | nil =>
      cases function with
      | clog2 =>
        apply Agree.bind (count_same clog2 one)
        rintro n _ rfl
        exact .ok (Value.same_refl _)
      | pow2 =>
        apply Agree.bind (count_same pow2 one)
        rintro n _ rfl
        exact .refl Value.same_refl _
      | isPowerOf2 =>
        apply Agree.bind (count_same isPowerOf2 one)
        rintro n _ rfl
        exact .ok (Value.same_refl _)
      | max => exact .error
      | min => exact .error
    | cons two rest =>
      cases rest with
      | nil =>
        cases function with
        | max => exact pick_same true one two
        | min => exact pick_same false one two
        | _ => exact .error
      | cons three rest => cases function <;> exact .error

end Builtin

namespace IntValue

variable {value value' : IntValue} {width : Nat} {signed : Bool}

theorem coerce?_self (formed : value.WellFormed) :
    ∃ result, (Value.int value).coerce? (.int value.width value.signed) = some result ∧
      (Value.int value).Same result := by
  cases sized : value.sized with
  | true => exact ⟨.int value, by simp [Value.coerce?, sized], Value.same_refl _⟩
  | false =>
    refine ⟨.int { value with sized := true }, ?_, same_iff.mpr ⟨rfl, rfl, rfl⟩⟩
    simp [Value.coerce?, sized, fits_self formed, retyped_self formed]

theorem isSome_coerce?_of_ne (other : ¬(value.width = width ∧ value.signed = signed)) :
    ((Value.int value).coerce? (.int width signed)).isSome = (!value.sized && value.fits width signed) := by
  cases sized : value.sized with
  | true => simp [Value.coerce?, sized, other]
  | false =>
    cases fits : value.fits width signed with
    | false => simp [Value.coerce?, sized, fits]
    | true =>
      obtain ⟨retyped, made⟩ := retyped_of_fits fits
      simp [Value.coerce?, sized, fits, made]

end IntValue

namespace Value

variable {a b : Value} {expected : ValueType}

/-- Whether the conversions of two equal values differ: of two integers, the one whose width is not
written can be had in a type that is not their own. -/
def convertsApart : ValueType → Value → Value → Bool
  | .int width signed, int a, int b =>
    a.sized != b.sized && !(a.width == width && a.signed == signed) && a.fits width signed
  | _, _, _ => false

theorem rel_same_refl (result : Option Value) : Option.Rel Same result result := by
  cases result with
  | none => exact .none
  | some value => exact .some value.same_refl

theorem coerce?_rel_iff_of_ne {value value' : IntValue} {width : Nat} {signed : Bool}
    (same : value.same value' = true) (other : ¬(value.width = width ∧ value.signed = signed)) :
    Option.Rel Same ((int value).coerce? (.int width signed)) ((int value').coerce? (.int width signed)) ↔
      (value.sized != value'.sized && value.fits width signed) = false := by
  have spelled := IntValue.eq_of_same same
  have here := IntValue.isSome_coerce?_of_ne other
  have there := @IntValue.isSome_coerce?_of_ne value' width signed (by rw [spelled]; exact other)
  have fits : value'.fits width signed = value.fits width signed := by
    rw [spelled]
    rfl
  by_cases alike : value.sized = value'.sized
  · have equal : value' = value := by
      rw [spelled, ← alike]
    rw [equal]
    simp [rel_same_refl]
  · rw [fits] at there
    cases unfit : value.fits width signed with
    | false =>
      rw [unfit, Bool.and_false, Option.isSome_eq_false_iff, Option.isNone_iff_eq_none] at here there
      rw [here, there, Bool.and_false]
      exact iff_of_true .none rfl
    | true =>
      -- one of the two can be had and the other one cannot
      have apart : (value.sized != value'.sized) = true := bne_iff_ne.mpr alike
      rw [apart, Bool.and_true, Bool.true_eq_false, iff_false]
      intro related
      rw [unfit, Bool.and_true] at here there
      have equal : ((int value).coerce? (.int width signed)).isSome
          = ((int value').coerce? (.int width signed)).isSome := by
        generalize (int value).coerce? (.int width signed) = first at related ⊢
        generalize (int value').coerce? (.int width signed) = second at related ⊢
        cases related <;> rfl
      rw [here, there, Bool.not_inj_iff] at equal
      exact alike equal

theorem coerce?_rel_iff (same : a.Same b) (formed : a.WellFormed) :
    Option.Rel Same (a.coerce? expected) (b.coerce? expected) ↔ convertsApart expected a b = false := by
  cases a with
  | bool x =>
    cases eq_of_same_bool same
    cases expected <;> simp [convertsApart, rel_same_refl]
  | int x =>
    obtain ⟨x', rfl, same⟩ := exists_int_of_same same
    cases expected with
    | bool => exact iff_of_true .none rfl
    | int width signed =>
      simp only [convertsApart]
      by_cases own : x.width = width ∧ x.signed = signed
      · obtain ⟨rfl, rfl⟩ := own
        obtain ⟨result, found, kept⟩ := IntValue.coerce?_self formed
        obtain ⟨result', found', kept'⟩ := IntValue.coerce?_self (IntValue.wellFormed_same same formed)
        obtain ⟨width, signed, _⟩ := IntValue.same_iff.mp same
        rw [← width, ← signed] at found'
        rw [found, found']
        simp only [beq_self_eq_true, Bool.and_self, Bool.not_true, Bool.and_false, Bool.false_and, iff_true]
        exact .some (same_trans (same_symm kept) (same_trans same kept'))
      · rw [coerce?_rel_iff_of_ne same own]
        simp only [show (x.width == width && x.signed == signed) = false by simpa using own]
        simp only [Bool.not_false, Bool.and_true]

theorem coerce?_eq_none_of_convertsApart (same : a.Same b) (apart : convertsApart expected a b = true) :
    a.coerce? expected = none ∨ b.coerce? expected = none := by
  cases expected with
  | bool => cases apart
  | int width signed =>
    cases a with
    | bool x => cases apart
    | int x =>
      obtain ⟨x', rfl, same⟩ := exists_int_of_same same
      obtain ⟨sameWidth, sameSigned, _⟩ := IntValue.same_iff.mp same
      simp only [convertsApart, Bool.and_eq_true, Bool.not_eq_true', bne_iff_ne, ne_eq, Bool.and_eq_false_iff,
        beq_eq_false_iff_ne] at apart
      have other : ¬(x.width = width ∧ x.signed = signed) := fun own => apart.1.2.elim (· own.1) (· own.2)
      -- the one whose width is written cannot be had in another type
      have refused {value : IntValue} (written : value.sized = true)
          (other : ¬(value.width = width ∧ value.signed = signed)) :
          (int value).coerce? (.int width signed) = none := by
        simpa [written] using IntValue.isSome_coerce?_of_ne other
      cases written : x.sized with
      | true => exact .inl (refused written other)
      | false =>
        rw [written, eq_comm, Bool.not_eq_false] at apart
        exact .inr (refused apart.1.1 (sameWidth ▸ sameSigned ▸ other))

/-- Values that can both be had in a type are equal there if they are equal. -/
theorem same_of_coerce? {result result' : Value} (same : a.Same b) (formed : a.WellFormed)
    (found : a.coerce? expected = some result) (found' : b.coerce? expected = some result') :
    result.Same result' := by
  cases apart : convertsApart expected a b with
  | false =>
    have related := (coerce?_rel_iff same formed).mpr apart
    rw [found, found'] at related
    cases related with
    | some same => exact same
  | true =>
    rcases coerce?_eq_none_of_convertsApart same apart with missing | missing
    · cases missing.symm.trans found
    · cases missing.symm.trans found'

/-- Conversion takes equal values to equal results unless the type is another one than theirs and only
one of them may be had in it. -/
theorem coerce_agree_iff {what : String} {site : Span} (same : a.Same b) (formed : a.WellFormed) :
    Agree Same (a.coerce expected what site) (b.coerce expected what site) ↔
      convertsApart expected a b = false := by
  rw [← coerce?_rel_iff same formed, coerce, coerce]
  generalize a.coerce? expected = first
  generalize b.coerce? expected = second
  constructor
  · intro agree
    cases first with
    | none =>
      cases second with
      | none => exact .none
      | some value => cases agree
    | some value =>
      cases second with
      | none => cases agree
      | some value' =>
        cases agree with
        | ok same => exact .some same
  · intro related
    cases related with
    | none => exact .error
    | some same => exact .ok same

end Value
end Monomorph
