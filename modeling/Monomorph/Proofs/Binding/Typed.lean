import Monomorph.Proofs.Denotation.Laws
import Monomorph.Proofs.Guarded.Evaluation

/-! Parameters with a declared type.

A scalar or a vector type fixes a value type. A parameter that is declared with one
takes its arguments only in that type, so that its values are bools and integers whose
width is written in their literals. Such a literal stands for the very value.
-/

set_option autoImplicit false

namespace Monomorph

/-- Whether a value brings its type along however it is spelled: integers have their width written. -/
def Value.isSized : Value → Bool
  | int value => value.sized
  | bool _ => true

theorem Value.relit_of_isSized {value : Value} (sized : value.isSized = true) (defaultWidth : Nat) :
    value.relit defaultWidth = value := by
  cases value with
  | int value => exact congrArg Value.int (IntValue.relit_of_sized sized defaultWidth)
  | bool value => rfl

theorem Value.isSized_of_coerce? {value result : Value} {expected : ValueType}
    (converted : value.coerce? expected = some result) : result.isSized = true := by
  rcases Value.coerce?_cases converted with ⟨rfl, _, sized⟩ | ⟨_, _, _, _, _, _, _, made, rfl⟩
  · cases result with
    | int number => exact sized number rfl
    | bool _ => rfl
  · exact (IntValue.of_retyped made).2.2

def TypeExpr.fixes : TypeExpr → Bool
  | .bool | .int _ | .logic _ | .bit _ => true
  | .named _ | .reference _ | .array .. => false

theorem TypeExpr.valueType_ne_none {type : TypeExpr} (fixes : type.fixes = true) {ε : Type} (evaluator : Evaluator)
    (resolver : Resolver ε Id) : (type.valueType evaluator resolver).run ≠ .ok none := by
  intro found
  -- a vector has a value type as soon as its width has a value
  have vector {width : Expr} : (do
      let width ← evaluator.evalSize resolver width
      some <$> resolver.lift (ValueType.vector width)).run ≠ .ok none := by
    intro found
    rw [ExceptT.run_bind_eq_ok] at found
    obtain ⟨size, _, found⟩ := found
    cases made : ValueType.vector size with
    | error error =>
      rw [made] at found
      cases found
    | ok vector =>
      rw [made] at found
      cases found
  cases type with
  | bool => cases found
  | int kind => cases found
  | logic width =>
    cases width with
    | none => cases found
    | some width => exact vector found
  | bit width =>
    cases width with
    | none => cases found
    | some width => exact vector found
  | named name => cases fixes
  | reference target => cases fixes
  | array element length => cases fixes

def GenericParameter.fixes (parameter : GenericParameter) : Bool :=
  match parameter.type with
  | .const => false
  | .typed type => type.fixes

theorem GenericParameter.isSized_of_accept {parameter : GenericParameter} (fixes : parameter.fixes = true)
    {earlier : Evaluator} {value result : Value} {what : String} {site : Span}
    (accepted : parameter.accept earlier value what site = .ok result) : result.isSized = true := by
  unfold GenericParameter.fixes at fixes
  unfold GenericParameter.accept at accepted
  split at accepted
  · rename_i type
    rw [type] at fixes
    cases fixes
  · rename_i type declared
    rw [declared] at fixes
    split at accepted
    · cases accepted
    · exact Value.isSized_of_coerce? (Value.coerce_eq_ok_iff.mp accepted)
    · rename_i none
      exact absurd none (TypeExpr.valueType_ne_none fixes _ _)

theorem GenericParameter.wellFormed_accept {parameter : GenericParameter} {earlier : Evaluator} {value result : Value}
    {what : String} {site : Span} (formed : value.WellFormed)
    (accepted : parameter.accept earlier value what site = .ok result) : result.WellFormed :=
  GenericParameter.wellFormed_accept? formed (GenericParameter.accept_eq_ok_iff.mp accepted)

theorem isSized_acceptFrom {earlier : Evaluator} {parameters : List GenericParameter} {values : List Value}
    {bound : Arguments} (fixed : ∀ parameter ∈ parameters, parameter.fixes = true)
    (found : acceptFrom earlier parameters values = some bound) : ∀ value ∈ bound, value.isSized = true := by
  induction parameters generalizing earlier values bound with
  | nil =>
    cases values with
    | nil =>
      cases found
      exact fun _ member => absurd member List.not_mem_nil
    | cons first rest => cases found
  | cons parameter parameters ih =>
    cases values with
    | nil => cases found
    | cons first rest =>
      obtain ⟨value, accepted, found⟩ := Option.bind_eq_some_iff.mp found
      obtain ⟨others, continued, found⟩ := Option.bind_eq_some_iff.mp found
      cases found
      rw [List.forall_mem_cons] at fixed ⊢
      have taken : parameter.accept earlier first "" .unknown = .ok value :=
        GenericParameter.accept_eq_ok_iff.mpr accepted
      exact ⟨GenericParameter.isSized_of_accept fixed.1 taken, ih fixed.2 continued⟩

theorem Program.Accepts.isSized {program : Program} {base : String} {bound : Arguments}
    (accepts : program.Accepts base bound) {package : Package} (generic : program.generic? base = some package)
    (fixed : ∀ parameter ∈ package.parameters, parameter.fixes = true) : ∀ value ∈ bound, value.isSized = true := by
  obtain ⟨source, values, same, accepted⟩ := accepts
  cases same.symm.trans generic
  exact isSized_acceptFrom fixed accepted

section Binding

variable {evaluator : Evaluator} {resolver : Resolver Stop Id} {site : Span}

theorem isSized_bindFrom (bound : evaluator.WellFormed) (answered : resolver.WellFormed) {package : String}
    {index : Nat} {earlier : Evaluator} {parameters : List GenericParameter} {given : List Expr}
    {arguments : Arguments} (fixed : ∀ parameter ∈ parameters, parameter.fixes = true)
    (found : (bindFrom package evaluator resolver site index earlier parameters given).run = .ok arguments) :
    ∀ value ∈ arguments, value.WellFormed ∧ value.isSized = true := by
  induction parameters generalizing index earlier given arguments with
  | nil =>
    cases found
    intro value member
    cases member
  | cons parameter parameters ih =>
    cases given with
    | nil =>
      cases found
      intro value member
      cases member
    | cons first rest =>
      rw [bindFrom] at found
      simp only [ExceptT.run_bind_eq_ok, ExceptT.run_adapt_eq_ok, ExceptT.run_ofExcept_eq_ok] at found
      obtain ⟨value, evaluated, result, accepted, others, continued, same⟩ := found
      cases same
      intro taken member
      rcases List.mem_cons.mp member with here | later
      · rw [here]
        have valueFormed := evaluator.wellFormed_eval bound answered first value evaluated
        exact ⟨GenericParameter.wellFormed_accept valueFormed accepted,
          GenericParameter.isSized_of_accept (fixed parameter List.mem_cons_self) accepted⟩
      · exact ih (fun parameter member => fixed parameter (List.mem_cons_of_mem _ member)) continued taken later

theorem Package.isSized_bindArguments {package : Package} (bound : evaluator.WellFormed)
    (answered : resolver.WellFormed) (fixed : ∀ parameter ∈ package.parameters, parameter.fixes = true)
    {given : List Expr} {arguments : Arguments}
    (found : (package.bindArguments given evaluator resolver site).run = .ok arguments) :
    ∀ value ∈ arguments, value.WellFormed ∧ value.isSized = true := by
  unfold bindArguments at found
  split at found
  · exact isSized_bindFrom bound answered fixed found
  · cases found

end Binding

end Monomorph
