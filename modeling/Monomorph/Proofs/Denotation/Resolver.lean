import Monomorph.Proofs.Constant.Evaluation
import Monomorph.Proofs.Denotation.Laws

/-! Evaluation over a resolver that answers by the rules of denotation.

Such an evaluation succeeds just where the rules give a value, and with that value.
So does the binding of arguments.
-/

set_option autoImplicit false

namespace Monomorph

/-- Names are answered by the rules of denotation. -/
structure Resolver.Denotes (resolver : Resolver Stop Id) (program : Program) (registry : Registry)
    (scope : Scope) (position : Nat) : Prop where
  ident : ∀ name value, (resolver.ident name).run = .ok value ↔
    ∃ index decl, program.findConst scope name = some (index, decl) ∧ index < position ∧
      program.ConstantValue registry .value scope name value
  reference : ∀ reference value, (resolver.reference reference).run = .ok value ↔
    program.ReferenceValue registry .value scope position reference value

namespace Program

variable {program : Program} {registry : Registry} {scope : Scope} {position : Nat}
  {resolver : Resolver Stop Id}

mutual

theorem eval_eq_ok_iff (denotes : resolver.Denotes program registry scope position) (evaluator : Evaluator) :
    ∀ (expr : Expr) (value : Value), (evaluator.eval resolver expr).run = .ok value ↔
      program.ExprValue registry .value scope position evaluator expr value
  | .literal literal, value => by
    rw [Evaluator.eval, Resolver.run_lift_eq_ok]
    constructor
    · exact .literal
    · rintro ⟨found⟩
      assumption
  | .ident name, value => by
    rw [Evaluator.eval]
    cases bound : evaluator.bindings.get? name with
    | some found =>
      constructor
      · intro same
        cases same
        exact .parameter bound
      · intro derivation
        rw [(ExprValue.parameter bound : program.ExprValue registry .value scope position evaluator _ _).unique
          derivation]
        rfl
    | none =>
      simp only
      rw [denotes.ident]
      constructor
      · rintro ⟨index, decl, found, visible, constant⟩
        exact .constant bound found visible constant
      · intro derivation
        cases derivation with
        | parameter found =>
          rw [bound] at found
          cases found
        | constant _ found visible constant => exact ⟨_, _, found, visible, constant⟩
  | .reference package arguments members span, value => by
    rw [Evaluator.eval, denotes.reference]
    constructor
    · exact .reference
    · intro derivation
      cases derivation with
      | reference found => exact found
  | .binary op left right, value => by
    rw [Evaluator.eval]
    simp only [ExceptT.run_bind_eq_ok, Resolver.run_lift_eq_ok, eval_eq_ok_iff denotes evaluator left,
      eval_eq_ok_iff denotes evaluator right]
    constructor
    · rintro ⟨first, here, second, there, found⟩
      exact .binary here there found
    · intro derivation
      cases derivation with
      | binary here there found => exact ⟨_, here, _, there, found⟩
  | .unary op operand, value => by
    rw [Evaluator.eval]
    simp only [ExceptT.run_bind_eq_ok, Resolver.run_lift_eq_ok, eval_eq_ok_iff denotes evaluator operand]
    constructor
    · rintro ⟨first, here, found⟩
      exact .unary here found
    · intro derivation
      cases derivation with
      | unary here found => exact ⟨_, here, found⟩
  | .call function arguments, value => by
    rw [Evaluator.eval]
    cases named : Builtin.find? function with
    | none =>
      constructor
      · intro failed
        cases failed
      · intro derivation
        cases derivation with
        | call found _ _ =>
          rw [named] at found
          cases found
    | some builtin =>
      simp only [ExceptT.run_bind_eq_ok, Resolver.run_lift_eq_ok, evalList_eq_ok_iff denotes evaluator arguments]
      constructor
      · rintro ⟨values, all, found⟩
        exact .call named all found
      · intro derivation
        cases derivation with
        | call found all result =>
          rw [named] at found
          cases found
          exact ⟨_, all, result⟩
  | .ternary condition whenTrue whenFalse, value => by
    rw [Evaluator.eval]
    simp only [ExceptT.run_bind_eq_ok, eval_eq_ok_iff denotes evaluator condition]
    have chosen (test : Value) :
        (if test.isTruthy then evaluator.eval resolver whenTrue else evaluator.eval resolver whenFalse).run
            = .ok value ↔
          program.ExprValue registry .value scope position evaluator
            (if test.isTruthy then whenTrue else whenFalse) value := by
      split
      · exact eval_eq_ok_iff denotes evaluator whenTrue value
      · exact eval_eq_ok_iff denotes evaluator whenFalse value
    constructor
    · rintro ⟨test, here, found⟩
      exact .ternary here ((chosen test).mp found)
    · intro derivation
      cases derivation with
      | ternary here found => exact ⟨_, here, (chosen _).mpr found⟩
  | .field base name, value => by
    rw [Evaluator.eval]
    constructor
    · intro failed
      cases failed
    · intro derivation
      cases derivation

theorem evalList_eq_ok_iff (denotes : resolver.Denotes program registry scope position) (evaluator : Evaluator) :
    ∀ (exprs : List Expr) (values : List Value), (evaluator.evalList resolver exprs).run = .ok values ↔
      program.ExprValues registry .value scope position evaluator exprs values
  | [], values => by
    rw [Evaluator.evalList]
    constructor
    · intro same
      cases same
      exact .nil
    · intro derivation
      cases derivation
      rfl
  | first :: rest, values => by
    rw [Evaluator.evalList]
    simp only [ExceptT.run_bind_eq_ok, eval_eq_ok_iff denotes evaluator first,
      evalList_eq_ok_iff denotes evaluator rest]
    constructor
    · rintro ⟨value, here, others, there, same⟩
      cases same
      exact .cons here there
    · intro derivation
      cases derivation with
      | cons here there => exact ⟨_, here, _, there, rfl⟩

end

theorem bindFrom_eq_ok_iff (denotes : resolver.Denotes program registry scope position) (evaluator : Evaluator)
    {package : String} {site : Span} {index : Nat} {earlier : Evaluator} {parameters : List GenericParameter}
    {arguments : List Expr} (length : arguments.length = parameters.length) (bound : Arguments) :
    (bindFrom package evaluator resolver site index earlier parameters arguments).run = .ok bound ↔
      ∃ values, program.ExprValues registry .value scope position evaluator arguments values ∧
        acceptFrom earlier parameters values = some bound := by
  induction arguments generalizing parameters index earlier bound with
  | nil =>
    cases parameters with
    | nil =>
      constructor
      · intro same
        cases same
        exact ⟨[], .nil, rfl⟩
      · rintro ⟨values, evaluated, accepted⟩
        cases evaluated
        cases accepted
        rfl
    | cons parameter parameters => cases length
  | cons argument arguments ih =>
    cases parameters with
    | nil => cases length
    | cons parameter parameters =>
      rw [bindFrom]
      simp only [ExceptT.run_bind_eq_ok, ExceptT.run_adapt_eq_ok, eval_eq_ok_iff denotes evaluator argument,
        ExceptT.run_ofExcept_eq_ok, GenericParameter.accept_eq_ok_iff, ih (Nat.succ.inj length)]
      constructor
      · rintro ⟨value, evaluated, result, accepted, rest, ⟨values, others, continued⟩, same⟩
        cases same
        refine ⟨value :: values, .cons evaluated others, ?_⟩
        simp [acceptFrom, accepted, continued]
      · rintro ⟨values, evaluated, accepted⟩
        cases evaluated with
        | cons here others =>
          obtain ⟨result, taken, accepted⟩ := Option.bind_eq_some_iff.mp accepted
          obtain ⟨rest, continued, same⟩ := Option.bind_eq_some_iff.mp accepted
          cases same
          exact ⟨_, here, result, taken, rest, ⟨_, others, continued⟩, rfl⟩

theorem ExprValues.length_eq {evaluator : Evaluator} {exprs : List Expr} {values : List Value}
    (evaluated : program.ExprValues registry .value scope position evaluator exprs values) :
    exprs.length = values.length := by
  induction exprs generalizing values with
  | nil =>
    cases evaluated
    rfl
  | cons first rest ih =>
    cases evaluated with
    | cons here others => rw [List.length_cons, List.length_cons, ih others]

theorem bindArguments_eq_ok_iff (denotes : resolver.Denotes program registry scope position)
    {evaluator : Evaluator} (made : program.evaluator registry scope = .ok evaluator) {package : Package}
    {site : Span} {arguments : List Expr} {bound : Arguments} :
    (package.bindArguments arguments evaluator resolver site).run = .ok bound ↔
      program.Binds registry scope position package arguments bound := by
  have binds : program.Binds registry scope position package arguments bound ↔
      ∃ values, program.ExprValues registry .value scope position evaluator arguments values ∧
        package.accept? evaluator.defaultWidth values = some bound := by
    constructor
    · rintro ⟨other, values, again, evaluated, accepted⟩
      rw [made] at again
      cases again
      exact ⟨values, evaluated, accepted⟩
    · rintro ⟨values, evaluated, accepted⟩
      exact ⟨evaluator, values, made, evaluated, accepted⟩
  rw [binds]
  unfold Package.bindArguments
  split
  · rename_i length
    exact bindFrom_eq_ok_iff denotes evaluator length bound
  · rename_i apart
    constructor
    · intro failed
      cases failed
    · rintro ⟨values, evaluated, accepted⟩
      exact absurd (evaluated.length_eq.trans (length_acceptFrom accepted).1) apart

end Program
end Monomorph
