import Monomorph.Proofs.Constant.Evaluation
import Monomorph.Proofs.Guarded.Operators

/-! Evaluation without traps.

Evaluation may run in any monad, and what the resolver does there is not looked at as long
as its answers are well formed. Then the guarded evaluation is the evaluation: a run of it
ends in the same way, and in a trap only where it asks for the successor of the largest
count. All values on the way are well formed.
-/

set_option autoImplicit false

namespace Monomorph

/-- The error that a halt stands for. The successor of the largest count would be reported as a width. -/
def Halt.settle {ε : Type} (raise : EvalError → ε) : Halt ε → ε
  | .trap _ => raise (.unsupportedWidth UInt64.size)
  | .error found => found

/-- Names are answered by well-formed values, whatever the resolver does to find them. -/
structure Resolver.Sound {ε : Type} {m : Type → Type} [Monad m] (resolver : Resolver ε m) : Prop where
  ident : ∀ name, SatisfiesM Value.WellFormed (resolver.ident name)
  reference : ∀ target, SatisfiesM Value.WellFormed (resolver.reference target)

theorem ExceptT.satisfiesM_throw {ε α : Type} {m : Type → Type} [Monad m] [LawfulMonad m] {property : α → Prop}
    (error : ε) : SatisfiesM property (throw error : ExceptT ε m α) := by
  rw [SatisfiesM_ExceptT_eq]
  exact SatisfiesM.pure nofun

namespace Guarded

variable {ε α β : Type} {m : Type → Type} [Monad m] [LawfulMonad m]

/-- Outcomes that have a property, or an error, or the one trap there is. -/
def Regular (property : α → Prop) : Except (Halt ε) α → Prop
  | .ok value => property value
  | .error (.trap trap) => trap = .carry (UInt64.size - 1)
  | .error (.error _) => True

/-- A guarded computation ends as it should, and with its trap settled it is the plain one. -/
structure Refines (raise : EvalError → ε) (property : α → Prop) (guarded : ExceptT (Halt ε) m α)
    (plain : ExceptT ε m α) : Prop where
  regular : SatisfiesM (Regular property) guarded.run
  settles : guarded.adapt (Halt.settle raise) = plain

namespace Refines

variable {raise : EvalError → ε} {property : α → Prop} {other : β → Prop}

theorem pure {value : α} (holds : property value) :
    Refines raise property (Pure.pure value : ExceptT (Halt ε) m α) (Pure.pure value) where
  regular := SatisfiesM.pure holds
  settles := ExceptT.adapt_pure value _

theorem bind {guarded : ExceptT (Halt ε) m α} {plain : ExceptT ε m α} {next : α → ExceptT (Halt ε) m β}
    {next' : α → ExceptT ε m β} (refines : Refines raise property guarded plain)
    (continues : ∀ value, property value → Refines raise other (next value) (next' value)) :
    Refines raise other (guarded >>= next) (plain >>= next') where
  regular := by
    apply SatisfiesM.bind refines.regular
    intro outcome regular
    cases outcome with
    | ok value => exact (continues value regular).regular
    | error halt =>
      apply SatisfiesM.pure
      cases halt with
      | trap trap => exact regular
      | error error => trivial
  settles := by
    rw [ExceptT.adapt_bind, ← refines.settles]
    -- what comes next has to agree only on the values that the first computation can have
    obtain ⟨outcomes, same⟩ := refines.regular
    apply ExceptT.ext
    show Except.mapError _ <$> guarded.run >>= ExceptT.bindCont _
      = Except.mapError _ <$> guarded.run >>= ExceptT.bindCont _
    rw [← same]
    simp only [bind_map_left]
    apply bind_congr
    intro outcome
    obtain ⟨outcome, regular⟩ := outcome
    cases outcome with
    | ok value => exact congrArg ExceptT.run (continues value regular).settles
    | error halt => rfl

theorem answer {operation : ExceptT ε m α} (satisfies : SatisfiesM property operation) :
    Refines raise property (operation.adapt .error) operation where
  regular := by
    apply SatisfiesM.map (SatisfiesM_ExceptT_eq.mp satisfies)
    intro outcome holds
    cases outcome with
    | ok value => exact holds value rfl
    | error error => trivial
  settles := by
    apply ExceptT.ext
    show Except.mapError _ <$> (Except.mapError _ <$> operation.run) = operation.run
    rw [Functor.map_map]
    conv_rhs => rw [← id_map operation.run]
    congr 1
    funext outcome
    cases outcome <;> rfl

theorem take {resolver : Resolver ε m} {step : Step α} {result : Except EvalError α} (follows : Follows step result)
    (holds : ∀ value, result = .ok value → property value) :
    Refines resolver.raise property (Guarded.take resolver step) (resolver.lift result) := by
  cases follows with
  | same =>
    cases result with
    | ok value => exact pure (holds value rfl)
    | error error => exact ⟨SatisfiesM.pure trivial, ExceptT.ext (map_pure _ _)⟩
  | carry => exact ⟨SatisfiesM.pure rfl, ExceptT.ext (map_pure _ _)⟩

theorem satisfies {guarded : ExceptT (Halt ε) m α} {plain : ExceptT ε m α}
    (refines : Refines raise property guarded plain) : SatisfiesM property plain := by
  rw [SatisfiesM_ExceptT_eq, ← refines.settles]
  apply SatisfiesM.map refines.regular
  intro outcome regular value found
  cases outcome with
  | ok value =>
    cases found
    exact regular
  | error halt => cases found

end Refines

variable {evaluator : Evaluator} {resolver : Resolver ε m}

mutual

theorem eval_refines (bound : evaluator.WellFormed) (answered : resolver.Sound) : ∀ expr : Expr,
    Refines resolver.raise Value.WellFormed (eval evaluator resolver expr) (evaluator.eval resolver expr)
  | .literal value => by
    rw [eval, Evaluator.eval, literal_eq]
    exact .take (.same _) fun _ => Evaluator.wellFormed_literal
  | .ident name => by
    rw [eval, Evaluator.eval]
    cases known : evaluator.bindings.get? name with
    | some value => exact .pure (bound name value known)
    | none => exact .answer (answered.ident name)
  | .reference package arguments members span => by
    rw [eval, Evaluator.eval]
    exact .answer (answered.reference _)
  | .binary op left right => by
    rw [eval, Evaluator.eval]
    refine (eval_refines bound answered left).bind fun first one => ?_
    refine (eval_refines bound answered right).bind fun second two => ?_
    rw [binary_eq one two]
    exact .take (.same _) fun _ => Value.wellFormed_binary one two
  | .unary op operand => by
    rw [eval, Evaluator.eval]
    refine (eval_refines bound answered operand).bind fun value formed => ?_
    rw [unary_eq]
    exact .take (.same _) fun _ => Value.wellFormed_unary formed
  | .call function arguments => by
    rw [eval, Evaluator.eval]
    cases Builtin.find? function with
    | none => exact .take (.same (.error _)) fun _ impossible => by cases impossible
    | some builtin =>
      refine (evalList_refines bound answered arguments).bind fun values formed => ?_
      exact .take (apply_follows formed) fun _ => Builtin.wellFormed_apply formed
  | .ternary condition whenTrue whenFalse => by
    rw [eval, Evaluator.eval]
    refine (eval_refines bound answered condition).bind fun test _ => ?_
    split
    · exact eval_refines bound answered whenTrue
    · exact eval_refines bound answered whenFalse
  | .field base name => by
    rw [eval, Evaluator.eval]
    exact .take (.same (.error _)) fun _ impossible => by cases impossible

theorem evalList_refines (bound : evaluator.WellFormed) (answered : resolver.Sound) : ∀ exprs : List Expr,
    Refines resolver.raise (fun values : List Value => ∀ value ∈ values, value.WellFormed)
      (evalList evaluator resolver exprs) (evaluator.evalList resolver exprs)
  | [] => by
    rw [evalList, Evaluator.evalList]
    exact .pure (List.forall_mem_nil _)
  | first :: rest => by
    rw [evalList, Evaluator.evalList]
    refine (eval_refines bound answered first).bind fun value here => ?_
    refine (evalList_refines bound answered rest).bind fun values later => ?_
    exact .pure (List.forall_mem_cons.mpr ⟨here, later⟩)

end

structure Constructs : Prop where
  ofBits : ∀ (bits : Word) (width : Nat) (signed : Bool),
    ofBits bits width signed = (IntValue.ofBits bits width signed).mapError .error ∧
      ∀ value, IntValue.ofBits bits width signed = .ok value → value.WellFormed
  ofLiteral : ∀ (value : Word) (defaultWidth : Nat),
    ofLiteral value defaultWidth = .ok (IntValue.ofLiteral value defaultWidth) ∧
      (IntValue.ofLiteral value defaultWidth).WellFormed
  retyped : ∀ (value : IntValue) (width : Nat) (signed : Bool),
    (value.WellFormed → retyped value width signed = (value.retyped width signed).mapError .error) ∧
      ∀ result, value.retyped width signed = .ok result → result.WellFormed

theorem constructs : Constructs where
  ofBits bits width signed := ⟨ofBits_eq bits width signed, fun _ => IntValue.wellFormed_ofBits⟩
  ofLiteral value defaultWidth := ⟨ofLiteral_eq value defaultWidth, IntValue.wellFormed_ofLiteral value defaultWidth⟩
  retyped _ _ _ := ⟨retyped_eq, fun _ => IntValue.wellFormed_ofBits⟩

/-- From well-formed bindings and answers, evaluation takes no step that traps, except for the successor that the
largest count lacks; settled as the error that the successor would be reported in, its run is that of evaluation. What
it ends with is well formed again, and so is all that the constructors make. -/
theorem eval_safe (bound : evaluator.WellFormed) (answered : resolver.Sound) (expr : Expr) :
    SatisfiesM (fun outcome => ∀ trap, outcome = .error (.trap trap) → trap = .carry (UInt64.size - 1))
        (eval evaluator resolver expr).run ∧
      (eval evaluator resolver expr).adapt (Halt.settle resolver.raise) = evaluator.eval resolver expr ∧
      SatisfiesM Value.WellFormed (evaluator.eval resolver expr) ∧ Constructs := by
  have refines := eval_refines bound answered expr
  refine ⟨refines.regular.imp ?_, refines.settles, refines.satisfies, constructs⟩
  rintro outcome regular trap rfl
  exact regular

/-- A resolver that counts how often it is asked, and knows one number, the least of the widest width. -/
def tallyResolver : Resolver EvalError (StateM Nat) where
  raise := id
  ident _ := do
    modify (· + 1)
    return .int ⟨BitVec.intMin 128, 128, true, true⟩
  reference target := throw (.undefinedSymbol target.text)

theorem eval_safe_tally :
    let evaluator : Evaluator := ⟨[("Unit", .int ⟨0xff, 8, true, false⟩)], 0⟩
    let expr : Expr := .binary .shr (.binary .div (.ident "Least") (.ident "Unit")) (.int 0x10000000000000000)
    (evaluator.WellFormed ∧ tallyResolver.Sound) ∧
      SatisfiesM (fun outcome => ∀ trap, outcome = .error (.trap trap) → trap = .carry (UInt64.size - 1))
        (eval evaluator tallyResolver expr).run ∧
      (eval evaluator tallyResolver expr).adapt (Halt.settle tallyResolver.raise)
        = evaluator.eval tallyResolver expr ∧
      SatisfiesM Value.WellFormed (evaluator.eval tallyResolver expr) ∧ Constructs := by
  intro evaluator expr
  have bound : evaluator.WellFormed := by
    intro name value found
    have pair := Bindings.mem_of_get? found
    rw [List.mem_singleton, Prod.mk.injEq] at pair
    rw [pair.2]
    exact ⟨by decide, by decide, by decide⟩
  have answered : tallyResolver.Sound := by
    constructor
    · intro name
      have formed : (Value.int ⟨BitVec.intMin 128, 128, true, true⟩).WellFormed :=
        ⟨by decide, by decide, (BitVec.intMin 128).isLt⟩
      exact SatisfiesM.bind SatisfiesM.trivial fun _ _ => SatisfiesM.pure formed
    · intro target
      exact ExceptT.satisfiesM_throw _
  exact ⟨⟨bound, answered⟩, eval_safe bound answered expr⟩

end Guarded

theorem Resolver.WellFormed.sound {ε : Type} {resolver : Resolver ε Id} (answered : resolver.WellFormed) :
    resolver.Sound where
  ident name := by
    rw [SatisfiesM_ExceptT_eq, SatisfiesM_Id_eq]
    exact answered.ident name
  reference target := by
    rw [SatisfiesM_ExceptT_eq, SatisfiesM_Id_eq]
    exact answered.reference target

theorem Evaluator.wellFormed_eval {ε : Type} {evaluator : Evaluator} {resolver : Resolver ε Id}
    (bound : evaluator.WellFormed) (answered : resolver.WellFormed) (expr : Expr) (result : Value)
    (found : (evaluator.eval resolver expr).run = .ok result) : result.WellFormed := by
  have satisfies := (Guarded.eval_refines bound answered.sound expr).satisfies
  rw [SatisfiesM_ExceptT_eq, SatisfiesM_Id_eq] at satisfies
  exact satisfies result found

end Monomorph
