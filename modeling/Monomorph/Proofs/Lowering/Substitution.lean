import Monomorph.Proofs.Binding.Typed
import Monomorph.Proofs.Lowering.Demand

/-! Lowering of expressions as substitution.

An expression without references is lowered by putting the literals of the parameters
in the place of their names, except for hidden names. Where the literals stand for the
very values, evaluation of what comes out and evaluation with the parameters bound end
alike: with one value, or with errors that differ in nothing but a text they show.
-/

set_option autoImplicit false

namespace Monomorph

mutual

/-- Expressions in the place of identifiers. What the arguments of references hold is kept. -/
def Expr.substitute (image : String → Expr) : Expr → Expr
  | .literal value => .literal value
  | .ident name => image name
  | .reference package arguments members span => .reference package arguments members span
  | .binary op left right => .binary op (left.substitute image) (right.substitute image)
  | .unary op operand => .unary op (operand.substitute image)
  | .call function arguments => .call function (Expr.listSubstitute image arguments)
  | .ternary condition whenTrue whenFalse =>
    .ternary (condition.substitute image) (whenTrue.substitute image) (whenFalse.substitute image)
  | .field base name => .field (base.substitute image) name

def Expr.listSubstitute (image : String → Expr) : List Expr → List Expr
  | [] => []
  | first :: rest => first.substitute image :: Expr.listSubstitute image rest

end

namespace Program

variable (program : Program) (lookup : Lookup) (context : Context)

theorem identifier_eq_elim (name : String) : identifier context context.hidden name
    = (context.parameter? name).elim (.ident name) (·.toExpr context.evaluator.defaultWidth) := by
  have same : { context with hidden := context.hidden } = context := rfl
  rw [identifier, same]
  cases context.parameter? name <;> rfl

mutual

/-- Without references there is nothing to ask for: identifiers are replaced, and the state is left alone. -/
theorem lowerExpr_eq_substitute : ∀ expr : Expr, expr.references = [] →
    program.lowerExpr lookup context expr = pure (expr.substitute (identifier context context.hidden))
  | .literal value, _ => rfl
  | .ident name, _ => by
    rw [lowerExpr, Expr.substitute, identifier_eq_elim]
    cases context.parameter? name with
    | some value => rfl
    | none => rfl
  | .binary op left right, free => by
    obtain ⟨first, second⟩ := List.append_eq_nil_iff.mp free
    rw [lowerExpr, lowerExpr_eq_substitute left first, lowerExpr_eq_substitute right second, pure_bind, pure_bind,
      Expr.substitute]
  | .unary op operand, free => by
    rw [lowerExpr, lowerExpr_eq_substitute operand free, pure_bind, Expr.substitute]
  | .call function arguments, free => by
    rw [lowerExpr, lowerExprs_eq_substitute arguments free, pure_bind, Expr.substitute]
  | .ternary condition whenTrue whenFalse, free => by
    obtain ⟨before, third⟩ := List.append_eq_nil_iff.mp free
    obtain ⟨first, second⟩ := List.append_eq_nil_iff.mp before
    rw [lowerExpr, lowerExpr_eq_substitute condition first, lowerExpr_eq_substitute whenTrue second,
      lowerExpr_eq_substitute whenFalse third, pure_bind, pure_bind, pure_bind, Expr.substitute]
  | .field base name, free => by
    rw [lowerExpr, lowerExpr_eq_substitute base free, pure_bind, Expr.substitute]

theorem lowerExprs_eq_substitute : ∀ exprs : List Expr, Expr.listReferences exprs = [] →
    program.lowerExprs lookup context exprs = pure (Expr.listSubstitute (identifier context context.hidden) exprs)
  | [], _ => rfl
  | first :: rest, free => by
    obtain ⟨here, later⟩ := List.append_eq_nil_iff.mp free
    rw [lowerExprs, lowerExpr_eq_substitute first here, lowerExprs_eq_substitute rest later, pure_bind, pure_bind,
      Expr.listSubstitute]

end
end Program

namespace Evaluator

variable {ε δ : Type} {m : Type → Type} [Monad m] [LawfulMonad m] {inner outer : Evaluator} {resolver : Resolver ε m}
  {image : String → Expr} {view : ε → δ}

mutual

theorem eval_substitute (width : inner.defaultWidth = outer.defaultWidth)
    (leaves : ∀ name, inner.eval resolver (image name) = outer.eval resolver (.ident name))
    (blind : ∀ text text', view (resolver.raise (.notConstant text)) = view (resolver.raise (.notConstant text'))) :
    ∀ expr : Expr,
      (inner.eval resolver (expr.substitute image)).adapt view = (outer.eval resolver expr).adapt view
  | .literal value => by
    have same : inner.literal value = outer.literal value := by
      unfold Evaluator.literal
      rw [width]
    rw [Expr.substitute, eval, eval, same]
  | .ident name => by rw [Expr.substitute, leaves]
  | .reference package arguments members span => by rw [Expr.substitute, eval, eval]
  | .binary op left right => by
    rw [Expr.substitute, eval, eval]
    simp only [ExceptT.adapt_bind, eval_substitute width leaves blind left, eval_substitute width leaves blind right]
  | .unary op operand => by
    rw [Expr.substitute, eval, eval]
    simp only [ExceptT.adapt_bind, eval_substitute width leaves blind operand]
  | .call function arguments => by
    rw [Expr.substitute, eval, eval]
    cases Builtin.find? function with
    | none => rfl
    | some builtin =>
      simp only [ExceptT.adapt_bind, evalList_substitute width leaves blind arguments, width]
  | .ternary condition whenTrue whenFalse => by
    rw [Expr.substitute, eval, eval]
    simp only [ExceptT.adapt_bind, eval_substitute width leaves blind condition]
    congr 1
    funext test
    split
    · exact eval_substitute width leaves blind whenTrue
    · exact eval_substitute width leaves blind whenFalse
  | .field base name => by
    rw [Expr.substitute, eval, eval, Resolver.adapt_fail, Resolver.adapt_fail]
    -- the texts show the base before and after
    exact congrArg throw (blind _ _)

theorem evalList_substitute (width : inner.defaultWidth = outer.defaultWidth)
    (leaves : ∀ name, inner.eval resolver (image name) = outer.eval resolver (.ident name))
    (blind : ∀ text text', view (resolver.raise (.notConstant text)) = view (resolver.raise (.notConstant text'))) :
    ∀ exprs : List Expr,
      (inner.evalList resolver (Expr.listSubstitute image exprs)).adapt view
        = (outer.evalList resolver exprs).adapt view
  | [] => by rw [Expr.listSubstitute, evalList, evalList]
  | first :: rest => by
    rw [Expr.listSubstitute, evalList, evalList]
    simp only [ExceptT.adapt_bind, eval_substitute width leaves blind first,
      evalList_substitute width leaves blind rest]

end
end Evaluator

namespace Program

theorem parameter?_hide (program : Program) (target : Instance) (span : Span) (position : Nat)
    (hidden : List String) (pairs : List (String × Value)) (name : String) :
    ((instanceContext target (program.emptyEvaluator.bindAll pairs) span position).hide hidden).parameter? name
      = (program.emptyEvaluator.bindAll (pairs.filter (·.1 ∉ hidden))).bindings.get? name := by
  have start : Bindings.get? [] name = if name ∈ hidden then none else Bindings.get? [] name := (ite_self none).symm
  refine Eq.trans ?_ (Bindings.get?_insertAll_filter pairs start).symm
  by_cases member : name ∈ hidden
  · simp [Context.parameter?, Context.hide, member]
  · rw [if_neg member]
    simp [Context.parameter?, Context.hide, instanceContext, member]
    rfl

/-- In an instance of a package whose parameters all have types that fix a value type, lowering an expression
without references does not change how it evaluates: without bindings it evaluates to the very value, or fails
with the error, that the expression does where the parameters that are not hidden are bound. Errors are viewed
without the text that shows the base of a member access, where names have been replaced. -/
theorem eval_lowerExpr (program : Program) (lookup : Lookup) {package : Package}
    (fixed : ∀ parameter ∈ package.parameters, parameter.fixes = true) {caller : Evaluator}
    {answers : Resolver Stop Id} (formed : caller.WellFormed) (answered : answers.WellFormed) {given : List Expr}
    {site : Span} {arguments : Arguments}
    (bound : (package.bindArguments given caller answers site).run = .ok arguments) (target : Instance) (span : Span)
    (position : Nat) (hidden : List String) {expr : Expr} (simple : expr.references = []) :
    ∃ lowered, program.lowerExpr lookup ((instanceContext target (program.emptyEvaluator.bindAll
          ((package.parameters.map (·.name)).zip arguments)) span position).hide hidden) expr = pure lowered ∧
      ∀ {ε δ : Type} {m : Type → Type} [Monad m] [LawfulMonad m] (resolver : Resolver ε m) (view : ε → δ),
        (∀ text text', view (resolver.raise (.notConstant text)) = view (resolver.raise (.notConstant text'))) →
        (program.emptyEvaluator.eval resolver lowered).adapt view =
          ((program.emptyEvaluator.bindAll (((package.parameters.map (·.name)).zip arguments).filter
            (·.1 ∉ hidden))).eval resolver expr).adapt view := by
  refine ⟨_, lowerExpr_eq_substitute program lookup _ expr simple, fun resolver view blind => ?_⟩
  refine Evaluator.eval_substitute ?_ (fun name => ?_) blind expr
  · rfl
  rw [identifier_eq_elim, parameter?_hide, Evaluator.eval]
  cases found : (program.emptyEvaluator.bindAll (((package.parameters.map (·.name)).zip arguments).filter
      (·.1 ∉ hidden))).bindings.get? name with
  | none =>
    rw [Option.elim_none, Evaluator.eval]
    rfl
  | some value =>
    rcases Bindings.mem_insertAll (Bindings.mem_of_get? found) with old | pair
    · cases old
    · obtain ⟨valueFormed, sized⟩ := package.isSized_bindArguments formed answered fixed bound value
        (List.of_mem_zip (List.mem_of_mem_filter pair)).2
      have spells : Expr.Spells program.emptyEvaluator (value.toExpr program.emptyEvaluator.defaultWidth) _ :=
        Value.toExpr_spells valueFormed
      rw [Value.relit_of_isSized sized] at spells
      exact spells.eval_eq_pure _ resolver

end Program

def fillPackage : Package :=
  ⟨"Fill", [⟨"Width", .typed (.int .u32), ⟨none, 0, 0⟩⟩,
    ⟨"Pattern", .typed (.logic (some (.ident "Width"))), ⟨none, 0, 0⟩⟩], [], ⟨none, 0, 0⟩⟩

def fillResolver : Resolver Stop Id where
  raise := .evaluation
  ident name := throw (.evaluation (.undefinedSymbol name))
  reference target := throw (.evaluation (.undefinedSymbol target.text))

/-- The pattern is hidden. The width is unsigned and of 32 bits before and after, as its negation shows; the text
of an error shows it by name before and by value after. -/
theorem eval_lowerExpr_fill :
    let program : Program := ⟨[], {}⟩
    let arguments : Arguments := [.int ⟨8, 32, false, true⟩, .int ⟨3, 8, false, true⟩]
    let pairs := [("Width", Value.int ⟨8, 32, false, true⟩), ("Pattern", .int ⟨3, 8, false, true⟩)]
    let context := (Program.instanceContext (firstOf "Fill") (program.emptyEvaluator.bindAll pairs) ⟨none, 0, 0⟩ 0).hide
      ["Pattern"]
    let negated : Expr := .unary .neg (.ident "Width")
    let member : Expr := .ternary (.binary .gt (.ident "Width") (.int 9)) (.ident "Pattern")
      (.field (.ident "Width") "high")
    (fillPackage.bindArguments [.int 8, .int 3] (.ofWidth 32) fillResolver ⟨none, 0, 0⟩).run = .ok arguments ∧
      (∃ lowered, program.lowerExpr (.ofBudget program 0) context negated = pure lowered ∧
        ((program.emptyEvaluator.eval Resolver.closed lowered).adapt EvalError.ctorIdx).run
          = .ok (.int ⟨4294967288, 32, false, true⟩)) ∧
      ∃ lowered, program.lowerExpr (.ofBudget program 0) context member = pure lowered ∧
        (program.emptyEvaluator.eval Resolver.closed lowered).adapt EvalError.ctorIdx =
          ((program.emptyEvaluator.bindAll (pairs.filter (·.1 ∉ ["Pattern"]))).eval Resolver.closed member).adapt
            EvalError.ctorIdx := by
  intro program arguments pairs context negated member
  have fixed : ∀ parameter ∈ fillPackage.parameters, parameter.fixes = true := by decide
  have answered : fillResolver.WellFormed := by
    constructor <;>
    · intro name value found
      cases found
  have bound : (fillPackage.bindArguments [.int 8, .int 3] (.ofWidth 32) fillResolver ⟨none, 0, 0⟩).run
      = .ok arguments := rfl
  have lowering (expr : Expr) (simple : expr.references = []) := program.eval_lowerExpr (.ofBudget program 0) fixed
    (Evaluator.wellFormed_ofWidth 32) answered bound (firstOf "Fill") ⟨none, 0, 0⟩ 0 ["Pattern"] simple
  refine ⟨bound, ?_, ?_⟩
  · obtain ⟨lowered, lowers, evaluates⟩ := lowering negated rfl
    refine ⟨lowered, lowers, ?_⟩
    rw [evaluates Resolver.closed EvalError.ctorIdx fun _ _ => rfl]
    rfl
  · obtain ⟨lowered, lowers, evaluates⟩ := lowering member rfl
    exact ⟨lowered, lowers, evaluates Resolver.closed EvalError.ctorIdx fun _ _ => rfl⟩

end Monomorph
