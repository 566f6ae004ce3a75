import Monomorph.Proofs.Locality.Visibility
import Monomorph.Proofs.Pass.Agreement
import Monomorph.Proofs.Pass.Ensures

/-! Evaluation in a program and in a wider one.

The value of an expression depends on the resolver only at the references in it. So
requests from a body of the program are answered alike by the wider program, from
every state: as a budget grows, each answer is put together from references that both
programs direct alike and from constants of bodies that both have.
-/

set_option autoImplicit false

namespace Monomorph

variable {ε : Type} {m : Type → Type} [Monad m]

/-- Resolvers that differ at most in references that are not visible. -/
structure Resolver.Matches (resolver other : Resolver ε m) (visible : Reference → Prop) : Prop where
  raise : other.raise = resolver.raise
  ident : ∀ name, other.ident name = resolver.ident name
  reference : ∀ reference, visible reference → other.reference reference = resolver.reference reference

section Congruence

variable {evaluator : Evaluator} {resolver other : Resolver ε m} {visible : Reference → Prop}

theorem Resolver.Matches.fail_eq {α : Type} (same : resolver.Matches other visible) (error : EvalError) :
    (other.fail error : ExceptT ε m α) = resolver.fail error := by
  simp only [Resolver.fail, same.raise]

theorem Resolver.Matches.lift_eq {α : Type} (same : resolver.Matches other visible)
    (result : Except EvalError α) : other.lift result = resolver.lift result := by
  cases result with
  | ok value => rfl
  | error error => exact same.fail_eq error

mutual

theorem Resolver.Matches.eval_eq (same : resolver.Matches other visible) : ∀ expr : Expr,
    (∀ reference ∈ expr.references, visible reference) →
    evaluator.eval other expr = evaluator.eval resolver expr
  | .literal value, _ => by simp only [Evaluator.eval, same.lift_eq]
  | .ident name, _ => by simp only [Evaluator.eval, same.ident]
  | .reference package arguments members span, seen => by
    simp only [Evaluator.eval]
    exact same.reference _ (seen _ (List.mem_singleton_self _))
  | .binary op left right, seen => by
    obtain ⟨seenLeft, seenRight⟩ := List.forall_mem_append.mp seen
    simp only [Evaluator.eval, same.eval_eq left seenLeft, same.eval_eq right seenRight, same.lift_eq]
  | .unary op operand, seen => by
    simp only [Evaluator.eval, same.eval_eq operand seen, same.lift_eq]
  | .call function arguments, seen => by
    simp only [Evaluator.eval, same.evalList_eq arguments seen, same.lift_eq, same.fail_eq]
  | .ternary condition whenTrue whenFalse, seen => by
    obtain ⟨seen, seenFalse⟩ := List.forall_mem_append.mp seen
    obtain ⟨seenCondition, seenTrue⟩ := List.forall_mem_append.mp seen
    simp only [Evaluator.eval, same.eval_eq condition seenCondition, same.eval_eq whenTrue seenTrue,
      same.eval_eq whenFalse seenFalse]
  | .field base name, _ => by simp only [Evaluator.eval, same.fail_eq]

theorem Resolver.Matches.evalList_eq (same : resolver.Matches other visible) : ∀ exprs : List Expr,
    (∀ reference ∈ Expr.listReferences exprs, visible reference) →
    evaluator.evalList other exprs = evaluator.evalList resolver exprs
  | [], _ => by simp only [Evaluator.evalList]
  | first :: rest, seen => by
    obtain ⟨seenFirst, seenRest⟩ := List.forall_mem_append.mp seen
    simp only [Evaluator.evalList, same.eval_eq first seenFirst, same.evalList_eq rest seenRest]

end

theorem Resolver.Matches.evalSize_eq (same : resolver.Matches other visible) (size : Expr)
    (seen : ∀ reference ∈ size.references, visible reference) :
    evaluator.evalSize other size = evaluator.evalSize resolver size := by
  simp only [Evaluator.evalSize, same.eval_eq size seen, same.fail_eq]

theorem Resolver.Matches.valueType_eq (same : resolver.Matches other visible) (type : TypeExpr)
    (seen : ∀ reference ∈ type.references, visible reference) :
    type.valueType evaluator other = type.valueType evaluator resolver := by
  cases type with
  | logic width =>
    cases width with
    | none => rfl
    | some width => simp only [TypeExpr.valueType, same.evalSize_eq width seen, same.lift_eq]
  | bit width =>
    cases width with
    | none => rfl
    | some width => simp only [TypeExpr.valueType, same.evalSize_eq width seen, same.lift_eq]
  | int kind => rfl
  | bool => rfl
  | named name => rfl
  | reference target => rfl
  | array element length => rfl

end Congruence

section Binding

variable {evaluator : Evaluator} {resolver other : Resolver Stop m} {visible : Reference → Prop}

theorem Resolver.Matches.bindFrom_eq (same : resolver.Matches other visible) (package : String) (site : Span)
    (parameters : List GenericParameter) : ∀ (position : Nat) (earlier : Evaluator) (arguments : List Expr),
      (∀ reference ∈ Expr.listReferences arguments, visible reference) →
      bindFrom package evaluator other site position earlier parameters arguments
        = bindFrom package evaluator resolver site position earlier parameters arguments := by
  induction parameters with
  | nil =>
    intro position earlier arguments seen
    simp only [bindFrom]
  | cons parameter parameters ih =>
    intro position earlier arguments seen
    cases arguments with
    | nil => simp only [bindFrom]
    | cons argument arguments =>
      obtain ⟨seenArgument, seenRest⟩ := List.forall_mem_append.mp seen
      simp only [bindFrom, same.eval_eq argument seenArgument, ih _ _ arguments seenRest]

theorem Resolver.Matches.bindArguments_eq (same : resolver.Matches other visible) (package : Package)
    (arguments : List Expr) (site : Span) (seen : ∀ reference ∈ Expr.listReferences arguments, visible reference) :
    package.bindArguments arguments evaluator other site = package.bindArguments arguments evaluator resolver site := by
  simp only [Package.bindArguments, same.bindFrom_eq package.name site package.parameters _ _ arguments seen]

end Binding

namespace PassM

variable {α β : Type}

def Returns (operation : PassM α) (value : α) : Prop :=
  ∃ first last, operation.run first = some (.ok value, last)

/-- Operations that go on alike after every result of the first one. -/
theorem bind_congr_of_returns {operation : PassM α} {next other : α → PassM β}
    (same : ∀ value, operation.Returns value → other value = next value) :
    (operation >>= other) = (operation >>= next) := by
  funext first
  apply ExceptT.run_bind_congr rfl
  intro value middle ran
  rw [same value ⟨first, middle, ran⟩]

theorem Returns.bind {operation : PassM α} {next : α → PassM β} {result : β}
    (returns : (operation >>= next).Returns result) :
    ∃ value, operation.Returns value ∧ (next value).Returns result := by
  obtain ⟨first, last, ran⟩ := returns
  rcases ExceptT.run_bind_eq_some ran with ⟨error, _, failed⟩ | ⟨value, middle, stepped, ran⟩
  · cases failed
  · exact ⟨value, ⟨first, middle, stepped⟩, middle, last, ran⟩

theorem Returns.pure {value result : α} (returns : (Pure.pure value : PassM α).Returns result) : result = value := by
  obtain ⟨first, last, ran⟩ := returns
  cases ran
  rfl

theorem Returns.throws {fault : Fault} {result : α} (returns : (throw fault : PassM α).Returns result) : False := by
  obtain ⟨first, last, ran⟩ := returns
  cases ran

end PassM

theorem State.base_of_instantiate {state : State} {settings : Settings} {package : Package} {arguments : Arguments}
    {site : Span} {target : Instance}
    (made : (state.instantiate settings package arguments site).1 = .ok target) : target.base = package.name := by
  unfold State.instantiate at made
  split at made
  · cases made
  · split at made
    · cases made
    · cases made
      rfl
  · simp only at made
    split at made
    · cases made
    · cases made
      rfl

namespace Program

/-- Look-ups in a program and in a wider one with the same answers to what the program asks for. -/
structure Mirrors (program : Program) (lookup : Lookup) (wider : Program) (wide : Lookup) : Prop where
  within : program.Within wider
  constant : ∀ scope name site, program.Covers scope →
    wide (.constant scope name site) = lookup (.constant scope name site)
  reference : ∀ reference scope position, program.Covers scope → reference.Visible program wider →
    wide (.reference reference scope position) = lookup (.reference reference scope position)

variable {program wider : Program} {lookup wide : Lookup} {scope : Scope} {position : Nat} {reference : Reference}

theorem Mirrors.resolver_matches (mirrors : program.Mirrors lookup wider wide) (covers : program.Covers scope)
    (position : Nat) (site : Span) :
    (program.resolver lookup scope position site).Matches (wider.resolver wide scope position site)
      (Reference.Visible program wider) where
  raise := rfl
  ident name := by
    simp only [resolver, mirrors.within.findConst_eq covers, mirrors.within.declares_eq covers,
      mirrors.constant scope name site covers]
  reference target visible := by simp only [resolver, mirrors.reference target scope position covers visible]

theorem Mirrors.target_eq (mirrors : program.Mirrors lookup wider wide) (covers : program.Covers scope)
    (visible : reference.Visible program wider) :
    wider.target wide reference scope position = program.target lookup reference scope position := by
  have matched := mirrors.resolver_matches covers position reference.span
  unfold target
  simp only [visible.generic?_eq, visible.plain?_eq, mirrors.within.evaluatorFor_eq covers,
    matched.bindArguments_eq _ reference.arguments reference.span visible.arguments, mirrors.within.settings]

theorem covers_of_target {inner : Scope} {found : Target}
    (returns : (program.target lookup reference scope position).Returns found) (led : found.scope? = some inner) :
    program.Covers inner := by
  unfold target at returns
  split at returns
  · rename_i package generic
    obtain ⟨evaluator, _, returns⟩ := returns.bind
    obtain ⟨arguments, _, returns⟩ := returns.bind
    obtain ⟨target, ⟨first, last, made⟩, returns⟩ := returns.bind
    have base := State.base_of_instantiate (congrArg Prod.fst (Option.some.inj made))
    rw [returns.pure] at led
    cases led
    have known := generic?_eq_some generic
    rw [← name_of_generic? generic, ← base] at known
    exact .instantiated known
  · split at returns
    · rename_i plain _
      rw [returns.pure] at led
      cases led
      have known := plain?_eq_some plain
      rw [← name_of_plain? plain] at known
      exact .package known
    · rw [returns.pure] at led
      cases led
    · exact returns.throws.elim
    · exact returns.throws.elim

theorem Mirrors.valueOf_eq (mirrors : program.Mirrors lookup wider wide) (covers : program.Covers scope)
    {decl : ConstDecl} (visible : ∀ reference ∈ decl.references, reference.Visible program wider) :
    wider.valueOf wide scope position decl = program.valueOf lookup scope position decl := by
  obtain ⟨inValue, inType⟩ := List.forall_mem_append.mp visible
  have matched := mirrors.resolver_matches covers position decl.span
  unfold valueOf
  simp only [mirrors.within.evaluatorFor_eq covers, matched.eval_eq decl.value inValue]
  cases declared : decl.type with
  | none => rfl
  | some type =>
    rw [declared] at inType
    simp only [matched.valueType_eq type inType]

theorem Mirrors.constant_eq (mirrors : program.Mirrors lookup wider wide) (covers : program.Covers scope)
    (name : String) (site : Span) :
    wider.constant wide scope name site = program.constant lookup scope name site := by
  unfold Program.constant
  simp only [mirrors.within.findConst_eq covers]
  cases found : program.findConst scope name with
  | none => rfl
  | some entry =>
    have visible := mirrors.within.visible_of_findConst found
    simp only [mirrors.valueOf_eq covers visible]

theorem Mirrors.referenced_eq (mirrors : program.Mirrors lookup wider wide) (covers : program.Covers scope)
    (visible : reference.Visible program wider) :
    wider.referenced wide reference scope position = program.referenced lookup reference scope position := by
  unfold referenced
  rw [mirrors.target_eq covers visible]
  apply PassM.bind_congr_of_returns
  intro found returns
  cases led : found.scope? with
  | none => rfl
  | some inner =>
    have covers := covers_of_target returns led
    rcases reference.members with _ | ⟨member, _ | ⟨_, _⟩⟩
    · rfl
    · simp only [mirrors.within.findConst_eq covers, mirrors.within.declares_eq covers,
        mirrors.constant inner member reference.span covers]
    · rfl

/-- Whatever the budget, a wider program answers as the program does. -/
theorem Within.mirrors (within : program.Within wider) (budget : Nat) :
    program.Mirrors (.ofBudget program budget) wider (.ofBudget wider budget) := by
  induction budget with
  | zero => exact ⟨within, fun _ _ _ _ => rfl, fun _ _ _ _ _ => rfl⟩
  | succ budget ih =>
    exact ⟨within, fun _ name site covers => ih.constant_eq covers name site,
      fun _ _ _ covers visible => ih.referenced_eq covers visible⟩

end Program
end Monomorph
