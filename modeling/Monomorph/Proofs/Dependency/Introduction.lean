import Monomorph.Proofs.Dependency.Traces
import Monomorph.Proofs.Pass.Lowering

/-! Instances are asked for along uses.

The lemmas follow the evaluation of constants and the demands of items. A constant
that is remembered asks for nothing; one that is evaluated asks for what it uses. A
constant of another instance is read through that instance, which is itself used.
-/

set_option autoImplicit false

namespace Monomorph

def Program.RequestUses (program : Program) (registry : Registry) : Request → Instance → Prop
  | .constant scope name _ => program.ConstantUses registry scope name
  | .reference reference scope position => program.ReferenceUses registry scope position reference

def Lookup.Traceable (program : Program) (lookup : Lookup) : Prop :=
  ∀ pre request, Traces program pre (lookup request) fun registry => program.RequestUses registry request

namespace Program

variable {program : Program} {lookup : Lookup} {scope : Scope} {position : Nat} {site : Span}
  {evaluator : Evaluator}

theorem lift_traces {pre : Registry → Prop} {uses : Registry → Instance → Prop} {α : Type}
    (result : Except EvalError α) :
    Traces program pre ((program.resolver lookup scope position site).lift result) uses := by
  cases result with
  | ok value => exact .pure value
  | error error => exact .throws _

theorem ident_traces (traceable : lookup.Traceable program) {pre : Registry → Prop} (name : String)
    (free : evaluator.bindings.get? name = none) :
    Traces program pre ((program.resolver lookup scope position site).ident name) fun registry =>
      program.ExprUses registry scope position evaluator (.ident name) := by
  simp only [resolver]
  split
  · rename_i index decl found
    split
    · rename_i visible
      apply Traces.adapt
      apply (traceable pre (.constant scope name site)).imp
      intro registry used _ uses
      exact .constant free found visible uses
    · exact .throws _
  · split
    · exact .throws _
    · exact .throws _

mutual

theorem eval_traces (faithful : lookup.Faithful program) (traceable : lookup.Traceable program) :
    ∀ {pre : Registry → Prop} (expr : Expr),
      Traces program pre (evaluator.eval (program.resolver lookup scope position site) expr)
        fun registry => program.ExprUses registry scope position evaluator expr
  | _, .literal literal => by
    rw [Evaluator.eval]
    exact lift_traces _
  | _, .ident name => by
    rw [Evaluator.eval]
    split
    · exact .pure _
    · rename_i free
      exact ident_traces traceable name free
  | pre, .reference package arguments members span => by
    rw [Evaluator.eval]
    apply Traces.adapt
    apply (traceable pre (.reference ⟨package, arguments, members, span⟩ scope position)).imp
    intro registry used _ uses
    exact .reference uses
  | _, .binary op left right => by
    rw [Evaluator.eval]
    apply Traces.bind (eval_ensures faithful left)
    · apply (eval_traces faithful traceable left).imp
      exact fun _ _ _ uses => .operand (List.mem_pair.mpr (.inl rfl)) uses
    intro value
    apply Traces.bind (eval_ensures faithful right)
    · apply (eval_traces faithful traceable right).imp
      exact fun _ _ _ uses => .operand (List.mem_pair.mpr (.inr rfl)) uses
    intro other
    exact lift_traces _
  | _, .unary op operand => by
    rw [Evaluator.eval]
    apply Traces.bind (eval_ensures faithful operand)
    · apply (eval_traces faithful traceable operand).imp
      exact fun _ _ _ uses => .operand (List.mem_singleton.mpr rfl) uses
    intro value
    exact lift_traces _
  | _, .call function arguments => by
    rw [Evaluator.eval]
    split
    · exact .throws _
    · apply Traces.bind (evalList_ensures faithful arguments)
      · apply (evalList_traces faithful traceable arguments).imp
        rintro registry used _ ⟨argument, member, uses⟩
        exact .operand member uses
      intro values
      exact lift_traces _
  | _, .ternary condition whenTrue whenFalse => by
    rw [Evaluator.eval]
    apply Traces.bind (eval_ensures faithful condition)
    · apply (eval_traces faithful traceable condition).imp
      exact fun _ _ _ uses => .operand (List.mem_singleton.mpr rfl) uses
    intro test
    split
    · rename_i truthy
      apply (eval_traces faithful traceable whenTrue).imp
      intro registry used known uses
      exact .chosen known.2 (by rw [if_pos truthy]; exact uses)
    · rename_i falsy
      apply (eval_traces faithful traceable whenFalse).imp
      intro registry used known uses
      exact .chosen known.2 (by rw [if_neg falsy]; exact uses)
  | _, .field base name => by
    rw [Evaluator.eval]
    exact .throws _

theorem evalList_traces (faithful : lookup.Faithful program) (traceable : lookup.Traceable program) :
    ∀ {pre : Registry → Prop} (exprs : List Expr),
      Traces program pre (evaluator.evalList (program.resolver lookup scope position site) exprs)
        fun registry used => ∃ expr ∈ exprs, program.ExprUses registry scope position evaluator expr used
  | _, [] => by
    rw [Evaluator.evalList]
    exact .pure _
  | _, head :: rest => by
    rw [Evaluator.evalList]
    apply Traces.bind (eval_ensures faithful head)
    · apply (eval_traces faithful traceable head).imp
      exact fun _ _ _ uses => ⟨head, List.mem_cons_self, uses⟩
    intro value
    apply Traces.thenPure
    apply (evalList_traces faithful traceable rest).imp
    rintro registry used _ ⟨expr, member, uses⟩
    exact ⟨expr, List.mem_cons_of_mem head member, uses⟩

end

theorem evalSize_traces (faithful : lookup.Faithful program) (traceable : lookup.Traceable program)
    {pre : Registry → Prop} (size : Expr) :
    Traces program pre (evaluator.evalSize (program.resolver lookup scope position site) size)
      fun registry => program.ExprUses registry scope position evaluator size := by
  unfold Evaluator.evalSize
  apply Traces.bind (eval_ensures faithful size) (eval_traces faithful traceable size)
  intro value
  split
  · exact .pure _
  · exact .throws _

theorem valueType_traces (faithful : lookup.Faithful program) (traceable : lookup.Traceable program)
    {pre : Registry → Prop} (type : TypeExpr) :
    Traces program pre (type.valueType evaluator (program.resolver lookup scope position site))
      fun registry used => ∃ width, type.width? = some width ∧
        program.ExprUses registry scope position evaluator width used := by
  have vector (width : Expr) (found : type.width? = some width) :
      Traces program pre (do
          let width ← evaluator.evalSize (program.resolver lookup scope position site) width
          some <$> (program.resolver lookup scope position site).lift (ValueType.vector width))
        fun registry used => ∃ width, type.width? = some width ∧
          program.ExprUses registry scope position evaluator width used := by
    apply Traces.bind (evalSize_ensures faithful width)
    · apply (evalSize_traces faithful traceable width).imp
      exact fun _ _ _ uses => ⟨width, found, uses⟩
    intro size
    rw [map_eq_pure_bind]
    exact (lift_traces _).thenPure
  cases type with
  | logic width =>
    cases width with
    | none => exact .pure _
    | some width => exact vector width rfl
  | bit width =>
    cases width with
    | none => exact .pure _
    | some width => exact vector width rfl
  | int kind => exact .pure _
  | bool => exact .pure _
  | named name => exact .pure _
  | reference target => exact .pure _
  | array element length => exact .pure _

theorem bindFrom_traces (faithful : lookup.Faithful program) (traceable : lookup.Traceable program)
    {pre : Registry → Prop} (package : String) (index : Nat) (earlier : Evaluator)
    (parameters : List GenericParameter) (arguments : List Expr) :
    Traces program pre
      (bindFrom package evaluator (program.resolver lookup scope position site) site index earlier
        parameters arguments)
      fun registry used => ∃ argument ∈ arguments,
        program.ExprUses registry scope position evaluator argument used := by
  induction arguments generalizing parameters index earlier pre with
  | nil => cases parameters <;> exact .pure _
  | cons argument arguments ih =>
    cases parameters with
    | nil => exact .pure _
    | cons parameter parameters =>
      rw [bindFrom]
      apply Traces.bind ((eval_ensures faithful argument).adapt _)
      · apply Traces.adapt
        apply (eval_traces faithful traceable argument).imp
        exact fun _ _ _ uses => ⟨argument, List.mem_cons_self, uses⟩
      intro value
      apply Traces.bind (Ensures.ofExcept fun _ _ _ _ => trivial) (.ofExcept _)
      intro result
      apply Traces.thenPure
      apply (ih (index + 1) (earlier.bind parameter.name result) parameters).imp
      rintro registry used _ ⟨other, member, uses⟩
      exact ⟨other, List.mem_cons_of_mem argument member, uses⟩

theorem bindArguments_traces (faithful : lookup.Faithful program) (traceable : lookup.Traceable program)
    {pre : Registry → Prop} (package : Package) (arguments : List Expr) :
    Traces program pre
      (package.bindArguments arguments evaluator (program.resolver lookup scope position site) site)
      fun registry used => ∃ argument ∈ arguments,
        program.ExprUses registry scope position evaluator argument used := by
  unfold Package.bindArguments
  split
  · exact bindFrom_traces faithful traceable package.name 0 _ _ _
  · exact .throws _

theorem instantiate_traces {pre : Registry → Prop} (package : Package) (arguments : Arguments) :
    Traces program pre (PassM.ofState (·.instantiate program.settings package arguments site))
      fun registry used => ∃ id, used = ⟨package.name, id⟩ ∧
        registry.find? package.name arguments = some id := by
  intro first result last _ coherent _ ran
  replace ran : first.instantiate program.settings package arguments site = (result, last) :=
    Option.some.inj ran
  obtain ⟨coherent', grows⟩ := coherent.instantiate ran
  refine ⟨coherent', grows, fun ended registry further target known unknown => ?_⟩
  unfold State.instantiate at ran
  split at ran
  · cases ran
    exact absurd known unknown
  · split at ran
    · cases ran
      exact absurd known unknown
    · cases ran
      exact absurd known unknown
  · rename_i id registry' asked
    simp only at ran
    split at ran
    · cases ran
      cases ended
    · cases ran
      rcases ((Registry.knows_of_request asked).2 target).mp known with already | same
      · exact absurd already unknown
      · exact ⟨target, ⟨id, same, further.find? (Registry.find?_of_request_ok asked).2⟩, .refl⟩

theorem target_traces (faithful : lookup.Faithful program) (traceable : lookup.Traceable program)
    {pre : Registry → Prop} (reference : Reference) :
    Traces program pre (program.target lookup reference scope position)
      fun registry => program.TargetUses registry scope position reference := by
  unfold target
  split
  · rename_i package generic
    have named : package.name = reference.package := name_of_generic? generic
    apply Traces.bind (evaluatorFor_ensures scope) (.reads _)
    intro evaluator
    apply Traces.bind (bindArguments_ensures faithful package reference.arguments)
    · apply (bindArguments_traces faithful traceable package reference.arguments).imp
      rintro registry used ⟨_, made⟩ ⟨argument, member, uses⟩
      exact .argument made member uses
    intro bound
    apply Traces.thenPure
    apply (instantiate_traces package bound).imp
    rintro registry used ⟨⟨_, made⟩, values, evaluated, accepted⟩ ⟨id, rfl, found⟩
    exact .reached (.instantiated generic ⟨evaluator, values, made, evaluated, accepted⟩ found)
  · split
    · exact .pure _
    · exact .pure _
    · exact .throws _
    · exact .throws _

theorem valueOf_traces (faithful : lookup.Faithful program) (traceable : lookup.Traceable program)
    {pre : Registry → Prop} {name : String} {decl : ConstDecl}
    (found : program.findConst scope name = some (position, decl)) :
    Traces program pre (program.valueOf lookup scope position decl)
      fun registry => program.ConstantUses registry scope name := by
  unfold valueOf
  apply Traces.bind (evaluatorFor_ensures scope) (.reads _)
  intro evaluator
  apply Traces.bind ((eval_ensures faithful decl.value).adapt _)
  · apply Traces.adapt
    apply (eval_traces faithful traceable decl.value).imp
    exact fun registry used known uses => .value found known.2 uses
  intro value
  split
  · exact .pure _
  · rename_i type declared
    apply Traces.bind ((valueType_ensures faithful type).adapt _)
    · apply Traces.adapt
      apply (valueType_traces faithful traceable type).imp
      rintro registry used ⟨⟨_, made⟩, _⟩ ⟨width, sized, uses⟩
      exact .type found made (by rw [declared]; exact sized) uses
    intro fixed
    cases fixed with
    | none => exact .pure _
    | some expected => exact .ofResult _

theorem constant_traces (faithful : lookup.Faithful program) (traceable : lookup.Traceable program)
    {pre : Registry → Prop} (name : String) :
    Traces program pre (program.constant lookup scope name site)
      fun registry => program.ConstantUses registry scope name := by
  intro first result last consistent coherent holds ran
  unfold constant at ran
  rw [PassM.run_get_bind] at ran
  simp only at ran
  split at ran
  · cases ran
    exact .unchanged coherent _
  · cases ran
    exact .unchanged coherent _
  · cases ran
    exact .unchanged coherent _
  · split at ran
    · cases ran
      exact .unchanged coherent _
    · rename_i position decl found
      rw [PassM.run_set_bind] at ran
      obtain ⟨outcome, middle, evaluated, answer, left⟩ := PassM.run_bracket ran
      subst answer left
      -- the marks on the constant concern neither the registry nor the history
      have traced := valueOf_traces faithful traceable found (first.enter ⟨scope, name⟩) result middle
        (State.consistent_enter consistent _) (coherent.enter _) holds evaluated
      have grows := traced.grows
      exact ⟨traced.coherent.leave _ _ _,
        ⟨⟨grows.registry, grows.history, grows.started, grows.clean⟩, grows.queue, grows.specialized⟩,
        traced.introduces⟩

theorem referenced_traces (faithful : lookup.Faithful program) (traceable : lookup.Traceable program)
    {pre : Registry → Prop} (reference : Reference) :
    Traces program pre (program.referenced lookup reference scope position)
      fun registry => program.ReferenceUses registry scope position reference := by
  unfold referenced
  apply Traces.bind (target_ensures faithful reference)
    ((target_traces faithful traceable reference).imp fun _ _ _ uses => .target uses)
  intro target
  split
  · exact .throws _
  · rename_i found member reached members
    split
    · apply (traceable _ (.constant found member reference.span)).weaken fun _ known => known
      rintro registry used ⟨_, reaches⟩ uses
      cases reaches with
      | instantiated generic binds known =>
        -- what a constant of another instance uses, that instance uses
        cases reached
        refine ⟨_, .target (.reached (.instantiated generic binds known)), .single ?_⟩
        exact ConstantUses.uses uses
      | plain plain none =>
        cases reached
        exact ⟨used, .plain plain members uses, .refl⟩
      | unknown => cases reached
    · split
      · exact .throws _
      · exact .throws _
  · exact .throws _

end Program

/-- Whatever the budget, answers ask for what requests use. -/
theorem Lookup.traceable_ofBudget (program : Program) (budget : Nat) :
    (Lookup.ofBudget program budget).Traceable program := by
  induction budget with
  | zero =>
    intro pre request
    exact .exhausted
  | succ budget ih =>
    have faithful := Lookup.faithful_ofBudget program budget
    intro pre request
    cases request with
    | constant scope name site => exact Program.constant_traces faithful ih name
    | reference reference scope position => exact Program.referenced_traces faithful ih reference

end Monomorph
