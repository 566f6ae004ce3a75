import Monomorph.Pass.Budget
import Monomorph.Pass.Constant

/-! Every evaluation settles.

A constant is evaluated at most once, and the instances that its evaluation asks
for lie one level deeper. Evaluation thus leaves less to do up to the level of the
constant, and `Weight.wellFounded_below` carries the induction. References are
taken apart along their arguments.
-/

set_option autoImplicit false

namespace Monomorph

/-- In a region, the constants of the scopes known there can be had. -/
def Region.Constants {program : Program} (region : Region program) : Prop :=
  ∀ scope name site, (region.knowing scope).Completes fun budget =>
    Lookup.ofBudget program budget (.constant scope name site)

namespace Program

variable {program : Program}

abbrev namesIn (program : Program) (scope : Scope) (position : Nat) (site : Span) (budget : Nat) :
    Resolver Stop Machine :=
  program.resolver (.ofBudget program budget) scope position site

section Evaluation

variable {region : Region program} {scope : Scope}

theorem fail_completes {α : Type} (position : Nat) (site : Span) (error : EvalError) :
    region.Completes fun budget => ((program.namesIn scope position site budget).fail error :
      ExceptT Stop Machine α) :=
  .throws (Stop.evaluation error)

theorem lift_completes {α : Type} (position : Nat) (site : Span) (result : Except EvalError α) :
    region.Completes fun budget => (program.namesIn scope position site budget).lift result := by
  cases result with
  | ok value => exact .pure value
  | error error => exact .throws (Stop.evaluation error)

theorem ident_completes (constants : region.Constants)
    (known : ∀ state, region.holds state → state.Knows scope)
    (position : Nat) (site : Span) (name : String) :
    region.Completes fun budget => (program.namesIn scope position site budget).ident name := by
  simp only [resolver]
  split
  · split
    · exact .adapt (fun state here => constants scope name site state ⟨here, known state here⟩) _
    · exact .throws _
  · split
    · exact .throws _
    · exact .throws _

theorem bindFrom_completes (package : String) (evaluator : Evaluator) (position : Nat) (site : Span)
    {arguments : List Expr}
    (each : ∀ argument, argument ∈ arguments → region.Completes fun budget =>
      evaluator.eval (program.namesIn scope position site budget) argument)
    (parameters : List GenericParameter) (index : Nat) (earlier : Evaluator) :
    region.Completes fun budget =>
      bindFrom package evaluator (program.namesIn scope position site budget) site index earlier
        parameters arguments := by
  induction arguments generalizing parameters index earlier with
  | nil => cases parameters <;> exact .pure []
  | cons argument rest ih =>
    cases parameters with
    | nil => exact .pure []
    | cons parameter parameters =>
      simp only [bindFrom]
      refine .bind (.adapt (each argument List.mem_cons_self) _) fun value => ?_
      refine .bind (.ofExcept _) fun value => ?_
      exact .bind (ih (fun other member => each other (List.mem_cons_of_mem _ member)) _ _ _)
        fun _ => .pure _

def Reached (state : State) (program : Program) (result : Except Fault Target) (final : State) : Prop :=
  state.Advances program final ∧
    ∀ target scope, result = .ok target → target.scope? = some scope → final.Knows scope

theorem target_settles (reference : Reference) (position : Nat)
    (each : ∀ argument, argument ∈ reference.arguments → ∀ evaluator : Evaluator,
      region.Completes fun budget =>
        evaluator.eval (program.namesIn scope position reference.span budget) argument)
    (state : State) (here : region.holds state) :
    Settles (fun budget => (program.target (.ofBudget program budget) reference scope position).run)
      state (Reached state program) := by
  have sound := region.sound state here
  unfold target
  split
  · rename_i package _
    have missed : ∀ fault final, state.Advances program final →
        Reached state program (.error fault) final :=
      fun _ _ advances => ⟨advances, fun _ _ same => by cases same⟩
    have reads : region.Completes fun _ => program.evaluatorFor scope := .reads _
    refine (reads state here).andThen (fun evaluator middle advances => ?_) missed
    have binds : region.Completes fun budget => package.bindArguments reference.arguments evaluator
        (program.namesIn scope position reference.span budget) reference.span := by
      unfold Package.bindArguments
      split
      · exact bindFrom_completes _ _ _ _ (fun argument member => each argument member evaluator) _ _ _
      · exact .throws _
    refine (binds middle (region.advance _ _ here advances)).andThen (fun arguments last further => ?_)
      (fun fault final further => missed fault final (advances.trans further))
    have asks := State.instantiate_advances further.sound package arguments reference.span
    have through := (advances.trans further).trans asks.1
    refine .andThen (.of_eq (fun _ => rfl) ⟨through, asks.2⟩ :
      Settles (fun _ => (PassM.ofState
          (·.instantiate program.settings package arguments reference.span)).run) last
        fun result final => state.Advances program final ∧
          ∀ target, result = .ok target → final.Knows (.instantiated target))
      (fun target final reached => ?_) (fun fault final reached => missed fault final reached.1)
    refine .of_eq (fun _ => rfl) ⟨reached.1, fun other scope same scope_eq => ?_⟩
    cases same
    cases scope_eq
    exact reached.2 target rfl
  · split
    · refine .of_eq (fun _ => rfl) ⟨.refl sound, fun target scope same scope_eq => ?_⟩
      cases same
      cases scope_eq
      trivial
    · refine .of_eq (fun _ => rfl) ⟨.refl sound, fun target scope same scope_eq => ?_⟩
      cases same
      cases scope_eq
    · exact .of_eq (fun _ => rfl) ⟨.refl sound, fun _ _ same => by cases same⟩
    · exact .of_eq (fun _ => rfl) ⟨.refl sound, fun _ _ same => by cases same⟩

theorem referenced_completes (constants : region.Constants)
    (reference : Reference) (position : Nat)
    (each : ∀ argument, argument ∈ reference.arguments → ∀ evaluator : Evaluator,
      region.Completes fun budget =>
        evaluator.eval (program.namesIn scope position reference.span budget) argument) :
    region.Completes fun budget =>
      Lookup.ofBudget program budget (.reference reference scope position) := by
  intro state here
  refine .of_succ rfl ?_
  show Settles (fun budget =>
    (program.referenced (.ofBudget program budget) reference scope position).run) state _
  refine (target_settles reference position each state here).andThen ?_ (fun _ _ reached => reached.1)
  rintro target middle ⟨advances, knows⟩
  have inside := region.advance _ _ here advances
  cases scope_eq : target.scope? with
  | none => exact .of_eq (fun _ => rfl) advances
  | some found =>
    have there := knows target found rfl scope_eq
    split
    · exact .of_eq (fun _ => rfl) advances
    · rename_i member same _
      cases same
      split
      · exact (constants found member reference.span middle ⟨inside, there⟩).imp
          fun _ _ further => advances.trans further
      · split
        · exact .of_eq (fun _ => rfl) advances
        · exact .of_eq (fun _ => rfl) advances
    · exact .of_eq (fun _ => rfl) advances

mutual
theorem eval_completes (constants : region.Constants)
    (known : ∀ state, region.holds state → state.Knows scope)
    (position : Nat) (site : Span) (evaluator : Evaluator) :
    ∀ expr : Expr, region.Completes fun budget =>
      evaluator.eval (program.namesIn scope position site budget) expr
  | .literal value => by
    simp only [Evaluator.eval]
    exact lift_completes position site _
  | .ident name => by
    simp only [Evaluator.eval]
    split
    · exact .pure _
    · exact ident_completes constants known position site name
  | .reference package arguments members span => by
    simp only [Evaluator.eval]
    exact .adapt (referenced_completes constants ⟨package, arguments, members, span⟩ position
      (fun argument member evaluator =>
        evalEach_completes constants known position span evaluator arguments argument member)) _
  | .binary op left right => by
    simp only [Evaluator.eval]
    exact .bind (eval_completes constants known position site evaluator left) fun _ =>
      .bind (eval_completes constants known position site evaluator right) fun _ => lift_completes position site _
  | .unary op operand => by
    simp only [Evaluator.eval]
    exact .bind (eval_completes constants known position site evaluator operand) fun _ => lift_completes position site _
  | .call function arguments => by
    simp only [Evaluator.eval]
    split
    · exact fail_completes position site _
    · exact .bind (evalList_completes constants known position site evaluator arguments) fun _ =>
        lift_completes position site _
  | .ternary condition whenTrue whenFalse => by
    simp only [Evaluator.eval]
    refine .bind (eval_completes constants known position site evaluator condition) fun value => ?_
    split
    · exact eval_completes constants known position site evaluator whenTrue
    · exact eval_completes constants known position site evaluator whenFalse
  | .field base name => by
    simp only [Evaluator.eval]
    exact fail_completes position site _

theorem evalList_completes (constants : region.Constants)
    (known : ∀ state, region.holds state → state.Knows scope)
    (position : Nat) (site : Span) (evaluator : Evaluator) :
    ∀ exprs : List Expr, region.Completes fun budget =>
      evaluator.evalList (program.namesIn scope position site budget) exprs
  | [] => by
    simp only [Evaluator.evalList]
    exact .pure _
  | first :: rest => by
    simp only [Evaluator.evalList]
    exact .bind (eval_completes constants known position site evaluator first) fun _ =>
      .bind (evalList_completes constants known position site evaluator rest) fun _ => .pure _

theorem evalEach_completes (constants : region.Constants)
    (known : ∀ state, region.holds state → state.Knows scope)
    (position : Nat) (site : Span) (evaluator : Evaluator) :
    ∀ exprs : List Expr, ∀ expr, expr ∈ exprs → region.Completes fun budget =>
      evaluator.eval (program.namesIn scope position site budget) expr
  | [], _, member => by cases member
  | first :: rest, expr, member => by
    rcases List.mem_cons.mp member with same | later
    · exact same ▸ eval_completes constants known position site evaluator first
    · exact evalEach_completes constants known position site evaluator rest expr later
end

theorem evalSize_completes (constants : region.Constants)
    (known : ∀ state, region.holds state → state.Knows scope)
    (position : Nat) (site : Span) (evaluator : Evaluator) (expr : Expr) :
    region.Completes fun budget => evaluator.evalSize (program.namesIn scope position site budget) expr := by
  unfold Evaluator.evalSize
  refine .bind (eval_completes constants known position site evaluator expr) fun value => ?_
  split
  · exact .pure _
  · exact fail_completes position site _

theorem valueType_completes (constants : region.Constants)
    (known : ∀ state, region.holds state → state.Knows scope)
    (position : Nat) (site : Span) (evaluator : Evaluator) (type : TypeExpr) :
    region.Completes fun budget => type.valueType evaluator (program.namesIn scope position site budget) := by
  have vector (width : Expr) : region.Completes fun budget => (do
        let width ← evaluator.evalSize (program.namesIn scope position site budget) width
        some <$> (program.namesIn scope position site budget).lift (ValueType.vector width)) :=
    .bind (evalSize_completes constants known position site evaluator width) fun _ =>
      .map (lift_completes position site _) _
  unfold TypeExpr.valueType
  split
  all_goals first | exact .pure _ | exact vector _

theorem valueOf_completes (constants : region.Constants)
    (known : ∀ state, region.holds state → state.Knows scope)
    (position : Nat) (decl : ConstDecl) :
    region.Completes fun budget => program.valueOf (.ofBudget program budget) scope position decl := by
  unfold valueOf
  refine .bind (.reads _) fun evaluator => ?_
  refine .bind (.adapt (eval_completes constants known position decl.span evaluator decl.value) _)
    fun value => ?_
  split
  · exact .pure _
  · rename_i type _
    refine .bind (.adapt (valueType_completes constants known position decl.span evaluator type) _)
      fun expected => ?_
    split
    · exact .pure _
    · exact .ofResult _

end Evaluation

/-- The sound states at a depth or below it with less to do up to that depth. -/
def under (program : Program) (bound : Nat) (start : Weight) : Region program where
  holds state := state.Sound program ∧ bound ≤ state.depth ∧
    Weight.Below bound (state.weight program) start
  sound _ here := here.1
  advance _ _ here advances :=
    ⟨advances.sound, advances.depth ▸ here.2.1,
      (advances.weight.anti here.2.1).trans_below here.2.2⟩

/-- The evaluation of a constant settles where the constants with less to do after
them can be had. -/
theorem constant_settles {state : State} (sound : state.Sound program) {scope : Scope}
    (known : state.Knows scope) (name : String) (site : Span)
    (constants : (under program (state.rank scope) (state.weight program)).Constants) :
    Settles (fun budget => (Lookup.ofBudget program budget (.constant scope name site)).run) state
      fun _ final => state.Advances program final := by
  refine .of_succ rfl ?_
  show Settles (fun budget => (program.constant (.ofBudget program budget) scope name site).run) state _
  unfold constant
  refine .reading ?_
  cases seen : state.constants.get? ⟨scope, name⟩ with
  | some progress =>
    simp only [seen]
    cases progress with
    | done value => exact .of_eq (fun _ => rfl) (.refl sound)
    | failed fault => exact .of_eq (fun _ => rfl) (.refl sound)
    | inProgress => exact .of_eq (fun _ => rfl) (.refl sound)
  | none =>
    simp only [seen]
    split
    · exact .of_eq (fun _ => rfl) (.refl sound)
    · rename_i position decl found
      refine .writing ?_
      -- marking the constant leaves less to do at the rank of its scope, and so does every later state
      have start : ((under program (state.rank scope) (state.weight program)).knowing scope).holds
          (state.enter ⟨scope, name⟩) :=
        ⟨⟨State.sound_enter sound _, State.rank_le_levelOf known,
          Weight.below_of_le (State.weight_insert_le _ _) _
            (State.weight_insert_lt _ known found seen)⟩, known⟩
      have value := @valueOf_completes program ((under program _ _).knowing scope) scope
        (fun scope name site state here => constants scope name site state ⟨here.1.1, here.2⟩)
        (fun _ here => here.2) position decl _ start
      refine value.bracket fun result middle advances => ?_
      -- back at the outer depth: the decrease lies up to that depth, or beyond it and does not show
      have inside := Region.advance _ _ _ start advances
      exact ⟨rfl, ((Weight.notAbove_of_le (State.weight_insert_le _ _) _).trans_below
        inside.1.2.2).notAbove _, advances.levels, State.sound_leave advances.sound _ sound.depth_le _⟩

theorem constants_all (program : Program) : (Region.all program).Constants := by
  have each (weight : Weight) : ∀ state, state.weight program = weight → state.Sound program →
      ∀ scope, state.Knows scope → ∀ name site,
        Settles (fun budget => (Lookup.ofBudget program budget (.constant scope name site)).run) state
          fun _ final => state.Advances program final := by
    induction weight using
      (Weight.wellFounded_below program.settings.maxInstantiationDepth).induction with
    | _ weight ih =>
      intro state same sound scope known name site
      refine constant_settles sound known name site fun scope' name' site' state' here => ?_
      have below := here.1.2.2.mono (State.rank_le sound scope)
      exact ih _ (same ▸ below) state' rfl here.1.1 scope' here.2 name' site'
  exact fun scope name site state here => each _ state rfl here.1 scope here.2 name site

theorem constants_in (region : Region program) : region.Constants :=
  fun scope name site state here =>
    constants_all program scope name site state ⟨region.sound state here.1, here.2⟩

end Program
end Monomorph
