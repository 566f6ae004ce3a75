import Monomorph.Proofs.Pass.Ensures

/-! Evaluation gives the values that names denote.

A look-up is faithful if its answers are what the rules of denotation say. Whatever
is evaluated over a faithful look-up is then evaluated by the rules. A look-up under
a budget is faithful by induction on the budget.
-/

set_option autoImplicit false

namespace Monomorph

/-- What the answer to a request has to be. -/
def Program.Answers (program : Program) (registry : Registry) : Request → Value → Prop
  | .constant scope name _, value => program.ConstantValue registry .value scope name value
  | .reference reference scope position, value =>
    program.ReferenceValue registry .value scope position reference value

def Lookup.Faithful (program : Program) (lookup : Lookup) : Prop :=
  ∀ pre request, Ensures program pre (lookup request) fun value registry =>
    program.Answers registry request value

namespace Program

variable {program : Program} {lookup : Lookup} {scope : Scope} {position : Nat} {site : Span}
  {evaluator : Evaluator}

theorem lift_ensures {pre : Registry → Prop} {α : Type} {result : Except EvalError α}
    {post : α → Registry → Prop}
    (holds : ∀ value registry, result = .ok value → pre registry → post value registry) :
    Ensures program pre ((program.resolver lookup scope position site).lift result) post := by
  cases result with
  | ok value => exact .pure fun registry before => holds value registry rfl before
  | error error => exact .throws _

theorem ident_ensures (faithful : lookup.Faithful program) {pre : Registry → Prop} (name : String)
    (free : evaluator.bindings.get? name = none) :
    Ensures program pre ((program.resolver lookup scope position site).ident name) fun value registry =>
      program.ExprValue registry .value scope position evaluator (.ident name) value := by
  simp only [resolver]
  split
  · rename_i index decl found
    split
    · rename_i visible
      apply Ensures.adapt
      apply (faithful pre (.constant scope name site)).imp
      intro value registry _ answered
      exact .constant free found visible answered
    · exact .throws _
  · split
    · exact .throws _
    · exact .throws _

mutual

theorem eval_ensures (faithful : lookup.Faithful program) :
    ∀ {pre : Registry → Prop} (expr : Expr),
      Ensures program pre (evaluator.eval (program.resolver lookup scope position site) expr)
        fun value registry => program.ExprValue registry .value scope position evaluator expr value
  | _, .literal literal => by
    rw [Evaluator.eval]
    exact lift_ensures fun value registry found _ => .literal found
  | pre, .ident name => by
    rw [Evaluator.eval]
    -- a parameter hides a constant of the same name
    split
    · rename_i value bound
      exact .pure fun registry _ => .parameter bound
    · rename_i free
      exact ident_ensures faithful name free
  | pre, .reference package arguments members span => by
    rw [Evaluator.eval]
    apply Ensures.adapt
    apply (faithful pre (.reference ⟨package, arguments, members, span⟩ scope position)).imp
    intro value registry _ answered
    exact .reference answered
  | _, .binary op left right => by
    rw [Evaluator.eval]
    apply (eval_ensures faithful left).bind
    intro first
    apply (eval_ensures faithful right).bind
    intro second
    exact lift_ensures fun value registry found known => .binary known.1.2 known.2 found
  | _, .unary op operand => by
    rw [Evaluator.eval]
    apply (eval_ensures faithful operand).bind
    intro found
    exact lift_ensures fun value registry result known => .unary known.2 result
  | _, .call function arguments => by
    rw [Evaluator.eval]
    split
    · exact .throws _
    · rename_i builtin found
      apply (evalList_ensures faithful arguments).bind
      intro values
      exact lift_ensures fun value registry result known => .call found known.2 result
  | _, .ternary condition whenTrue whenFalse => by
    rw [Evaluator.eval]
    apply (eval_ensures faithful condition).bind
    intro test
    -- only the chosen side is evaluated, as in the rule
    split
    · rename_i truthy
      apply (eval_ensures faithful whenTrue).imp
      intro value registry known chosen
      exact .ternary known.2 (by rw [if_pos truthy]; exact chosen)
    · rename_i falsy
      apply (eval_ensures faithful whenFalse).imp
      intro value registry known chosen
      exact .ternary known.2 (by rw [if_neg falsy]; exact chosen)
  | _, .field base name => by
    rw [Evaluator.eval]
    exact .throws _

theorem evalList_ensures (faithful : lookup.Faithful program) :
    ∀ {pre : Registry → Prop} (exprs : List Expr),
      Ensures program pre (evaluator.evalList (program.resolver lookup scope position site) exprs)
        fun values registry => program.ExprValues registry .value scope position evaluator exprs values
  | _, [] => by
    rw [Evaluator.evalList]
    exact .pure fun registry _ => .nil
  | _, first :: rest => by
    rw [Evaluator.evalList]
    apply (eval_ensures faithful first).bind
    intro value
    apply (evalList_ensures faithful rest).bind
    intro values
    exact .pure fun registry known => .cons known.1.2 known.2

end

theorem evalSize_ensures (faithful : lookup.Faithful program) {pre : Registry → Prop} (size : Expr) :
    Ensures program pre (evaluator.evalSize (program.resolver lookup scope position site) size)
      fun count registry => ∃ value,
        program.ExprValue registry .value scope position evaluator size value ∧
          value.toCount? = some count ∧ 0 < count := by
  unfold Evaluator.evalSize
  apply (eval_ensures faithful size).bind
  intro value
  split
  · rename_i count counted
    exact .pure fun registry known => ⟨value, known.2, counted, Nat.succ_pos count⟩
  · exact .throws _

theorem valueType_ensures (faithful : lookup.Faithful program) {pre : Registry → Prop} (type : TypeExpr) :
    Ensures program pre (type.valueType evaluator (program.resolver lookup scope position site))
      fun fixed registry =>
        program.FixedType registry .value scope position evaluator (some type) fixed := by
  -- both vector types take their width in the same way
  have vector {width : Expr} {make : Option Expr → TypeExpr}
      (rule : ∀ {registry value size},
        program.ExprValue registry .value scope position evaluator width value →
        value.toCount? = some size → 0 < size → size ≤ maxWidth →
        program.FixedType registry .value scope position evaluator (some (make (some width)))
          (some (.int size false))) :
      Ensures program pre (do
          let width ← evaluator.evalSize (program.resolver lookup scope position site) width
          some <$> (program.resolver lookup scope position site).lift (ValueType.vector width))
        fun fixed registry =>
          program.FixedType registry .value scope position evaluator (some (make (some width))) fixed := by
    apply (evalSize_ensures faithful width).bind
    intro count
    apply Ensures.map
    apply lift_ensures
    rintro fixed registry found ⟨_, value, evaluated, counted, positive⟩
    unfold ValueType.vector at found
    split at found
    · rename_i within
      cases found
      exact rule evaluated counted positive within
    · cases found
  unfold TypeExpr.valueType
  split
  · exact .pure fun _ _ => .bool
  · exact .pure fun _ _ => .int
  · exact .pure fun _ _ => .oneLogic
  · exact .pure fun _ _ => .oneBit
  · exact vector .logic
  · exact vector .bit
  · exact .pure fun _ _ => .named
  · exact .pure fun _ _ => .reference
  · exact .pure fun _ _ => .array

theorem bindFrom_ensures (faithful : lookup.Faithful program) {pre : Registry → Prop} (package : String)
    (index : Nat) (earlier : Evaluator) {parameters : List GenericParameter} {arguments : List Expr}
    (length : arguments.length = parameters.length) :
    Ensures program pre
      (bindFrom package evaluator (program.resolver lookup scope position site) site index earlier
        parameters arguments)
      fun bound registry => ∃ values,
        program.ExprValues registry .value scope position evaluator arguments values ∧
          acceptFrom earlier parameters values = some bound := by
  induction arguments generalizing parameters index earlier pre with
  | nil =>
    cases parameters with
    | nil => exact .pure fun registry _ => ⟨[], .nil, rfl⟩
    | cons parameter parameters => cases length
  | cons argument arguments ih =>
    cases parameters with
    | nil => cases length
    | cons parameter parameters =>
      rw [bindFrom]
      apply ((eval_ensures faithful argument).adapt _).bind
      intro value
      apply (Ensures.ofExcept fun result registry accepted known =>
        And.intro known.2 (GenericParameter.accept_eq_ok_iff.mp accepted)).bind
      intro result
      -- later parameters may read this one, so it is bound before they are accepted
      apply (ih (index + 1) (earlier.bind parameter.name result) (Nat.succ.inj length)).bind
      intro rest
      apply Ensures.pure
      rintro registry ⟨⟨_, evaluated, accepted⟩, values, others, continued⟩
      refine ⟨value :: values, .cons evaluated others, ?_⟩
      simp [acceptFrom, accepted, continued]

theorem bindArguments_ensures (faithful : lookup.Faithful program) {pre : Registry → Prop}
    (package : Package) (arguments : List Expr) :
    Ensures program pre
      (package.bindArguments arguments evaluator (program.resolver lookup scope position site) site)
      fun bound registry => ∃ values,
        program.ExprValues registry .value scope position evaluator arguments values ∧
          package.accept? evaluator.defaultWidth values = some bound := by
  unfold Package.bindArguments
  split
  · rename_i length
    exact bindFrom_ensures faithful package.name 0 _ length
  · exact .throws _

theorem evaluatorFor_ensures {pre : Registry → Prop} (scope : Scope) :
    Ensures program pre (program.evaluatorFor scope)
      fun evaluator registry => program.evaluator registry scope = .ok evaluator :=
  .reads fun _ _ _ _ made _ grows => evaluator_extends grows made

theorem instantiate_ensures {pre : Registry → Prop} {package : Package} {arguments : Arguments}
    (generic : program.generic? package.name = some package)
    (formed : ∀ registry, pre registry → registry.WellFormed → arguments.WellFormed)
    (accepted : ∀ registry, pre registry → program.Accepts package.name arguments) :
    Ensures program pre (PassM.ofState (·.instantiate program.settings package arguments site))
      fun target registry => ∃ id, target = ⟨package.name, id⟩ ∧
        registry.find? package.name arguments = some id := by
  intro first result last consistent before ran
  have formed := formed first.registry before.now consistent.formed
  have accepted := accepted first.registry before.now
  replace ran : first.instantiate program.settings package arguments site = (result, last) :=
    Option.some.inj ran
  unfold State.instantiate at ran
  split at ran
  · cases ran
    exact .stopped (.refl first) consistent
  · rename_i id same asked
    split at ran
    · cases ran
      exact .stopped (.refl first) consistent
    · cases ran
      refine ⟨.refl first, consistent, fun _ _ clean => clean, fun target found registry grows => ?_⟩
      cases found
      exact ⟨id, rfl, grows.find? (Registry.find?_of_request asked)⟩
  · rename_i id registry asked
    -- a new number: the instance fails for its depth, or it is queued
    obtain ⟨grows, known⟩ := Registry.find?_of_request_ok asked
    simp only at ran
    split at ran
    · cases ran
      apply Ends.stopped
      · exact State.leads_insert grows rfl rfl (by intro same; cases same) rfl
      · refine State.consistent_add consistent formed accepted asked rfl rfl rfl rfl (fun _ member => member)
          consistent.queued ?_
        apply State.Accounted.failed
        simp only [Table.get?_insert, if_pos]
        rfl
    · cases ran
      constructor
      · exact State.leads_insert grows rfl rfl (by intro same; cases same) rfl
      · refine State.consistent_add consistent formed accepted asked rfl rfl rfl rfl
          (List.subset_append_left _ _) ?_ ?_
        · intro pending member
          rcases List.mem_append.mp member with old | new
          · exact consistent.queued pending old
          · rw [List.mem_singleton.mp new]
            exact generic
        · exact .queued (List.mem_append_right _ (List.mem_singleton_self _)) rfl
      · intro value _ clean target fault
        simp only [Table.get?_insert]
        split
        · intro failed
          cases failed
        · exact clean target fault
      · intro target found registry further
        cases found
        exact ⟨id, rfl, further.find? known⟩

inductive Reaches (program : Program) (registry : Registry) (scope : Scope) (position : Nat)
    (reference : Reference) : Target → Prop where
  | instantiated {package : Package} {bound : Arguments} {id : InstanceId} :
      program.generic? reference.package = some package →
      program.Binds registry scope position package reference.arguments bound →
      registry.find? package.name bound = some id →
      Reaches program registry scope position reference (.instantiated package ⟨package.name, id⟩)
  | plain {package : Package} :
      program.plain? reference.package = some package → reference.arguments = [] →
      Reaches program registry scope position reference (.plain package)
  | unknown :
      program.package? reference.package = none → reference.arguments = [] →
      Reaches program registry scope position reference .unknown

theorem target_ensures (faithful : lookup.Faithful program) {pre : Registry → Prop} (reference : Reference) :
    Ensures program pre (program.target lookup reference scope position)
      fun target registry => program.Reaches registry scope position reference target := by
  unfold target
  split
  · rename_i package generic
    have named : package.name = reference.package := name_of_generic? generic
    apply (evaluatorFor_ensures scope).bind
    intro evaluator
    apply (bindArguments_ensures faithful package reference.arguments).bind
    intro bound
    -- the arguments are bound in whatever the registry grows to
    have binds : ∀ registry, (pre registry ∧ program.evaluator registry scope = .ok evaluator) ∧
        (∃ values, program.ExprValues registry .value scope position evaluator reference.arguments values ∧
          package.accept? evaluator.defaultWidth values = some bound) →
        program.Binds registry scope position package reference.arguments bound :=
      fun registry ⟨⟨_, made⟩, values, evaluated, accepted⟩ => ⟨evaluator, values, made, evaluated, accepted⟩
    have generic' : program.generic? package.name = some package := named ▸ generic
    apply (instantiate_ensures generic' (fun registry known formed => (binds registry known).wellFormed formed)
      fun registry known => (binds registry known).accepts generic').bind
    intro target
    apply Ensures.pure
    rintro registry ⟨known, id, rfl, found⟩
    exact .instantiated generic (binds registry known) found
  · rename_i notGeneric
    split
    · rename_i package plain none
      exact .pure fun registry _ => .plain plain none
    · rename_i notPlain none
      exact .pure fun registry _ => .unknown (package?_eq_none notGeneric notPlain) none
    · exact .throws _
    · exact .throws _

theorem valueOf_ensures (faithful : lookup.Faithful program) {pre : Registry → Prop} {name : String}
    {decl : ConstDecl} (found : program.findConst scope name = some (position, decl)) :
    Ensures program pre (program.valueOf lookup scope position decl)
      fun value registry => program.ConstantValue registry .value scope name value := by
  unfold valueOf
  apply (evaluatorFor_ensures scope).bind
  intro evaluator
  apply ((eval_ensures faithful decl.value).adapt _).bind
  intro value
  split
  · rename_i undeclared
    apply Ensures.pure
    rintro registry ⟨⟨_, made⟩, evaluated⟩
    have typed : program.FixedType registry .value scope position evaluator decl.type none := by
      rw [undeclared]
      exact .undeclared
    exact .intro found made evaluated typed rfl
  · rename_i type declared
    apply ((valueType_ensures faithful type).adapt _).bind
    intro fixed
    cases fixed with
    | none =>
      apply Ensures.pure
      rintro registry ⟨⟨⟨_, made⟩, evaluated⟩, typed⟩
      exact .intro found made evaluated (declared ▸ typed) rfl
    | some expected =>
      apply Ensures.ofResult
      rintro result registry coerced ⟨⟨⟨_, made⟩, evaluated⟩, typed⟩
      have typed : program.FixedType registry .value scope position evaluator decl.type (some expected) := by
        rw [declared]
        exact typed
      exact .intro found made evaluated typed (Value.coerce_eq_ok_iff.mp coerced)

/-- A constant is answered from memory, refused, or evaluated and then remembered. -/
theorem constant_ensures (faithful : lookup.Faithful program) {pre : Registry → Prop} (name : String) :
    Ensures program pre (program.constant lookup scope name site)
      fun value registry => program.ConstantValue registry .value scope name value := by
  intro first result last consistent before ran
  unfold constant at ran
  rw [PassM.run_get_bind] at ran
  simp only at ran
  split at ran
  · rename_i value remembered
    cases ran
    refine ⟨.refl first, consistent, fun _ _ clean => clean, fun found same => ?_⟩
    cases same
    exact consistent.remembered _ value remembered
  · cases ran
    exact .stopped (.refl first) consistent
  · cases ran
    exact .stopped (.refl first) consistent
  · split at ran
    · cases ran
      exact .stopped (.refl first) consistent
    · rename_i position decl found
      rw [PassM.run_set_bind] at ran
      obtain ⟨outcome, middle, evaluated, answer, left⟩ := PassM.run_bracket ran
      subst answer left
      -- the mark that the constant is being evaluated is replaced by its value
      have ends := valueOf_ensures faithful found (first.enter ⟨scope, name⟩) result middle
        (State.consistent_enter consistent _) before evaluated
      exact ⟨⟨ends.leads.registry, ends.leads.specialized, ends.leads.inProgress, ends.leads.faults⟩,
        State.consistent_leave ends.consistent ends.holds, ends.clean, ends.holds⟩

theorem referenced_ensures (faithful : lookup.Faithful program) {pre : Registry → Prop}
    (reference : Reference) :
    Ensures program pre (program.referenced lookup reference scope position)
      fun value registry => program.ReferenceValue registry .value scope position reference value := by
  unfold referenced
  apply (target_ensures faithful reference).bind
  intro target
  split
  · exact .throws _
  · rename_i found member reached members
    split
    · apply (faithful _ (.constant found member reference.span)).imp
      rintro value registry ⟨_, reaches⟩ answered
      cases reaches with
      | instantiated generic binds known =>
        cases reached
        obtain ⟨evaluator, values, made, evaluated, accepted⟩ := binds
        exact .instantiated generic made evaluated accepted known members answered
      | plain plain none =>
        cases reached
        exact .plain plain none members answered
      | unknown => cases reached
    · split
      · exact .throws _
      · exact .throws _
  · exact .throws _

end Program

/-- Whatever the budget, answers are what the rules say. -/
theorem Lookup.faithful_ofBudget (program : Program) (budget : Nat) :
    (Lookup.ofBudget program budget).Faithful program := by
  induction budget with
  | zero =>
    intro pre request
    exact .exhausted
  | succ budget ih =>
    intro pre request
    cases request with
    | constant scope name site => exact Program.constant_ensures ih name
    | reference reference scope position => exact Program.referenced_ensures ih reference

end Monomorph
