import Monomorph.Proofs.Cycle.Checked
import Monomorph.Proofs.Cycle.Stack
import Monomorph.Proofs.Pass.Agreement
import Monomorph.Proofs.Pass.Evaluation

/-! Evaluation keeps track of the constants under evaluation.

An operation is compared with its checked version. As long as the constant on top of
the stack asks for what the operation asks for, the two do the same, the stack is as
before when they end, and a chain that they report names a cycle. The lemmas follow
the evaluation of constants; the asking is that of the rules of `Asks`.
-/

set_option autoImplicit false

namespace Monomorph

variable {ε δ α β : Type}

/-- How an operation ends that keeps track of constants. -/
structure Kept (program : Program) (chain? : ε → Option (List String)) (first : State) (result : Except ε α)
    (last : State) : Prop where
  tracked : last.Tracked program
  stack : last.stack = first.stack
  explains : ∀ error chain, result = .error error → chain? error = some chain → last.Explains program chain

def Tracks (program : Program) (chain? : ε → Option (List String)) (pre : Registry → Prop)
    (asks : Registry → ConstantKey → Prop) (operation checked : ExceptT ε Machine α) : Prop :=
  ∀ first, first.Consistent program → first.Tracked program → first.Holds pre → first.Permits program asks →
    checked.run first = operation.run first ∧
      ∀ result last, operation.run first = some (result, last) → Kept program chain? first result last

theorem ExceptT.run_adapt_eq (operation : ExceptT ε Machine α) (wrap : ε → δ) (first : State) :
    (operation.adapt wrap).run first =
      (operation.run first).bind fun found => some (found.1.mapError wrap, found.2) := rfl

namespace Tracks

variable {program : Program} {chain? : ε → Option (List String)} {pre : Registry → Prop}
  {post : α → Registry → Prop} {asks : Registry → ConstantKey → Prop} {operation checked : ExceptT ε Machine α}

theorem unchanged {result : Except ε α} (plain : ∀ error, result = .error error → chain? error = none) :
    Tracks program chain? pre asks (ExceptT.mk (Pure.pure result)) (ExceptT.mk (Pure.pure result)) := by
  refine fun first _ tracked _ _ => ⟨rfl, fun found last ran => ?_⟩
  cases ran
  refine ⟨tracked, rfl, fun error chain same reports => ?_⟩
  rw [plain error same] at reports
  cases reports

theorem pure (value : α) : Tracks program chain? pre asks (Pure.pure value) (Pure.pure value) :=
  unchanged nofun

theorem throws {error : ε} (plain : chain? error = none) :
    Tracks program chain? pre asks (throw error : ExceptT ε Machine α) (throw error) := by
  refine unchanged fun other same => ?_
  cases same
  exact plain

theorem ofExcept {result : Except ε α} (plain : ∀ error, result = .error error → chain? error = none) :
    Tracks program chain? pre asks (MonadExcept.ofExcept result : ExceptT ε Machine α)
      (MonadExcept.ofExcept result) := by
  cases result with
  | ok value => exact pure value
  | error error => exact throws (plain error rfl)

theorem exhausted : Tracks program chain? pre asks (ExceptT.lift Machine.exhausted : ExceptT ε Machine α)
    (ExceptT.lift Machine.exhausted) :=
  fun _ _ _ _ _ => ⟨rfl, nofun⟩

theorem reads {read : State → Except Fault α}
    (plain : ∀ state fault, read state = .error fault → fault.chain? = none) :
    Tracks program Fault.chain? pre asks (PassM.ofState fun state => (read state, state))
      (PassM.ofState fun state => (read state, state)) := by
  refine fun first _ tracked _ _ => ⟨rfl, fun found last ran => ?_⟩
  cases ran
  refine ⟨tracked, rfl, fun fault chain same reports => ?_⟩
  rw [plain first fault same] at reports
  cases reports

theorem imp {wider : Registry → ConstantKey → Prop} (tracks : Tracks program chain? pre asks operation checked)
    (within : ∀ registry key, pre registry → asks registry key → wider registry key) :
    Tracks program chain? pre wider operation checked :=
  fun first consistent tracked holds permits => tracks first consistent tracked holds
    (permits.imp fun registry grows key => within registry key (holds registry grows))

theorem bind {next next' : α → ExceptT ε Machine β} (ensures : Ensures program pre operation post)
    (tracks : Tracks program chain? pre asks operation checked)
    (continues : ∀ value, Tracks program chain? (fun registry => pre registry ∧ post value registry) asks
      (next value) (next' value)) :
    Tracks program chain? pre asks (operation >>= next) (checked >>= next') := by
  intro first consistent tracked holds permits
  obtain ⟨same, kept⟩ := tracks first consistent tracked holds permits
  rw [ExceptT.run_bind_eq, ExceptT.run_bind_eq, same]
  cases ran : operation.run first with
  | none => exact ⟨rfl, nofun⟩
  | some found =>
    obtain ⟨result, middle⟩ := found
    have there := kept result middle ran
    cases result with
    | error error =>
      refine ⟨rfl, fun result last ended => ?_⟩
      cases ended
      exact ⟨there.tracked, there.stack, fun error chain found => there.explains error chain (by cases found; rfl)⟩
    | ok value =>
      have ends := ensures first _ middle consistent holds ran
      have known : middle.Holds fun registry => pre registry ∧ post value registry := fun registry grows =>
        ⟨holds.later ends.leads.registry registry grows, ends.holds value rfl registry grows⟩
      obtain ⟨same, rest⟩ := continues value middle ends.consistent there.tracked known
        (permits.later ends.leads.registry there.stack)
      refine ⟨same, fun result last ended => ?_⟩
      have final := rest result last ended
      exact ⟨final.tracked, final.stack.trans there.stack, final.explains⟩

theorem map {next : α → β} (ensures : Ensures program pre operation post)
    (tracks : Tracks program chain? pre asks operation checked) :
    Tracks program chain? pre asks (next <$> operation) (next <$> checked) := by
  rw [map_eq_pure_bind, map_eq_pure_bind]
  exact bind ensures tracks fun _ => pure _

theorem adapt {other? : δ → Option (List String)} {wrap : ε → δ}
    (tracks : Tracks program chain? pre asks operation checked)
    (same : ∀ error, other? (wrap error) = chain? error) :
    Tracks program other? pre asks (operation.adapt wrap) (checked.adapt wrap) := by
  intro first consistent tracked holds permits
  obtain ⟨agree, kept⟩ := tracks first consistent tracked holds permits
  rw [ExceptT.run_adapt_eq, ExceptT.run_adapt_eq, agree]
  refine ⟨rfl, fun result last ended => ?_⟩
  obtain ⟨⟨found, reached⟩, ran, wrapped⟩ := Option.bind_eq_some_iff.mp ended
  cases wrapped
  have there := kept found reached ran
  refine ⟨there.tracked, there.stack, fun error chain failed reports => ?_⟩
  cases found with
  | ok value => cases failed
  | error inner =>
    cases failed
    exact there.explains inner chain rfl (same inner ▸ reports)

end Tracks

def Program.RequestAsks (program : Program) (registry : Registry) : Request → ConstantKey → Prop
  | .constant scope name _, key => key = ⟨scope, name⟩
  | .reference reference scope position, key => program.ReferenceAsks registry scope position reference key

def Lookup.Tracks (program : Program) (lookup checked : Lookup) : Prop :=
  ∀ pre request, Monomorph.Tracks program Fault.chain? pre
    (fun registry => program.RequestAsks registry request) (lookup request) (checked request)

namespace Program

variable {program : Program} {lookup checked : Lookup} {scope : Scope} {position : Nat} {site : Span}
  {evaluator : Evaluator}

theorem lift_tracks {pre : Registry → Prop} {asks : Registry → ConstantKey → Prop} {α : Type}
    (result : Except EvalError α) :
    Tracks program Stop.chain? pre asks ((program.resolver lookup scope position site).lift result)
      ((program.resolver checked scope position site).lift result) := by
  cases result with
  | ok value => exact .pure value
  | error error => exact .throws rfl

theorem ident_tracks (tracks : lookup.Tracks program checked) {pre : Registry → Prop} (name : String)
    (free : evaluator.bindings.get? name = none) :
    Tracks program Stop.chain? pre
      (fun registry => program.ExprAsks registry scope position evaluator (.ident name))
      ((program.resolver lookup scope position site).ident name)
      ((program.resolver checked scope position site).ident name) := by
  simp only [resolver]
  split
  · rename_i index decl found
    split
    · rename_i visible
      apply Tracks.adapt _ fun _ => rfl
      apply (tracks pre (.constant scope name site)).imp
      rintro registry key _ rfl
      exact .constant free found visible
    · exact .throws rfl
  · split
    · exact .throws rfl
    · exact .throws rfl

mutual

theorem eval_tracks (faithful : lookup.Faithful program) (tracks : lookup.Tracks program checked) :
    ∀ {pre : Registry → Prop} (expr : Expr),
      Tracks program Stop.chain? pre (fun registry => program.ExprAsks registry scope position evaluator expr)
        (evaluator.eval (program.resolver lookup scope position site) expr)
        (evaluator.eval (program.resolver checked scope position site) expr)
  | _, .literal literal => by
    rw [Evaluator.eval, Evaluator.eval]
    exact lift_tracks _
  | _, .ident name => by
    rw [Evaluator.eval, Evaluator.eval]
    cases free : evaluator.bindings.get? name with
    | some value => exact .pure value
    | none => exact ident_tracks tracks name free
  | pre, .reference package arguments members span => by
    rw [Evaluator.eval, Evaluator.eval]
    apply Tracks.adapt _ fun _ => rfl
    apply (tracks pre (.reference ⟨package, arguments, members, span⟩ scope position)).imp
    exact fun registry key _ asked => .reference asked
  | _, .binary op left right => by
    rw [Evaluator.eval, Evaluator.eval]
    apply Tracks.bind (eval_ensures faithful left)
    · exact (eval_tracks faithful tracks left).imp fun _ _ _ asked => .left asked
    intro value
    -- the right operand is evaluated only if the left one has a value
    apply Tracks.bind (eval_ensures faithful right)
    · exact (eval_tracks faithful tracks right).imp fun _ _ known asked => .right known.2 asked
    intro other
    exact lift_tracks _
  | _, .unary op operand => by
    rw [Evaluator.eval, Evaluator.eval]
    apply Tracks.bind (eval_ensures faithful operand)
    · exact (eval_tracks faithful tracks operand).imp fun _ _ _ asked => .operand asked
    intro value
    exact lift_tracks _
  | _, .call function arguments => by
    rw [Evaluator.eval, Evaluator.eval]
    cases found : Builtin.find? function with
    | none => exact .throws rfl
    | some builtin =>
      apply Tracks.bind (evalList_ensures faithful arguments)
      · exact (evalList_tracks faithful tracks arguments).imp fun _ _ _ asked => .call found asked
      intro values
      exact lift_tracks _
  | _, .ternary condition whenTrue whenFalse => by
    rw [Evaluator.eval, Evaluator.eval]
    apply Tracks.bind (eval_ensures faithful condition)
    · exact (eval_tracks faithful tracks condition).imp fun _ _ _ asked => .condition asked
    intro test
    cases truthy : test.isTruthy with
    | true =>
      apply (eval_tracks faithful tracks whenTrue).imp
      intro registry key known asked
      exact .chosen known.2 (by rw [if_pos truthy]; exact asked)
    | false =>
      apply (eval_tracks faithful tracks whenFalse).imp
      intro registry key known asked
      exact .chosen known.2 (by rw [if_neg (by rw [truthy]; exact Bool.false_ne_true)]; exact asked)
  | _, .field base name => by
    rw [Evaluator.eval, Evaluator.eval]
    exact .throws rfl

theorem evalList_tracks (faithful : lookup.Faithful program) (tracks : lookup.Tracks program checked) :
    ∀ {pre : Registry → Prop} (exprs : List Expr),
      Tracks program Stop.chain? pre (fun registry => program.ExprsAsk registry scope position evaluator exprs)
        (evaluator.evalList (program.resolver lookup scope position site) exprs)
        (evaluator.evalList (program.resolver checked scope position site) exprs)
  | _, [] => by
    rw [Evaluator.evalList, Evaluator.evalList]
    exact .pure _
  | _, head :: rest => by
    rw [Evaluator.evalList, Evaluator.evalList]
    apply Tracks.bind (eval_ensures faithful head)
    · exact (eval_tracks faithful tracks head).imp fun _ _ _ asked => .here asked
    intro value
    apply Tracks.bind (evalList_ensures faithful rest)
    · exact (evalList_tracks faithful tracks rest).imp fun _ _ known asked => .later known.2 asked
    intro values
    exact .pure _

end

theorem evalSize_tracks (faithful : lookup.Faithful program) (tracks : lookup.Tracks program checked)
    {pre : Registry → Prop} (size : Expr) :
    Tracks program Stop.chain? pre (fun registry => program.ExprAsks registry scope position evaluator size)
      (evaluator.evalSize (program.resolver lookup scope position site) size)
      (evaluator.evalSize (program.resolver checked scope position site) size) := by
  unfold Evaluator.evalSize
  apply Tracks.bind (eval_ensures faithful size) (eval_tracks faithful tracks size)
  intro value
  split
  · exact .pure _
  · exact .throws rfl

theorem valueType_tracks (faithful : lookup.Faithful program) (tracks : lookup.Tracks program checked)
    {pre : Registry → Prop} (type : TypeExpr) :
    Tracks program Stop.chain? pre
      (fun registry key => ∃ width, type.width? = some width ∧
        program.ExprAsks registry scope position evaluator width key)
      (type.valueType evaluator (program.resolver lookup scope position site))
      (type.valueType evaluator (program.resolver checked scope position site)) := by
  have vector (width : Expr) (found : type.width? = some width) :
      Tracks program Stop.chain? pre
        (fun registry key => ∃ width, type.width? = some width ∧
          program.ExprAsks registry scope position evaluator width key)
        (do
          let width ← evaluator.evalSize (program.resolver lookup scope position site) width
          some <$> (program.resolver lookup scope position site).lift (ValueType.vector width))
        (do
          let width ← evaluator.evalSize (program.resolver checked scope position site) width
          some <$> (program.resolver checked scope position site).lift (ValueType.vector width)) := by
    apply Tracks.bind (evalSize_ensures faithful width)
    · exact (evalSize_tracks faithful tracks width).imp fun _ _ _ asked => ⟨width, found, asked⟩
    intro size
    exact .map (lift_ensures fun _ _ _ _ => trivial) (lift_tracks _)
  cases type with
  | logic width =>
    cases width with
    | none => exact .pure _
    | some width => exact vector width rfl
  | bit width =>
    cases width with
    | none => exact .pure _
    | some width => exact vector width rfl
  | int kind => exact .pure _
  | bool => exact .pure _
  | named name => exact .pure _
  | reference target => exact .pure _
  | array element length => exact .pure _

theorem bindFrom_tracks (faithful : lookup.Faithful program) (tracks : lookup.Tracks program checked)
    {pre : Registry → Prop} (package : String) (index : Nat) (earlier : Evaluator)
    {parameters : List GenericParameter} {arguments : List Expr} (length : arguments.length = parameters.length) :
    Tracks program Fault.chain? pre
      (fun registry => program.BindingAsks registry scope position evaluator earlier parameters arguments)
      (bindFrom package evaluator (program.resolver lookup scope position site) site index earlier parameters
        arguments)
      (bindFrom package evaluator (program.resolver checked scope position site) site index earlier parameters
        arguments) := by
  induction arguments generalizing parameters index earlier pre with
  | nil => cases parameters <;> exact .pure _
  | cons argument arguments ih =>
    cases parameters with
    | nil => cases length
    | cons parameter parameters =>
      rw [bindFrom, bindFrom]
      apply Tracks.bind ((eval_ensures faithful argument).adapt _)
      · apply Tracks.adapt _ fun stop => (Stop.reports_toFault _ _ stop).1
        exact (eval_tracks faithful tracks argument).imp fun _ _ _ asked => .here asked
      intro value
      apply Tracks.bind
      · exact Ensures.ofExcept fun result registry accepted known =>
          And.intro known.2 (GenericParameter.accept_eq_ok_iff.mp accepted)
      · exact .ofExcept fun _ refused => (GenericParameter.plain_of_accept refused).chain
      intro result
      have remaining := Nat.succ.inj length
      apply Tracks.bind (bindFrom_ensures faithful package (index + 1) _ remaining)
      · apply (ih (index + 1) (earlier.bind parameter.name result) remaining).imp
        rintro registry key ⟨_, evaluated, accepted⟩ asked
        exact .later evaluated accepted asked
      intro rest
      exact .pure _

theorem bindArguments_tracks (faithful : lookup.Faithful program) (tracks : lookup.Tracks program checked)
    {pre : Registry → Prop} (package : Package) (arguments : List Expr) :
    Tracks program Fault.chain? pre
      (fun registry key => arguments.length = package.parameters.length ∧
        program.BindingAsks registry scope position evaluator (.ofWidth evaluator.defaultWidth)
          package.parameters arguments key)
      (package.bindArguments arguments evaluator (program.resolver lookup scope position site) site)
      (package.bindArguments arguments evaluator (program.resolver checked scope position site) site) := by
  unfold Package.bindArguments
  split
  · rename_i length
    exact (bindFrom_tracks faithful tracks package.name 0 _ length).imp fun _ _ _ asked => ⟨length, asked⟩
  · exact .throws rfl

theorem evaluatorFor_tracks {pre : Registry → Prop} {asks : Registry → ConstantKey → Prop} (scope : Scope) :
    Tracks program Fault.chain? pre asks (program.evaluatorFor scope) (program.evaluatorFor scope) :=
  .reads fun _ _ refused => (plain_of_evaluator refused).chain

theorem instantiate_tracks {pre : Registry → Prop} {asks : Registry → ConstantKey → Prop} (package : Package)
    (arguments : Arguments) :
    Tracks program Fault.chain? pre asks
      (PassM.ofState (·.instantiate program.settings package arguments site))
      (PassM.ofState (·.instantiate program.settings package arguments site)) := by
  refine fun first _ tracked _ _ => ⟨rfl, fun result last ran => ?_⟩
  obtain ⟨tracked, stack, explains⟩ := tracked.instantiate (Option.some.inj ran)
  exact ⟨tracked, stack, explains⟩

theorem target_tracks (faithful : lookup.Faithful program) (tracks : lookup.Tracks program checked)
    {pre : Registry → Prop} (reference : Reference) :
    Tracks program Fault.chain? pre (fun registry => program.ReferenceAsks registry scope position reference)
      (program.target lookup reference scope position) (program.target checked reference scope position) := by
  unfold target
  split
  · rename_i package generic
    have named : package.name = reference.package := name_of_generic? generic
    apply Tracks.bind (evaluatorFor_ensures scope) (evaluatorFor_tracks scope)
    intro evaluator
    apply Tracks.bind (bindArguments_ensures faithful package reference.arguments)
    · apply (bindArguments_tracks faithful tracks package reference.arguments).imp
      rintro registry key ⟨_, made⟩ ⟨length, asked⟩
      exact .argument generic made length asked
    intro bound
    have generic' : program.generic? package.name = some package := named ▸ generic
    have binds : ∀ registry, (pre registry ∧ program.evaluator registry scope = .ok evaluator) ∧
        (∃ values, program.ExprValues registry .value scope position evaluator reference.arguments values ∧
          package.accept? evaluator.defaultWidth values = some bound) →
        program.Binds registry scope position package reference.arguments bound :=
      fun registry ⟨⟨_, made⟩, values, evaluated, accepted⟩ => ⟨evaluator, values, made, evaluated, accepted⟩
    exact Tracks.bind (instantiate_ensures generic'
      (fun registry known formed => (binds registry known).wellFormed formed)
      fun registry known => (binds registry known).accepts generic') (instantiate_tracks package bound) fun _ => .pure _
  · split
    · exact .pure _
    · exact .pure _
    · exact .throws rfl
    · exact .throws rfl

theorem valueOf_tracks (faithful : lookup.Faithful program) (tracks : lookup.Tracks program checked)
    {pre : Registry → Prop} {name : String} {decl : ConstDecl}
    (found : program.findConst scope name = some (position, decl)) :
    Tracks program Fault.chain? pre (fun registry => program.Asks registry ⟨scope, name⟩)
      (program.valueOf lookup scope position decl) (program.valueOf checked scope position decl) := by
  unfold valueOf
  apply Tracks.bind (evaluatorFor_ensures scope) (evaluatorFor_tracks scope)
  intro evaluator
  apply Tracks.bind ((eval_ensures faithful decl.value).adapt _)
  · apply Tracks.adapt _ fun stop => (Stop.reports_toFault _ _ stop).1
    exact (eval_tracks faithful tracks decl.value).imp fun _ _ known asked => .value found known.2 asked
  intro value
  split
  · exact .pure _
  · rename_i type declared
    apply Tracks.bind ((valueType_ensures faithful type).adapt _)
    · apply Tracks.adapt _ fun stop => (Stop.reports_toFault _ _ stop).1
      apply (valueType_tracks faithful tracks type).imp
      rintro registry key ⟨⟨_, made⟩, evaluated⟩ ⟨width, sized, asked⟩
      exact .type found made evaluated (by rw [declared]; exact sized) asked
    intro fixed
    cases fixed with
    | none => exact .pure _
    | some expected => exact .unchanged fun _ refused => (Value.plain_of_coerce refused).chain

/-- A constant that is asked for while it is evaluated is on the stack, and closes a cycle. One that is
evaluated now goes on top of the stack, and is gone from it when it is done. -/
theorem constant_tracks (faithful : lookup.Faithful program) (tracks : lookup.Tracks program checked)
    {pre : Registry → Prop} (name : String) :
    Tracks program Fault.chain? pre (fun _ key => key = ⟨scope, name⟩)
      (program.constant lookup scope name site) (program.constant checked scope name site) := by
  intro first consistent tracked holds permits
  unfold constant
  rw [PassM.run_get_bind, PassM.run_get_bind]
  simp only
  split
  · exact Tracks.pure _ first consistent tracked holds permits
  · rename_i fault failed
    refine ⟨rfl, fun result last ran => ?_⟩
    cases ran
    refine ⟨tracked, rfl, fun other chain same reports => ?_⟩
    cases same
    exact tracked.explains _ (.constant failed) chain reports
  · rename_i marked
    -- asked for by the constant on top while it is below: the only place where a cycle is reported
    refine ⟨rfl, fun result last ran => ?_⟩
    cases ran
    refine ⟨tracked, rfl, fun other chain same reports => ?_⟩
    cases same
    cases reports
    exact tracked.explains_cycle ((tracked.inProgress _).mp marked) permits
  · rename_i new
    split
    · exact Tracks.throws rfl first consistent tracked holds permits
    · rename_i position decl found
      rw [PassM.run_set_bind, PassM.run_set_bind]
      -- from here on it is this constant that asks
      obtain ⟨same, kept⟩ := valueOf_tracks faithful tracks found (first.enter ⟨scope, name⟩)
        (State.consistent_enter consistent _) (tracked.enter new permits) holds (State.permits_enter first _)
      refine ⟨PassM.run_bracket_congr same, fun result last ran => ?_⟩
      obtain ⟨outcome, middle, evaluated, answer, left⟩ := PassM.run_bracket ran
      subst answer left
      have there := kept result middle evaluated
      refine ⟨there.tracked.leave there.stack there.explains, ?_, fun fault chain failed reports => ?_⟩
      · simp only [State.leave, there.stack, State.enter, List.dropLast_concat]
      · exact (there.explains fault chain failed reports).later (.refl _)

theorem referenced_tracks (faithful : lookup.Faithful program) (tracks : lookup.Tracks program checked)
    {pre : Registry → Prop} (reference : Reference) :
    Tracks program Fault.chain? pre (fun registry => program.ReferenceAsks registry scope position reference)
      (program.referenced lookup reference scope position)
      (program.referenced checked reference scope position) := by
  unfold referenced
  apply Tracks.bind (target_ensures faithful reference) (target_tracks faithful tracks reference)
  intro target
  split
  · exact .throws rfl
  · rename_i inner member reached members
    split
    · rename_i declared
      apply (tracks _ (.constant inner member reference.span)).imp
      rintro registry key ⟨_, reaches⟩ rfl
      exact .member reaches reached members declared
    · split
      · exact .throws rfl
      · exact .throws rfl
  · exact .throws rfl

theorem answer_tracks (faithful : lookup.Faithful program) (tracks : lookup.Tracks program checked)
    {pre : Registry → Prop} (request : Request) :
    Tracks program Fault.chain? pre (fun registry => program.RequestAsks registry request)
      (program.answer lookup request) (program.answer checked request) := by
  cases request with
  | constant scope name site => exact constant_tracks faithful tracks name
  | reference reference scope position => exact referenced_tracks faithful tracks reference

/-- What is known of the state at a moment of the pass: a request comes from the constant on top of the
stack, and nothing is under evaluation where the other parts start and end. -/
def Sound (program : Program) (moment : Moment) (state : State) : Prop :=
  state.Tracked program ∧
    match moment with
    | .starts (.request request) => state.Permits program fun registry => program.RequestAsks registry request
    | .ends (.request _) => True
    | .starts _ | .ends _ => state.stack = []

end Program

theorem Lookup.tracks_checked {program : Program} {check : Check}
    (accepts : check.Accepts program.Sound) (budget : Nat) :
    (Lookup.ofBudget program budget).Tracks program (Lookup.checked program check budget) := by
  induction budget with
  | zero =>
    intro pre request
    exact .exhausted
  | succ budget ih =>
    intro pre request first consistent tracked holds permits
    obtain ⟨same, kept⟩ := Program.answer_tracks (Lookup.faithful_ofBudget program budget) ih request first
      consistent tracked holds permits
    refine ⟨(Check.around_eq ?_ ?_).trans same, kept⟩
    · exact accepts _ _ ⟨tracked, permits⟩
    · intro result last ran
      exact accepts _ _ ⟨(kept result last (same ▸ ran)).tracked, trivial⟩

end Monomorph
