import Monomorph.Proofs.Binding.Typed
import Monomorph.Proofs.Constant.Range

/-! Binding of arguments, one after the other.

Two environments advance together. Arguments are evaluated in the caller's, by a resolver
that changes its state on the way; the type of a parameter is evaluated where only the
parameters before it are known, with the values they have taken. A run is described from
its start: it passes the arguments that have a value and a parameter that takes it, and it
ends at the first argument that fails, or behind the last one.
-/

set_option autoImplicit false

namespace Monomorph

section Runs

variable {σ ε δ α β : Type} {state after : σ} {operation : ExceptT ε (StateT σ Option) α}

theorem ExceptT.run_run_bind_of_none (silent : operation.run.run state = none)
    (next : α → ExceptT ε (StateT σ Option) β) : (operation >>= next).run.run state = none := by
  show (operation.run.run state).bind _ = none
  rw [silent]
  rfl

theorem ExceptT.run_run_bind_of_ok {value : α} (found : operation.run.run state = some (.ok value, after))
    (next : α → ExceptT ε (StateT σ Option) β) :
    (operation >>= next).run.run state = (next value).run.run after := by
  show (operation.run.run state).bind _ = (next value).run.run after
  rw [found]
  rfl

theorem ExceptT.run_run_bind_of_error {error : ε} (stopped : operation.run.run state = some (.error error, after))
    (next : α → ExceptT ε (StateT σ Option) β) :
    (operation >>= next).run.run state = some (.error error, after) := by
  show (operation.run.run state).bind _ = some (Except.error error, after)
  rw [stopped]
  rfl

theorem ExceptT.run_run_adapt (operation : ExceptT ε (StateT σ Option) α) (wrap : ε → δ) (state : σ) :
    (operation.adapt wrap).run.run state
      = (operation.run.run state).map fun ending => (ending.1.mapError wrap, ending.2) := by
  show (operation.run.run state).bind _ = _
  cases operation.run.run state <;> rfl

end Runs

/-- The integer or the truth value that a constant is, whatever its type. -/
def Value.content : Value → Int ⊕ Bool
  | int value => .inl value.toInt
  | bool value => .inr value

/-- A converted value has the expected type and is the same integer or truth value. -/
theorem Value.type_content_of_coerce? {value result : Value} {expected : ValueType} (formed : value.WellFormed)
    (converted : value.coerce? expected = some result) :
    result.type = expected ∧ result.content = value.content := by
  rcases Value.coerce?_cases converted with ⟨rfl, type, _⟩ | ⟨_, _, _, _, rfl, rfl, fits, made, rfl⟩
  · exact ⟨type, rfl⟩
  · have own := IntValue.of_retyped made
    have same := IntValue.toInt_retyped made ((IntValue.fits_iff formed).mp fits).2
    exact ⟨congrArg₂ ValueType.int own.1 own.2.1, congrArg Sum.inl same⟩

namespace GenericParameter

/-- The value that a parameter takes for an argument, given the parameters before it. -/
inductive Takes (parameter : GenericParameter) (earlier : Evaluator) (value : Value) : Value → Prop where
  | untyped : parameter.type = .const → Takes parameter earlier value value
  | unfixed {type : TypeExpr} : parameter.type = .typed type →
      (type.valueType earlier Resolver.closed).run = .ok none → Takes parameter earlier value value
  | typed {type : TypeExpr} {expected : ValueType} {result : Value} : parameter.type = .typed type →
      (type.valueType earlier Resolver.closed).run = .ok (some expected) → value.coerce? expected = some result →
      result.type = expected → result.content = value.content → Takes parameter earlier value result

/-- The fault of a parameter that takes no value for an argument, which is called `what` and stands at `site`. -/
inductive Refuses (parameter : GenericParameter) (earlier : Evaluator) (value : Value) (what : String) (site : Span) :
    Fault → Prop where
  | illTyped {type : TypeExpr} {error : EvalError} : parameter.type = .typed type →
      (type.valueType earlier Resolver.closed).run = .error error →
      Refuses parameter earlier value what site
        ((Stop.evaluation error).toFault ("type of parameter '" ++ parameter.name ++ "'") parameter.span)
  | unfit {type : TypeExpr} {expected : ValueType} : parameter.type = .typed type →
      (type.valueType earlier Resolver.closed).run = .ok (some expected) → value.coerce? expected = none →
      Refuses parameter earlier value what site
        (site.fault (.typeMismatch what expected.text (value.type.text ++ " (value " ++ value.text ++ ")")))

variable {parameter : GenericParameter} {earlier : Evaluator} {value : Value} {what : String} {site : Span}

theorem Takes.accept {result : Value} (takes : parameter.Takes earlier value result) :
    parameter.accept earlier value what site = .ok result := by
  unfold GenericParameter.accept
  cases takes with
  | untyped const => rw [const]
  | unfixed typed none => simp only [typed, none]
  | typed typed fixed converted => simp only [typed, fixed, Value.coerce, converted]

theorem Refuses.accept {fault : Fault} (refuses : parameter.Refuses earlier value what site fault) :
    parameter.accept earlier value what site = .error fault := by
  unfold GenericParameter.accept
  cases refuses with
  | illTyped typed failed => simp only [typed, failed]
  | unfit typed fixed unfit => simp only [typed, fixed, Value.coerce, unfit]

theorem takes_or_refuses (parameter : GenericParameter) (earlier : Evaluator) (formed : value.WellFormed)
    (what : String) (site : Span) :
    (∃ result, parameter.Takes earlier value result) ∨ ∃ fault, parameter.Refuses earlier value what site fault := by
  cases declared : parameter.type with
  | const => exact .inl ⟨value, .untyped declared⟩
  | typed type =>
    cases found : (type.valueType earlier Resolver.closed).run with
    | error error => exact .inr ⟨_, .illTyped declared found⟩
    | ok fixed =>
      cases fixed with
      | none => exact .inl ⟨value, .unfixed declared found⟩
      | some expected =>
        cases converted : value.coerce? expected with
        | none => exact .inr ⟨_, .unfit declared found converted⟩
        | some result =>
          obtain ⟨type, content⟩ := Value.type_content_of_coerce? formed converted
          exact .inl ⟨result, .typed declared found converted type content⟩

end GenericParameter

theorem EvalError.cause_toFault_ne_arityMismatch (error : EvalError) (what : String) (site : Span)
    {package : String} {expected found : Nat} :
    ((Stop.evaluation error).toFault what site).cause ≠ .arityMismatch package expected found := by
  cases error <;> exact nofun

/-- A generic package with arguments at a site, and the evaluator and the resolver of the caller. The resolver has a
state, and may also not come back. -/
structure Application (σ : Type) where
  package : Package
  given : List Expr
  caller : Evaluator
  resolver : Resolver Stop (StateT σ Option)
  site : Span

namespace Application

variable {σ : Type} (applied : Application σ)

/-- The evaluator for the type of the next parameter: it knows the parameters that are bound, and no other name. -/
def earlier (bound : Arguments) : Evaluator :=
  (Evaluator.ofWidth applied.caller.defaultWidth).bindAll ((applied.package.parameters.map (·.name)).zip bound)

def label (bound : Arguments) (parameter : GenericParameter) : String :=
  argumentLabel applied.package.name bound.length parameter

def Next (bound : Arguments) (parameter : GenericParameter) (argument : Expr) : Prop :=
  applied.package.parameters[bound.length]? = some parameter ∧ applied.given[bound.length]? = some argument

/-- The run from a start has come to a state and has bound values to the first parameters. -/
inductive Passes (start : σ) : σ → Arguments → Prop where
  | start : Passes start start []
  | next {state after : σ} {bound : Arguments} {parameter : GenericParameter} {argument : Expr}
      {value result : Value} : Passes start state bound → applied.Next bound parameter argument →
      (applied.caller.eval applied.resolver argument).run.run state = some (.ok value, after) →
      parameter.Takes (applied.earlier bound) value result → Passes start after (bound ++ [result])

/-- How the run from a start ends: with a value for every parameter, or at the first argument that cannot be
evaluated, that its parameter refuses, or that is waited for in vain. -/
inductive Concludes (start : σ) : Option (Except Fault Arguments × σ) → Prop where
  | complete {last : σ} {bound : Arguments} : applied.Passes start last bound →
      bound.length = applied.package.parameters.length → Concludes start (some (.ok bound, last))
  | stopped {state last : σ} {bound : Arguments} {parameter : GenericParameter} {argument : Expr} {stop : Stop} :
      applied.Passes start state bound → applied.Next bound parameter argument →
      (applied.caller.eval applied.resolver argument).run.run state = some (.error stop, last) →
      Concludes start (some (.error (stop.toFault (applied.label bound parameter) applied.site), last))
  | refused {state last : σ} {bound : Arguments} {parameter : GenericParameter} {argument : Expr} {value : Value}
      {fault : Fault} : applied.Passes start state bound → applied.Next bound parameter argument →
      (applied.caller.eval applied.resolver argument).run.run state = some (.ok value, last) →
      parameter.Refuses (applied.earlier bound) value (applied.label bound parameter) applied.site fault →
      Concludes start (some (.error fault, last))
  | unanswered {state : σ} {bound : Arguments} {parameter : GenericParameter} {argument : Expr} :
      applied.Passes start state bound → applied.Next bound parameter argument →
      (applied.caller.eval applied.resolver argument).run.run state = none → Concludes start none

def rest (bound : Arguments) (state : σ) : Option (Except Fault Arguments × σ) :=
  (bindFrom applied.package.name applied.caller applied.resolver applied.site bound.length (applied.earlier bound)
    (applied.package.parameters.drop bound.length) (applied.given.drop bound.length)).run.run state

def resume (bound : Arguments) (ending : Option (Except Fault Arguments × σ)) : Option (Except Fault Arguments × σ) :=
  ending.map fun outcome => (outcome.1.map (bound ++ ·), outcome.2)

theorem resume_nil (ending : Option (Except Fault Arguments × σ)) : resume [] ending = ending := by
  rcases ending with _ | ⟨_ | _, _⟩ <;> rfl

theorem resume_append (bound later : Arguments) (ending : Option (Except Fault Arguments × σ)) :
    resume (bound ++ later) ending = resume bound (resume later ending) := by
  rcases ending with _ | ⟨_ | values, _⟩
  · rfl
  · rfl
  · simp only [resume, Option.map_some, Except.map, List.append_assoc]

theorem run_run_bind_pure_cons (value : Value) (operation : ExceptT Fault (StateT σ Option) Arguments) (state : σ) :
    (operation >>= fun values => pure (value :: values)).run.run state = resume [value] (operation.run.run state) := by
  show (operation.run.run state).bind _ = _
  rcases operation.run.run state with _ | ⟨_ | _, _⟩ <;> rfl

variable {applied} {start state after : σ} {bound : Arguments} {parameter : GenericParameter} {argument : Expr}

theorem zip_append_singleton {names : List String} {name : String} {values : List Value}
    (found : names[values.length]? = some name) (value : Value) :
    names.zip (values ++ [value]) = names.zip values ++ [(name, value)] := by
  induction values generalizing names with
  | nil =>
    cases names with
    | nil => cases found
    | cons first others =>
      cases found
      simp
  | cons first values ih =>
    cases names with
    | nil => cases found
    | cons other others =>
      rw [List.cons_append, List.zip_cons_cons, List.zip_cons_cons, List.cons_append, ih found]

theorem earlier_append_singleton (next : applied.Next bound parameter argument) (result : Value) :
    applied.earlier (bound ++ [result]) = (applied.earlier bound).bind parameter.name result := by
  have named : (applied.package.parameters.map (·.name))[bound.length]? = some parameter.name := by
    rw [List.getElem?_map, next.1, Option.map_some]
  unfold earlier Evaluator.bindAll Evaluator.bind Bindings.insertAll
  rw [zip_append_singleton named, List.foldl_append]
  rfl

theorem Next.parameters (next : applied.Next bound parameter argument) : applied.package.parameters.drop bound.length
    = parameter :: applied.package.parameters.drop (bound.length + 1) := by
  obtain ⟨inside, found⟩ := List.getElem?_eq_some_iff.mp next.1
  rw [List.drop_eq_getElem_cons inside, found]

theorem Next.given (next : applied.Next bound parameter argument) :
    applied.given.drop bound.length = argument :: applied.given.drop (bound.length + 1) := by
  obtain ⟨inside, found⟩ := List.getElem?_eq_some_iff.mp next.2
  rw [List.drop_eq_getElem_cons inside, found]

theorem rest_of_complete (complete : bound.length = applied.package.parameters.length) (state : σ) :
    applied.rest bound state = some (.ok [], state) := by
  unfold rest
  rw [List.drop_of_length_le complete.ge]
  rfl

theorem rest_of_none (next : applied.Next bound parameter argument)
    (silent : (applied.caller.eval applied.resolver argument).run.run state = none) :
    applied.rest bound state = none := by
  unfold rest
  rw [next.parameters, next.given, bindFrom]
  apply ExceptT.run_run_bind_of_none
  rw [ExceptT.run_run_adapt, silent]
  rfl

theorem rest_of_error {stop : Stop} (next : applied.Next bound parameter argument)
    (failed : (applied.caller.eval applied.resolver argument).run.run state = some (.error stop, after)) :
    applied.rest bound state = some (.error (stop.toFault (applied.label bound parameter) applied.site), after) := by
  unfold rest
  rw [next.parameters, next.given, bindFrom]
  apply ExceptT.run_run_bind_of_error
  rw [ExceptT.run_run_adapt, failed]
  rfl

theorem rest_of_refuses {value : Value} {fault : Fault} (next : applied.Next bound parameter argument)
    (found : (applied.caller.eval applied.resolver argument).run.run state = some (.ok value, after))
    (refuses : parameter.Refuses (applied.earlier bound) value (applied.label bound parameter) applied.site fault) :
    applied.rest bound state = some (.error fault, after) := by
  unfold rest
  rw [next.parameters, next.given, bindFrom]
  rw [ExceptT.run_run_bind_of_ok (by rw [ExceptT.run_run_adapt, found]; rfl)]
  apply ExceptT.run_run_bind_of_error
  rw [show parameter.accept (applied.earlier bound) value
    (argumentLabel applied.package.name bound.length parameter) applied.site = .error fault from refuses.accept]
  rfl

/-- A step: the argument is evaluated and taken, and what is left begins in the next state. -/
theorem rest_of_takes {value result : Value} (next : applied.Next bound parameter argument)
    (found : (applied.caller.eval applied.resolver argument).run.run state = some (.ok value, after))
    (takes : parameter.Takes (applied.earlier bound) value result) :
    applied.rest bound state = resume [result] (applied.rest (bound ++ [result]) after) := by
  unfold rest
  rw [next.parameters, next.given, bindFrom]
  rw [ExceptT.run_run_bind_of_ok (by rw [ExceptT.run_run_adapt, found]; rfl), takes.accept]
  rw [ExceptT.run_run_bind_of_ok rfl, ← earlier_append_singleton next, List.length_append, List.length_singleton]
  exact run_run_bind_pure_cons result _ after

theorem Passes.rest_eq (passes : applied.Passes start state bound) :
    applied.rest [] start = resume bound (applied.rest bound state) := by
  induction passes with
  | start => exact (resume_nil _).symm
  | next _ next found takes ih => rw [ih, rest_of_takes next found takes, resume_append]

theorem Concludes.rest_eq {ending : Option (Except Fault Arguments × σ)} (concludes : applied.Concludes start ending) :
    applied.rest [] start = ending := by
  cases concludes with
  | complete passes complete =>
    rw [passes.rest_eq, rest_of_complete complete]
    simp only [resume, Option.map_some, Except.map, List.append_nil]
  | stopped passes next failed =>
    rw [passes.rest_eq, rest_of_error next failed]
    rfl
  | refused passes next found refuses =>
    rw [passes.rest_eq, rest_of_refuses next found refuses]
    rfl
  | unanswered passes next silent =>
    rw [passes.rest_eq, rest_of_none next silent]
    rfl

section WellFormed

variable (formed : applied.caller.WellFormed) (answered : applied.resolver.Sound)
include formed answered

theorem wellFormed_of_eval {value : Value}
    (found : (applied.caller.eval applied.resolver argument).run.run state = some (.ok value, after)) :
    value.WellFormed := by
  have satisfies := (Guarded.eval_refines formed answered argument).satisfies
  rw [SatisfiesM_ExceptT_eq, SatisfiesM_StateT_eq] at satisfies
  exact SatisfiesM_Option_eq.mp (satisfies state) _ found value rfl

/-- Whatever a run has passed, it comes to an end: each step leaves less to bind. -/
theorem Passes.exists_concludes (counts : applied.given.length = applied.package.parameters.length) (left : Nat)
    {state : σ} {bound : Arguments} (passes : applied.Passes start state bound)
    (remain : bound.length + left = applied.package.parameters.length) :
    ∃ ending, applied.Concludes start ending := by
  induction left generalizing state bound with
  | zero => exact ⟨_, .complete passes remain⟩
  | succ left ih =>
    have inside : bound.length < applied.package.parameters.length := by omega
    have next : applied.Next bound applied.package.parameters[bound.length] applied.given[bound.length] :=
      ⟨List.getElem?_eq_getElem inside, List.getElem?_eq_getElem (counts ▸ inside)⟩
    rcases found : (applied.caller.eval applied.resolver applied.given[bound.length]).run.run state
      with _ | ⟨stop | value, last⟩
    · exact ⟨_, .unanswered passes next found⟩
    · exact ⟨_, .stopped passes next found⟩
    · have valueFormed := wellFormed_of_eval formed answered found
      have decided := applied.package.parameters[bound.length].takes_or_refuses (applied.earlier bound) valueFormed
        (applied.label bound applied.package.parameters[bound.length]) applied.site
      rcases decided with ⟨result, takes⟩ | ⟨fault, refuses⟩
      · apply ih (passes.next next found takes)
        rw [List.length_append, List.length_singleton]
        omega
      · exact ⟨_, .refused passes next found refuses⟩

theorem rest_eq_iff (counts : applied.given.length = applied.package.parameters.length) (start : σ)
    (ending : Option (Except Fault Arguments × σ)) :
    applied.rest [] start = ending ↔ applied.Concludes start ending := by
  constructor
  · intro ran
    -- some ending is described, and a described ending is that of the run
    obtain ⟨other, concludes⟩ := Passes.start.exists_concludes formed answered counts _ (Nat.zero_add _)
    rw [← ran, concludes.rest_eq]
    exact concludes
  · exact Concludes.rest_eq

end WellFormed

theorem bindArguments_of_counts (counts : applied.given.length = applied.package.parameters.length) (start : σ) :
    (applied.package.bindArguments applied.given applied.caller applied.resolver applied.site).run.run start
      = applied.rest [] start := by
  have nothing : applied.earlier [] = .ofWidth applied.caller.defaultWidth := by
    rw [earlier, List.zip_nil_right]
    rfl
  rw [Package.bindArguments, if_pos counts, ← nothing]
  rfl

theorem Concludes.stops_of_arity {fault : Fault} {last : σ} {package : String} {expected found : Nat}
    (arity : fault.cause = .arityMismatch package expected found)
    (concludes : applied.Concludes start (some (.error fault, last))) :
    ∃ state argument,
      (applied.caller.eval applied.resolver argument).run.run state = some (.error (.fault fault), last) := by
  cases concludes with
  | @stopped _ _ _ _ _ stop _ _ failed =>
    cases stop with
    | fault complete => exact ⟨_, _, failed⟩
    | evaluation error => exact absurd arity (error.cause_toFault_ne_arityMismatch _ _)
  | refused _ _ _ refuses =>
    cases refuses with
    | illTyped => exact absurd arity (EvalError.cause_toFault_ne_arityMismatch _ _ _)
    | unfit => cases arity

def nameless : Resolver EvalError (StateT Unit Option) where
  raise := id
  ident name := throw (.undefinedSymbol name)
  reference target := throw (.undefinedSymbol target.text)

theorem sound_nameless : (nameless.adapt Stop.evaluation).Sound :=
  ⟨fun _ => ExceptT.satisfiesM_throw _, fun _ => ExceptT.satisfiesM_throw _⟩

theorem eval_nameless_ne_fault (evaluator : Evaluator) (expr : Expr) {state last : Unit} {fault : Fault} :
    (evaluator.eval (nameless.adapt Stop.evaluation) expr).run.run state ≠ some (.error (.fault fault), last) := by
  rw [Evaluator.eval_adapt, ExceptT.run_run_adapt]
  intro failed
  obtain ⟨⟨outcome, _⟩, _, same⟩ := Option.map_eq_some_iff.mp failed
  cases outcome <;> cases same

end Application

/-- The counts of arguments and parameters differ just if that is the fault, whoever asks and whatever is known: then
nothing is evaluated. Where they agree, the run from any state of the resolver ends in the one way that is described
from left to right. -/
theorem Application.bindArguments_iff_concludes {σ : Type} {applied : Application σ} (formed : applied.caller.WellFormed)
    (answered : applied.resolver.Sound) :
    ((∀ {m : Type → Type} [Monad m] [LawfulMonad m] (caller : Evaluator) (resolver : Resolver Stop m),
        applied.package.bindArguments applied.given caller resolver applied.site
          = throw (applied.site.fault
              (.arityMismatch applied.package.name applied.package.parameters.length applied.given.length)))
      ↔ applied.given.length ≠ applied.package.parameters.length) ∧
    (applied.given.length = applied.package.parameters.length → ∀ (start : σ)
        (ending : Option (Except Fault Arguments × σ)),
      (applied.package.bindArguments applied.given applied.caller applied.resolver applied.site).run.run start = ending
        ↔ applied.Concludes start ending) := by
  refine ⟨⟨?_, ?_⟩, ?_⟩
  · intro throws counts
    -- a caller without names has no way to come to the fault
    let closed : Application Unit :=
      ⟨applied.package, applied.given, .ofWidth 1, nameless.adapt Stop.evaluation, applied.site⟩
    have agree : closed.given.length = closed.package.parameters.length := counts
    have ran := bindArguments_of_counts agree ()
    rw [throws] at ran
    have concludes := (rest_eq_iff (Evaluator.wellFormed_ofWidth 1) sound_nameless agree () _).mp ran.symm
    obtain ⟨_, argument, failed⟩ := concludes.stops_of_arity rfl
    exact eval_nameless_ne_fault _ argument failed
  · intro differ m _ _ caller resolver
    rw [Package.bindArguments, if_neg differ]
  · intro counts start ending
    rw [bindArguments_of_counts counts]
    exact rest_eq_iff formed answered counts start ending

def Application.numbering : Resolver Stop (StateT Nat Option) where
  raise := .evaluation
  ident _ := do
    let asked ← get
    set (asked + 1)
    return .int (.ofLiteral (BitVec.ofNat 128 asked) 32)
  reference target := throw (.evaluation (.undefinedSymbol target.text))

/-- The width of the second parameter is the value of the first, and not what the caller calls `Width`. -/
theorem Application.bindArguments_dependent :
    let applied : Application Nat :=
      ⟨⟨"Counter", [⟨"Width", .const, .unknown⟩, ⟨"Start", .typed (.logic (some (.ident "Width"))), .unknown⟩], [],
          .unknown⟩,
        [.ident "Wide", .ident "First"], ⟨[("Width", .int ⟨2, 32, true, false⟩)], 32⟩, numbering, .unknown⟩
    (applied.caller.WellFormed ∧ applied.resolver.Sound) ∧ applied.given.length = applied.package.parameters.length ∧
      applied.Concludes 5 (some (.ok [.int ⟨5, 32, false, false⟩, .int ⟨6, 5, false, true⟩], 7)) := by
  intro applied
  have formed : applied.caller.WellFormed := by
    intro name value found
    have pair := Bindings.mem_of_get? found
    rw [List.mem_singleton, Prod.mk.injEq] at pair
    rw [pair.2]
    exact ⟨by decide, by decide, by decide⟩
  have answered : applied.resolver.Sound := by
    constructor
    · intro name
      apply SatisfiesM.bind SatisfiesM.trivial
      intro asked _
      apply SatisfiesM.bind SatisfiesM.trivial
      intro _ _
      exact SatisfiesM.pure (IntValue.wellFormed_ofLiteral _ _)
    · intro target
      exact ExceptT.satisfiesM_throw _
  exact ⟨⟨formed, answered⟩, rfl, ((bindArguments_iff_concludes formed answered).2 rfl 5 _).mp rfl⟩

end Monomorph
