import Monomorph.Proofs.Cycle.Evaluation
import Monomorph.Proofs.Nesting.Invariant

/-! Evaluation goes by steps.

Whatever an evaluation does to the state is done by steps of the machine, and when it ends
the same work is open as before. A fault about nesting that it ends with is the one with
which an instance was refused. The path of these steps passes through all that a check can
see on the way: a check that accepts what lies on the path stops nothing.
-/

set_option autoImplicit false

namespace Monomorph

variable {ε δ α β : Type}

def Request.scope : Request → Scope
  | .constant scope _ _ | .reference _ scope _ => scope

namespace Activity

/-- A body may be started: its instance waits behind all that waited when the innermost open body was. -/
def Offers (activity : Activity) (position : Nat) (pending : Pending) : Prop :=
  ∃ mark, Frame.mark? activity.frames = some mark ∧ mark ≤ position ∧
    activity.state.queue[position]? = some pending

/-- A moment of the pass lies on a path. A request comes from a scope that is known, and a body is started
that may be. -/
def Seen (path : List Activity) : Moment → State → Prop
  | .starts (.request request), state =>
    ∃ activity ∈ path, activity.state = state ∧ state.Knows request.scope
  | .starts (.body pending), state =>
    ∃ activity ∈ path, ∃ position, activity.Offers position pending ∧ activity.state.take position = state
  | .starts .unit, state | .starts .item, state | .ends _, state => ∃ activity ∈ path, activity.state = state

theorem Seen.mono {path wider : List Activity} (within : path ⊆ wider) {moment : Moment} {state : State}
    (seen : Seen path moment state) : Seen wider moment state := by
  cases moment with
  | ends part =>
    obtain ⟨activity, member, same⟩ := seen
    exact ⟨activity, within member, same⟩
  | starts part =>
    cases part with
    | unit =>
      obtain ⟨activity, member, same⟩ := seen
      exact ⟨activity, within member, same⟩
    | item =>
      obtain ⟨activity, member, same⟩ := seen
      exact ⟨activity, within member, same⟩
    | body pending =>
      obtain ⟨activity, member, offered⟩ := seen
      exact ⟨activity, within member, offered⟩
    | request request =>
      obtain ⟨activity, member, known⟩ := seen
      exact ⟨activity, within member, known⟩

theorem subset_between (first next last : Activity) (path : List Activity) :
    next :: path ⊆ first :: next :: (path ++ [last]) :=
  List.subset_cons_of_subset first (List.cons_subset_cons next (List.subset_append_left path [last]))

end Activity

theorem Check.Accepts.mono {check : Check} {path wider : List Activity}
    (accepts : check.Accepts (Activity.Seen wider)) (within : path ⊆ wider) : check.Accepts (Activity.Seen path) :=
  fun moment state seen => accepts moment state (seen.mono within)

theorem Check.Accepts.append {check : Check} {path further : List Activity} {middle : Activity}
    (accepts : check.Accepts (Activity.Seen (path ++ further))) (reached : middle ∈ path) :
    check.Accepts (Activity.Seen path) ∧ check.Accepts (Activity.Seen (middle :: further)) :=
  ⟨accepts.mono (List.subset_append_left path further), accepts.mono (List.cons_subset.mpr
    ⟨List.mem_append_left further reached, List.subset_append_right path further⟩)⟩

abbrev Watched (ε α : Type) := Option Check → ExceptT ε Machine α

abbrev Watched.of (operation : ExceptT ε Machine α) (checked : Check → ExceptT ε Machine α) : Watched ε α :=
  fun watch => watch.elim operation checked

/-- A point of the pass with some open work, where the scopes that need levels have them. -/
structure Program.Stands (program : Program) (frames : List Frame) (scopes : List Scope) (activity : Activity) :
    Prop where
  valid : activity.Valid program
  frames : activity.frames = frames
  knows : ∀ scope ∈ scopes, activity.state.Knows scope

theorem Program.Stands.later {program : Program} {frames : List Frame} {scopes : List Scope} {mode : Mode}
    {first last : Activity} {path : List Activity} (stands : program.Stands frames scopes first)
    (passes : program.Passes mode first path last) : program.Stands last.frames scopes last := by
  obtain ⟨upholds, valid⟩ := stands.valid.passes passes
  exact ⟨valid, rfl, fun scope listed => upholds.knows (stands.knows scope listed)⟩

/-- Where an operation has led: by steps, and to the end of all work that it started. -/
structure Arrives (program : Program) (mode : Mode) (limit? : ε → Option Fault) (start : Activity)
    (path : List Activity) (result : Except ε α) (last : State) (gives : α → List Scope) : Prop where
  passes : ∃ journal, program.Passes mode start path ⟨start.frames, journal, last⟩
  blames : last.Blames limit? result
  knows : ∀ value, result = .ok value → ∀ scope ∈ gives value, last.Knows scope

theorem Arrives.of_passes {program : Program} {mode : Mode} {limit? : ε → Option Fault} {start : Activity}
    {path : List Activity} {journal : Journal} {result : Except ε α} {last : State}
    (passes : program.Passes mode start path ⟨start.frames, journal, last⟩) (blames : last.Blames limit? result) :
    Arrives program mode limit? start path result last fun _ => [] :=
  ⟨⟨journal, passes⟩, blames, fun _ _ _ listed => absurd listed List.not_mem_nil⟩

/-- From a state that belongs to an activity, an operation arrives somewhere on a path on which it can be
watched. -/
def FollowsFrom (program : Program) (mode : Mode) (limit? : ε → Option Fault) (start : Activity) (first : State)
    (operations : Watched ε α) (gives : α → List Scope := fun _ => []) : Prop :=
  ∀ result last, (operations none).run first = some (result, last) →
    ∃ path, Arrives program mode limit? start path result last gives ∧
      ∀ check : Check, check.Accepts (Activity.Seen (start :: path)) →
        (operations (some check)).run first = some (result, last)

def Follows (program : Program) (frames : List Frame) (mode : Mode) (limit? : ε → Option Fault)
    (scopes : List Scope) (operations : Watched ε α) (gives : α → List Scope := fun _ => []) : Prop :=
  ∀ start, program.Stands frames scopes start →
    FollowsFrom program mode limit? start start.state operations gives

namespace FollowsFrom

variable {program : Program} {frames : List Frame} {mode : Mode} {limit? : ε → Option Fault} {scopes : List Scope}
  {start : Activity} {first : State} {operations : Watched ε α} {gives : α → List Scope}

theorem bind {next : Option Check → α → ExceptT ε Machine β} {ends : β → List Scope}
    (follows : FollowsFrom program mode limit? start first operations gives)
    (stands : program.Stands frames scopes start)
    (continues : ∀ value,
      Follows program frames mode limit? (gives value ++ scopes) (fun watch => next watch value) ends) :
    FollowsFrom program mode limit? start first (fun watch => operations watch >>= next watch) ends := by
  intro result last ran
  rcases ExceptT.run_bind_eq_some ran with ⟨error, stopped, rfl⟩ | ⟨value, middle, ran, ended⟩
  · -- the first operation fails, and its path is all there is
    obtain ⟨path, ⟨passes, blames, _⟩, same⟩ := follows _ last stopped
    refine ⟨path, ⟨passes, fun other fault failed => blames other fault (by cases failed; rfl), nofun⟩, ?_⟩
    intro check accepts
    rw [ExceptT.run_bind_eq, same check accepts]
    rfl
  · obtain ⟨path, ⟨⟨journal, passes⟩, _, knows⟩, same⟩ := follows _ middle ran
    have there := stands.later passes
    have known : program.Stands frames (gives value ++ scopes) ⟨start.frames, journal, middle⟩ :=
      ⟨there.valid, stands.frames, fun scope listed =>
        (List.mem_append.mp listed).elim (knows value rfl scope) (there.knows scope)⟩
    obtain ⟨further, ⟨⟨journal', passes'⟩, blames, knows⟩, same'⟩ := continues value _ known result last ended
    refine ⟨path ++ further, ⟨⟨journal', passes.trans passes'⟩, blames, knows⟩, fun check accepts => ?_⟩
    obtain ⟨before, after⟩ := accepts.append passes.last_mem
    rw [ExceptT.run_bind_eq, same check before]
    exact same' check after

theorem congr {state : State} {others : Watched ε α}
    (follows : FollowsFrom program mode limit? start first operations gives)
    (plain : (others none).run state = (operations none).run first)
    (checked : ∀ check, (others (some check)).run state = (operations (some check)).run first) :
    FollowsFrom program mode limit? start state others gives := by
  intro result last ran
  obtain ⟨path, arrives, same⟩ := follows result last (plain.symm.trans ran)
  exact ⟨path, arrives, fun check accepts => (checked check).trans (same check accepts)⟩

theorem reading {next : Option Check → State → PassM α}
    (follows : FollowsFrom program mode Fault.limit? start first (fun watch => next watch first) gives) :
    FollowsFrom program mode Fault.limit? start first (fun watch => do let state ← get; next watch state) gives :=
  follows.congr (PassM.run_get_bind _ _) fun _ => PassM.run_get_bind _ _

theorem writing {state : State} {next : Option Check → PassM α}
    (follows : FollowsFrom program mode Fault.limit? start state next gives) :
    FollowsFrom program mode Fault.limit? start first (fun watch => do set state; next watch) gives :=
  follows.congr (PassM.run_set_bind _ _ _) fun _ => PassM.run_set_bind _ _ _

end FollowsFrom

namespace Follows

variable {program : Program} {frames : List Frame} {mode : Mode} {limit? : ε → Option Fault} {scopes : List Scope}
  {gives : α → List Scope} {operations : Watched ε α}

theorem unchanged {read : State → Except ε α}
    (plain : ∀ state error, read state = .error error → limit? error = none)
    (known : ∀ start, program.Stands frames scopes start → ∀ value, read start.state = .ok value →
      ∀ scope ∈ gives value, start.state.Knows scope) :
    Follows program frames mode limit? scopes
      (fun _ => ExceptT.mk fun state => some (read state, state)) gives := by
  intro start stands result last ran
  cases ran
  refine ⟨[], ⟨⟨start.journal, .stays⟩, fun error fault same about => ?_, known start stands⟩, fun _ _ => rfl⟩
  rw [plain _ error same] at about
  cases about

theorem returns {value : α}
    (known : ∀ start, program.Stands frames scopes start → ∀ scope ∈ gives value, start.state.Knows scope) :
    Follows program frames mode limit? scopes (fun _ => Pure.pure value) gives := by
  apply unchanged
  · exact fun _ _ => nofun
  · intro start stands other same
    cases same
    exact known start stands

theorem pure (value : α) : Follows program frames mode limit? scopes (fun _ => Pure.pure value) :=
  returns fun _ _ _ listed => absurd listed List.not_mem_nil

theorem throws {error : ε} (plain : limit? error = none) :
    Follows program frames mode limit? scopes (fun _ => (throw error : ExceptT ε Machine α)) gives := by
  apply unchanged
  · intro _ other same
    cases same
    exact plain
  · exact fun _ _ _ => nofun

theorem ofExcept {result : Except ε α} (plain : ∀ error, result = .error error → limit? error = none) :
    Follows program frames mode limit? scopes (fun _ => (MonadExcept.ofExcept result : ExceptT ε Machine α)) := by
  cases result with
  | ok value => exact pure value
  | error error => exact throws (plain error rfl)

theorem ofResult {result : Except Fault α} (plain : ∀ fault, result = .error fault → fault.Plain) :
    Follows program frames mode Fault.limit? scopes (fun _ => PassM.ofResult result) :=
  unchanged (fun _ fault refused => (plain fault refused).limit) fun _ _ _ _ _ listed =>
    absurd listed List.not_mem_nil

theorem reads {read : State → Except Fault α} (plain : ∀ state fault, read state = .error fault → fault.Plain) :
    Follows program frames mode Fault.limit? scopes (fun _ => PassM.ofState fun state => (read state, state)) :=
  unchanged (fun state fault refused => (plain state fault refused).limit) fun _ _ _ _ _ listed =>
    absurd listed List.not_mem_nil

theorem bind {next : Option Check → α → ExceptT ε Machine β} {ends : β → List Scope}
    (follows : Follows program frames mode limit? scopes operations gives)
    (continues : ∀ value,
      Follows program frames mode limit? (gives value ++ scopes) (fun watch => next watch value) ends) :
    Follows program frames mode limit? scopes (fun watch => operations watch >>= next watch) ends :=
  fun start stands => (follows start stands).bind stands continues

theorem map {next : α → β} (follows : Follows program frames mode limit? scopes operations) :
    Follows program frames mode limit? scopes (fun watch => next <$> operations watch) := by
  simp only [map_eq_pure_bind]
  exact follows.bind fun _ => pure _

theorem adapt {other? : δ → Option Fault} {wrap : ε → δ}
    (follows : Follows program frames mode limit? scopes operations gives)
    (same : ∀ error, other? (wrap error) = limit? error) :
    Follows program frames mode other? scopes (fun watch => (operations watch).adapt wrap) gives := by
  intro start stands result last ended
  rw [ExceptT.run_adapt_eq] at ended
  obtain ⟨⟨found, reached⟩, ran, wrapped⟩ := Option.bind_eq_some_iff.mp ended
  cases wrapped
  obtain ⟨path, ⟨passes, blames, knows⟩, watched⟩ := follows start stands found reached ran
  refine ⟨path, ⟨passes, fun error fault failed about => ?_, fun value made => ?_⟩, fun check accepts => ?_⟩
  · cases found with
    | ok value => cases failed
    | error inner =>
      cases failed
      exact blames inner fault rfl (same inner ▸ about)
  · cases found with
    | error inner => cases made
    | ok other =>
      cases made
      exact knows _ rfl
  · rw [ExceptT.run_adapt_eq, watched check accepts]
    rfl

theorem toFault {operations : Watched Stop α}
    (follows : Follows program frames mode Stop.limit? scopes operations gives) (what : String) (site : Span) :
    Follows program frames mode Fault.limit? scopes (fun watch => (operations watch).adapt (Stop.toFault what site))
      gives :=
  follows.adapt fun stop => (Stop.reports_toFault what site stop).2

theorem mapM {items : List α} {each : Option Check → α → ExceptT ε Machine β}
    (follows : ∀ item, Follows program frames mode limit? scopes (fun watch => each watch item)) :
    Follows program frames mode limit? scopes (fun watch => items.mapM (each watch)) := by
  induction items with
  | nil => exact pure []
  | cons first rest ih =>
    simp only [List.mapM_cons]
    exact (follows first).bind fun _ => ih.bind fun _ => pure _

end Follows

def Lookup.Follows (program : Program) (mode : Mode) (lookups : Option Check → Lookup) : Prop :=
  ∀ frames scopes request, request.scope ∈ scopes →
    Monomorph.Follows program frames mode Fault.limit? scopes (fun watch => lookups watch request)

namespace Program

variable {program : Program} {frames : List Frame} {mode : Mode} {lookups : Option Check → Lookup}
  {scopes : List Scope} {scope : Scope} {position : Nat} {site : Span} {evaluator : Evaluator}

theorem lift_follows (result : Except EvalError α) :
    Follows program frames mode Stop.limit? scopes
      (fun watch => (program.resolver (lookups watch) scope position site).lift result) := by
  cases result with
  | ok value => exact .pure value
  | error error => exact .throws rfl

theorem ident_follows (follows : Lookup.Follows program mode lookups) (known : scope ∈ scopes)
    (name : String) :
    Follows program frames mode Stop.limit? scopes
      (fun watch => (program.resolver (lookups watch) scope position site).ident name) := by
  simp only [resolver]
  split
  · split
    · exact (follows frames scopes (.constant scope name site) known).adapt fun _ => rfl
    · exact .throws rfl
  · split
    · exact .throws rfl
    · exact .throws rfl

mutual

theorem eval_follows (follows : Lookup.Follows program mode lookups) (known : scope ∈ scopes) :
    ∀ expr : Expr,
      Follows program frames mode Stop.limit? scopes
        (fun watch => evaluator.eval (program.resolver (lookups watch) scope position site) expr)
  | .literal literal => by
    simp only [Evaluator.eval]
    exact lift_follows _
  | .ident name => by
    simp only [Evaluator.eval]
    split
    · exact .pure _
    · exact ident_follows follows known name
  | .reference package arguments members span => by
    simp only [Evaluator.eval]
    exact (follows frames scopes (.reference ⟨package, arguments, members, span⟩ scope position) known).adapt
      fun _ => rfl
  | .binary op left right => by
    simp only [Evaluator.eval]
    exact (eval_follows follows known left).bind fun _ =>
      (eval_follows follows known right).bind fun _ => lift_follows _
  | .unary op operand => by
    simp only [Evaluator.eval]
    exact (eval_follows follows known operand).bind fun _ => lift_follows _
  | .call function arguments => by
    simp only [Evaluator.eval]
    split
    · exact .throws rfl
    · exact (evalList_follows follows known arguments).bind fun _ => lift_follows _
  | .ternary condition whenTrue whenFalse => by
    simp only [Evaluator.eval]
    refine (eval_follows follows known condition).bind fun test => ?_
    split
    · exact eval_follows follows known whenTrue
    · exact eval_follows follows known whenFalse
  | .field base name => by
    simp only [Evaluator.eval]
    exact .throws rfl

theorem evalList_follows (follows : Lookup.Follows program mode lookups) (known : scope ∈ scopes) :
    ∀ exprs : List Expr,
      Follows program frames mode Stop.limit? scopes
        (fun watch => evaluator.evalList (program.resolver (lookups watch) scope position site) exprs)
  | [] => by
    simp only [Evaluator.evalList]
    exact .pure _
  | head :: rest => by
    simp only [Evaluator.evalList]
    exact (eval_follows follows known head).bind fun _ => (evalList_follows follows known rest).bind fun _ => .pure _

end

theorem evalSize_follows (follows : Lookup.Follows program mode lookups) (known : scope ∈ scopes)
    (size : Expr) :
    Follows program frames mode Stop.limit? scopes
      (fun watch => evaluator.evalSize (program.resolver (lookups watch) scope position site) size) := by
  unfold Evaluator.evalSize
  refine (eval_follows follows known size).bind fun value => ?_
  split
  · exact .pure _
  · exact .throws rfl

theorem valueType_follows (follows : Lookup.Follows program mode lookups) (known : scope ∈ scopes)
    (type : TypeExpr) :
    Follows program frames mode Stop.limit? scopes
      (fun watch => type.valueType evaluator (program.resolver (lookups watch) scope position site)) := by
  have vector (width : Expr) :
      Follows program frames mode Stop.limit? scopes (fun watch => do
        let width ← evaluator.evalSize (program.resolver (lookups watch) scope position site) width
        some <$> (program.resolver (lookups watch) scope position site).lift (ValueType.vector width)) :=
    (evalSize_follows follows known width).bind fun _ => .map (lift_follows _)
  cases type with
  | logic width =>
    cases width with
    | none => exact .pure _
    | some width => exact vector width
  | bit width =>
    cases width with
    | none => exact .pure _
    | some width => exact vector width
  | int kind => exact .pure _
  | bool => exact .pure _
  | named name => exact .pure _
  | reference target => exact .pure _
  | array element length => exact .pure _

theorem bindFrom_follows (follows : Lookup.Follows program mode lookups) (known : scope ∈ scopes)
    (package : String) (index : Nat) (earlier : Evaluator) (parameters : List GenericParameter)
    (arguments : List Expr) :
    Follows program frames mode Fault.limit? scopes
      (fun watch => bindFrom package evaluator (program.resolver (lookups watch) scope position site) site index
        earlier parameters arguments) := by
  induction arguments generalizing parameters index earlier with
  | nil => cases parameters <;> exact .pure _
  | cons argument arguments ih =>
    cases parameters with
    | nil => exact .pure _
    | cons parameter parameters =>
      simp only [bindFrom]
      refine .bind ((eval_follows follows known argument).toFault _ _) fun _ => ?_
      refine .bind (.ofExcept fun _ refused => (GenericParameter.plain_of_accept refused).limit) fun result => ?_
      exact (ih (index + 1) (earlier.bind parameter.name result) parameters).bind fun _ => .pure _

theorem bindArguments_follows (follows : Lookup.Follows program mode lookups) (known : scope ∈ scopes)
    (package : Package) (arguments : List Expr) :
    Follows program frames mode Fault.limit? scopes
      (fun watch =>
        package.bindArguments arguments evaluator (program.resolver (lookups watch) scope position site) site) := by
  unfold Package.bindArguments
  split
  · exact bindFrom_follows follows known package.name 0 _ _ _
  · exact .throws rfl

theorem evaluatorFor_follows (scope : Scope) :
    Follows program frames mode Fault.limit? scopes (fun _ => program.evaluatorFor scope) :=
  .reads fun _ _ => plain_of_evaluator

/-- A new instance gets its number in one step; nothing happens for an older one. -/
theorem passes_instantiate (frames : List Frame) (journal : Journal) (state : State) (package : Package)
    (arguments : Arguments) (site : Span) :
    ∃ path journal', program.Passes mode ⟨frames, journal, state⟩ path
      ⟨frames, journal', (state.instantiate program.settings package arguments site).2⟩ := by
  cases asked : state.registry.request package.name arguments with
  | error fault =>
    refine ⟨[], journal, ?_⟩
    simp only [State.instantiate, asked]
    exact .stays
  | ok answer =>
    obtain ⟨⟨id, isNew⟩, registry⟩ := answer
    cases isNew with
    | true => exact ⟨_, _, .single (.number asked)⟩
    | false =>
      refine ⟨[], journal, ?_⟩
      simp only [State.instantiate, asked]
      split <;> exact .stays

theorem keeps_of_instantiate {settings : Settings} {state last : State} {package : Package} {arguments : Arguments}
    {fault : Fault} (made : state.instantiate settings package arguments site = (.error fault, last)) :
    fault.Plain ∨ last.Keeps fault := by
  unfold State.instantiate at made
  split at made
  · rename_i refused
    cases made
    exact .inl (Registry.plain_of_request refused)
  · split at made
    · rename_i failed
      cases made
      exact .inr (.specialization failed)
    · cases made
  · simp only at made
    split at made
    · cases made
      exact .inr (.specialization (by rw [Table.get?_insert, if_pos rfl]))
    · cases made

theorem instantiate_follows (package : Package) (arguments : Arguments) :
    Follows program frames mode Fault.limit? scopes
      (fun _ => PassM.ofState (·.instantiate program.settings package arguments site))
        fun target => [.instantiated target] := by
  intro start stands result last ran
  have made : start.state.instantiate program.settings package arguments site = (result, last) := Option.some.inj ran
  have passes : ∃ path journal, program.Passes mode start path ⟨start.frames, journal, _⟩ :=
    passes_instantiate start.frames start.journal start.state package arguments site
  have knows := (State.instantiate_advances stands.valid.sound package arguments site).2
  rw [made] at passes knows
  obtain ⟨path, journal, passes⟩ := passes
  refine ⟨path, ⟨⟨journal, passes⟩, fun error fault same about => ?_, fun target same scope listed =>
    List.mem_singleton.mp listed ▸ knows target same⟩, fun _ _ => ran⟩
  subst same
  have same := (Fault.limit?_eq_some.mp about).1
  subst same
  rcases keeps_of_instantiate made with plain | kept
  · rw [plain.limit] at about
    cases about
  · exact (stands.valid.passes passes).2.accounts _ kept about

theorem target_follows (follows : Lookup.Follows program mode lookups) (known : scope ∈ scopes)
    (reference : Reference) :
    Follows program frames mode Fault.limit? scopes
      (fun watch => program.target (lookups watch) reference scope position) fun target => target.scope?.toList := by
  unfold target
  split
  · rename_i package generic
    refine (evaluatorFor_follows scope).bind fun evaluator => ?_
    refine (bindArguments_follows follows known package reference.arguments).bind fun bound => ?_
    refine (instantiate_follows package bound).bind fun target => ?_
    exact .returns fun start stands scope listed => stands.knows scope (List.mem_append_left _ listed)
  · split
    · refine .returns fun start stands scope listed => ?_
      cases List.mem_singleton.mp listed
      trivial
    · exact .returns fun _ _ _ listed => absurd listed List.not_mem_nil
    · exact .throws rfl
    · exact .throws rfl

theorem valueOf_follows (follows : Lookup.Follows program mode lookups) (known : scope ∈ scopes)
    (decl : ConstDecl) :
    Follows program frames mode Fault.limit? scopes
      (fun watch => program.valueOf (lookups watch) scope position decl) := by
  unfold valueOf
  refine (evaluatorFor_follows scope).bind fun evaluator => ?_
  refine .bind ((eval_follows follows known decl.value).toFault _ _) fun _ => ?_
  split
  · exact .pure _
  · rename_i type declared
    refine .bind ((valueType_follows follows known type).toFault _ _) fun fixed => ?_
    cases fixed with
    | none => exact .pure _
    | some expected => exact .ofResult fun _ => Value.plain_of_coerce

/-- A constant without a result is entered, and left when its evaluation has ended. -/
theorem evaluation_follows (follows : Lookup.Follows program mode lookups) (known : scope ∈ scopes) {name : String}
    (decl : ConstDecl) {start : Activity} (stands : program.Stands frames scopes start)
    (new : start.state.constants.get? ⟨scope, name⟩ = none) :
    FollowsFrom program mode Fault.limit? start (start.state.enter ⟨scope, name⟩) (fun watch => do
      let result ← (program.valueOf (lookups watch) scope position decl).attempt
      modify (·.leave ⟨scope, name⟩ start.state.depth result)
      PassM.ofResult result) := by
  intro result last ran
  have enters : program.Moves mode start
      ⟨.constant ⟨scope, name⟩ start.state.depth :: start.frames, start.journal, start.state.enter ⟨scope, name⟩⟩ :=
    .enter (stands.knows scope known) new
  obtain ⟨outcome, middle, evaluated, answer, left⟩ := PassM.run_bracket ran
  subst answer left
  obtain ⟨path, ⟨⟨journal, passes⟩, blames, _⟩, same⟩ :=
    valueOf_follows follows known decl _ (stands.later (.single enters)) result middle evaluated
  have leaves : program.Moves mode ⟨.constant ⟨scope, name⟩ start.state.depth :: start.frames, journal, middle⟩
      ⟨start.frames, journal, middle.leave ⟨scope, name⟩ start.state.depth result⟩ := .leave blames
  refine ⟨_, .of_passes (.goes enters (passes.trans (.single leaves))) ?_, ?_⟩
  · intro error fault failed about
    exact (blames error fault failed about).imp fun target refuses => ⟨refuses.level, refuses.failed⟩
  · intro check accepts
    have again := same check (accepts.mono (Activity.subset_between _ _ _ _))
    exact (PassM.run_bracket_congr (again.trans evaluated.symm)).trans ran

theorem constant_follows (follows : Lookup.Follows program mode lookups) (known : scope ∈ scopes)
    (name : String) :
    Follows program frames mode Fault.limit? scopes
      (fun watch => program.constant (lookups watch) scope name site) := by
  intro start stands
  unfold constant
  refine .reading ?_
  simp only
  cases held : start.state.constants.get? ⟨scope, name⟩ with
  | some entry =>
    cases entry with
    | done value => exact Follows.pure value start stands
    | inProgress => exact Follows.throws rfl start stands
    | failed fault =>
      intro result last ran
      cases ran
      refine ⟨[], .of_passes .stays fun other found same about => ?_, fun _ _ => rfl⟩
      cases same
      have same := (Fault.limit?_eq_some.mp about).1
      subst same
      -- a fault that is kept is accounted for
      exact stands.valid.accounts _ (.constant held) about
  | none =>
    cases program.findConst scope name with
    | none => exact Follows.throws rfl start stands
    | some entry => exact .writing (evaluation_follows follows known entry.2 stands held)

theorem referenced_follows (follows : Lookup.Follows program mode lookups) (known : scope ∈ scopes)
    (reference : Reference) :
    Follows program frames mode Fault.limit? scopes
      (fun watch => program.referenced (lookups watch) reference scope position) := by
  unfold referenced
  refine (target_follows follows known reference).bind fun target => ?_
  split
  · exact .throws rfl
  · rename_i inner member reached members
    split
    · refine follows _ _ (.constant inner member reference.span) (List.mem_append_left _ ?_)
      rw [reached]
      exact List.mem_singleton_self inner
    · split
      · exact .throws rfl
      · exact .throws rfl
  · exact .throws rfl

theorem answer_follows (follows : Lookup.Follows program mode lookups) (request : Request)
    (known : request.scope ∈ scopes) :
    Follows program frames mode Fault.limit? scopes (fun watch => program.answer (lookups watch) request) := by
  cases request with
  | constant scope name site => exact constant_follows follows known name
  | reference reference scope position => exact referenced_follows follows known reference

end Program
end Monomorph
