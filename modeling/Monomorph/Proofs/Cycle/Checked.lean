import Monomorph.Instantiation

/-! The pass under a check of its states.

A check looks at the state whenever a part of the pass starts and ends: the whole
unit, the body of an instance, an item of plain text or of such a body, and every
request that an evaluation makes. The checked pass does what the pass does, but is stopped like one
that has run out of budget where the check refuses a state. That something holds in
every state of the pass is thus to say that a check for it stops nothing.
-/

set_option autoImplicit false

namespace Monomorph

inductive Part where
  | unit
  /-- An item of plain text or of the body of an instance. -/
  | item
  | body (pending : Pending)
  | request (request : Request)

inductive Moment where
  | starts (part : Part)
  | ends (part : Part)

abbrev Check := Moment → State → Bool

def Check.Accepts (check : Check) (assertion : Moment → State → Prop) : Prop :=
  ∀ moment state, assertion moment state → check moment state = true

/-- An operation that is stopped unless its first and its last state pass the check. -/
def Check.around {α : Type} (check : Check) (part : Part) (operation : Machine α) : Machine α := fun state =>
  if check (.starts part) state then (operation.run state).filter fun ended => check (.ends part) ended.2
  else none

theorem Check.around_eq {α : Type} {check : Check} {part : Part} {operation : Machine α} {first : State}
    (starts : check (.starts part) first = true)
    (ends : ∀ value last, operation.run first = some (value, last) → check (.ends part) last = true) :
    (check.around part operation).run first = operation.run first := by
  show (if check (.starts part) first then _ else _) = _
  rw [if_pos starts]
  cases ran : operation.run first with
  | none => rfl
  | some ended => exact Option.filter_eq_some_iff.mpr ⟨rfl, ends _ _ ran⟩

def Lookup.checked (program : Program) (check : Check) : Nat → Lookup
  | 0, _ => ExceptT.lift Machine.exhausted
  | budget + 1, request =>
    ExceptT.mk (check.around (.request request) (program.answer (checked program check budget) request).run)

namespace Program

variable (program : Program) (check : Check)

def checkedBody (lookup : Lookup) (package : Package) (target : Instance) :
    PassM (List (String × Value) × List PackageItem) := do
  let scope := Scope.instantiated target
  let evaluator ← program.evaluatorFor scope
  let results ← package.items.zipIdx.mapM fun entry =>
    ExceptT.mk (check.around .item
      (program.specializeItem lookup ⟨scope, entry.2, evaluator, package.span, true, []⟩ entry.1).run)
  let constants := (results.filterMap (·.2)).foldl
    (fun constants constant => insertConstant constants constant.1 constant.2) []
  pure (constants, results.map (·.1))

def checkedSpecialized (lookup : Lookup) (drain : PassM Unit) (pending : Pending) :
    PassM SpecializedPackage := do
  let body ← program.checkedBody check lookup pending.package pending.target
  drain
  let arguments ← PassM.ofState fun state => (state.registry.resolve pending.target, state)
  pure ⟨pending.target, arguments, body.1, body.2, pending.package.span⟩

def checkedSpecialize (lookup : Lookup) (drain : Nat → PassM Unit) (pending : Pending) : PassM Unit := do
  let state ← get
  set (state.begin pending)
  let result ← (program.checkedSpecialized check lookup (drain state.queue.length) pending).attempt
  modify (·.finish pending.target state.depth result)
  PassM.ofResult (result.map fun _ => ())

def checkedDrainFrom : Nat → Nat → PassM Unit
  | 0, _ => ExceptT.lift Machine.exhausted
  | budget + 1, mark => do
    let state ← get
    match state.queue[mark]? with
    | none => pure ()
    | some next => do
      set (state.take mark)
      ExceptT.mk (check.around (.body next)
        (program.checkedSpecialize check (.checked program check budget) (checkedDrainFrom budget) next).run)
      checkedDrainFrom budget mark

def checkedDrain : Nat → Machine Unit
  | 0 => Machine.exhausted
  | budget + 1 => do
    let state ← get
    match state.queue with
    | [] => pure ()
    | next :: _ => do
      set (state.take 0)
      match ← check.around (.body next) (program.checkedSpecialize check (.checked program check budget)
          (program.checkedDrainFrom check budget) next).run with
      | .ok () => pure ()
      | .error fault => modify (·.record fault)
      checkedDrain budget

def checkedOne {α : Type} (budget : Nat) (lower : PassM α) : Machine (Option α) := do
  let kept ← PassM.kept (ExceptT.mk (check.around .item lower.run))
  program.checkedDrain check budget
  pure kept

def checkedPackage (budget : Nat) (decl : Package) : Machine Package := do
  let items ← decl.items.zipIdx.filterMapM fun entry =>
    let context := program.plainContext (.package decl.name) decl.items.length decl.span entry.2 entry.1.const?
    program.checkedOne check budget (program.lowerPackageItem (.checked program check budget) context entry.1)
  pure ⟨decl.name, [], items, decl.span⟩

def checkedModule (budget : Nat) (decl : Module) : Machine Module := do
  let items ← decl.items.zipIdx.filterMapM fun entry =>
    let context := program.plainContext (.module decl.name) decl.items.length decl.span entry.2 entry.1.const?
    program.checkedOne check budget (program.lowerModuleItem (.checked program check budget) context entry.1)
  pure ⟨decl.name, items, decl.span⟩

def checkedDescription (budget : Nat) : Description → Machine (Option Description)
  | .package decl =>
    if decl.isGeneric then pure none
    else do
      let decl ← program.checkedPackage check budget decl
      pure (some (.package decl))
  | .module decl => do
    let decl ← program.checkedModule check budget decl
    pure (some (.module decl))

def checkedAll (budget : Nat) : Machine (List Description) :=
  check.around .unit do
    let descriptions ← program.descriptions.filterMapM (program.checkedDescription check budget)
    program.checkedDrain check budget
    pure descriptions

end Program

namespace SourceUnit

variable (unit : SourceUnit) (settings : Settings)

/-- The pass under a check. -/
def checked? (check : Check) (budget : Nat) : Option (List Description × State) :=
  ((Program.ofUnit unit settings).checkedAll check budget).run (.ofUnit unit)

/-- An assertion holds at every moment of the pass: no check that accepts what it allows
changes anything. -/
def Always (assertion : Moment → State → Prop) : Prop :=
  ∀ check : Check, check.Accepts assertion →
    ∀ budget, unit.checked? settings check budget = unit.run? settings budget

variable {unit settings}

theorem Always.imp {stronger weaker : Moment → State → Prop} (always : unit.Always settings stronger)
    (implies : ∀ moment state, stronger moment state → weaker moment state) : unit.Always settings weaker :=
  fun check accepts => always check fun moment state holds => accepts moment state (implies moment state holds)

end SourceUnit
end Monomorph
