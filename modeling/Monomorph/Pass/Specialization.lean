import Monomorph.Pass.Lowering

/-! Specialization of queued instances.

An instance that is first asked for by a body is specialized before that body is
complete, so packages that others depend on come first. A fault in a body fails
its instance and every instance that waits for it.
-/

set_option autoImplicit false

namespace Monomorph

/-- Set the value of a constant. A repeated name keeps its place. -/
def insertConstant (constants : List (String × Value)) (name : String) (value : Value) :
    List (String × Value) :=
  match constants with
  | [] => [(name, value)]
  | (other, old) :: rest =>
    if other = name then (other, value) :: rest else (other, old) :: insertConstant rest name value

namespace Program

variable (program : Program) (lookup : Lookup)

/-- One item of an instance. A constant becomes the literal of its value. -/
def specializeItem (context : Context) : PackageItem → PassM (PackageItem × Option (String × Value))
  | .const decl => do
    let value ← lookup (.constant context.scope decl.name decl.span)
    let type ← program.lowerType? lookup context decl.type
    let literal := value.toExpr context.evaluator.defaultWidth
    pure (.const ⟨decl.name, type, literal, decl.span⟩, some (decl.name, value))
  | item => do
    let item ← program.lowerPackageItem lookup context item
    pure (item, none)

def specializeBody (package : Package) (target : Instance) :
    PassM (List (String × Value) × List PackageItem) := do
  let scope := Scope.instantiated target
  let evaluator ← program.evaluatorFor scope
  let results ← package.items.zipIdx.mapM fun (item, position) =>
    program.specializeItem lookup ⟨scope, position, evaluator, package.span, true, []⟩ item
  let constants := (results.filterMap (·.2)).foldl
    (fun constants constant => insertConstant constants constant.1 constant.2) []
  pure (constants, results.map (·.1))

/-- The specialized package of an instance, once what its body has queued is specialized. -/
def specialized (drain : PassM Unit) (pending : Pending) : PassM SpecializedPackage := do
  let body ← program.specializeBody lookup pending.package pending.target
  drain
  let arguments ← PassM.ofState fun state => (state.registry.resolve pending.target, state)
  pure ⟨pending.target, arguments, body.1, body.2, pending.package.span⟩

/-- Specialize an instance taken out of the queue. `drain` specializes what its body
has queued in turn, from a position of the queue on. -/
def specialize (drain : Nat → PassM Unit) (pending : Pending) : PassM Unit := do
  let state ← get
  set (state.begin pending)
  let result ← (program.specialized lookup (drain state.queue.length) pending).attempt
  modify (·.finish pending.target state.depth result)
  PassM.ofResult (result.map fun _ => ())

def drainFrom : Nat → Nat → PassM Unit
  | 0, _ => ExceptT.lift Machine.exhausted
  | budget + 1, mark => do
    let state ← get
    match state.queue[mark]? with
    | none => pure ()
    | some next => do
      set (state.take mark)
      program.specialize (.ofBudget program budget) (drainFrom budget) next
      drainFrom budget mark

def drain : Nat → Machine Unit
  | 0 => Machine.exhausted
  | budget + 1 => do
    let state ← get
    match state.queue with
    | [] => pure ()
    | next :: _ => do
      set (state.take 0)
      match ← (program.specialize (.ofBudget program budget) (program.drainFrom budget) next).run with
      | .ok () => pure ()
      | .error fault => modify (·.record fault)
      drain budget

end Program
end Monomorph
