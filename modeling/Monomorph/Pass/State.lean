import Monomorph.Pass.Program

/-! The state of the pass.

Constants are evaluated once and remembered; instances are numbered once, wait in
a queue, and are specialized once. Every operation is a function on the state, and
it returns the state on a fault as well as on success. Running out of budget is
kept apart from faults: it is the `none` of `Machine`.
-/

set_option autoImplicit false

namespace Monomorph

/-- A finite map. An entry hides the entries of the same key behind it. -/
abbrev Table (κ α : Type) := List (κ × α)

namespace Table

variable {κ α : Type} [DecidableEq κ]

def get? (table : Table κ α) (key : κ) : Option α := List.lookup key table

def insert (table : Table κ α) (key : κ) (value : α) : Table κ α := (key, value) :: table

theorem get?_insert (table : Table κ α) (key other : κ) (value : α) :
    (table.insert key value).get? other = if other = key then some value else table.get? other := by
  by_cases same : other = key
  · simp [get?, insert, same]
  · simp [get?, insert, List.lookup_cons, beq_false_of_ne same, same]

end Table

structure ConstantKey where
  scope : Scope
  name : String
  deriving DecidableEq, Repr

def ConstantKey.label (registry : Registry) (key : ConstantKey) : String :=
  key.scope.label registry ++ "::" ++ key.name

inductive ConstantState where
  | inProgress
  | done (value : Value)
  | failed (fault : Fault)
  deriving DecidableEq, Repr

def ConstantState.ofResult : Except Fault Value → ConstantState
  | .ok value => done value
  | .error fault => failed fault

inductive InstanceState where
  | queued
  | inProgress
  | done
  | failed (fault : Fault)
  deriving DecidableEq, Repr

/-- An instance whose body has not been specialized yet, with its generic package and
how deep it nests. -/
structure Pending where
  package : Package
  id : InstanceId
  level : Nat

def Pending.target (pending : Pending) : Instance := ⟨pending.package.name, pending.id⟩

structure SpecializedPackage where
  target : Instance
  arguments : Arguments
  constants : List (String × Value)
  items : List PackageItem
  span : Span

namespace SpecializedPackage

def name (package : SpecializedPackage) : String := package.target.name

def constant? (package : SpecializedPackage) (name : String) : Option Value :=
  package.constants.lookup name

def item? (package : SpecializedPackage) (name : String) : Option PackageItem :=
  package.items.find? (·.name = name)

def toPackage (package : SpecializedPackage) : Package :=
  ⟨package.name, [], package.items, package.span⟩

end SpecializedPackage

structure State where
  registry : Registry
  instances : Table Instance InstanceState
  /-- How deep an instance nests; one that plain text asks for has level one. -/
  levels : Table Instance Nat
  /-- Instances that wait for their bodies, in the order of their numbering. -/
  queue : List Pending
  /-- Finished instances in the order of their completion. -/
  specialized : List SpecializedPackage
  constants : Table ConstantKey ConstantState
  /-- Constants under evaluation, outermost first. -/
  stack : List ConstantKey
  /-- The level of the instance worked on, zero outside instances. -/
  depth : Nat
  faults : List Fault

namespace State

def initial : State := ⟨.empty, [], [], [], [], [], [], 0, []⟩

def record (state : State) (fault : Fault) : State :=
  if state.faults.any (·.same fault) then state
  else { state with faults := state.faults ++ [fault] }

/-- The level of the body that a scope stands for. -/
def levelOf (state : State) : Scope → Nat
  | .instantiated target => (state.levels.get? target).getD state.depth
  | .package _ | .module _ => state.depth

def enter (state : State) (key : ConstantKey) : State :=
  { state with
    constants := state.constants.insert key .inProgress
    stack := state.stack ++ [key]
    depth := state.levelOf key.scope }

/-- Finish the evaluation of a constant and go back to the depth it was asked for at. -/
def leave (state : State) (key : ConstantKey) (depth : Nat) (result : Except Fault Value) : State :=
  { state with
    constants := state.constants.insert key (.ofResult result)
    stack := state.stack.dropLast
    depth := depth }

/-- The constants under evaluation from one of them on, and that one again. -/
def cycle (state : State) (key : ConstantKey) : List String :=
  ((state.stack.dropWhile (· ≠ key)) ++ [key]).map (·.label state.registry)

/-- The instance of a package for arguments that are bound. A new one is queued one
level below the instance worked on. If that is too deep, it has failed for good. -/
def instantiate (state : State) (settings : Settings) (package : Package) (arguments : Arguments)
    (site : Span) : Except Fault Instance × State :=
  match state.registry.request package.name arguments with
  | .error fault => (.error fault, state)
  | .ok (⟨id, false⟩, _) =>
    match state.instances.get? ⟨package.name, id⟩ with
    | some (.failed fault) => (.error fault, state)
    | _ => (.ok ⟨package.name, id⟩, state)
  | .ok (⟨id, true⟩, registry) =>
    -- the number is taken either way
    let target : Instance := ⟨package.name, id⟩
    if settings.maxInstantiationDepth < state.depth + 1 then
      let fault := site.fault (.recursionLimit package.name settings.maxInstantiationDepth)
      (.error fault, { state with
        registry := registry
        instances := state.instances.insert target (.failed fault) })
    else
      (.ok target, { state with
        registry := registry
        levels := state.levels.insert target (state.depth + 1)
        instances := state.instances.insert target .queued
        queue := state.queue ++ [⟨package, id, state.depth + 1⟩] })

def begin (state : State) (pending : Pending) : State :=
  { state with
    instances := state.instances.insert pending.target .inProgress
    depth := pending.level }

def finish (state : State) (target : Instance) (depth : Nat) :
    Except Fault SpecializedPackage → State
  | .ok package => { state with
      depth := depth
      instances := state.instances.insert target .done
      specialized := state.specialized ++ [package] }
  | .error fault => { state with
      depth := depth
      instances := state.instances.insert target (.failed fault) }

def take (state : State) (position : Nat) : State :=
  { state with queue := state.queue.eraseIdx position }

end State

/-- Operations on the state that may run out of budget. -/
abbrev Machine := StateT State Option

abbrev PassM := ExceptT Fault Machine

namespace Machine

/-- The budget is used up. -/
def exhausted {α : Type} : Machine α := fun _ => none

end Machine

namespace PassM

def ofState {α : Type} (operation : State → Except Fault α × State) : PassM α :=
  ExceptT.mk fun state => some (operation state)

/-- The outcome of an operation, a fault included. -/
def attempt {α : Type} (operation : PassM α) : PassM (Except Fault α) := ExceptT.lift operation.run

def ofResult {α : Type} (result : Except Fault α) : PassM α := ExceptT.mk (pure result)

end PassM
end Monomorph
