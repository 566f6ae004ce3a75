import Monomorph.Pass.Specialization

/-! The pass over a whole unit.

Plain packages and modules are lowered item by item in source order. An item with
a fault is left out and the pass goes on. After each item the instances it asked
for are specialized.
-/

set_option autoImplicit false

namespace Monomorph

/-- A unit without generic packages, and the instances it refers to. -/
structure InstantiatedUnit where
  name : String
  descriptions : List Description
  /-- In the order of their completion. -/
  packages : List SpecializedPackage
  registry : Registry

namespace InstantiatedUnit

def package? (unit : InstantiatedUnit) (name : String) : Option SpecializedPackage :=
  unit.packages.find? (·.name = name)

def instancesOf (unit : InstantiatedUnit) (base : String) : List SpecializedPackage :=
  (unit.packages.filter (·.target.base = base)).mergeSort
    fun first second => first.target.id.number ≤ second.target.id.number

/-- The instances as plain packages, then the lowered descriptions. -/
def toSourceUnit (unit : InstantiatedUnit) : SourceUnit :=
  ⟨unit.name, unit.packages.map (.package ·.toPackage) ++ unit.descriptions⟩

end InstantiatedUnit

/-- All faults, and the instances that were completed all the same. -/
structure Failure where
  faults : List Fault
  packages : List SpecializedPackage

def Failure.message (failure : Failure) : String :=
  "generic instantiation failed with " ++ toString failure.faults.length ++ " error(s)"

inductive Outcome where
  | success (unit : InstantiatedUnit)
  | failure (failure : Failure)

/-- The result of an operation; a fault is recorded instead. -/
def PassM.kept {α : Type} (operation : PassM α) : Machine (Option α) := do
  match ← operation.run with
  | .ok value => pure (some value)
  | .error fault => do
    modify (·.record fault)
    pure none

namespace Program

variable (program : Program)

/-- Lower one item, leave it out if it has a fault, and specialize what is queued. -/
def lowerOne {α : Type} (budget : Nat) (lower : PassM α) : Machine (Option α) := do
  let kept ← lower.kept
  program.drain budget
  pure kept

/-- Where an item of a plain body stands. A constant sees the constants before it;
other items see them all. -/
def plainContext (scope : Scope) (length : Nat) (span : Span) (position : Nat)
    (decl : Option ConstDecl) : Context :=
  match decl with
  | some decl => ⟨scope, position, program.emptyEvaluator, decl.span, false, []⟩
  | none => ⟨scope, length, program.emptyEvaluator, span, false, []⟩

def lowerPackage (budget : Nat) (decl : Package) : Machine Package := do
  let items ← decl.items.zipIdx.filterMapM fun (item, position) =>
    let context := program.plainContext (.package decl.name) decl.items.length decl.span position item.const?
    program.lowerOne budget (program.lowerPackageItem (.ofBudget program budget) context item)
  pure ⟨decl.name, [], items, decl.span⟩

def lowerModule (budget : Nat) (decl : Module) : Machine Module := do
  let items ← decl.items.zipIdx.filterMapM fun (item, position) =>
    let context := program.plainContext (.module decl.name) decl.items.length decl.span position item.const?
    program.lowerOne budget (program.lowerModuleItem (.ofBudget program budget) context item)
  pure ⟨decl.name, items, decl.span⟩

def lowerDescription (budget : Nat) : Description → Machine (Option Description)
  | .package decl =>
    if decl.isGeneric then pure none
    else do
      let decl ← program.lowerPackage budget decl
      pure (some (.package decl))
  | .module decl => do
    let decl ← program.lowerModule budget decl
    pure (some (.module decl))

def lowerAll (budget : Nat) : Machine (List Description) := do
  let descriptions ← program.descriptions.filterMapM (program.lowerDescription budget)
  program.drain budget
  pure descriptions

end Program

def State.ofUnit (unit : SourceUnit) : State := unit.declarationFaults.foldl State.record .initial

/-- The pass with a budget for nested requests and for the queue: the lowered
descriptions and the state at the end, or `none` if the budget does not suffice. -/
def SourceUnit.run? (unit : SourceUnit) (settings : Settings) (budget : Nat) :
    Option (List Description × State) :=
  ((Program.ofUnit unit settings).lowerAll budget).run (.ofUnit unit)

def SourceUnit.outcome (unit : SourceUnit) (descriptions : List Description) (state : State) : Outcome :=
  if state.faults.isEmpty then .success ⟨unit.name, descriptions, state.specialized, state.registry⟩
  else .failure ⟨state.faults, state.specialized⟩

end Monomorph
