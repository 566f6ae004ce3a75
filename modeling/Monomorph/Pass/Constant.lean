import Monomorph.Binding.Arguments
import Monomorph.Pass.State

/-! Values of the constants of a program.

Evaluation asks back for the constants that an initializer names: those declared
before it in its own body, and those of packages it refers to. `Lookup` is what
evaluation needs to be given for that. Each level of `Lookup.ofBudget` answers by
one evaluation over the level below, so a budget bounds how deep requests nest.
-/

set_option autoImplicit false

namespace Monomorph

inductive Request where
  /-- A constant of a scope, wanted at a place. -/
  | constant (scope : Scope) (name : String) (site : Span)
  /-- The constant that a reference names. Its arguments are bound in a scope, where
  the constants before a position are visible. -/
  | reference (reference : Reference) (scope : Scope) (position : Nat)

/-- How the values that an evaluation asks for are obtained. -/
abbrev Lookup := Request → PassM Value

inductive Target where
  | instantiated (package : Package) (target : Instance)
  | plain (package : Package)
  | unknown

def Target.scope? : Target → Option Scope
  | .instantiated _ target => some (.instantiated target)
  | .plain package => some (.package package.name)
  | .unknown => none

namespace Program

/-- Names in a scope. Constants of the scope are visible before a position. -/
def resolver (program : Program) (lookup : Lookup) (scope : Scope) (position : Nat) (site : Span) :
    Resolver Stop Machine where
  raise := .evaluation
  ident name :=
    match program.findConst scope name with
    | some (index, _) =>
      if index < position then (lookup (.constant scope name site)).adapt .fault
      else throw (.evaluation (.undefinedSymbol name))
    | none =>
      if program.declares scope name then
        throw (.evaluation (.notConstant ("'" ++ name ++ "' is not a constant")))
      else throw (.evaluation (.undefinedSymbol name))
  reference target := (lookup (.reference target scope position)).adapt .fault

def evaluatorFor (program : Program) (scope : Scope) : PassM Evaluator :=
  .ofState fun state => (program.evaluator state.registry scope, state)

/-- The package that a reference leads to. A generic one is instantiated for the
arguments, which are bound where the reference stands. -/
def target (program : Program) (lookup : Lookup) (reference : Reference) (scope : Scope) (position : Nat) :
    PassM Target :=
  match program.generic? reference.package with
  | some package => do
    let evaluator ← program.evaluatorFor scope
    let arguments ← package.bindArguments reference.arguments evaluator
      (program.resolver lookup scope position reference.span) reference.span
    let target ← PassM.ofState (·.instantiate program.settings package arguments reference.span)
    pure (.instantiated package target)
  | none =>
    match program.plain? reference.package, reference.arguments with
    | some package, [] => pure (.plain package)
    | none, [] => pure .unknown
    | some package, arguments =>
      throw (reference.span.fault (.arityMismatch package.name 0 arguments.length))
    | none, _ => throw (reference.span.fault (.unresolvedDependency reference.package))

def valueOf (program : Program) (lookup : Lookup) (scope : Scope) (position : Nat) (decl : ConstDecl) :
    PassM Value := do
  let evaluator ← program.evaluatorFor scope
  let what := "constant '" ++ decl.name ++ "'"
  let resolver := program.resolver lookup scope position decl.span
  let value ← (evaluator.eval resolver decl.value).adapt (Stop.toFault what decl.span)
  match decl.type with
  | none => pure value
  | some type => do
    let expected ← (type.valueType evaluator resolver).adapt
      (Stop.toFault ("type of constant '" ++ decl.name ++ "'") decl.span)
    match expected with
    | none => pure value
    | some expected => .ofResult (value.coerce expected what decl.span)

/-- The value of a constant. It is evaluated on first use and remembered; one that is
asked for during its own evaluation is cyclic. -/
def constant (program : Program) (lookup : Lookup) (scope : Scope) (name : String) (site : Span) :
    PassM Value := do
  let state ← get
  let key : ConstantKey := ⟨scope, name⟩
  match state.constants.get? key with
  | some (.done value) => pure value
  | some (.failed fault) => throw fault
  | some .inProgress => throw (site.fault (.cyclicConstant (state.cycle key)))
  | none =>
    match program.findConst scope name with
    | none => throw (site.fault (.unresolvedDependency (key.label state.registry)))
    | some (position, decl) => do
      set (state.enter key)
      let result ← (program.valueOf lookup scope position decl).attempt
      modify (·.leave key state.depth result)
      .ofResult result

def referenced (program : Program) (lookup : Lookup) (reference : Reference) (scope : Scope)
    (position : Nat) : PassM Value := do
  let target ← program.target lookup reference scope position
  match target.scope?, reference.members with
  | none, _ => throw (reference.span.fault (.unresolvedDependency reference.text))
  | some scope, [member] =>
    if (program.findConst scope member).isSome then lookup (.constant scope member reference.span)
    else if program.declares scope member then
      throw (reference.span.fault
        (.notConstant ("'" ++ reference.text ++ "'") ("'" ++ member ++ "' is not a constant")))
    else throw (reference.span.fault (.unresolvedDependency reference.text))
  | some _, _ =>
    throw (reference.span.fault
      (.notConstant ("'" ++ reference.text ++ "'") "reference does not name a package constant"))

def answer (program : Program) (lookup : Lookup) : Request → PassM Value
  | .constant scope name site => program.constant lookup scope name site
  | .reference reference scope position => program.referenced lookup reference scope position

end Program

namespace Lookup

/-- Requests that nest at most as deep as the budget. -/
def ofBudget (program : Program) : Nat → Lookup
  | 0, _ => ExceptT.lift Machine.exhausted
  | budget + 1, request => program.answer (ofBudget program budget) request

end Lookup
end Monomorph
