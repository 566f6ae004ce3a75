import Monomorph.Binding.ValueType

/-! Binding of generic arguments to the parameters of a package.

Arguments are evaluated where the reference stands. A parameter's declared type
may use the parameters before it, and nothing else.
-/

set_option autoImplicit false

namespace Monomorph

variable {m : Type → Type} [Monad m]

def GenericParameter.accept (parameter : GenericParameter) (earlier : Evaluator) (value : Value)
    (what : String) (site : Span) : Except Fault Value :=
  match parameter.type with
  | .const => .ok value
  | .typed type =>
    match (type.valueType earlier Resolver.closed).run with
    | .error error =>
      .error ((Stop.evaluation error).toFault ("type of parameter '" ++ parameter.name ++ "'") parameter.span)
    | .ok (some expected) => value.coerce expected what site
    | .ok none => .ok value

def argumentLabel (package : String) (position : Nat) (parameter : GenericParameter) : String :=
  "argument " ++ toString (position + 1) ++ " ('" ++ parameter.name ++ "') of package '" ++ package ++ "'"

/-- Bind arguments from a position on, with the parameters before it already bound. -/
def bindFrom (package : String) (evaluator : Evaluator) (resolver : Resolver Stop m) (site : Span) :
    Nat → Evaluator → List GenericParameter → List Expr → ExceptT Fault m Arguments
  | position, earlier, parameter :: parameters, argument :: arguments => do
    let what := argumentLabel package position parameter
    let value ← (evaluator.eval resolver argument).adapt (Stop.toFault what site)
    let value ← MonadExcept.ofExcept (parameter.accept earlier value what site)
    let rest ← bindFrom package evaluator resolver site (position + 1)
      (earlier.bind parameter.name value) parameters arguments
    pure (value :: rest)
  | _, _, _, _ => pure []

def Package.bindArguments (package : Package) (arguments : List Expr) (evaluator : Evaluator)
    (resolver : Resolver Stop m) (site : Span) : ExceptT Fault m Arguments :=
  if arguments.length = package.parameters.length then
    bindFrom package.name evaluator resolver site 0 (.ofWidth evaluator.defaultWidth)
      package.parameters arguments
  else
    throw (site.fault (.arityMismatch package.name package.parameters.length arguments.length))

end Monomorph
