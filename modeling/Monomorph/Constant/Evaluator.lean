import Monomorph.Constant.Builtin

/-! Evaluation of constant expressions.

Identifiers are looked up among the evaluator's own bindings first. Everything
else is left to a resolver, which may itself compute and fail: evaluation runs
in any monad the resolver needs, and errors of evaluation are raised as the
resolver says. `Resolver.closed` knows no names at all.
-/

set_option autoImplicit false

namespace Monomorph

/-- How names outside the bindings are looked up, and how an evaluation error is
reported to whoever asked for the value. -/
structure Resolver (ε : Type) (m : Type → Type) where
  raise : EvalError → ε
  ident : String → ExceptT ε m Value
  reference : Reference → ExceptT ε m Value

namespace Resolver

variable {ε : Type} {m : Type → Type} [Monad m]

def fail {α : Type} (resolver : Resolver ε m) (error : EvalError) : ExceptT ε m α :=
  throw (resolver.raise error)

def lift {α : Type} (resolver : Resolver ε m) (result : Except EvalError α) : ExceptT ε m α :=
  match result with
  | .ok value => pure value
  | .error error => resolver.fail error

def closed : Resolver EvalError Id where
  raise := id
  ident name := throw (.undefinedSymbol name)
  reference target := throw (.undefinedSymbol target.text)

end Resolver

/-- Values bound to names. A later binding of a name replaces an earlier one. -/
abbrev Bindings := List (String × Value)

namespace Bindings

def get? (bindings : Bindings) (name : String) : Option Value := bindings.lookup name

def erase (bindings : Bindings) (name : String) : Bindings := bindings.filter (·.1 != name)

def insert (bindings : Bindings) (name : String) (value : Value) : Bindings :=
  (name, value) :: bindings.erase name

def insertAll (bindings : Bindings) (pairs : List (String × Value)) : Bindings :=
  pairs.foldl (fun bindings pair => bindings.insert pair.1 pair.2) bindings

end Bindings

structure Evaluator where
  bindings : Bindings
  defaultWidth : Nat
  deriving DecidableEq, Repr

namespace Evaluator

def ofWidth (defaultWidth : Nat) : Evaluator := ⟨[], min (max defaultWidth 1) maxWidth⟩

def bind (evaluator : Evaluator) (name : String) (value : Value) : Evaluator :=
  { evaluator with bindings := evaluator.bindings.insert name value }

def bindAll (evaluator : Evaluator) (pairs : List (String × Value)) : Evaluator :=
  { evaluator with bindings := evaluator.bindings.insertAll pairs }

def unbind (evaluator : Evaluator) (name : String) : Evaluator :=
  { evaluator with bindings := evaluator.bindings.erase name }

def literal (evaluator : Evaluator) : Literal → Except EvalError Value
  | .bool value => .ok (.bool value)
  | .int value none _ => .ok (.int (.ofLiteral value evaluator.defaultWidth))
  | .int value (some width) signed => (IntValue.ofBits value width signed).map .int

variable {ε : Type} {m : Type → Type} [Monad m]

mutual
/-- Operands are evaluated from left to right, and both sides of a logical
operator always are. Of a conditional, only the chosen side is evaluated. -/
def eval (evaluator : Evaluator) (resolver : Resolver ε m) : Expr → ExceptT ε m Value
  | .literal value => resolver.lift (evaluator.literal value)
  | .ident name =>
    match evaluator.bindings.get? name with
    | some value => pure value
    | none => resolver.ident name
  | .reference package arguments members span =>
    resolver.reference ⟨package, arguments, members, span⟩
  | .binary op left right => do
    let left ← evaluator.eval resolver left
    let right ← evaluator.eval resolver right
    resolver.lift (Value.binary op left right)
  | .unary op operand => do
    let operand ← evaluator.eval resolver operand
    resolver.lift (Value.unary op operand)
  | .call function arguments =>
    match Builtin.find? function with
    | none => resolver.fail (.functionNotFound function)
    | some builtin => do
      let arguments ← evaluator.evalList resolver arguments
      resolver.lift (builtin.apply evaluator.defaultWidth arguments)
  | .ternary condition whenTrue whenFalse => do
    let condition ← evaluator.eval resolver condition
    if condition.isTruthy then evaluator.eval resolver whenTrue else evaluator.eval resolver whenFalse
  | .field base name =>
    resolver.fail (.notConstant
      ("member access '" ++ base.text ++ "." ++ name ++ "' is not a compile-time constant"))

def evalList (evaluator : Evaluator) (resolver : Resolver ε m) : List Expr → ExceptT ε m (List Value)
  | [] => pure []
  | first :: rest => do
    let first ← evaluator.eval resolver first
    let rest ← evaluator.evalList resolver rest
    pure (first :: rest)
end

/-- A vector width or an array length, which is positive and below `2 ^ 64`. -/
def evalSize (evaluator : Evaluator) (resolver : Resolver ε m) (expr : Expr) : ExceptT ε m Nat := do
  let value ← evaluator.eval resolver expr
  match value.toCount? with
  | some (size + 1) => pure (size + 1)
  | _ =>
    resolver.fail (.typeMismatch
      ("size '" ++ expr.text ++ "' must be a positive integer, found " ++ value.text))

end Evaluator
end Monomorph
