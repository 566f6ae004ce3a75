import Monomorph.Constant.Evaluator
import Monomorph.Fault
import Monomorph.Tree.Declaration

/-! Declared types and the conversion of constants to them.

A declared type fixes a value type when it is a scalar or a vector. A value of
written width must have exactly that type; any other integer takes it on when it
is representable.
-/

set_option autoImplicit false

namespace Monomorph

variable {ε : Type} {m : Type → Type} [Monad m]

def ValueType.vector (width : Nat) : Except EvalError ValueType :=
  if width ≤ maxWidth then .ok (.int width false) else .error (.unsupportedWidth width)

/-- The value type that a declared type fixes, if it fixes one. -/
def TypeExpr.valueType (evaluator : Evaluator) (resolver : Resolver ε m) :
    TypeExpr → ExceptT ε m (Option ValueType)
  | .bool => pure (some .bool)
  | .int kind => pure (some (.int kind.width kind.isSigned))
  | .logic none | .bit none => pure (some (.int 1 false))
  | .logic (some width) | .bit (some width) => do
    let width ← evaluator.evalSize resolver width
    some <$> resolver.lift (ValueType.vector width)
  | .named _ | .reference _ | .array _ _ => pure none

/-- The value in the expected type, if it can be had without a change. -/
def Value.coerce? (value : Value) (expected : ValueType) : Option Value :=
  match expected, value with
  | .bool, .bool _ => some value
  | .int width signed, .int found =>
    if found.sized then
      if found.width = width ∧ found.signed = signed then some value else none
    else if found.fits width signed then
      match found.retyped width signed with
      | .ok retyped => some (.int retyped)
      | .error _ => none
    else none
  | _, _ => none

def Value.coerce (value : Value) (expected : ValueType) (what : String) (site : Span) :
    Except Fault Value :=
  match value.coerce? expected with
  | some converted => .ok converted
  | none =>
    .error (site.fault (.typeMismatch what expected.text
      (value.type.text ++ " (value " ++ value.text ++ ")")))

end Monomorph
