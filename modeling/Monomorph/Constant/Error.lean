/-! What can go wrong in the evaluation of a constant expression. -/

set_option autoImplicit false

namespace Monomorph

inductive EvalError where
  | notConstant (reason : String)
  | undefinedSymbol (name : String)
  | typeMismatch (found : String)
  | divisionByZero
  | functionNotFound (name : String)
  | argumentCount (name : String) (expected found : Nat)
  | unsupportedWidth (width : Nat)
  deriving DecidableEq, Repr

def EvalError.message : EvalError → String
  | notConstant reason => "expression is not constant: " ++ reason
  | undefinedSymbol name => "undefined symbol '" ++ name ++ "'"
  | typeMismatch found => "type mismatch: " ++ found
  | divisionByZero => "division by zero"
  | functionNotFound name => "unknown const function '" ++ name ++ "'"
  | argumentCount name expected found =>
    "'" ++ name ++ "' expects " ++ toString expected ++ " argument(s), got " ++ toString found
  | unsupportedWidth width =>
    "width " ++ toString width ++ " is outside the supported range 1..=128"

end Monomorph
