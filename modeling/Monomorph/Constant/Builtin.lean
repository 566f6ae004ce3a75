import Monomorph.Constant.Operation

/-! Functions that constant expressions may call. -/

set_option autoImplicit false

namespace Monomorph

inductive Builtin where
  | clog2 | pow2 | isPowerOf2 | max | min
  deriving DecidableEq, Repr

namespace Builtin

def name : Builtin → String
  | clog2 => "clog2"
  | pow2 => "pow2"
  | isPowerOf2 => "is_power_of_2"
  | max => "max"
  | min => "min"

def all : List Builtin := [clog2, pow2, isPowerOf2, max, min]

/-- The function a call names. Leading dollar signs are not part of the name. -/
def find? (called : String) : Option Builtin :=
  let bare := String.ofList (called.toList.dropWhile (· = '$'))
  all.find? (·.name = bare)

def count (function : Builtin) (argument : Value) : Except EvalError Nat :=
  match argument.toCount? with
  | some n => .ok n
  | none =>
    .error (.typeMismatch
      (function.name ++ " requires a non-negative integer argument, found " ++ argument.text))

/-- The least exponent of two that reaches `n`. -/
def ceilLog2 (n : Nat) : Nat := if n ≤ 1 then 0 else (n - 1).log2 + 1

def isPower (n : Nat) : Bool := n != 0 && n == twoPow n.log2

/-- The larger or smaller of two values by the greater-than operator. Of two equal
ones, `max` takes the second and `min` the first. -/
def pick (first second : Value) (greater : Bool) : Except EvalError Value := do
  let isGreater ← Value.binary .gt first second
  return if isGreater.isTruthy == greater then first else second

def apply (function : Builtin) (defaultWidth : Nat) (arguments : List Value) : Except EvalError Value :=
  match function, arguments with
  | clog2, [argument] => do
    let n ← clog2.count argument
    return .int (.ofLiteral (BitVec.ofNat 128 (ceilLog2 n)) defaultWidth)
  | pow2, [argument] => do
    let n ← pow2.count argument
    if maxWidth ≤ n then throw (.unsupportedWidth (n + 1))
    return .int (.ofLiteral (BitVec.ofNat 128 (twoPow n)) defaultWidth)
  | isPowerOf2, [argument] => do
    let n ← isPowerOf2.count argument
    return .bool (isPower n)
  | max, [first, second] => pick first second true
  | min, [first, second] => pick first second false
  | clog2, _ | pow2, _ | isPowerOf2, _ => .error (.argumentCount function.name 1 arguments.length)
  | max, _ | min, _ => .error (.argumentCount function.name 2 arguments.length)

end Builtin
end Monomorph
