import Monomorph.Proofs.Constant.WellFormed

/-! Evaluation by the steps of a machine.

A machine has words of 128 bits, signed and unsigned counts of fixed sizes, and lists that
are read by position. Some of its steps cannot be taken: it does not shift by the length
of a word, divide by zero, take a larger number from a smaller one or read beyond the end
of a list. Here evaluation is written with such steps only, each of them guarded, so that
what a step cannot do becomes a trap. Traps are kept apart from the errors of evaluation.
-/

set_option autoImplicit false

namespace Monomorph

/-- Steps that a machine does not take. -/
inductive Trap where
  /-- A shift by the length of a word or more. -/
  | shift
  /-- A difference below zero. -/
  | borrow
  /-- The successor of the largest count. -/
  | carry (count : Nat)
  | division
  /-- The logarithm of zero. -/
  | logarithm
  /-- A position beyond the end of a list. -/
  | index
  | unreachable
  deriving DecidableEq, Repr

inductive Halt (ε : Type) where
  | trap (trap : Trap)
  | error (error : ε)

namespace Guarded

abbrev Step := Except (Halt EvalError)

def trap {α : Type} (trap : Trap) : Step α := .error (.trap trap)

def fail {α : Type} (error : EvalError) : Step α := .error (.error error)

def shiftLeft (bits : Word) (amount : Nat) : Step Word :=
  if amount < maxWidth then .ok (bits <<< amount) else trap .shift

def shiftRight (bits : Word) (amount : Nat) : Step Word :=
  if amount < maxWidth then .ok (bits >>> amount) else trap .shift

def shiftSigned (bits : Word) (amount : Nat) : Step Word :=
  if amount < maxWidth then .ok (bits.sshiftRight amount) else trap .shift

def difference (first second : Nat) : Step Nat :=
  if second ≤ first then .ok (first - second) else trap .borrow

def successor (size count : Nat) : Step Nat :=
  if count + 1 < size then .ok (count + 1) else trap (.carry count)

def divide (act : Word → Word → Word) (dividend divisor : Word) : Step Word :=
  if divisor = 0 then trap .division else .ok (act dividend divisor)

def logarithm (count : Nat) : Step Nat := if count = 0 then trap .logarithm else .ok count.log2

def element (values : List Value) (position : Nat) : Step Value :=
  match values[position]? with
  | some value => .ok value
  | none => trap .index

def mask (width : Nat) : Step Word :=
  if maxWidth ≤ width then .ok (BitVec.allOnes 128)
  else do
    let next ← shiftLeft 1 width
    let ones ← difference next.toNat 1
    return BitVec.ofNat 128 ones

/-- The sign of a narrow pattern repeated up to the length of a word, by moving the pattern up and down again. -/
def signExtend (bits : Word) (width : Nat) : Step Word :=
  if maxWidth ≤ width then .ok bits
  else do
    let amount ← difference maxWidth width
    let high ← shiftLeft bits amount
    shiftSigned high amount

def isNegative (value : IntValue) : Step Bool :=
  if value.signed then do
    let position ← difference value.width 1
    let top ← shiftRight value.bits position
    return top &&& 1 == 1
  else .ok false

def toCount? (value : IntValue) : Step (Option Nat) := do
  let negative ← isNegative value
  return if negative then none
    else if value.bits.toNat < UInt64.size then some value.bits.toNat
    else none

def withBits (bits : Word) (width : Nat) (signed sized : Bool) : Step IntValue := do
  let low ← mask width
  return ⟨bits &&& low, width, signed, sized⟩

def ofBits (bits : Word) (width : Nat) (signed : Bool) : Step IntValue :=
  if width = 0 ∨ maxWidth < width then fail (.unsupportedWidth width) else withBits bits width signed true

def ofLiteral (value : Word) (defaultWidth : Nat) : Step IntValue := do
  let needed ← difference maxWidth value.clz.toNat
  return ⟨value, max (min (max defaultWidth 1) maxWidth) (max needed 1), false, false⟩

def retyped (value : IntValue) (width : Nat) (signed : Bool) : Step IntValue := do
  let bits ← if value.signed then signExtend value.bits value.width else .ok value.bits
  ofBits bits width signed

def operand (value : IntValue) (width : Nat) (signed : Bool) : Step Word :=
  if signed then do
    let extended ← signExtend value.bits value.width
    let low ← mask width
    return extended &&& low
  else .ok value.bits

def shifted (op : BinaryOp) (a b : IntValue) : Step Word := do
  let count ← toCount? b
  let amount := count.getD (UInt64.size - 1)
  if op = .shl then
    if a.width ≤ amount then .ok 0 else shiftLeft a.bits amount
  else if a.signed then
    let extended ← signExtend a.bits a.width
    shiftSigned extended (min amount 127)
  else if maxWidth ≤ amount then .ok 0
  else shiftRight a.bits amount

def divided (onSigned onUnsigned : Word → Word → Word) (width : Nat) (signed : Bool) (x y : Word) : Step Word := do
  let low ← mask width
  if y &&& low = 0 then fail .divisionByZero
  else if signed then
    let dividend ← signExtend x width
    let divisor ← signExtend y width
    divide onSigned dividend divisor
  else divide onUnsigned x y

def compared (width : Nat) (signed : Bool) (x y : Word) : Step Ordering :=
  if signed then do
    let left ← signExtend x width
    let right ← signExtend y width
    return compare left.toInt right.toInt
  else .ok (compare (x.toNat : Int) y.toNat)

def intBinary (op : BinaryOp) (a b : IntValue) : Step Value :=
  if op = .shl ∨ op = .shr then do
    let bits ← shifted op a b
    let result ← withBits bits a.width a.signed (a.sized || b.sized)
    return .int result
  else do
    let width := max a.width b.width
    let signed := a.signed && b.signed
    let x ← operand a width signed
    let y ← operand b width signed
    let int (bits : Word) : Step Value := Value.int <$> withBits bits width signed (a.sized || b.sized)
    match op with
    | .add => int (x + y)
    | .sub => int (x - y)
    | .mul => int (x * y)
    | .div =>
      let bits ← divided BitVec.sdiv (· / ·) width signed x y
      int bits
    | .rem =>
      let bits ← divided BitVec.srem (· % ·) width signed x y
      int bits
    | .pow =>
      let count ← toCount? b
      match count with
      | some exponent => int (x.power (min exponent (UInt32.size - 1)))
      | none => fail (.typeMismatch ("negative exponent " ++ b.text))
    | .bitAnd => int (x &&& y)
    | .bitOr => int (x ||| y)
    | .bitXor => int (x ^^^ y)
    | .eq => return .bool (x == y)
    | .ne => return .bool (x != y)
    | .lt => return .bool (← compared width signed x y).isLT
    | .le => return .bool (← compared width signed x y).isLE
    | .gt => return .bool (← compared width signed x y).isGT
    | .ge => return .bool (← compared width signed x y).isGE
    | .shl | .shr | .logicAnd | .logicOr => trap .unreachable

def binary (op : BinaryOp) (left right : Value) : Step Value :=
  match op, left, right with
  | .logicAnd, _, _ => .ok (.bool (left.isTruthy && right.isTruthy))
  | .logicOr, _, _ => .ok (.bool (left.isTruthy || right.isTruthy))
  | _, .int a, .int b => intBinary op a b
  | _, .bool a, .bool b => (boolBinary op a b).mapError .error
  | _, _, _ =>
    fail (.typeMismatch ("operator '" ++ op.symbol ++ "' applied to " ++ left.type.text ++ " and "
      ++ right.type.text))

def unary (op : UnaryOp) (operand : Value) : Step Value :=
  match op, operand with
  | .not, value => .ok (.bool (!value.isTruthy))
  | .neg, .int value =>
    Value.int <$> withBits (-value.bits) value.width (value.signed || !value.sized) value.sized
  | .bitNot, .int value => Value.int <$> withBits (~~~value.bits) value.width value.signed value.sized
  | .bitNot, .bool value => .ok (.bool !value)
  | .neg, .bool value => fail (.typeMismatch ("cannot negate " ++ (Value.bool value).type.text))

def arity (function : Builtin) (arguments : List Value) (expected : Nat) : Step Unit :=
  if arguments.length = expected then .ok ()
  else fail (.argumentCount function.name expected arguments.length)

def valueCount? : Value → Step (Option Nat)
  | .int value => toCount? value
  | .bool _ => .ok none

def count (function : Builtin) (argument : Value) : Step Nat := do
  let found ← valueCount? argument
  match found with
  | some n => return n
  | none =>
    fail (.typeMismatch
      (function.name ++ " requires a non-negative integer argument, found " ++ argument.text))

def onlyCount (function : Builtin) (arguments : List Value) : Step Nat := do
  arity function arguments 1
  let argument ← element arguments 0
  count function argument

def pick (function : Builtin) (arguments : List Value) (greater : Bool) : Step Value := do
  arity function arguments 2
  let first ← element arguments 0
  let second ← element arguments 1
  let isGreater ← binary .gt first second
  if isGreater.isTruthy == greater then element arguments 0 else element arguments 1

def ceilLog2 (n : Nat) : Step Nat :=
  if n ≤ 1 then .ok 0
  else do
    let before ← difference n 1
    let floor ← logarithm before
    successor UInt32.size floor

/-- The width that a power of two needs is one more than its exponent, and is reported where it is too large. -/
def pow2 (n defaultWidth : Nat) : Step Value :=
  if maxWidth ≤ n then do
    let width ← successor UInt64.size n
    fail (.unsupportedWidth width)
  else do
    let bits ← shiftLeft 1 n
    Value.int <$> ofLiteral bits defaultWidth

def apply (function : Builtin) (defaultWidth : Nat) (arguments : List Value) : Step Value :=
  match function with
  | .clog2 => do
    let n ← onlyCount .clog2 arguments
    let result ← ceilLog2 n
    Value.int <$> ofLiteral (BitVec.ofNat 128 result) defaultWidth
  | .pow2 => do
    let n ← onlyCount .pow2 arguments
    pow2 n defaultWidth
  | .isPowerOf2 => do
    let n ← onlyCount .isPowerOf2 arguments
    return .bool (Builtin.isPower n)
  | .max => pick .max arguments true
  | .min => pick .min arguments false

def literal (defaultWidth : Nat) : Literal → Step Value
  | .bool value => .ok (.bool value)
  | .int value none _ => Value.int <$> ofLiteral value defaultWidth
  | .int value (some width) signed => Value.int <$> ofBits value width signed

variable {ε : Type} {m : Type → Type} [Monad m]

def take {α : Type} (resolver : Resolver ε m) (step : Step α) : ExceptT (Halt ε) m α :=
  match step with
  | .ok value => pure value
  | .error (.trap trap) => throw (.trap trap)
  | .error (.error error) => throw (.error (resolver.raise error))

mutual

def eval (evaluator : Evaluator) (resolver : Resolver ε m) : Expr → ExceptT (Halt ε) m Value
  | .literal value => take resolver (literal evaluator.defaultWidth value)
  | .ident name =>
    match evaluator.bindings.get? name with
    | some value => pure value
    | none => (resolver.ident name).adapt .error
  | .reference package arguments members span =>
    (resolver.reference ⟨package, arguments, members, span⟩).adapt .error
  | .binary op left right => do
    let left ← eval evaluator resolver left
    let right ← eval evaluator resolver right
    take resolver (binary op left right)
  | .unary op operand => do
    let operand ← eval evaluator resolver operand
    take resolver (unary op operand)
  | .call function arguments =>
    match Builtin.find? function with
    | none => take resolver (fail (.functionNotFound function))
    | some builtin => do
      let arguments ← evalList evaluator resolver arguments
      take resolver (apply builtin evaluator.defaultWidth arguments)
  | .ternary condition whenTrue whenFalse => do
    let condition ← eval evaluator resolver condition
    if condition.isTruthy then eval evaluator resolver whenTrue else eval evaluator resolver whenFalse
  | .field base name =>
    take resolver (fail (.notConstant
      ("member access '" ++ base.text ++ "." ++ name ++ "' is not a compile-time constant")))

def evalList (evaluator : Evaluator) (resolver : Resolver ε m) : List Expr → ExceptT (Halt ε) m (List Value)
  | [] => pure []
  | first :: rest => do
    let first ← eval evaluator resolver first
    let rest ← evalList evaluator resolver rest
    pure (first :: rest)

end
end Guarded
end Monomorph
