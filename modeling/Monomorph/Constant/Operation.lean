import Monomorph.Constant.Value

/-! Operators on constant values.

Integer operators other than shifts bring both operands to the wider width. The
operation is signed when both operands are; otherwise the bit patterns are taken
as they are. Results wrap. Shifts keep the type of the shifted operand.
-/

set_option autoImplicit false

namespace Monomorph

namespace IntValue

def operand (value : IntValue) (width : Nat) (signed : Bool) : Word :=
  if signed then value.extended.truncate width else value.bits

/-- A shift by a negative amount, or by one of more than 64 bits, shifts everything out. -/
def shiftAmount (value : IntValue) : Nat := value.toCount?.getD (UInt64.size - 1)

def shiftLeft (value : IntValue) (amount : Nat) : Word :=
  if value.width ≤ amount then 0 else value.bits <<< amount

def shiftRight (value : IntValue) (amount : Nat) : Word :=
  if value.signed then value.extended.sshiftRight (min amount 127)
  else if maxWidth ≤ amount then 0
  else value.bits >>> amount

def shifted (value amount : IntValue) (bits : Word) : Value :=
  .int ⟨bits.truncate value.width, value.width, value.signed, value.sized || amount.sized⟩

def binary (op : BinaryOp) (a b : IntValue) : Except EvalError Value :=
  let width := max a.width b.width
  let signed := a.signed && b.signed
  let x := a.operand width signed
  let y := b.operand width signed
  -- the integers that comparison and division work on
  let left := x.read width signed
  let right := y.read width signed
  let int (bits : Word) : Except EvalError Value :=
    .ok (.int ⟨bits.truncate width, width, signed, a.sized || b.sized⟩)
  let bool (holds : Bool) : Except EvalError Value := .ok (.bool holds)
  match op with
  | .shl => .ok (shifted a b (a.shiftLeft b.shiftAmount))
  | .shr => .ok (shifted a b (a.shiftRight b.shiftAmount))
  | .add => int (x + y)
  | .sub => int (x - y)
  | .mul => int (x * y)
  | .div => if y = 0 then .error .divisionByZero else int (BitVec.ofInt 128 (left.tdiv right))
  | .rem => if y = 0 then .error .divisionByZero else int (BitVec.ofInt 128 (left.tmod right))
  | .pow =>
    match b.toCount? with
    | some exponent => int (x.power (min exponent (UInt32.size - 1)))
    | none => .error (.typeMismatch ("negative exponent " ++ b.text))
  | .bitAnd => int (x &&& y)
  | .bitOr => int (x ||| y)
  | .bitXor => int (x ^^^ y)
  | .eq => bool (x == y)
  | .ne => bool (x != y)
  | .lt => bool (left < right)
  | .le => bool (left ≤ right)
  | .gt => bool (right < left)
  | .ge => bool (right ≤ left)
  | .logicAnd => bool (a.bits != 0 && b.bits != 0)
  | .logicOr => bool (a.bits != 0 || b.bits != 0)

end IntValue

def boolBinary (op : BinaryOp) (a b : Bool) : Except EvalError Value :=
  match op with
  | .eq => .ok (.bool (a == b))
  | .ne => .ok (.bool (a != b))
  | .bitAnd => .ok (.bool (a && b))
  | .bitOr => .ok (.bool (a || b))
  | .bitXor => .ok (.bool (a ^^ b))
  | .logicAnd => .ok (.bool (a && b))
  | .logicOr => .ok (.bool (a || b))
  | _ => .error (.typeMismatch ("operator '" ++ op.symbol ++ "' is not defined for bool"))

namespace Value

/-- Logical operators take any operands; all others take two of one kind. -/
def binary (op : BinaryOp) (left right : Value) : Except EvalError Value :=
  match op, left, right with
  | .logicAnd, _, _ => .ok (.bool (left.isTruthy && right.isTruthy))
  | .logicOr, _, _ => .ok (.bool (left.isTruthy || right.isTruthy))
  | _, .int a, .int b => a.binary op b
  | _, .bool a, .bool b => boolBinary op a b
  | _, _, _ =>
    .error (.typeMismatch ("operator '" ++ op.symbol ++ "' applied to " ++ left.type.text ++ " and "
      ++ right.type.text))

/-- The negation of an integer whose width was not written is signed. -/
def unary (op : UnaryOp) (operand : Value) : Except EvalError Value :=
  match op, operand with
  | .not, value => .ok (.bool (!value.isTruthy))
  | .neg, .int value =>
    .ok (.int ⟨(-value.bits).truncate value.width, value.width, value.signed || !value.sized, value.sized⟩)
  | .bitNot, .int value => .ok (.int { value with bits := (~~~value.bits).truncate value.width })
  | .bitNot, .bool value => .ok (.bool !value)
  | .neg, .bool value => .error (.typeMismatch ("cannot negate " ++ (Value.bool value).type.text))

end Value
end Monomorph
