import Monomorph.Constant.Error
import Monomorph.Tree.Expr

/-! Integer constants with a width and a signedness.

The bits of a value are its two's-complement pattern, and `toInt` is the integer
it denotes. A value also remembers whether its width was written in the source.
That spelling does not make two values different: `same` leaves it out.
-/

set_option autoImplicit false

namespace Monomorph

def defaultIntegerWidth : Nat := 32

structure IntValue where
  bits : Word
  width : Nat
  signed : Bool
  sized : Bool
  deriving DecidableEq, Repr

namespace IntValue

def ofBits (bits : Word) (width : Nat) (signed : Bool) : Except EvalError IntValue :=
  if width = 0 ∨ maxWidth < width then .error (.unsupportedWidth width)
  else .ok ⟨bits.truncate width, width, signed, true⟩

/-- A literal without a width has the default one, or more if its digits need it. -/
def ofLiteral (value : Word) (defaultWidth : Nat) : IntValue :=
  ⟨value, max (min (max defaultWidth 1) maxWidth) (max value.length 1), false, false⟩

/-- The representation invariant: the pattern has no bits above the width. -/
def WellFormed (value : IntValue) : Prop :=
  1 ≤ value.width ∧ value.width ≤ maxWidth ∧ value.bits.toNat < twoPow value.width

instance (value : IntValue) : Decidable value.WellFormed :=
  inferInstanceAs (Decidable (_ ∧ _ ∧ _))

def toInt (value : IntValue) : Int := value.bits.read value.width value.signed

def isNegative (value : IntValue) : Bool := value.signed && value.bits.getLsbD (value.width - 1)

/-- The pattern with its sign repeated up to the widest width. -/
def extended (value : IntValue) : Word := BitVec.ofInt 128 value.toInt

/-- The reading of the extended pattern as a signed integer of the widest width.
It differs from `toInt` on unsigned values with the topmost bit set. -/
def toSigned (value : IntValue) : Int := value.extended.toInt

def toCount? (value : IntValue) : Option Nat :=
  if value.isNegative then none
  else if value.bits.toNat < UInt64.size then some value.bits.toNat
  else none

def fits (value : IntValue) (width : Nat) (signed : Bool) : Bool :=
  if width = 0 ∨ maxWidth < width then false
  else if value.isNegative then
    signed && (width == maxWidth || decide (-(twoPow (width - 1) : Int) ≤ value.toSigned))
  else if signed then value.bits.length < width
  else value.bits.length ≤ width

/-- The value in another width and signedness, which then count as written. -/
def retyped (value : IntValue) (width : Nat) (signed : Bool) : Except EvalError IntValue :=
  ofBits value.extended width signed

/-- Equality of values. Whether the width was written does not matter. -/
def same (first second : IntValue) : Bool :=
  first.width == second.width && first.signed == second.signed && first.bits == second.bits

/-- An expression that evaluates to this value under the given default width.
The spelling without a width is kept where it denotes the same value. -/
def toExpr (value : IntValue) (defaultWidth : Nat) : Expr :=
  let written := Expr.literal (.int value.bits (some value.width) value.signed)
  if value.sized then written
  else if !value.signed then
    if (ofLiteral value.bits defaultWidth).same value then .int value.bits else written
  else if value.isNegative then
    -- the magnitude has to bring the width along by itself
    let magnitude := (-value.extended).truncate value.width
    if (ofLiteral magnitude defaultWidth).width = value.width then .unary .neg (.int magnitude)
    else written
  else written

def text (value : IntValue) : String :=
  if value.sized then (Literal.int value.bits (some value.width) value.signed).text
  else toString value.toSigned

end IntValue
end Monomorph
