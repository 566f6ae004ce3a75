/-! Bit patterns of constants.

A pattern is kept at the widest width. Narrower values use its low bits, and `read`
is the integer that such a part denotes.
-/

set_option autoImplicit false

namespace Monomorph

def twoPow (exponent : Nat) : Nat := Nat.pow 2 exponent

def maxWidth : Nat := 128

abbrev Word := BitVec 128

namespace Word

def truncate (width : Nat) (bits : Word) : Word := BitVec.ofNat 128 (bits.toNat % twoPow width)

/-- Positions up to the highest set bit. -/
def length (bits : Word) : Nat := if bits = 0 then 0 else bits.toNat.log2 + 1

def read (bits : Word) (width : Nat) (signed : Bool) : Int :=
  if signed && bits.getLsbD (width - 1) then (bits.toNat : Int) - twoPow width else bits.toNat

/-- Repeated squaring, so that large exponents cost one step per bit. -/
def power (base : Word) (exponent : Nat) : Word :=
  if exponent = 0 then 1
  else
    let half := power (base * base) (exponent / 2)
    if exponent % 2 = 1 then base * half else half
termination_by exponent

end Word
end Monomorph
