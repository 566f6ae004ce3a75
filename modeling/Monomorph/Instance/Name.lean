/-! Numbered instances of generic packages and the names they are emitted under.

Instance `n` of package `Base` is named `__Base__n`. Source identifiers may not
start with `__`, so no declared name has this form. The number follows the last
marker, so that bases which contain the marker themselves are read back as well.
-/

set_option autoImplicit false

namespace Monomorph

/-- The number of an instance, unique within its base package. -/
structure InstanceId where
  number : Nat
  positive : 0 < number
  bounded : number < UInt32.size
  deriving DecidableEq, Repr

def InstanceId.ofNat? (number : Nat) : Option InstanceId :=
  if h : 0 < number ∧ number < UInt32.size then some ⟨number, h.1, h.2⟩ else none

theorem InstanceId.number_of_ofNat? {number : Nat} {id : InstanceId}
    (made : InstanceId.ofNat? number = some id) : id.number = number := by
  unfold InstanceId.ofNat? at made
  split at made
  · cases made
    rfl
  · cases made

theorem InstanceId.ofNat?_number (id : InstanceId) : InstanceId.ofNat? id.number = some id := by
  unfold InstanceId.ofNat?
  rw [dif_pos ⟨id.positive, id.bounded⟩]

theorem InstanceId.eq_of_number_eq {first second : InstanceId} (same : first.number = second.number) :
    first = second := by
  cases first
  cases second
  cases same
  rfl

structure Instance where
  base : String
  id : InstanceId
  deriving DecidableEq, Repr

def marker : String := "__"

/-- Whether an identifier may only be a generated name. -/
def isReserved (name : String) : Bool := name.toList.take 2 == ['_', '_']

def cutAtMarker : List Char → Option (List Char × List Char)
  | [] => none
  | first :: rest =>
    match cutAtMarker rest with
    | some (before, after) => some (first :: before, after)
    | none =>
      match first, rest with
      | '_', '_' :: after => some ([], after)
      | _, _ => none

/-- A decimal number without leading zeros. -/
def InstanceId.parse? (digits : List Char) : Option InstanceId :=
  if digits.isEmpty || digits.head? == some '0' || !digits.all Char.isDigit then none
  else InstanceId.ofNat? (Nat.ofDigitChars 10 digits 0)

namespace Instance

def name (target : Instance) : String := marker ++ target.base ++ marker ++ toString target.id.number

def parse? (name : String) : Option Instance :=
  match name.toList with
  | '_' :: '_' :: rest => do
    let (base, digits) ← cutAtMarker rest
    if base.isEmpty then none
    let id ← InstanceId.parse? digits
    some ⟨String.ofList base, id⟩
  | _ => none

end Instance
end Monomorph
