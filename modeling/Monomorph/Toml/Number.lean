import Monomorph.Toml.Text

/-! Integers, floats and dates of TOML texts.

Integers have 64 bits. Digits may be grouped by single underscores. Of floats only
the range matters: a positive one that rounds to infinity is refused. Dates and
times are checked field by field.
-/

set_option autoImplicit false

namespace Monomorph.Toml

def readMoreDigits (isDigit : Char → Bool) : List Char → Option (List Char × List Char)
  | [] => some ([], [])
  | ['_'] => none
  | '_' :: digit :: rest => do
    if !isDigit digit then none
    let (digits, rest) ← readMoreDigits isDigit rest
    return (digit :: digits, rest)
  | char :: rest =>
    if isDigit char then do
      let (digits, rest) ← readMoreDigits isDigit rest
      return (char :: digits, rest)
    else some ([], char :: rest)

def readDigits (isDigit : Char → Bool) : List Char → Option (List Char × List Char)
  | [] => none
  | first :: rest => do
    if !isDigit first then none
    let (digits, rest) ← readMoreDigits isDigit rest
    return (first :: digits, rest)

def readDecimal : List Char → Option (List Char × List Char)
  | '0' :: rest => some (['0'], rest)
  | text => readDigits Char.isDigit text

def numeral (base : Nat) (digits : List Char) : Nat :=
  digits.foldl (fun value digit => base * value + (hexValue? digit).getD 0) 0

def integer? (value : Int) : Option Item :=
  if -9223372036854775808 ≤ value ∧ value ≤ 9223372036854775807 then some (.integer value) else none

def isDigitOf (base : Nat) (char : Char) : Bool := (hexValue? char).any (· < base)

def readBased (base : Nat) (text : List Char) : Option (Item × List Char) := do
  let (digits, rest) ← readDigits (isDigitOf base) text
  return (← integer? (numeral base digits), rest)

/-- Whether `digits * 10 ^ exponent` rounds to infinity as a double. -/
def roundsToInfinity (digits : List Char) (exponent : Int) : Bool :=
  let digits := digits.dropWhile (· = '0')
  let magnitude := digits.length + exponent
  let value := numeral 10 digits
  -- half a unit above the largest double, where ties go up
  let limit := Nat.pow 2 1024 - Nat.pow 2 970
  if digits.isEmpty || magnitude < 300 then false
  else if 400 < magnitude then true
  else if 0 ≤ exponent then limit ≤ value * Nat.pow 10 exponent.toNat
  else limit * Nat.pow 10 (-exponent).toNat ≤ value

def readFraction : List Char → Option (Option (List Char) × List Char)
  | '.' :: rest => do
    let (digits, rest) ← readDigits Char.isDigit rest
    return (some digits, rest)
  | text => some (none, text)

def readSign : List Char → Bool × List Char
  | '-' :: rest => (true, rest)
  | '+' :: rest => (false, rest)
  | text => (false, text)

def readExponent : List Char → Option (Option Int × List Char)
  | [] => some (none, [])
  | mark :: rest =>
    if mark = 'e' ∨ mark = 'E' then do
      let (negative, rest) := readSign rest
      let (digits, rest) ← readDigits Char.isDigit rest
      let value : Int := numeral 10 digits
      return (some (if negative then -value else value), rest)
    else some (none, mark :: rest)

def readMagnitude (negative : Bool) (text : List Char) : Option (Item × List Char) := do
  let (digits, rest) ← readDecimal text
  let (fraction, rest) ← readFraction rest
  let (exponent, rest) ← readExponent rest
  if fraction.isNone && exponent.isNone then
    let value : Int := numeral 10 digits
    return (← integer? (if negative then -value else value), rest)
  else
    let fraction := fraction.getD []
    if !negative && roundsToInfinity (digits ++ fraction) (exponent.getD 0 - fraction.length) then none
    return (.float, rest)

/-- A number with an optional sign. Other bases take none. -/
def readNumber : List Char → Option (Item × List Char)
  | '0' :: 'x' :: rest => readBased 16 rest
  | '0' :: 'o' :: rest => readBased 8 rest
  | '0' :: 'b' :: rest => readBased 2 rest
  | text =>
    match readSign text with
    | (_, 'i' :: 'n' :: 'f' :: rest) => some (.float, rest)
    | (_, 'n' :: 'a' :: 'n' :: rest) => some (.float, rest)
    | (negative, rest) => readMagnitude negative rest

def readPair (least most : Nat) : List Char → Option (Nat × List Char)
  | a :: b :: rest =>
    let value := numeral 10 [a, b]
    if a.isDigit && b.isDigit && least ≤ value && value ≤ most then some (value, rest) else none
  | _ => none

def readChar (char : Char) : List Char → Option (List Char)
  | first :: rest => if first = char then some rest else none
  | [] => none

def daysInMonth (year month : Nat) : Nat :=
  if month = 2 then
    if year % 4 = 0 ∧ (year % 100 ≠ 0 ∨ year % 400 = 0) then 29 else 28
  else if month = 4 ∨ month = 6 ∨ month = 9 ∨ month = 11 then 30
  else 31

def readMonthDay (year : Nat) (text : List Char) : Option (List Char) := do
  let (month, text) ← readPair 1 12 text
  let text ← readChar '-' text
  let (_, text) ← readPair 1 (daysInMonth year month) text
  return text

def skipSecondFraction : List Char → List Char
  | '.' :: digit :: rest => if digit.isDigit then rest.dropWhile Char.isDigit else '.' :: digit :: rest
  | text => text

def readMinutes (text : List Char) : Option (List Char) := do
  let (_, text) ← readPair 0 59 text
  let text ← readChar ':' text
  let (_, text) ← readPair 0 60 text
  return skipSecondFraction text

def readOffset : List Char → Option (List Char)
  | [] => some []
  | mark :: rest =>
    if mark = 'Z' ∨ mark = 'z' then some rest
    else if mark = '+' ∨ mark = '-' then do
      let (_, rest) ← readPair 0 23 rest
      let rest ← readChar ':' rest
      let (_, rest) ← readPair 0 59 rest
      return rest
    else some (mark :: rest)

def afterHour? (text : List Char) : Option (List Char) := do
  let (_, text) ← readPair 0 23 text
  readChar ':' text

def readTimeOfDay : List Char → Option (List Char)
  | [] => some []
  | mark :: rest =>
    if mark = 'T' ∨ mark = 't' ∨ mark = ' ' then
      match afterHour? rest with
      | some minutes => do readOffset (← readMinutes minutes)
      | none => some (mark :: rest)
    else some (mark :: rest)

/-- What begins like a date or a time is one; all else is a number. -/
def readNumberOrDate (text : List Char) : Option (Item × List Char) :=
  match text with
  | a :: b :: c :: d :: '-' :: rest =>
    if [a, b, c, d].all Char.isDigit then do
      let rest ← readMonthDay (numeral 10 [a, b, c, d]) rest
      return (.datetime, ← readTimeOfDay rest)
    else readNumber text
  | _ =>
    match afterHour? text with
    | some minutes => do return (.datetime, ← readMinutes minutes)
    | none => readNumber text

end Monomorph.Toml
