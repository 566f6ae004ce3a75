import Monomorph.Json.Text
import Monomorph.Json.Tree

/-! Reading JSON texts.

Readers take the text that is left and give back what follows the part they have
read. Values nest, so their readers go down from a depth; a text as long as the
one read never needs more than the depth `parse?` starts with.
-/

set_option autoImplicit false

namespace Monomorph.Json

def isBlank (char : Char) : Bool := char = ' ' || char = '\t' || char = '\n' || char = '\r'

def skipBlanks (text : List Char) : List Char := text.dropWhile isBlank

def readString : List Char → Option (List Char × List Char)
  | [] => none
  | '"' :: rest => some ([], rest)
  | '\\' :: 'u' :: a :: b :: c :: d :: rest => do
    let _ ← hexUnit? a b c d
    let (token, rest) ← readString rest
    return ('\\' :: 'u' :: a :: b :: c :: d :: token, rest)
  | '\\' :: letter :: rest => do
    let _ ← unescapeChar? letter
    let (token, rest) ← readString rest
    return ('\\' :: letter :: token, rest)
  | ['\\'] => none
  | char :: rest => do
    if char.toNat < 0x20 then none
    let (token, rest) ← readString rest
    return (char :: token, rest)

def readDigits (text : List Char) : Option (List Char × List Char) :=
  let digits := text.takeWhile Char.isDigit
  if digits.isEmpty then none else some (digits, text.dropWhile Char.isDigit)

def readInteger : List Char → Option (List Char × List Char)
  | '0' :: rest => if (rest.head?.any Char.isDigit) then none else some (['0'], rest)
  | text => readDigits text

def readFraction : List Char → Option (List Char × List Char)
  | '.' :: rest => do
    let (digits, rest) ← readDigits rest
    return ('.' :: digits, rest)
  | text => some ([], text)

def readSign : List Char → List Char × List Char
  | '-' :: rest => (['-'], rest)
  | '+' :: rest => (['+'], rest)
  | text => ([], text)

def readExponent : List Char → Option (List Char × List Char)
  | [] => some ([], [])
  | mark :: rest =>
    if mark = 'e' ∨ mark = 'E' then do
      let (sign, rest) := readSign rest
      let (digits, rest) ← readDigits rest
      return (mark :: sign ++ digits, rest)
    else some ([], mark :: rest)

def readMagnitude (text : List Char) : Option (List Char × List Char) := do
  let (integer, text) ← readInteger text
  let (fraction, text) ← readFraction text
  let (exponent, text) ← readExponent text
  return (integer ++ fraction ++ exponent, text)

def readNumber : List Char → Option (List Char × List Char)
  | '-' :: rest => do
    let (token, rest) ← readMagnitude rest
    return ('-' :: token, rest)
  | text => readMagnitude text

def readKey (text : List Char) : Option (List Char × List Char) :=
  match skipBlanks text with
  | '"' :: rest => do
    let (key, rest) ← readString rest
    match skipBlanks rest with
    | ':' :: rest => some (key, rest)
    | _ => none
  | _ => none

mutual
def readValue : Nat → List Char → Option (Json × List Char)
  | 0, _ => none
  | depth + 1, text =>
    match skipBlanks text with
    | 'n' :: 'u' :: 'l' :: 'l' :: rest => some (.null, rest)
    | 't' :: 'r' :: 'u' :: 'e' :: rest => some (.bool true, rest)
    | 'f' :: 'a' :: 'l' :: 's' :: 'e' :: rest => some (.bool false, rest)
    | '"' :: rest => do
      let (token, rest) ← readString rest
      return (.string token, rest)
    | '[' :: rest =>
      match skipBlanks rest with
      | ']' :: rest => some (.array [], rest)
      | rest => do
        let (elements, rest) ← readElements depth rest
        return (.array elements, rest)
    | '{' :: rest =>
      match skipBlanks rest with
      | '}' :: rest => some (.object [], rest)
      | rest => do
        let (fields, rest) ← readFields depth rest
        return (.object fields, rest)
    | text => do
      let (token, rest) ← readNumber text
      return (.number token, rest)

def readElements : Nat → List Char → Option (List Json × List Char)
  | 0, _ => none
  | depth + 1, text => do
    let (first, text) ← readValue depth text
    match skipBlanks text with
    | ']' :: text => some ([first], text)
    | ',' :: text => do
      let (rest, text) ← readElements depth text
      return (first :: rest, text)
    | _ => none

def readFields : Nat → List Char → Option (List (List Char × Json) × List Char)
  | 0, _ => none
  | depth + 1, text => do
    let (key, text) ← readKey text
    let (value, text) ← readValue depth text
    match skipBlanks text with
    | '}' :: text => some ([(key, value)], text)
    | ',' :: text => do
      let (rest, text) ← readFields depth text
      return ((key, value) :: rest, text)
    | _ => none
end

def parse? (text : List Char) : Option Json := do
  let (value, rest) ← readValue (2 * text.length + 2) text
  if (skipBlanks rest).isEmpty then some value else none

end Monomorph.Json
