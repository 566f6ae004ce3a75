import Monomorph.Text.Hexadecimal

/-! Escapes in JSON strings.

A string token is the text between its quotes as it is written. `escape` writes a
text as a token and `unescape?` reads a token back. A code unit of a surrogate
pair that stands alone names no character, so such a token has no text.
-/

set_option autoImplicit false

namespace Monomorph.Json

/-- Quotes, backslashes and control characters below `0x20` are escaped, nothing else. -/
def escapeChar (char : Char) : List Char :=
  if char = '"' then ['\\', '"']
  else if char = '\\' then ['\\', '\\']
  else if char = '\x08' then ['\\', 'b']
  else if char = '\t' then ['\\', 't']
  else if char = '\n' then ['\\', 'n']
  else if char = '\x0c' then ['\\', 'f']
  else if char = '\r' then ['\\', 'r']
  else if char.toNat < 0x20 then
    ['\\', 'u', '0', '0', Nat.digitChar (char.toNat / 16), Nat.digitChar (char.toNat % 16)]
  else [char]

def escape (text : List Char) : List Char := text.flatMap escapeChar

def unescapeChar? : Char → Option Char
  | '"' => some '"'
  | '\\' => some '\\'
  | '/' => some '/'
  | 'b' => some '\x08'
  | 'f' => some '\x0c'
  | 'n' => some '\n'
  | 'r' => some '\r'
  | 't' => some '\t'
  | _ => none

def isLeading (unit : Nat) : Bool := 0xD800 ≤ unit && unit < 0xDC00

def isTrailing (unit : Nat) : Bool := 0xDC00 ≤ unit && unit < 0xE000

def pair (leading trailing : Nat) : Char :=
  Char.ofNat (0x10000 + (leading - 0xD800) * 0x400 + (trailing - 0xDC00))

def unescape? : List Char → Option (List Char)
  | [] => some []
  | '\\' :: 'u' :: a :: b :: c :: d :: rest => do
    let unit ← hexUnit? a b c d
    if isLeading unit then
      match rest with
      | '\\' :: 'u' :: e :: f :: g :: h :: rest => do
        let trailing ← hexUnit? e f g h
        if isTrailing trailing then
          let text ← unescape? rest
          return pair unit trailing :: text
        else none
      | _ => none
    else if isTrailing unit then none
    else
      let text ← unescape? rest
      return Char.ofNat unit :: text
  | '\\' :: letter :: rest => do
    let char ← unescapeChar? letter
    let text ← unescape? rest
    return char :: text
  | ['\\'] => none
  | char :: rest => do
    let text ← unescape? rest
    return char :: text

end Monomorph.Json
