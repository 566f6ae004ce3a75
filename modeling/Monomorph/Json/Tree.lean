/-! JSON trees and their indented form.

Strings and numbers are kept as the tokens that are written for them, so that a
reader decides for itself which of them it needs the values of.
-/

set_option autoImplicit false

namespace Monomorph

inductive Json where
  | null
  | bool (value : Bool)
  | number (token : List Char)
  | string (token : List Char)
  | array (elements : List Json)
  | object (fields : List (List Char × Json))
  deriving Repr

namespace Json

def indentation (level : Nat) : List Char := List.replicate (2 * level) ' '

def quoted (token : List Char) : List Char := '"' :: token ++ ['"']

mutual
/-- Elements and fields stand on lines of their own, one level in. Empty arrays and
objects take no lines. -/
def render (level : Nat) : Json → List Char
  | null => ['n', 'u', 'l', 'l']
  | bool true => ['t', 'r', 'u', 'e']
  | bool false => ['f', 'a', 'l', 's', 'e']
  | number token => token
  | string token => quoted token
  | array [] => ['[', ']']
  | array (first :: rest) =>
    '[' :: '\n' :: indentation (level + 1) ++ render (level + 1) first
      ++ renderElements (level + 1) rest ++ '\n' :: indentation level ++ [']']
  | object [] => ['{', '}']
  | object ((key, value) :: rest) =>
    '{' :: '\n' :: indentation (level + 1) ++ quoted key ++ [':', ' '] ++ render (level + 1) value
      ++ renderFields (level + 1) rest ++ '\n' :: indentation level ++ ['}']

def renderElements (level : Nat) : List Json → List Char
  | [] => []
  | first :: rest =>
    ',' :: '\n' :: indentation level ++ render level first ++ renderElements level rest

def renderFields (level : Nat) : List (List Char × Json) → List Char
  | [] => []
  | (key, value) :: rest =>
    ',' :: '\n' :: indentation level ++ quoted key ++ [':', ' '] ++ render level value
      ++ renderFields level rest
end

end Json
end Monomorph
