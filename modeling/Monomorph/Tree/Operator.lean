/-! Operators of constant expressions and their symbols. -/

set_option autoImplicit false

namespace Monomorph

inductive BinaryOp where
  | add | sub | mul | div | rem | pow
  | shl | shr
  | bitAnd | bitOr | bitXor
  | logicAnd | logicOr
  | eq | ne | lt | le | gt | ge
  deriving DecidableEq, Repr

def BinaryOp.symbol : BinaryOp → String
  | add => "+"
  | sub => "-"
  | mul => "*"
  | div => "/"
  | rem => "%"
  | pow => "**"
  | shl => "<<"
  | shr => ">>"
  | bitAnd => "&"
  | bitOr => "|"
  | bitXor => "^"
  | logicAnd => "&&"
  | logicOr => "||"
  | eq => "=="
  | ne => "!="
  | lt => "<"
  | le => "<="
  | gt => ">"
  | ge => ">="

inductive UnaryOp where
  | neg | not | bitNot
  deriving DecidableEq, Repr

def UnaryOp.symbol : UnaryOp → String
  | neg => "-"
  | not => "!"
  | bitNot => "~"

end Monomorph
