import Monomorph.Constant.Word
import Monomorph.Tree.Operator
import Monomorph.Tree.Span

/-! Constant expressions and package-qualified references.

A reference `Pkg::<args>::Member` carries its generic arguments as unevaluated
expressions. Expressions hold lists of expressions, so each walk comes as a pair
of functions, one on an expression and one on a list.
-/

set_option autoImplicit false

namespace Monomorph

/-- Literals as written. An integer without a width has a default one. -/
inductive Literal where
  | int (value : Word) (width : Option Nat) (signed : Bool)
  | bool (value : Bool)
  deriving DecidableEq, Repr

namespace Literal

/-- Digits of a sized signed pattern: a set top bit is written as a sign and the
distance to the next power of two. -/
def signedText (value : Word) (width : Nat) : String :=
  if 0 < width && value.getLsbD (min (width - 1) 127) then
    let magnitude := if maxWidth ≤ width then (-value).toNat else twoPow width - value.toNat
    "-" ++ toString width ++ "'sd" ++ toString magnitude
  else
    toString width ++ "'sd" ++ toString value.toNat

def text : Literal → String
  | bool value => toString value
  | int value none _ => toString value.toNat
  | int value (some width) false => toString width ++ "'d" ++ toString value.toNat
  | int value (some width) true => signedText value width

end Literal

inductive Expr where
  | literal (value : Literal)
  | ident (name : String)
  | reference (package : String) (arguments : List Expr) (members : List String) (span : Span)
  | binary (op : BinaryOp) (left right : Expr)
  | unary (op : UnaryOp) (operand : Expr)
  | call (function : String) (arguments : List Expr)
  | ternary (condition whenTrue whenFalse : Expr)
  | field (base : Expr) (name : String)
  deriving Repr

structure Reference where
  package : String
  arguments : List Expr
  members : List String
  span : Span
  deriving Repr

namespace Expr

def int (value : Word) : Expr := literal (.int value none false)

def ofReference (reference : Reference) : Expr :=
  .reference reference.package reference.arguments reference.members reference.span

mutual
def text : Expr → String
  | literal value => value.text
  | ident name => name
  | reference package arguments members _ =>
    package ++ (if arguments.isEmpty then "" else "::<" ++ listText arguments ++ ">")
      ++ String.join (members.map ("::" ++ ·))
  | binary op left right => "(" ++ left.text ++ " " ++ op.symbol ++ " " ++ right.text ++ ")"
  | unary op operand => op.symbol ++ operand.text
  | call function arguments => function ++ "(" ++ listText arguments ++ ")"
  | ternary condition whenTrue whenFalse =>
    "(" ++ condition.text ++ " ? " ++ whenTrue.text ++ " : " ++ whenFalse.text ++ ")"
  | field base name => base.text ++ "." ++ name

def listText : List Expr → String
  | [] => ""
  | [only] => only.text
  | first :: rest => first.text ++ ", " ++ listText rest
end

mutual
def mentions (names : List String) : Expr → Bool
  | literal _ => false
  | ident name => names.contains name
  | reference _ arguments _ _ => listMentions names arguments
  | binary _ left right => left.mentions names || right.mentions names
  | unary _ operand => operand.mentions names
  | call _ arguments => listMentions names arguments
  | ternary condition whenTrue whenFalse =>
    condition.mentions names || whenTrue.mentions names || whenFalse.mentions names
  | field base _ => base.mentions names

def listMentions (names : List String) : List Expr → Bool
  | [] => false
  | first :: rest => first.mentions names || listMentions names rest
end

end Expr

namespace Reference

def text (reference : Reference) : String := (Expr.ofReference reference).text

end Reference
end Monomorph
