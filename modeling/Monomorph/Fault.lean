import Monomorph.Constant.Error
import Monomorph.Tree.Span

/-! Faults that the pass reports.

A fault is a cause and the place it points at. Evaluation errors become faults
once it is known what was evaluated and where; until then they travel as a
`Stop`, next to faults that are already complete.
-/

set_option autoImplicit false

namespace Monomorph

inductive Cause where
  | arityMismatch (package : String) (expected found : Nat)
  | notConstant (what reason : String)
  | typeMismatch (what expected found : String)
  | unknownInstance (package : String) (id : Nat)
  | instanceOverflow (package : String)
  | unresolvedDependency (name : String)
  | cyclicConstant (chain : List String)
  | evaluation (what : String) (error : EvalError)
  | recursionLimit (package : String) (limit : Nat)
  | duplicateDeclaration (name : String)
  | reservedIdentifier (name : String)
  deriving DecidableEq, Repr

def Cause.message : Cause → String
  | arityMismatch package expected found =>
    "package '" ++ package ++ "' expects " ++ toString expected ++ " generic argument(s), found "
      ++ toString found
  | notConstant what reason => what ++ " is not a compile-time constant: " ++ reason
  | typeMismatch what expected found => what ++ " has type " ++ found ++ ", expected " ++ expected
  | unknownInstance package id => "no instance " ++ toString id ++ " of package '" ++ package ++ "'"
  | instanceOverflow package => "package '" ++ package ++ "' has run out of instance ids"
  | unresolvedDependency name => "cannot resolve '" ++ name ++ "'"
  | cyclicConstant chain => "cyclic constant dependency: " ++ " -> ".intercalate chain
  | evaluation what error => "failed to evaluate " ++ what ++ ": " ++ error.message
  | recursionLimit package limit =>
    "instantiating '" ++ package ++ "' exceeds the nesting limit of " ++ toString limit
  | duplicateDeclaration name => "'" ++ name ++ "' is declared more than once"
  | reservedIdentifier name => "identifier '" ++ name ++ "' uses the reserved '__' prefix"

structure Fault where
  cause : Cause
  site : Option Span
  deriving DecidableEq, Repr

def Span.fault (site : Span) (cause : Cause) : Fault := ⟨cause, some site⟩

namespace Fault

def message (fault : Fault) : String :=
  match fault.site with
  | some site => site.text ++ ": " ++ fault.cause.message
  | none => fault.cause.message

def same (first second : Fault) : Bool :=
  first.cause == second.cause &&
    match first.site, second.site with
    | some first, some second => first.samePlace second
    | none, none => true
    | _, _ => false

end Fault

/-- Why a value asked for during evaluation is not available. -/
inductive Stop where
  | evaluation (error : EvalError)
  | fault (complete : Fault)
  deriving DecidableEq, Repr

def Stop.toFault (what : String) (site : Span) : Stop → Fault
  | fault complete => complete
  | evaluation (.undefinedSymbol name) => site.fault (.unresolvedDependency name)
  | evaluation (.notConstant reason) => site.fault (.notConstant what reason)
  | evaluation (.typeMismatch found) => site.fault (.typeMismatch what "a compatible operand" found)
  | evaluation error => site.fault (.evaluation what error)

end Monomorph
