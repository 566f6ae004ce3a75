import Monomorph.Fault
import Monomorph.Instance.Registry
import Monomorph.Constant.Evaluator
import Monomorph.Settings
import Monomorph.Tree.Declaration

/-! The declarations of a unit, as the pass looks them up.

Of several declarations of one name only the first counts, whatever kinds they
are of. Repeated names and identifiers in the space of generated names are
faults of the declarations themselves.
-/

set_option autoImplicit false

namespace Monomorph

namespace SourceUnit

/-- The descriptions whose names do not occur before them. -/
def distinct (unit : SourceUnit) : List Description := go [] unit.descriptions
where
  go (seen : List String) : List Description → List Description
    | [] => []
    | first :: rest =>
      if first.name ∈ seen then go seen rest else first :: go (first.name :: seen) rest

end SourceUnit

/-- The fault of an identifier that only generated names may have. -/
def reservedFaults (name : String) (site : Span) : List Fault :=
  if isReserved name then [site.fault (.reservedIdentifier name)] else []

namespace Description

def innerFaults : Description → List Fault
  | .package decl =>
    decl.parameters.flatMap (fun parameter => reservedFaults parameter.name parameter.span)
      ++ decl.items.flatMap (fun item => reservedFaults item.name decl.span)
  | .module decl => decl.items.flatMap (fun item => reservedFaults item.name decl.span)

end Description

namespace SourceUnit

def declarationFaults (unit : SourceUnit) : List Fault := go [] unit.descriptions
where
  go (seen : List String) : List Description → List Fault
    | [] => []
    | first :: rest =>
      reservedFaults first.name first.span ++
        if first.name ∈ seen then
          first.span.fault (.duplicateDeclaration first.name) :: go seen rest
        else
          first.innerFaults ++ go (first.name :: seen) rest

end SourceUnit

inductive Scope where
  | instantiated (target : Instance)
  | package (name : String)
  | module (name : String)
  deriving DecidableEq, Repr

structure Program where
  descriptions : List Description
  settings : Settings

namespace Program

def ofUnit (unit : SourceUnit) (settings : Settings) : Program := ⟨unit.distinct, settings⟩

def package? (program : Program) (name : String) : Option Package :=
  program.descriptions.findSome? fun
    | .package decl => if decl.name = name then some decl else none
    | .module _ => none

def generic? (program : Program) (name : String) : Option Package :=
  (program.package? name).filter (·.isGeneric)

def plain? (program : Program) (name : String) : Option Package :=
  (program.package? name).filter (!·.isGeneric)

def module? (program : Program) (name : String) : Option Module :=
  program.descriptions.findSome? fun
    | .package _ => none
    | .module decl => if decl.name = name then some decl else none

def findConst (program : Program) (scope : Scope) (name : String) : Option (Nat × ConstDecl) :=
  match scope with
  | .instantiated target => do (← program.generic? target.base).findConst name
  | .package package => do (← program.plain? package).findConst name
  | .module decl => do (← program.module? decl).findConst name

def declares (program : Program) (scope : Scope) (name : String) : Bool :=
  match scope with
  | .instantiated target => (program.generic? target.base).any (·.declares name)
  | .package package => (program.plain? package).any (·.declares name)
  | .module decl => (program.module? decl).any (·.declares name)

def emptyEvaluator (program : Program) : Evaluator := .ofWidth program.settings.defaultIntegerWidth

/-- The evaluator of a scope. In an instance, the parameters are bound to its arguments. -/
def evaluator (program : Program) (registry : Registry) (scope : Scope) : Except Fault Evaluator :=
  match scope with
  | .instantiated target =>
    match registry.resolve target, program.generic? target.base with
    | .error fault, _ => .error fault
    | .ok arguments, some package =>
      .ok (program.emptyEvaluator.bindAll ((package.parameters.map (·.name)).zip arguments))
    | .ok _, none => .ok program.emptyEvaluator
  | .package _ | .module _ => .ok program.emptyEvaluator

end Program

def Scope.label (registry : Registry) : Scope → String
  | .instantiated target =>
    match registry.get? target with
    | some arguments => target.base ++ "::<" ++ arguments.text ++ ">"
    | none => target.name
  | .package name | .module name => name

end Monomorph
