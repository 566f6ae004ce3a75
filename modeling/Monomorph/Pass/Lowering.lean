import Monomorph.Pass.Constant

/-! Lowering of items: the walk that leaves no reference to a generic package.

Each reference is directed at the instance it stands for; its members are kept.
In the body of an instance the walk also replaces parameters by their values and
folds widths, lengths and enum values to literals. Parameters and locals of a
function hide the generic parameters of the same name, and what mentions them is
not folded.
-/

set_option autoImplicit false

namespace Monomorph

structure Context where
  scope : Scope
  /-- Constants of the scope before this position are visible. -/
  position : Nat
  /-- Holds the parameters of the scope. -/
  evaluator : Evaluator
  /-- The place of faults that have none of their own. -/
  site : Span
  /-- Whether parameters are replaced and sizes folded. -/
  specializes : Bool
  /-- Names of function parameters and locals. -/
  hidden : List String

namespace Context

/-- The value that an identifier is replaced by. -/
def parameter? (context : Context) (name : String) : Option Value :=
  if context.specializes && !context.hidden.contains name then context.evaluator.bindings.get? name
  else none

def folds (context : Context) (expr : Expr) : Bool :=
  context.specializes && !expr.mentions context.hidden

def hide (context : Context) (names : List String) : Context :=
  { context with hidden := names ++ context.hidden }

def after (context : Context) : Statement → Context
  | .declare name _ _ => context.hide [name]
  | .assign .. | .returns _ | .branch .. => context

end Context

/-- The first member of a reference names an item of the package. -/
def Package.checkMember (package : Package) (reference : Reference) : Except Fault Unit :=
  match reference.members with
  | member :: _ =>
    if package.declares member then .ok ()
    else .error (reference.span.fault (.unresolvedDependency reference.text))
  | [] => .ok ()

def Reference.redirect (reference : Reference) (target : Instance) : Reference :=
  { reference with package := target.name, arguments := [] }

namespace Program

variable (program : Program) (lookup : Lookup)

/-- References to packages that the unit does not declare are kept. -/
def lowerReference (context : Context) (reference : Reference) : PassM Reference := do
  match ← program.target lookup reference context.scope context.position with
  | .instantiated package target => do
    PassM.ofResult (package.checkMember reference)
    pure (reference.redirect target)
  | .plain package => do
    PassM.ofResult (package.checkMember reference)
    pure reference
  | .unknown => pure reference

mutual
def lowerExpr (context : Context) : Expr → PassM Expr
  | .literal value => pure (.literal value)
  | .ident name =>
    match context.parameter? name with
    | some value => pure (value.toExpr context.evaluator.defaultWidth)
    | none => pure (.ident name)
  | .reference package arguments members span => do
    let reference ← program.lowerReference lookup context ⟨package, arguments, members, span⟩
    pure (.ofReference reference)
  | .binary op left right => do
    let left ← lowerExpr context left
    let right ← lowerExpr context right
    pure (.binary op left right)
  | .unary op operand => do
    let operand ← lowerExpr context operand
    pure (.unary op operand)
  | .call function arguments => do
    let arguments ← lowerExprs context arguments
    pure (.call function arguments)
  | .ternary condition whenTrue whenFalse => do
    let condition ← lowerExpr context condition
    let whenTrue ← lowerExpr context whenTrue
    let whenFalse ← lowerExpr context whenFalse
    pure (.ternary condition whenTrue whenFalse)
  | .field base name => do
    let base ← lowerExpr context base
    pure (.field base name)

def lowerExprs (context : Context) : List Expr → PassM (List Expr)
  | [] => pure []
  | first :: rest => do
    let first ← lowerExpr context first
    let rest ← lowerExprs context rest
    pure (first :: rest)
end

def contextResolver (context : Context) : Resolver Stop Machine :=
  program.resolver lookup context.scope context.position context.site

def lowerSize (context : Context) (size : Expr) : PassM Expr :=
  if context.folds size then do
    let value ← (context.evaluator.evalSize (program.contextResolver lookup context) size).adapt
      (Stop.toFault ("size '" ++ size.text ++ "'") context.site)
    pure (.int (BitVec.ofNat 128 value))
  else program.lowerExpr lookup context size

def lowerType (context : Context) : TypeExpr → PassM TypeExpr
  | .logic none => pure (.logic none)
  | .logic (some width) => do
    let width ← program.lowerSize lookup context width
    pure (.logic (some width))
  | .bit none => pure (.bit none)
  | .bit (some width) => do
    let width ← program.lowerSize lookup context width
    pure (.bit (some width))
  | .int kind => pure (.int kind)
  | .bool => pure .bool
  | .named name => pure (.named name)
  | .reference reference => do
    let reference ← program.lowerReference lookup context reference
    pure (.reference reference)
  | .array element length => do
    let element ← lowerType context element
    let length ← program.lowerSize lookup context length
    pure (.array element length)

def lowerType? (context : Context) : Option TypeExpr → PassM (Option TypeExpr)
  | none => pure none
  | some type => do
    let type ← program.lowerType lookup context type
    pure (some type)

def lowerTypedNames (context : Context) (entries : List TypedName) : PassM (List TypedName) :=
  entries.mapM fun entry => do
    let type ← program.lowerType lookup context entry.type
    pure ⟨entry.name, type⟩

def lowerEncoding (context : Context) (value : Expr) : PassM Expr :=
  if context.folds value then do
    let value ← (context.evaluator.eval (program.contextResolver lookup context) value).adapt
      (Stop.toFault ("value '" ++ value.text ++ "'") context.site)
    pure (value.toExpr context.evaluator.defaultWidth)
  else program.lowerExpr lookup context value

def lowerVariants (context : Context) (variants : List EnumVariant) : PassM (List EnumVariant) :=
  variants.mapM fun variant =>
    match variant.value with
    | none => pure variant
    | some value => do
      let value ← program.lowerEncoding lookup context value
      pure ⟨variant.name, some value⟩

mutual
def lowerStatement : Context → Statement → PassM Statement
  | context, .declare name type value => do
    let type ← program.lowerType lookup context type
    let value ← program.lowerExpr lookup context value
    pure (.declare name type value)
  | context, .assign target value => do
    let value ← program.lowerExpr lookup context value
    pure (.assign target value)
  | context, .returns value => do
    let value ← program.lowerExpr lookup context value
    pure (.returns value)
  | context, .branch condition whenTrue whenFalse => do
    let condition ← program.lowerExpr lookup context condition
    let whenTrue ← lowerStatements context whenTrue
    let whenFalse ← lowerStatements context whenFalse
    pure (.branch condition whenTrue whenFalse)

/-- Each declaration hides its name for the statements after it. -/
def lowerStatements : Context → List Statement → PassM (List Statement)
  | _, [] => pure []
  | context, first :: rest => do
    let lowered ← lowerStatement context first
    let rest ← lowerStatements (context.after first) rest
    pure (lowered :: rest)
end

def lowerFunction (context : Context) (decl : FunctionDecl) : PassM FunctionDecl := do
  let parameters ← program.lowerTypedNames lookup context decl.parameters
  let result ← program.lowerType? lookup context decl.result
  let body ← program.lowerStatements lookup (context.hide (decl.parameters.map (·.name))) decl.body
  pure ⟨decl.name, parameters, result, body⟩

def lowerConst (context : Context) (decl : ConstDecl) : PassM ConstDecl := do
  let type ← program.lowerType? lookup context decl.type
  let value ← program.lowerExpr lookup context decl.value
  pure ⟨decl.name, type, value, decl.span⟩

def lowerPackageItem (context : Context) : PackageItem → PassM PackageItem
  | .const decl => do
    let decl ← program.lowerConst lookup context decl
    pure (.const decl)
  | .typeDef name type => do
    let type ← program.lowerType lookup context type
    pure (.typeDef name type)
  | .struct name kind fields => do
    let fields ← program.lowerTypedNames lookup context fields
    pure (.struct name kind fields)
  | .enum name base variants => do
    let base ← program.lowerType? lookup context base
    let variants ← program.lowerVariants lookup context variants
    pure (.enum name base variants)
  | .function decl => do
    let decl ← program.lowerFunction lookup context decl
    pure (.function decl)

def lowerModuleItem (context : Context) : ModuleItem → PassM ModuleItem
  | .const decl => do
    let decl ← program.lowerConst lookup context decl
    pure (.const decl)
  | .declare name type value => do
    let type ← program.lowerType lookup context type
    let value ← program.lowerExpr lookup context value
    pure (.declare name type value)
  | .var name type => do
    let type ← program.lowerType lookup context type
    pure (.var name type)

end Program
end Monomorph
