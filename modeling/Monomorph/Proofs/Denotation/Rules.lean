import Monomorph.Proofs.Constant.Literal
import Monomorph.Proofs.Instance.Registry
import Monomorph.Pass.Constant

/-! What the names of a program denote.

The rules give constants, expressions, declared types and references their values
without any state: nothing is remembered, queued or numbered on the way. They read
the program and a registry, which says which instance stands for an argument set.
A constant that can be had only from itself has no value, since a derivation is
finite.
-/

set_option autoImplicit false

namespace Monomorph

/-- How constants of instances are read outside of generic packages: as the values that they
have, or as the values of the literals that stand for them in specialized packages. -/
inductive Reading where
  | value
  | literal
  deriving DecidableEq, Repr

def Reading.apply (defaultWidth : Nat) : Reading → Value → Value
  | value, found => found
  | literal, found => found.relit defaultWidth

theorem Reading.same_apply (defaultWidth : Nat) (reading : Reading) (found : Value) :
    (reading.apply defaultWidth found).same found = true := by
  cases reading with
  | value => exact found.same_refl
  | literal => exact found.same_relit defaultWidth

def Value.convert? (value : Value) : Option ValueType → Option Value
  | none => some value
  | some expected => value.coerce? expected

def GenericParameter.accept? (parameter : GenericParameter) (earlier : Evaluator) (value : Value) :
    Option Value :=
  match parameter.type with
  | .const => some value
  | .typed type =>
    match (type.valueType earlier Resolver.closed).run with
    | .ok fixed => value.convert? fixed
    | .error _ => none

theorem Value.coerce_eq_ok_iff {value result : Value} {expected : ValueType} {what : String} {site : Span} :
    value.coerce expected what site = .ok result ↔ value.coerce? expected = some result := by
  unfold Value.coerce
  cases value.coerce? expected with
  | none => simp
  | some converted => simp

theorem GenericParameter.accept_eq_ok_iff {parameter : GenericParameter} {earlier : Evaluator}
    {value result : Value} {what : String} {site : Span} :
    parameter.accept earlier value what site = .ok result ↔
      parameter.accept? earlier value = some result := by
  unfold accept accept?
  cases parameter.type with
  | const => simp
  | typed type =>
    simp only
    cases (type.valueType earlier Resolver.closed).run with
    | error error => simp
    | ok fixed =>
      cases fixed with
      | none => simp [Value.convert?]
      | some expected => exact Value.coerce_eq_ok_iff

def acceptFrom : Evaluator → List GenericParameter → List Value → Option Arguments
  | earlier, parameter :: parameters, value :: values => do
    let value ← parameter.accept? earlier value
    let rest ← acceptFrom (earlier.bind parameter.name value) parameters values
    some (value :: rest)
  | _, [], [] => some []
  | _, _, _ => none

def Package.accept? (package : Package) (defaultWidth : Nat) (values : List Value) : Option Arguments :=
  acceptFrom (.ofWidth defaultWidth) package.parameters values

namespace Program

mutual

/-- The first constant of a name in a scope, evaluated where it stands and converted to its
declared type. -/
inductive ConstantValue (program : Program) (registry : Registry) :
    Reading → Scope → String → Value → Prop where
  | intro {reading : Reading} {scope : Scope} {name : String} {index : Nat} {decl : ConstDecl}
      {evaluator : Evaluator} {value result : Value} {fixed : Option ValueType} :
      program.findConst scope name = some (index, decl) →
      program.evaluator registry scope = .ok evaluator →
      ExprValue program registry reading scope index evaluator decl.value value →
      FixedType program registry reading scope index evaluator decl.type fixed →
      value.convert? fixed = some result →
      ConstantValue program registry reading scope name result

/-- Expressions of a scope, where constants before a position are visible. -/
inductive ExprValue (program : Program) (registry : Registry) :
    Reading → Scope → Nat → Evaluator → Expr → Value → Prop where
  | literal {reading : Reading} {scope : Scope} {position : Nat} {evaluator : Evaluator}
      {literal : Literal} {value : Value} :
      evaluator.literal literal = .ok value →
      ExprValue program registry reading scope position evaluator (.literal literal) value
  | parameter {reading : Reading} {scope : Scope} {position : Nat} {evaluator : Evaluator}
      {name : String} {value : Value} :
      evaluator.bindings.get? name = some value →
      ExprValue program registry reading scope position evaluator (.ident name) value
  | constant {reading : Reading} {scope : Scope} {position : Nat} {evaluator : Evaluator}
      {name : String} {index : Nat} {decl : ConstDecl} {value : Value} :
      evaluator.bindings.get? name = none →
      program.findConst scope name = some (index, decl) → index < position →
      ConstantValue program registry reading scope name value →
      ExprValue program registry reading scope position evaluator (.ident name) value
  | reference {reading : Reading} {scope : Scope} {position : Nat} {evaluator : Evaluator}
      {package : String} {arguments : List Expr} {members : List String} {span : Span} {value : Value} :
      ReferenceValue program registry reading scope position ⟨package, arguments, members, span⟩ value →
      ExprValue program registry reading scope position evaluator
        (.reference package arguments members span) value
  | binary {reading : Reading} {scope : Scope} {position : Nat} {evaluator : Evaluator} {op : BinaryOp}
      {left right : Expr} {first second value : Value} :
      ExprValue program registry reading scope position evaluator left first →
      ExprValue program registry reading scope position evaluator right second →
      Value.binary op first second = .ok value →
      ExprValue program registry reading scope position evaluator (.binary op left right) value
  | unary {reading : Reading} {scope : Scope} {position : Nat} {evaluator : Evaluator} {op : UnaryOp}
      {operand : Expr} {found value : Value} :
      ExprValue program registry reading scope position evaluator operand found →
      Value.unary op found = .ok value →
      ExprValue program registry reading scope position evaluator (.unary op operand) value
  | call {reading : Reading} {scope : Scope} {position : Nat} {evaluator : Evaluator}
      {function : String} {builtin : Builtin} {arguments : List Expr} {values : List Value} {value : Value} :
      Builtin.find? function = some builtin →
      ExprValues program registry reading scope position evaluator arguments values →
      builtin.apply evaluator.defaultWidth values = .ok value →
      ExprValue program registry reading scope position evaluator (.call function arguments) value
  | ternary {reading : Reading} {scope : Scope} {position : Nat} {evaluator : Evaluator}
      {condition whenTrue whenFalse : Expr} {test value : Value} :
      ExprValue program registry reading scope position evaluator condition test →
      ExprValue program registry reading scope position evaluator
        (if test.isTruthy then whenTrue else whenFalse) value →
      ExprValue program registry reading scope position evaluator
        (.ternary condition whenTrue whenFalse) value

inductive ExprValues (program : Program) (registry : Registry) :
    Reading → Scope → Nat → Evaluator → List Expr → List Value → Prop where
  | nil {reading : Reading} {scope : Scope} {position : Nat} {evaluator : Evaluator} :
      ExprValues program registry reading scope position evaluator [] []
  | cons {reading : Reading} {scope : Scope} {position : Nat} {evaluator : Evaluator}
      {first : Expr} {rest : List Expr} {value : Value} {values : List Value} :
      ExprValue program registry reading scope position evaluator first value →
      ExprValues program registry reading scope position evaluator rest values →
      ExprValues program registry reading scope position evaluator (first :: rest) (value :: values)

inductive FixedType (program : Program) (registry : Registry) :
    Reading → Scope → Nat → Evaluator → Option TypeExpr → Option ValueType → Prop where
  | undeclared {reading : Reading} {scope : Scope} {position : Nat} {evaluator : Evaluator} :
      FixedType program registry reading scope position evaluator none none
  | bool {reading : Reading} {scope : Scope} {position : Nat} {evaluator : Evaluator} :
      FixedType program registry reading scope position evaluator (some .bool) (some .bool)
  | int {reading : Reading} {scope : Scope} {position : Nat} {evaluator : Evaluator} {kind : IntKind} :
      FixedType program registry reading scope position evaluator (some (.int kind))
        (some (.int kind.width kind.isSigned))
  | oneLogic {reading : Reading} {scope : Scope} {position : Nat} {evaluator : Evaluator} :
      FixedType program registry reading scope position evaluator (some (.logic none)) (some (.int 1 false))
  | oneBit {reading : Reading} {scope : Scope} {position : Nat} {evaluator : Evaluator} :
      FixedType program registry reading scope position evaluator (some (.bit none)) (some (.int 1 false))
  | logic {reading : Reading} {scope : Scope} {position : Nat} {evaluator : Evaluator} {width : Expr}
      {value : Value} {size : Nat} :
      ExprValue program registry reading scope position evaluator width value →
      value.toCount? = some size → 0 < size → size ≤ maxWidth →
      FixedType program registry reading scope position evaluator (some (.logic (some width)))
        (some (.int size false))
  | bit {reading : Reading} {scope : Scope} {position : Nat} {evaluator : Evaluator} {width : Expr}
      {value : Value} {size : Nat} :
      ExprValue program registry reading scope position evaluator width value →
      value.toCount? = some size → 0 < size → size ≤ maxWidth →
      FixedType program registry reading scope position evaluator (some (.bit (some width)))
        (some (.int size false))
  | named {reading : Reading} {scope : Scope} {position : Nat} {evaluator : Evaluator} {name : String} :
      FixedType program registry reading scope position evaluator (some (.named name)) none
  | reference {reading : Reading} {scope : Scope} {position : Nat} {evaluator : Evaluator}
      {target : Reference} :
      FixedType program registry reading scope position evaluator (some (.reference target)) none
  | array {reading : Reading} {scope : Scope} {position : Nat} {evaluator : Evaluator}
      {element : TypeExpr} {length : Expr} :
      FixedType program registry reading scope position evaluator (some (.array element length)) none

/-- The constant that a reference names, in the instance for its arguments or in a plain package.
Arguments are bound by value where the reference stands, however the constant is read. -/
inductive ReferenceValue (program : Program) (registry : Registry) :
    Reading → Scope → Nat → Reference → Value → Prop where
  | instantiated {reading : Reading} {scope : Scope} {position : Nat} {reference : Reference}
      {package : Package} {evaluator : Evaluator} {values : List Value} {arguments : Arguments}
      {id : InstanceId} {member : String} {value : Value} :
      program.generic? reference.package = some package →
      program.evaluator registry scope = .ok evaluator →
      ExprValues program registry .value scope position evaluator reference.arguments values →
      package.accept? evaluator.defaultWidth values = some arguments →
      registry.find? package.name arguments = some id →
      reference.members = [member] →
      ConstantValue program registry .value (.instantiated ⟨package.name, id⟩) member value →
      ReferenceValue program registry reading scope position reference
        (reading.apply program.emptyEvaluator.defaultWidth value)
  | plain {reading : Reading} {scope : Scope} {position : Nat} {reference : Reference}
      {package : Package} {member : String} {value : Value} :
      program.plain? reference.package = some package →
      reference.arguments = [] →
      reference.members = [member] →
      ConstantValue program registry reading (.package package.name) member value →
      ReferenceValue program registry reading scope position reference value

end

/-- The values that the arguments of a reference bind the parameters of a package to. -/
def Binds (program : Program) (registry : Registry) (scope : Scope) (position : Nat)
    (package : Package) (arguments : List Expr) (bound : Arguments) : Prop :=
  ∃ evaluator values, program.evaluator registry scope = .ok evaluator ∧
    program.ExprValues registry .value scope position evaluator arguments values ∧
    package.accept? evaluator.defaultWidth values = some bound

def Accepts (program : Program) (base : String) (bound : Arguments) : Prop :=
  ∃ package values, program.generic? base = some package ∧
    package.accept? program.emptyEvaluator.defaultWidth values = some bound

end Program
end Monomorph
