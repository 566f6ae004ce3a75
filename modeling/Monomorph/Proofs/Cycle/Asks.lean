import Mathlib.Data.List.Chain
import Mathlib.Logic.Relation
import Mathlib.Order.WellFounded
import Monomorph.Proofs.Dependency.Uses

/-! Which constants the evaluation of a constant asks for.

Evaluation goes from left to right and stops where something has no value, so an
operand asks for a constant only if the operands before it have values, and a
declared type only if the initializer has one. The relation is free of state: a
constant is asked for whether it is remembered or has to be evaluated.

A derivation of a value holds derivations for everything asked for. A constant that
comes back to itself by asking therefore has no value.
-/

set_option autoImplicit false

namespace Monomorph.Program

mutual

inductive ExprAsks (program : Program) (registry : Registry) (scope : Scope) (position : Nat) :
    Evaluator → Expr → ConstantKey → Prop where
  | constant {evaluator : Evaluator} {name : String} {index : Nat} {decl : ConstDecl} :
      evaluator.bindings.get? name = none →
      program.findConst scope name = some (index, decl) → index < position →
      ExprAsks program registry scope position evaluator (.ident name) ⟨scope, name⟩
  | reference {evaluator : Evaluator} {package : String} {arguments : List Expr} {members : List String}
      {span : Span} {key : ConstantKey} :
      ReferenceAsks program registry scope position ⟨package, arguments, members, span⟩ key →
      ExprAsks program registry scope position evaluator (.reference package arguments members span) key
  | left {evaluator : Evaluator} {op : BinaryOp} {left right : Expr} {key : ConstantKey} :
      ExprAsks program registry scope position evaluator left key →
      ExprAsks program registry scope position evaluator (.binary op left right) key
  | right {evaluator : Evaluator} {op : BinaryOp} {left right : Expr} {value : Value} {key : ConstantKey} :
      program.ExprValue registry .value scope position evaluator left value →
      ExprAsks program registry scope position evaluator right key →
      ExprAsks program registry scope position evaluator (.binary op left right) key
  | operand {evaluator : Evaluator} {op : UnaryOp} {operand : Expr} {key : ConstantKey} :
      ExprAsks program registry scope position evaluator operand key →
      ExprAsks program registry scope position evaluator (.unary op operand) key
  | call {evaluator : Evaluator} {function : String} {builtin : Builtin} {arguments : List Expr}
      {key : ConstantKey} :
      Builtin.find? function = some builtin →
      ExprsAsk program registry scope position evaluator arguments key →
      ExprAsks program registry scope position evaluator (.call function arguments) key
  | condition {evaluator : Evaluator} {condition whenTrue whenFalse : Expr} {key : ConstantKey} :
      ExprAsks program registry scope position evaluator condition key →
      ExprAsks program registry scope position evaluator (.ternary condition whenTrue whenFalse) key
  | chosen {evaluator : Evaluator} {condition whenTrue whenFalse : Expr} {test : Value} {key : ConstantKey} :
      program.ExprValue registry .value scope position evaluator condition test →
      ExprAsks program registry scope position evaluator (if test.isTruthy then whenTrue else whenFalse) key →
      ExprAsks program registry scope position evaluator (.ternary condition whenTrue whenFalse) key

inductive ExprsAsk (program : Program) (registry : Registry) (scope : Scope) (position : Nat) :
    Evaluator → List Expr → ConstantKey → Prop where
  | here {evaluator : Evaluator} {first : Expr} {rest : List Expr} {key : ConstantKey} :
      ExprAsks program registry scope position evaluator first key →
      ExprsAsk program registry scope position evaluator (first :: rest) key
  | later {evaluator : Evaluator} {first : Expr} {rest : List Expr} {value : Value} {key : ConstantKey} :
      program.ExprValue registry .value scope position evaluator first value →
      ExprsAsk program registry scope position evaluator rest key →
      ExprsAsk program registry scope position evaluator (first :: rest) key

/-- The arguments for some parameters ask for a constant. An argument that its parameter does not
accept ends the binding. -/
inductive BindingAsks (program : Program) (registry : Registry) (scope : Scope) (position : Nat) :
    Evaluator → Evaluator → List GenericParameter → List Expr → ConstantKey → Prop where
  | here {evaluator earlier : Evaluator} {parameter : GenericParameter} {parameters : List GenericParameter}
      {argument : Expr} {arguments : List Expr} {key : ConstantKey} :
      ExprAsks program registry scope position evaluator argument key →
      BindingAsks program registry scope position evaluator earlier (parameter :: parameters)
        (argument :: arguments) key
  | later {evaluator earlier : Evaluator} {parameter : GenericParameter} {parameters : List GenericParameter}
      {argument : Expr} {arguments : List Expr} {value bound : Value} {key : ConstantKey} :
      program.ExprValue registry .value scope position evaluator argument value →
      parameter.accept? earlier value = some bound →
      BindingAsks program registry scope position evaluator (earlier.bind parameter.name bound) parameters
        arguments key →
      BindingAsks program registry scope position evaluator earlier (parameter :: parameters)
        (argument :: arguments) key

inductive ReferenceAsks (program : Program) (registry : Registry) (scope : Scope) (position : Nat) :
    Reference → ConstantKey → Prop where
  | argument {reference : Reference} {package : Package} {evaluator : Evaluator} {key : ConstantKey} :
      program.generic? reference.package = some package →
      program.evaluator registry scope = .ok evaluator →
      reference.arguments.length = package.parameters.length →
      BindingAsks program registry scope position evaluator (.ofWidth evaluator.defaultWidth)
        package.parameters reference.arguments key →
      ReferenceAsks program registry scope position reference key
  | member {reference : Reference} {target : Target} {inner : Scope} {member : String} :
      program.Reaches registry scope position reference target →
      target.scope? = some inner → reference.members = [member] →
      (program.findConst inner member).isSome →
      ReferenceAsks program registry scope position reference ⟨inner, member⟩

end

inductive Asks (program : Program) (registry : Registry) (user used : ConstantKey) : Prop where
  | value {index : Nat} {decl : ConstDecl} {evaluator : Evaluator} :
      program.findConst user.scope user.name = some (index, decl) →
      program.evaluator registry user.scope = .ok evaluator →
      program.ExprAsks registry user.scope index evaluator decl.value used →
      Asks program registry user used
  | type {index : Nat} {decl : ConstDecl} {evaluator : Evaluator} {value : Value} {width : Expr} :
      program.findConst user.scope user.name = some (index, decl) →
      program.evaluator registry user.scope = .ok evaluator →
      program.ExprValue registry .value user.scope index evaluator decl.value value →
      decl.type.bind TypeExpr.width? = some width →
      program.ExprAsks registry user.scope index evaluator width used →
      Asks program registry user used

variable {program : Program} {registry : Registry} {scope : Scope} {position : Nat} {evaluator : Evaluator}

theorem Asks.evaluator_eq {user used : ConstantKey} (asks : program.Asks registry user used) :
    ∃ evaluator, program.evaluator registry user.scope = .ok evaluator := by
  cases asks with
  | value _ made _ => exact ⟨_, made⟩
  | type _ made _ _ _ => exact ⟨_, made⟩

theorem ExprsAsk.exists_mem {exprs : List Expr} {key : ConstantKey} :
    program.ExprsAsk registry scope position evaluator exprs key →
    ∃ expr ∈ exprs, program.ExprAsks registry scope position evaluator expr key
  | .here asks => ⟨_, List.mem_cons_self, asks⟩
  | .later _ asks =>
    let ⟨expr, member, asks⟩ := asks.exists_mem
    ⟨expr, List.mem_cons_of_mem _ member, asks⟩
termination_by structural derivation => derivation

theorem BindingAsks.exists_mem {earlier : Evaluator} {parameters : List GenericParameter}
    {arguments : List Expr} {key : ConstantKey} :
    program.BindingAsks registry scope position evaluator earlier parameters arguments key →
    ∃ argument ∈ arguments, program.ExprAsks registry scope position evaluator argument key
  | .here asks => ⟨_, List.mem_cons_self, asks⟩
  | .later _ _ asks =>
    let ⟨argument, member, asks⟩ := asks.exists_mem
    ⟨argument, List.mem_cons_of_mem _ member, asks⟩
termination_by structural derivation => derivation

section Accessible

mutual

/-- What has a value is done with asking after finitely many steps. -/
theorem ConstantValue.acc {reading : Reading} {scope : Scope} {name : String} {value : Value} :
    program.ConstantValue registry reading scope name value → reading = .value →
    Acc (fun used user => program.Asks registry user used) ⟨scope, name⟩
  | .intro found made value type _, same => by
    constructor
    intro used asks
    cases asks with
    | value found' made' asks =>
      rw [found] at found'
      cases found'
      rw [made] at made'
      cases made'
      exact value.acc same asks
    | type found' made' _ width asks =>
      rw [found] at found'
      cases found'
      rw [made] at made'
      cases made'
      exact type.acc same width asks
termination_by structural derivation => derivation

theorem ExprValue.acc {reading : Reading} {scope : Scope} {position : Nat} {evaluator : Evaluator}
    {expr : Expr} {value : Value} :
    program.ExprValue registry reading scope position evaluator expr value → reading = .value →
    ∀ {key : ConstantKey}, program.ExprAsks registry scope position evaluator expr key →
      Acc (fun used user => program.Asks registry user used) key
  | .literal _, _, _, asks => by cases asks
  | .parameter bound, _, _, .constant free _ _ => by
    rw [bound] at free
    cases free
  | .constant _ _ _ value, same, _, .constant _ _ _ => value.acc same
  | .reference value, same, _, .reference asks => value.acc same asks
  | .binary left _ _, same, _, .left asks => left.acc same asks
  | .binary _ right _, same, _, .right _ asks => right.acc same asks
  | .unary operand _, same, _, .operand asks => operand.acc same asks
  | .call _ values _, same, _, .call _ asks => by
    obtain ⟨argument, member, asks⟩ := asks.exists_mem
    exact values.acc same member asks
  | .ternary test _, same, _, .condition asks => test.acc same asks
  | .ternary test chosen, same, _, .chosen test' asks => by
    -- the condition has one value, so the side that asks is the side that was evaluated
    cases ExprValue.unique (same ▸ test) test'
    exact chosen.acc same asks
termination_by structural derivation => derivation

theorem ExprValues.acc {reading : Reading} {scope : Scope} {position : Nat} {evaluator : Evaluator}
    {exprs : List Expr} {values : List Value} :
    program.ExprValues registry reading scope position evaluator exprs values → reading = .value →
    ∀ {expr : Expr}, expr ∈ exprs →
    ∀ {key : ConstantKey}, program.ExprAsks registry scope position evaluator expr key →
      Acc (fun used user => program.Asks registry user used) key
  | .nil, _, _, member, _, _ => by cases member
  | .cons first rest, same, expr, member, _, asks => by
    rcases List.mem_cons.mp member with here | later
    · exact first.acc same (here ▸ asks)
    · exact rest.acc same later asks
termination_by structural derivation => derivation

theorem FixedType.acc {reading : Reading} {scope : Scope} {position : Nat} {evaluator : Evaluator}
    {type : Option TypeExpr} {fixed : Option ValueType} :
    program.FixedType registry reading scope position evaluator type fixed → reading = .value →
    ∀ {width : Expr}, type.bind TypeExpr.width? = some width →
    ∀ {key : ConstantKey}, program.ExprAsks registry scope position evaluator width key →
      Acc (fun used user => program.Asks registry user used) key
  | .logic value _ _ _, same, _, found, _, asks => by
    cases found
    exact value.acc same asks
  | .bit value _ _ _, same, _, found, _, asks => by
    cases found
    exact value.acc same asks
  | .undeclared, _, _, found, _, _ => by cases found
  | .bool, _, _, found, _, _ => by cases found
  | .int, _, _, found, _, _ => by cases found
  | .oneLogic, _, _, found, _, _ => by cases found
  | .oneBit, _, _, found, _, _ => by cases found
  | .named, _, _, found, _, _ => by cases found
  | .reference, _, _, found, _, _ => by cases found
  | .array, _, _, found, _, _ => by cases found
termination_by structural derivation => derivation

theorem ReferenceValue.acc {reading : Reading} {scope : Scope} {position : Nat} {reference : Reference}
    {value : Value} :
    program.ReferenceValue registry reading scope position reference value → reading = .value →
    ∀ {key : ConstantKey}, program.ReferenceAsks registry scope position reference key →
      Acc (fun used user => program.Asks registry user used) key
  | .instantiated _ made values _ _ _ _, _, _, .argument _ made' _ asks => by
    rw [made] at made'
    cases made'
    obtain ⟨argument, member, asks⟩ := asks.exists_mem
    exact values.acc rfl member asks
  | .instantiated generic made values accepted found named value, _, _, .member reaches inner members _ => by
    have reached : program.Reaches registry scope position reference (.instantiated _ ⟨_, _⟩) :=
      .instantiated generic ⟨_, _, made, values, accepted⟩ found
    obtain ⟨same, _⟩ := reaches.eq_of_extends (.refl _) reached
    subst same
    cases inner
    rw [named] at members
    cases members
    exact value.acc rfl
  | .plain plain _ _ _, _, _, .argument generic _ _ _ => by
    rw [plain?_of_generic? generic] at plain
    cases plain
  | .plain plain _ named value, same, _, .member reaches inner members _ => by
    cases reaches with
    | instantiated generic _ _ =>
      rw [plain?_of_generic? generic] at plain
      cases plain
    | plain plain' _ =>
      rw [plain] at plain'
      cases plain'
      cases inner
      rw [named] at members
      cases members
      exact value.acc same
    | unknown _ _ => cases inner
termination_by structural derivation => derivation

end

/-- A constant that comes back to itself by asking has no value. -/
theorem not_constantValue_of_transGen {key : ConstantKey} {value : Value}
    (returns : Relation.TransGen (program.Asks registry) key key) :
    ¬ program.ConstantValue registry .value key.scope key.name value := by
  intro evaluated
  have returns' : Relation.TransGen (fun used user => program.Asks registry user used) key key :=
    Relation.transGen_swap.mpr returns
  exact not_acc_iff_exists_descending_chain.mpr ⟨fun _ => key, rfl, fun _ => returns'⟩ (evaluated.acc rfl).transGen

end Accessible

/-- Different constants of which each asks for the next and the last for the first. -/
structure Cycle (program : Program) (registry : Registry) (first : ConstantKey) (rest : List ConstantKey) :
    Prop where
  distinct : (first :: rest).Nodup
  asks : (first :: rest ++ [first]).IsChain (program.Asks registry)

namespace Cycle

variable {first : ConstantKey} {rest : List ConstantKey} {key : ConstantKey}

theorem exists_asks (cycle : program.Cycle registry first rest) (member : key ∈ first :: rest) :
    ∃ used, program.Asks registry key used := by
  obtain ⟨before, after, split⟩ := List.append_of_mem member
  have asks := cycle.asks
  rw [split, List.append_assoc, List.cons_append] at asks
  cases after with
  | nil => exact ⟨_, (List.isChain_append_cons_cons.mp asks).2.1⟩
  | cons used after => exact ⟨_, (List.isChain_append_cons_cons.mp asks).2.1⟩

theorem returns (cycle : program.Cycle registry first rest) (member : key ∈ first :: rest) :
    Relation.TransGen (program.Asks registry) key key := by
  have related := List.isChain_iff_pairwise.mp (cycle.asks.imp fun _ _ asks => Relation.TransGen.single asks)
  obtain ⟨within, _, closes⟩ := List.pairwise_append.mp related
  have back := closes key member first List.mem_cons_self
  rcases List.mem_cons.mp member with same | later
  · rw [same] at back ⊢
    exact back
  · exact back.trans ((List.pairwise_cons.mp within).1 key later)

theorem not_constantValue (cycle : program.Cycle registry first rest) (member : key ∈ first :: rest)
    (value : Value) : ¬ program.ConstantValue registry .value key.scope key.name value :=
  not_constantValue_of_transGen (cycle.returns member)

end Cycle
end Monomorph.Program
