import Monomorph.Proofs.Lowering.Direction

/-! Evaluation in two programs whose plain text differs only in its references.

A simulation says what a reference of one program has to do with the one that stands
in its place in the other. Constants, expressions and declared types of plain text
then keep their values.
-/

set_option autoImplicit false

namespace Monomorph

mutual

/-- The references of an expression, but for those in the arguments of another reference. -/
def Expr.references : Expr → List Reference
  | .literal _ | .ident _ => []
  | .reference package arguments members span => [⟨package, arguments, members, span⟩]
  | .binary _ left right => left.references ++ right.references
  | .unary _ operand => operand.references
  | .call _ arguments => Expr.listReferences arguments
  | .ternary condition whenTrue whenFalse =>
    condition.references ++ whenTrue.references ++ whenFalse.references
  | .field base _ => base.references

def Expr.listReferences : List Expr → List Reference
  | [] => []
  | first :: rest => first.references ++ Expr.listReferences rest

end

def TypeExpr.references : TypeExpr → List Reference
  | .logic (some width) | .bit (some width) => width.references
  | .logic none | .bit none | .int _ | .bool | .named _ => []
  | .reference target => [target]
  | .array element length => element.references ++ length.references

def ConstDecl.references (decl : ConstDecl) : List Reference :=
  decl.value.references ++ decl.type.elim [] TypeExpr.references

section Reversal

variable {leads back : Reference → Reference → Prop} {hidden : List String}

theorem Expr.Rewrites.redirect {source target : Reference} (redirected : back source target) :
    (Expr.ofReference source).Rewrites (.redirecting back) hidden (.ofReference target) :=
  .reference redirected

mutual

/-- Text that differs in its references only can be read in both directions. -/
theorem Expr.Rewrites.reverse : ∀ {expr lowered : Expr},
    expr.Rewrites (.redirecting leads) hidden lowered →
    (∀ reference ∈ expr.references, ∀ target, leads reference target → back target reference) →
    lowered.Rewrites (.redirecting back) hidden expr
  | .literal _, _, .literal, _ => .literal
  | .ident _, _, .ident rfl, _ => .ident rfl
  | .reference .., _, .reference leads, turn => by
    have redirected := turn _ (List.mem_singleton_self _) _ leads
    exact Expr.Rewrites.redirect redirected
  | .binary .., _, .binary left right, turn =>
    .binary (left.reverse fun _ member => turn _ (List.mem_append_left _ member))
      (right.reverse fun _ member => turn _ (List.mem_append_right _ member))
  | .unary .., _, .unary operand, turn => .unary (operand.reverse turn)
  | .call _ _, _, .call arguments, turn => .call (Expr.reverse_list arguments turn)
  | .ternary .., _, .ternary condition whenTrue whenFalse, turn =>
    .ternary (condition.reverse fun _ member =>
        turn _ (List.mem_append_left _ (List.mem_append_left _ member)))
      (whenTrue.reverse fun _ member => turn _ (List.mem_append_left _ (List.mem_append_right _ member)))
      (whenFalse.reverse fun _ member => turn _ (List.mem_append_right _ member))
  | .field .., _, .field base, turn => .field (base.reverse turn)
termination_by structural expr => expr

theorem Expr.reverse_list : ∀ {exprs lowered : List Expr},
    List.Forall₂ (Expr.Rewrites (.redirecting leads) hidden) exprs lowered →
    (∀ reference ∈ Expr.listReferences exprs, ∀ target, leads reference target → back target reference) →
    List.Forall₂ (Expr.Rewrites (.redirecting back) hidden) lowered exprs
  | [], _, .nil, _ => .nil
  | _ :: _, _, .cons first rest, turn =>
    .cons (first.reverse fun _ member => turn _ (List.mem_append_left _ member))
      (Expr.reverse_list rest fun _ member => turn _ (List.mem_append_right _ member))
termination_by structural exprs => exprs

end

theorem TypeExpr.Rewrites.reverse {type lowered : TypeExpr}
    (rewrites : type.Rewrites (.redirecting leads) hidden lowered)
    (turn : ∀ reference ∈ type.references, ∀ target, leads reference target → back target reference) :
    lowered.Rewrites (.redirecting back) hidden type := by
  induction rewrites with
  | oneLogic => exact .oneLogic
  | oneBit => exact .oneBit
  | logic width => exact .logic (Expr.Rewrites.reverse width turn)
  | bit width => exact .bit (Expr.Rewrites.reverse width turn)
  | int => exact .int
  | bool => exact .bool
  | named => exact .named
  | reference leads => exact .reference (turn _ (List.mem_singleton_self _) _ leads)
  | array element length ih =>
    apply TypeExpr.Rewrites.array
    · exact ih fun _ member => turn _ (List.mem_append_left _ member)
    · exact Expr.Rewrites.reverse length fun _ member => turn _ (List.mem_append_right _ member)

theorem ConstDecl.Rewrites.reverse {decl lowered : ConstDecl}
    (rewrites : decl.Rewrites (.redirecting leads) hidden lowered)
    (turn : ∀ reference ∈ decl.references, ∀ target, leads reference target → back target reference) :
    lowered.Rewrites (.redirecting back) hidden decl := by
  cases rewrites with
  | intro type value =>
    apply ConstDecl.Rewrites.intro
    · cases type with
      | none => exact .none
      | some type => exact .some (type.reverse fun _ member => turn _ (List.mem_append_right _ member))
    · exact value.reverse fun _ member => turn _ (List.mem_append_left _ member)

end Reversal

theorem ConstDecl.Rewrites.parts {rewriting : Rewriting} {hidden : List String} {decl lowered : ConstDecl}
    (rewrites : decl.Rewrites rewriting hidden lowered) :
    Option.Rel (TypeExpr.Rewrites rewriting hidden) decl.type lowered.type ∧
      decl.value.Rewrites rewriting hidden lowered.value := by
  cases rewrites with
  | intro type value => exact ⟨type, value⟩

inductive Scope.Plain : Scope → Prop where
  | package {name : String} : isReserved name = false → Plain (.package name)
  | module {name : String} : isReserved name = false → Plain (.module name)

/-- Plain text of one program stands in the other with its references replaced. A reference to a plain
package is replaced by one to the same constant, or by one that has the value anyway; a reference
to an instance keeps its value. -/
structure Program.Simulates (source target : Program) (registry registry' : Registry)
    (reading reading' : Reading) (leads : Scope → Nat → Reference → Reference → Prop) : Prop where
  evaluator : ∀ {scope evaluator}, scope.Plain →
    source.evaluator registry scope = .ok evaluator → target.evaluator registry' scope = .ok evaluator
  constant : ∀ {scope}, scope.Plain → ∀ name,
    Option.Rel (fun found found' => found'.1 = found.1 ∧
        found.2.Rewrites (.redirecting (leads scope found.1)) [] found'.2)
      (source.findConst scope name) (target.findConst scope name)
  plain : ∀ {scope position reference reference' package member}, scope.Plain →
    leads scope position reference reference' → source.plain? reference.package = some package →
    reference.members = [member] →
    (Scope.package package.name).Plain ∧
        (∀ value, target.ConstantValue registry' reading' (.package package.name) member value →
          target.ReferenceValue registry' reading' scope position reference' value) ∨
      ∀ value, source.ConstantValue registry reading (.package package.name) member value →
        target.ReferenceValue registry' reading' scope position reference' value
  instantiated : ∀ {scope position reference reference' package value}, scope.Plain →
    leads scope position reference reference' → source.generic? reference.package = some package →
    source.ReferenceValue registry reading scope position reference value →
    target.ReferenceValue registry' reading' scope position reference' value

namespace Program

variable {source target : Program} {registry registry' : Registry} {reading reading' : Reading}
  {leads : Scope → Nat → Reference → Reference → Prop}

mutual

theorem ConstantValue.simulated (simulates : source.Simulates target registry registry' reading reading' leads)
    {scope : Scope} (plain : scope.Plain) {name : String} {value : Value} :
    source.ConstantValue registry reading scope name value →
    target.ConstantValue registry' reading' scope name value
  | .intro found made evaluated typed converted => by
    have related := simulates.constant plain name
    rw [found] at related
    obtain ⟨⟨index, decl⟩, found', same, rewrites⟩ := exists_right_of_rel related
    simp only at same
    rw [same] at found'
    -- the derivations stay as they are, so that the recursion sees them
    obtain ⟨type, value⟩ := rewrites.parts
    exact .intro found' (simulates.evaluator plain made) (evaluated.simulated simulates plain value)
      (typed.simulated simulates plain type) converted
termination_by structural derivation => derivation

theorem ExprValue.simulated (simulates : source.Simulates target registry registry' reading reading' leads)
    {scope : Scope} (plain : scope.Plain) {position : Nat} {evaluator : Evaluator} {expr lowered : Expr}
    {value : Value} (rewrites : expr.Rewrites (.redirecting (leads scope position)) [] lowered) :
    source.ExprValue registry reading scope position evaluator expr value →
    target.ExprValue registry' reading' scope position evaluator lowered value
  | .literal found => by
    cases rewrites
    exact .literal found
  | .parameter bound => by
    cases rewrites with
    | ident same =>
      rw [same]
      exact .parameter bound
  | .constant unbound found before value => by
    rename_i name _ _
    have related := simulates.constant plain name
    rw [found] at related
    cases rewrites with
    | ident same =>
      rw [same]
      obtain ⟨entry, found', index, _⟩ := exists_right_of_rel related
      exact .constant unbound found' (index ▸ before) (value.simulated simulates plain)
  | .reference value => by
    cases rewrites with
    | reference leads => exact .reference (value.simulated simulates plain leads)
  | .binary left right computed => by
    cases rewrites with
    | binary left' right' =>
      exact .binary (left.simulated simulates plain left') (right.simulated simulates plain right') computed
  | .unary operand computed => by
    cases rewrites with
    | unary operand' => exact .unary (operand.simulated simulates plain operand') computed
  | .call builtin arguments computed => by
    cases rewrites with
    | call arguments' => exact .call builtin (arguments.simulated simulates plain arguments') computed
  | .ternary condition chosen => by
    rename_i test
    cases rewrites with
    | ternary condition' whenTrue whenFalse =>
      apply ExprValue.ternary (condition.simulated simulates plain condition')
      -- which side is chosen depends on the value alone
      apply chosen.simulated simulates plain
      cases test.isTruthy with
      | true => exact whenTrue
      | false => exact whenFalse
termination_by structural derivation => derivation

theorem ExprValues.simulated (simulates : source.Simulates target registry registry' reading reading' leads)
    {scope : Scope} (plain : scope.Plain) {position : Nat} {evaluator : Evaluator} {exprs lowered : List Expr}
    {values : List Value} (rewrites : List.Forall₂ (Expr.Rewrites (.redirecting (leads scope position)) []) exprs lowered) :
    source.ExprValues registry reading scope position evaluator exprs values →
    target.ExprValues registry' reading' scope position evaluator lowered values
  | .nil => by
    cases rewrites
    exact .nil
  | .cons first rest => by
    cases rewrites with
    | cons first' rest' =>
      exact .cons (first.simulated simulates plain first') (rest.simulated simulates plain rest')
termination_by structural derivation => derivation

theorem FixedType.simulated (simulates : source.Simulates target registry registry' reading reading' leads)
    {scope : Scope} (plain : scope.Plain) {position : Nat} {evaluator : Evaluator}
    {type lowered : Option TypeExpr} {fixed : Option ValueType} :
    source.FixedType registry reading scope position evaluator type fixed →
    Option.Rel (TypeExpr.Rewrites (.redirecting (leads scope position)) []) type lowered →
    target.FixedType registry' reading' scope position evaluator lowered fixed
  | .undeclared, .none => .undeclared
  | .bool, .some .bool => .bool
  | .int, .some .int => .int
  | .oneLogic, .some .oneLogic => .oneLogic
  | .oneBit, .some .oneBit => .oneBit
  | .logic width counted positive within, .some (.logic width') =>
    .logic (width.simulated simulates plain width') counted positive within
  | .bit width counted positive within, .some (.bit width') =>
    .bit (width.simulated simulates plain width') counted positive within
  | .named, .some .named => .named
  | .reference, .some (.reference _) => .reference
  | .array, .some (.array _ _) => .array
termination_by structural derivation => derivation

theorem ReferenceValue.simulated (simulates : source.Simulates target registry registry' reading reading' leads)
    {scope : Scope} (plain : scope.Plain) {position : Nat} {reference lowered : Reference} {value : Value}
    (led : leads scope position reference lowered) :
    source.ReferenceValue registry reading scope position reference value →
    target.ReferenceValue registry' reading' scope position lowered value
  | .instantiated generic made values accepted found member value =>
    -- arguments stand in the source only, so the reference is taken as a whole
    simulates.instantiated plain led generic (.instantiated generic made values accepted found member value)
  | .plain found _ member value => by
    rcases simulates.plain plain led found member with ⟨inner, rebuild⟩ | direct
    · exact rebuild _ (value.simulated simulates inner)
    · exact direct _ value
termination_by structural derivation => derivation

end

end Program
end Monomorph
