import Mathlib
import Monomorph.Proofs.Lowering.Demand

/-! The references of declarations.

A reference may stand in the arguments of another one; it occurs in a list of
references if it is one of them or occurs in the arguments of one. Text that differs in
its references only has as many as the text it stands for, and in the same order.
-/

set_option autoImplicit false

namespace Monomorph

/-- A reference stands among others, or in their arguments at any depth. -/
inductive Reference.Occurs (reference : Reference) : List Reference → Prop where
  | here {references : List Reference} : reference ∈ references → Occurs reference references
  | inside {references : List Reference} {outer : Reference} :
      outer ∈ references → Occurs reference (Expr.listReferences outer.arguments) → Occurs reference references

theorem Reference.Occurs.mem {reference : Reference} {references : List Reference}
    (occurs : reference.Occurs references) (flat : ∀ outer ∈ references, Expr.listReferences outer.arguments = []) :
    reference ∈ references := by
  cases occurs with
  | here member => exact member
  | inside member nested =>
    rw [flat _ member] at nested
    cases nested with
    | here member => cases member
    | inside member _ => cases member

def ParameterType.references : ParameterType → List Reference
  | .const => []
  | .typed type => type.references

def ModuleItem.references : ModuleItem → List Reference
  | .const decl => decl.references
  | .declare _ type value => type.references ++ value.references
  | .var _ type => type.references

def Package.references (package : Package) : List Reference :=
  package.parameters.flatMap (·.type.references) ++ package.items.flatMap (·.references)

def Module.references (decl : Module) : List Reference := decl.items.flatMap (·.references)

def Description.references : Description → List Reference
  | .package decl => decl.references
  | .module decl => decl.references

def SourceUnit.references (unit : SourceUnit) : List Reference :=
  unit.descriptions.flatMap (·.references)

section Redirecting

variable {leads : Reference → Reference → Prop} {hidden : List String}

mutual

theorem Expr.Rewrites.references : ∀ {expr lowered : Expr},
    expr.Rewrites (.redirecting leads) hidden lowered → List.Forall₂ leads expr.references lowered.references
  | .literal _, _, .literal => .nil
  | .ident _, _, .ident rfl => .nil
  | .reference .., _, .reference leads => .cons leads .nil
  | .binary .., _, .binary left right => List.rel_append left.references right.references
  | .unary .., _, .unary operand => operand.references
  | .call _ _, _, .call arguments => Expr.references_of_forall₂ arguments
  | .ternary .., _, .ternary condition whenTrue whenFalse =>
    List.rel_append (List.rel_append condition.references whenTrue.references) whenFalse.references
  | .field .., _, .field base => base.references

theorem Expr.references_of_forall₂ : ∀ {exprs lowered : List Expr},
    List.Forall₂ (Expr.Rewrites (.redirecting leads) hidden) exprs lowered →
    List.Forall₂ leads (Expr.listReferences exprs) (Expr.listReferences lowered)
  | [], _, .nil => .nil
  | _ :: _, _, .cons first rest => List.rel_append first.references (Expr.references_of_forall₂ rest)

end

theorem TypeExpr.Rewrites.references {type lowered : TypeExpr}
    (rewrites : type.Rewrites (.redirecting leads) hidden lowered) :
    List.Forall₂ leads type.references lowered.references := by
  induction rewrites with
  | oneLogic => exact .nil
  | oneBit => exact .nil
  | logic width => exact Expr.Rewrites.references width
  | bit width => exact Expr.Rewrites.references width
  | int => exact .nil
  | bool => exact .nil
  | named => exact .nil
  | reference leads => exact .cons leads .nil
  | array element length ih => exact List.rel_append ih (Expr.Rewrites.references length)

theorem TypeExpr.references_of_rel {type lowered : Option TypeExpr}
    (related : Option.Rel (TypeExpr.Rewrites (.redirecting leads) hidden) type lowered) :
    List.Forall₂ leads (type.elim [] TypeExpr.references) (lowered.elim [] TypeExpr.references) := by
  cases related with
  | none => exact .nil
  | some rewrites => exact rewrites.references

theorem TypedName.references_of_forall₂ {entries lowered : List TypedName}
    (all : List.Forall₂ (TypedName.Rewrites (.redirecting leads) hidden) entries lowered) :
    List.Forall₂ leads (TypedName.listReferences entries) (TypedName.listReferences lowered) := by
  apply List.rel_flatMap all
  rintro _ _ ⟨type⟩
  exact type.references

theorem EnumVariant.references_of_forall₂ {variants lowered : List EnumVariant}
    (all : List.Forall₂ (EnumVariant.Rewrites (.redirecting leads) hidden) variants lowered) :
    List.Forall₂ leads (EnumVariant.listReferences variants) (EnumVariant.listReferences lowered) := by
  apply List.rel_flatMap all
  intro variant lowered rewrites
  cases rewrites with
  | plain => exact .nil
  | encoded value => exact Expr.Rewrites.references value

theorem ConstDecl.Rewrites.references {decl lowered : ConstDecl}
    (rewrites : decl.Rewrites (.redirecting leads) hidden lowered) :
    List.Forall₂ leads decl.references lowered.references := by
  cases rewrites with
  | intro type value => exact List.rel_append value.references (TypeExpr.references_of_rel type)

mutual

theorem Statement.Rewrites.references : ∀ {hidden : List String} {statement lowered : Statement},
    Statement.Rewrites (.redirecting leads) hidden statement lowered →
    List.Forall₂ leads statement.references lowered.references
  | _, .declare .., _, .declare type value => List.rel_append type.references value.references
  | _, .assign .., _, .assign value => value.references
  | _, .returns _, _, .returns value => value.references
  | _, .branch .., _, .branch condition whenTrue whenFalse =>
    List.rel_append condition.references (List.rel_append whenTrue.references whenFalse.references)

theorem Statement.ListRewrites.references : ∀ {hidden : List String} {statements lowered : List Statement},
    Statement.ListRewrites (.redirecting leads) hidden statements lowered →
    List.Forall₂ leads (Statement.listReferences statements) (Statement.listReferences lowered)
  | _, [], _, .nil => .nil
  | _, _ :: _, _, .cons first rest => List.rel_append first.references rest.references

end

theorem FunctionDecl.Rewrites.references {decl lowered : FunctionDecl}
    (rewrites : decl.Rewrites (.redirecting leads) hidden lowered) :
    List.Forall₂ leads decl.references lowered.references := by
  cases rewrites with
  | intro parameters result body =>
    exact List.rel_append (TypedName.references_of_forall₂ parameters)
      (List.rel_append (TypeExpr.references_of_rel result) body.references)

theorem PackageItem.Rewrites.references {item lowered : PackageItem}
    (rewrites : item.Rewrites (.redirecting leads) hidden lowered) :
    List.Forall₂ leads item.references lowered.references := by
  cases rewrites with
  | const decl => exact decl.references
  | typeDef type => exact type.references
  | struct fields => exact TypedName.references_of_forall₂ fields
  | enum base variants =>
    exact List.rel_append (TypeExpr.references_of_rel base) (EnumVariant.references_of_forall₂ variants)
  | function decl => exact decl.references

theorem ModuleItem.Rewrites.references {item lowered : ModuleItem}
    (rewrites : item.Rewrites (.redirecting leads) hidden lowered) :
    List.Forall₂ leads item.references lowered.references := by
  cases rewrites with
  | const decl => exact decl.references
  | declare type value => exact List.rel_append type.references value.references
  | var type => exact type.references

end Redirecting

end Monomorph
