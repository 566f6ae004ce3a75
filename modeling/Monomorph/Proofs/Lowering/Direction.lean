import Monomorph.Proofs.Lowering.Rewriting
import Monomorph.Pass.Specialization

/-! The rewriting of the pass, by what names denote.

A reference to a generic package is directed at the instance that the registry has
for its arguments. Instances also have their parameters replaced and their sizes and
encodings folded.
-/

set_option autoImplicit false

namespace Monomorph

namespace Program

variable (program : Program) (registry : Registry)

/-- Where a reference leads. Its arguments are bound in a scope, where the constants before a
position are visible. -/
inductive Directs (scope : Scope) (position : Nat) : Reference → Reference → Prop where
  | instantiated {reference : Reference} {package : Package} {bound : Arguments} {id : InstanceId} :
      program.generic? reference.package = some package →
      program.Binds registry scope position package reference.arguments bound →
      registry.find? package.name bound = some id →
      package.checkMember reference = .ok () →
      Directs scope position reference (reference.redirect ⟨package.name, id⟩)
  | plain {reference : Reference} {package : Package} :
      program.plain? reference.package = some package →
      reference.arguments = [] →
      package.checkMember reference = .ok () →
      Directs scope position reference reference
  | unknown {reference : Reference} :
      program.package? reference.package = none →
      reference.arguments = [] →
      Directs scope position reference reference

variable {program registry} in
theorem Directs.lowered_arguments {scope : Scope} {position : Nat} {reference lowered : Reference}
    (directs : program.Directs registry scope position reference lowered) : lowered.arguments = [] := by
  cases directs with
  | instantiated generic binds found checked => rfl
  | plain found bare checked => exact bare
  | unknown absent bare => exact bare

def identifier (context : Context) (hidden : List String) (name : String) : Expr :=
  match { context with hidden := hidden }.parameter? name with
  | some value => value.toExpr context.evaluator.defaultWidth
  | none => .ident name

def rewriting (context : Context) : Rewriting where
  ident hidden name lowered := lowered = identifier context hidden name
  reference := program.Directs registry context.scope context.position
  folds hidden expr := { context with hidden := hidden }.folds expr
  size size lowered :=
    context.specializes = true ∧ ∃ value count,
      program.ExprValue registry .value context.scope context.position context.evaluator size value ∧
      value.toCount? = some count ∧ 0 < count ∧ lowered = .int (BitVec.ofNat 128 count)
  encoding expr lowered :=
    context.specializes = true ∧ ∃ value,
      program.ExprValue registry .value context.scope context.position context.evaluator expr value ∧
      lowered = value.toExpr context.evaluator.defaultWidth

variable {program registry} in
theorem rewriting_of_plain {context : Context} (plain : context.specializes = false) :
    program.rewriting registry context
      = .redirecting (program.Directs registry context.scope context.position) := by
  simp [rewriting, Rewriting.redirecting, identifier, Context.parameter?, Context.folds, plain]

/-- A constant sees the constants before it; other items see them all. -/
def visible (length position : Nat) : Option ConstDecl → Nat
  | some _ => position
  | none => length

/-- What becomes of a plain package or a module: nothing but its references changes. -/
inductive Lowers : Description → Description → Prop where
  | package {name : String} {items items' : List PackageItem} {span : Span} :
      List.Forall₂ (fun entry lowered => entry.1.Rewrites (.redirecting (program.Directs registry
          (.package name) (visible items.length entry.2 entry.1.const?))) [] lowered)
        items.zipIdx items' →
      Lowers (.package ⟨name, [], items, span⟩) (.package ⟨name, [], items', span⟩)
  | module {name : String} {items items' : List ModuleItem} {span : Span} :
      List.Forall₂ (fun entry lowered => entry.1.Rewrites (.redirecting (program.Directs registry
          (.module name) (visible items.length entry.2 entry.1.const?))) [] lowered)
        items.zipIdx items' →
      Lowers (.module ⟨name, items, span⟩) (.module ⟨name, items', span⟩)

def instanceContext (target : Instance) (evaluator : Evaluator) (span : Span) (position : Nat) : Context :=
  ⟨.instantiated target, position, evaluator, span, true, []⟩

/-- What an item of an instance has to do with the item of its generic package. A constant has
become the literal of its value. -/
inductive ItemSpecializes (context : Context) : PackageItem → PackageItem → Prop where
  | const {decl : ConstDecl} {type : Option TypeExpr} {value : Value} :
      program.ConstantValue registry .value context.scope decl.name value →
      Option.Rel (TypeExpr.Rewrites (program.rewriting registry context) context.hidden) decl.type type →
      ItemSpecializes context (.const decl)
        (.const ⟨decl.name, type, value.toExpr context.evaluator.defaultWidth, decl.span⟩)
  | item {item lowered : PackageItem} :
      item.const? = none →
      item.Rewrites (program.rewriting registry context) context.hidden lowered →
      ItemSpecializes context item lowered

structure Specializes (package : SpecializedPackage) : Prop where
  constants : ∀ name value, (name, value) ∈ package.constants →
    program.ConstantValue registry .value (.instantiated package.target) name value
  listed : ∀ source, program.generic? package.target.base = some source →
    ∀ decl, PackageItem.const decl ∈ source.items → ∃ value, (decl.name, value) ∈ package.constants
  body : ∃ source evaluator, program.generic? package.target.base = some source ∧
    program.evaluator registry (.instantiated package.target) = .ok evaluator ∧
    List.Forall₂ (fun entry lowered => program.ItemSpecializes registry
        (instanceContext package.target evaluator source.span entry.2) entry.1 lowered)
      source.items.zipIdx package.items

end Program

end Monomorph
