import Monomorph.Proofs.Denotation.Laws
import Monomorph.Proofs.Lowering.Paths

/-! Programs within wider ones.

A wider program declares what a program declares and possibly more, but nothing under
a name that the program refers to and does not declare. What the program looks up, it
then finds in the wider program too: the bodies of its own scopes, and the packages
that its references lead to. The references of what is found are its own again.
-/

set_option autoImplicit false

namespace Monomorph

theorem Reference.Occurs.mono {reference : Reference} {references more : List Reference}
    (occurs : reference.Occurs references) (subset : references ⊆ more) : reference.Occurs more := by
  cases occurs with
  | here member => exact .here (subset member)
  | inside member nested => exact .inside (subset member) nested

namespace Reference

variable {program wider : Program} {reference : Reference}

/-- Two programs have the same package under the name of a reference, and of every reference in its
arguments. -/
def Visible (program wider : Program) (reference : Reference) : Prop :=
  ∀ inner : Reference, inner.Occurs [reference] → wider.package? inner.package = program.package? inner.package

theorem Visible.package?_eq (visible : reference.Visible program wider) :
    wider.package? reference.package = program.package? reference.package :=
  visible reference (.here (List.mem_singleton_self _))

theorem Visible.generic?_eq (visible : reference.Visible program wider) :
    wider.generic? reference.package = program.generic? reference.package := by
  simp only [Program.generic?, visible.package?_eq]

theorem Visible.plain?_eq (visible : reference.Visible program wider) :
    wider.plain? reference.package = program.plain? reference.package := by
  simp only [Program.plain?, visible.package?_eq]

theorem Visible.arguments (visible : reference.Visible program wider) :
    ∀ inner ∈ Expr.listReferences reference.arguments, inner.Visible program wider := by
  intro inner member deeper occurs
  apply visible deeper
  exact .inside (List.mem_singleton_self _) (occurs.mono (List.cons_subset.mpr ⟨member, List.nil_subset _⟩))

end Reference

theorem Package.mem_references {package : Package} {item : PackageItem} (member : item ∈ package.items)
    {reference : Reference} (listed : reference ∈ item.references) : reference ∈ package.references :=
  List.mem_append_right _ (List.mem_flatMap.mpr ⟨item, member, listed⟩)

namespace Program

/-- A wider program. It may declare more, but not what the program refers to and misses. -/
structure Within (program wider : Program) : Prop where
  settings : wider.settings = program.settings
  packages : ∀ name package, program.package? name = some package → wider.package? name = some package
  modules : ∀ name decl, program.module? name = some decl → wider.module? name = some decl
  visible : ∀ description ∈ program.descriptions, ∀ reference ∈ description.references,
    reference.Visible program wider

inductive Covers (program : Program) : Scope → Prop where
  | instantiated {target : Instance} {package : Package} :
      program.package? target.base = some package → Covers program (.instantiated target)
  | package {name : String} {package : Package} :
      program.package? name = some package → Covers program (.package name)
  | module {name : String} {decl : Module} :
      program.module? name = some decl → Covers program (.module name)

variable {program wider : Program} {scope : Scope}

theorem Within.emptyEvaluator_eq (within : program.Within wider) :
    wider.emptyEvaluator = program.emptyEvaluator := by
  simp only [emptyEvaluator, within.settings]

theorem Within.findConst_eq (within : program.Within wider) (covers : program.Covers scope) (name : String) :
    wider.findConst scope name = program.findConst scope name := by
  cases covers with
  | instantiated found => simp only [findConst, generic?, found, within.packages _ _ found]
  | package found => simp only [findConst, plain?, found, within.packages _ _ found]
  | module found => simp only [findConst, found, within.modules _ _ found]

theorem Within.declares_eq (within : program.Within wider) (covers : program.Covers scope) (name : String) :
    wider.declares scope name = program.declares scope name := by
  cases covers with
  | instantiated found => simp only [declares, generic?, found, within.packages _ _ found]
  | package found => simp only [declares, plain?, found, within.packages _ _ found]
  | module found => simp only [declares, found, within.modules _ _ found]

theorem Within.evaluatorFor_eq (within : program.Within wider) (covers : program.Covers scope) :
    wider.evaluatorFor scope = program.evaluatorFor scope := by
  have same (registry : Registry) : wider.evaluator registry scope = program.evaluator registry scope := by
    cases covers with
    | instantiated found =>
      simp only [evaluator, generic?, found, within.packages _ _ found, within.emptyEvaluator_eq]
    | package found => simp only [evaluator, within.emptyEvaluator_eq]
    | module found => simp only [evaluator, within.emptyEvaluator_eq]
  simp only [evaluatorFor, same]

theorem Within.visible_of_findConst (within : program.Within wider) {name : String} {position : Nat}
    {decl : ConstDecl} (found : program.findConst scope name = some (position, decl)) :
    ∀ reference ∈ decl.references, reference.Visible program wider := by
  have inPackage {source : Package} {other : String} (known : program.package? other = some source)
      (found : source.findConst name = some (position, decl)) :
      ∀ reference ∈ decl.references, reference.Visible program wider := by
    obtain ⟨item, member, same⟩ := List.mem_map.mp (mem_of_findConst found).1
    intro reference listed
    apply within.visible _ (package_mem_of_package? known).1
    apply Package.mem_references member
    cases item <;> cases same
    exact listed
  cases scope with
  | instantiated target =>
    obtain ⟨source, generic, found⟩ := Option.bind_eq_some_iff.mp found
    exact inPackage (generic?_eq_some generic) found
  | package other =>
    obtain ⟨source, plain, found⟩ := Option.bind_eq_some_iff.mp found
    exact inPackage (plain?_eq_some plain) found
  | module other =>
    obtain ⟨source, known, found⟩ := Option.bind_eq_some_iff.mp found
    obtain ⟨item, member, same⟩ := List.mem_map.mp (mem_of_findConst found).1
    intro reference listed
    apply within.visible _ (module_mem_of_module? known).1
    refine List.mem_flatMap.mpr ⟨item, member, ?_⟩
    cases item <;> cases same
    exact listed

end Program
end Monomorph
