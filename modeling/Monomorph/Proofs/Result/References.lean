import Monomorph.Proofs.Denotation.Resolver
import Monomorph.Proofs.Result.Success

/-! Rewriting of references.

A unit that is instantiated keeps its plain packages and modules as they are, but
for the references to generic packages. Each of these leads to the instance that
the registry has for its arguments, and two of them lead to the same instance just
when they name the same package with equal arguments.
-/

set_option autoImplicit false

namespace Monomorph

theorem Package.declares_iff {package : Package} {name : String} :
    package.declares name = true ↔ name ∈ package.items.map (·.name) := by
  unfold declares findItem
  rw [List.findSome?_isSome_iff, List.mem_map]
  constructor
  · rintro ⟨⟨item, index⟩, member, here⟩
    simp only at here
    split at here
    · rename_i named
      exact ⟨item, List.fst_mem_of_mem_zipIdx member, named⟩
    · cases here
  · rintro ⟨item, member, named⟩
    obtain ⟨index, there⟩ := List.mem_iff_getElem?.mp member
    exact ⟨(item, index), List.mk_mem_zipIdx_iff_getElem?.mpr there, by simp [named]⟩

theorem Package.declares_of_checkMember {package : Package} {reference : Reference} {member : String}
    (checked : package.checkMember reference = .ok ()) (first : reference.members.head? = some member) :
    package.declares member = true := by
  unfold checkMember at checked
  split at checked
  · rename_i named rest members
    rw [members] at first
    cases first
    split at checked
    · assumption
    · cases checked
  · rename_i members
    rw [members] at first
    cases first

namespace Program

variable {program : Program} {registry : Registry}

theorem ItemSpecializes.name_eq {context : Context} {item lowered : PackageItem}
    (specializes : program.ItemSpecializes registry context item lowered) : lowered.name = item.name := by
  cases specializes with
  | const value type => rfl
  | item notConst rewrites => exact rewrites.name_eq

theorem Specializes.declares {package : SpecializedPackage} {source : Package} {member : String}
    (specializes : program.Specializes registry package)
    (generic : program.generic? package.target.base = some source) (declared : source.declares member = true) :
    package.toPackage.declares member = true := by
  obtain ⟨other, evaluator, found, _, items⟩ := specializes.body
  rw [generic] at found
  cases found
  have names : source.items.zipIdx.map (PackageItem.name ∘ Prod.fst) = package.items.map (·.name) :=
    map_eq_of_forall₂ items fun _ _ specializes => specializes.name_eq.symm
  rw [← List.map_map, List.zipIdx_map_fst] at names
  apply Package.declares_iff.mpr
  show member ∈ package.items.map (·.name)
  rw [← names]
  exact Package.declares_iff.mp declared

variable {scope scope' : Scope} {position position' : Nat} {reference lowered reference' lowered' : Reference}
  {package package' : Package} {bound bound' : Arguments}

theorem Directs.eq_of_plain (directs : program.Directs registry scope position reference lowered)
    (plain : program.generic? reference.package = none) : lowered = reference := by
  cases directs with
  | instantiated generic binds found checked =>
    rw [plain] at generic
    cases generic
  | plain found none checked => rfl
  | unknown none none' => rfl

theorem Directs.arguments_eq_nil (directs : program.Directs registry scope position reference lowered)
    (plain : program.generic? reference.package = none) : reference.arguments = [] := by
  cases directs with
  | instantiated generic binds found checked =>
    rw [plain] at generic
    cases generic
  | plain found none checked => exact none
  | unknown absent none => exact none

theorem Directs.generic (directs : program.Directs registry scope position reference lowered)
    (generic : program.generic? reference.package = some package) :
    ∃ id bound, program.Binds registry scope position package reference.arguments bound ∧
      registry.find? reference.package bound = some id ∧ package.checkMember reference = .ok () ∧
      lowered = reference.redirect ⟨reference.package, id⟩ := by
  cases directs with
  | instantiated found binds known checked =>
    rw [generic] at found
    cases found
    rw [name_of_generic? generic] at known ⊢
    exact ⟨_, _, binds, known, checked, rfl⟩
  | plain plain _ _ =>
    rw [plain?_of_generic? generic] at plain
    cases plain
  | unknown none _ =>
    rw [generic?_eq_some generic] at none
    cases none

theorem Directs.package_eq_iff (directs : program.Directs registry scope position reference lowered)
    (directs' : program.Directs registry scope' position' reference' lowered')
    (generic : program.generic? reference.package = some package)
    (generic' : program.generic? reference'.package = some package')
    (binds : program.Binds registry scope position package reference.arguments bound)
    (binds' : program.Binds registry scope' position' package' reference'.arguments bound') :
    lowered.package = lowered'.package ↔
      reference.package = reference'.package ∧ bound.same bound' = true := by
  obtain ⟨id, other, again, found, _, redirected⟩ := directs.generic generic
  cases binds.unique again
  obtain ⟨id', other', again', found', _, redirected'⟩ := directs'.generic generic'
  cases binds'.unique again'
  subst redirected redirected'
  constructor
  · intro same
    have targets : Instance.mk reference.package id = ⟨reference'.package, id'⟩ := Instance.name_injective same
    rw [Instance.mk.injEq] at targets
    obtain ⟨base, number⟩ := targets
    rw [base, number] at found
    exact ⟨base, Registry.same_of_find? found found'⟩
  · rintro ⟨base, same⟩
    rw [base, Registry.find?_congr same, found'] at found
    cases found
    simp only [Reference.redirect, base]

end Program

/-- A reference to a generic package is replaced by one to an instance of it. The instance is the one
for the set that the arguments are bound to where the reference stands, and it declares what the
reference names first. -/
structure InstantiatedUnit.Redirects (result : InstantiatedUnit) (program : Program) (scope : Scope)
    (position : Nat) (package : Package) (reference lowered : Reference) (id : InstanceId)
    (bound : Arguments) : Prop where
  binds : program.Binds result.registry scope position package reference.arguments bound
  bindArguments : ∀ resolver evaluator, Resolver.Denotes resolver program result.registry scope position →
    program.evaluator result.registry scope = .ok evaluator →
    (package.bindArguments reference.arguments evaluator resolver reference.span).run = .ok bound
  resolves : ∃ stored, result.registry.resolve ⟨reference.package, id⟩ = .ok stored ∧ stored.same bound = true
  lowered_eq : lowered = ⟨Instance.name ⟨reference.package, id⟩, [], reference.members, reference.span⟩
  declares : ∃ emitted ∈ result.packages, emitted.name = lowered.package ∧
    ∀ member, reference.members.head? = some member → emitted.toPackage.declares member = true

structure SourceUnit.RewritesReferences (unit : SourceUnit) (settings : Settings) (result : InstantiatedUnit) :
    Prop where
  /-- Plain packages and modules are kept in order, and nothing but references changes in them. -/
  descriptions : List.Forall₂ ((Program.ofUnit unit settings).Lowers result.registry)
    (unit.descriptions.filter (!·.isGeneric)) result.descriptions
  plain : ∀ scope position reference lowered,
    (Program.ofUnit unit settings).Directs result.registry scope position reference lowered →
    (Program.ofUnit unit settings).generic? reference.package = none → lowered = reference
  generic : ∀ scope position reference lowered package,
    (Program.ofUnit unit settings).Directs result.registry scope position reference lowered →
    (Program.ofUnit unit settings).generic? reference.package = some package →
    ∃ id bound, result.Redirects (.ofUnit unit settings) scope position package reference lowered id bound
  /-- References get the same qualifier just when they name the same package with equal arguments. -/
  qualifier : ∀ scope position reference lowered package bound scope' position' reference' lowered' package' bound',
    (Program.ofUnit unit settings).Directs result.registry scope position reference lowered →
    (Program.ofUnit unit settings).Directs result.registry scope' position' reference' lowered' →
    (Program.ofUnit unit settings).generic? reference.package = some package →
    (Program.ofUnit unit settings).generic? reference'.package = some package' →
    (Program.ofUnit unit settings).Binds result.registry scope position package reference.arguments bound →
    (Program.ofUnit unit settings).Binds result.registry scope' position' package' reference'.arguments bound' →
    (lowered.package = lowered'.package ↔ reference.package = reference'.package ∧ bound.same bound' = true)

namespace SourceUnit

variable {unit : SourceUnit} {settings : Settings} {result : InstantiatedUnit}

theorem Succeeds.redirects (succeeds : unit.Succeeds settings result) {scope : Scope} {position : Nat}
    {reference lowered : Reference} {package : Package}
    (directs : (Program.ofUnit unit settings).Directs result.registry scope position reference lowered)
    (generic : (Program.ofUnit unit settings).generic? reference.package = some package) :
    ∃ id bound, result.Redirects (.ofUnit unit settings) scope position package reference lowered id bound := by
  obtain ⟨id, bound, binds, found, checked, redirected⟩ := directs.generic generic
  obtain ⟨stored, known, same⟩ := Registry.get?_of_find? found
  obtain ⟨emitted, member, target⟩ := succeeds.emitted _ _ known
  refine ⟨id, bound, binds, ?_, ⟨stored, Registry.resolve_eq_ok.mpr known, same⟩, redirected, emitted, member, ?_, ?_⟩
  · intro resolver evaluator denotes made
    exact (Program.bindArguments_eq_ok_iff denotes made).mpr binds
  · rw [redirected, SpecializedPackage.name, target]
    rfl
  · intro first listed
    apply (succeeds.completed emitted member _ (.refl _)).declares
    · rw [target]
      exact generic
    · exact Package.declares_of_checkMember checked listed

/-- On success the plain text of a unit is kept but for its references to generic packages, and
these are redirected to the instances of their arguments. -/
theorem rewritesReferences_of_instantiate (success : unit.instantiate settings = .success result) :
    unit.RewritesReferences settings result where
  descriptions := (succeeds_of_instantiate success).lowered _ (.refl _)
  plain _ _ _ _ directs plain := directs.eq_of_plain plain
  generic _ _ _ _ _ directs generic := (succeeds_of_instantiate success).redirects directs generic
  qualifier _ _ _ _ _ _ _ _ _ _ _ _ directs directs' generic generic' binds binds' :=
    directs.package_eq_iff directs' generic generic' binds binds'

theorem rewritesReferences_sampleUnit :
    ∃ result, sampleUnit.instantiate {} = .success result ∧ sampleUnit.RewritesReferences {} result := by
  have clean : (sampleUnit.run? {} 20).map (·.2.faults.isEmpty) = some true := by decide +kernel
  obtain ⟨result, success⟩ := exists_success clean
  exact ⟨result, success, rewritesReferences_of_instantiate success⟩

end SourceUnit
end Monomorph
