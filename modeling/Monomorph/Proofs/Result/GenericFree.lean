import Monomorph.Proofs.Lowering.Paths
import Monomorph.Proofs.Result.Flattening
import Monomorph.Proofs.Result.Retention

/-! The flattened unit has nothing generic left.

Its packages are the instances, whose generated names are distinct and reserved, and the
lowered descriptions, whose names are those of the source. Every reference in it was
directed, and a directed reference has no arguments and does not name a generic package.
-/

set_option autoImplicit false

namespace Monomorph

/-- The references in the items of a description, each with the number of constants of the body that
are visible from it. -/
def Description.sites : Description → List (Nat × Reference)
  | .package decl => decl.items.zipIdx.flatMap fun entry =>
    entry.1.references.map (Prod.mk (Program.visible decl.items.length entry.2 entry.1.const?))
  | .module decl => decl.items.zipIdx.flatMap fun entry =>
    entry.1.references.map (Prod.mk (Program.visible decl.items.length entry.2 entry.1.const?))

theorem Program.Lowers.references {program : Program} {registry : Registry} {source lowered : Description}
    (lowers : program.Lowers registry source lowered) :
    List.Forall₂ (fun site reference => program.Directs registry source.scope site.1 site.2 reference)
      source.sites lowered.references := by
  cases lowers with
  | package items =>
    apply List.rel_flatMap items
    intro entry lowered rewrites
    exact List.forall₂_map_left_iff.mpr rewrites.references
  | module items =>
    apply List.rel_flatMap items
    intro entry lowered rewrites
    exact List.forall₂_map_left_iff.mpr rewrites.references

/-- A unit without generic packages, in which names tell the descriptions apart and references name none
of the packages that were generic. -/
structure SourceUnit.FreeOf (unit source : SourceUnit) : Prop where
  names : (unit.descriptions.map (·.name)).Nodup
  packages : ∀ package, .package package ∈ unit.descriptions → package.parameters = []
  arguments : ∀ reference : Reference, reference.Occurs unit.references → reference.arguments = []
  references : ∀ reference : Reference, reference.Occurs unit.references →
    ∀ package, .package package ∈ source.descriptions → package.isGeneric = true → package.name ≠ reference.package

namespace SourceUnit

variable {unit : SourceUnit} {settings : Settings} {result : InstantiatedUnit}

/-- Where a reference stands in the source: in plain text, or in the body of a generic package as it
is read in one of its instances. -/
inductive Site (unit : SourceUnit) (settings : Settings) (result : InstantiatedUnit) :
    Scope → Nat → Reference → Prop where
  | plain {description : Description} {site : Nat × Reference} :
      description ∈ unit.descriptions → description.isGeneric = false → site ∈ description.sites →
      Site unit settings result description.scope site.1 site.2
  | generic {package : SpecializedPackage} {source : Package} {evaluator : Evaluator} {entry : PackageItem × Nat}
      {reference : Reference} :
      package ∈ result.packages → (Program.ofUnit unit settings).generic? package.target.base = some source →
      (Program.ofUnit unit settings).evaluator result.registry (.instantiated package.target) = .ok evaluator →
      entry ∈ source.items.zipIdx →
      reference ∈ (Program.instanceContext package.target evaluator source.span entry.2).references entry.1 →
      Site unit settings result (.instantiated package.target) entry.2 reference

theorem exists_directs_of_mem_references (success : unit.instantiate settings = .success result)
    {lowered : Reference} (member : lowered ∈ result.toSourceUnit.references) :
    ∃ scope position reference, unit.Site settings result scope position reference ∧
      (Program.ofUnit unit settings).Directs result.registry scope position reference lowered := by
  obtain ⟨_, there, member⟩ := List.mem_flatMap.mp member
  rcases List.mem_append.mp there with emitted | described
  · obtain ⟨package, completed, rfl⟩ := List.mem_map.mp emitted
    have registry : unit.finalRegistry settings = result.registry := (finalState_of_success success).2.2.symm
    have listed : package ∈ (unit.instantiate settings).packages := by
      rw [success]
      exact completed
    obtain ⟨source, evaluator, generic, made, items⟩ := refersWithin_of_mem_packages listed
    obtain ⟨item, here, member⟩ := List.mem_flatMap.mp (show lowered ∈ package.items.flatMap (·.references) from member)
    obtain ⟨entry, position, references⟩ := exists_left_of_forall₂ items here
    obtain ⟨reference, origin, refers⟩ := exists_left_of_forall₂ references member
    rw [registry] at made
    exact ⟨_, _, reference, .generic completed generic made position origin, registry ▸ refers.directs⟩
  · obtain ⟨source, plain, lowers⟩ :=
      exists_left_of_forall₂ ((succeeds_of_instantiate success).lowered _ (.refl _)) described
    obtain ⟨site, origin, directs⟩ := exists_left_of_forall₂ lowers.references member
    obtain ⟨declared, plain⟩ := List.mem_filter.mp plain
    exact ⟨_, _, _, .plain declared (by simpa using plain) origin, directs⟩

theorem mem_references_of_occurs (success : unit.instantiate settings = .success result) {reference : Reference}
    (occurs : reference.Occurs result.toSourceUnit.references) : reference ∈ result.toSourceUnit.references := by
  apply occurs.mem
  intro outer member
  obtain ⟨_, _, _, _, directs⟩ := exists_directs_of_mem_references success member
  rw [directs.lowered_arguments, Expr.listReferences]

theorem Succeeds.name_ne (succeeds : unit.Succeeds settings result) {description : Description}
    (member : description ∈ unit.descriptions) (target : Instance) : description.name ≠ target.name := by
  intro same
  have unreserved := succeeds.unreserved description member
  rw [same, target.isReserved_name] at unreserved
  cases unreserved

theorem Succeeds.package?_eq (succeeds : unit.Succeeds settings result) {package : Package}
    (member : .package package ∈ unit.descriptions) :
    (Program.ofUnit unit settings).package? package.name = some package := by
  have named : unit.descriptions.filter (·.name = package.name) = [.package package] :=
    filter_eq_singleton succeeds.nodup member
  rw [Program.package?_ofUnit, ← List.head?_filter, named]
  rfl

theorem Succeeds.nodup_names (succeeds : unit.Succeeds settings result)
    (emitted : (result.packages.map (·.target)).Nodup) :
    (result.toSourceUnit.descriptions.map (·.name)).Nodup := by
  have lowered : result.descriptions.map (·.name) = (unit.descriptions.filter (!·.isGeneric)).map (·.name) :=
    (map_eq_of_forall₂ (succeeds.lowered _ (.refl _)) fun _ _ lowers => lowers.name_eq.symm).symm
  have generated : (result.packages.map (Description.package ·.toPackage)).map (·.name)
      = (result.packages.map (·.target)).map Instance.name := by
    simp only [List.map_map]
    rfl
  rw [InstantiatedUnit.toSourceUnit, List.map_append, generated, lowered]
  refine List.nodup_append.mpr ⟨emitted.map fun _ _ => Instance.name_injective,
    succeeds.nodup.sublist (List.filter_sublist.map _), ?_⟩
  rintro name named _ declared rfl
  obtain ⟨target, _, rfl⟩ := List.mem_map.mp named
  obtain ⟨description, member, same⟩ := List.mem_map.mp declared
  exact succeeds.name_ne (List.mem_of_mem_filter member) target same

theorem Succeeds.name_ne_of_directs (succeeds : unit.Succeeds settings result) {scope : Scope} {position : Nat}
    {reference lowered : Reference}
    (directs : (Program.ofUnit unit settings).Directs result.registry scope position reference lowered)
    {package : Package} (member : .package package ∈ unit.descriptions) (generic : package.isGeneric = true) :
    package.name ≠ lowered.package := by
  have known := succeeds.package?_eq member
  intro same
  cases directs with
  | instantiated found binds numbered checked => exact succeeds.name_ne member _ same
  | plain found bare checked =>
    obtain ⟨found, plain⟩ := Option.filter_eq_some_iff.mp found
    rw [← same, known] at found
    cases found
    rw [generic] at plain
    cases plain
  | unknown absent bare =>
    rw [← same, known] at absent
    cases absent

/-- On success the flattened unit has distinct names and nothing generic: no parameters, no arguments and
no reference to a package that was generic. -/
theorem freeOf_of_instantiate (success : unit.instantiate settings = .success result) :
    result.toSourceUnit.FreeOf unit := by
  have succeeds := succeeds_of_instantiate success
  have directed {reference : Reference} (occurs : reference.Occurs result.toSourceUnit.references) :=
    exists_directs_of_mem_references success (mem_references_of_occurs success occurs)
  refine ⟨?_, ?_, ?_, ?_⟩
  · apply succeeds.nodup_names
    rw [(finalState_of_success success).2.1]
    exact (unit.rests_finalState settings).coherent.nodup
  · intro package member
    rcases List.mem_append.mp member with emitted | lowered
    · obtain ⟨_, _, same⟩ := List.mem_map.mp emitted
      cases same
      rfl
    · obtain ⟨_, _, lowers⟩ := exists_left_of_forall₂ (succeeds.lowered _ (.refl _)) lowered
      cases lowers
      rfl
  · intro reference occurs
    obtain ⟨_, _, _, _, directs⟩ := directed occurs
    exact directs.lowered_arguments
  · intro reference occurs package member generic
    obtain ⟨_, _, _, _, directs⟩ := directed occurs
    exact succeeds.name_ne_of_directs directs member generic

theorem freeOf_sampleUnit : ∃ result, sampleUnit.instantiate {} = .success result ∧
    result.toSourceUnit.FreeOf sampleUnit ∧ result.toSourceUnit.references ≠ [] := by
  have emitted : (sampleUnit.run? {} 20).map (fun final => (final.2.faults.isEmpty,
      (final.1.flatMap Description.references).isEmpty)) = some (true, false) := by decide +kernel
  obtain ⟨⟨descriptions, final⟩, ran, both⟩ := Option.map_eq_some_iff.mp emitted
  rw [Prod.mk.injEq] at both
  have success := instantiate_eq_success ran both.1
  refine ⟨_, success, freeOf_of_instantiate success, fun none => ?_⟩
  have none : descriptions.flatMap Description.references = [] := by
    have whole := List.flatMap_append.symm.trans none
    exact (List.append_eq_nil_iff.mp whole).2
  rw [none] at both
  exact absurd both.2 (by decide)

end SourceUnit
end Monomorph
