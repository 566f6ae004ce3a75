import Monomorph.Proofs.Result.GenericFree

/-! What refers to a generated name.

A reference of the flattened unit leads to the package of an instance if it stands for a
reference to the generic package with the arguments of the instance. Declared names
cannot be generated ones, but a reference may be written with any name: one that is
written with the name of an instance names nothing in the source and is kept.
-/

set_option autoImplicit false

namespace Monomorph

structure Program.Generates (program : Program) (registry : Registry) (scope : Scope) (position : Nat)
    (reference : Reference) (target : Instance) : Prop where
  base : reference.package = target.base
  bound : ∃ package arguments, program.generic? reference.package = some package ∧
    program.Binds registry scope position package reference.arguments arguments ∧
    registry.find? target.base arguments = some target.id

structure SourceUnit.Hygienic (unit : SourceUnit) (settings : Settings) (result : InstantiatedUnit) : Prop where
  /-- Every reference of the result stands for one of the source. -/
  origin : ∀ lowered : Reference, lowered.Occurs result.toSourceUnit.references →
    ∃ scope position reference, unit.Site settings result scope position reference ∧
      (Program.ofUnit unit settings).Directs result.registry scope position reference lowered
  /-- It leads to an instance if that one is asked for, or if its name is written out. -/
  generated : ∀ scope position reference lowered,
    (Program.ofUnit unit settings).Directs result.registry scope position reference lowered →
    ∀ emitted ∈ result.packages, lowered.package = emitted.name ↔
      (Program.ofUnit unit settings).Generates result.registry scope position reference emitted.target ∨
        reference.package = emitted.name
  /-- A name that is written out so is not declared, and the reference is kept. -/
  written : ∀ scope position reference lowered,
    (Program.ofUnit unit settings).Directs result.registry scope position reference lowered →
    ∀ emitted ∈ result.packages, reference.package = emitted.name →
      lowered = reference ∧ ∀ description ∈ unit.descriptions, description.name ≠ reference.package

theorem Program.Directs.span_eq {program : Program} {registry : Registry} {scope : Scope} {position : Nat}
    {reference lowered : Reference} (directs : program.Directs registry scope position reference lowered) :
    lowered.span = reference.span := by
  cases directs <;> rfl

namespace SourceUnit

variable {unit : SourceUnit} {settings : Settings} {result : InstantiatedUnit} {scope : Scope} {position : Nat}
  {reference lowered : Reference} {target : Instance}

theorem Succeeds.generic?_name (succeeds : unit.Succeeds settings result) (target : Instance) :
    (Program.ofUnit unit settings).generic? target.name = none := by
  cases found : (Program.ofUnit unit settings).generic? target.name with
  | none => rfl
  | some package =>
    have unreserved := succeeds.isReserved_of_package? (Program.generic?_eq_some found)
    rw [target.isReserved_name] at unreserved
    cases unreserved

theorem Succeeds.package_eq_name_iff (succeeds : unit.Succeeds settings result)
    (directs : (Program.ofUnit unit settings).Directs result.registry scope position reference lowered) :
    lowered.package = target.name ↔
      (Program.ofUnit unit settings).Generates result.registry scope position reference target ∨
        reference.package = target.name := by
  cases generic : (Program.ofUnit unit settings).generic? reference.package with
  | none =>
    rw [directs.eq_of_plain generic]
    constructor
    · exact .inr
    · rintro (⟨_, package, _, found, _⟩ | same)
      · rw [generic] at found
        cases found
      · exact same
  | some package =>
    obtain ⟨id, arguments, binds, found, _, rfl⟩ := directs.generic generic
    constructor
    · intro same
      have target_eq : (⟨reference.package, id⟩ : Instance) = target := Instance.name_injective same
      subst target_eq
      exact .inl ⟨rfl, package, arguments, generic, binds, found⟩
    · rintro (⟨base, other, bound, generic', binds', found'⟩ | same)
      · rw [generic] at generic'
        cases generic'
        cases binds.unique binds'
        rw [base, found'] at found
        cases found
        simp only [Reference.redirect, base]
      · rw [same, succeeds.generic?_name target] at generic
        cases generic

/-- On success a reference leads to the package of an instance exactly if it names the generic package
with arguments that are bound to the instance, or is itself written with the generated name. -/
theorem hygienic_of_instantiate (success : unit.instantiate settings = .success result) :
    unit.Hygienic settings result where
  origin _ occurs := exists_directs_of_mem_references success (mem_references_of_occurs success occurs)
  generated _ _ _ _ directs _ _ := (succeeds_of_instantiate success).package_eq_name_iff directs
  written _ _ _ _ directs emitted _ written := by
    have succeeds := succeeds_of_instantiate success
    refine ⟨directs.eq_of_plain ?_, fun description member same => ?_⟩
    · rw [written]
      exact succeeds.generic?_name emitted.target
    · exact succeeds.name_ne member emitted.target (same.trans written)

end SourceUnit

def namedPackage : Package :=
  ⟨"P", [⟨"N", .const, nowhere⟩], [.const ⟨"X", none, .ident "N", nowhere⟩], nowhere⟩

def namedUnit : SourceUnit :=
  ⟨"named",
    [.package namedPackage,
      .module ⟨"Top",
        [.const ⟨"C", none, .reference "P" [.int 1] ["X"] ⟨none, 1, 1⟩, nowhere⟩,
          .const ⟨"D", none, .reference "__P__1" [] ["X"] ⟨none, 2, 1⟩, nowhere⟩], nowhere⟩]⟩

theorem namedUnit_ends : ∃ result emitted, namedUnit.instantiate {} = .success result ∧
    result.packages = [emitted] ∧ emitted.target = firstOf "P" ∧
    result.toSourceUnit.references.map (fun reference => (reference.package, reference.span))
      = [("__P__1", ⟨none, 1, 1⟩), ("__P__1", ⟨none, 2, 1⟩)] := by
  have evaluated : (namedUnit.run? {} 20).map (fun final => (final.2.faults.isEmpty,
      final.2.specialized.map (·.target), (InstantiatedUnit.toSourceUnit ⟨"named", final.1, final.2.specialized,
        final.2.registry⟩).references.map fun reference => (reference.package, reference.span)))
      = some (true, [firstOf "P"], [("__P__1", ⟨none, 1, 1⟩), ("__P__1", ⟨none, 2, 1⟩)]) := by decide +kernel
  obtain ⟨⟨descriptions, final⟩, ran, parts⟩ := Option.map_eq_some_iff.mp evaluated
  rw [Prod.mk.injEq, Prod.mk.injEq] at parts
  obtain ⟨clean, targets, references⟩ := parts
  obtain ⟨emitted, packages, target⟩ := List.map_eq_singleton_iff.mp targets
  exact ⟨_, emitted, SourceUnit.instantiate_eq_success ran clean, packages, target, references⟩

theorem hygienic_namedUnit : ∃ result emitted, namedUnit.instantiate {} = .success result ∧
    emitted ∈ result.packages ∧ namedUnit.Hygienic {} result := by
  obtain ⟨result, emitted, success, packages, _⟩ := namedUnit_ends
  exact ⟨result, emitted, success, packages ▸ List.mem_singleton_self _, SourceUnit.hygienic_of_instantiate success⟩

/-- The references of the source that name the package were not written where the last one was. -/
theorem span_of_site_namedUnit {result : InstantiatedUnit} {emitted : SpecializedPackage} {scope : Scope}
    {position : Nat} {reference : Reference} (packages : result.packages = [emitted])
    (target : emitted.target = firstOf "P") (site : namedUnit.Site {} result scope position reference)
    (base : reference.package = "P") : reference.span = ⟨none, 1, 1⟩ := by
  cases site with
  | @plain description site declared plain there =>
    rcases List.mem_cons.mp declared with rfl | declared
    · cases plain
    · cases List.mem_singleton.mp declared
      have written : (site.2.package, site.2.span) ∈ [("P", (⟨none, 1, 1⟩ : Span)), ("__P__1", ⟨none, 2, 1⟩)] :=
        List.mem_map_of_mem (f := fun site : Nat × Reference => (site.2.package, site.2.span)) there
      simp_all
  | generic completed generic made there mentioned =>
    rw [packages] at completed
    cases List.mem_singleton.mp completed
    rw [target] at generic
    have source : (Program.ofUnit namedUnit {}).generic? (firstOf "P").base = some namedPackage := rfl
    rw [source] at generic
    cases generic
    cases List.mem_singleton.mp there
    cases mentioned

/-- The reference that is written with the generated name leads to the instance without having asked for it. -/
theorem not_generates_namedUnit : ∃ result emitted lowered, namedUnit.instantiate {} = .success result ∧
    emitted ∈ result.packages ∧ lowered.Occurs result.toSourceUnit.references ∧ lowered.package = emitted.name ∧
    ∀ scope position reference, namedUnit.Site {} result scope position reference →
      (Program.ofUnit namedUnit {}).Directs result.registry scope position reference lowered →
      ¬ (Program.ofUnit namedUnit {}).Generates result.registry scope position reference emitted.target := by
  obtain ⟨result, emitted, success, packages, target, references⟩ := namedUnit_ends
  have last : ("__P__1", (⟨none, 2, 1⟩ : Span)) ∈ result.toSourceUnit.references.map
      (fun reference => (reference.package, reference.span)) := by
    rw [references]
    exact List.mem_cons_of_mem _ (List.mem_singleton_self _)
  obtain ⟨lowered, member, same⟩ := List.mem_map.mp last
  obtain ⟨package, span⟩ := Prod.mk.inj same
  refine ⟨result, emitted, lowered, success, packages ▸ List.mem_singleton_self _, .here member, ?_, ?_⟩
  · rw [package, SpecializedPackage.name, target]
    decide
  · intro scope position reference site directs generates
    have base := generates.base
    rw [target] at base
    have elsewhere := span_of_site_namedUnit packages target site base
    rw [← directs.span_eq, span] at elsewhere
    exact absurd elsewhere (by decide)

end Monomorph
