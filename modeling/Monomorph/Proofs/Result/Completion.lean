import Monomorph.Proofs.Dependency.Rest
import Monomorph.Proofs.Result.Success
import Monomorph.Report

/-! What has become of every instance.

At the end of a pass each instance that has a number is done or has failed, and the
packages are those of the done ones, one for each. Without a fault all are done, and
the packages, the instances of the registry and the records of the report are the same
up to order.
-/

set_option autoImplicit false

namespace Monomorph

theorem filter_eq_singleton {α β : Type} [DecidableEq β] {items : List α} {key : α → β} {item : α}
    (nodup : (items.map key).Nodup) (member : item ∈ items) :
    items.filter (fun other => decide (key other = key item)) = [item] := by
  induction items with
  | nil => cases member
  | cons first rest ih =>
    rw [List.map_cons, List.nodup_cons] at nodup
    obtain ⟨fresh, nodup⟩ := nodup
    rcases List.mem_cons.mp member with here | later
    · subst here
      have none : rest.filter (fun other => decide (key other = key item)) = [] := by
        apply List.filter_eq_nil_iff.mpr
        intro other there same
        exact fresh (of_decide_eq_true same ▸ List.mem_map_of_mem there)
      rw [List.filter_cons, if_pos (decide_eq_true rfl), none]
    · have apart : key first ≠ key item := fun same => fresh (same ▸ List.mem_map_of_mem later)
      rw [List.filter_cons_of_neg (by rw [decide_eq_true_iff]; exact apart)]
      exact ih nodup later

def SpecializedPackage.record (package : SpecializedPackage) : InstanceRecord :=
  ⟨package.name, package.target.base, UInt32.ofNat package.target.id.number, package.arguments.map Value.text⟩

/-- Packages, instances and records correspond one to one. -/
structure InstantiatedUnit.Corresponds (result : InstantiatedUnit) : Prop where
  listed : ∀ target arguments, (target, arguments) ∈ result.registry.toList ↔
    result.registry.resolve target = .ok arguments
  nodup : (result.registry.toList.map Prod.fst).Nodup
  packages : (result.packages.map fun package => (package.target, package.arguments)).Perm result.registry.toList
  records : (result.packages.map SpecializedPackage.record).Perm (Report.ofUnit result).instances
  names : ((Report.ofUnit result).instances.map (·.name)).Nodup

/-- No instance is lost, and none is there twice. -/
structure SourceUnit.Accounts (unit : SourceUnit) (settings : Settings) : Prop where
  queue : (unit.finalState settings).queue = []
  ended : ∀ target arguments, (unit.finalRegistry settings).resolve target = .ok arguments →
    (unit.finalState settings).instances.get? target = some .done ∨
      ∃ fault, (unit.finalState settings).instances.get? target = some (.failed fault)
  /-- A done instance has one package under its name, with the arguments of its number. -/
  done : ∀ target, (unit.finalState settings).instances.get? target = some .done → ∃ package,
    (unit.instantiate settings).packages.filter (·.name = target.name) = [package] ∧
      package.target = target ∧ (unit.finalRegistry settings).resolve target = .ok package.arguments
  /-- No other instance has one. -/
  others : ∀ target, (unit.finalState settings).instances.get? target ≠ some .done →
    (unit.instantiate settings).packages.filter (·.name = target.name) = []
  success : ∀ result, unit.instantiate settings = .success result →
    (∀ target arguments, result.registry.resolve target = .ok arguments →
      (unit.finalState settings).instances.get? target = some .done) ∧ result.Corresponds

namespace State

variable {state : State} {target : Instance} {arguments : Arguments} {program : Program}

theorem Coherent.nodup (coherent : state.Coherent) : (state.specialized.map (·.target)).Nodup := by
  rw [coherent.completed]
  exact coherent.lawful.nodup_completions

theorem Coherent.exists_package_iff (coherent : state.Coherent) :
    (∃ package ∈ state.specialized, package.target = target) ↔ state.instances.get? target = some .done := by
  rw [← coherent.lawful.mem_completions, ← coherent.completed, List.mem_map]

theorem Rests.ended (rests : state.Rests program) (queue : state.queue = [])
    (known : state.registry.Knows target) :
    state.instances.get? target = some .done ∨ ∃ fault, state.instances.get? target = some (.failed fault) := by
  obtain ⟨entry, found⟩ := Option.isSome_iff_exists.mp ((rests.coherent.registered target).mpr known)
  cases entry with
  | queued =>
    have waits := (rests.coherent.waiting target).mpr found
    rw [queue] at waits
    cases waits
  | inProgress => exact absurd found (rests.idle target)
  | done => exact .inl found
  | failed fault => exact .inr ⟨fault, found⟩

theorem Coherent.filter_name (coherent : state.Coherent) (done : state.instances.get? target = some .done) :
    ∃ package, state.specialized.filter (·.name = target.name) = [package] ∧ package.target = target ∧
      state.registry.resolve target = .ok package.arguments := by
  obtain ⟨package, member, same⟩ := coherent.exists_package_iff.mpr done
  subst same
  refine ⟨package, ?_, rfl, Registry.resolve_eq_ok.mpr (coherent.arguments package member)⟩
  -- names are as distinct as the instances that they belong to
  apply filter_eq_singleton _ member
  have names : state.specialized.map SpecializedPackage.name
      = (state.specialized.map (·.target)).map Instance.name := by
    rw [List.map_map]
    rfl
  rw [names]
  exact coherent.nodup.map fun _ _ same => Instance.name_injective same

theorem Coherent.filter_name_eq_nil (coherent : state.Coherent)
    (unfinished : state.instances.get? target ≠ some .done) :
    state.specialized.filter (·.name = target.name) = [] := by
  apply List.filter_eq_nil_iff.mpr
  intro package member same
  have target_eq : package.target = target := Instance.name_injective (of_decide_eq_true same)
  exact unfinished (coherent.exists_package_iff.mp ⟨package, member, target_eq⟩)

theorem Coherent.perm_toList (coherent : state.Coherent)
    (done : ∀ target, state.registry.Knows target → state.instances.get? target = some .done) :
    (state.specialized.map fun package => (package.target, package.arguments)).Perm state.registry.toList := by
  have distinct : (state.specialized.map fun package => (package.target, package.arguments)).Nodup := by
    apply List.Nodup.of_map Prod.fst
    rw [List.map_map]
    exact coherent.nodup
  apply (List.perm_ext_iff_of_nodup distinct (List.Nodup.of_map Prod.fst (Registry.nodup_toList _))).mpr
  rintro ⟨target, arguments⟩
  rw [Registry.mem_toList, List.mem_map]
  constructor
  · rintro ⟨package, member, same⟩
    cases same
    exact coherent.arguments package member
  · intro found
    have finished := done target (Option.isSome_iff_exists.mpr ⟨arguments, found⟩)
    obtain ⟨package, member, same⟩ := coherent.exists_package_iff.mpr finished
    have stored := coherent.arguments package member
    rw [same, found] at stored
    exact ⟨package, member, by rw [same, Option.some.inj stored]⟩

end State

namespace SourceUnit

variable {unit : SourceUnit} {settings : Settings} {result : InstantiatedUnit}

theorem finalState_of_success (success : unit.instantiate settings = .success result) :
    (unit.finalState settings).faults = [] ∧ result.packages = (unit.finalState settings).specialized ∧
      result.registry = (unit.finalState settings).registry := by
  simp only [instantiate, outcome] at success
  split at success
  · rename_i empty
    cases success
    exact ⟨List.isEmpty_iff.mp empty, rfl, rfl⟩
  · cases success

theorem done_of_success (success : unit.instantiate settings = .success result) {target : Instance}
    (known : result.registry.Knows target) :
    (unit.finalState settings).instances.get? target = some .done := by
  obtain ⟨clean, _, registry⟩ := finalState_of_success success
  rw [registry] at known
  rcases (unit.rests_finalState settings).ended (unit.queue_finalState settings) known with done | ⟨fault, failed⟩
  · exact done
  · exact absurd failed ((final_endFrom 1000).settled.clean clean target fault)

theorem corresponds_of_success (success : unit.instantiate settings = .success result) : result.Corresponds := by
  obtain ⟨_, packages, registry⟩ := finalState_of_success success
  have coherent := (unit.rests_finalState settings).coherent
  have listed : (result.packages.map fun package => (package.target, package.arguments)).Perm
      result.registry.toList := by
    rw [packages, registry]
    apply coherent.perm_toList
    intro target known
    exact done_of_success success (registry ▸ known)
  refine ⟨fun target arguments => ?_, result.registry.nodup_toList, listed, ?_, ?_⟩
  · rw [Registry.mem_toList, Registry.resolve_eq_ok]
  · have records := listed.map fun entry : Instance × Arguments => (⟨entry.1.name, entry.1.base,
      UInt32.ofNat entry.1.id.number, entry.2.map Value.text⟩ : InstanceRecord)
    rw [List.map_map] at records
    exact records
  · have names : (Report.ofUnit result).instances.map (·.name)
        = (result.registry.toList.map Prod.fst).map Instance.name := by
      simp only [Report.ofUnit, List.map_map]
      rfl
    rw [names]
    exact result.registry.nodup_toList.map fun _ _ same => Instance.name_injective same

/-- Every instance that has a number is accounted for at the end of the pass, whether it succeeds or
fails. -/
theorem accounts (unit : SourceUnit) (settings : Settings) : unit.Accounts settings where
  queue := unit.queue_finalState settings
  ended target arguments resolved :=
    (unit.rests_finalState settings).ended (unit.queue_finalState settings)
      (Option.isSome_iff_exists.mpr ⟨arguments, Registry.resolve_eq_ok.mp resolved⟩)
  done target finished := by
    rw [packages_instantiate]
    exact (unit.rests_finalState settings).coherent.filter_name finished
  others target unfinished := by
    rw [packages_instantiate]
    exact (unit.rests_finalState settings).coherent.filter_name_eq_nil unfinished
  success result success :=
    ⟨fun target arguments resolved => done_of_success success
      (Option.isSome_iff_exists.mpr ⟨arguments, Registry.resolve_eq_ok.mp resolved⟩),
      corresponds_of_success success⟩

theorem accounts_sampleUnit : ∃ result, sampleUnit.instantiate {} = .success result ∧ result.packages ≠ [] ∧
    result.Corresponds := by
  have emitted : (sampleUnit.run? {} 20).map (fun final => (final.2.faults.isEmpty, final.2.specialized.isEmpty))
      = some (true, false) := by decide +kernel
  obtain ⟨⟨descriptions, final⟩, ran, both⟩ := Option.map_eq_some_iff.mp emitted
  rw [Prod.mk.injEq] at both
  have success := instantiate_eq_success ran both.1
  refine ⟨_, success, fun none => ?_, ((accounts sampleUnit {}).success _ success).2⟩
  have none : final.specialized = [] := none
  rw [none] at both
  exact absurd both.2 (by decide)

end SourceUnit
end Monomorph
