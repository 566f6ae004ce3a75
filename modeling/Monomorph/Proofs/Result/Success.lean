import Monomorph.Proofs.Instance.Name
import Monomorph.Proofs.Result.Constants

/-! What a unit without faults and its result have in common. -/

set_option autoImplicit false

namespace Monomorph

theorem eq_nil_of_reservedFaults {name : String} {site : Span} (none : reservedFaults name site = []) :
    isReserved name = false := by
  unfold reservedFaults at none
  split at none
  · cases none
  · rename_i free
    simpa using free

theorem reservedFaults_eq_nil {name : String} {site : Span} (unreserved : isReserved name = false) :
    reservedFaults name site = [] := by
  simp [reservedFaults, unreserved]

namespace SourceUnit

theorem declarations_of_faults_go {seen : List String} {descriptions : List Description}
    (none : declarationFaults.go seen descriptions = []) :
    distinct.go seen descriptions = descriptions ∧ (descriptions.map (·.name)).Nodup ∧
      ∀ description ∈ descriptions, description.name ∉ seen ∧ isReserved description.name = false := by
  induction descriptions generalizing seen with
  | nil => exact ⟨rfl, List.nodup_nil, fun _ member => by cases member⟩
  | cons first rest ih =>
    rw [declarationFaults.go] at none
    obtain ⟨reserved, none⟩ := List.append_eq_nil_iff.mp none
    split at none
    · cases none
    · rename_i fresh
      obtain ⟨_, none⟩ := List.append_eq_nil_iff.mp none
      obtain ⟨same, nodup, apart⟩ := ih none
      refine ⟨?_, ?_, ?_⟩
      · rw [distinct.go, if_neg fresh, same]
      · rw [List.map_cons, List.nodup_cons]
        refine ⟨fun repeated => ?_, nodup⟩
        obtain ⟨other, member, name_eq⟩ := List.mem_map.mp repeated
        exact (apart other member).1 (name_eq ▸ List.mem_cons_self)
      · intro description member
        rcases List.mem_cons.mp member with here | later
        · rw [here]
          exact ⟨fresh, eq_nil_of_reservedFaults reserved⟩
        · exact ⟨fun seen => (apart description later).1 (List.mem_cons_of_mem _ seen), (apart description later).2⟩

variable {unit : SourceUnit} {settings : Settings} {result : InstantiatedUnit}

/-- What is known of the result of a pass without faults. It stays true however the registry grows. -/
structure Succeeds (unit : SourceUnit) (settings : Settings) (result : InstantiatedUnit) : Prop where
  formed : result.registry.WellFormed
  completed : ∀ package ∈ result.packages, ∀ registry, result.registry.Extends registry →
    (Program.ofUnit unit settings).Specializes registry package
  emitted : ∀ target arguments, result.registry.get? target = some arguments →
    ∃ package ∈ result.packages, package.target = target
  lowered : ∀ registry, result.registry.Extends registry →
    List.Forall₂ ((Program.ofUnit unit settings).Lowers registry)
      (unit.descriptions.filter (!·.isGeneric)) result.descriptions
  distinct : unit.distinct = unit.descriptions
  nodup : (unit.descriptions.map (·.name)).Nodup
  unreserved : ∀ description ∈ unit.descriptions, isReserved description.name = false

theorem succeeds_of_instantiate (success : unit.instantiate settings = .success result) :
    unit.Succeeds settings result := by
  obtain ⟨larger, ran⟩ := unit.run?_endFrom settings 1000
  obtain ⟨final, known⟩ := run?_ends ran
  simp only [instantiate, outcome] at success
  split at success
  · rename_i empty
    have none : (unit.endFrom settings 1000).2.faults = [] := List.isEmpty_iff.mp empty
    obtain ⟨clean, lowered⟩ := known none
    obtain ⟨distinct, nodup, apart⟩ := declarations_of_faults_go clean
    have whole : unit.distinct = unit.descriptions := distinct
    rw [whole] at lowered
    cases success
    exact {
      formed := final.settled.consistent.formed
      completed := final.settled.consistent.completed
      emitted := fun _ _ known => final.emitted none known
      lowered := lowered
      distinct := whole
      nodup := nodup
      unreserved := fun description member => (apart description member).2 }
  · cases success

theorem instantiate_eq_success {budget : Nat} {descriptions : List Description} {final : State}
    (ran : unit.run? settings budget = some (descriptions, final)) (none : final.faults.isEmpty = true) :
    unit.instantiate settings = .success ⟨unit.name, descriptions, final.specialized, final.registry⟩ := by
  rw [unit.instantiate_eq settings ran, outcome, if_pos none]

theorem exists_success {budget : Nat}
    (clean : (unit.run? settings budget).map (·.2.faults.isEmpty) = some true) :
    ∃ result, unit.instantiate settings = .success result := by
  obtain ⟨⟨descriptions, final⟩, ran, none⟩ := Option.map_eq_some_iff.mp clean
  exact ⟨_, instantiate_eq_success ran none⟩

theorem exists_success_eq {budget : Nat} {registry : Registry}
    {constants : List (Instance × List (String × Value))}
    (clean : (unit.run? settings budget).map (·.2.faults.isEmpty) = some true)
    (numbered : (unit.run? settings budget).map (·.2.registry) = some registry)
    (emitted : (unit.run? settings budget).map
      (·.2.specialized.map fun package => (package.target, package.constants)) = some constants) :
    ∃ result, unit.instantiate settings = .success result ∧ result.registry = registry ∧
      result.packages.map (fun package => (package.target, package.constants)) = constants := by
  obtain ⟨⟨descriptions, final⟩, ran, none⟩ := Option.map_eq_some_iff.mp clean
  rw [ran] at numbered emitted
  exact ⟨_, instantiate_eq_success ran none, Option.some.inj numbered, Option.some.inj emitted⟩

end SourceUnit
end Monomorph
