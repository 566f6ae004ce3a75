import Monomorph.Proofs.Result.Completion

/-! What the packages of a pass refer to, whether it succeeds or fails.

A package that is finished stays, whatever fails later. What it refers to was finished
before it, but for instances that themselves waited for the package, and instances that
waited for their own turn as the work on it started. These may still fail.
-/

set_option autoImplicit false

namespace Monomorph

/-- An instance that a package refers to has a package too, unless the work on it was under way when
the work on the package started, because it uses the package in turn. -/
def SourceUnit.Retains (unit : SourceUnit) (settings : Settings) (user target : Instance) : Prop :=
  (∃ package ∈ (unit.instantiate settings).packages, package.target = target) ∨
    History.atStart (unit.finalState settings).instances user target = some .inProgress ∧
      Relation.TransGen ((Program.ofUnit unit settings).Uses (unit.finalRegistry settings)) target user

structure SourceUnit.Refers (unit : SourceUnit) (settings : Settings) (user : Instance) (position : Nat)
    (source lowered : Reference) : Prop where
  directs : (Program.ofUnit unit settings).Directs (unit.finalRegistry settings) (.instantiated user) position
    source lowered
  retains : ∀ target, ((Program.ofUnit unit settings).generic? source.package).isSome →
    lowered = source.redirect target →
    History.atStart (unit.finalState settings).instances user target ≠ some .queued →
    unit.Retains settings user target

def SourceUnit.RefersWithin (unit : SourceUnit) (settings : Settings) (package : SpecializedPackage) : Prop :=
  ∃ source evaluator, (Program.ofUnit unit settings).generic? package.target.base = some source ∧
    (Program.ofUnit unit settings).evaluator (unit.finalRegistry settings) (.instantiated package.target)
      = .ok evaluator ∧
    List.Forall₂ (fun entry item => List.Forall₂ (unit.Refers settings package.target entry.2)
      ((Program.instanceContext package.target evaluator source.span entry.2).references entry.1) item.references)
      source.items.zipIdx package.items

namespace State

variable {program : Program} {state : State} {package : SpecializedPackage} {start earlier : History}

theorem Worked.retained_or_waiting (worked : state.Worked program package start earlier) (coherent : state.Coherent)
    (member : package ∈ state.specialized) {target : Instance} (known : (earlier.get? target).isSome)
    (usable : ∀ fault, earlier.get? target ≠ some (.failed fault))
    (idle : History.atStart state.instances package.target target ≠ some .queued) :
    (∃ other ∈ state.specialized, other.target = target) ∨
      History.atStart state.instances package.target target = some .inProgress ∧
        Relation.TransGen (program.Uses state.registry) target package.target := by
  rw [worked.atStart_eq coherent.lawful] at idle ⊢
  by_cases same : target = package.target
  · exact .inl ⟨package, member, same.symm⟩
  rcases worked.cases_of_known same known with finished | ⟨fault, failed⟩ | ⟨_, waited⟩ | back
  · left
    apply coherent.exists_package_iff.mpr
    exact coherent.lawful.get?_of_done ((List.suffix_cons _ _).trans worked.ended) finished
  · exact absurd failed (usable fault)
  · exact absurd waited idle
  · exact .inr back

end State

namespace SourceUnit

variable {unit : SourceUnit} {settings : Settings}

/-- Every package of the pass, also of one that fails, refers to instances that have packages, but for
those that use it in turn and those that were queued when the work on it started. -/
theorem refersWithin_of_mem_packages {package : SpecializedPackage}
    (member : package ∈ (unit.instantiate settings).packages) : unit.RefersWithin settings package := by
  have packages : (unit.instantiate settings).packages = (unit.finalState settings).specialized :=
    packages_instantiate unit settings
  rw [packages] at member
  have rests := unit.rests_finalState settings
  obtain ⟨start, earlier, worked⟩ := rests.chronicled package member
  obtain ⟨source, generic, directed⟩ := worked.directed
  obtain ⟨evaluator, made, items⟩ := directed.now
  refine ⟨source, evaluator, generic, made, items.imp fun entry item references => ?_⟩
  refine references.imp fun origin lowered directed => ⟨directed.directs, fun target generic redirected idle => ?_⟩
  obtain ⟨known, usable⟩ := directed.usable target generic redirected
  rw [Retains, packages]
  exact worked.retained_or_waiting rests.coherent member known usable idle

end SourceUnit

def ringPackage : Package :=
  ⟨"Ring", [⟨"N", .const, nowhere⟩],
    [.typeDef "Word" (.logic (some (.int 8))),
      .typeDef "Slot" (.reference ⟨"Node", [.ident "N"], ["Link"], nowhere⟩),
      .typeDef "Spare" (.reference ⟨"Broken", [.ident "N"], ["Word"], nowhere⟩)], nowhere⟩

def nodePackage : Package :=
  ⟨"Node", [⟨"N", .const, nowhere⟩],
    [.typeDef "Link" (.reference ⟨"Ring", [.ident "N"], ["Word"], nowhere⟩),
      .typeDef "Mark" (.reference ⟨"Leaf", [.ident "N"], ["Flag"], nowhere⟩)], nowhere⟩

/-- Two packages that use each other. The one that is asked for also uses a package with a fault. -/
def ringUnit : SourceUnit :=
  ⟨"ring",
    [.package ringPackage, .package nodePackage,
      .package ⟨"Leaf", [⟨"N", .const, nowhere⟩], [.typeDef "Flag" (.bit none)], nowhere⟩,
      .package ⟨"Broken", [⟨"N", .const, nowhere⟩], [.typeDef "Word" (.logic (some (.int 0)))], nowhere⟩,
      .module ⟨"Top", [.var "x" (.reference ⟨"Ring", [.int 1], ["Word"], nowhere⟩)], nowhere⟩]⟩

def ringRegistry : Registry :=
  .ofRequests (["Ring", "Node", "Broken", "Leaf"].map fun base => (base, [.int ⟨1, 32, false, false⟩]))

def SpecializedPackage.qualified (package : SpecializedPackage) : List (String × List String) :=
  (package.items.flatMap PackageItem.references).filterMap fun reference =>
    if reference.arguments.isEmpty then some (reference.package, reference.members) else none

theorem SpecializedPackage.mem_qualified {package : SpecializedPackage} {name : String} {members : List String}
    (listed : (name, members) ∈ package.qualified) :
    ∃ item ∈ package.items, ∃ span, ⟨name, [], members, span⟩ ∈ item.references := by
  obtain ⟨⟨_, arguments, _, span⟩, member, shown⟩ := List.mem_filterMap.mp listed
  split at shown
  · rename_i empty
    obtain ⟨item, there, member⟩ := List.mem_flatMap.mp member
    cases shown
    cases List.isEmpty_iff.mp empty
    exact ⟨item, there, span, member⟩
  · cases shown

theorem ringUnit_ends : ∃ stopped, ringUnit.instantiate {} = .failure stopped ∧
    ringUnit.finalRegistry {} = ringRegistry ∧
    stopped.packages.map (fun package => (package.target, package.qualified))
      = [(firstOf "Leaf", []), (firstOf "Node", [("__Ring__1", ["Word"]), ("__Leaf__1", ["Flag"])])] := by
  have registry : (ringUnit.run? {} 20).map (·.2.registry) = some ringRegistry := by decide +kernel
  have faults : (ringUnit.run? {} 20).map (·.2.faults.isEmpty) = some false := by decide +kernel
  have packages : (ringUnit.run? {} 20).map
      (·.2.specialized.map fun package => (package.target, package.qualified))
        = some [(firstOf "Leaf", []), (firstOf "Node", [("__Ring__1", ["Word"]), ("__Leaf__1", ["Flag"])])] := by
    decide +kernel
  obtain ⟨⟨descriptions, final⟩, ran, numbered⟩ := Option.map_eq_some_iff.mp registry
  rw [ran] at faults packages
  have faults : final.faults.isEmpty = false := Option.some.inj faults
  refine ⟨⟨final.faults, final.specialized⟩, ?_, ?_, Option.some.inj packages⟩
  · rw [ringUnit.instantiate_eq {} ran, SourceUnit.outcome, faults]
    rfl
  · rw [SourceUnit.finalRegistry, SourceUnit.endFrom_eq ran]
    exact numbered

theorem ring_directs (span : Span) : (Program.ofUnit ringUnit {}).Directs ringRegistry
    (.instantiated (firstOf "Node")) 0 ⟨"Ring", [.ident "N"], ["Word"], span⟩
    (Reference.redirect ⟨"Ring", [.ident "N"], ["Word"], span⟩ (firstOf "Ring")) := by
  have generic : (Program.ofUnit ringUnit {}).generic? "Ring" = some ringPackage := rfl
  have binds : (Program.ofUnit ringUnit {}).Binds ringRegistry (.instantiated (firstOf "Node")) 0 ringPackage
      [.ident "N"] [.int ⟨1, 32, false, false⟩] :=
    ⟨_, [.int ⟨1, 32, false, false⟩], rfl, .cons (.parameter rfl) .nil, rfl⟩
  have found : ringRegistry.find? "Ring" [.int ⟨1, 32, false, false⟩] = some (firstOf "Ring").id := by decide +kernel
  have declared : ringPackage.declares "Word" = true := by decide +kernel
  have checked : ringPackage.checkMember ⟨"Ring", [.ident "N"], ["Word"], span⟩ = .ok () := by
    simp only [Package.checkMember, declared, if_true]
  show (Program.ofUnit ringUnit {}).Directs ringRegistry _ _ _ (Reference.redirect _ ⟨ringPackage.name, _⟩)
  exact .instantiated generic binds found checked

theorem exists_ringNode : ∃ stopped, ringUnit.instantiate {} = .failure stopped ∧
    stopped.packages.map (·.name) = ["__Leaf__1", "__Node__1"] ∧ ∃ package ∈ stopped.packages,
      package.target = firstOf "Node" ∧ package.qualified = [("__Ring__1", ["Word"]), ("__Leaf__1", ["Flag"])] := by
  obtain ⟨stopped, failure, _, packages⟩ := ringUnit_ends
  refine ⟨stopped, failure, ?_, ?_⟩
  · have targets := congrArg (List.map fun entry => entry.1.name) packages
    rw [List.map_map] at targets
    exact targets
  · have emitted : (firstOf "Node", [("__Ring__1", ["Word"]), ("__Leaf__1", ["Flag"])]) ∈
        stopped.packages.map fun package => (package.target, package.qualified) := by
      rw [packages]
      exact List.mem_cons_of_mem _ List.mem_cons_self
    obtain ⟨package, member, same⟩ := List.mem_map.mp emitted
    rw [Prod.mk.injEq] at same
    exact ⟨package, member, same⟩

theorem refersWithin_ringUnit : ∃ stopped, ringUnit.instantiate {} = .failure stopped ∧
    ∃ package ∈ stopped.packages, ("__Leaf__1", ["Flag"]) ∈ package.qualified ∧
      ringUnit.RefersWithin {} package := by
  obtain ⟨stopped, failure, _, package, member, _, references⟩ := exists_ringNode
  refine ⟨stopped, failure, package, member, ?_, SourceUnit.refersWithin_of_mem_packages ?_⟩
  · rw [references]
    exact List.mem_cons_of_mem _ List.mem_cons_self
  · rw [failure]
    exact member

/-- A package that is finished stays, although one that it refers to, and that waited for it, fails. -/
theorem exists_dangling_ringUnit : ∃ stopped, ringUnit.instantiate {} = .failure stopped ∧
    ∃ package ∈ stopped.packages, ∃ item ∈ package.items, ∃ lowered ∈ item.references, ∃ position source target,
      ((Program.ofUnit ringUnit {}).generic? source.package).isSome ∧
      (Program.ofUnit ringUnit {}).Directs (ringUnit.finalRegistry {}) (.instantiated package.target) position
        source lowered ∧
      lowered = source.redirect target ∧ ∀ other ∈ stopped.packages, other.name ≠ lowered.package := by
  obtain ⟨stopped, failure, names, package, member, target, references⟩ := exists_ringNode
  have listed : ("__Ring__1", ["Word"]) ∈ package.qualified := by
    rw [references]
    exact List.mem_cons_self
  obtain ⟨item, there, span, mentioned⟩ := SpecializedPackage.mem_qualified listed
  have ring : (firstOf "Ring").name = "__Ring__1" := by decide +kernel
  refine ⟨stopped, failure, package, member, item, there, _, mentioned, 0,
    ⟨"Ring", [.ident "N"], ["Word"], span⟩, firstOf "Ring", rfl, ?_, ?_, ?_⟩
  · obtain ⟨_, _, registry, _⟩ := ringUnit_ends
    rw [registry, target, ← ring]
    exact ring_directs span
  · rw [← ring]
    rfl
  · intro other listed same
    have listed : "__Ring__1" ∈ stopped.packages.map (·.name) := List.mem_map.mpr ⟨other, listed, same⟩
    rw [names] at listed
    exact absurd listed (by decide)

end Monomorph
