import Monomorph.Proofs.Result.Completion

/-! The order of packages.

An instance is finished after those that it uses, as far as the work on it is what
finishes them. An instance that was asked for before that work started, and waits for
its own turn, is the exception: its package comes after.
-/

set_option autoImplicit false

namespace Monomorph

theorem pair_sublist_append_iff {α : Type} {before after : List α} {first second : α}
    (nodup : (before ++ second :: after).Nodup) (apart : first ≠ second) :
    [first, second].Sublist (before ++ second :: after) ↔ first ∈ before := by
  rw [List.nodup_append, List.nodup_cons] at nodup
  obtain ⟨_, ⟨notAfter, _⟩, disjoint⟩ := nodup
  constructor
  · intro ordered
    obtain ⟨front, back, split, inBefore, inAfter⟩ := List.sublist_append_iff.mp ordered
    cases front with
    | nil =>
      -- both would stand behind `second`
      rw [List.nil_append] at split
      subst split
      rcases List.sublist_cons_iff.mp inAfter with later | ⟨rest, same, _⟩
      · exact absurd (later.subset (List.mem_cons_of_mem _ List.mem_cons_self)) notAfter
      · exact absurd (List.cons.inj same).1 apart
    | cons head rest =>
      rw [List.cons_append] at split
      rw [(List.cons.inj split).1]
      exact inBefore.subset List.mem_cons_self
  · intro member
    have front : [first].Sublist before := List.singleton_sublist.mpr member
    have back : [second].Sublist (second :: after) := List.singleton_sublist.mpr List.mem_cons_self
    exact front.append back

theorem pair_sublist_map_iff {α β : Type} {items : List α} {key : α → β} {first second : α}
    (nodup : (items.map key).Nodup) (member : first ∈ items) (member' : second ∈ items) :
    [key first, key second].Sublist (items.map key) ↔ [first, second].Sublist items := by
  constructor
  · intro ordered
    obtain ⟨chosen, listed, same⟩ := List.sublist_map_iff.mp ordered
    obtain ⟨one, rest, rfl, one_eq, rest_eq⟩ := List.map_eq_cons_iff.mp same.symm
    obtain ⟨two, none, rfl, two_eq, none_eq⟩ := List.map_eq_cons_iff.mp rest_eq
    cases List.map_eq_nil_iff.mp none_eq
    have injective := List.inj_on_of_nodup_map nodup
    have one_mem : one ∈ items := listed.subset List.mem_cons_self
    have two_mem : two ∈ items := listed.subset (List.mem_cons_of_mem _ List.mem_cons_self)
    rwa [injective one_mem member one_eq, injective two_mem member' two_eq] at listed
  · intro ordered
    exact ordered.map key

namespace State

variable {program : Program} {state : State} {package : SpecializedPackage} {start earlier : History}

/-- What precedes a package are the instances that were finished when the work on it ended. -/
theorem Worked.precedes_iff (worked : state.Worked program package start earlier) (coherent : state.Coherent)
    {used : Instance} (apart : used ≠ package.target) :
    [used, package.target].Sublist (state.specialized.map (·.target)) ↔ earlier.get? used = some .done := by
  obtain ⟨later, split⟩ := worked.ended
  have order : state.specialized.map (·.target)
      = earlier.completions ++ package.target :: History.completions later := by
    rw [coherent.completed, ← split, History.completions_append, History.completions_cons_done,
      List.append_assoc, List.singleton_append]
  have nodup := coherent.nodup
  rw [order] at nodup ⊢
  rw [pair_sublist_append_iff nodup apart]
  exact (worked.lawful coherent.lawful).mem_completions

end State

namespace SourceUnit

variable {unit : SourceUnit} {settings : Settings} {result : InstantiatedUnit} {user used : SpecializedPackage}

/-- What a package uses stands before it just when it was not waiting for its turn already as the work
on the package started. -/
theorem precedes_iff_of_uses (success : unit.instantiate settings = .success result)
    (member : user ∈ result.packages) (member' : used ∈ result.packages) (apart : used ≠ user)
    (uses : (Program.ofUnit unit settings).Uses result.registry user.target used.target)
    (acyclic : ¬ Relation.TransGen ((Program.ofUnit unit settings).Uses result.registry) used.target user.target) :
    [used, user].Sublist result.packages ↔
      History.atStart (unit.finalState settings).instances user.target used.target ≠ some .queued := by
  obtain ⟨_, packages, registry⟩ := finalState_of_success success
  rw [registry] at uses acyclic
  rw [packages] at member member' ⊢
  have rests := unit.rests_finalState settings
  have coherent := rests.coherent
  obtain ⟨start, earlier, worked⟩ := rests.chronicled user member
  have apart : used.target ≠ user.target := fun same =>
    apart (List.inj_on_of_nodup_map coherent.nodup member' member same)
  have done := coherent.exists_package_iff.mp ⟨used, member', rfl⟩
  rw [← pair_sublist_map_iff coherent.nodup member' member, worked.precedes_iff coherent apart,
    worked.atStart_eq coherent.lawful]
  have known := worked.known _ (.refl _) used.target uses
  rcases worked.cases_of_known apart known with finished | ⟨fault, failed⟩ | ⟨waits, waited⟩ | ⟨_, back⟩
  · refine iff_of_true finished fun waited => ?_
    rw [(worked.waiting _ apart).mpr waited] at finished
    cases finished
  · -- it would have failed for good
    rw [coherent.lawful.get?_of_failed ((List.suffix_cons _ _).trans worked.ended) failed] at done
    cases done
  · exact iff_of_false (by rw [waits]; intro finished; cases finished) fun apart => apart waited
  · exact absurd back acyclic

end SourceUnit

def basePackage : Package := ⟨"Base", [⟨"N", .const, nowhere⟩], [.const ⟨"Y", none, .int 5, nowhere⟩], nowhere⟩

def userPackage : Package :=
  ⟨"User", [⟨"N", .const, nowhere⟩],
    [.const ⟨"X", none, .reference "Base" [.ident "N"] ["Y"] nowhere, nowhere⟩], nowhere⟩

def stackedUnit : SourceUnit :=
  ⟨"stacked",
    [.package basePackage, .package userPackage,
      .module ⟨"Top",
        [.const ⟨"C", none, .binary .add (.reference "User" [.int 1] ["X"] nowhere)
            (.reference "Base" [.int 1] ["Y"] nowhere), nowhere⟩,
          .const ⟨"D", none, .reference "User" [.int 2] ["X"] nowhere, nowhere⟩],
        nowhere⟩]⟩

def stackedRegistry : Registry :=
  .ofRequests (["User", "Base"].flatMap fun base =>
    [(base, [.int ⟨1, 32, false, false⟩]), (base, [.int ⟨2, 32, false, false⟩])])

theorem stacked_generic?_base : (Program.ofUnit stackedUnit {}).generic? "Base" = some basePackage := rfl

theorem stacked_generic?_user : (Program.ofUnit stackedUnit {}).generic? "User" = some userPackage := rfl

theorem stacked_findConst_base (id : InstanceId) :
    (Program.ofUnit stackedUnit {}).findConst (.instantiated ⟨"Base", id⟩) "Y"
      = some (0, ⟨"Y", none, .int 5, nowhere⟩) := rfl

theorem stacked_findConst_user (id : InstanceId) :
    (Program.ofUnit stackedUnit {}).findConst (.instantiated ⟨"User", id⟩) "X"
      = some (0, ⟨"X", none, .reference "Base" [.ident "N"] ["Y"] nowhere, nowhere⟩) := rfl

theorem stacked_not_uses (registry : Registry) (id : InstanceId) (used : Instance) :
    ¬ (Program.ofUnit stackedUnit {}).Uses registry ⟨"Base", id⟩ used := by
  rintro ⟨generic, made, member, demanded, uses⟩
  rw [stacked_generic?_base] at generic
  cases generic
  cases List.mem_singleton.mp member
  cases List.mem_singleton.mp demanded
  cases uses with
  | constant uses =>
    cases uses with
    | value found _ uses =>
      cases (stacked_findConst_base id).symm.trans found
      cases uses with
      | operand member _ => cases member
    | type found _ declared _ =>
      cases (stacked_findConst_base id).symm.trans found
      cases declared

theorem stacked_uses {registry : Registry} {id other : InstanceId} {argument : Value}
    (resolved : registry.get? ⟨"User", id⟩ = some [argument])
    (found : registry.find? "Base" [argument] = some other) :
    (Program.ofUnit stackedUnit {}).Uses registry ⟨"User", id⟩ ⟨"Base", other⟩ := by
  have made : (Program.ofUnit stackedUnit {}).evaluator registry (.instantiated ⟨"User", id⟩)
      = .ok ((Evaluator.ofWidth 32).bind "N" argument) := by
    simp only [Program.evaluator, Registry.resolve_eq_ok.mpr resolved, stacked_generic?_user]
    rfl
  have bound : (Program.ofUnit stackedUnit {}).Binds registry (.instantiated ⟨"User", id⟩) 0 basePackage
      [.ident "N"] [argument] :=
    ⟨_, [argument], made, .cons (.parameter rfl) .nil, rfl⟩
  have reached : (Program.ofUnit stackedUnit {}).Reaches registry (.instantiated ⟨"User", id⟩) 0
      ⟨"Base", [.ident "N"], ["Y"], nowhere⟩ (.instantiated basePackage ⟨"Base", other⟩) :=
    .instantiated stacked_generic?_base bound found
  have uses : (Program.ofUnit stackedUnit {}).ConstantUses registry (.instantiated ⟨"User", id⟩) "X"
      ⟨"Base", other⟩ :=
    .value (stacked_findConst_user id) made (.reference (.target (.reached reached)))
  exact uses.uses

theorem stacked_not_transGen (registry : Registry) (id : InstanceId) (used : Instance) :
    ¬ Relation.TransGen ((Program.ofUnit stackedUnit {}).Uses registry) ⟨"Base", id⟩ used := by
  intro uses
  obtain ⟨_, first, _⟩ := Relation.TransGen.head'_iff.mp uses
  exact stacked_not_uses registry id _ first

def stackedInstance (base : String) (second : Bool) : Instance :=
  ⟨base, if second then ⟨2, by decide, by decide⟩ else ⟨1, by decide, by decide⟩⟩

theorem stackedUnit_ends : ∃ result, stackedUnit.instantiate {} = .success result ∧
    result.registry = stackedRegistry ∧
    result.packages.map (·.target) = [stackedInstance "User" false, stackedInstance "Base" false,
      stackedInstance "Base" true, stackedInstance "User" true] := by
  obtain ⟨result, success, registry, packages⟩ := SourceUnit.exists_success_eq
    (show (stackedUnit.run? {} 20).map (·.2.faults.isEmpty) = some true by decide +kernel)
    (show (stackedUnit.run? {} 20).map (·.2.registry) = some stackedRegistry by decide +kernel)
    (show (stackedUnit.run? {} 20).map (·.2.specialized.map fun package => (package.target, package.constants))
      = some [(stackedInstance "User" false, [("X", .int ⟨5, 32, false, false⟩)]),
          (stackedInstance "Base" false, [("Y", .int ⟨5, 32, false, false⟩)]),
          (stackedInstance "Base" true, [("Y", .int ⟨5, 32, false, false⟩)]),
          (stackedInstance "User" true, [("X", .int ⟨5, 32, false, false⟩)])] by decide +kernel)
  refine ⟨result, success, registry, ?_⟩
  have targets := congrArg (List.map Prod.fst) packages
  rw [List.map_map] at targets
  exact targets

theorem exists_stackedPackages (second : Bool) : ∃ result user used, stackedUnit.instantiate {} = .success result ∧
    user ∈ result.packages ∧ used ∈ result.packages ∧ used ≠ user ∧
    (Program.ofUnit stackedUnit {}).Uses result.registry user.target used.target ∧
    ¬ Relation.TransGen ((Program.ofUnit stackedUnit {}).Uses result.registry) used.target user.target ∧
    ([used, user].Sublist result.packages ↔ second = true) := by
  obtain ⟨result, success, registry, targets⟩ := stackedUnit_ends
  have emitted : ∀ base ∈ ["User", "Base"], stackedInstance base second ∈ result.packages.map (·.target) := by
    rw [targets]
    revert second
    decide
  obtain ⟨user, member, user_eq⟩ := List.mem_map.mp (emitted "User" (by decide))
  obtain ⟨used, member', used_eq⟩ := List.mem_map.mp (emitted "Base" (by decide))
  refine ⟨result, user, used, success, member, member', fun same => ?_, ?_, ?_, ?_⟩
  · rw [same, user_eq] at used_eq
    have bases : "User" = "Base" := congrArg Instance.base used_eq
    exact absurd bases (by decide)
  · rw [registry, user_eq, used_eq]
    cases second
    · exact stacked_uses rfl rfl
    · exact stacked_uses rfl rfl
  · rw [used_eq]
    exact stacked_not_transGen _ _ _
  · have nodup : (result.packages.map (·.target)).Nodup := by
      rw [targets]
      decide
    rw [← pair_sublist_map_iff nodup member' member, used_eq, user_eq, targets]
    cases second <;> decide

theorem precedes_iff_stackedUnit : ∃ result user used, stackedUnit.instantiate {} = .success result ∧
    (Program.ofUnit stackedUnit {}).Uses result.registry user.target used.target ∧
    ¬ Relation.TransGen ((Program.ofUnit stackedUnit {}).Uses result.registry) used.target user.target ∧
    [used, user].Sublist result.packages ∧
    History.atStart (stackedUnit.finalState {}).instances user.target used.target ≠ some .queued := by
  obtain ⟨result, user, used, success, member, member', apart, uses, acyclic, order⟩ := exists_stackedPackages true
  have precedes := order.mpr rfl
  exact ⟨result, user, used, success, uses, acyclic, precedes,
    (SourceUnit.precedes_iff_of_uses success member member' apart uses acyclic).mp precedes⟩

/-- An instance that is asked for after its user, in the same line, is finished after its user. -/
theorem not_precedes_stackedUnit : ∃ result user used, stackedUnit.instantiate {} = .success result ∧
    user ∈ result.packages ∧ used ∈ result.packages ∧ used ≠ user ∧
    (Program.ofUnit stackedUnit {}).Uses result.registry user.target used.target ∧
    ¬ Relation.TransGen ((Program.ofUnit stackedUnit {}).Uses result.registry) used.target user.target ∧
    ¬ [used, user].Sublist result.packages := by
  obtain ⟨result, user, used, success, member, member', apart, uses, acyclic, order⟩ := exists_stackedPackages false
  refine ⟨result, user, used, success, member, member', apart, uses, acyclic, fun precedes => ?_⟩
  cases order.mp precedes

end Monomorph
