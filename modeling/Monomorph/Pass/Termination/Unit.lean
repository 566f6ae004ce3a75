import Monomorph.Pass.Outcome
import Monomorph.Pass.Termination.Queue

/-! The pass over a whole unit settles: some budget is enough, and no budget gives
another result. -/

set_option autoImplicit false

namespace Monomorph

namespace Program

variable {program : Program}

theorem kept_ends {α : Type} {run : Nat → PassM α} (completes : (Region.all program).Completes run) :
    (Region.all program).Ends fun budget => (run budget).kept := by
  refine .bind completes fun result => ?_
  cases result with
  | ok item => exact .pure _
  | error fault =>
    exact .bind (.modify fun _ sound => State.record_advances sound fault) fun _ => .pure _

theorem lowerOne_ends {α : Type} {lower : Nat → PassM α}
    (completes : (Region.all program).Completes lower) :
    (Region.all program).Ends fun budget => program.lowerOne budget (lower budget) :=
  .bind (kept_ends completes) fun _ => .bind drain_ends fun _ => .pure _

theorem lowerPackage_ends (decl : Package) :
    (Region.all program).Ends fun budget => program.lowerPackage budget decl := by
  refine .bind (.filterMapM fun entry _ => lowerOne_ends (lowerPackageItem_completes ?_ _)) fun _ => .pure _
  unfold plainContext
  split <;> exact fun _ _ => trivial

theorem lowerModule_ends (decl : Module) :
    (Region.all program).Ends fun budget => program.lowerModule budget decl := by
  refine .bind (.filterMapM fun entry _ => lowerOne_ends (lowerModuleItem_completes ?_ _)) fun _ => .pure _
  unfold plainContext
  split <;> exact fun _ _ => trivial

theorem lowerDescription_ends (description : Description) :
    (Region.all program).Ends fun budget => program.lowerDescription budget description := by
  cases description with
  | package decl =>
    simp only [lowerDescription]
    split
    · exact .pure _
    · exact .bind (lowerPackage_ends decl) fun _ => .pure _
  | module decl => exact .bind (lowerModule_ends decl) fun _ => .pure _

theorem lowerAll_ends : (Region.all program).Ends fun budget => program.lowerAll budget :=
  .bind (.filterMapM fun description _ => lowerDescription_ends description) fun _ =>
    .bind drain_ends fun _ => .pure _

end Program

theorem State.sound_ofUnit (unit : SourceUnit) (program : Program) : (State.ofUnit unit).Sound program := by
  unfold State.ofUnit
  generalize unit.declarationFaults = faults
  have fold : ∀ (faults : List Fault) (state : State), state.Sound program →
      (faults.foldl State.record state).Sound program := by
    intro faults
    induction faults with
    | nil => exact fun _ sound => sound
    | cons first rest ih => exact fun state sound => ih _ (State.sound_record sound first)
  exact fold faults _ State.sound_initial

namespace SourceUnit

variable (unit : SourceUnit) (settings : Settings)

theorem run?_settles : ∃ result,
    (∀ budget, unit.run? settings budget = none ∨ unit.run? settings budget = some result) ∧
    ∃ enough, ∀ budget, enough ≤ budget → unit.run? settings budget = some result := by
  obtain ⟨value, final, _, answers, reached⟩ :=
    @Program.lowerAll_ends (.ofUnit unit settings) _ (State.sound_ofUnit unit _)
  exact ⟨(value, final), answers, reached⟩

/-- Some budget is enough, and so is every larger one. -/
theorem exists_budget : ∃ enough, ∀ budget, enough ≤ budget → (unit.run? settings budget).isSome := by
  obtain ⟨result, _, enough, reached⟩ := unit.run?_settles settings
  exact ⟨enough, fun budget large => by rw [reached budget large]; rfl⟩

theorem run?_unique {first second : Nat} {result other : List Description × State}
    (found : unit.run? settings first = some result) (again : unit.run? settings second = some other) :
    result = other := by
  obtain ⟨only, answers, _⟩ := unit.run?_settles settings
  rcases answers first with out | same
  · rw [out] at found; cases found
  rcases answers second with out' | same'
  · rw [out'] at again; cases again
  exact Option.some.inj (found.symm.trans (same.trans (same'.symm.trans again)))

end SourceUnit
end Monomorph
