import Monomorph.Proofs.Cycle.Checked
import Monomorph.Proofs.Pass.Agreement
import Monomorph.Proofs.Pass.Unit

/-! From the parts of the pass to the pass.

The pass lowers item after item and drains the queue after each of them. A relation
between operations and their checked versions that goes with composition holds of the
whole pass if it holds of the items and of the draining.
-/

set_option autoImplicit false

namespace Monomorph

variable {α β : Type} {program : Program}

/-- The state with the fault recorded, if an operation has ended with one. -/
def State.settle (state : State) : Except Fault α → State
  | .ok _ => state
  | .error fault => state.record fault

theorem PassM.run_kept (operation : PassM α) (first : State) :
    operation.kept.run first =
      (operation.run first).bind fun found => some (found.1.toOption, found.2.settle found.1) := by
  unfold PassM.kept
  rw [Machine.run_bind_eq]
  apply Option.bind_congr
  rintro ⟨result, last⟩ _
  cases result <;> rfl

namespace Program

theorem run_drain_of_none (program : Program) (budget : Nat) {first : State} (none : first.queue[0]? = none) :
    (program.drain (budget + 1)).run first = some ((), first) ∧
      ∀ check, (program.checkedDrain check (budget + 1)).run first = some ((), first) := by
  have empty : first.queue = [] := List.length_eq_zero_iff.mp (Nat.le_zero.mp (List.getElem?_eq_none_iff.mp none))
  refine ⟨?_, fun check => ?_⟩
  · rw [drain, Machine.run_get_bind, empty]
    rfl
  · rw [checkedDrain, Machine.run_get_bind, empty]
    rfl

theorem run_drain_of_some (program : Program) (budget : Nat) {first : State} {pending : Pending}
    (next : first.queue[0]? = some pending) :
    (program.drain (budget + 1)).run first =
        ((program.specialize (.ofBudget program budget) (program.drainFrom budget) pending).run (first.take 0)).bind
          (fun found => (program.drain budget).run (found.2.settle found.1)) ∧
      ∀ check, (program.checkedDrain check (budget + 1)).run first =
        ((check.around (.body pending) (program.checkedSpecialize check (.checked program check budget)
          (program.checkedDrainFrom check budget) pending).run).run (first.take 0)).bind
          fun found => (program.checkedDrain check budget).run (found.2.settle found.1) := by
  cases queue : first.queue with
  | nil =>
    rw [queue] at next
    cases next
  | cons head rest =>
    rw [queue] at next
    cases next
    refine ⟨?_, fun check => ?_⟩
    · rw [drain, Machine.run_get_bind, queue]
      simp only
      rw [Machine.run_set_bind, Machine.run_bind_eq]
      apply Option.bind_congr
      rintro ⟨result, last⟩ _
      cases result <;> rfl
    · rw [checkedDrain, Machine.run_get_bind, queue]
      simp only
      rw [Machine.run_set_bind, Machine.run_bind_eq]
      apply Option.bind_congr
      rintro ⟨result, last⟩ _
      cases result <;> rfl

theorem run_drainFrom_of_none (program : Program) (budget : Nat) {first : State} {mark : Nat}
    (none : first.queue[mark]? = none) :
    (program.drainFrom (budget + 1) mark).run first = some (.ok (), first) ∧
      ∀ check, (program.checkedDrainFrom check (budget + 1) mark).run first = some (.ok (), first) := by
  refine ⟨?_, fun check => ?_⟩
  · rw [drainFrom, PassM.run_get_bind, none]
    rfl
  · rw [checkedDrainFrom, PassM.run_get_bind, none]
    rfl

theorem run_drainFrom_of_some (program : Program) (budget : Nat) {first : State} {mark : Nat} {pending : Pending}
    (next : first.queue[mark]? = some pending) :
    (program.drainFrom (budget + 1) mark).run first =
        (program.specialize (.ofBudget program budget) (program.drainFrom budget) pending >>= fun _ =>
          program.drainFrom budget mark).run (first.take mark) ∧
      ∀ check, (program.checkedDrainFrom check (budget + 1) mark).run first =
        (ExceptT.mk (check.around (.body pending) (program.checkedSpecialize check (.checked program check budget)
          (program.checkedDrainFrom check budget) pending).run) >>= fun _ =>
            program.checkedDrainFrom check budget mark).run (first.take mark) := by
  refine ⟨?_, fun check => ?_⟩
  · rw [drainFrom, PassM.run_get_bind, next]
    rfl
  · rw [checkedDrainFrom, PassM.run_get_bind, next]
    rfl

end Program

/-- A relation between operations and their checked versions that goes with their composition. -/
structure Machine.Congruence (related : (α : Type) → Machine α → (Check → Machine α) → Prop) : Prop where
  pure {α : Type} (value : α) : related α (Pure.pure value) fun _ => Pure.pure value
  bind {α β : Type} {operation : Machine α} {checked : Check → Machine α} {next : α → Machine β}
    {next' : Check → α → Machine β} : related α operation checked →
    (∀ value, related β (next value) fun check => next' check value) →
    related β (operation >>= next) fun check => checked check >>= next' check

variable {related : (α : Type) → Machine α → (Check → Machine α) → Prop}

theorem Machine.Congruence.filterMapM (congruence : Machine.Congruence related) {items : List α}
    {each : α → Machine (Option β)} {each' : Check → α → Machine (Option β)}
    (relates : ∀ item, related (Option β) (each item) fun check => each' check item) :
    related (List β) (items.filterMapM each) fun check => items.filterMapM (each' check) := by
  induction items with
  | nil => exact congruence.pure []
  | cons first rest ih =>
    simp only [List.filterMapM_cons]
    refine congruence.bind (relates first) fun kept => ?_
    cases kept with
    | none => exact ih
    | some result => exact congruence.bind ih fun _ => congruence.pure _

namespace Program

structure Carries (program : Program) (related : (α : Type) → Machine α → (Check → Machine α) → Prop)
    (budget : Nat) : Prop extends Machine.Congruence related where
  packageItem (name : String) (context : Context) (item : PackageItem) : context.scope = .package name →
    related _ (program.lowerPackageItem (.ofBudget program budget) context item).kept fun check =>
      PassM.kept (ExceptT.mk (check.around .item
        (program.lowerPackageItem (.checked program check budget) context item).run))
  moduleItem (name : String) (context : Context) (item : ModuleItem) : context.scope = .module name →
    related _ (program.lowerModuleItem (.ofBudget program budget) context item).kept fun check =>
      PassM.kept (ExceptT.mk (check.around .item
        (program.lowerModuleItem (.checked program check budget) context item).run))
  drain : related _ (program.drain budget) fun check => program.checkedDrain check budget

namespace Carries

variable {budget : Nat}

theorem lowerPackage (carries : program.Carries related budget) (decl : Package) :
    related _ (program.lowerPackage budget decl) fun check => program.checkedPackage check budget decl := by
  refine carries.bind (carries.filterMapM fun entry => ?_) fun _ => carries.pure _
  exact carries.bind (carries.packageItem decl.name _ entry.1 (scope_plainContext _ _ _ _ _)) fun _ =>
    carries.bind carries.drain fun _ => carries.pure _

theorem lowerModule (carries : program.Carries related budget) (decl : Module) :
    related _ (program.lowerModule budget decl) fun check => program.checkedModule check budget decl := by
  refine carries.bind (carries.filterMapM fun entry => ?_) fun _ => carries.pure _
  exact carries.bind (carries.moduleItem decl.name _ entry.1 (scope_plainContext _ _ _ _ _)) fun _ =>
    carries.bind carries.drain fun _ => carries.pure _

theorem lowerDescription (carries : program.Carries related budget) (description : Description) :
    related _ (program.lowerDescription budget description) fun check =>
      program.checkedDescription check budget description := by
  cases description with
  | package decl =>
    unfold Program.lowerDescription checkedDescription
    simp only
    split
    · exact carries.pure _
    · exact carries.bind (carries.lowerPackage decl) fun _ => carries.pure _
  | module decl => exact carries.bind (carries.lowerModule decl) fun _ => carries.pure _

theorem lowerAll (carries : program.Carries related budget) :
    related _ (program.lowerAll budget) (fun check => do
      let descriptions ← program.descriptions.filterMapM (program.checkedDescription check budget)
      program.checkedDrain check budget
      pure descriptions) :=
  carries.bind (carries.filterMapM carries.lowerDescription) fun _ =>
    carries.bind carries.drain fun _ => carries.pure _

end Carries
end Program
end Monomorph
