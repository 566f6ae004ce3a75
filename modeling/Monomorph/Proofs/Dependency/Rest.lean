import Monomorph.Proofs.Dependency.Chronicle
import Monomorph.Proofs.Result.Constants

/-! The history at the end of the pass.

Between two items of plain text no instance is worked on, and the history of the state
is in order. This holds when the pass starts and after each of its steps, so it holds
at its end, where nothing waits any more.
-/

set_option autoImplicit false

namespace Monomorph

variable {α β : Type} {program : Program}

structure State.Rests (program : Program) (state : State) : Prop extends state.Orderly program where
  idle : ∀ target, state.instances.get? target ≠ some .inProgress

theorem State.Rests.record {state : State} (rests : state.Rests program) (fault : Fault) :
    (state.record fault).Rests program := by
  have consistent := State.consistent_record rests.consistent fault
  have coherent := rests.coherent.record fault
  have chronicled := rests.chronicled
  have idle := rests.idle
  unfold State.record at consistent coherent ⊢
  split
  · exact rests
  · rename_i fresh
    rw [if_neg fresh] at consistent coherent
    exact ⟨⟨consistent, coherent, chronicled.later (.refl _) (List.suffix_refl _) rfl⟩, idle⟩

theorem State.Rests.continues {first last : State} {ended : Bool} (rests : first.Rests program)
    (orderly : last.Orderly program) (continues : first.Continues ended last) : last.Rests program where
  toOrderly := orderly
  idle target started := rests.idle target ((continues.started target).mp started)

def Machine.Settling (program : Program) (operation : Machine α) : Prop :=
  ∀ first value last, first.Rests program → operation.run first = some (value, last) → last.Rests program

namespace Machine.Settling

theorem pure (value : α) : Machine.Settling program (Pure.pure value) := by
  intro first found last rests ran
  cases ran
  exact rests

theorem bind {operation : Machine α} {next : α → Machine β} (settling : Machine.Settling program operation)
    (continues : ∀ value, Machine.Settling program (next value)) : Machine.Settling program (operation >>= next) := by
  intro first result last rests ran
  obtain ⟨value, middle, stepped, ran⟩ := Machine.run_bind_eq_some ran
  exact continues value middle result last (settling first value middle rests stepped) ran

theorem filterMapM {items : List α} {each : α → Machine (Option β)}
    (settling : ∀ item, Machine.Settling program (each item)) : Machine.Settling program (items.filterMapM each) := by
  induction items with
  | nil => exact pure []
  | cons first rest ih =>
    rw [List.filterMapM_cons]
    apply (settling first).bind
    intro kept
    cases kept with
    | none => exact ih
    | some result => exact ih.bind fun _ => pure _

end Machine.Settling

theorem PassM.kept_settling {operation : PassM α} {post : α → Registry → Prop}
    (ensures : Ensures program (fun _ => True) operation post)
    (traces : Traces program (fun _ => True) operation fun _ _ => True) :
    Machine.Settling program operation.kept := by
  intro first kept last rests ran
  unfold PassM.kept at ran
  obtain ⟨result, middle, worked, ran⟩ := Machine.run_bind_eq_some ran
  have ends := ensures first result middle rests.consistent (fun _ _ => trivial) worked
  have traced := traces first result middle rests.consistent rests.coherent (fun _ _ => trivial) worked
  have grows := traced.grows
  have orderly : middle.Orderly program :=
    ⟨ends.consistent, traced.coherent, rests.chronicled.later grows.registry grows.history grows.specialized⟩
  have rests' := rests.continues orderly grows.toContinues
  cases result with
  | ok value =>
    cases ran
    exact rests'
  | error fault =>
    cases ran
    exact rests'.record fault

namespace Program

theorem drain_settling (program : Program) (budget : Nat) : Machine.Settling program (program.drain budget) := by
  induction budget with
  | zero =>
    intro first value last _ ran
    cases ran
  | succ budget ih =>
    intro first value last rests ran
    unfold drain at ran
    rw [Machine.run_get_bind] at ran
    split at ran
    · cases ran
      exact rests
    · rename_i pending waiting queue
      have next : first.queue[0]? = some pending := by
        rw [queue]
        rfl
      rw [Machine.run_set_bind] at ran
      obtain ⟨outcome, middle, worked, ran⟩ := Machine.run_bind_eq_some ran
      -- nothing is worked on here that could wait for the next instance
      have drained := specialize_drains (Lookup.faithful_ofBudget program budget)
        (Lookup.traceable_ofBudget program budget) (drainFrom_ensures program budget)
        (fun mark _ _ _ orderly awaits ran => drainFrom_drains program budget mark orderly awaits ran)
        rests.toOrderly next (fun outer started => absurd started (rests.idle outer)) worked
      have continues := drained.continues
      have rests' : middle.Rests program := rests.continues drained.orderly
        ⟨continues.registry, continues.history, continues.started, continues.clean⟩
      cases outcome with
      | ok _ => exact ih middle value last rests' ran
      | error fault => exact ih (middle.record fault) value last (rests'.record fault) ran

theorem lowerOne_settling (budget : Nat) {lower : PassM α} {post : α → Registry → Prop}
    (ensures : Ensures program (fun _ => True) lower post)
    (traces : Traces program (fun _ => True) lower fun _ _ => True) :
    Machine.Settling program (program.lowerOne budget lower) :=
  (PassM.kept_settling ensures traces).bind fun _ => (drain_settling program budget).bind fun _ => .pure _

theorem lowerPackage_settling (budget : Nat) (decl : Package) :
    Machine.Settling program (program.lowerPackage budget decl) := by
  have faithful := Lookup.faithful_ofBudget program budget
  have traceable := Lookup.traceable_ofBudget program budget
  apply Machine.Settling.bind
  · apply Machine.Settling.filterMapM
    intro entry
    exact lowerOne_settling budget (lowerPackageItem_ensures faithful entry.1)
      (lowerPackageItem_traces faithful traceable entry.1)
  · exact fun _ => .pure _

theorem lowerModule_settling (budget : Nat) (decl : Module) :
    Machine.Settling program (program.lowerModule budget decl) := by
  have faithful := Lookup.faithful_ofBudget program budget
  have traceable := Lookup.traceable_ofBudget program budget
  apply Machine.Settling.bind
  · apply Machine.Settling.filterMapM
    intro entry
    exact lowerOne_settling budget (lowerModuleItem_ensures faithful entry.1)
      (lowerModuleItem_traces faithful traceable entry.1)
  · exact fun _ => .pure _

theorem lowerDescription_settling (budget : Nat) (description : Description) :
    Machine.Settling program (program.lowerDescription budget description) := by
  cases description with
  | package decl =>
    unfold lowerDescription
    simp only
    split
    · exact .pure _
    · exact (lowerPackage_settling budget decl).bind fun _ => .pure _
  | module decl => exact (lowerModule_settling budget decl).bind fun _ => .pure _

theorem lowerAll_settling (budget : Nat) : Machine.Settling program (program.lowerAll budget) := by
  unfold lowerAll
  apply (Machine.Settling.filterMapM (lowerDescription_settling budget)).bind
  intro descriptions
  exact (drain_settling program budget).bind fun _ => .pure _

end Program

theorem State.rests_initial : State.initial.Rests program where
  consistent := consistent_initial
  coherent := coherent_initial
  chronicled package member := by cases member
  idle target started := by cases started

theorem State.rests_ofUnit (unit : SourceUnit) : (State.ofUnit unit).Rests program := by
  have fold (faults : List Fault) : ∀ state : State, state.Rests program →
      (faults.foldl State.record state).Rests program := by
    induction faults with
    | nil => exact fun _ rests => rests
    | cons fault rest ih => exact fun state rests => ih _ (rests.record fault)
  exact fold unit.declarationFaults _ State.rests_initial

namespace SourceUnit

variable (unit : SourceUnit) (settings : Settings)

def finalState : State := (unit.endFrom settings 1000).2

theorem rests_finalState : (unit.finalState settings).Rests (.ofUnit unit settings) := by
  obtain ⟨larger, reached⟩ := unit.run?_endFrom settings 1000
  exact Program.lowerAll_settling larger _ _ _ (State.rests_ofUnit unit) reached

theorem queue_finalState : (unit.finalState settings).queue = [] := (final_endFrom 1000).queue

end SourceUnit
end Monomorph
