import Monomorph.Pass.State

/-! Operations that do the same.

Two operations are compared state by state. They agree where a property holds if they
do the same from every state that has it, and keep it.
-/

set_option autoImplicit false

namespace Monomorph

variable {ε α β : Type}

theorem ExceptT.run_bind_eq (operation : ExceptT ε Machine α) (next : α → ExceptT ε Machine β) (first : State) :
    (operation >>= next).run first =
      (operation.run first).bind fun found => ExceptT.bindCont next found.1 found.2 := rfl

theorem ExceptT.run_bind_congr {operation other : ExceptT ε Machine α} {next next' : α → ExceptT ε Machine β}
    {first : State} (same : other.run first = operation.run first)
    (continues : ∀ value middle, operation.run first = some (.ok value, middle) →
      (next' value).run middle = (next value).run middle) :
    (other >>= next').run first = (operation >>= next).run first := by
  rw [run_bind_eq, run_bind_eq, same]
  apply Option.bind_congr
  rintro ⟨result, middle⟩ ran
  cases result with
  | error error => rfl
  | ok value => exact continues value middle ran

theorem PassM.run_bracket_congr {operation other : PassM α} {close : Except Fault α → State → State}
    {answer : Except Fault α → Except Fault β} {first : State}
    (same : other.run first = operation.run first) :
    (do
      let outcome ← other.attempt
      modify (close outcome)
      PassM.ofResult (answer outcome) : PassM β).run first =
    (do
      let outcome ← operation.attempt
      modify (close outcome)
      PassM.ofResult (answer outcome) : PassM β).run first := by
  have attempts : other.attempt.run first = operation.attempt.run first := by
    show (other.run first).bind (fun ended => some (Except.ok ended.1, ended.2)) =
      (operation.run first).bind fun ended => some (Except.ok ended.1, ended.2)
    rw [same]
  rw [ExceptT.run_bind_eq, ExceptT.run_bind_eq, attempts]

namespace Machine

/-- Two operations that do the same from every state with a property, and keep it. -/
def Agrees (holds : State → Prop) (operation other : Machine α) : Prop :=
  ∀ first, holds first → other.run first = operation.run first ∧
    ∀ value last, operation.run first = some (value, last) → holds last

theorem run_bind_eq (operation : Machine α) (next : α → Machine β) (first : State) :
    (operation >>= next).run first =
      (operation.run first).bind fun found => (next found.1).run found.2 := rfl

theorem run_bind_congr {operation other : Machine α} {next next' : α → Machine β} {first : State}
    (same : other.run first = operation.run first)
    (continues : ∀ value middle, operation.run first = some (value, middle) →
      (next' value).run middle = (next value).run middle) :
    (other >>= next').run first = (operation >>= next).run first := by
  rw [run_bind_eq, run_bind_eq, same]
  exact Option.bind_congr fun found ran => continues found.1 found.2 ran

namespace Agrees

variable {holds : State → Prop}

theorem pure (value : α) : Machine.Agrees holds (Pure.pure value) (Pure.pure value) := by
  refine fun first here => ⟨rfl, fun found last ran => ?_⟩
  cases ran
  exact here

theorem bind {operation other : Machine α} {next next' : α → Machine β}
    (agrees : Machine.Agrees holds operation other)
    (continues : ∀ value, Machine.Agrees holds (next value) (next' value)) :
    Machine.Agrees holds (operation >>= next) (other >>= next') := by
  intro first here
  obtain ⟨same, kept⟩ := agrees first here
  rw [run_bind_eq, run_bind_eq, same]
  cases ran : operation.run first with
  | none => exact ⟨rfl, nofun⟩
  | some found => exact continues found.1 found.2 (kept found.1 found.2 ran)

theorem filterMapM {items : List α} {each each' : α → Machine (Option β)}
    (agrees : ∀ item ∈ items, Machine.Agrees holds (each item) (each' item)) :
    Machine.Agrees holds (items.filterMapM each) (items.filterMapM each') := by
  induction items with
  | nil => exact pure []
  | cons first rest ih =>
    obtain ⟨here, later⟩ := List.forall_mem_cons.mp agrees
    rw [List.filterMapM_cons, List.filterMapM_cons]
    apply here.bind
    intro kept
    cases kept with
    | none => exact ih later
    | some result => exact (ih later).bind fun _ => pure _

end Agrees
end Machine
end Monomorph
