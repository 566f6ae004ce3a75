import Monomorph.Pass.Progress

/-! Operations under a growing budget.

An operation settles in a state if more budget never changes its result and some
budget is enough for one. The rules below follow the ways in which operations are
put together, so that an operation settles when its parts do.
-/

set_option autoImplicit false

namespace Monomorph

/-- Whatever the budget, an operation started in a state runs out of it or has one
and the same result, and from some budget on it has that result. -/
def Settles {α : Type} (run : Nat → Machine α) (state : State) (post : α → State → Prop) : Prop :=
  ∃ value final, post value final ∧
    (∀ budget, run budget state = none ∨ run budget state = some (value, final)) ∧
    ∃ enough, ∀ budget, enough ≤ budget → run budget state = some (value, final)

namespace Settles

variable {α β ε δ : Type} {state : State}

theorem of_eq {run : Nat → Machine α} {post : α → State → Prop} {value : α} {final : State}
    (same : ∀ budget, run budget state = some (value, final)) (holds : post value final) :
    Settles run state post :=
  ⟨value, final, holds, fun budget => .inr (same budget), 0, fun budget _ => same budget⟩

theorem imp {run : Nat → Machine α} {post weaker : α → State → Prop} (settles : Settles run state post)
    (implies : ∀ value final, post value final → weaker value final) : Settles run state weaker := by
  obtain ⟨value, final, holds, rest⟩ := settles
  exact ⟨value, final, implies value final holds, rest⟩

theorem bind {run : Nat → Machine α} {next : Nat → α → Machine β} {post : α → State → Prop}
    {last : β → State → Prop} (settles : Settles run state post)
    (continues : ∀ value middle, post value middle →
      Settles (fun budget => next budget value) middle last) :
    Settles (fun budget => run budget >>= next budget) state last := by
  obtain ⟨value, middle, holds, answers, enough, reached⟩ := settles
  obtain ⟨result, final, holds', answers', enough', reached'⟩ := continues value middle holds
  refine ⟨result, final, holds', fun budget => ?_, max enough enough', fun budget large => ?_⟩
  · rcases answers budget with out | found
    · exact .inl (by simp only [Bind.bind, StateT.bind, out, Option.bind_none])
    · have : (run budget >>= next budget) state = next budget value middle := by
        simp only [Bind.bind, StateT.bind, found, Option.bind_some]
      simp only [this]
      exact answers' budget
  · have found := reached budget (Nat.le_trans (Nat.le_max_left _ _) large)
    have found' := reached' budget (Nat.le_trans (Nat.le_max_right _ _) large)
    simp only [Bind.bind, StateT.bind, found, Option.bind_some, found']

theorem restart {run other : Nat → Machine α} {post : α → State → Prop} {start : State}
    (settles : Settles other start post) (same : ∀ budget, run budget state = other budget start) :
    Settles run state post := by
  obtain ⟨value, final, holds, answers, enough, reached⟩ := settles
  exact ⟨value, final, holds, fun budget => same budget ▸ answers budget, enough,
    fun budget large => (same budget).trans (reached budget large)⟩

theorem of_succ {run : Nat → Machine α} {post : α → State → Prop} (out : run 0 state = none)
    (settles : Settles (fun budget => run (budget + 1)) state post) : Settles run state post := by
  obtain ⟨value, final, holds, answers, enough, reached⟩ := settles
  refine ⟨value, final, holds, fun budget => ?_, enough + 1, fun budget large => ?_⟩
  · cases budget with
    | zero => exact .inl out
    | succ budget => exact answers budget
  · cases budget with
    | zero => omega
    | succ budget => exact reached budget (by omega)

theorem afterGet {next : Nat → State → Machine β} {last : β → State → Prop}
    (settles : Settles (fun budget => next budget state) state last) :
    Settles (fun budget => do let found ← get; next budget found) state last :=
  settles.restart fun _ => rfl

theorem afterSet {next : Nat → Machine β} {start : State} {last : β → State → Prop}
    (settles : Settles next start last) :
    Settles (fun budget => do set start; next budget) state last :=
  settles.restart fun _ => rfl

theorem reading {next : Nat → State → ExceptT ε Machine β} {last : Except ε β → State → Prop}
    (settles : Settles (fun budget => (next budget state).run) state last) :
    Settles (fun budget => (do let found ← get; next budget found).run) state last :=
  settles.restart fun _ => rfl

theorem writing {next : Nat → ExceptT ε Machine β} {start : State} {last : Except ε β → State → Prop}
    (settles : Settles (fun budget => (next budget).run) start last) :
    Settles (fun budget => (do set start; next budget).run) state last :=
  settles.restart fun _ => rfl

theorem andThen {run : Nat → ExceptT ε Machine α} {next : Nat → α → ExceptT ε Machine β}
    {post : Except ε α → State → Prop} {last : Except ε β → State → Prop}
    (settles : Settles (fun budget => (run budget).run) state post)
    (continues : ∀ value middle, post (.ok value) middle →
      Settles (fun budget => (next budget value).run) middle last)
    (stops : ∀ error middle, post (.error error) middle → last (.error error) middle) :
    Settles (fun budget => (run budget >>= next budget).run) state last := by
  show Settles (fun budget => (run budget).run >>= ExceptT.bindCont (next budget)) state last
  refine settles.bind fun value middle holds => ?_
  cases value with
  | ok value => exact continues value middle holds
  | error error => exact of_eq (fun _ => rfl) (stops error middle holds)

theorem adapt {run : Nat → ExceptT ε Machine α} {post : Except ε α → State → Prop}
    {last : Except δ α → State → Prop} {wrap : ε → δ}
    (settles : Settles (fun budget => (run budget).run) state post)
    (implies : ∀ value final, post value final → last (value.mapError wrap) final) :
    Settles (fun budget => ((run budget).adapt wrap).run) state last := by
  obtain ⟨value, final, holds, answers, enough, reached⟩ := settles
  have step : ∀ budget, ((run budget).adapt wrap).run state
      = ((run budget).run state).map fun found => (found.1.mapError wrap, found.2) := fun budget => by
    show (run budget state).bind (fun found => some (found.1.mapError wrap, found.2)) = _
    exact Option.map_eq_bind.symm
  refine ⟨_, final, implies value final holds, fun budget => ?_, enough, fun budget large => ?_⟩
  · rcases answers budget with out | found
    · exact .inl (by simp only [step, out, Option.map_none])
    · exact .inr (by simp only [step, found, Option.map_some])
  · simp only [step, reached budget large, Option.map_some]

theorem bracket {run : Nat → PassM α} {close : Except Fault α → State → State}
    {answer : Except Fault α → Except Fault β} {post : Except Fault α → State → Prop}
    {last : Except Fault β → State → Prop} (settles : Settles (fun budget => (run budget).run) state post)
    (closes : ∀ value middle, post value middle → last (answer value) (close value middle)) :
    Settles (fun budget => (do
      let result ← (run budget).attempt
      modify (close result)
      PassM.ofResult (answer result) : PassM β).run) state last := by
  have step : Settles (fun budget => (run budget).run >>= fun value => do
      modify (close value)
      pure (answer value)) state last :=
    settles.bind fun value middle holds => of_eq (fun _ => rfl) (closes value middle holds)
  refine step.restart fun budget => ?_
  simp only [ExceptT.run_bind, PassM.attempt, ExceptT.run_lift]
  show ((Except.ok <$> (run budget).run) >>= _) state = ((run budget).run >>= _) state
  simp only [Bind.bind, StateT.bind, Functor.map, StateT.map]
  cases (run budget).run state <;> rfl

end Settles

/-- A set of sound states that no advance leads out of. -/
structure Region (program : Program) where
  holds : State → Prop
  sound : ∀ state, holds state → state.Sound program
  advance : ∀ first last, holds first → first.Advances program last → holds last

namespace Region

variable {program : Program} {α β ε δ : Type}

def all (program : Program) : Region program where
  holds := State.Sound program
  sound _ sound := sound
  advance _ _ _ advances := advances.sound

def knowing (region : Region program) (scope : Scope) : Region program where
  holds state := region.holds state ∧ state.Knows scope
  sound state here := region.sound state here.1
  advance first last here advances := ⟨region.advance first last here.1 advances, advances.knows here.2⟩

/-- From every state of a region, an operation settles in an advance. -/
def Ends (region : Region program) (run : Nat → Machine α) : Prop :=
  ∀ state, region.holds state → Settles run state fun _ final => state.Advances program final

def Completes (region : Region program) (run : Nat → ExceptT ε Machine α) : Prop :=
  region.Ends fun budget => (run budget).run

variable {region : Region program}

namespace Ends

theorem pure (value : α) : region.Ends fun _ => Pure.pure value :=
  fun state here => .of_eq (fun _ => rfl) (.refl (region.sound state here))

theorem bind {run : Nat → Machine α} {next : Nat → α → Machine β} (ends : region.Ends run)
    (continues : ∀ value, region.Ends fun budget => next budget value) :
    region.Ends fun budget => run budget >>= next budget :=
  fun state here => (ends state here).bind fun value middle advances =>
    (continues value middle (region.advance _ _ here advances)).imp
      fun _ _ further => advances.trans further

theorem modify {change : State → State}
    (advances : ∀ state, region.holds state → state.Advances program (change state)) :
    region.Ends fun _ => (modifyThe State change : Machine PUnit) :=
  fun state here => .of_eq (fun _ => rfl) (advances state here)

theorem filterMapM {run : Nat → α → Machine (Option β)} {items : List α}
    (each : ∀ item, item ∈ items → region.Ends fun budget => run budget item) :
    region.Ends fun budget => items.filterMapM (run budget) := by
  induction items with
  | nil => exact pure []
  | cons first rest ih =>
    simp only [List.filterMapM_cons]
    refine bind (each first List.mem_cons_self) fun kept => ?_
    have remaining := ih fun item member => each item (List.mem_cons_of_mem _ member)
    cases kept with
    | none => exact remaining
    | some item => exact remaining.bind fun _ => pure _

end Ends

namespace Completes

theorem pure (value : α) : region.Completes fun _ => (Pure.pure value : ExceptT ε Machine α) :=
  Ends.pure (Except.ok value)

theorem throws (error : ε) : region.Completes fun _ => (throw error : ExceptT ε Machine α) :=
  Ends.pure (Except.error error)

theorem ofResult (result : Except Fault α) : region.Completes fun _ => PassM.ofResult result :=
  Ends.pure result

theorem ofExcept (result : Except ε α) :
    region.Completes fun _ => (MonadExcept.ofExcept result : ExceptT ε Machine α) := by
  cases result with
  | ok value => exact pure value
  | error error => exact throws error

theorem bind {run : Nat → ExceptT ε Machine α} {next : Nat → α → ExceptT ε Machine β}
    (completes : region.Completes run)
    (continues : ∀ value, region.Completes fun budget => next budget value) :
    region.Completes fun budget => run budget >>= next budget :=
  fun state here => (completes state here).andThen
    (fun value middle advances =>
      (continues value middle (region.advance _ _ here advances)).imp
        fun _ _ further => advances.trans further)
    (fun _ _ advances => advances)

theorem map {run : Nat → ExceptT ε Machine α} (completes : region.Completes run) (f : α → β) :
    region.Completes fun budget => f <$> run budget := by
  simp only [map_eq_pure_bind]
  exact completes.bind fun _ => pure _

theorem adapt {run : Nat → ExceptT ε Machine α} (completes : region.Completes run) (wrap : ε → δ) :
    region.Completes fun budget => (run budget).adapt wrap :=
  fun state here => (completes state here).adapt fun _ _ advances => advances

theorem ofState {operation : State → Except Fault α × State}
    (advances : ∀ state, region.holds state → state.Advances program (operation state).2) :
    region.Completes fun _ => PassM.ofState operation :=
  fun state here => .of_eq (fun _ => rfl) (advances state here)

theorem reads (operation : State → Except Fault α) :
    region.Completes fun _ => PassM.ofState fun state => (operation state, state) :=
  ofState fun state here => .refl (region.sound state here)

theorem mapM {run : Nat → α → ExceptT ε Machine β} {items : List α}
    (each : ∀ item, item ∈ items → region.Completes fun budget => run budget item) :
    region.Completes fun budget => items.mapM (run budget) := by
  induction items with
  | nil => exact pure []
  | cons first rest ih =>
    simp only [List.mapM_cons]
    exact bind (each first List.mem_cons_self) fun _ =>
      bind (ih fun item member => each item (List.mem_cons_of_mem _ member)) fun _ => pure _

end Completes
end Region
end Monomorph
