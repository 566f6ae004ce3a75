import Monomorph.Proofs.Cycle.Lowering
import Monomorph.Proofs.Cycle.Walk

/-! The pass never leaves a constant under evaluation behind.

A check that accepts what is known of the states stops neither the work on an
instance nor the lowering of an item. So the checked pass is the pass, and what is
known holds at every moment of it.
-/

set_option autoImplicit false

namespace Monomorph

variable {α β : Type} {program : Program} {check : Check}

theorem State.Idle.record {state : State} (idle : state.Idle program) {fault : Fault}
    (explains : ∀ chain, fault.chain? = some chain → state.Explains program chain) :
    (state.record fault).Idle program where
  consistent := consistent_record idle.consistent fault
  tracked := idle.tracked.record explains
  empty := by
    unfold State.record
    split <;> exact idle.empty

theorem PassM.AgreesFrom.settle {first last : State} {operation checked : PassM α} {result : Except Fault α}
    (agrees : PassM.AgreesFrom program first operation checked) (ran : operation.run first = some (result, last)) :
    (last.settle result).Idle program := by
  obtain ⟨idle, explains⟩ := agrees.2 result last ran
  cases result with
  | ok value => exact idle
  | error fault => exact idle.record fun chain => explains fault chain rfl

theorem PassM.Agrees.kept {operation checked : PassM α} (agrees : PassM.Agrees program operation checked) :
    Machine.Agrees (State.Idle program) operation.kept checked.kept := by
  intro first idle
  have parts := agrees first idle
  rw [PassM.run_kept, PassM.run_kept, parts.1]
  refine ⟨rfl, fun value last ended => ?_⟩
  obtain ⟨found, ran, kept⟩ := Option.bind_eq_some_iff.mp ended
  cases kept
  exact parts.settle ran

namespace Program

variable {lookup checked : Lookup}

theorem specialized_agrees (accepts : check.Accepts program.Sound) (faithful : lookup.Faithful program)
    (tracks : lookup.Tracks program checked) {drain drain' : PassM Unit}
    (drains : PassM.Agrees program drain drain') (pending : Pending) :
    PassM.Agrees program (program.specialized lookup drain pending)
      (program.checkedSpecialized check checked drain' pending) := by
  unfold specialized checkedSpecialized
  exact .bind (specializeBody_agrees accepts faithful tracks pending.package pending.target) fun _ =>
    .bind drains fun _ => .bind (.reads fun _ _ refused => (Registry.plain_of_resolve refused).chain) fun _ => .pure _

theorem specialize_agrees (accepts : check.Accepts program.Sound) (faithful : lookup.Faithful program)
    (tracks : lookup.Tracks program checked) {drain drain' : Nat → PassM Unit}
    (ensures : ∀ mark pre, Ensures program pre (drain mark) fun _ _ => True)
    (drains : ∀ mark, PassM.Agrees program (drain mark) (drain' mark)) {state : State} {position : Nat}
    {pending : Pending} (idle : state.Idle program) (next : state.queue[position]? = some pending) :
    PassM.AgreesFrom program (state.take position) (program.specialize lookup drain pending)
      (program.checkedSpecialize check checked drain' pending) := by
  have begun : ((state.take position).begin pending).Idle program :=
    ⟨State.consistent_begin idle.consistent next, (idle.tracked.take position).begin pending, idle.empty⟩
  obtain ⟨same, leads⟩ := specialized_agrees accepts faithful tracks (drains (state.take position).queue.length)
    pending _ begun
  constructor
  · unfold specialize checkedSpecialize
    rw [PassM.run_get_bind, PassM.run_set_bind, PassM.run_get_bind, PassM.run_set_bind]
    exact PassM.run_bracket_congr same
  · intro result last ran
    have ends := specialize_ends faithful ensures idle.consistent next ran
    unfold specialize at ran
    rw [PassM.run_get_bind, PassM.run_set_bind] at ran
    obtain ⟨outcome, middle, worked, answer, finished⟩ := PassM.run_bracket ran
    obtain ⟨idle, explains⟩ := leads outcome middle worked
    subst answer finished
    refine ⟨⟨ends.consistent, idle.tracked.finish _ _ explains, ?_⟩, fun fault chain failed reports => ?_⟩
    · cases outcome <;> exact idle.empty
    · cases outcome with
      | ok package => cases failed
      | error found =>
        cases failed
        exact (explains _ chain rfl reports).later (.refl _)

theorem body_agrees (accepts : check.Accepts program.Sound) {budget : Nat}
    (drains : ∀ mark, PassM.Agrees program (program.drainFrom budget mark) (program.checkedDrainFrom check budget mark))
    {state : State} {position : Nat} {pending : Pending} (idle : state.Idle program)
    (next : state.queue[position]? = some pending) :
    PassM.AgreesFrom program (state.take position)
      (program.specialize (.ofBudget program budget) (program.drainFrom budget) pending)
      (ExceptT.mk (check.around (.body pending) (program.checkedSpecialize check (.checked program check budget)
        (program.checkedDrainFrom check budget) pending).run)) := by
  have works := specialize_agrees accepts (Lookup.faithful_ofBudget program budget)
    (Lookup.tracks_checked accepts budget) (drainFrom_ensures program budget) drains idle next
  exact works.around accepts (.body pending) ⟨idle.tracked.take position, idle.empty⟩
    fun _ ended => ⟨ended.tracked, ended.empty⟩

theorem drainFrom_agrees (accepts : check.Accepts program.Sound) (budget mark : Nat) :
    PassM.Agrees program (program.drainFrom budget mark) (program.checkedDrainFrom check budget mark) := by
  induction budget generalizing mark with
  | zero => exact fun first _ => ⟨rfl, nofun⟩
  | succ budget ih =>
    intro first idle
    unfold drainFrom checkedDrainFrom PassM.AgreesFrom
    rw [PassM.run_get_bind, PassM.run_get_bind]
    cases next : first.queue[mark]? with
    | none => exact PassM.Agrees.pure () first idle
    | some pending =>
      rw [PassM.run_set_bind, PassM.run_set_bind]
      exact (body_agrees accepts ih idle next).bind fun _ => ih mark

theorem drain_agrees (accepts : check.Accepts program.Sound) (budget : Nat) :
    Machine.Agrees (State.Idle program) (program.drain budget) (program.checkedDrain check budget) := by
  induction budget with
  | zero => exact fun first _ => ⟨rfl, nofun⟩
  | succ budget ih =>
    intro first idle
    cases next : first.queue[0]? with
    | none =>
      obtain ⟨ran, watched⟩ := program.run_drain_of_none budget next
      rw [ran, watched check]
      exact Machine.Agrees.pure () first idle
    | some pending =>
      have works := body_agrees accepts (drainFrom_agrees accepts budget) idle next
      obtain ⟨ran, watched⟩ := program.run_drain_of_some budget next
      rw [ran, watched check]
      refine ⟨?_, fun value last ended => ?_⟩
      · -- the two go on from the same state, with the fault of the instance recorded in it
        refine Eq.trans (congrArg (Option.bind · _) works.1) (Option.bind_congr fun found ended => ?_)
        exact (ih _ (works.settle ended)).1
      · obtain ⟨found, worked, ended⟩ := Option.bind_eq_some_iff.mp ended
        exact (ih _ (works.settle worked)).2 value last ended

theorem carries_idle (accepts : check.Accepts program.Sound) (budget : Nat) :
    program.Carries (fun _ operation checked => Machine.Agrees (State.Idle program) operation (checked check))
      budget where
  pure := .pure
  bind := .bind
  packageItem _ _ item _ := (PassM.Agrees.item (lowerPackageItem_related (relates_agrees
    (Lookup.faithful_ofBudget program budget) (Lookup.tracks_checked accepts budget)) item) accepts).kept
  moduleItem _ _ item _ := (PassM.Agrees.item (lowerModuleItem_related (relates_agrees
    (Lookup.faithful_ofBudget program budget) (Lookup.tracks_checked accepts budget)) item) accepts).kept
  drain := drain_agrees accepts budget

theorem lowerAll_agrees (accepts : check.Accepts program.Sound) (budget : Nat) :
    Machine.Agrees (State.Idle program) (program.lowerAll budget) (program.checkedAll check budget) := by
  intro first idle
  obtain ⟨same, leads⟩ := (carries_idle accepts budget).lowerAll first idle
  refine ⟨(Check.around_eq ?_ fun value last ran => ?_).trans same, leads⟩
  · exact accepts _ _ ⟨idle.tracked, idle.empty⟩
  · have idle' := leads value last (same ▸ ran)
    exact accepts _ _ ⟨idle'.tracked, idle'.empty⟩

end Program

theorem State.idle_ofUnit (unit : SourceUnit) : (State.ofUnit unit).Idle program := by
  unfold State.ofUnit
  apply List.foldlRecOn
  · exact ⟨consistent_initial, tracked_initial, rfl⟩
  · intro state idle fault member
    refine idle.record fun chain reports => ?_
    rw [(SourceUnit.plain_of_mem_declarationFaults member).chain] at reports
    cases reports

namespace SourceUnit

variable (unit : SourceUnit) (settings : Settings)

/-- What is known of the states holds at every moment of the pass. -/
theorem always_sound : unit.Always settings (Program.ofUnit unit settings).Sound :=
  fun _ accepts budget => (Program.lowerAll_agrees accepts budget _ (State.idle_ofUnit unit)).1

end SourceUnit
end Monomorph
