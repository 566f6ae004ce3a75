import Monomorph.Pass.Specialization
import Monomorph.Pass.Termination.Lowering

/-! The queue of instances is emptied.

Taking an instance out of the queue leaves less to do at its level, and its body
asks for instances one level deeper only.
-/

set_option autoImplicit false

namespace Monomorph

theorem State.weight_record {program : Program} (state : State) (fault : Fault) :
    (state.record fault).weight program = state.weight program := by
  unfold State.record
  split <;> rfl

namespace Program

variable {program : Program} {region : Region program}

theorem specializeItem_completes {context : Context} (known : context.KnownIn region)
    (item : PackageItem) :
    region.Completes fun budget => program.specializeItem (.ofBudget program budget) context item := by
  cases item with
  | const decl =>
    refine .bind (fun state here => constants_in region context.scope decl.name decl.span state
      ⟨here, known state here⟩) fun _ => ?_
    exact .bind (lowerType?_completes known decl.type) fun _ => .pure _
  | typeDef name type => exact .bind (lowerPackageItem_completes known _) fun _ => .pure _
  | struct name kind fields => exact .bind (lowerPackageItem_completes known _) fun _ => .pure _
  | enum name base variants => exact .bind (lowerPackageItem_completes known _) fun _ => .pure _
  | function decl => exact .bind (lowerPackageItem_completes known _) fun _ => .pure _

theorem specializeBody_completes (package : Package) {target : Instance}
    (known : ∀ state, region.holds state → state.Knows (.instantiated target)) :
    region.Completes fun budget => program.specializeBody (.ofBudget program budget) package target :=
  .bind (.reads _) fun _ =>
    .bind (.mapM fun _ _ => specializeItem_completes (fun state here => known state here) _) fun _ => .pure _

/-- Specialization of an instance out of the queue leaves less to do, if what is queued
meanwhile can be specialized. -/
theorem specialize_settles {origin : State} (sound : origin.Sound program) {position : Nat}
    {pending : Pending} (found : origin.queue[position]? = some pending) (drain : Nat → Nat → PassM Unit)
    (drains : ∀ mark, (under program pending.level (origin.weight program)).Completes
      fun budget => drain budget mark) :
    Settles (fun budget => (program.specialize (.ofBudget program budget) (drain budget) pending).run)
      (origin.take position) fun _ final => origin.Advances program final ∧
        Weight.Below pending.level (final.weight program) (origin.weight program) := by
  obtain ⟨within, placed⟩ := sound.queued pending (List.mem_of_getElem? found)
  -- one instance less at its level, and no more anywhere else
  have below : Weight.Below pending.level ((origin.take position).weight program)
      (origin.weight program) := by
    refine Weight.below_of_le (fun level => ?_) _ ?_
    · have := @State.weight_take program origin position pending found level
      omega
    · have := @State.weight_take program origin position pending found pending.level
      rw [if_pos rfl] at this
      omega
  have start : ((under program pending.level (origin.weight program)).knowing
      (.instantiated pending.target)).holds ((origin.take position).begin pending) :=
    ⟨⟨State.sound_begin (State.sound_take sound position) within placed, Nat.le_refl _, below⟩, placed⟩
  unfold specialize
  refine .reading (.writing ?_)
  have body : ((under program pending.level (origin.weight program)).knowing
      (.instantiated pending.target)).Completes fun budget =>
        program.specialized (.ofBudget program budget)
          (drain budget (origin.take position).queue.length) pending :=
    .bind (specializeBody_completes _ fun _ here => here.2) fun _ =>
      .bind (fun state here => drains _ state here.1) fun _ =>
        .bind (.reads _) fun _ => .pure _
  refine (body _ start).bracket fun result middle advances => ?_
  have inside := (Region.advance _ _ _ start advances).1.2.2
  -- finishing touches neither constants, levels nor the queue
  have same : (middle.finish pending.target (origin.take position).depth result).weight program
      = middle.weight program := by
    cases result <;> rfl
  have levels : (middle.finish pending.target (origin.take position).depth result).levels
      = middle.levels := by
    cases result <;> rfl
  have depth : (middle.finish pending.target (origin.take position).depth result).depth
      = origin.depth := by
    cases result <;> rfl
  refine ⟨⟨depth, ?_, ?_, ?_⟩, ?_⟩
  · rw [same]
    exact inside.notAbove _
  · rw [levels]
    exact advances.levels
  · exact State.sound_finish advances.sound (advances.levels _ placed) sound.depth_le _
  · rw [same]
    exact inside

theorem drainFrom_completes (mark : Nat) :
    (Region.all program).Completes fun budget => program.drainFrom budget mark := by
  have each (weight : Weight) : ∀ state, state.weight program = weight → state.Sound program →
      ∀ mark, Settles (fun budget => (program.drainFrom budget mark).run) state
        fun _ final => state.Advances program final := by
    induction weight using
      (Weight.wellFounded_below program.settings.maxInstantiationDepth).induction with
    | _ weight ih =>
      intro state same sound mark
      refine .of_succ rfl ?_
      simp only [drainFrom]
      refine .reading ?_
      cases found : state.queue[mark]? with
      | none =>
        exact .of_eq (fun _ => rfl) (.refl sound)
      | some pending =>
        refine .writing ?_
        have within := (sound.queued pending (List.mem_of_getElem? found)).1
        refine (specialize_settles sound found program.drainFrom fun mark middle here => ?_).andThen
          (fun _ middle reached => ?_) (fun _ _ reached => reached.1)
        · exact ih _ (same ▸ here.2.2.mono within) middle rfl here.1 mark
        · exact (ih _ (same ▸ reached.2.mono within) middle rfl reached.1.sound mark).imp
            fun _ _ further => reached.1.trans further
  exact fun state here => each _ state rfl here mark

theorem drain_ends : (Region.all program).Ends fun budget => program.drain budget := by
  have each (weight : Weight) : ∀ state, state.weight program = weight → state.Sound program →
      Settles (fun budget => program.drain budget) state fun _ final => state.Advances program final := by
    induction weight using
      (Weight.wellFounded_below program.settings.maxInstantiationDepth).induction with
    | _ weight ih =>
      intro state same sound
      refine .of_succ rfl ?_
      simp only [drain]
      refine .afterGet ?_
      cases queue_eq : state.queue with
      | nil => exact .of_eq (fun _ => rfl) (.refl sound)
      | cons pending rest =>
        have found : state.queue[0]? = some pending := by rw [queue_eq]; rfl
        have within := (sound.queued pending (List.mem_of_getElem? found)).1
        refine .afterSet ?_
        refine (specialize_settles sound found program.drainFrom fun mark middle here =>
          drainFrom_completes mark middle here.1).bind fun result middle reached => ?_
        cases result with
        | ok value =>
          exact (ih _ (same ▸ reached.2.mono within) middle rfl reached.1.sound).imp
            fun _ _ further => reached.1.trans further
        | error fault =>
          have recorded := State.record_advances reached.1.sound fault
          have below : Weight.Below program.settings.maxInstantiationDepth
              ((middle.record fault).weight program) weight := by
            rw [State.weight_record, ← same]
            exact reached.2.mono within
          exact ((ih _ below (middle.record fault) rfl recorded.sound).imp
            fun _ _ further => reached.1.trans (recorded.trans further)).restart fun _ => rfl
  exact fun state here => each _ state rfl here

end Program
end Monomorph
