import Monomorph.Pass.Weight

/-! Progress of the pass from state to state.

`State.Sound` holds of every state the pass goes through. `State.Advances` is what
every operation keeps to: it comes back to the depth it started at, forgets no
level, and leaves no more to do up to that depth than there was.
-/

set_option autoImplicit false

namespace Monomorph

namespace State

/-- Levels are within the limit, and an instance without a level has failed. -/
structure Sound (program : Program) (state : State) : Prop where
  depth_le : state.depth ≤ program.settings.maxInstantiationDepth
  level_le : ∀ target level, state.levels.get? target = some level →
    level ≤ program.settings.maxInstantiationDepth
  queued : ∀ pending ∈ state.queue, pending.level ≤ program.settings.maxInstantiationDepth ∧
    (state.levels.get? pending.target).isSome
  registered : ∀ base arguments id, state.registry.find? base arguments = some id →
    (state.levels.get? ⟨base, id⟩).isSome ∨
      ∃ fault, state.instances.get? ⟨base, id⟩ = some (.failed fault)

structure Advances (program : Program) (first last : State) : Prop where
  depth : last.depth = first.depth
  weight : Weight.NotAbove first.depth (last.weight program) (first.weight program)
  levels : ∀ target, (first.levels.get? target).isSome → (last.levels.get? target).isSome
  sound : last.Sound program

variable {program : Program} {first second third state : State}

theorem Advances.refl (sound : state.Sound program) : state.Advances program state :=
  ⟨rfl, .refl _ _, fun _ known => known, sound⟩

theorem Advances.trans (advances : first.Advances program second)
    (next : second.Advances program third) : first.Advances program third where
  depth := next.depth.trans advances.depth
  weight := (advances.depth ▸ next.weight).trans advances.weight
  levels target known := next.levels target (advances.levels target known)
  sound := next.sound

theorem Advances.knows {scope : Scope} (advances : first.Advances program second)
    (known : first.Knows scope) : second.Knows scope := by
  cases scope with
  | instantiated target => exact advances.levels target known
  | package name => trivial
  | module name => trivial

theorem sound_initial : State.initial.Sound program where
  depth_le := Nat.zero_le _
  level_le _ _ found := by cases found
  queued _ member := by cases member
  registered base arguments id found := by
    cases found

theorem sound_record (sound : state.Sound program) (fault : Fault) :
    (state.record fault).Sound program := by
  unfold record
  split
  · exact sound
  · exact ⟨sound.depth_le, sound.level_le, sound.queued, sound.registered⟩

theorem record_advances (sound : state.Sound program) (fault : Fault) :
    state.Advances program (state.record fault) := by
  have kept := sound_record sound fault
  unfold record at kept ⊢
  split
  · exact .refl sound
  · rename_i fresh
    rw [if_neg fresh] at kept
    exact ⟨rfl, .refl _ _, fun _ known => known, kept⟩

theorem rank_le (sound : state.Sound program) (scope : Scope) :
    state.rank scope ≤ program.settings.maxInstantiationDepth := by
  cases scope with
  | instantiated target =>
    simp only [rank]
    cases found : state.levels.get? target with
    | none => exact Nat.zero_le _
    | some level => exact sound.level_le target level found
  | package name => exact Nat.zero_le _
  | module name => exact Nat.zero_le _

/-- Work on a known body takes place at its rank or below it. -/
theorem rank_le_levelOf {scope : Scope} (known : state.Knows scope) :
    state.rank scope ≤ state.levelOf scope := by
  cases scope with
  | instantiated target =>
    obtain ⟨level, found⟩ := Option.isSome_iff_exists.mp known
    simp only [rank, levelOf, found, Option.getD_some, Nat.le_refl]
  | package name => exact Nat.zero_le _
  | module name => exact Nat.zero_le _

theorem levelOf_le (sound : state.Sound program) (scope : Scope) :
    state.levelOf scope ≤ program.settings.maxInstantiationDepth := by
  cases scope with
  | instantiated target =>
    simp only [levelOf]
    cases found : state.levels.get? target with
    | none => exact sound.depth_le
    | some level => exact sound.level_le target level found
  | package name => exact sound.depth_le
  | module name => exact sound.depth_le

theorem sound_enter (sound : state.Sound program) (key : ConstantKey) :
    (state.enter key).Sound program :=
  ⟨levelOf_le sound key.scope, sound.level_le, sound.queued, sound.registered⟩

theorem sound_leave (sound : state.Sound program) (key : ConstantKey) {depth : Nat}
    (within : depth ≤ program.settings.maxInstantiationDepth) (result : Except Fault Value) :
    (state.leave key depth result).Sound program :=
  ⟨within, sound.level_le, sound.queued, sound.registered⟩

theorem sound_take (sound : state.Sound program) (position : Nat) :
    (state.take position).Sound program :=
  ⟨sound.depth_le, sound.level_le, fun pending member => sound.queued pending (List.mem_of_mem_eraseIdx member),
    sound.registered⟩

theorem sound_insert_instance (sound : state.Sound program) {target : Instance}
    (known : (state.levels.get? target).isSome) (progress : InstanceState) {depth : Nat}
    (within : depth ≤ program.settings.maxInstantiationDepth) :
    ({ state with
        depth := depth
        instances := state.instances.insert target progress } : State).Sound program where
  depth_le := within
  level_le := sound.level_le
  queued := sound.queued
  registered base arguments id found := by
    by_cases same : (⟨base, id⟩ : Instance) = target
    · exact .inl (same ▸ known)
    · simp only [Table.get?_insert, if_neg same]
      exact sound.registered base arguments id found

theorem sound_begin (sound : state.Sound program) {pending : Pending}
    (within : pending.level ≤ program.settings.maxInstantiationDepth)
    (known : (state.levels.get? pending.target).isSome) : (state.begin pending).Sound program :=
  sound_insert_instance sound known .inProgress within

theorem sound_finish (sound : state.Sound program) {target : Instance}
    (known : (state.levels.get? target).isSome) {depth : Nat}
    (within : depth ≤ program.settings.maxInstantiationDepth)
    (result : Except Fault SpecializedPackage) : (state.finish target depth result).Sound program := by
  cases result with
  | ok package =>
    have kept := sound_insert_instance sound known .done within
    exact ⟨kept.depth_le, kept.level_le, kept.queued, kept.registered⟩
  | error fault => exact sound_insert_instance sound known (.failed fault) within

theorem instantiate_advances (sound : state.Sound program) (package : Package) (arguments : Arguments)
    (site : Span) :
    state.Advances program (state.instantiate program.settings package arguments site).2 ∧
      ∀ target, (state.instantiate program.settings package arguments site).1 = .ok target →
        (state.instantiate program.settings package arguments site).2.Knows (.instantiated target) := by
  unfold instantiate
  split
  · exact ⟨.refl sound, fun _ same => by cases same⟩
  · rename_i id registry asked
    split
    · exact ⟨.refl sound, fun _ same => by cases same⟩
    · rename_i progressing
      refine ⟨.refl sound, fun target same => ?_⟩
      cases same
      rcases sound.registered _ _ _ (Registry.find?_of_request asked) with known | ⟨fault, failed⟩
      · exact known
      · exact absurd failed (progressing fault)
  · rename_i id registry asked
    -- what is found afterwards was found before, or is the new instance
    have before {base : String} {sought : Arguments} {other : InstanceId}
        (found : registry.find? base sought = some other) (apart : ¬(⟨base, other⟩ : Instance) = ⟨package.name, id⟩) :
        state.registry.find? base sought = some other := by
      rw [Registry.find?_last asked] at found
      split at found
      · rename_i added
        cases found
        exact absurd (congrArg (Instance.mk · id) added.1) apart
      · exact found
    simp only
    split
    · refine ⟨⟨rfl, .refl _ _, fun _ known => known, sound.depth_le, sound.level_le, sound.queued, ?_⟩,
        fun _ same => by cases same⟩
      intro base sought other found
      simp only [Table.get?_insert]
      by_cases same : (⟨base, other⟩ : Instance) = ⟨package.name, id⟩
      · exact .inr ⟨_, if_pos same⟩
      · simp only [if_neg same]
        exact sound.registered base sought other (before found same)
    · rename_i within
      have within : state.depth + 1 ≤ program.settings.maxInstantiationDepth := by omega
      have grows : ∀ target, (state.levels.get? target).isSome →
          ((state.levels.insert ⟨package.name, id⟩ (state.depth + 1)).get? target).isSome := by
        intro target known
        rw [Table.get?_insert]
        split
        · rfl
        · exact known
      refine ⟨⟨rfl, .inr fun level low => ?_, grows, ⟨sound.depth_le, ?_, ?_, ?_⟩⟩, fun target same => ?_⟩
      · exact @weight_allocate program state ⟨package.name, id⟩ ⟨package, id, state.depth + 1⟩ level
          (by simp only; omega)
      · intro target level found
        simp only [Table.get?_insert] at found
        split at found
        · cases found; exact within
        · exact sound.level_le target level found
      · intro pending member
        rcases List.mem_append.mp member with before | last
        · exact ⟨(sound.queued pending before).1, grows _ (sound.queued pending before).2⟩
        · cases List.mem_singleton.mp last
          refine ⟨within, ?_⟩
          simp only [Pending.target, Table.get?_insert, if_true, Option.isSome_some]
      · intro base sought other found
        by_cases same : (⟨base, other⟩ : Instance) = ⟨package.name, id⟩
        · left
          simp only [Table.get?_insert, if_pos same, Option.isSome_some]
        · rcases sound.registered base sought other (before found same) with known | failed
          · exact .inl (grows _ known)
          · right
            simp only [Table.get?_insert, if_neg same]
            exact failed
      · cases same
        simp only [Knows, Table.get?_insert, if_true, Option.isSome_some]

end State
end Monomorph
