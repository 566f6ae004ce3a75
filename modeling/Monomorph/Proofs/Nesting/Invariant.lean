import Monomorph.Proofs.Dependency.Chronicle
import Monomorph.Proofs.Nesting.Activity

/-! What holds in every state that steps lead to.

The state agrees with the open work: the stack holds the constants of the frames, the
depth is the level of the instance worked on, the bodies of the frames are the instances
in progress, and what waited when they were started still waits. The journal explains the
levels, and every fault about nesting that is kept. One lemma for each kind of step, and
from them what any number of steps keeps.
-/

set_option autoImplicit false

namespace Monomorph

structure Journal.Records (journal : Journal) (limit : Nat) (state : State) : Prop where
  nodup : journal.targets.Nodup
  numbered : ∀ target, target ∈ journal.targets ↔ state.registry.Knows target
  known : ∀ target, (state.levels.get? target).isSome → state.registry.Knows target
  queued : ∀ target, (target, .queued) ∈ state.instances → (state.levels.get? target).isSome
  nested : ∀ target level, state.levels.get? target = some level →
    ∃ above, journal.Nests (target :: above) ∧ (target :: above).Nodup ∧ (target :: above).length = level
  refused : ∀ target fault, state.Refuses target fault → fault.cause = .recursionLimit target.base limit ∧
    ∃ above, journal.Nests above ∧ above.Nodup ∧ above.length = limit ∧ ⟨above.head?, target⟩ ∈ journal

/-- The state is as the open work and the journal say. -/
structure Activity.Valid (program : Program) (activity : Activity) : Prop where
  sound : activity.state.Sound program
  coherent : activity.state.Coherent
  marks : activity.state.Exact
  stack : activity.state.stack = Frame.keys activity.frames
  rises : Frame.Rises activity.state.levels activity.frames activity.state.depth
  started : ∀ target, activity.state.instances.get? target = some .inProgress ↔ target ∈ Frame.bodies activity.frames
  nodup : (Frame.bodies activity.frames).Nodup
  waits : Frame.Waits activity.state.queue activity.frames
  queued : ∀ pending ∈ activity.state.queue, activity.state.levels.get? pending.target = some pending.level
  records : activity.journal.Records program.settings.maxInstantiationDepth activity.state
  accounts : ∀ fault, activity.state.Keeps fault → fault.limit? = some fault → activity.state.Accounts fault

namespace State

variable {program : Program} {first last state : State} {target : Instance} {fault : Fault}

/-- What steps never take back. -/
structure Upholds (first last : State) : Prop where
  registry : first.registry.Extends last.registry
  levels : ∀ target level, first.levels.get? target = some level → last.levels.get? target = some level
  refuses : ∀ target fault, first.Refuses target fault → last.Refuses target fault
  constants : ∀ key entry, entry ≠ .inProgress → first.constants.get? key = some entry →
    last.constants.get? key = some entry
  instances : ∀ target, InstanceState.rank (first.instances.get? target) = 3 →
    last.instances.get? target = first.instances.get? target
  specialized : first.specialized <+: last.specialized

theorem Upholds.refl (state : State) : state.Upholds state :=
  ⟨.refl _, fun _ _ known => known, fun _ _ refuses => refuses, fun _ _ _ found => found, fun _ _ => rfl,
    List.prefix_refl _⟩

theorem Upholds.trans {middle : State} (upholds : first.Upholds middle) (next : middle.Upholds last) :
    first.Upholds last where
  registry := upholds.registry.trans next.registry
  levels target level known := next.levels target level (upholds.levels target level known)
  refuses target fault refuses := next.refuses target fault (upholds.refuses target fault refuses)
  constants key entry ended found := next.constants key entry ended (upholds.constants key entry ended found)
  instances target ended := by
    have kept := upholds.instances target ended
    rw [next.instances target (kept ▸ ended), kept]
  specialized := upholds.specialized.trans next.specialized

theorem Accounts.later (accounts : first.Accounts fault) (upholds : first.Upholds last) : last.Accounts fault :=
  accounts.imp fun target refuses => upholds.refuses target fault refuses

theorem Upholds.knows {scope : Scope} (upholds : first.Upholds last) (known : first.Knows scope) :
    last.Knows scope := by
  cases scope with
  | instantiated target =>
    obtain ⟨level, found⟩ := Option.isSome_iff_exists.mp known
    exact Option.isSome_iff_exists.mpr ⟨level, upholds.levels target level found⟩
  | package name => trivial
  | module name => trivial

theorem Upholds.of_history (lawful : History.Lawful last.instances) (history : first.instances <:+ last.instances)
    (registry : first.registry.Extends last.registry)
    (levels : ∀ target level, first.levels.get? target = some level → last.levels.get? target = some level)
    (unleveled : ∀ target fault, first.Refuses target fault → last.levels.get? target = none)
    (constants : last.constants = first.constants) (specialized : first.specialized <+: last.specialized) :
    first.Upholds last where
  registry := registry
  levels := levels
  refuses target fault refuses := ⟨unleveled target fault refuses, lawful.get?_of_failed history refuses.failed⟩
  constants _ _ _ found := by rw [constants]; exact found
  instances _ ended := lawful.get?_eq_of_rank history ended
  specialized := specialized

theorem finish_keeps (state : State) (target : Instance) (depth : Nat) (result : Except Fault SpecializedPackage) :
    (state.finish target depth result).levels = state.levels ∧
      (state.finish target depth result).constants = state.constants ∧
      (state.finish target depth result).stack = state.stack ∧
      (state.finish target depth result).faults = state.faults ∧
      (state.finish target depth result).depth = depth ∧
      state.specialized <+: (state.finish target depth result).specialized := by
  cases result with
  | ok package => exact ⟨rfl, rfl, rfl, rfl, rfl, List.prefix_append _ _⟩
  | error fault => exact ⟨rfl, rfl, rfl, rfl, rfl, List.prefix_refl _⟩

end State

theorem Journal.Records.step {journal : Journal} {limit : Nat} {state last : State}
    (records : journal.Records limit state)
    (registry : last.registry = state.registry) (levels : last.levels = state.levels)
    (queued : ∀ target, (target, .queued) ∈ last.instances → (target, .queued) ∈ state.instances)
    (refuses : ∀ target fault, last.Refuses target fault → state.Refuses target fault) :
    journal.Records limit last where
  nodup := records.nodup
  numbered := by rw [registry]; exact records.numbered
  known := by rw [registry, levels]; exact records.known
  queued target listed := by rw [levels]; exact records.queued target (queued target listed)
  nested := by rw [levels]; exact records.nested
  refused target fault refused := records.refused target fault (refuses target fault refused)

namespace Activity

variable {program : Program} {mode : Mode} {frames : List Frame} {journal : Journal} {state : State}

/-- The instance worked on is the innermost of a chain that is as long as the depth. -/
theorem Valid.exists_above {activity : Activity} (valid : activity.Valid program) :
    ∃ above, activity.journal.Nests above ∧ above.Nodup ∧ above.length = activity.state.depth ∧
      above.head? = Frame.worker activity.frames := by
  obtain ⟨outside, inside⟩ := valid.rises.worker_eq
  cases working : Frame.worker activity.frames with
  | none => exact ⟨[], .outside, List.nodup_nil, (outside working).symm, rfl⟩
  | some target =>
    obtain ⟨above, nests, nodup, length⟩ := valid.records.nested target _ (inside target working)
    exact ⟨target :: above, nests, nodup, length, rfl⟩

theorem Valid.depth_le_of_rises {activity : Activity} (valid : activity.Valid program) {depth : Nat}
    {frames : List Frame} (rises : Frame.Rises activity.state.levels frames depth) :
    depth ≤ program.settings.maxInstantiationDepth := by
  obtain ⟨outside, inside⟩ := rises.worker_eq
  cases working : Frame.worker frames with
  | none => exact outside working ▸ Nat.zero_le _
  | some target => exact valid.sound.level_le target depth (inside target working)

theorem Valid.accounts_insert (valid : Valid program ⟨frames, journal, state⟩) {last : State} {target : Instance}
    {entry : InstanceState} (upholds : state.Upholds last) (faults : last.faults = state.faults)
    (constants : last.constants = state.constants) (instances : last.instances = state.instances.insert target entry)
    (new : ∀ fault, entry = .failed fault → fault.limit? = some fault → last.Accounts fault) :
    ∀ fault, last.Keeps fault → fault.limit? = some fault → last.Accounts fault := by
  intro fault keeps about
  cases keeps with
  | reported member =>
    rw [faults] at member
    exact (valid.accounts fault (.reported member) about).later upholds
  | constant failed =>
    rw [constants] at failed
    exact (valid.accounts fault (.constant failed) about).later upholds
  | specialization failed =>
    rw [instances, Table.get?_insert] at failed
    split at failed
    · exact new fault (Option.some.inj failed) about
    · exact (valid.accounts fault (.specialization failed) about).later upholds

section Number

variable {package : Package} {arguments : Arguments} {id : InstanceId} {registry : Registry} {site : Span}

/-- A new instance is queued one level below the depth, or refused because that is too deep. -/
theorem instantiate_new (asked : state.registry.request package.name arguments = .ok (⟨id, true⟩, registry))
    (settings : Settings) (site : Span) :
    settings.maxInstantiationDepth < state.depth + 1 ∧
      state.instantiate settings package arguments site =
        (.error (site.fault (.recursionLimit package.name settings.maxInstantiationDepth)),
          { state with
            registry := registry
            instances := state.instances.insert ⟨package.name, id⟩
              (.failed (site.fault (.recursionLimit package.name settings.maxInstantiationDepth))) }) ∨
    state.depth + 1 ≤ settings.maxInstantiationDepth ∧
      state.instantiate settings package arguments site =
        (.ok ⟨package.name, id⟩,
          { state with
            registry := registry
            levels := state.levels.insert ⟨package.name, id⟩ (state.depth + 1)
            instances := state.instances.insert ⟨package.name, id⟩ .queued
            queue := state.queue ++ [⟨package, id, state.depth + 1⟩] }) := by
  unfold State.instantiate
  rw [asked]
  simp only
  split
  · rename_i deep
    exact .inl ⟨deep, rfl⟩
  · rename_i within
    exact .inr ⟨Nat.le_of_not_lt within, rfl⟩

theorem Valid.targets_add (valid : Valid program ⟨frames, journal, state⟩)
    (asked : state.registry.request package.name arguments = .ok (⟨id, true⟩, registry)) (worker : Option Instance) :
    (Journal.targets (journal ++ [⟨worker, package.name, id⟩])).Nodup ∧
      ∀ target, target ∈ Journal.targets (journal ++ [⟨worker, package.name, id⟩]) ↔ registry.Knows target := by
  obtain ⟨unknown, knows⟩ := Registry.knows_of_request asked
  have listed : Journal.targets (journal ++ [⟨worker, package.name, id⟩]) = journal.targets ++ [⟨package.name, id⟩] :=
    List.map_append
  rw [listed]
  refine ⟨List.nodup_append.mpr ⟨valid.records.nodup, List.nodup_singleton _, ?_⟩, fun target => ?_⟩
  · rintro target there _ added rfl
    rw [List.mem_singleton.mp added] at there
    exact unknown ((valid.records.numbered _).mp there)
  · rw [List.mem_append, List.mem_singleton, knows target, valid.records.numbered target]

theorem Valid.started_add (valid : Valid program ⟨frames, journal, state⟩)
    (asked : state.registry.request package.name arguments = .ok (⟨id, true⟩, registry)) {entry : InstanceState}
    (idle : entry ≠ .inProgress) (target : Instance) :
    (state.instances.insert ⟨package.name, id⟩ entry).get? target = some .inProgress ↔
      target ∈ Frame.bodies frames := by
  rw [← valid.started target, Table.get?_insert]
  split
  · rename_i same
    have fresh := valid.coherent.get?_of_request asked
    rw [← same] at fresh
    simp [fresh, idle]
  · rfl

theorem Valid.level_of_request (valid : Valid program ⟨frames, journal, state⟩)
    (asked : state.registry.request package.name arguments = .ok (⟨id, true⟩, registry)) :
    state.levels.get? ⟨package.name, id⟩ = none := by
  cases found : state.levels.get? ⟨package.name, id⟩ with
  | none => rfl
  | some level =>
    have known := valid.records.known ⟨package.name, id⟩ (by rw [found]; rfl)
    exact absurd known (Registry.knows_of_request asked).1

theorem Valid.levels_add (valid : Valid program ⟨frames, journal, state⟩)
    (asked : state.registry.request package.name arguments = .ok (⟨id, true⟩, registry)) (added : Nat)
    (target : Instance) (level : Nat) (known : state.levels.get? target = some level) :
    (state.levels.insert ⟨package.name, id⟩ added).get? target = some level := by
  rw [Table.get?_insert, if_neg, known]
  rintro rfl
  rw [valid.level_of_request asked] at known
  cases known

theorem Valid.nests_add (valid : Valid program ⟨frames, journal, state⟩) (added : Numbering) {target : Instance}
    {level : Nat} (found : state.levels.get? target = some level) :
    ∃ above, Journal.Nests (journal ++ [added]) (target :: above) ∧ (target :: above).Nodup ∧
      (target :: above).length = level := by
  obtain ⟨above, nests, rest⟩ := valid.records.nested target level found
  exact ⟨above, nests.append [added], rest⟩

theorem Valid.refused_add (valid : Valid program ⟨frames, journal, state⟩) (added : Numbering) {target : Instance}
    {fault : Fault} (refuses : state.Refuses target fault) :
    fault.cause = .recursionLimit target.base program.settings.maxInstantiationDepth ∧
      ∃ above, Journal.Nests (journal ++ [added]) above ∧ above.Nodup ∧
        above.length = program.settings.maxInstantiationDepth ∧ ⟨above.head?, target⟩ ∈ journal ++ [added] := by
  obtain ⟨cause, above, nests, nodup, length, listed⟩ := valid.records.refused target fault refuses
  exact ⟨cause, above, nests.append [added], nodup, length, List.mem_append_left _ listed⟩

theorem Valid.records_queue (valid : Valid program ⟨frames, journal, state⟩)
    (asked : state.registry.request package.name arguments = .ok (⟨id, true⟩, registry)) :
    Journal.Records (journal ++ [⟨Frame.worker frames, package.name, id⟩]) program.settings.maxInstantiationDepth
      { state with
        registry := registry
        levels := state.levels.insert ⟨package.name, id⟩ (state.depth + 1)
        instances := state.instances.insert ⟨package.name, id⟩ .queued
        queue := state.queue ++ [⟨package, id, state.depth + 1⟩] } := by
  obtain ⟨nodup, numbered⟩ := valid.targets_add asked (Frame.worker frames)
  obtain ⟨unknown, knows⟩ := Registry.knows_of_request asked
  refine ⟨nodup, numbered, fun target leveled => ?_, fun target listed => ?_, fun target level found => ?_,
    fun target fault refuses => ?_⟩
  · rw [Table.get?_insert] at leveled
    split at leveled
    · rename_i same
      exact (knows target).mpr (.inr same)
    · exact (knows target).mpr (.inl (valid.records.known target leveled))
  · rw [Table.get?_insert]
    rcases List.mem_cons.mp listed with here | before
    · rw [if_pos (congrArg Prod.fst here)]
      rfl
    · split
      · rfl
      · exact valid.records.queued target before
  · rw [Table.get?_insert] at found
    split at found
    · rename_i same
      cases found
      -- the chain of the instance worked on, and the new one below it
      obtain ⟨above, nests, distinct, length, head⟩ := valid.exists_above
      have numbered : (⟨above.head?, target⟩ : Numbering) ∈ journal ++ [⟨Frame.worker frames, package.name, id⟩] := by
        rw [same, head]
        exact List.mem_append_right _ (List.mem_singleton_self _)
      have absent : target ∉ above := fun member =>
        unknown ((valid.records.numbered _).mp (same ▸ nests.mem_targets member))
      exact ⟨above, .inside (nests.append _) numbered, List.nodup_cons.mpr ⟨absent, distinct⟩, by
        rw [List.length_cons, length]⟩
    · exact valid.nests_add _ found
  · obtain ⟨level, failed⟩ := refuses
    rw [Table.get?_insert] at level failed
    split at level
    · cases level
    · rename_i different
      rw [if_neg different] at failed
      exact valid.refused_add _ ⟨level, failed⟩

/-- A new instance that is refused was asked for below a chain that is as long as the limit. -/
theorem Valid.records_refuse (valid : Valid program ⟨frames, journal, state⟩)
    (asked : state.registry.request package.name arguments = .ok (⟨id, true⟩, registry))
    (deep : program.settings.maxInstantiationDepth < state.depth + 1) :
    Journal.Records (journal ++ [⟨Frame.worker frames, package.name, id⟩]) program.settings.maxInstantiationDepth
      { state with
        registry := registry
        instances := state.instances.insert ⟨package.name, id⟩
          (.failed (site.fault (.recursionLimit package.name program.settings.maxInstantiationDepth))) } := by
  obtain ⟨nodup, numbered⟩ := valid.targets_add asked (Frame.worker frames)
  have knows := (Registry.knows_of_request asked).2
  refine ⟨nodup, numbered, fun target leveled => (knows target).mpr (.inl (valid.records.known target leveled)),
    fun target listed => ?_, fun target level => valid.nests_add _, fun target fault refuses => ?_⟩
  · rcases List.mem_cons.mp listed with here | before
    · cases here
    · exact valid.records.queued target before
  · obtain ⟨level, failed⟩ := refuses
    rw [Table.get?_insert] at failed
    split at failed
    · rename_i same
      cases failed
      subst same
      obtain ⟨above, nests, distinct, length, head⟩ := valid.exists_above
      have within := valid.sound.depth_le
      refine ⟨rfl, above, nests.append _, distinct, by simp only at length within; omega, ?_⟩
      rw [head]
      exact List.mem_append_right _ (List.mem_singleton_self _)
    · exact valid.refused_add _ ⟨level, failed⟩

theorem Valid.number (valid : Valid program ⟨frames, journal, state⟩)
    (asked : state.registry.request package.name arguments = .ok (⟨id, true⟩, registry)) :
    state.Upholds (state.instantiate program.settings package arguments site).2 ∧
      Valid program ⟨frames, journal ++ [⟨Frame.worker frames, package.name, id⟩],
        (state.instantiate program.settings package arguments site).2⟩ := by
  have sound := (State.instantiate_advances valid.sound package arguments site).1.sound
  have extends_registry := (Registry.find?_of_request_ok asked).1
  rcases instantiate_new asked program.settings site with ⟨deep, made⟩ | ⟨within, made⟩
  · -- too deep: it gets a number but no level, and has failed
    obtain ⟨coherent, grows⟩ := valid.coherent.instantiate made
    rw [made] at sound ⊢
    have upholds : state.Upholds _ := .of_history coherent.lawful grows.history extends_registry
      (fun _ _ known => known) (fun _ _ refuses => refuses.level) rfl (List.prefix_refl _)
    refine ⟨upholds, sound, coherent, ⟨valid.marks.distinct, valid.marks.inProgress⟩, valid.stack, valid.rises,
      valid.started_add asked nofun, valid.nodup, valid.waits, valid.queued, valid.records_refuse asked deep, ?_⟩
    refine valid.accounts_insert upholds rfl rfl rfl fun fault same _ => ?_
    cases same
    exact ⟨_, valid.level_of_request asked, by rw [Table.get?_insert, if_pos rfl]⟩
  · -- within the limit: it waits, one level below the instance worked on
    obtain ⟨coherent, grows⟩ := valid.coherent.instantiate made
    rw [made] at sound ⊢
    have unleveled : ∀ target fault, state.Refuses target fault →
        (state.levels.insert ⟨package.name, id⟩ (state.depth + 1)).get? target = none := by
      intro target fault refuses
      rw [Table.get?_insert, if_neg, refuses.level]
      -- the new instance has no state yet, while a refused one has failed
      rintro rfl
      have fresh := valid.coherent.get?_of_request asked
      rw [refuses.failed] at fresh
      cases fresh
    have upholds : state.Upholds _ := .of_history coherent.lawful grows.history extends_registry
      (valid.levels_add asked _) unleveled rfl (List.prefix_refl _)
    refine ⟨upholds, sound, coherent, ⟨valid.marks.distinct, valid.marks.inProgress⟩, valid.stack,
      valid.rises.later (valid.levels_add asked _), valid.started_add asked nofun, valid.nodup,
      valid.waits.later (List.prefix_append _ _), ?_, valid.records_queue asked,
      valid.accounts_insert upholds rfl rfl rfl nofun⟩
    intro pending member
    rcases List.mem_append.mp member with before | last
    · exact valid.levels_add asked _ _ _ (valid.queued pending before)
    · cases List.mem_singleton.mp last
      simp only [Pending.target, Table.get?_insert, if_true]

end Number

section Constants

variable {key : ConstantKey} {depth : Nat} {result : Except Fault Value}

theorem Valid.enter (valid : Valid program ⟨frames, journal, state⟩) (known : state.Knows key.scope)
    (new : state.constants.get? key = none) :
    state.Upholds (state.enter key) ∧
      Valid program ⟨.constant key state.depth :: frames, journal, state.enter key⟩ := by
  have refuses : ∀ target fault, state.Refuses target fault → (state.enter key).Refuses target fault :=
    fun _ _ refuses => ⟨refuses.level, refuses.failed⟩
  have upholds : state.Upholds (state.enter key) := by
    refine ⟨.refl _, fun _ _ known => known, refuses, fun other entry _ found => ?_, fun _ _ => rfl, List.prefix_refl _⟩
    show (state.constants.insert key .inProgress).get? other = some entry
    rw [Table.get?_insert, if_neg, found]
    rintro rfl
    rw [new] at found
    cases found
  refine ⟨upholds, State.sound_enter valid.sound key, valid.coherent.enter key, valid.marks.enter new, ?_,
    valid.rises.enter known, valid.started, valid.nodup, valid.waits, valid.queued, ?_, fun fault keeps about => ?_⟩
  · show state.stack ++ [key] = _
    rw [Frame.keys_constant, valid.stack]
  · exact valid.records.step rfl rfl (fun _ listed => listed) fun _ _ refuses => ⟨refuses.level, refuses.failed⟩
  · refine (valid.accounts fault ?_ about).later upholds
    cases keeps with
    | reported member => exact .reported member
    | specialization failed => exact .specialization failed
    | constant failed =>
      simp only [State.enter, Table.get?_insert] at failed
      split at failed
      · cases failed
      · exact .constant failed

theorem Valid.leave (valid : Valid program ⟨.constant key depth :: frames, journal, state⟩)
    (blames : state.Blames Fault.limit? result) :
    state.Upholds (state.leave key depth result) ∧ Valid program ⟨frames, journal, state.leave key depth result⟩ := by
  have stack : state.stack = Frame.keys frames ++ [key] := valid.stack.trans (Frame.keys_constant key depth frames)
  have marked : state.constants.get? key = some .inProgress := by
    rw [valid.marks.inProgress, stack]
    exact List.mem_append_right _ (List.mem_singleton_self key)
  have rises : Frame.Rises state.levels frames depth := valid.rises.tail
  have refuses : ∀ target fault, state.Refuses target fault → (state.leave key depth result).Refuses target fault :=
    fun _ _ refuses => ⟨refuses.level, refuses.failed⟩
  have upholds : state.Upholds (state.leave key depth result) := by
    refine ⟨.refl _, fun _ _ known => known, refuses, fun other entry ended found => ?_, fun _ _ => rfl,
      List.prefix_refl _⟩
    show (state.constants.insert key (.ofResult result)).get? other = some entry
    rw [Table.get?_insert, if_neg, found]
    -- the constant that is left had no result before
    rintro rfl
    exact ended (Option.some.inj (found.symm.trans marked))
  refine ⟨upholds, State.sound_leave valid.sound key (valid.depth_le_of_rises rises) result,
    valid.coherent.leave key depth result, valid.marks.leave stack depth result, State.stack_leave stack depth result,
    rises, valid.started, valid.nodup, valid.waits, valid.queued, ?_, fun fault keeps about => ?_⟩
  · exact valid.records.step rfl rfl (fun _ listed => listed) fun _ _ refuses => ⟨refuses.level, refuses.failed⟩
  · cases keeps with
    | reported member => exact (valid.accounts fault (.reported member) about).later upholds
    | specialization failed => exact (valid.accounts fault (.specialization failed) about).later upholds
    | constant failed =>
      simp only [State.leave, Table.get?_insert] at failed
      split at failed
      · cases result with
        | ok value => cases failed
        | error found =>
          cases failed
          exact (blames _ _ rfl about).later upholds
      · exact (valid.accounts fault (.constant failed) about).later upholds

end Constants

section Bodies

variable {pending : Pending} {position mark depth : Nat} {waiting : List Pending}
  {result : Except Fault SpecializedPackage}

theorem Valid.begin (valid : Valid program ⟨frames, journal, state⟩) (free : Frame.mark? frames = some mark)
    (behind : mark ≤ position) (next : state.queue[position]? = some pending) :
    state.Upholds ((state.take position).begin pending) ∧
      Valid program ⟨.body pending state.depth (state.take position).queue :: frames, journal,
        (state.take position).begin pending⟩ := by
  have member := List.mem_of_getElem? next
  have leveled : state.levels.get? pending.target = some pending.level := valid.queued pending member
  have waiting : state.instances.get? pending.target = some .queued := valid.coherent.queued next
  have coherent := valid.coherent.begin next
  have upholds : state.Upholds ((state.take position).begin pending) :=
    .of_history coherent.lawful (List.suffix_cons _ _) (.refl _) (fun _ _ known => known)
      (fun _ _ refuses => refuses.level) rfl (List.prefix_refl _)
  have sound : ((state.take position).begin pending).Sound program :=
    State.sound_begin (State.sound_take valid.sound position) (valid.sound.queued pending member).1
      (valid.sound.queued pending member).2
  refine ⟨upholds, sound, coherent, ⟨valid.marks.distinct, valid.marks.inProgress⟩, valid.stack,
    .body leveled valid.rises, fun target => ?_, List.nodup_cons.mpr ⟨fun busy => ?_, valid.nodup⟩,
    ⟨List.prefix_refl _, valid.waits.eraseIdx free behind⟩, ?_, ?_, valid.accounts_insert upholds rfl rfl rfl nofun⟩
  · show (state.instances.insert pending.target .inProgress).get? target = _ ↔
      target ∈ pending.target :: Frame.bodies frames
    rw [Table.get?_insert, List.mem_cons, ← valid.started target]
    split
    · rename_i same
      exact ⟨fun _ => .inl same, fun _ => rfl⟩
    · rename_i different
      exact ⟨.inr, fun either => either.resolve_left different⟩
  · -- it was waiting, so it was not worked on
    have started := (valid.started pending.target).mpr busy
    rw [waiting] at started
    cases started
  · exact fun other there => valid.queued other (List.mem_of_mem_eraseIdx there)
  · refine valid.records.step rfl rfl (fun target listed => ?_) fun target fault refuses => ?_
    · rcases List.mem_cons.mp listed with here | before
      · cases here
      · exact before
    · obtain ⟨level, failed⟩ := refuses
      refine ⟨level, ?_⟩
      simp only [State.begin, Table.get?_insert] at failed
      split at failed
      · cases failed
      · exact failed

theorem Valid.finish (valid : Valid program ⟨.body pending depth waiting :: frames, journal, state⟩)
    (blames : state.Blames Fault.limit? result)
    (made : ∀ package, result = .ok package →
      package.target = pending.target ∧ state.registry.get? pending.target = some package.arguments) :
    state.Upholds (state.finish pending.target depth result) ∧
      Valid program ⟨frames, journal, state.finish pending.target depth result⟩ := by
  have started : state.instances.get? pending.target = some .inProgress :=
    (valid.started pending.target).mpr List.mem_cons_self
  obtain ⟨apart, nodup⟩ := List.nodup_cons.mp (show (pending.target :: Frame.bodies frames).Nodup from valid.nodup)
  have rises : Frame.Rises state.levels frames depth := valid.rises.tail
  have leveled : state.levels.get? pending.target = some state.depth := valid.rises.worker_eq.2 pending.target rfl
  have coherent : (state.finish pending.target depth result).Coherent := valid.coherent.finish started made
  have history := State.instances_finish state pending.target depth result
  obtain ⟨levels, constants, stack, faults, left, specialized⟩ := state.finish_keeps pending.target depth result
  have registry := state.registry_finish pending.target depth result
  have queue := state.queue_finish pending.target depth result
  have upholds : state.Upholds (state.finish pending.target depth result) := by
    refine .of_history coherent.lawful ?_ ?_ ?_ ?_ constants specialized
    · rw [history]
      exact List.suffix_cons _ _
    · rw [registry]
      exact .refl _
    · rw [levels]
      exact fun _ _ known => known
    · rw [levels]
      exact fun _ _ refuses => refuses.level
  refine ⟨upholds, ?_, coherent, ⟨?_, ?_⟩, ?_, ?_, fun target => ?_, nodup, ?_, ?_, ?_,
    valid.accounts_insert upholds faults constants history fun fault same about => ?_⟩
  · exact State.sound_finish valid.sound (Option.isSome_of_eq_some leveled) (valid.depth_le_of_rises rises) result
  · simp only [stack, valid.marks.distinct]
  · simpa only [stack, constants] using valid.marks.inProgress
  · exact stack.trans valid.stack
  · simpa only [levels, left] using rises
  · simp only [history]
    rw [Table.get?_insert]
    split
    · rename_i same
      subst same
      constructor
      · intro ended
        cases result <;> cases ended
      · exact fun busy => absurd busy apart
    · rename_i different
      rw [valid.started target]
      exact List.mem_cons.trans ⟨fun either => either.resolve_left different, .inr⟩
  · simp only [queue]
    exact valid.waits.2.later valid.waits.1
  · simpa only [queue, levels] using valid.queued
  · refine valid.records.step registry levels (fun target listed => ?_) fun target fault refuses => ?_
    · rw [history] at listed
      rcases List.mem_cons.mp listed with here | before
      · cases result <;> cases here
      · exact before
    · obtain ⟨level, failed⟩ := refuses
      rw [levels] at level
      rw [history, Table.get?_insert, if_neg] at failed
      · exact ⟨level, failed⟩
      · -- an instance that is worked on has a level, so it was not refused
        rintro rfl
        rw [leveled] at level
        cases level
  · cases result with
    | ok package => cases same
    | error found =>
      cases same
      exact (blames _ _ rfl about).later upholds

end Bodies

theorem Valid.record (valid : Valid program ⟨[], journal, state⟩) {fault : Fault}
    (blames : state.Blames Fault.limit? (.error fault : Except Fault Unit)) :
    state.Upholds (state.record fault) ∧ Valid program ⟨[], journal, state.record fault⟩ := by
  have sound := State.sound_record valid.sound fault
  have coherent := valid.coherent.record fault
  unfold State.record at sound coherent ⊢
  split
  · exact ⟨.refl _, valid⟩
  · rename_i fresh
    rw [if_neg fresh] at sound coherent
    have upholds : state.Upholds { state with faults := state.faults ++ [fault] } :=
      ⟨.refl _, fun _ _ known => known, fun _ _ refuses => ⟨refuses.level, refuses.failed⟩, fun _ _ _ found => found,
        fun _ _ => rfl, List.prefix_refl _⟩
    refine ⟨upholds, sound, coherent, ⟨valid.marks.distinct, valid.marks.inProgress⟩, valid.stack, valid.rises,
      valid.started, valid.nodup, trivial, valid.queued, ?_, fun other keeps about => ?_⟩
    · exact valid.records.step rfl rfl (fun _ listed => listed) fun _ _ refuses =>
        ⟨refuses.level, refuses.failed⟩
    · cases keeps with
      | constant failed => exact (valid.accounts other (.constant failed) about).later upholds
      | specialization failed => exact (valid.accounts other (.specialization failed) about).later upholds
      | reported member =>
        rcases List.mem_append.mp member with old | new
        · exact (valid.accounts other (.reported old) about).later upholds
        · cases List.mem_singleton.mp new
          exact (blames _ _ rfl about).later upholds

theorem Valid.step {first last : Activity} (valid : first.Valid program) (step : program.Moves mode first last) :
    first.state.Upholds last.state ∧ last.Valid program := by
  cases step with
  | number asked => exact valid.number asked
  | enter known new => exact valid.enter known new
  | leave blames => exact valid.leave blames
  | begin free behind next => exact valid.begin free behind next
  | finish blames made => exact valid.finish blames made
  | record blames => exact valid.record blames

theorem Valid.passes {first last : Activity} {path : List Activity} (valid : first.Valid program)
    (passes : program.Passes mode first path last) : first.state.Upholds last.state ∧ last.Valid program := by
  induction passes with
  | stays => exact ⟨.refl _, valid⟩
  | goes step _ ih =>
    obtain ⟨upholds, valid⟩ := valid.step step
    obtain ⟨further, valid⟩ := ih valid
    exact ⟨upholds.trans further, valid⟩

/-- All that is on a path is valid, and is upheld from there on. -/
theorem Valid.along {first last : Activity} {path : List Activity} (valid : first.Valid program)
    (passes : program.Passes mode first path last) :
    (∀ activity ∈ first :: path, activity.Valid program) ∧
      (first :: path).Pairwise fun earlier later => earlier.state.Upholds later.state := by
  induction passes with
  | stays => exact ⟨fun activity here => List.mem_singleton.mp here ▸ valid, List.pairwise_singleton _ _⟩
  | @goes first next last path step passes ih =>
    obtain ⟨upholds, next⟩ := valid.step step
    obtain ⟨all, ordered⟩ := ih next
    refine ⟨fun activity member => ?_, List.pairwise_cons.mpr ⟨fun later member => ?_, ordered⟩⟩
    · rcases List.mem_cons.mp member with rfl | there
      · exact valid
      · exact all activity there
    · rcases List.mem_cons.mp member with rfl | there
      · exact upholds
      · exact upholds.trans (List.rel_of_pairwise_cons ordered there)

theorem evaluating_passes {first last : Activity} {path : List Activity}
    (passes : program.Passes .evaluating first path last) :
    first.state.queue <+: last.state.queue ∧ last.state.specialized = first.state.specialized := by
  induction passes with
  | stays => exact ⟨List.prefix_refl _, rfl⟩
  | goes step _ ih =>
    obtain ⟨grows, same⟩ := ih
    cases step with
    | enter => exact ⟨grows, same⟩
    | leave => exact ⟨grows, same⟩
    | @number _ _ _ state _ _ _ _ site asked =>
      rcases instantiate_new asked program.settings site with ⟨_, made⟩ | ⟨_, made⟩
      · rw [made] at grows same
        exact ⟨grows, same⟩
      · rw [made] at grows same
        exact ⟨(List.prefix_append _ _).trans grows, same⟩

end Activity
end Monomorph
