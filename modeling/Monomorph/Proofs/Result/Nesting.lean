import Monomorph.Proofs.Binding.Arguments
import Monomorph.Proofs.Nesting.Unit
import Monomorph.Proofs.Result.Termination

/-! Nesting levels.

The level of an instance is the length of a chain of distinct instances that ends with it:
the first one is asked for outside instances, and each next one while the one before it is
worked on. No chain is longer than the limit. An instance that would make one longer is
refused, and whoever refers to it from then on gets the fault that it was refused with.
-/

set_option autoImplicit false

namespace Monomorph

namespace Activity

/-- A fault about nesting is that of an instance that was refused, since it was asked for below a chain that is
as long as the limit. -/
def Explains (activity : Activity) (limit : Nat) (fault : Fault) : Prop :=
  ∃ target above, activity.state.Refuses target fault ∧ fault.cause = .recursionLimit target.base limit ∧
    activity.journal.Nests above ∧ above.Nodup ∧ above.length = limit ∧ ⟨above.head?, target⟩ ∈ activity.journal

structure Numbers (activity next : Activity) (entry : Numbering) : Prop where
  journal : next.journal = activity.journal ++ [entry]
  worker : entry.worker = Frame.worker activity.frames
  unknown : ¬ activity.state.registry.Knows entry.target
  known : next.state.registry.Knows entry.target

/-- Instances nest as they should. -/
structure Nested (activity : Activity) (limit : Nat) : Prop where
  depth_le : activity.state.depth ≤ limit
  /-- Whatever was queued at some time has a level within the limit. -/
  queued : ∀ target, (target, .queued) ∈ activity.state.instances →
    ∃ level, activity.state.levels.get? target = some level ∧ 1 ≤ level ∧ level ≤ limit
  chain : ∀ target level, activity.state.levels.get? target = some level →
    ∃ above, activity.journal.Nests (target :: above) ∧ (target :: above).Nodup ∧ (target :: above).length = level
  /-- The journal has each instance once. -/
  numbered : activity.journal.targets.Nodup ∧
    ∀ target, target ∈ activity.journal.targets ↔ activity.state.registry.Knows target
  /-- The instance that is worked on can be told from the state. -/
  working : ∀ target, Frame.worker activity.frames = some target →
    activity.state.instances.get? target = some .inProgress ∨
      ∃ name, (⟨.instantiated target, name⟩ : ConstantKey) ∈ activity.state.stack
  outside : Frame.worker activity.frames = none →
    (∀ target, activity.state.instances.get? target ≠ some .inProgress) ∧
      ∀ key ∈ activity.state.stack, ∀ target, key.scope ≠ .instantiated target
  /-- Faults about nesting are explained wherever they are kept. -/
  kept : ∀ fault name depth, activity.state.Keeps fault → fault.cause = .recursionLimit name depth →
    activity.Explains limit fault

variable {program : Program} {activity : Activity} {fault : Fault} {name : String} {depth : Nat}

theorem Valid.explains (valid : activity.Valid program) (accounts : activity.state.Accounts fault) :
    activity.Explains program.settings.maxInstantiationDepth fault := by
  obtain ⟨target, refuses⟩ := accounts
  obtain ⟨cause, above, nests, distinct, length, listed⟩ := valid.records.refused target fault refuses
  exact ⟨target, above, refuses, cause, nests, distinct, length, listed⟩

theorem Valid.nested (valid : activity.Valid program) : activity.Nested program.settings.maxInstantiationDepth where
  depth_le := valid.sound.depth_le
  queued target listed := by
    obtain ⟨level, found⟩ := Option.isSome_iff_exists.mp (valid.records.queued target listed)
    obtain ⟨above, _, _, length⟩ := valid.records.nested target level found
    exact ⟨level, found, length ▸ Nat.succ_pos above.length, valid.sound.level_le target level found⟩
  chain := valid.records.nested
  numbered := ⟨valid.records.nodup, valid.records.numbered⟩
  working target working := by
    rw [valid.started target, valid.stack]
    exact Frame.open_of_worker working
  outside outside := by
    obtain ⟨none, plain⟩ := Frame.outside_of_worker outside
    refine ⟨fun target busy => ?_, valid.stack ▸ plain⟩
    rw [valid.started target, none] at busy
    cases busy
  kept fault name depth keeps cause :=
    valid.explains (valid.accounts fault keeps (Fault.limit?_eq_some.mpr ⟨rfl, name, depth, cause⟩))

end Activity

namespace Program

variable {program : Program} {activity : Activity}

/-- A reference asks for an instance: its arguments can be bound, and the registry has them. -/
def AsksFor (program : Program) (lookup : Lookup) (reference : Reference) (scope : Scope) (position : Nat)
    (first : State) (target : Instance) (last : State) : Prop :=
  ∃ package evaluator bound, program.generic? reference.package = some package ∧
    (program.evaluatorFor scope).run first = some (.ok evaluator, first) ∧
    (package.bindArguments reference.arguments evaluator
      (program.resolver lookup scope position reference.span) reference.span).run first = some (.ok bound, last) ∧
    target.base = package.name ∧ last.registry.find? package.name bound = some target.id

structure Limits (program : Program) (activity : Activity) : Prop where
  /-- A fault about nesting is raised for a new instance below a chain that is as long as the limit. Otherwise
  it is the one that the instance failed with before. -/
  raised : ∀ package arguments site fault name depth last,
    activity.state.instantiate program.settings package arguments site = (.error fault, last) →
    fault.cause = .recursionLimit name depth →
    (∃ id registry above, activity.state.registry.request package.name arguments = .ok (⟨id, true⟩, registry) ∧
      last.Refuses ⟨package.name, id⟩ fault ∧ activity.journal.Nests above ∧ above.Nodup ∧
      above.length = program.settings.maxInstantiationDepth ∧ above.head? = Frame.worker activity.frames) ∨
    ∃ id, activity.state.registry.find? package.name arguments = some id ∧
      activity.state.instances.get? ⟨package.name, id⟩ = some (.failed fault)
  /-- No request is answered with such a fault that is not explained in the end, -/
  answered : ∀ budget request fault name depth last, activity.state.Knows request.scope →
    (Lookup.ofBudget program budget request).run activity.state = some (.error fault, last) →
    fault.cause = .recursionLimit name depth →
    ∃ path journal, program.Passes .evaluating activity path ⟨activity.frames, journal, last⟩ ∧
      Activity.Explains ⟨activity.frames, journal, last⟩ program.settings.maxInstantiationDepth fault
  /-- nor is a reference. -/
  directed : ∀ budget reference scope position fault name depth last, activity.state.Knows scope →
    (program.target (.ofBudget program budget) reference scope position).run activity.state =
      some (.error fault, last) →
    fault.cause = .recursionLimit name depth →
    ∃ path journal, program.Passes .evaluating activity path ⟨activity.frames, journal, last⟩ ∧
      Activity.Explains ⟨activity.frames, journal, last⟩ program.settings.maxInstantiationDepth fault
  /-- Who refers to an instance that was refused gets the same fault. -/
  refused : ∀ target fault, activity.state.Refuses target fault →
    ∀ budget reference scope position last, activity.state.Knows scope →
      program.AsksFor (.ofBudget program budget) reference scope position activity.state target last →
      (program.target (.ofBudget program budget) reference scope position).run activity.state =
        some (.error fault, last)

theorem instantiate_limit (valid : activity.Valid program) {package : Package} {arguments : Arguments} {site : Span}
    {fault : Fault} {name : String} {depth : Nat} {last : State}
    (made : activity.state.instantiate program.settings package arguments site = (.error fault, last))
    (cause : fault.cause = .recursionLimit name depth) :
    (∃ id registry above, activity.state.registry.request package.name arguments = .ok (⟨id, true⟩, registry) ∧
      last.Refuses ⟨package.name, id⟩ fault ∧ activity.journal.Nests above ∧ above.Nodup ∧
      above.length = program.settings.maxInstantiationDepth ∧ above.head? = Frame.worker activity.frames) ∨
    ∃ id, activity.state.registry.find? package.name arguments = some id ∧
      activity.state.instances.get? ⟨package.name, id⟩ = some (.failed fault) := by
  cases asked : activity.state.registry.request package.name arguments with
  | error refused =>
    -- there is no number left, which is another fault
    simp only [State.instantiate, asked] at made
    cases made
    have plain := (Registry.plain_of_request asked).limit
    rw [Fault.limit?_eq_some.mpr ⟨rfl, name, depth, cause⟩] at plain
    cases plain
  | ok answer =>
    obtain ⟨⟨id, isNew⟩, registry⟩ := answer
    cases isNew with
    | false =>
      refine .inr ⟨id, Registry.find?_of_request asked, ?_⟩
      simp only [State.instantiate, asked] at made
      split at made
      · rename_i failed
        cases made
        exact failed
      · cases made
    | true =>
      rcases Activity.instantiate_new asked program.settings site with ⟨deep, refuses⟩ | ⟨_, queues⟩
      · rw [refuses] at made
        cases made
        obtain ⟨above, nests, distinct, length, head⟩ := valid.exists_above
        have within := valid.sound.depth_le
        refine .inl ⟨id, registry, above, rfl, ⟨valid.level_of_request asked, ?_⟩, nests, distinct, by omega, head⟩
        rw [Table.get?_insert, if_pos rfl]
      · rw [queues] at made
        cases made

theorem explains_of_follows {α : Type} (valid : activity.Valid program) {operations : Watched Fault α}
    {gives : α → List Scope} {fault : Fault} {name : String} {depth : Nat} {last : State}
    (follows : FollowsFrom program .evaluating Fault.limit? activity activity.state operations gives)
    (ran : (operations none).run activity.state = some (.error fault, last))
    (cause : fault.cause = .recursionLimit name depth) :
    ∃ path journal, program.Passes .evaluating activity path ⟨activity.frames, journal, last⟩ ∧
      Activity.Explains ⟨activity.frames, journal, last⟩ program.settings.maxInstantiationDepth fault := by
  obtain ⟨path, ⟨⟨journal, passes⟩, blames, _⟩, _⟩ := follows _ last ran
  have accounts := blames fault fault rfl (Fault.limit?_eq_some.mpr ⟨rfl, name, depth, cause⟩)
  exact ⟨path, journal, passes, (valid.passes passes).2.explains accounts⟩

theorem target_of_refuses {lookup : Lookup} {reference : Reference} {scope : Scope} {position : Nat}
    {first last : State} {target : Instance} {fault : Fault}
    (asks : program.AsksFor lookup reference scope position first target last) (refuses : last.Refuses target fault) :
    (program.target lookup reference scope position).run first = some (.error fault, last) := by
  obtain ⟨package, evaluator, bound, generic, evaluates, binds, base, found⟩ := asks
  obtain ⟨_, id⟩ := target
  subst base
  unfold Program.target
  rw [generic]
  simp only
  have made : (PassM.ofState (·.instantiate program.settings package bound reference.span)).run last =
      some (.error fault, last) := by
    show some (last.instantiate program.settings package bound reference.span) = _
    simp only [State.instantiate, Registry.request_of_find? found, refuses.failed]
  refine (ExceptT.run_run_bind_of_ok evaluates _).trans ((ExceptT.run_run_bind_of_ok binds _).trans ?_)
  exact ExceptT.run_run_bind_of_error made _

theorem limits_of_valid (valid : activity.Valid program) : program.Limits activity where
  raised _ _ _ _ _ _ _ made cause := instantiate_limit valid made cause
  answered budget request _ _ _ _ known ran cause :=
    explains_of_follows valid (Lookup.follows_watched program .evaluating budget activity.frames [request.scope]
      request (List.mem_singleton_self _) activity ⟨valid, rfl, by simpa using known⟩) ran cause
  directed budget reference scope _ _ _ _ _ known ran cause :=
    explains_of_follows valid (target_follows (Lookup.follows_watched program .evaluating budget)
      (List.mem_singleton_self scope) reference activity ⟨valid, rfl, by simpa using known⟩) ran cause
  refused target fault refuses budget reference scope position last known asks := by
    refine target_of_refuses asks ?_
    obtain ⟨package, evaluator, bound, _, _, binds, _⟩ := asks
    -- the arguments are evaluated first, which takes nothing back
    obtain ⟨path, ⟨⟨journal, passes⟩, _⟩, _⟩ :=
      bindArguments_follows (Lookup.follows_watched program .evaluating budget) (List.mem_singleton_self scope) package
        reference.arguments activity ⟨valid, rfl, by simpa using known⟩ _ last binds
    exact (valid.passes passes).1.refuses target fault refuses

theorem Moves.journal {mode : Mode} {first next : Activity} (step : program.Moves mode first next) :
    next.journal = first.journal ∨ ∃ entry, first.Numbers next entry := by
  cases step with
  | @number _ _ _ _ package _ id registry site asked =>
    obtain ⟨unknown, knows⟩ := Registry.knows_of_request asked
    refine .inr ⟨_, rfl, rfl, unknown, ?_⟩
    have known : registry.Knows ⟨package.name, id⟩ := (knows _).mpr (.inr rfl)
    rcases Activity.instantiate_new asked program.settings site with ⟨_, made⟩ | ⟨_, made⟩
    · rw [made]
      exact known
    · rw [made]
      exact known
  | enter => exact .inl rfl
  | leave => exact .inl rfl
  | begin => exact .inl rfl
  | finish => exact .inl rfl
  | record => exact .inl rfl

theorem Passes.numbers {mode : Mode} {first last : Activity} {path : List Activity}
    (passes : program.Passes mode first path last) :
    first.journal <+: last.journal ∧ ∀ entry ∈ last.journal, entry ∈ first.journal ∨
      ∃ activity ∈ first :: path, ∃ next ∈ path, activity.Numbers next entry := by
  induction passes with
  | stays => exact ⟨List.prefix_refl _, fun _ member => .inl member⟩
  | @goes first next last path step _ ih =>
    obtain ⟨grows, entered⟩ := ih
    have later : ∀ entry, (∃ activity ∈ next :: path, ∃ next ∈ path, activity.Numbers next entry) →
        ∃ activity ∈ first :: next :: path, ∃ other ∈ next :: path, activity.Numbers other entry := by
      rintro entry ⟨activity, member, other, there, numbers⟩
      exact ⟨activity, List.mem_cons_of_mem _ member, other, List.mem_cons_of_mem _ there, numbers⟩
    rcases step.journal with same | ⟨added, numbers⟩
    · rw [same] at grows entered
      exact ⟨grows, fun entry member => (entered entry member).imp id (later entry)⟩
    · rw [numbers.journal] at grows entered
      refine ⟨(List.prefix_append _ _).trans grows, fun entry member => ?_⟩
      rcases entered entry member with before | after
      · rcases List.mem_append.mp before with old | new
        · exact .inl old
        · cases List.mem_singleton.mp new
          exact .inr ⟨first, List.mem_cons_self, next, List.mem_cons_self, numbers⟩
      · exact .inr (later entry after)

end Program

namespace SourceUnit

/-- The pass is a path on which instances nest as they should: the journal of its end tells when each of them
got its number, an instance that was refused stays so, and all calls keep to the limit. -/
theorem nests_within_limit {unit : SourceUnit} {settings : Settings} {budget : Nat}
    {result : List Description × State} (ran : unit.run? settings budget = some result) :
    ∃ path journal, unit.Unfolds settings budget path journal result ∧
      (∀ activity ∈ unit.start :: path, activity.Nested settings.maxInstantiationDepth ∧
        (Program.ofUnit unit settings).Limits activity) ∧
      (∀ entry ∈ journal, ∃ activity ∈ unit.start :: path, ∃ next ∈ path, activity.Numbers next entry) ∧
      (unit.start :: path).Pairwise fun earlier later =>
        ∀ target fault, earlier.state.Refuses target fault → later.state.Refuses target fault := by
  obtain ⟨path, journal, unfolds⟩ := exists_unfolds ran
  have started : unit.start.Valid (Program.ofUnit unit settings) := Activity.valid_ofUnit unit
  obtain ⟨all, ordered⟩ := started.along unfolds.passes
  refine ⟨path, journal, unfolds, fun activity member => ?_, fun entry member => ?_,
    ordered.imp fun upholds => upholds.refuses⟩
  · exact ⟨(all activity member).nested, Program.limits_of_valid (all activity member)⟩
  · exact (unfolds.passes.numbers.2 entry member).resolve_left List.not_mem_nil

end SourceUnit

/-- Two instances of the chain are made, and the third one is refused below them. -/
theorem nests_within_limit_chainUnit : ∃ result path journal, chainUnit.run? ⟨32, 2⟩ 40 = some result ∧
    chainUnit.Unfolds ⟨32, 2⟩ 40 path journal result ∧
    ∃ fault ∈ result.2.faults, fault.cause = .recursionLimit "P" 2 ∧
      Activity.Explains ⟨[], journal, result.2⟩ 2 fault := by
  have causes : (chainUnit.run? ⟨32, 2⟩ 40).map (·.2.faults.map (·.cause)) = some [.recursionLimit "P" 2] := by
    decide +kernel
  obtain ⟨result, ran, causes⟩ := Option.map_eq_some_iff.mp causes
  have listed : Cause.recursionLimit "P" 2 ∈ result.2.faults.map (·.cause) := by
    rw [causes]
    exact List.mem_cons_self
  obtain ⟨fault, member, cause⟩ := List.mem_map.mp listed
  obtain ⟨path, journal, unfolds, nested, _⟩ := SourceUnit.nests_within_limit ran
  have ended := (nested _ unfolds.passes.last_mem).1
  exact ⟨result, path, journal, ran, unfolds, fault, member, cause,
    ended.kept fault "P" 2 (.reported member) cause⟩

end Monomorph
