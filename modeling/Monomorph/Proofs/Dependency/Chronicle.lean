import Monomorph.Proofs.Dependency.Body

/-! What happens while an instance is worked on.

The work on an instance ends after the work on all instances that its body is the
first to ask for. What waited before its start still waits at its end, and what was
worked on before is still worked on: these are the instances that wait for it, and
they use it, directly or through others. The history of a state shows all this for
every finished package.
-/

set_option autoImplicit false

namespace Monomorph

theorem mem_drop_of_getElem? {α : Type} {items : List α} {position : Nat} {item : α}
    (there : items[position]? = some item) : item ∈ items.drop position := by
  apply List.mem_of_getElem?
  rw [List.getElem?_drop, Nat.add_zero]
  exact there

theorem mem_drop_of_mem_eraseIdx {α : Type} {items : List α} {position : Nat} {item : α}
    (member : item ∈ (items.eraseIdx position).drop position) : item ∈ items.drop position := by
  rw [List.eraseIdx_eq_take_drop_succ, List.drop_append] at member
  rcases List.mem_append.mp member with before | behind
  · rw [List.drop_take, Nat.sub_self] at before
    cases before
  · have later := List.mem_of_mem_drop behind
    rw [← List.drop_drop] at later
    exact List.mem_of_mem_drop later

def InstanceState.ofOutcome {α : Type} : Except Fault α → InstanceState
  | .ok _ => done
  | .error fault => failed fault

namespace State

variable {program : Program} {first last state middle : State} {position depth : Nat} {pending : Pending}

theorem instances_finish (state : State) (target : Instance) (depth : Nat)
    (result : Except Fault SpecializedPackage) :
    (state.finish target depth result).instances = state.instances.insert target (.ofOutcome result) := by
  cases result <;> rfl

theorem registry_finish (state : State) (target : Instance) (depth : Nat)
    (result : Except Fault SpecializedPackage) : (state.finish target depth result).registry = state.registry := by
  cases result <;> rfl

theorem queue_finish (state : State) (target : Instance) (depth : Nat)
    (result : Except Fault SpecializedPackage) : (state.finish target depth result).queue = state.queue := by
  cases result <;> rfl

/-- The work on a finished package, with the history at its start and at its end. -/
structure Worked (program : Program) (package : SpecializedPackage) (start earlier : History) (state : State) :
    Prop where
  ended : (package.target, .done) :: earlier <:+ state.instances
  begun : (package.target, .inProgress) :: start <:+ earlier
  /-- What was worked on before leads here. -/
  nested : ∀ outer, start.get? outer = some .inProgress →
    state.Holds fun registry => Relation.TransGen (program.Uses registry) outer package.target
  known : state.Holds fun registry => ∀ used, program.Uses registry package.target used →
    (earlier.get? used).isSome
  waiting : ∀ other, other ≠ package.target →
    (earlier.get? other = some .queued ↔ start.get? other = some .queued)
  started : ∀ other, other ≠ package.target →
    (earlier.get? other = some .inProgress ↔ start.get? other = some .inProgress)
  directed : ∃ source, program.generic? package.target.base = some source ∧
    state.Holds (program.BodyDirected earlier source package.target package.items)

section Work

variable {package : SpecializedPackage} {start earlier : History}

theorem Worked.later (worked : first.Worked program package start earlier)
    (registry : first.registry.Extends last.registry)
    (history : first.instances <:+ last.instances) : last.Worked program package start earlier where
  ended := worked.ended.trans history
  begun := worked.begun
  nested outer started := (worked.nested outer started).later registry
  known := worked.known.later registry
  waiting := worked.waiting
  started := worked.started
  directed := worked.directed.imp fun _ known => ⟨known.1, known.2.later registry⟩

theorem Worked.atStart_eq (worked : state.Worked program package start earlier)
    (lawful : History.Lawful state.instances) (used : Instance) :
    History.atStart state.instances package.target used = start.get? used := by
  have begun : (package.target, .inProgress) :: start <:+ state.instances :=
    worked.begun.trans ((List.suffix_cons _ _).trans worked.ended)
  obtain ⟨later, split⟩ := begun
  exact lawful.atStart_eq split.symm used

theorem Worked.lawful (worked : state.Worked program package start earlier)
    (lawful : History.Lawful state.instances) : History.Lawful earlier :=
  lawful.of_suffix ((List.suffix_cons _ _).trans worked.ended)

/-- At the end of the work on a package, another instance is over, or waits as it did at the start, or
has itself been waiting for the package all the time. -/
theorem Worked.cases_of_known (worked : state.Worked program package start earlier) {used : Instance}
    (apart : used ≠ package.target) (known : (earlier.get? used).isSome) :
    earlier.get? used = some .done ∨ (∃ fault, earlier.get? used = some (.failed fault)) ∨
      earlier.get? used = some .queued ∧ start.get? used = some .queued ∨
      start.get? used = some .inProgress ∧
        Relation.TransGen (program.Uses state.registry) used package.target := by
  obtain ⟨entry, found⟩ := Option.isSome_iff_exists.mp known
  cases entry with
  | queued => exact .inr (.inr (.inl ⟨found, (worked.waiting used apart).mp found⟩))
  | inProgress =>
    have started := (worked.started used apart).mp found
    exact .inr (.inr (.inr ⟨started, worked.nested used started _ (.refl _)⟩))
  | done => exact .inl found
  | failed fault => exact .inr (.inl ⟨fault, found⟩)

end Work

/-- The history shows the work on every finished package. -/
def Chronicled (program : Program) (state : State) : Prop :=
  ∀ package ∈ state.specialized, ∃ start earlier, state.Worked program package start earlier

theorem Chronicled.later (chronicled : first.Chronicled program)
    (registry : first.registry.Extends last.registry) (history : first.instances <:+ last.instances)
    (specialized : last.specialized = first.specialized) : last.Chronicled program := by
  intro package member
  rw [specialized] at member
  obtain ⟨start, earlier, worked⟩ := chronicled package member
  exact ⟨start, earlier, worked.later registry history⟩

/-- What is known of a state between two steps of the pass. -/
structure Orderly (program : Program) (state : State) : Prop where
  consistent : state.Consistent program
  coherent : state.Coherent
  chronicled : state.Chronicled program

/-- All that is worked on waits for what is queued from a position on. -/
def Awaits (program : Program) (mark : Nat) (state : State) : Prop :=
  ∀ outer, state.instances.get? outer = some .inProgress → ∀ pending ∈ state.queue.drop mark,
    state.Holds fun registry => Relation.TransGen (program.Uses registry) outer pending.target

/-- What working on the instances that are queued from a position on does. -/
structure Drains (program : Program) (mark : Nat) (ended : Bool) (first last : State) : Prop where
  orderly : last.Orderly program
  continues : first.Continues ended last
  kept : first.queue.take mark <+: last.queue
  emptied : ended = true → last.queue = first.queue.take mark

theorem get?_begin (other : Instance) : ((state.take position).begin pending).instances.get? other
    = if other = pending.target then some .inProgress else state.instances.get? other :=
  Table.get?_insert _ _ _ _

theorem continues_finish (coherent : state.Coherent) (next : state.queue[position]? = some pending)
    {outcome : Except Fault SpecializedPackage}
    (continues : ((state.take position).begin pending).Continues outcome.isOk middle) :
    state.Continues outcome.isOk (middle.finish pending.target depth outcome) where
  registry := by
    rw [registry_finish]
    exact continues.registry
  history := by
    rw [instances_finish]
    exact (List.suffix_cons _ _).trans (continues.history.trans (List.suffix_cons _ _))
  started target := by
    rw [instances_finish, Table.get?_insert]
    split
    · -- it waited before, and is over now
      rename_i same
      rw [same, coherent.queued next]
      cases outcome <;> simp [InstanceState.ofOutcome]
    · rename_i other
      rw [continues.started target, get?_begin, if_neg other]
  clean ended target fault failed := by
    rw [instances_finish, Table.get?_insert] at failed
    split at failed
    · cases outcome with
      | ok package => cases failed
      | error fault => cases ended
    · rename_i other
      have failed := continues.clean ended target fault failed
      rwa [get?_begin, if_neg other] at failed

theorem drains_finish (orderly : state.Orderly program) (next : state.queue[position]? = some pending)
    {outcome : Except Fault SpecializedPackage} (coherent : middle.Coherent)
    (continues : ((state.take position).begin pending).Continues outcome.isOk middle)
    (kept : (state.take position).queue <+: middle.queue)
    (emptied : outcome.isOk = true → middle.queue = (state.take position).queue)
    (made : ∀ package, outcome = .ok package →
      package.target = pending.target ∧ middle.registry.get? pending.target = some package.arguments)
    (consistent : (middle.finish pending.target depth outcome).Consistent program)
    (chronicled : (middle.finish pending.target depth outcome).Chronicled program) :
    (state.take position).Drains program (state.take position).queue.length outcome.isOk
      (middle.finish pending.target depth outcome) := by
  have started : middle.instances.get? pending.target = some .inProgress := by
    rw [continues.started, get?_begin, if_pos rfl]
  have whole : state.Continues outcome.isOk (middle.finish pending.target depth outcome) :=
    continues_finish orderly.coherent next continues
  refine ⟨⟨consistent, coherent.finish started made, chronicled⟩,
    ⟨whole.registry, whole.history, whole.started, whole.clean⟩, ?_, fun ended => ?_⟩
  · rw [List.take_length, queue_finish]
    exact kept
  · rw [List.take_length, queue_finish]
    exact emptied ended

theorem drains_failed (orderly : state.Orderly program) (next : state.queue[position]? = some pending)
    {fault : Fault} {ended : Bool} (reached : middle.Orderly program)
    (continues : ((state.take position).begin pending).Continues ended middle)
    (kept : (state.take position).queue <+: middle.queue)
    (consistent : (middle.finish pending.target depth (.error fault)).Consistent program) :
    (state.take position).Drains program (state.take position).queue.length false
      (middle.finish pending.target depth (.error fault)) := by
  have stopped : ((state.take position).begin pending).Continues
      (Except.error fault : Except Fault SpecializedPackage).isOk middle := continues.stopped
  apply drains_finish orderly next reached.coherent stopped kept
  · exact fun finished => by cases finished
  · exact fun package same => by cases same
  · exact consistent
  · exact reached.chronicled.later (.refl _) (List.suffix_cons _ _) rfl

theorem awaits_body (coherent : state.Coherent) (next : state.queue[position]? = some pending)
    (nested : ∀ outer, state.instances.get? outer = some .inProgress →
      state.Holds fun registry => Relation.TransGen (program.Uses registry) outer pending.target)
    (coherent' : middle.Coherent) (grows : ((state.take position).begin pending).Grows true middle)
    (introduces : ((state.take position).begin pending).Introduces program middle fun registry =>
      program.Uses registry pending.target) :
    middle.Awaits program (state.take position).queue.length := by
  intro outer started new member registry further
  obtain ⟨known, fresh⟩ := grows.unknown_of_added (coherent.begin next) coherent' member
  obtain ⟨root, uses, reached⟩ := introduces registry further new.target known fresh
  have from_here : Relation.TransGen (program.Uses registry) pending.target new.target := .head' uses reached
  rw [grows.started outer, get?_begin] at started
  split at started
  · rename_i same
    rw [same]
    exact from_here
  · exact (nested outer started registry (grows.registry.trans further)).trans from_here

end State

namespace Program

variable {program : Program} {lookup : Lookup} {state first last middle final : State} {position mark : Nat}
  {pending : Pending}

/-- The body comes first, then what it has queued, then the arguments. -/
theorem specialized_cases {drain : PassM Unit} {outcome : Except Fault SpecializedPackage}
    (ran : (program.specialized lookup drain pending).run first = some (outcome, last)) :
    (∃ fault, outcome = .error fault ∧
      (program.specializeBody lookup pending.package pending.target).run first = some (.error fault, last)) ∨
    ∃ body middle,
      (program.specializeBody lookup pending.package pending.target).run first = some (.ok body, middle) ∧
      ((∃ fault, outcome = .error fault ∧ drain.run middle = some (.error fault, last)) ∨
        drain.run middle = some (.ok (), last) ∧ outcome = (last.registry.resolve pending.target).map
          fun arguments => ⟨pending.target, arguments, body.1, body.2, pending.package.span⟩) := by
  unfold specialized at ran
  rcases ExceptT.run_bind_eq_some ran with ⟨fault, stopped, failed⟩ | ⟨body, middle, built, ran⟩
  · exact .inl ⟨fault, failed, stopped⟩
  refine .inr ⟨body, middle, built, ?_⟩
  rcases ExceptT.run_bind_eq_some ran with ⟨fault, stopped, failed⟩ | ⟨_, reached, drained, ran⟩
  · exact .inl ⟨fault, failed, stopped⟩
  -- the arguments are read off the registry
  rcases ExceptT.run_bind_eq_some ran with ⟨fault, stopped, failed⟩ | ⟨arguments, same, found, ran⟩
  · have read : (reached.registry.resolve pending.target, reached) = (.error fault, last) := Option.some.inj stopped
    rw [Prod.mk.injEq] at read
    obtain ⟨missing, rfl⟩ := read
    exact .inr ⟨drained, by rw [failed, missing]; rfl⟩
  · have read : (reached.registry.resolve pending.target, reached) = (.ok arguments, same) := Option.some.inj found
    rw [Prod.mk.injEq] at read
    obtain ⟨resolved, rfl⟩ := read
    cases ran
    exact .inr ⟨drained, by rw [resolved]; rfl⟩

theorem specializeBody_orderly (faithful : lookup.Faithful program) (traceable : lookup.Traceable program)
    (orderly : state.Orderly program) (next : state.queue[position]? = some pending)
    {result : Except Fault (List (String × Value) × List PackageItem)}
    (ran : (program.specializeBody lookup pending.package pending.target).run
      ((state.take position).begin pending) = some (result, middle)) :
    middle.Orderly program ∧ Traced program ((state.take position).begin pending) result middle
      fun registry => program.Uses registry pending.target := by
  have begun := State.consistent_begin orderly.consistent next
  have generic := orderly.consistent.queued pending (List.mem_of_getElem? next)
  have traces : Traces program (fun _ => True) (program.specializeBody lookup pending.package pending.target)
      fun registry => program.Uses registry pending.target := specializeBody_traces faithful traceable generic
  have traced := traces _ _ middle begun (orderly.coherent.begin next) (fun _ _ => trivial) ran
  have ends := specializeBody_meets faithful _ _ middle begun (fun _ _ => trivial) ran
  refine ⟨⟨ends.consistent, traced.coherent, ?_⟩, traced⟩
  apply orderly.chronicled.later traced.grows.registry _ traced.grows.specialized
  exact (List.suffix_cons _ _).trans traced.grows.history

/-- Once an instance is done, the history shows the work on it. -/
theorem worked_of_specialized (faithful : lookup.Faithful program) (traceable : lookup.Traceable program)
    (orderly : state.Orderly program) (next : state.queue[position]? = some pending)
    (nested : ∀ outer, state.instances.get? outer = some .inProgress →
      state.Holds fun registry => Relation.TransGen (program.Uses registry) outer pending.target)
    {body : List (String × Value) × List PackageItem} {arguments : Arguments} {depth : Nat}
    (built : (program.specializeBody lookup pending.package pending.target).run
      ((state.take position).begin pending) = some (.ok body, middle))
    (drains : middle.Drains program (state.take position).queue.length true final) :
    (final.finish pending.target depth
      (.ok ⟨pending.target, arguments, body.1, body.2, pending.package.span⟩)).Worked program
        ⟨pending.target, arguments, body.1, body.2, pending.package.span⟩ state.instances final.instances := by
  have consistent := State.consistent_begin orderly.consistent next
  have generic := orderly.consistent.queued pending (List.mem_of_getElem? next)
  obtain ⟨_, traced⟩ := specializeBody_orderly faithful traceable orderly next built
  have meets := (specializeBody_meets faithful _ _ middle consistent (fun _ _ => trivial) built).holds body rfl
  have provides := specializeBody_provides faithful traceable _ body middle consistent
    (orderly.coherent.begin next) (fun _ _ => trivial) built
  -- the queue is back to what it was at the start
  have queue : final.queue = (state.take position).queue :=
    (drains.emptied rfl).trans (List.prefix_iff_eq_take.mp traced.grows.queue).symm
  constructor
  · exact List.suffix_refl _
  · exact traced.grows.history.trans drains.continues.history
  · exact fun outer started => (nested outer started).later
      (traced.grows.registry.trans drains.continues.registry)
  · intro registry grows used uses
    obtain ⟨evaluator, made, meets⟩ := meets.now
    have known := uses.known (drains.continues.registry.trans grows) generic made meets
    exact History.isSome_of_suffix drains.continues.history ((traced.coherent.registered used).mpr known)
  · intro other apart
    rw [← drains.orderly.coherent.waiting other, queue, orderly.coherent.mem_take next,
      orderly.coherent.waiting other]
    exact and_iff_left apart
  · intro other apart
    rw [drains.continues.started other, traced.grows.started other, State.get?_begin, if_neg apart]
  · refine ⟨pending.package, generic, fun registry grows => ?_⟩
    obtain ⟨evaluator, made, directed⟩ := provides registry (drains.continues.registry.trans grows)
    refine ⟨evaluator, made, directed.imp fun _ _ references => ?_⟩
    exact references.imp fun _ _ directed => directed.continues drains.continues

theorem specialize_drains (faithful : lookup.Faithful program) (traceable : lookup.Traceable program)
    {drain : Nat → PassM Unit} (ensures : ∀ mark pre, Ensures program pre (drain mark) fun _ _ => True)
    (drains : ∀ mark first result last, first.Orderly program → first.Awaits program mark →
      (drain mark).run first = some (result, last) → first.Drains program mark result.isOk last)
    (orderly : state.Orderly program) (next : state.queue[position]? = some pending)
    (nested : ∀ outer, state.instances.get? outer = some .inProgress →
      state.Holds fun registry => Relation.TransGen (program.Uses registry) outer pending.target)
    {result : Except Fault Unit}
    (ran : (program.specialize lookup drain pending).run (state.take position) = some (result, last)) :
    (state.take position).Drains program (state.take position).queue.length result.isOk last := by
  have consistent := (specialize_ends faithful ensures orderly.consistent next ran).consistent
  unfold specialize at ran
  rw [PassM.run_get_bind, PassM.run_set_bind] at ran
  obtain ⟨outcome, final, worked, answer, finished⟩ := PassM.run_bracket ran
  subst answer finished
  have isOk : (outcome.map fun _ => ()).isOk = outcome.isOk := by cases outcome <;> rfl
  rw [isOk]
  rcases specialized_cases worked with ⟨fault, rfl, stopped⟩ | ⟨body, middle, built, rest⟩
  · -- the body fails
    obtain ⟨reached, traced⟩ := specializeBody_orderly faithful traceable orderly next stopped
    exact State.drains_failed orderly next reached traced.grows.toContinues traced.grows.queue consistent
  obtain ⟨reached, traced⟩ := specializeBody_orderly faithful traceable orderly next built
  have awaits := State.awaits_body orderly.coherent next nested traced.coherent traced.grows (traced.introduces rfl)
  have before : middle.queue.take (state.take position).queue.length = (state.take position).queue :=
    (List.prefix_iff_eq_take.mp traced.grows.queue).symm
  rcases rest with ⟨fault, rfl, stopped⟩ | ⟨ended, rfl⟩
  · -- an instance that the body has queued fails
    have drained := drains _ middle _ final reached awaits stopped
    exact State.drains_failed orderly next drained.orderly (traced.grows.toContinues.trans drained.continues)
      (before ▸ drained.kept) consistent
  have drained := drains _ middle _ final reached awaits ended
  have continues := traced.grows.toContinues.trans drained.continues
  cases resolved : final.registry.resolve pending.target with
  | error fault =>
    rw [resolved] at consistent
    exact State.drains_failed orderly next drained.orderly continues (before ▸ drained.kept) consistent
  | ok arguments =>
    rw [resolved] at consistent
    apply State.drains_finish orderly next drained.orderly.coherent continues
    · exact before ▸ drained.kept
    · exact fun _ => (drained.emptied rfl).trans before
    · intro package same
      cases same
      exact ⟨rfl, Registry.resolve_eq_ok.mp resolved⟩
    · exact consistent
    · intro package member
      rcases List.mem_append.mp member with old | new
      · obtain ⟨start, earlier, worked⟩ := drained.orderly.chronicled package old
        exact ⟨start, earlier, worked.later (.refl _) (List.suffix_cons _ _)⟩
      · rw [List.mem_singleton.mp new]
        exact ⟨_, _, worked_of_specialized faithful traceable orderly next nested built drained⟩

theorem drainFrom_drains (program : Program) (budget mark : Nat) {first last : State} {result : Except Fault Unit}
    (orderly : first.Orderly program) (awaits : first.Awaits program mark)
    (ran : (program.drainFrom budget mark).run first = some (result, last)) :
    first.Drains program mark result.isOk last := by
  induction budget generalizing first last mark result with
  | zero => cases ran
  | succ budget ih =>
    unfold drainFrom at ran
    rw [PassM.run_get_bind] at ran
    split at ran
    · rename_i none
      cases ran
      have whole : first.queue.take mark = first.queue := List.take_of_length_le (List.getElem?_eq_none_iff.mp none)
      exact ⟨orderly, .refl _ _, List.take_prefix _ _, fun _ => whole.symm⟩
    · rename_i pending next
      rw [PassM.run_set_bind] at ran
      have nested := fun outer started => awaits outer started pending (mem_drop_of_getElem? next)
      have works := fun {result : Except Fault Unit} {middle : State} =>
        @specialize_drains program (.ofBudget program budget) first middle mark pending
          (Lookup.faithful_ofBudget program budget) (Lookup.traceable_ofBudget program budget)
          (program.drainFrom budget) (drainFrom_ensures program budget)
          (fun mark _ _ _ orderly awaits ran => ih mark orderly awaits ran) orderly next nested result
      -- in front of the mark nothing was taken out
      have front : (first.take mark).queue.take mark = first.queue.take mark :=
        List.take_eraseIdx_eq_take_of_le _ _ _ (Nat.le_refl mark)
      rcases ExceptT.run_bind_eq_some ran with ⟨fault, stopped, failed⟩ | ⟨_, middle, worked, ran⟩
      · subst failed
        have drained := works stopped
        have kept := drained.kept
        rw [List.take_length] at kept
        have continues := drained.continues
        refine ⟨drained.orderly, ⟨continues.registry, continues.history, continues.started, continues.clean⟩, ?_,
          fun ended => by cases ended⟩
        rw [← front]
        exact (List.take_prefix _ _).trans kept
      · have drained := works worked
        have continues := drained.continues
        have queue : middle.queue = (first.take mark).queue := by
          rw [drained.emptied rfl, List.take_length]
        have awaits' : middle.Awaits program mark := by
          intro outer started other member
          rw [queue] at member
          have behind : other ∈ first.queue.drop mark := mem_drop_of_mem_eraseIdx member
          exact (awaits outer ((continues.started outer).mp started) other behind).later continues.registry
        have rest := ih mark drained.orderly awaits' ran
        have whole := continues.trans rest.continues
        refine ⟨rest.orderly, ⟨whole.registry, whole.history, whole.started, whole.clean⟩, ?_, fun ended => ?_⟩
        · rw [← front, ← queue]
          exact rest.kept
        · rw [← front, ← queue]
          exact rest.emptied ended

end Program
end Monomorph
