import Monomorph.Proofs.Instance.Listing
import Monomorph.Proofs.Pass.Consistency

/-! The history of instances.

The table of instances keeps the entries that it hides, so it is also the list of all
that has become of instances, newest first. An instance is queued or refused when it
gets its number, is worked on once, and is then done or has failed for good. A state
is coherent if its registry, its queue and its finished packages agree with that.
-/

set_option autoImplicit false

namespace Monomorph

/-- What can become of an instance next. -/
inductive InstanceState.Follows : Option InstanceState → InstanceState → Prop where
  | queued : Follows none .queued
  | refused (fault : Fault) : Follows none (.failed fault)
  | inProgress : Follows (some .queued) .inProgress
  | done : Follows (some .inProgress) .done
  | failed (fault : Fault) : Follows (some .inProgress) (.failed fault)

/-- How far an instance is from having no number. -/
def InstanceState.rank : Option InstanceState → Nat
  | none => 0
  | some .queued => 1
  | some .inProgress => 2
  | some .done | some (.failed _) => 3

theorem InstanceState.Follows.rank_lt {before : Option InstanceState} {next : InstanceState}
    (follows : InstanceState.Follows before next) : rank before < rank (some next) := by
  cases follows <;> simp only [rank] <;> omega

theorem InstanceState.Follows.rank_lt_three {before : Option InstanceState} {next : InstanceState}
    (follows : InstanceState.Follows before next) : rank before < 3 := by
  cases follows <;> simp only [rank] <;> omega

/-- All that has become of instances, newest first. -/
abbrev History := Table Instance InstanceState

namespace History

variable {history earlier later : History} {target other : Instance} {entry : InstanceState}

/-- Each entry says what can become of its instance after the entries behind it. -/
inductive Lawful : History → Prop where
  | nil : Lawful []
  | cons {history : History} {entry : Instance × InstanceState} :
      Lawful history → InstanceState.Follows (history.get? entry.1) entry.2 → Lawful (entry :: history)

theorem Lawful.insert (lawful : Lawful history) (follows : InstanceState.Follows (history.get? target) entry) :
    Lawful (history.insert target entry) :=
  .cons lawful follows

theorem get?_cons (entry : Instance × InstanceState) (history : History) (target : Instance) :
    Table.get? (entry :: history) target = if target = entry.1 then some entry.2 else history.get? target :=
  Table.get?_insert history entry.1 target entry.2

theorem Lawful.of_suffix (lawful : Lawful history) (suffix : earlier <:+ history) : Lawful earlier := by
  obtain ⟨later, rfl⟩ := suffix
  induction later with
  | nil => exact lawful
  | cons first rest ih =>
    rw [List.cons_append] at lawful
    cases lawful with
    | cons lawful follows => exact ih lawful

theorem Lawful.rank_le (lawful : Lawful history) (suffix : earlier <:+ history) (target : Instance) :
    InstanceState.rank (earlier.get? target) ≤ InstanceState.rank (history.get? target) := by
  obtain ⟨later, rfl⟩ := suffix
  induction later with
  | nil => exact Nat.le_refl _
  | cons first rest ih =>
    rw [List.cons_append] at lawful ⊢
    cases lawful with
    | cons lawful follows =>
      have before := ih lawful
      rw [get?_cons]
      split
      · rename_i same
        rw [same] at before ⊢
        exact Nat.le_trans before (Nat.le_of_lt follows.rank_lt)
      · exact before

theorem Lawful.get?_eq_of_rank (lawful : Lawful history) (suffix : earlier <:+ history)
    (ended : InstanceState.rank (earlier.get? target) = 3) : history.get? target = earlier.get? target := by
  obtain ⟨later, rfl⟩ := suffix
  induction later with
  | nil => rfl
  | cons first rest ih =>
    rw [List.cons_append] at lawful ⊢
    cases lawful with
    | cons lawful follows =>
      have before := ih lawful
      rw [get?_cons, if_neg, before]
      intro same
      have low := follows.rank_lt_three
      rw [← same, before, ended] at low
      exact Nat.lt_irrefl 3 low

theorem Lawful.get?_of_done (lawful : Lawful history) (suffix : earlier <:+ history)
    (done : earlier.get? target = some .done) : history.get? target = some .done :=
  (lawful.get?_eq_of_rank suffix (by rw [done]; rfl)).trans done

theorem Lawful.get?_of_failed (lawful : Lawful history) (suffix : earlier <:+ history) {fault : Fault}
    (failed : earlier.get? target = some (.failed fault)) : history.get? target = some (.failed fault) :=
  (lawful.get?_eq_of_rank suffix (by rw [failed]; rfl)).trans failed

theorem isSome_of_suffix (suffix : earlier <:+ history) (known : (earlier.get? target).isSome) :
    (history.get? target).isSome := by
  obtain ⟨later, rfl⟩ := suffix
  induction later with
  | nil => exact known
  | cons first rest ih =>
    rw [List.cons_append, get?_cons]
    split
    · rfl
    · exact ih

def completions (history : History) : List Instance :=
  ((history.filter fun entry => decide (entry.2 = .done)).map Prod.fst).reverse

theorem completions_append (later earlier : History) :
    completions (later ++ earlier) = completions earlier ++ completions later := by
  simp only [completions, List.filter_append, List.map_append, List.reverse_append]

theorem completions_cons_done (history : History) (target : Instance) :
    completions ((target, .done) :: history) = completions history ++ [target] := by
  simp [completions]

theorem completions_cons (history : History) (target : Instance) (other : entry ≠ .done) :
    completions ((target, entry) :: history) = completions history := by
  simp [completions, other]

/-- What the table says about an instance, and how often it was finished. -/
theorem Lawful.count_completions (lawful : Lawful history) (target : Instance) :
    (completions history).count target = if history.get? target = some .done then 1 else 0 := by
  induction lawful with
  | nil => rfl
  | @cons history changed lawful follows ih =>
    obtain ⟨changed, entry⟩ := changed
    rw [get?_cons]
    by_cases done : entry = .done
    · subst done
      rw [completions_cons_done, List.count_append, ih]
      by_cases same : target = changed
      · -- it was in progress before, so this is the first time
        subst same
        have started : history.get? target = some .inProgress := by
          simp only at follows
          generalize history.get? target = before at follows ⊢
          cases follows
          rfl
        simp [started]
      · rw [if_neg same, List.count_singleton, beq_false_of_ne (Ne.symm same)]
        rfl
    · rw [completions_cons _ _ done, ih]
      by_cases same : target = changed
      · subst same
        have unfinished : history.get? target ≠ some .done := by
          intro finished
          simp only [finished] at follows
          cases follows
        simp [unfinished, done]
      · rw [if_neg same]

theorem Lawful.mem_completions (lawful : Lawful history) :
    target ∈ completions history ↔ history.get? target = some .done := by
  rw [← List.count_pos_iff, lawful.count_completions target]
  split
  · simp [*]
  · simp [*]

theorem Lawful.nodup_completions (lawful : Lawful history) : (completions history).Nodup := by
  apply List.nodup_iff_count_le_one.mpr
  intro target
  rw [lawful.count_completions target]
  split <;> decide

/-- What had become of an instance when the work on another one started. -/
def atStart (history : History) (worked target : Instance) : Option InstanceState :=
  Table.get? (history.dropWhile fun entry => decide (entry ≠ (worked, .inProgress))).tail target

theorem Lawful.not_mem_of_started {worked : Instance}
    (lawful : Lawful (later ++ (worked, .inProgress) :: earlier)) : (worked, .inProgress) ∉ later := by
  intro again
  obtain ⟨newer, older, rfl⟩ := List.append_of_mem again
  have started : Lawful ((worked, .inProgress) :: (older ++ (worked, .inProgress) :: earlier)) := by
    apply lawful.of_suffix
    rw [List.append_assoc]
    exact List.suffix_append _ _
  cases started with
  | cons lawful follows =>
    have low := lawful.rank_le (List.suffix_append older ((worked, .inProgress) :: earlier)) worked
    rw [get?_cons, if_pos rfl] at low
    have high := follows.rank_lt
    exact absurd low (Nat.not_le_of_lt high)

theorem Lawful.atStart_eq {worked : Instance} (lawful : Lawful history)
    (split : history = later ++ (worked, .inProgress) :: earlier) (target : Instance) :
    history.atStart worked target = earlier.get? target := by
  subst split
  have absent := lawful.not_mem_of_started
  have dropped : (later ++ (worked, .inProgress) :: earlier).dropWhile
      (fun entry => decide (entry ≠ (worked, InstanceState.inProgress)))
      = (worked, .inProgress) :: earlier := by
    rw [List.dropWhile_append_of_pos]
    · rw [List.dropWhile_cons_of_neg]
      simp
    · intro entry member
      rw [decide_eq_true_iff]
      rintro rfl
      exact absent member
  rw [atStart, dropped, List.tail_cons]

end History

namespace State

/-- The registry, the queue and the finished packages are what the history says. -/
structure Coherent (state : State) : Prop where
  lawful : History.Lawful state.instances
  registered : ∀ target, (state.instances.get? target).isSome ↔ state.registry.Knows target
  waiting : ∀ target, target ∈ state.queue.map Pending.target ↔ state.instances.get? target = some .queued
  distinct : (state.queue.map Pending.target).Nodup
  completed : state.specialized.map (·.target) = History.completions state.instances
  arguments : ∀ package ∈ state.specialized, state.registry.get? package.target = some package.arguments

/-- What operations that go on from a state keep to. Work that has started is not ended by what
happens meanwhile, and an operation that ends with a result has failed no instance. -/
structure Continues (ended : Bool) (first last : State) : Prop where
  registry : first.registry.Extends last.registry
  history : first.instances <:+ last.instances
  started : ∀ target, last.instances.get? target = some .inProgress ↔
    first.instances.get? target = some .inProgress
  clean : ended = true → ∀ target fault, last.instances.get? target = some (.failed fault) →
    first.instances.get? target = some (.failed fault)

structure Grows (ended : Bool) (first last : State) : Prop extends Continues ended first last where
  queue : first.queue <+: last.queue
  specialized : last.specialized = first.specialized

variable {first second third state : State} {ended : Bool} {target : Instance}

theorem Continues.refl (ended : Bool) (state : State) : state.Continues ended state :=
  ⟨.refl _, List.suffix_refl _, fun _ => .rfl, fun _ _ _ failed => failed⟩

theorem Continues.trans (continues : first.Continues true second) (next : second.Continues ended third) :
    first.Continues ended third where
  registry := continues.registry.trans next.registry
  history := continues.history.trans next.history
  started target := (next.started target).trans (continues.started target)
  clean done target fault failed := continues.clean rfl target fault (next.clean done target fault failed)

theorem Continues.stopped (continues : first.Continues ended second) : first.Continues false second :=
  ⟨continues.registry, continues.history, continues.started, fun done => by cases done⟩

theorem Grows.refl (ended : Bool) (state : State) : state.Grows ended state :=
  ⟨.refl ended state, List.prefix_refl _, rfl⟩

theorem Grows.trans (grows : first.Grows true second) (next : second.Grows ended third) :
    first.Grows ended third :=
  ⟨grows.toContinues.trans next.toContinues, grows.queue.trans next.queue,
    next.specialized.trans grows.specialized⟩

theorem Grows.unknown_of_added (grows : first.Grows ended second) (coherent : first.Coherent)
    (coherent' : second.Coherent) {pending : Pending} (added : pending ∈ second.queue.drop first.queue.length) :
    second.registry.Knows pending.target ∧ ¬ first.registry.Knows pending.target := by
  obtain ⟨rest, queue_eq⟩ := grows.queue
  rw [← queue_eq, List.drop_left] at added
  have waiting := coherent'.waiting pending.target
  have distinct := coherent'.distinct
  rw [← queue_eq, List.map_append] at waiting distinct
  have listed : pending.target ∈ rest.map Pending.target := List.mem_map_of_mem added
  have queued := waiting.mp (List.mem_append_right _ listed)
  refine ⟨(coherent'.registered pending.target).mp (by rw [queued]; rfl), fun known => ?_⟩
  -- with a number it would have waited before, and then it is not among the new ones
  obtain ⟨entry, found⟩ := Option.isSome_iff_exists.mp ((coherent.registered pending.target).mpr known)
  have low := coherent'.lawful.rank_le grows.history pending.target
  rw [queued, found] at low
  cases entry with
  | queued =>
    have before := (coherent.waiting pending.target).mpr found
    exact List.disjoint_of_nodup_append distinct before listed
  | inProgress => exact absurd low (by decide)
  | done => exact absurd low (by decide)
  | failed fault => exact absurd low (by simp [InstanceState.rank])

theorem coherent_initial : State.initial.Coherent where
  lawful := .nil
  registered target := by simp [initial, Registry.Knows, Registry.empty, Registry.get?, Registry.sets,
    Registry.numbering, NumberedSets.empty, Table.get?]
  waiting target := by simp [initial, Table.get?]
  distinct := List.nodup_nil
  completed := rfl
  arguments package member := by cases member

theorem Coherent.record (coherent : state.Coherent) (fault : Fault) : (state.record fault).Coherent := by
  unfold State.record
  split
  · exact coherent
  · exact ⟨coherent.lawful, coherent.registered, coherent.waiting, coherent.distinct, coherent.completed,
      coherent.arguments⟩

theorem Coherent.enter (coherent : state.Coherent) (key : ConstantKey) : (state.enter key).Coherent :=
  ⟨coherent.lawful, coherent.registered, coherent.waiting, coherent.distinct, coherent.completed,
    coherent.arguments⟩

theorem Coherent.leave (coherent : state.Coherent) (key : ConstantKey) (depth : Nat)
    (result : Except Fault Value) : (state.leave key depth result).Coherent :=
  ⟨coherent.lawful, coherent.registered, coherent.waiting, coherent.distinct, coherent.completed,
    coherent.arguments⟩

section Adding

variable {base : String} {arguments : Arguments} {id : InstanceId} {registry : Registry} {last : State}

theorem Coherent.get?_of_request (coherent : state.Coherent)
    (asked : state.registry.request base arguments = .ok (⟨id, true⟩, registry)) :
    state.instances.get? ⟨base, id⟩ = none := by
  cases found : state.instances.get? ⟨base, id⟩ with
  | none => rfl
  | some entry =>
    have known := (coherent.registered ⟨base, id⟩).mp (by rw [found]; rfl)
    exact absurd known (Registry.knows_of_request asked).1

theorem Coherent.registered_add (coherent : state.Coherent)
    (asked : state.registry.request base arguments = .ok (⟨id, true⟩, registry)) (entry : InstanceState)
    (target : Instance) :
    ((state.instances.insert ⟨base, id⟩ entry).get? target).isSome ↔ registry.Knows target := by
  rw [Table.get?_insert, (Registry.knows_of_request asked).2 target]
  split
  · rename_i same
    simp [same]
  · rename_i other
    rw [coherent.registered target]
    exact ⟨.inl, fun known => known.resolve_right other⟩

theorem Coherent.arguments_add (coherent : state.Coherent)
    (asked : state.registry.request base arguments = .ok (⟨id, true⟩, registry)) :
    ∀ package ∈ state.specialized, registry.get? package.target = some package.arguments :=
  fun package member => (Registry.find?_of_request_ok asked).1.get? (coherent.arguments package member)

theorem continues_add (coherent : state.Coherent)
    (asked : state.registry.request base arguments = .ok (⟨id, true⟩, registry)) {entry : InstanceState}
    (notStarted : entry ≠ .inProgress) (clean : ended = true → ∀ fault, entry ≠ .failed fault)
    (registry_eq : last.registry = registry)
    (instances_eq : last.instances = state.instances.insert ⟨base, id⟩ entry) : state.Continues ended last := by
  have fresh := coherent.get?_of_request asked
  constructor
  · rw [registry_eq]
    exact (Registry.find?_of_request_ok asked).1
  · rw [instances_eq]
    exact List.suffix_cons _ _
  · intro target
    rw [instances_eq, Table.get?_insert]
    split
    · rename_i same
      rw [same, fresh]
      simp [notStarted]
    · rfl
  · intro done target fault failed
    rw [instances_eq, Table.get?_insert] at failed
    split at failed
    · exact absurd (Option.some.inj failed) (clean done fault)
    · exact failed

end Adding

/-- Asking for an instance keeps a state coherent, and it only adds to it. -/
theorem Coherent.instantiate (coherent : state.Coherent) {settings : Settings} {package : Package}
    {arguments : Arguments} {site : Span} {result : Except Fault Instance} {last : State}
    (asked : state.instantiate settings package arguments site = (result, last)) :
    last.Coherent ∧ state.Grows result.isOk last := by
  unfold State.instantiate at asked
  split at asked
  · cases asked
    exact ⟨coherent, .refl _ state⟩
  · split at asked
    · cases asked
      exact ⟨coherent, .refl _ state⟩
    · cases asked
      exact ⟨coherent, .refl _ state⟩
  · rename_i id registry new
    have fresh := coherent.get?_of_request new
    simp only at asked
    split at asked
    · cases asked
      refine ⟨⟨coherent.lawful.insert ?_, coherent.registered_add new _, fun target => ?_, coherent.distinct, ?_,
        coherent.arguments_add new⟩, ?_, List.prefix_refl _, rfl⟩
      · rw [fresh]
        exact .refused _
      · -- a refused instance does not wait, and it did not before
        rw [coherent.waiting target, Table.get?_insert]
        split
        · rename_i same
          simp [same, fresh]
        · rfl
      · rw [Table.insert, History.completions_cons _ _ (by intro same; cases same)]
        exact coherent.completed
      · exact continues_add coherent new (by intro same; cases same) (fun done => by cases done) rfl rfl
    · cases asked
      have absent : (⟨package.name, id⟩ : Instance) ∉ state.queue.map Pending.target := by
        rw [coherent.waiting, fresh]
        intro same
        cases same
      refine ⟨⟨coherent.lawful.insert ?_, coherent.registered_add new _, fun target => ?_, ?_, ?_,
        coherent.arguments_add new⟩, ?_, List.prefix_append _ _, rfl⟩
      · rw [fresh]
        exact .queued
      · rw [List.map_append, List.mem_append, coherent.waiting target, Table.get?_insert]
        split
        · rename_i same
          simp [same, Pending.target]
        · rename_i other
          simp [Pending.target, other]
      · rw [List.map_append]
        exact List.nodup_append_comm.mp (List.nodup_cons.mpr ⟨absent, coherent.distinct⟩)
      · rw [Table.insert, History.completions_cons _ _ (by intro same; cases same)]
        exact coherent.completed
      · refine continues_add coherent new (by intro same; cases same) (fun _ fault same => ?_) rfl rfl
        cases same

section Work

variable {position depth : Nat} {pending : Pending}

theorem Coherent.queued (coherent : state.Coherent) (next : state.queue[position]? = some pending) :
    state.instances.get? pending.target = some .queued :=
  (coherent.waiting pending.target).mp (List.mem_map_of_mem (List.mem_of_getElem? next))

theorem Coherent.mem_take (coherent : state.Coherent) (next : state.queue[position]? = some pending)
    (target : Instance) : target ∈ (state.take position).queue.map Pending.target ↔
      target ∈ state.queue.map Pending.target ∧ target ≠ pending.target := by
  have erased : (state.take position).queue.map Pending.target
      = (state.queue.map Pending.target).erase pending.target := by
    obtain ⟨within, here⟩ := List.getElem?_eq_some_iff.mp next
    have bound : position < (state.queue.map Pending.target).length := by
      rw [List.length_map]
      exact within
    have there : (state.queue.map Pending.target)[position] = pending.target := by
      rw [List.getElem_map, here]
    rw [← there, coherent.distinct.erase_getElem position bound, List.eraseIdx_map]
    rfl
  rw [erased, coherent.distinct.mem_erase_iff]
  exact And.comm

theorem Coherent.registered_insert (coherent : state.Coherent) {entry : InstanceState}
    (known : (state.instances.get? target).isSome) (other : Instance) :
    ((state.instances.insert target entry).get? other).isSome ↔ state.registry.Knows other := by
  rw [Table.get?_insert]
  split
  · rename_i same
    rw [same]
    exact ⟨fun _ => (coherent.registered target).mp known, fun _ => rfl⟩
  · exact coherent.registered other

theorem Coherent.begin (coherent : state.Coherent) (next : state.queue[position]? = some pending) :
    ((state.take position).begin pending).Coherent where
  lawful := by
    apply coherent.lawful.insert
    rw [coherent.queued next]
    exact .inProgress
  registered := coherent.registered_insert (by rw [coherent.queued next]; rfl)
  waiting target := by
    show target ∈ (state.take position).queue.map Pending.target ↔
      (state.instances.insert pending.target .inProgress).get? target = some .queued
    rw [coherent.mem_take next, coherent.waiting target, Table.get?_insert]
    split
    · rename_i same
      simp [same]
    · rename_i other
      simp [other]
  distinct := coherent.distinct.sublist ((List.eraseIdx_sublist _ _).map _)
  completed := by
    show state.specialized.map (·.target) = History.completions ((pending.target, .inProgress) :: state.instances)
    rw [History.completions_cons _ _ (by intro same; cases same)]
    exact coherent.completed
  arguments := coherent.arguments

theorem Coherent.finish (coherent : state.Coherent) (started : state.instances.get? target = some .inProgress)
    {result : Except Fault SpecializedPackage}
    (made : ∀ package, result = .ok package →
      package.target = target ∧ state.registry.get? target = some package.arguments) :
    (state.finish target depth result).Coherent := by
  have known : (state.instances.get? target).isSome := by
    rw [started]
    rfl
  -- what is worked on does not wait, before and after
  have waiting {entry : InstanceState} (ended : entry ≠ .queued) (other : Instance) :
      other ∈ state.queue.map Pending.target ↔
        (state.instances.insert target entry).get? other = some .queued := by
    rw [coherent.waiting other, Table.get?_insert]
    split
    · rename_i same
      simp [same, started, ended]
    · rfl
  cases result with
  | ok package =>
    obtain ⟨target_eq, arguments_eq⟩ := made package rfl
    refine ⟨coherent.lawful.insert ?_, coherent.registered_insert known,
      waiting (by intro same; cases same), coherent.distinct, ?_, ?_⟩
    · rw [started]
      exact .done
    · show (state.specialized ++ [package]).map (·.target)
        = History.completions ((target, .done) :: state.instances)
      rw [History.completions_cons_done, List.map_append, coherent.completed, List.map_singleton, target_eq]
    · intro other member
      rcases List.mem_append.mp member with old | new
      · exact coherent.arguments other old
      · rw [List.mem_singleton.mp new, target_eq]
        exact arguments_eq
  | error fault =>
    refine ⟨coherent.lawful.insert ?_, coherent.registered_insert known,
      waiting (by intro same; cases same), coherent.distinct, ?_, coherent.arguments⟩
    · rw [started]
      exact .failed fault
    · show state.specialized.map (·.target)
        = History.completions ((target, .failed fault) :: state.instances)
      rw [History.completions_cons _ _ (by intro same; cases same)]
      exact coherent.completed

end Work

end State
end Monomorph
