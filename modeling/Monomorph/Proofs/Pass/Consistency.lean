import Monomorph.Proofs.Lowering.Direction

/-! What the state of the pass knows.

Everything in the state is what the rules of denotation say: remembered constants
have the values that the rules give them, the argument sets are such as parameters take,
and finished instances are what their generic packages become. This holds in the registry of the state and in every
registry that it may grow to.
-/

set_option autoImplicit false

namespace Monomorph.State

/-- An assertion about the registry that holds however the registry grows. -/
def Holds (state : State) (assertion : Registry → Prop) : Prop :=
  ∀ registry, state.registry.Extends registry → assertion registry

inductive Accounted (state : State) (target : Instance) : Prop where
  | queued {pending : Pending} : pending ∈ state.queue → pending.target = target → Accounted state target
  | inProgress : state.instances.get? target = some .inProgress → Accounted state target
  | specialized {package : SpecializedPackage} :
      package ∈ state.specialized → package.target = target → Accounted state target
  | failed {fault : Fault} : state.instances.get? target = some (.failed fault) → Accounted state target

structure Consistent (program : Program) (state : State) : Prop where
  formed : state.registry.WellFormed
  accepted : state.registry.Every program.Accepts
  remembered : ∀ key value, state.constants.get? key = some (.done value) →
    state.Holds fun registry => program.ConstantValue registry .value key.scope key.name value
  queued : ∀ pending ∈ state.queue, program.generic? pending.package.name = some pending.package
  completed : ∀ package ∈ state.specialized, state.Holds fun registry => program.Specializes registry package
  accounted : ∀ target arguments, state.registry.get? target = some arguments → state.Accounted target

def Clean (state : State) : Prop := ∀ target fault, state.instances.get? target ≠ some (.failed fault)

/-- What every operation keeps to: the registry only grows, finished packages stay in their places,
work on an instance that is started is also ended, and faults are not forgotten. -/
structure Leads (first last : State) : Prop where
  registry : first.registry.Extends last.registry
  specialized : first.specialized <+: last.specialized
  inProgress : ∀ target, last.instances.get? target = some .inProgress →
    first.instances.get? target = some .inProgress
  faults : last.faults = [] → first.faults = []

variable {program : Program} {state first second third : State} {assertion : Registry → Prop}

theorem Leads.refl (state : State) : state.Leads state :=
  ⟨.refl _, List.prefix_refl _, fun _ started => started, id⟩

theorem Leads.trans (leads : first.Leads second) (next : second.Leads third) : first.Leads third where
  registry := leads.registry.trans next.registry
  specialized := leads.specialized.trans next.specialized
  inProgress target started := leads.inProgress target (next.inProgress target started)
  faults none := leads.faults (next.faults none)

theorem Holds.now (holds : state.Holds assertion) : assertion state.registry :=
  holds state.registry (.refl _)

theorem Holds.later (holds : first.Holds assertion) (grows : first.registry.Extends second.registry) :
    second.Holds assertion :=
  fun registry further => holds registry (grows.trans further)

theorem Accounted.mono {target : Instance} (accounted : first.Accounted target)
    (queue : first.queue ⊆ second.queue) (specialized : first.specialized ⊆ second.specialized)
    (kept : second.instances.get? target = first.instances.get? target) : second.Accounted target := by
  cases accounted with
  | queued member same => exact .queued (queue member) same
  | inProgress started => exact .inProgress (kept.trans started)
  | specialized member same => exact .specialized (specialized member) same
  | failed noted => exact .failed (kept.trans noted)

theorem consistent_initial : State.initial.Consistent program where
  formed base arguments member := by cases member
  accepted base arguments member := by cases member
  remembered key value found := by cases found
  queued pending member := by cases member
  completed package member := by cases member
  accounted target arguments found := by
    cases found

section Constants

variable {key : ConstantKey} {depth : Nat} {result : Except Fault Value}

theorem consistent_enter (consistent : state.Consistent program) (key : ConstantKey) :
    (state.enter key).Consistent program where
  formed := consistent.formed
  accepted := consistent.accepted
  remembered other value found := by
    simp only [enter, Table.get?_insert] at found
    split at found
    · cases found
    · exact consistent.remembered other value found
  queued := consistent.queued
  completed := consistent.completed
  accounted target arguments found :=
    (consistent.accounted target arguments found).mono (fun _ member => member) (fun _ member => member) rfl

theorem consistent_leave (consistent : state.Consistent program)
    (answered : ∀ value, result = .ok value →
      state.Holds fun registry => program.ConstantValue registry .value key.scope key.name value) :
    (state.leave key depth result).Consistent program where
  formed := consistent.formed
  accepted := consistent.accepted
  remembered other value found := by
    simp only [leave, Table.get?_insert] at found
    split at found
    · rename_i same
      cases result with
      | error fault => cases found
      | ok answer =>
        cases found
        rw [same]
        exact answered value rfl
    · exact consistent.remembered other value found
  queued := consistent.queued
  completed := consistent.completed
  accounted target arguments found :=
    (consistent.accounted target arguments found).mono (fun _ member => member) (fun _ member => member) rfl

end Constants

section Instances

variable {package : Package} {arguments : Arguments} {registry : Registry} {id : InstanceId}

theorem leads_insert {last : State} {target : Instance} {entry : InstanceState}
    (grows : state.registry.Extends last.registry) (specialized : last.specialized = state.specialized)
    (instances : last.instances = state.instances.insert target entry) (other : entry ≠ .inProgress)
    (faults : last.faults = state.faults) : state.Leads last := by
  refine ⟨grows, specialized ▸ List.prefix_refl _, fun target' started => ?_, fun none => faults.symm.trans none⟩
  rw [instances, Table.get?_insert] at started
  split at started
  · exact absurd (Option.some.inj started) other
  · exact started

theorem consistent_add (consistent : state.Consistent program)
    (formed : arguments.WellFormed) (accepted : program.Accepts package.name arguments)
    (new : state.registry.request package.name arguments = .ok (⟨id, true⟩, registry))
    {last : State} (registry_eq : last.registry = registry) (constants : last.constants = state.constants)
    (specialized : last.specialized = state.specialized) {entry : InstanceState}
    (instances : last.instances = state.instances.insert ⟨package.name, id⟩ entry)
    (queue : state.queue ⊆ last.queue)
    (queued : ∀ pending ∈ last.queue, program.generic? pending.package.name = some pending.package)
    (accounted : last.Accounted ⟨package.name, id⟩) : last.Consistent program := by
  have grows : state.registry.Extends last.registry := by
    rw [registry_eq]
    exact Registry.extends_of_request new
  constructor
  · rw [registry_eq]
    exact consistent.formed.of_request formed new
  · rw [registry_eq]
    exact consistent.accepted.of_request accepted new
  · intro key value found
    rw [constants] at found
    exact (consistent.remembered key value found).later grows
  · exact queued
  · intro finished member
    rw [specialized] at member
    exact (consistent.completed finished member).later grows
  · intro target stored found
    -- a number that the registry did not have before is the new one
    by_cases same : target = ⟨package.name, id⟩
    · rw [same]
      exact accounted
    · rw [registry_eq] at found
      rcases Registry.get?_of_request new found with old | added
      · apply (consistent.accounted target stored old).mono queue
        · rw [specialized]
          exact fun _ member => member
        · rw [instances, Table.get?_insert, if_neg same]
      · exact absurd added same

variable {position depth : Nat} {pending : Pending} {target : Instance}
  {result : Except Fault SpecializedPackage}

theorem consistent_begin (consistent : state.Consistent program)
    (next : state.queue[position]? = some pending) :
    ((state.take position).begin pending).Consistent program where
  formed := consistent.formed
  accepted := consistent.accepted
  remembered := consistent.remembered
  queued other member := consistent.queued other (List.mem_of_mem_eraseIdx member)
  completed := consistent.completed
  accounted target arguments found := by
    by_cases same : target = pending.target
    · apply Accounted.inProgress
      simp only [begin, Table.get?_insert, if_pos same]
    have kept : ((state.take position).begin pending).instances.get? target = state.instances.get? target := by
      simp only [begin, take, Table.get?_insert, if_neg same]
    cases consistent.accounted target arguments found with
    | queued member other =>
      -- another instance has another place in the queue
      obtain ⟨index, there⟩ := List.mem_iff_getElem?.mp member
      apply Accounted.queued _ other
      apply List.mem_eraseIdx_iff_getElem?.mpr
      refine ⟨index, fun here => ?_, there⟩
      rw [here, next] at there
      cases there
      exact same other.symm
    | inProgress started => exact .inProgress (kept.trans started)
    | specialized member other => exact .specialized member other
    | failed noted => exact .failed (kept.trans noted)

theorem consistent_finish (consistent : state.Consistent program)
    (completed : ∀ package, result = .ok package →
      package.target = target ∧ state.Holds fun registry => program.Specializes registry package) :
    (state.finish target depth result).Consistent program := by
  cases result with
  | ok package =>
    obtain ⟨made, specializes⟩ := completed package rfl
    refine ⟨consistent.formed, consistent.accepted, consistent.remembered, consistent.queued, ?_, ?_⟩
    · intro other member
      rcases List.mem_append.mp member with old | new
      · exact consistent.completed other old
      · rw [List.mem_singleton.mp new]
        exact specializes
    · intro other arguments found
      by_cases same : other = target
      · exact .specialized (List.mem_append_right _ (List.mem_singleton_self package)) (made.trans same.symm)
      · apply Accounted.mono (consistent.accounted other arguments found)
        · exact fun _ member => member
        · exact fun _ member => List.mem_append_left _ member
        · simp only [finish, Table.get?_insert, if_neg same]
  | error fault =>
    refine ⟨consistent.formed, consistent.accepted, consistent.remembered, consistent.queued,
      consistent.completed, ?_⟩
    intro other arguments found
    by_cases same : other = target
    · apply Accounted.failed
      simp only [finish, Table.get?_insert, if_pos same]
      rfl
    · apply Accounted.mono (consistent.accounted other arguments found)
      · exact fun _ member => member
      · exact fun _ member => member
      · simp only [finish, Table.get?_insert, if_neg same]

theorem leads_finish (leads : ((state.take position).begin pending).Leads second) :
    state.Leads (second.finish pending.target depth result) := by
  have ended {target : Instance}
      (started : (second.finish pending.target depth result).instances.get? target = some .inProgress) :
      target ≠ pending.target ∧ second.instances.get? target = some .inProgress := by
    cases result <;>
    · simp only [finish, Table.get?_insert] at started
      split at started
      · cases started
      · exact ⟨‹_›, started⟩
  constructor
  · cases result <;> exact leads.registry
  · cases result with
    | ok package => exact leads.specialized.trans (List.prefix_append _ _)
    | error fault => exact leads.specialized
  · intro target started
    obtain ⟨other, before⟩ := ended started
    -- only the instance of this call was started after the first state
    have begun := leads.inProgress target before
    simpa only [begin, take, Table.get?_insert, if_neg other] using begun
  · intro none
    apply leads.faults
    cases result <;> exact none

theorem Clean.begin (clean : state.Clean) : ((state.take position).begin pending).Clean := by
  intro target fault
  simp only [State.begin, take, Table.get?_insert]
  split
  · intro failed
    cases failed
  · exact clean target fault

theorem Clean.finish {package : SpecializedPackage} (clean : state.Clean) :
    (state.finish target depth (.ok package)).Clean := by
  intro other fault
  simp only [State.finish, Table.get?_insert]
  split
  · intro failed
    cases failed
  · exact clean other fault

end Instances

theorem consistent_record (consistent : state.Consistent program) (fault : Fault) :
    (state.record fault).Consistent program := by
  unfold record
  split
  · exact consistent
  · exact ⟨consistent.formed, consistent.accepted, consistent.remembered, consistent.queued, consistent.completed,
      fun target arguments found =>
        (consistent.accounted target arguments found).mono (fun _ member => member) (fun _ member => member) rfl⟩

theorem faults_record (state : State) (fault : Fault) : (state.record fault).faults ≠ [] := by
  unfold record
  split
  · rename_i noted
    intro none
    rw [none] at noted
    cases noted
  · exact List.append_ne_nil_of_right_ne_nil _ (List.cons_ne_nil _ _)

theorem leads_record (state : State) (fault : Fault) : state.Leads (state.record fault) := by
  have recorded := faults_record state fault
  unfold record at recorded ⊢
  split
  · exact .refl state
  · exact ⟨.refl _, List.prefix_refl _, fun _ started => started, fun none => absurd none (by simp)⟩

end Monomorph.State
