import Monomorph.Proofs.Cycle.Asks
import Monomorph.Proofs.Pass.Consistency
import Monomorph.Proofs.Pass.Faults

/-! The constants under evaluation.

In a tracked state the stack holds the constants that are marked as being evaluated,
each of them once, and each asks for the one above it. A constant that is asked for
while it is on the stack therefore closes a cycle of constants, from its place on the
stack to the top. Faults that are kept for later are explained in the same way,
however the registry grows.
-/

set_option autoImplicit false

namespace Monomorph

theorem ConstantKey.label_extends {program : Program} {first last : Registry} {key : ConstantKey}
    {evaluator : Evaluator} (made : program.evaluator first key.scope = .ok evaluator)
    (grows : first.Extends last) : key.label last = key.label first := by
  unfold ConstantKey.label
  congr 2
  cases place : key.scope with
  | instantiated target =>
    rw [place] at made
    simp only [Program.evaluator] at made
    cases resolved : first.resolve target with
    | error fault =>
      rw [resolved] at made
      cases made
    | ok arguments =>
      have known := Registry.resolve_eq_ok.mp resolved
      simp only [Scope.label, known, grows.get? known]
  | package name => rfl
  | module name => rfl

namespace State

/-- A chain of labels names a cycle of constants, whatever becomes of the registry. -/
def Explains (program : Program) (state : State) (chain : List String) : Prop :=
  ∃ first rest, state.Holds fun registry =>
    chain = (first :: rest ++ [first]).map (·.label registry) ∧ program.Cycle registry first rest

/-- The constants that are marked as being evaluated are those on the stack, each of them once. -/
structure Exact (state : State) : Prop where
  distinct : state.stack.Nodup
  inProgress : ∀ key, state.constants.get? key = some .inProgress ↔ key ∈ state.stack

/-- A fault is noted in the state: it is reported, or it is what a constant or an instance failed with. -/
inductive Keeps (state : State) (fault : Fault) : Prop where
  | reported : fault ∈ state.faults → Keeps state fault
  | constant {key : ConstantKey} : state.constants.get? key = some (.failed fault) → Keeps state fault
  | specialization {target : Instance} : state.instances.get? target = some (.failed fault) → Keeps state fault

structure Tracked (program : Program) (state : State) : Prop extends state.Exact where
  asks : state.Holds fun registry => state.stack.IsChain (program.Asks registry)
  explains : ∀ fault, state.Keeps fault → ∀ chain, fault.chain? = some chain → state.Explains program chain

/-- The constant on top of the stack, if there is one, asks for all of these. -/
def Permits (program : Program) (state : State) (asks : Registry → ConstantKey → Prop) : Prop :=
  state.Holds fun registry => ∀ top ∈ state.stack.getLast?, ∀ key, asks registry key → program.Asks registry top key

variable {program : Program} {state first last : State} {asks : Registry → ConstantKey → Prop}
  {chain : List String}

theorem Explains.later (explains : first.Explains program chain)
    (grows : first.registry.Extends last.registry) : last.Explains program chain :=
  let ⟨key, rest, holds⟩ := explains
  ⟨key, rest, holds.later grows⟩

theorem Permits.later (permits : first.Permits program asks)
    (grows : first.registry.Extends last.registry) (stack : last.stack = first.stack) :
    last.Permits program asks := by
  unfold Permits
  rw [stack]
  exact Holds.later permits grows

theorem Permits.imp {narrower : Registry → ConstantKey → Prop} (permits : state.Permits program asks)
    (within : state.Holds fun registry => ∀ key, narrower registry key → asks registry key) :
    state.Permits program narrower :=
  fun registry grows top member key asked => permits registry grows top member key (within registry grows key asked)

theorem permits_of_empty (empty : state.stack = []) : state.Permits program asks := by
  intro registry _ top member
  rw [empty] at member
  cases member

/-- A constant that is asked for while it is on the stack is part of a cycle: the constants from its
place on the stack to the top. -/
theorem Tracked.explains_cycle (tracked : state.Tracked program) {key : ConstantKey}
    (member : key ∈ state.stack) (permits : state.Permits program fun _ other => other = key) :
    state.Explains program (state.cycle key) := by
  obtain ⟨before, after, split⟩ := List.append_of_mem member
  have distinct := tracked.distinct
  rw [split] at distinct
  obtain ⟨_, onward, apart⟩ := List.nodup_append.mp distinct
  -- it is on the stack once, so what is cut off below it does not hold it
  have cut : state.stack.dropWhile (· ≠ key) = key :: after := by
    rw [split, List.dropWhile_append_of_pos]
    · simp
    · intro other earlier
      simpa using apart other earlier key List.mem_cons_self
  have cycle : state.Holds fun registry => program.Cycle registry key after := by
    intro registry grows
    have linked := tracked.asks registry grows
    rw [split] at linked
    refine ⟨onward, List.isChain_append.mpr ⟨(List.isChain_append.mp linked).2.1, List.isChain_singleton _, ?_⟩⟩
    intro top last other head
    cases head
    refine permits registry grows top ?_ _ rfl
    rw [split, List.getLast?_append, Option.mem_def.mp last]
    rfl
  refine ⟨key, after, fun registry grows => ⟨?_, cycle registry grows⟩⟩
  -- the labels are taken now; a constant that asks for something keeps its label
  unfold State.cycle
  rw [cut]
  apply List.map_congr_left
  intro other listed
  have within : other ∈ key :: after := by
    rcases List.mem_append.mp listed with inside | again
    · exact inside
    · rw [List.mem_singleton.mp again]
      exact List.mem_cons_self
  obtain ⟨used, asked⟩ := cycle.now.exists_asks within
  obtain ⟨evaluator, made⟩ := asked.evaluator_eq
  exact (ConstantKey.label_extends made grows).symm

theorem tracked_initial : State.initial.Tracked program where
  distinct := List.nodup_nil
  inProgress key := ⟨nofun, nofun⟩
  asks _ _ := List.isChain_nil
  explains fault keeps := by
    cases keeps with
    | reported member => cases member
    | constant failed => cases failed
    | specialization failed => cases failed

theorem Tracked.step (tracked : first.Tracked program) (grows : first.registry.Extends last.registry)
    (constants : last.constants = first.constants) (stack : last.stack = first.stack)
    (keeps : ∀ fault, last.Keeps fault → first.Keeps fault ∨
      ∀ chain, fault.chain? = some chain → last.Explains program chain) : last.Tracked program where
  distinct := by rw [stack]; exact tracked.distinct
  inProgress key := by rw [stack, constants]; exact tracked.inProgress key
  asks := by
    rw [stack]
    exact tracked.asks.later grows
  explains fault kept chain reports := by
    rcases keeps fault kept with old | new
    · exact (tracked.explains fault old chain reports).later grows
    · exact new chain reports

theorem Tracked.record (tracked : state.Tracked program) {fault : Fault}
    (explains : ∀ chain, fault.chain? = some chain → state.Explains program chain) :
    (state.record fault).Tracked program := by
  unfold State.record
  split
  · exact tracked
  · refine tracked.step (.refl _) rfl rfl fun other keeps => ?_
    cases keeps with
    | reported member =>
      rcases List.mem_append.mp member with old | new
      · exact .inl (.reported old)
      · rw [List.mem_singleton.mp new]
        exact .inr explains
    | constant failed => exact .inl (.constant failed)
    | specialization failed => exact .inl (.specialization failed)

section Constants

variable {key : ConstantKey}

/-- A constant that is neither remembered nor refused is not on the stack, and goes on top of it. -/
theorem Exact.enter (marks : state.Exact) (new : state.constants.get? key = none) : (state.enter key).Exact where
  distinct := by
    have absent : key ∉ state.stack := fun member => by
      rw [(marks.inProgress key).mpr member] at new
      cases new
    refine List.nodup_append.mpr ⟨marks.distinct, List.nodup_singleton key, ?_⟩
    intro other member same there
    rw [List.mem_singleton.mp there]
    exact fun equal => absent (equal ▸ member)
  inProgress other := by
    simp only [State.enter, Table.get?_insert, List.mem_append, List.mem_singleton]
    split
    · rename_i same
      exact ⟨fun _ => .inr same, fun _ => rfl⟩
    · rename_i different
      rw [marks.inProgress other]
      exact ⟨.inl, fun listed => listed.resolve_right different⟩

theorem Tracked.enter (tracked : state.Tracked program) (new : state.constants.get? key = none)
    (permits : state.Permits program fun _ other => other = key) : (state.enter key).Tracked program where
  toExact := tracked.toExact.enter new
  asks registry grows := by
    refine List.isChain_append.mpr ⟨tracked.asks registry grows, List.isChain_singleton key, ?_⟩
    intro top member other head
    cases head
    exact permits registry grows top member _ rfl
  explains fault keeps := by
    cases keeps with
    | reported member => exact tracked.explains fault (.reported member)
    | specialization failed => exact tracked.explains fault (.specialization failed)
    | constant failed =>
      simp only [State.enter, Table.get?_insert] at failed
      split at failed
      · cases failed
      · exact tracked.explains fault (.constant failed)

theorem permits_enter (state : State) (key : ConstantKey) :
    (state.enter key).Permits program fun registry => program.Asks registry key := by
  intro registry _ top member used asked
  have same : key = top := by
    simpa [State.enter] using member
  exact same ▸ asked

theorem stack_leave {below : List ConstantKey} (stack : state.stack = below ++ [key]) (depth : Nat)
    (result : Except Fault Value) : (state.leave key depth result).stack = below := by
  simp only [State.leave, stack, List.dropLast_concat]

theorem Exact.leave (marks : state.Exact) {below : List ConstantKey} (stack : state.stack = below ++ [key])
    (depth : Nat) (result : Except Fault Value) : (state.leave key depth result).Exact := by
  have rest := stack_leave stack depth result
  have distinct := marks.distinct
  rw [stack] at distinct
  obtain ⟨distinct, _, apart⟩ := List.nodup_append.mp distinct
  -- the mark is gone, and the constant is nowhere else on the stack
  refine ⟨rest ▸ distinct, fun other => ?_⟩
  rw [rest]
  simp only [State.leave, Table.get?_insert]
  split
  · rename_i same
    constructor
    · intro marked
      cases result <;> cases marked
    · intro member
      exact absurd same (apart other member key (List.mem_singleton_self key))
  · rename_i different
    rw [marks.inProgress other, stack, List.mem_append, List.mem_singleton]
    exact ⟨fun listed => listed.resolve_right different, .inl⟩

theorem Tracked.leave (tracked : state.Tracked program) {below : List ConstantKey} {depth : Nat}
    {result : Except Fault Value} (stack : state.stack = below ++ [key])
    (explains : ∀ fault chain, result = .error fault → fault.chain? = some chain →
      state.Explains program chain) : (state.leave key depth result).Tracked program := by
  have rest := stack_leave stack depth result
  refine ⟨tracked.toExact.leave stack depth result, ?_, ?_⟩
  · intro registry grows
    have linked := tracked.asks registry grows
    rw [stack] at linked
    rw [rest]
    exact (List.isChain_append.mp linked).1
  · intro fault keeps
    cases keeps with
    | reported member => exact tracked.explains fault (.reported member)
    | specialization failed => exact tracked.explains fault (.specialization failed)
    | constant failed =>
      simp only [State.leave, Table.get?_insert] at failed
      split at failed
      · cases result with
        | ok value => cases failed
        | error found =>
          cases failed
          exact fun chain => explains _ chain rfl
      · exact tracked.explains fault (.constant failed)

end Constants

section Instances

theorem Tracked.insert (tracked : first.Tracked program) {target : Instance} {entry : InstanceState}
    (grows : first.registry.Extends last.registry) (constants : last.constants = first.constants)
    (stack : last.stack = first.stack) (faults : last.faults = first.faults)
    (instances : last.instances = first.instances.insert target entry)
    (explains : ∀ fault chain, entry = .failed fault → fault.chain? = some chain →
      last.Explains program chain) : last.Tracked program := by
  refine tracked.step grows constants stack fun fault keeps => ?_
  cases keeps with
  | reported member => exact .inl (.reported (faults ▸ member))
  | constant failed => exact .inl (.constant (constants ▸ failed))
  | specialization failed =>
    rw [instances, Table.get?_insert] at failed
    split at failed
    · exact .inr fun chain => explains fault chain (Option.some.inj failed)
    · exact .inl (.specialization failed)

/-- An instance that cannot be had has failed before, or fails for a reason that is no cycle. -/
theorem Tracked.instantiate {settings : Settings} {package : Package} {arguments : Arguments} {site : Span}
    {result : Except Fault Instance} (tracked : first.Tracked program)
    (ran : first.instantiate settings package arguments site = (result, last)) :
    last.Tracked program ∧ last.stack = first.stack ∧
      ∀ fault chain, result = .error fault → fault.chain? = some chain → last.Explains program chain := by
  unfold State.instantiate at ran
  split at ran
  · rename_i refused
    cases ran
    refine ⟨tracked, rfl, fun fault chain same reports => ?_⟩
    cases same
    rw [(Registry.plain_of_request refused).chain] at reports
    cases reports
  · split at ran
    · rename_i failed
      cases ran
      refine ⟨tracked, rfl, fun fault chain same reports => ?_⟩
      cases same
      exact tracked.explains _ (.specialization failed) chain reports
    · cases ran
      exact ⟨tracked, rfl, nofun⟩
  · rename_i id registry asked
    have grows := (Registry.find?_of_request_ok asked).1
    simp only at ran
    split at ran
    · cases ran
      refine ⟨tracked.insert grows rfl rfl rfl rfl fun fault chain same reports => ?_, rfl,
        fun fault chain same reports => ?_⟩
      · cases same
        cases reports
      · cases same
        cases reports
    · cases ran
      exact ⟨tracked.insert grows rfl rfl rfl rfl nofun, rfl, nofun⟩

theorem Tracked.take (tracked : state.Tracked program) (position : Nat) :
    (state.take position).Tracked program := by
  refine tracked.step (.refl _) rfl rfl fun fault keeps => .inl ?_
  cases keeps with
  | reported member => exact .reported member
  | constant failed => exact .constant failed
  | specialization failed => exact .specialization failed

theorem Tracked.begin (tracked : state.Tracked program) (pending : Pending) :
    (state.begin pending).Tracked program :=
  tracked.insert (.refl _) rfl rfl rfl rfl nofun

theorem Tracked.finish (tracked : state.Tracked program) (target : Instance) (depth : Nat)
    {result : Except Fault SpecializedPackage}
    (explains : ∀ fault chain, result = .error fault → fault.chain? = some chain →
      state.Explains program chain) : (state.finish target depth result).Tracked program := by
  cases result with
  | ok package => exact tracked.insert (.refl _) rfl rfl rfl rfl nofun
  | error found =>
    refine tracked.insert (.refl _) rfl rfl rfl rfl fun fault chain same reports => ?_
    cases same
    exact (explains _ chain rfl reports).later (.refl _)

end Instances
end State
end Monomorph
