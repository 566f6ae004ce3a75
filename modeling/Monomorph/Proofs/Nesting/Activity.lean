import Monomorph.Pass.Progress
import Monomorph.Proofs.Cycle.Stack
import Monomorph.Proofs.Pass.History

/-! The pass as a machine of small steps.

Next to the state, an activity keeps two things that the state does not show: the work
that was started and has not ended, innermost first, and a journal of the instances as
they got their numbers, each with the instance that was worked on at that time. The steps
are those in which operations change the state: an instance gets a number, the evaluation
of a constant starts or ends, the specialization of a body starts or ends, a fault is
recorded. Everything that holds of the states of the pass at all times is shown once for
each kind of step.
-/

set_option autoImplicit false

namespace Monomorph

/-- An instance got its number, while another one was worked on or outside instances. -/
structure Numbering where
  worker : Option Instance
  target : Instance

abbrev Journal := List Numbering

namespace Journal

def targets (journal : Journal) : List Instance := journal.map (·.target)

/-- Instances, innermost first, each of which got its number while the next one was worked on; the
outermost one got it outside instances. -/
inductive Nests (journal : Journal) : List Instance → Prop where
  | outside : Nests journal []
  | inside {target : Instance} {above : List Instance} :
      Nests journal above → ⟨above.head?, target⟩ ∈ journal → Nests journal (target :: above)

variable {journal : Journal} {chain : List Instance}

theorem Nests.append (nests : journal.Nests chain) (later : Journal) : Nests (journal ++ later) chain := by
  induction nests with
  | outside => exact .outside
  | inside _ numbered ih => exact .inside ih (List.mem_append_left later numbered)

theorem Nests.mem_targets (nests : journal.Nests chain) {target : Instance} (member : target ∈ chain) :
    target ∈ journal.targets := by
  induction nests with
  | outside => cases member
  | inside _ numbered ih =>
    rcases List.mem_cons.mp member with rfl | further
    · exact List.mem_map.mpr ⟨_, numbered, rfl⟩
    · exact ih further

end Journal

inductive Frame where
  /-- The evaluation of a constant, with the depth to go back to. -/
  | constant (key : ConstantKey) (depth : Nat)
  /-- The specialization of a body, with the depth to go back to and what waited when it was started. -/
  | body (pending : Pending) (depth : Nat) (waiting : List Pending)

namespace Frame

def key? : Frame → Option ConstantKey
  | constant key _ => some key
  | body .. => none

def body? : Frame → Option Instance
  | constant .. => none
  | body pending _ _ => some pending.target

def keys (frames : List Frame) : List ConstantKey := (frames.filterMap key?).reverse

def bodies (frames : List Frame) : List Instance := frames.filterMap body?

/-- The instance that is worked on: its body is specialized, or one of its constants is evaluated. Work
on plain text belongs to what it is done for. -/
def worker : List Frame → Option Instance
  | [] => none
  | .body pending _ _ :: _ => some pending.target
  | .constant ⟨.instantiated target, _⟩ _ :: _ => some target
  | .constant ⟨.package _, _⟩ _ :: rest | .constant ⟨.module _, _⟩ _ :: rest => worker rest

/-- The place in the queue from which on bodies may be started; no body is started while a constant is
evaluated. -/
def mark? : List Frame → Option Nat
  | [] => some 0
  | .body _ _ waiting :: _ => some waiting.length
  | .constant .. :: _ => none

end Frame

namespace State

/-- An instance has failed with a fault when it got its number, for it has no level. -/
structure Refuses (state : State) (target : Instance) (fault : Fault) : Prop where
  level : state.levels.get? target = none
  failed : state.instances.get? target = some (.failed fault)

def Accounts (state : State) (fault : Fault) : Prop := ∃ target, state.Refuses target fault

/-- If an operation ends with a fault about nesting, an instance was refused with it. -/
def Blames {ε α : Type} (state : State) (limit? : ε → Option Fault) (result : Except ε α) : Prop :=
  ∀ error fault, result = .error error → limit? error = some fault → state.Accounts fault

end State

structure Activity where
  /-- Innermost first. -/
  frames : List Frame
  journal : Journal
  state : State

inductive Mode where
  | evaluating
  | working

namespace Program

/-- The steps of the pass. -/
inductive Moves (program : Program) : Mode → Activity → Activity → Prop where
  | number {mode : Mode} {frames : List Frame} {journal : Journal} {state : State} {package : Package}
      {arguments : Arguments} {id : InstanceId} {registry : Registry} {site : Span} :
      state.registry.request package.name arguments = .ok (⟨id, true⟩, registry) →
      Moves program mode ⟨frames, journal, state⟩
        ⟨frames, journal ++ [⟨Frame.worker frames, package.name, id⟩],
          (state.instantiate program.settings package arguments site).2⟩
  | enter {mode : Mode} {frames : List Frame} {journal : Journal} {state : State} {key : ConstantKey} :
      state.Knows key.scope → state.constants.get? key = none →
      Moves program mode ⟨frames, journal, state⟩ ⟨.constant key state.depth :: frames, journal, state.enter key⟩
  | leave {mode : Mode} {frames : List Frame} {journal : Journal} {state : State} {key : ConstantKey} {depth : Nat}
      {result : Except Fault Value} :
      state.Blames Fault.limit? result →
      Moves program mode ⟨.constant key depth :: frames, journal, state⟩
        ⟨frames, journal, state.leave key depth result⟩
  | begin {frames : List Frame} {journal : Journal} {state : State} {mark position : Nat} {pending : Pending} :
      Frame.mark? frames = some mark → mark ≤ position → state.queue[position]? = some pending →
      Moves program .working ⟨frames, journal, state⟩
        ⟨.body pending state.depth (state.take position).queue :: frames, journal,
          (state.take position).begin pending⟩
  | finish {frames : List Frame} {journal : Journal} {state : State} {pending : Pending} {depth : Nat}
      {waiting : List Pending} {result : Except Fault SpecializedPackage} :
      state.Blames Fault.limit? result →
      (∀ package, result = .ok package →
        package.target = pending.target ∧ state.registry.get? pending.target = some package.arguments) →
      Moves program .working ⟨.body pending depth waiting :: frames, journal, state⟩
        ⟨frames, journal, state.finish pending.target depth result⟩
  | record {journal : Journal} {state : State} {fault : Fault} :
      state.Blames Fault.limit? (.error fault : Except Fault Unit) →
      Moves program .working ⟨[], journal, state⟩ ⟨[], journal, state.record fault⟩

inductive Passes (program : Program) (mode : Mode) : Activity → List Activity → Activity → Prop where
  | stays {activity : Activity} : Passes program mode activity [] activity
  | goes {first next last : Activity} {path : List Activity} : program.Moves mode first next →
      Passes program mode next path last → Passes program mode first (next :: path) last

namespace Passes

variable {program : Program} {mode : Mode} {first middle last : Activity} {path further : List Activity}

theorem single (step : program.Moves mode first last) : program.Passes mode first [last] last := .goes step .stays

theorem trans (passes : program.Passes mode first path middle) (next : program.Passes mode middle further last) :
    program.Passes mode first (path ++ further) last := by
  induction passes with
  | stays => exact next
  | goes step _ ih => exact .goes step (ih next)

theorem last_mem (passes : program.Passes mode first path last) : last ∈ first :: path := by
  induction passes with
  | stays => exact List.mem_cons_self
  | goes _ _ ih => exact List.mem_cons_of_mem _ ih

end Passes

end Program

/-! What the open work says about the state. -/

namespace Frame

/-- The depth that goes with the open work: that of the instance worked on, or zero. -/
inductive Rises (levels : Table Instance Nat) : List Frame → Nat → Prop where
  | outside : Rises levels [] 0
  | instantiated {target : Instance} {name : String} {depth level : Nat} {frames : List Frame} :
      levels.get? target = some level → Rises levels frames depth →
      Rises levels (.constant ⟨.instantiated target, name⟩ depth :: frames) level
  | package {name constant : String} {depth : Nat} {frames : List Frame} :
      Rises levels frames depth → Rises levels (.constant ⟨.package name, constant⟩ depth :: frames) depth
  | module {name constant : String} {depth : Nat} {frames : List Frame} :
      Rises levels frames depth → Rises levels (.constant ⟨.module name, constant⟩ depth :: frames) depth
  | body {pending : Pending} {depth : Nat} {waiting : List Pending} {frames : List Frame} :
      levels.get? pending.target = some pending.level → Rises levels frames depth →
      Rises levels (.body pending depth waiting :: frames) pending.level

/-- What waited when a body was started still waits, in front of what was queued since. -/
def Waits : List Pending → List Frame → Prop
  | _, [] => True
  | queue, .constant .. :: rest => Waits queue rest
  | queue, .body _ _ waiting :: rest => waiting <+: queue ∧ Waits waiting rest

variable {levels wider : Table Instance Nat} {frames : List Frame} {depth : Nat}

theorem Rises.later (rises : Rises levels frames depth)
    (kept : ∀ target level, levels.get? target = some level → wider.get? target = some level) :
    Rises wider frames depth := by
  induction rises with
  | outside => exact .outside
  | instantiated known _ ih => exact .instantiated (kept _ _ known) ih
  | package _ ih => exact .package ih
  | module _ ih => exact .module ih
  | body known _ ih => exact .body (kept _ _ known) ih

theorem Rises.unique (rises : Rises levels frames depth) {other : Nat} (again : Rises levels frames other) :
    other = depth := by
  cases rises with
  | outside => cases again; rfl
  | instantiated known _ =>
    cases again with
    | instantiated known' _ => exact Option.some.inj (known'.symm.trans known)
  | package _ => cases again; rfl
  | module _ => cases again; rfl
  | body _ _ => cases again; rfl

theorem Rises.tail {frame : Frame} (rises : Rises levels (frame :: frames) depth) :
    match frame with
    | .constant _ below | .body _ below _ => Rises levels frames below := by
  cases rises with
  | instantiated _ below => exact below
  | package below => exact below
  | module below => exact below
  | body _ below => exact below

theorem Rises.worker_eq (rises : Rises levels frames depth) :
    (worker frames = none → depth = 0) ∧ ∀ target, worker frames = some target → levels.get? target = some depth := by
  induction rises with
  | outside => exact ⟨fun _ => rfl, nofun⟩
  | instantiated known _ _ => exact ⟨nofun, fun target same => Option.some.inj same ▸ known⟩
  | package _ ih => exact ih
  | module _ ih => exact ih
  | body known _ _ => exact ⟨nofun, fun target same => Option.some.inj same ▸ known⟩

theorem Rises.enter {state : State} {key : ConstantKey} (rises : Rises state.levels frames state.depth)
    (known : state.Knows key.scope) :
    Rises state.levels (.constant key state.depth :: frames) (state.levelOf key.scope) := by
  obtain ⟨scope, name⟩ := key
  cases scope with
  | instantiated target =>
    obtain ⟨level, found⟩ := Option.isSome_iff_exists.mp known
    simp only [State.levelOf, found, Option.getD_some]
    exact .instantiated found rises
  | package other => exact .package rises
  | module other => exact .module rises

theorem Waits.later {queue longer : List Pending} (waits : Waits queue frames) (grows : queue <+: longer) :
    Waits longer frames := by
  induction frames with
  | nil => trivial
  | cons frame rest ih =>
    cases frame with
    | constant key depth => exact ih waits
    | body pending depth waiting => exact ⟨waits.1.trans grows, waits.2⟩

theorem Waits.eraseIdx {queue : List Pending} {mark position : Nat} (waits : Waits queue frames)
    (free : mark? frames = some mark) (behind : mark ≤ position) : Waits (queue.eraseIdx position) frames := by
  cases frames with
  | nil => trivial
  | cons frame rest =>
    cases frame with
    | constant key depth => cases free
    | body pending depth waiting =>
      obtain ⟨⟨added, rfl⟩, waits⟩ := waits
      have behind : waiting.length ≤ position := Option.some.inj free ▸ behind
      refine ⟨?_, waits⟩
      rw [List.eraseIdx_append_of_length_le behind]
      exact List.prefix_append _ _

theorem keys_constant (key : ConstantKey) (depth : Nat) (frames : List Frame) :
    keys (.constant key depth :: frames) = keys frames ++ [key] := by
  simp only [keys, List.filterMap_cons, key?, List.reverse_cons]

theorem outside_of_worker (outside : worker frames = none) :
    bodies frames = [] ∧ ∀ key ∈ keys frames, ∀ target, key.scope ≠ .instantiated target := by
  induction frames with
  | nil => exact ⟨rfl, nofun⟩
  | cons frame rest ih =>
    cases frame with
    | body pending depth waiting => cases outside
    | constant key depth =>
      obtain ⟨scope, name⟩ := key
      rw [keys_constant]
      cases scope with
      | instantiated target => cases outside
      | package other =>
        obtain ⟨none, plain⟩ := ih outside
        exact ⟨none, fun key listed => (List.mem_append.mp listed).elim (plain key) fun last => by
          rw [List.mem_singleton.mp last]
          exact nofun⟩
      | module other =>
        obtain ⟨none, plain⟩ := ih outside
        exact ⟨none, fun key listed => (List.mem_append.mp listed).elim (plain key) fun last => by
          rw [List.mem_singleton.mp last]
          exact nofun⟩

theorem open_of_worker {target : Instance} (working : worker frames = some target) :
    target ∈ bodies frames ∨ ∃ name, (⟨.instantiated target, name⟩ : ConstantKey) ∈ keys frames := by
  induction frames with
  | nil => cases working
  | cons frame rest ih =>
    cases frame with
    | body pending depth waiting =>
      cases working
      exact .inl List.mem_cons_self
    | constant key depth =>
      obtain ⟨scope, name⟩ := key
      rw [keys_constant]
      cases scope with
      | instantiated other =>
        cases working
        exact .inr ⟨name, List.mem_append_right _ (List.mem_singleton_self _)⟩
      | package other => exact (ih working).imp id fun ⟨name, listed⟩ => ⟨name, List.mem_append_left _ listed⟩
      | module other => exact (ih working).imp id fun ⟨name, listed⟩ => ⟨name, List.mem_append_left _ listed⟩

end Frame
end Monomorph
