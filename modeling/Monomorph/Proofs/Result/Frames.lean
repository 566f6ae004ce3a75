import Monomorph.Proofs.Nesting.Unit
import Monomorph.Proofs.Result.Termination

/-! What calls leave alone.

Evaluating a constant, directing a reference and specializing an instance only add to the
state, whether they succeed or fail: they go back to the depth and the stack that they
found, and no number, no result and nothing that waits is lost.
-/

set_option autoImplicit false

namespace Monomorph

structure State.Preserves (first last : State) : Prop where
  depth : last.depth = first.depth
  stack : last.stack = first.stack
  numbers : ∀ base arguments id, first.registry.find? base arguments = some id →
    last.registry.find? base arguments = some id
  arguments : ∀ target stored, first.registry.get? target = some stored → last.registry.get? target = some stored
  constants : ∀ key entry, entry ≠ .inProgress → first.constants.get? key = some entry →
    last.constants.get? key = some entry
  instances : ∀ target entry, entry ≠ .queued → entry ≠ .inProgress → first.instances.get? target = some entry →
    last.instances.get? target = some entry
  queue : first.queue <+: last.queue
  specialized : first.specialized <+: last.specialized

namespace Activity

variable {program : Program} {activity : Activity} {journal : Journal} {last : State}

/-- With the same work open as before, depth and stack are as before. What waited is said for each call. -/
theorem Valid.preserves (valid : activity.Valid program) (ended : Valid program ⟨activity.frames, journal, last⟩)
    (upholds : activity.state.Upholds last) {waiting : List Pending} (queue : waiting <+: last.queue) :
    State.Preserves { activity.state with queue := waiting } last where
  depth := (valid.rises.later upholds.levels).unique ended.rises
  stack := ended.stack.trans valid.stack.symm
  numbers _ _ _ found := upholds.registry.find? found
  arguments _ _ found := upholds.registry.get? found
  constants := upholds.constants
  instances target entry waited worked found := by
    refine (upholds.instances target ?_).trans found
    rw [found]
    cases entry with
    | queued => exact absurd rfl waited
    | inProgress => exact absurd rfl worked
    | done => rfl
    | failed fault => rfl
  queue := queue
  specialized := upholds.specialized

end Activity

/-- What calls leave alone at some point of the pass. -/
structure Program.OnlyExtends (program : Program) (activity : Activity) : Prop where
  /-- Requests, for a constant above all, -/
  requests : ∀ budget request result last, activity.state.Knows request.scope →
    (Lookup.ofBudget program budget request).run activity.state = some (result, last) →
    activity.state.Preserves last ∧ last.specialized = activity.state.specialized
  /-- and references finish no instance. -/
  references : ∀ budget reference scope position result last, activity.state.Knows scope →
    (program.target (.ofBudget program budget) reference scope position).run activity.state = some (result, last) →
    activity.state.Preserves last ∧ last.specialized = activity.state.specialized
  /-- The work on an instance starts when it is taken out of the queue. -/
  bodies : ∀ budget position pending result last, activity.Offers position pending →
    (program.specialize (.ofBudget program budget) (program.drainFrom budget) pending).run
      (activity.state.take position) = some (result, last) →
    (activity.state.take position).Preserves last

namespace Program

variable {program : Program} {activity : Activity}

theorem preserves_of_follows {α : Type} (valid : activity.Valid program) {operations : Watched Fault α}
    {gives : α → List Scope} {result : Except Fault α} {last : State}
    (follows : FollowsFrom program .evaluating Fault.limit? activity activity.state operations gives)
    (ran : (operations none).run activity.state = some (result, last)) :
    activity.state.Preserves last ∧ last.specialized = activity.state.specialized := by
  obtain ⟨path, ⟨⟨journal, passes⟩, _⟩, _⟩ := follows result last ran
  obtain ⟨upholds, ended⟩ := valid.passes passes
  obtain ⟨queue, specialized⟩ := Activity.evaluating_passes passes
  exact ⟨valid.preserves ended upholds queue, specialized⟩

theorem Completes.preserves {position : Nat} {pending : Pending} {path : List Activity} {result : Except Fault Unit}
    {last : State} (completes : program.Completes activity position pending path result last)
    (valid : activity.Valid program) : (activity.state.take position).Preserves last := by
  obtain ⟨⟨journal, middle, inner, passes, finishes, _, queue⟩, _⟩ := completes
  obtain ⟨upholds, worked⟩ := valid.passes passes
  obtain ⟨further, ended⟩ := worked.step finishes
  -- what waited when the body was started waits until it is finished
  have waiting : (activity.state.take position).queue <+: last.queue := queue ▸ worked.waits.1
  exact valid.preserves ended (upholds.trans further) waiting

theorem onlyExtends_of_valid (valid : activity.Valid program) : program.OnlyExtends activity where
  requests budget request _ _ known ran :=
    preserves_of_follows valid (Lookup.follows_watched program .evaluating budget activity.frames [request.scope]
      request (List.mem_singleton_self _) activity ⟨valid, rfl, by simpa using known⟩) ran
  references budget reference scope _ _ _ known ran :=
    preserves_of_follows valid (target_follows (Lookup.follows_watched program .evaluating budget)
      (List.mem_singleton_self scope) reference activity ⟨valid, rfl, by simpa using known⟩) ran
  bodies budget position pending result last offers ran := by
    obtain ⟨path, completes, _⟩ := specialize_completes (Lookup.follows_watched program .working budget) valid offers
      (fun _ waiting => drainFrom_follows program budget rfl (Nat.le_refl waiting.length)) ran
    exact completes.preserves valid

end Program

namespace SourceUnit

/-- Whatever calls the pass makes on its way, each of them only adds to the state that it finds. -/
theorem calls_only_extend {unit : SourceUnit} {settings : Settings} {budget : Nat}
    {result : List Description × State} (ran : unit.run? settings budget = some result) :
    ∃ path journal, unit.Unfolds settings budget path journal result ∧
      ∀ activity ∈ unit.start :: path, (Program.ofUnit unit settings).OnlyExtends activity := by
  obtain ⟨path, journal, unfolds⟩ := exists_unfolds ran
  have started : unit.start.Valid (Program.ofUnit unit settings) := Activity.valid_ofUnit unit
  exact ⟨path, journal, unfolds, fun activity member =>
    Program.onlyExtends_of_valid ((started.along unfolds.passes).1 activity member)⟩

end SourceUnit

/-- Evaluating a constant that asks for itself fails with two others entered below it, and goes back all the
way. -/
theorem calls_only_extend_cycleUnit : ∃ fault last,
    (Lookup.ofBudget (.ofUnit cycleUnit {}) 40 (.constant (.module "Top") "C" nowhere)).run (.ofUnit cycleUnit) =
      some (.error fault, last) ∧
    (State.ofUnit cycleUnit).Preserves last ∧ last.specialized = [] := by
  have ends : (cycleUnit.run? {} 40).isSome = true := by decide +kernel
  have fails : ((Lookup.ofBudget (.ofUnit cycleUnit {}) 40 (.constant (.module "Top") "C" nowhere)).run
      (.ofUnit cycleUnit)).map (·.1.isOk) = some false := by decide +kernel
  obtain ⟨result, ran⟩ := Option.isSome_iff_exists.mp ends
  obtain ⟨⟨found, last⟩, answered, failed⟩ := Option.map_eq_some_iff.mp fails
  obtain ⟨path, journal, _, extends_only⟩ := SourceUnit.calls_only_extend ran
  cases found with
  | ok value => cases failed
  | error fault =>
    have kept := (extends_only _ List.mem_cons_self).requests 40 (.constant (.module "Top") "C" nowhere) _ last
      trivial answered
    exact ⟨fault, last, answered, kept.1, kept.2⟩

end Monomorph
