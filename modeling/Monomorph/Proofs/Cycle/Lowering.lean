import Monomorph.Proofs.Cycle.Evaluation
import Monomorph.Proofs.Lowering.Congruence

/-! Lowering keeps the stack of constants empty.

Items and bodies are worked on while no constant is under evaluation, so whatever
they ask for is asked for from outside. The walk over an item and its checked version
agree since references, sizes, encodings and constants do.
-/

set_option autoImplicit false

namespace Monomorph

variable {α β : Type} {program : Program} {check : Check}

structure State.Idle (program : Program) (state : State) : Prop where
  consistent : state.Consistent program
  tracked : state.Tracked program
  empty : state.stack = []

/-- An operation and its checked version do the same from a state on and lead to a state in which nothing
is under evaluation. A chain that they report names a cycle. -/
def PassM.AgreesFrom (program : Program) (first : State) (operation checked : PassM α) : Prop :=
  checked.run first = operation.run first ∧
    ∀ result last, operation.run first = some (result, last) → last.Idle program ∧
      ∀ fault chain, result = .error fault → fault.chain? = some chain → last.Explains program chain

def PassM.Agrees (program : Program) (operation checked : PassM α) : Prop :=
  ∀ first, first.Idle program → PassM.AgreesFrom program first operation checked

theorem PassM.AgreesFrom.bind {first : State} {operation checked : PassM α} {next next' : α → PassM β}
    (agrees : PassM.AgreesFrom program first operation checked)
    (continues : ∀ value, PassM.Agrees program (next value) (next' value)) :
    PassM.AgreesFrom program first (operation >>= next) (checked >>= next') := by
  obtain ⟨same, leads⟩ := agrees
  unfold PassM.AgreesFrom
  rw [ExceptT.run_bind_eq, ExceptT.run_bind_eq, same]
  cases ran : operation.run first with
  | none => exact ⟨rfl, nofun⟩
  | some found =>
    obtain ⟨result, middle⟩ := found
    obtain ⟨idle, explained⟩ := leads result middle ran
    cases result with
    | error fault =>
      refine ⟨rfl, fun result last ended => ?_⟩
      cases ended
      exact ⟨idle, fun other chain failed => explained other chain (by cases failed; rfl)⟩
    | ok value => exact continues value middle idle

theorem PassM.AgreesFrom.around {first : State} {operation checked : PassM α}
    (agrees : PassM.AgreesFrom program first operation checked) (accepts : check.Accepts program.Sound) (part : Part)
    (starts : program.Sound (.starts part) first)
    (ends : ∀ last, last.Idle program → program.Sound (.ends part) last) :
    PassM.AgreesFrom program first operation (ExceptT.mk (check.around part checked.run)) := by
  obtain ⟨same, leads⟩ := agrees
  refine ⟨(Check.around_eq (accepts _ _ starts) fun result last ran => ?_).trans same, leads⟩
  exact accepts _ _ (ends last (leads result last (same ▸ ran)).1)

namespace PassM.Agrees

theorem of_tracks {operation checked : PassM α} {post : α → Registry → Prop}
    {asks : Registry → ConstantKey → Prop} (ensures : Ensures program (fun _ => True) operation post)
    (tracks : Tracks program Fault.chain? (fun _ => True) asks operation checked) :
    PassM.Agrees program operation checked := by
  intro first idle
  obtain ⟨same, kept⟩ := tracks first idle.consistent idle.tracked (fun _ _ => trivial)
    (State.permits_of_empty idle.empty)
  refine ⟨same, fun result last ran => ?_⟩
  have ends := ensures first result last idle.consistent (fun _ _ => trivial) ran
  have there := kept result last ran
  exact ⟨⟨ends.consistent, there.tracked, there.stack.trans idle.empty⟩, there.explains⟩

theorem ofResult {result : Except Fault α} (plain : ∀ fault, result = .error fault → fault.chain? = none) :
    PassM.Agrees program (PassM.ofResult result) (PassM.ofResult result) := by
  refine fun first idle => ⟨rfl, fun found last ran => ?_⟩
  cases ran
  refine ⟨idle, fun fault chain same reports => ?_⟩
  rw [plain fault same] at reports
  cases reports

theorem reads {read : State → Except Fault α}
    (plain : ∀ state fault, read state = .error fault → fault.chain? = none) :
    PassM.Agrees program (PassM.ofState fun state => (read state, state))
      (PassM.ofState fun state => (read state, state)) := by
  refine fun first idle => ⟨rfl, fun found last ran => ?_⟩
  cases ran
  refine ⟨idle, fun fault chain same reports => ?_⟩
  rw [plain first fault same] at reports
  cases reports

theorem pure (value : α) : PassM.Agrees program (Pure.pure value) (Pure.pure value) := ofResult nofun

theorem bind {operation checked : PassM α} {next next' : α → PassM β}
    (agrees : PassM.Agrees program operation checked)
    (continues : ∀ value, PassM.Agrees program (next value) (next' value)) :
    PassM.Agrees program (operation >>= next) (checked >>= next') :=
  fun first idle => (agrees first idle).bind continues

theorem mapM {items : List α} {each each' : α → PassM β}
    (agrees : ∀ item, PassM.Agrees program (each item) (each' item)) :
    PassM.Agrees program (items.mapM each) (items.mapM each') := by
  induction items with
  | nil => exact pure []
  | cons first rest ih =>
    rw [List.mapM_cons, List.mapM_cons]
    exact (agrees first).bind fun _ => ih.bind fun _ => pure _

/-- An item is worked on while nothing is under evaluation. -/
theorem item {operation checked : PassM α} (agrees : PassM.Agrees program operation checked)
    (accepts : check.Accepts program.Sound) :
    PassM.Agrees program operation (ExceptT.mk (check.around .item checked.run)) :=
  fun first idle => (agrees first idle).around accepts .item ⟨idle.tracked, idle.empty⟩
    fun _ ended => ⟨ended.tracked, ended.empty⟩

end PassM.Agrees

namespace Program

variable {lookup checked : Lookup} {context : Context}

theorem lowerReference_agrees (faithful : lookup.Faithful program) (tracks : lookup.Tracks program checked)
    (reference : Reference) :
    PassM.Agrees program (program.lowerReference lookup context reference)
      (program.lowerReference checked context reference) := by
  unfold lowerReference
  refine .bind (.of_tracks (target_ensures faithful reference) (target_tracks faithful tracks reference))
    fun target => ?_
  cases target with
  | instantiated package target =>
    exact .bind (.ofResult fun _ refused => (Package.plain_of_checkMember refused).chain) fun _ => .pure _
  | plain package =>
    exact .bind (.ofResult fun _ refused => (Package.plain_of_checkMember refused).chain) fun _ => .pure _
  | unknown => exact .pure _

theorem relates_agrees (faithful : lookup.Faithful program) (tracks : lookup.Tracks program checked) :
    program.Relates (fun _ operations => PassM.Agrees program (operations false) (operations true))
      (cond · checked lookup) context where
  pure := .pure
  bind := .bind
  direct := lowerReference_agrees faithful tracks
  size size _ := .of_tracks ((evalSize_ensures faithful size).adapt _)
    ((evalSize_tracks faithful tracks size).adapt fun stop => (Stop.reports_toFault _ _ stop).1)
  encoding value _ := .of_tracks ((eval_ensures faithful value).adapt _)
    ((eval_tracks faithful tracks value).adapt fun stop => (Stop.reports_toFault _ _ stop).1)
  constant _ _ := .of_tracks (faithful _ _) (tracks _ _)

theorem specializeBody_agrees (accepts : check.Accepts program.Sound) (faithful : lookup.Faithful program)
    (tracks : lookup.Tracks program checked) (package : Package) (target : Instance) :
    PassM.Agrees program (program.specializeBody lookup package target)
      (program.checkedBody check checked package target) := by
  unfold specializeBody checkedBody
  refine .bind (.reads fun _ _ refused => (plain_of_evaluator refused).chain) fun _ => ?_
  refine .bind (.mapM fun entry => ?_) fun _ => .pure _
  exact PassM.Agrees.item (specializeItem_related (relates_agrees faithful tracks) entry.1) accepts

end Program
end Monomorph
