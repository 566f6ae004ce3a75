import Monomorph.Proofs.Locality.Lowering
import Monomorph.Proofs.Pass.Agreement
import Monomorph.Proofs.Pass.Unit

/-! The pass over descriptions of a program, in the program and in a wider one.

What waits in the queue of a consistent state is a package of the program. So work on
instances is the same in both programs from every such state, and with it the lowering
of every description of the program, after which nothing waits.
-/

set_option autoImplicit false

namespace Monomorph

variable {α : Type} {program wider : Program} {lookup wide : Lookup}

/-- A state between two items of plain text: nothing waits. -/
structure State.Drained (program : Program) (state : State) : Prop extends state.Settled program where
  queue : state.queue = []

namespace Program

theorem Mirrors.run_specialized_eq (mirrors : program.Mirrors lookup wider wide) (faithful : lookup.Faithful program)
    {drain other : PassM Unit}
    (drains : ∀ first, first.Consistent program → other.run first = drain.run first) {pending : Pending}
    (declared : program.package? pending.package.name = some pending.package) {first : State}
    (consistent : first.Consistent program) :
    (wider.specialized wide other pending).run first = (program.specialized lookup drain pending).run first := by
  have builds := mirrors.specializeBody_eq declared pending.id
  apply ExceptT.run_bind_congr (congrFun builds first)
  intro body middle built
  have ends := specializeBody_ensures faithful _ _ first _ middle consistent (fun _ _ => trivial) built
  exact ExceptT.run_bind_congr (drains middle ends.consistent) fun _ _ _ => rfl

theorem Mirrors.run_specialize_eq (mirrors : program.Mirrors lookup wider wide) (faithful : lookup.Faithful program)
    {drain other : Nat → PassM Unit}
    (drains : ∀ mark first, first.Consistent program → (other mark).run first = (drain mark).run first)
    {state : State} {position : Nat} {pending : Pending} (consistent : state.Consistent program)
    (next : state.queue[position]? = some pending) :
    (wider.specialize wide other pending).run (state.take position)
      = (program.specialize lookup drain pending).run (state.take position) := by
  have declared := generic?_eq_some (consistent.queued pending (List.mem_of_getElem? next))
  have begun := State.consistent_begin consistent next
  unfold specialize
  rw [PassM.run_get_bind, PassM.run_set_bind, PassM.run_get_bind, PassM.run_set_bind]
  exact PassM.run_bracket_congr (mirrors.run_specialized_eq faithful (drains _) declared begun)

theorem Within.run_drainFrom_eq (within : program.Within wider) (budget mark : Nat) {first : State}
    (consistent : first.Consistent program) :
    (wider.drainFrom budget mark).run first = (program.drainFrom budget mark).run first := by
  induction budget generalizing mark first with
  | zero => simp only [drainFrom]
  | succ budget ih =>
    have faithful := Lookup.faithful_ofBudget program budget
    unfold drainFrom
    rw [PassM.run_get_bind, PassM.run_get_bind]
    cases next : first.queue[mark]? with
    | none =>
      -- by reduction of each side alone; `rfl` would compare the branches that are not taken
      dsimp only
    | some pending =>
      have works := (within.mirrors budget).run_specialize_eq faithful (fun mark _ => ih mark) consistent next
      rw [PassM.run_set_bind, PassM.run_set_bind]
      apply ExceptT.run_bind_congr works
      intro _ middle worked
      have ends := specialize_ends faithful (drainFrom_ensures program budget) consistent next worked
      exact ih mark ends.consistent

theorem Within.run_drain_eq (within : program.Within wider) (budget : Nat) {first : State}
    (consistent : first.Consistent program) : (wider.drain budget).run first = (program.drain budget).run first := by
  induction budget generalizing first with
  | zero => simp only [drain]
  | succ budget ih =>
    have faithful := Lookup.faithful_ofBudget program budget
    unfold drain
    rw [Machine.run_get_bind, Machine.run_get_bind]
    cases queue : first.queue with
    | nil => dsimp only
    | cons pending waiting =>
      have next : first.queue[0]? = some pending := by
        rw [queue]
        rfl
      have works := (within.mirrors budget).run_specialize_eq faithful
        (fun mark _ => within.run_drainFrom_eq budget mark) consistent next
      rw [Machine.run_set_bind, Machine.run_set_bind]
      apply Machine.run_bind_congr works
      intro result middle worked
      have ends := specialize_ends faithful (drainFrom_ensures program budget) consistent next worked
      cases result with
      | ok _ => exact ih ends.consistent
      | error fault => exact ih (State.consistent_record ends.consistent fault)

theorem Within.lowerOne_agrees (within : program.Within wider) (budget : Nat) {lower : PassM α}
    {post : α → Registry → Prop} (ensures : Ensures program (fun _ => True) lower post) :
    Machine.Agrees (State.Drained program) (program.lowerOne budget lower) (wider.lowerOne budget lower) := by
  intro first drained
  unfold lowerOne
  constructor
  · apply Machine.run_bind_congr rfl
    intro kept middle ran
    obtain ⟨_, settled, _⟩ := PassM.kept_ensures ensures first kept middle drained.toSettled ran
    exact Machine.run_bind_congr (within.run_drain_eq budget settled.consistent) fun _ _ _ => rfl
  · intro value last ran
    obtain ⟨kept, middle, ran, rest⟩ := Machine.run_bind_eq_some ran
    obtain ⟨_, settled, _⟩ := PassM.kept_ensures ensures first kept middle drained.toSettled ran
    obtain ⟨_, ended, ran, rest⟩ := Machine.run_bind_eq_some rest
    obtain ⟨_, settled, empty⟩ := drain_settles program budget settled ran
    cases rest
    exact ⟨settled, empty⟩

theorem exists_package?_of_mem {decl : Package} (member : .package decl ∈ program.descriptions) :
    ∃ found, program.package? decl.name = some found := by
  apply Option.isSome_iff_exists.mp
  apply List.findSome?_isSome_iff.mpr
  exact ⟨_, member, by simp⟩

theorem exists_module?_of_mem {decl : Module} (member : .module decl ∈ program.descriptions) :
    ∃ found, program.module? decl.name = some found := by
  apply Option.isSome_iff_exists.mp
  apply List.findSome?_isSome_iff.mpr
  exact ⟨_, member, by simp⟩

theorem Within.plainContext_eq (within : program.Within wider) (scope : Scope) (length : Nat) (span : Span)
    (position : Nat) (decl : Option ConstDecl) :
    wider.plainContext scope length span position decl = program.plainContext scope length span position decl := by
  simp only [plainContext, within.emptyEvaluator_eq]

theorem Within.lowerPackage_agrees (within : program.Within wider) (budget : Nat) {decl : Package}
    (member : .package decl ∈ program.descriptions) :
    Machine.Agrees (State.Drained program) (program.lowerPackage budget decl) (wider.lowerPackage budget decl) := by
  obtain ⟨found, declared⟩ := exists_package?_of_mem member
  apply Machine.Agrees.bind
  · apply Machine.Agrees.filterMapM
    intro entry there
    have covers : program.Covers (program.plainContext (.package decl.name) decl.items.length decl.span entry.2
        entry.1.const?).scope := by
      rw [scope_plainContext]
      exact .package declared
    have visible : ∀ reference ∈ entry.1.references, reference.Visible program wider := fun reference listed =>
      within.visible _ member reference (Package.mem_references (List.fst_mem_of_mem_zipIdx there) listed)
    simp only [within.plainContext_eq, (within.mirrors budget).lowerPackageItem_eq covers entry.1 visible]
    exact within.lowerOne_agrees budget (lowerPackageItem_ensures (Lookup.faithful_ofBudget program budget) entry.1)
  · exact fun _ => .pure _

theorem Within.lowerModule_agrees (within : program.Within wider) (budget : Nat) {decl : Module}
    (member : .module decl ∈ program.descriptions) :
    Machine.Agrees (State.Drained program) (program.lowerModule budget decl) (wider.lowerModule budget decl) := by
  obtain ⟨found, declared⟩ := exists_module?_of_mem member
  apply Machine.Agrees.bind
  · apply Machine.Agrees.filterMapM
    intro entry there
    have covers : program.Covers (program.plainContext (.module decl.name) decl.items.length decl.span entry.2
        entry.1.const?).scope := by
      rw [scope_plainContext]
      exact .module declared
    have visible : ∀ reference ∈ entry.1.references, reference.Visible program wider := fun reference listed =>
      within.visible _ member reference (List.mem_flatMap.mpr ⟨_, List.fst_mem_of_mem_zipIdx there, listed⟩)
    simp only [within.plainContext_eq, (within.mirrors budget).lowerModuleItem_eq covers entry.1 visible]
    exact within.lowerOne_agrees budget (lowerModuleItem_ensures (Lookup.faithful_ofBudget program budget) entry.1)
  · exact fun _ => .pure _

theorem Within.lowerDescription_agrees (within : program.Within wider) (budget : Nat) {description : Description}
    (member : description ∈ program.descriptions) :
    Machine.Agrees (State.Drained program) (program.lowerDescription budget description)
      (wider.lowerDescription budget description) := by
  cases description with
  | package decl =>
    unfold lowerDescription
    simp only
    split
    · exact .pure _
    · exact (within.lowerPackage_agrees budget member).bind fun _ => .pure _
  | module decl => exact (within.lowerModule_agrees budget member).bind fun _ => .pure _

/-- The pass over the descriptions of a program, in the program and in a wider one. -/
theorem Within.lowerDescriptions_agrees (within : program.Within wider) (budget : Nat) :
    Machine.Agrees (State.Drained program) (program.descriptions.filterMapM (program.lowerDescription budget))
      (program.descriptions.filterMapM (wider.lowerDescription budget)) :=
  .filterMapM fun _ member => within.lowerDescription_agrees budget member

end Program
end Monomorph
