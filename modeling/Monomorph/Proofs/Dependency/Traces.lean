import Monomorph.Proofs.Dependency.Uses
import Monomorph.Proofs.Pass.History

/-! Which instances an operation asks for.

Besides what `Ensures` says, an operation that evaluates or lowers keeps the history
of instances coherent and only adds to it. If it ends with a result, every instance
that has got a number on the way is reached from what the operation refers to: the
numbers are asked for along uses.
-/

set_option autoImplicit false

namespace Monomorph

variable {ε δ α β : Type}

theorem ExceptT.run_map_of_run {operation : ExceptT ε Machine α} {first last : State} {result : Except ε α}
    (next : α → β) (ran : operation.run first = some (result, last)) :
    (next <$> operation).run first = some (result.map next, last) := by
  show ((next <$> operation).run).run first = _
  rw [ExceptT.run_map]
  show (operation.run first).bind (fun found => some (found.1.map next, found.2)) = _
  rw [ran]
  rfl

/-- Every instance with a new number is reached by uses from what is referred to. -/
def State.Introduces (program : Program) (first last : State) (uses : Registry → Instance → Prop) : Prop :=
  last.Holds fun registry => ∀ target, last.registry.Knows target → ¬ first.registry.Knows target →
    ∃ root, uses registry root ∧ Relation.ReflTransGen (program.Uses registry) root target

structure Traced (program : Program) (first : State) (result : Except ε α) (last : State)
    (uses : Registry → Instance → Prop) : Prop where
  coherent : last.Coherent
  grows : first.Grows result.isOk last
  introduces : result.isOk = true → first.Introduces program last uses

def Traces (program : Program) (pre : Registry → Prop) (operation : ExceptT ε Machine α)
    (uses : Registry → Instance → Prop) : Prop :=
  ∀ first result last, first.Consistent program → first.Coherent → first.Holds pre →
    operation.run first = some (result, last) → Traced program first result last uses

theorem Traced.unchanged {program : Program} {state : State} {uses : Registry → Instance → Prop}
    (coherent : state.Coherent) (result : Except ε α) : Traced program state result state uses where
  coherent := coherent
  grows := .refl _ state
  introduces _ _ _ _ known unknown := absurd known unknown

theorem Traced.congr {program : Program} {first last : State} {uses : Registry → Instance → Prop}
    {result : Except ε α} {other : Except δ β} (traced : Traced program first result last uses)
    (same : other.isOk = result.isOk) : Traced program first other last uses where
  coherent := traced.coherent
  grows := same ▸ traced.grows
  introduces ended := traced.introduces (same ▸ ended)

namespace Traces

variable {program : Program} {pre : Registry → Prop} {post : α → Registry → Prop}
  {uses : Registry → Instance → Prop} {operation : ExceptT ε Machine α}

theorem unchanged (result : Except ε α) : Traces program pre (ExceptT.mk (Pure.pure result)) uses := by
  intro first found last _ coherent _ ran
  cases ran
  exact .unchanged coherent result

theorem pure (value : α) : Traces program pre (Pure.pure value : ExceptT ε Machine α) uses :=
  unchanged (Except.ok value)

theorem throws (error : ε) : Traces program pre (throw error : ExceptT ε Machine α) uses :=
  unchanged (Except.error error)

theorem ofResult (result : Except Fault α) : Traces program pre (PassM.ofResult result) uses :=
  unchanged result

theorem ofExcept (result : Except ε α) :
    Traces program pre (MonadExcept.ofExcept result : ExceptT ε Machine α) uses := by
  cases result with
  | ok value => exact pure value
  | error error => exact throws error

theorem exhausted : Traces program pre (ExceptT.lift Machine.exhausted : ExceptT ε Machine α) uses := by
  intro first result last _ _ _ ran
  cases ran

theorem reads (read : State → Except Fault α) :
    Traces program pre (PassM.ofState fun state => (read state, state)) uses := by
  intro first result last _ coherent _ ran
  cases ran
  exact .unchanged coherent _

theorem weaken {stronger : Registry → Prop} {others : Registry → Instance → Prop}
    (traces : Traces program pre operation uses) (before : ∀ registry, stronger registry → pre registry)
    (after : ∀ registry used, stronger registry → uses registry used →
      ∃ root, others registry root ∧ Relation.ReflTransGen (program.Uses registry) root used) :
    Traces program stronger operation others := by
  intro first result last consistent coherent holds ran
  have traced := traces first result last consistent coherent
    (fun registry grows => before _ (holds registry grows)) ran
  refine ⟨traced.coherent, traced.grows, fun ended registry grows target known unknown => ?_⟩
  obtain ⟨used, referred, reached⟩ := traced.introduces ended registry grows target known unknown
  have assumed := holds registry (traced.grows.registry.trans grows)
  obtain ⟨root, traced, further⟩ := after registry used assumed referred
  exact ⟨root, traced, further.trans reached⟩

theorem imp {others : Registry → Instance → Prop} (traces : Traces program pre operation uses)
    (after : ∀ registry used, pre registry → uses registry used → others registry used) :
    Traces program pre operation others :=
  traces.weaken (fun _ holds => holds) fun registry used holds referred =>
    ⟨used, after registry used holds referred, .refl⟩

theorem bind {next : α → ExceptT ε Machine β} (ensures : Ensures program pre operation post)
    (traces : Traces program pre operation uses)
    (continues : ∀ value, Traces program (fun registry => pre registry ∧ post value registry) (next value) uses) :
    Traces program pre (operation >>= next) uses := by
  intro first result last consistent coherent holds ran
  rcases ExceptT.run_bind_eq_some ran with ⟨error, stopped, failed⟩ | ⟨value, middle, stepped, ran⟩
  · subst failed
    exact (traces first _ last consistent coherent holds stopped).congr rfl
  · have ends := ensures first _ middle consistent holds stepped
    have traced := traces first _ middle consistent coherent holds stepped
    have known : middle.Holds fun registry => pre registry ∧ post value registry := fun registry grows =>
      ⟨holds.later ends.leads.registry registry grows, ends.holds value rfl registry grows⟩
    have rest := continues value middle result last ends.consistent traced.coherent known ran
    refine ⟨rest.coherent, traced.grows.trans rest.grows, fun ended registry grows target found unknown => ?_⟩
    -- a new number was given out in the first step or in the rest
    by_cases already : middle.registry.Knows target
    · exact traced.introduces rfl registry (rest.grows.registry.trans grows) target already unknown
    · exact rest.introduces ended registry grows target found already

theorem of_map {next : α → β} (traces : Traces program pre (next <$> operation) uses) :
    Traces program pre operation uses := by
  intro first result last consistent coherent holds ran
  refine (traces first _ last consistent coherent holds (ExceptT.run_map_of_run next ran)).congr ?_
  cases result <;> rfl

theorem thenPure {next : α → β} (traces : Traces program pre operation uses) :
    Traces program pre (operation >>= fun value => Pure.pure (next value)) uses := by
  intro first result last consistent coherent holds ran
  rcases ExceptT.run_bind_eq_some ran with ⟨error, stopped, failed⟩ | ⟨value, middle, stepped, ran⟩
  · subst failed
    exact (traces first _ last consistent coherent holds stopped).congr rfl
  · cases ran
    exact (traces first _ last consistent coherent holds stepped).congr rfl

theorem adapt (traces : Traces program pre operation uses) (wrap : ε → δ) :
    Traces program pre (operation.adapt wrap) uses := by
  intro first result last consistent coherent holds ran
  replace ran : (operation.run first).bind (fun found => some (found.1.mapError wrap, found.2))
      = some (result, last) := ran
  obtain ⟨⟨found, reached⟩, stepped, ran⟩ := Option.bind_eq_some_iff.mp ran
  cases ran
  refine (traces first found reached consistent coherent holds stepped).congr ?_
  cases found <;> rfl

theorem mapM {items : List α} {each : α → ExceptT ε Machine β} {related : α → β → Registry → Prop}
    (ensures : ∀ item ∈ items, Ensures program pre (each item) (related item))
    (traces : ∀ item ∈ items, Traces program pre (each item) uses) :
    Traces program pre (items.mapM each) uses := by
  induction items with
  | nil => exact pure []
  | cons first rest ih =>
    rw [List.mapM_cons]
    apply bind (ensures first List.mem_cons_self) (traces first List.mem_cons_self)
    intro value
    apply thenPure
    have remaining := ih (fun item member => ensures item (List.mem_cons_of_mem first member))
      (fun item member => traces item (List.mem_cons_of_mem first member))
    exact remaining.weaken (fun _ known => known.1) fun _ used _ referred => ⟨used, referred, .refl⟩

end Traces

theorem Ensures.of_map {program : Program} {pre : Registry → Prop} {operation : ExceptT ε Machine α} {next : α → β}
    {post : β → Registry → Prop} (ensures : Ensures program pre (next <$> operation) post) :
    Ensures program pre operation fun value => post (next value) := by
  intro first result last consistent holds ran
  have ends := ensures first _ last consistent holds (ExceptT.run_map_of_run next ran)
  cases result with
  | error error => exact .stopped ends.leads ends.consistent
  | ok value =>
    refine ⟨ends.leads, ends.consistent, fun _ _ => ends.clean _ rfl, fun other same => ?_⟩
    cases same
    exact ends.holds _ rfl

/-- A result has a property in the state that the operation ends in. -/
def Provides (program : Program) (pre : Registry → Prop) (operation : ExceptT ε Machine α)
    (post : α → State → Prop) : Prop :=
  ∀ first value last, first.Consistent program → first.Coherent → first.Holds pre →
    operation.run first = some (.ok value, last) → post value last

namespace Provides

variable {program : Program} {pre : Registry → Prop} {uses : Registry → Instance → Prop}

theorem bind {operation : ExceptT ε Machine α} {next : α → ExceptT ε Machine β} {post : α → Registry → Prop}
    {last : β → State → Prop} (ensures : Ensures program pre operation post)
    (traces : Traces program pre operation uses)
    (continues : ∀ value, Provides program (fun registry => pre registry ∧ post value registry) (next value) last) :
    Provides program pre (operation >>= next) last := by
  intro first result final consistent coherent holds ran
  rcases ExceptT.run_bind_eq_some ran with ⟨error, _, failed⟩ | ⟨value, middle, stepped, ran⟩
  · cases failed
  · have ends := ensures first _ middle consistent holds stepped
    have traced := traces first _ middle consistent coherent holds stepped
    exact continues value middle result final ends.consistent traced.coherent
      (fun registry grows => ⟨holds.later ends.leads.registry registry grows, ends.holds value rfl registry grows⟩) ran

theorem of_map {operation : ExceptT ε Machine α} {next : α → β} {post : β → State → Prop}
    (provides : Provides program pre (next <$> operation) post) :
    Provides program pre operation fun value => post (next value) :=
  fun first value last consistent coherent holds ran =>
    provides first (next value) last consistent coherent holds (ExceptT.run_map_of_run next ran)

theorem thenPure {operation : ExceptT ε Machine α} {next : α → β} {post : β → State → Prop}
    (provides : Provides program pre operation fun value => post (next value)) :
    Provides program pre (operation >>= fun value => Pure.pure (next value)) post := by
  intro first result last consistent coherent holds ran
  rcases ExceptT.run_bind_eq_some ran with ⟨error, _, failed⟩ | ⟨value, middle, stepped, ran⟩
  · cases failed
  · cases ran
    exact provides first value last consistent coherent holds stepped

theorem mapM {items : List α} {each : α → ExceptT ε Machine β} {related : α → β → Registry → Prop}
    {asked : α → Registry → Instance → Prop} {post : α → β → State → Prop}
    (stable : ∀ item value first last, first.Continues true last → post item value first → post item value last)
    (ensures : ∀ item ∈ items, Ensures program pre (each item) (related item))
    (traces : ∀ item ∈ items, Traces program pre (each item) (asked item))
    (provides : ∀ item ∈ items, Provides program pre (each item) (post item)) :
    Provides program pre (items.mapM each) fun values state =>
      List.Forall₂ (fun item value => post item value state) items values := by
  induction items with
  | nil =>
    intro first values last _ _ _ ran
    cases ran
    exact .nil
  | cons head rest ih =>
    intro first values last consistent coherent holds ran
    rw [List.mapM_cons] at ran
    have here : head ∈ head :: rest := List.mem_cons_self
    have further {item : α} (member : item ∈ rest) : item ∈ head :: rest := List.mem_cons_of_mem head member
    rcases ExceptT.run_bind_eq_some ran with ⟨error, _, failed⟩ | ⟨value, middle, stepped, ran⟩
    · cases failed
    rcases ExceptT.run_bind_eq_some ran with ⟨error, _, failed⟩ | ⟨others, final, walked, ran⟩
    · cases failed
    cases ran
    have ends := ensures head here first _ middle consistent holds stepped
    have traced := traces head here first _ middle consistent coherent holds stepped
    have later := holds.later ends.leads.registry
    have remaining : Traces program pre (rest.mapM each) fun _ _ => True :=
      .mapM (fun item member => ensures item (further member))
        fun item member => (traces item (further member)).imp fun _ _ _ _ => trivial
    have continues := (remaining middle _ last ends.consistent traced.coherent later walked).grows.toContinues
    constructor
    · exact stable head value middle last continues
        (provides head here first value middle consistent coherent holds stepped)
    · exact ih (fun item member => ensures item (further member)) (fun item member => traces item (further member))
        (fun item member => provides item (further member)) middle others last ends.consistent traced.coherent
        later walked

end Provides
end Monomorph
