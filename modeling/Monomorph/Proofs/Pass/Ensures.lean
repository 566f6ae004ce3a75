import Monomorph.Proofs.Pass.Consistency

/-! Triples for operations of the pass.

Assertions are about the registry, and hold of everything that it may grow to. From
a consistent state an operation leads to a consistent state, whether it stops with
an error or not; a result that it gives has the property that the triple names. The
rules below follow the ways in which operations are put together.
-/

set_option autoImplicit false

namespace Monomorph

variable {ε δ α β : Type}

theorem ExceptT.run_bind_eq_some {operation : ExceptT ε Machine α} {next : α → ExceptT ε Machine β}
    {first last : State} {result : Except ε β}
    (ran : (operation >>= next).run first = some (result, last)) :
    (∃ error, operation.run first = some (.error error, last) ∧ result = .error error) ∨
      ∃ value middle, operation.run first = some (.ok value, middle) ∧
        (next value).run middle = some (result, last) := by
  replace ran : (operation.run first).bind
      (fun found => ExceptT.bindCont next found.1 found.2) = some (result, last) := ran
  obtain ⟨⟨found, middle⟩, stepped, ran⟩ := Option.bind_eq_some_iff.mp ran
  cases found with
  | error error =>
    cases ran
    exact .inl ⟨error, stepped, rfl⟩
  | ok value => exact .inr ⟨value, middle, stepped, ran⟩

theorem PassM.run_get_bind (next : State → PassM α) (first : State) :
    (do let state ← get; next state : PassM α).run first = (next first).run first := rfl

theorem PassM.run_set_bind (next : PassM α) (first state : State) :
    (do set state; next : PassM α).run first = next.run state := rfl

/-- An operation whose outcome, a fault included, is noted in the state before it is passed on. -/
theorem PassM.run_bracket {operation : PassM α} {close : Except Fault α → State → State}
    {answer : Except Fault α → Except Fault β} {first last : State} {result : Except Fault β}
    (ran : (do
      let outcome ← operation.attempt
      modify (close outcome)
      PassM.ofResult (answer outcome) : PassM β).run first = some (result, last)) :
    ∃ outcome middle, operation.run first = some (outcome, middle) ∧
      result = answer outcome ∧ last = close outcome middle := by
  rcases ExceptT.run_bind_eq_some ran with ⟨error, stopped, _⟩ | ⟨outcome, middle, stepped, ran⟩
  · -- an attempt does not stop
    replace stopped : (operation.run first).bind (fun found => some (Except.ok found.1, found.2))
        = some (Except.error error, last) := stopped
    obtain ⟨_, _, impossible⟩ := Option.bind_eq_some_iff.mp stopped
    cases impossible
  · replace stepped : (operation.run first).bind (fun found => some (Except.ok found.1, found.2))
        = some (Except.ok outcome, middle) := stepped
    obtain ⟨⟨found, reached⟩, found_eq, same⟩ := Option.bind_eq_some_iff.mp stepped
    cases same
    cases ran
    exact ⟨found, reached, found_eq, rfl, rfl⟩

/-- How an operation ends: a result has a property in every registry from there on. -/
structure Ends (program : Program) (first : State) (result : Except ε α) (last : State)
    (post : α → Registry → Prop) : Prop where
  leads : first.Leads last
  consistent : last.Consistent program
  clean : ∀ value, result = .ok value → first.Clean → last.Clean
  holds : ∀ value, result = .ok value → last.Holds (post value)

theorem Ends.stopped {program : Program} {first last : State} {post : α → Registry → Prop} {error : ε}
    (leads : first.Leads last) (consistent : last.Consistent program) :
    Ends program first (.error error) last post where
  leads := leads
  consistent := consistent
  clean value found := by cases found
  holds value found := by cases found

def Ensures (program : Program) (pre : Registry → Prop) (operation : ExceptT ε Machine α)
    (post : α → Registry → Prop) : Prop :=
  ∀ first result last, first.Consistent program → first.Holds pre →
    operation.run first = some (result, last) → Ends program first result last post

namespace Ensures

variable {program : Program} {pre : Registry → Prop} {post : α → Registry → Prop}
  {last : β → Registry → Prop} {operation : ExceptT ε Machine α}

theorem weaken {stronger : Registry → Prop} {weaker : α → Registry → Prop}
    (ensures : Ensures program pre operation post)
    (before : ∀ registry, stronger registry → pre registry)
    (after : ∀ value registry, stronger registry → post value registry → weaker value registry) :
    Ensures program stronger operation weaker := by
  intro first result final consistent holds ran
  have ends := ensures first result final consistent (fun registry grows => before _ (holds registry grows)) ran
  refine ⟨ends.leads, ends.consistent, ends.clean, fun value found registry grows => ?_⟩
  exact after value registry (holds registry (ends.leads.registry.trans grows)) (ends.holds value found registry grows)

theorem imp {weaker : α → Registry → Prop} (ensures : Ensures program pre operation post)
    (after : ∀ value registry, pre registry → post value registry → weaker value registry) :
    Ensures program pre operation weaker :=
  ensures.weaken (fun _ holds => holds) after

theorem unchanged {result : Except ε α} (holds : ∀ value registry, result = .ok value → pre registry →
    post value registry) : Ensures program pre (ExceptT.mk (Pure.pure result)) post := by
  intro first found final consistent before ran
  cases ran
  exact ⟨.refl first, consistent, fun _ _ clean => clean,
    fun value found registry grows => holds value registry found (before registry grows)⟩

theorem pure {value : α} (holds : ∀ registry, pre registry → post value registry) :
    Ensures program pre (Pure.pure value : ExceptT ε Machine α) post := by
  show Ensures program pre (ExceptT.mk (Pure.pure (Except.ok value))) post
  apply unchanged
  intro found registry same before
  cases same
  exact holds registry before

theorem throws (error : ε) : Ensures program pre (throw error : ExceptT ε Machine α) post := by
  show Ensures program pre (ExceptT.mk (Pure.pure (Except.error error))) post
  apply unchanged
  intro value registry found
  cases found

theorem exhausted : Ensures program pre (ExceptT.lift Machine.exhausted : ExceptT ε Machine α) post := by
  intro first result final consistent holds ran
  cases ran

theorem ofResult {result : Except Fault α} {post : α → Registry → Prop}
    (holds : ∀ value registry, result = .ok value → pre registry → post value registry) :
    Ensures program pre (PassM.ofResult result) post :=
  unchanged holds

theorem ofExcept {result : Except ε α}
    (holds : ∀ value registry, result = .ok value → pre registry → post value registry) :
    Ensures program pre (MonadExcept.ofExcept result : ExceptT ε Machine α) post := by
  cases result with
  | ok value => exact pure fun registry before => holds value registry rfl before
  | error error => exact throws error

theorem bind {next : α → ExceptT ε Machine β} (ensures : Ensures program pre operation post)
    (continues : ∀ value, Ensures program (fun registry => pre registry ∧ post value registry) (next value) last) :
    Ensures program pre (operation >>= next) last := by
  intro first result final consistent before ran
  rcases ExceptT.run_bind_eq_some ran with ⟨error, stopped, failed⟩ | ⟨value, middle, stepped, ran⟩
  · have ends := ensures first _ final consistent before stopped
    subst failed
    exact .stopped ends.leads ends.consistent
  · have ends := ensures first _ middle consistent before stepped
    -- what was known before the first step is still known after it
    have known : middle.Holds fun registry => pre registry ∧ post value registry :=
      fun registry grows =>
        ⟨before.later ends.leads.registry registry grows, ends.holds value rfl registry grows⟩
    have rest := continues value middle result final ends.consistent known ran
    exact ⟨ends.leads.trans rest.leads, rest.consistent,
      fun found same clean => rest.clean found same (ends.clean value rfl clean), rest.holds⟩

theorem map {next : α → β} (ensures : Ensures program pre operation fun value => last (next value)) :
    Ensures program pre (next <$> operation) last := by
  rw [map_eq_pure_bind]
  exact ensures.bind fun _ => pure fun _ known => known.2

theorem adapt (ensures : Ensures program pre operation post) (wrap : ε → δ) :
    Ensures program pre (operation.adapt wrap) post := by
  intro first result final consistent before ran
  replace ran : (operation.run first).bind (fun found => some (found.1.mapError wrap, found.2))
      = some (result, final) := ran
  obtain ⟨⟨found, reached⟩, stepped, ran⟩ := Option.bind_eq_some_iff.mp ran
  cases ran
  have ends := ensures first found reached consistent before stepped
  cases found with
  | error error => exact .stopped ends.leads ends.consistent
  | ok value =>
    refine ⟨ends.leads, ends.consistent, fun _ _ => ends.clean value rfl, fun other same => ?_⟩
    cases same
    exact ends.holds value rfl

theorem reads {read : State → Except Fault α} {post : α → Registry → Prop}
    (holds : ∀ state value, state.Consistent program → state.Holds pre → read state = .ok value →
      state.Holds (post value)) :
    Ensures program pre (PassM.ofState fun state => (read state, state)) post := by
  intro first result final consistent before ran
  cases ran
  exact ⟨.refl first, consistent, fun _ _ clean => clean,
    fun value found => holds first value consistent before found⟩

theorem mapM {items : List α} {each : α → ExceptT ε Machine β} {related : α → β → Registry → Prop}
    (ensures : ∀ item ∈ items, Ensures program pre (each item) (related item)) :
    Ensures program pre (items.mapM each) fun results registry =>
      List.Forall₂ (fun item result => related item result registry) items results := by
  induction items with
  | nil => exact pure fun registry _ => .nil
  | cons first rest ih =>
    rw [List.mapM_cons]
    apply (ensures first List.mem_cons_self).bind
    intro value
    -- the rest starts where the first item ended, which knows more than the start did
    have remaining := ih fun item member => ensures item (List.mem_cons_of_mem first member)
    apply (remaining.weaken (fun _ known => known.1) fun _ _ _ holds => holds).bind
    intro values
    exact pure fun registry known => .cons known.1.2 known.2

end Ensures
end Monomorph
