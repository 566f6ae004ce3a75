import Monomorph.Proofs.Pass.Lowering

/-! Specialized packages are what their generic packages become.

An instance leaves the queue when work on it starts. When that work ends, it is
either finished or failed, and in between everything the pass does keeps the state
consistent.
-/

set_option autoImplicit false

namespace Monomorph

theorem mem_insertConstant {constants : List (String × Value)} {name : String} {value : Value}
    {entry : String × Value} (member : entry ∈ insertConstant constants name value) :
    entry ∈ constants ∨ entry = (name, value) := by
  induction constants with
  | nil => exact .inr (List.mem_singleton.mp member)
  | cons first rest ih =>
    obtain ⟨other, old⟩ := first
    unfold insertConstant at member
    split at member
    · rename_i same
      rcases List.mem_cons.mp member with here | later
      · exact .inr (here.trans (by rw [same]))
      · exact .inl (List.mem_cons_of_mem _ later)
    · rcases List.mem_cons.mp member with here | later
      · exact .inl (here ▸ List.mem_cons_self)
      · exact (ih later).imp (List.mem_cons_of_mem _) id

theorem mem_foldl_insertConstant {pairs constants : List (String × Value)} {entry : String × Value}
    (member : entry ∈ pairs.foldl (fun constants pair => insertConstant constants pair.1 pair.2) constants) :
    entry ∈ constants ∨ entry ∈ pairs := by
  induction pairs generalizing constants with
  | nil => exact .inl member
  | cons first rest ih =>
    rcases ih member with inserted | later
    · rcases mem_insertConstant inserted with old | new
      · exact .inl old
      · exact .inr (new ▸ List.mem_cons_self)
    · exact .inr (List.mem_cons_of_mem _ later)

theorem exists_mem_insertConstant {constants : List (String × Value)} {name other : String} {value : Value}
    (known : (∃ old, (other, old) ∈ constants) ∨ other = name) :
    ∃ found, (other, found) ∈ insertConstant constants name value := by
  induction constants with
  | nil =>
    rcases known with ⟨old, member⟩ | same
    · cases member
    · exact ⟨value, List.mem_singleton.mpr (by rw [same])⟩
  | cons first rest ih =>
    obtain ⟨here, old⟩ := first
    unfold insertConstant
    split
    · rename_i same
      -- an entry under this name is replaced, but the name stays
      rcases known with ⟨found, member⟩ | again
      · rcases List.mem_cons.mp member with head | later
        · cases head
          exact ⟨value, List.mem_cons_self⟩
        · exact ⟨found, List.mem_cons_of_mem _ later⟩
      · exact ⟨value, by rw [again, same]; exact List.mem_cons_self⟩
    · rcases known with ⟨found, member⟩ | again
      · rcases List.mem_cons.mp member with head | later
        · cases head
          exact ⟨old, List.mem_cons_self⟩
        · obtain ⟨kept, there⟩ := ih (.inl ⟨found, later⟩)
          exact ⟨kept, List.mem_cons_of_mem _ there⟩
      · obtain ⟨kept, there⟩ := ih (.inr again)
        exact ⟨kept, List.mem_cons_of_mem _ there⟩

theorem exists_mem_foldl_insertConstant {pairs constants : List (String × Value)} {name : String}
    (known : (∃ old, (name, old) ∈ constants) ∨ ∃ value, (name, value) ∈ pairs) :
    ∃ found, (name, found) ∈
      pairs.foldl (fun constants pair => insertConstant constants pair.1 pair.2) constants := by
  induction pairs generalizing constants with
  | nil =>
    rcases known with old | ⟨value, member⟩
    · exact old
    · cases member
  | cons first rest ih =>
    apply ih
    rcases known with old | ⟨value, member⟩
    · exact .inl (exists_mem_insertConstant (.inl old))
    · rcases List.mem_cons.mp member with here | later
      · exact .inl (exists_mem_insertConstant (.inr (congrArg Prod.fst here)))
      · exact .inr ⟨value, later⟩

namespace Program

variable {program : Program} {lookup : Lookup}

structure Yields (program : Program) (registry : Registry) (context : Context) (item : PackageItem)
    (result : PackageItem × Option (String × Value)) : Prop where
  specializes : program.ItemSpecializes registry context item result.1
  answers : ∀ name value, result.2 = some (name, value) →
    program.ConstantValue registry .value context.scope name value
  adds : ∀ decl, item = .const decl → ∃ value, result.2 = some (decl.name, value)

theorem specializeItem_ensures (faithful : lookup.Faithful program) {pre : Registry → Prop}
    (context : Context) (item : PackageItem) :
    Ensures program pre (program.specializeItem lookup context item) fun result registry =>
      program.Yields registry context item result := by
  -- every item but a constant is lowered as in plain text
  have other (notConst : item.const? = none) :
      Ensures program pre (do
          let item ← program.lowerPackageItem lookup context item
          pure (item, none)) fun result registry => program.Yields registry context item result := by
    apply (lowerPackageItem_ensures faithful item).bind
    intro lowered
    apply Ensures.pure
    rintro registry ⟨_, rewrites⟩
    refine ⟨.item notConst rewrites, fun name value impossible => ?_, fun decl same => ?_⟩
    · cases impossible
    · rw [same] at notConst
      cases notConst
  cases item with
  | const decl =>
    rw [specializeItem]
    apply (faithful pre (.constant context.scope decl.name decl.span)).bind
    intro value
    apply (lowerType?_ensures faithful decl.type).bind
    intro type
    apply Ensures.pure
    rintro registry ⟨⟨_, answered⟩, lowered⟩
    refine ⟨.const answered lowered, fun name found same => ?_, fun other same => ?_⟩
    · cases same
      exact answered
    · cases same
      exact ⟨value, rfl⟩
  | typeDef name type => exact other rfl
  | struct name kind fields => exact other rfl
  | enum name base variants => exact other rfl
  | function decl => exact other rfl

theorem specializeBody_ensures (faithful : lookup.Faithful program) {pre : Registry → Prop}
    (package : Package) (target : Instance) :
    Ensures program pre (program.specializeBody lookup package target) fun body registry =>
      (∀ name value, (name, value) ∈ body.1 →
        program.ConstantValue registry .value (.instantiated target) name value) ∧
      (∀ decl, PackageItem.const decl ∈ package.items → ∃ value, (decl.name, value) ∈ body.1) ∧
      ∃ evaluator, program.evaluator registry (.instantiated target) = .ok evaluator ∧
        List.Forall₂ (fun entry lowered => program.ItemSpecializes registry
            (instanceContext target evaluator package.span entry.2) entry.1 lowered)
          package.items.zipIdx body.2 := by
  unfold specializeBody
  apply (evaluatorFor_ensures (.instantiated target)).bind
  intro evaluator
  apply (Ensures.mapM fun entry _ => specializeItem_ensures faithful
    (instanceContext target evaluator package.span entry.2) entry.1).bind
  intro results
  apply Ensures.pure
  rintro registry ⟨⟨_, made⟩, related⟩
  refine ⟨fun name value member => ?_, fun decl declared => ?_, evaluator, made, ?_⟩
  · rcases mem_foldl_insertConstant member with none | listed
    · cases none
    · obtain ⟨result, there, same⟩ := List.mem_filterMap.mp listed
      obtain ⟨entry, _, yields⟩ := exists_left_of_forall₂ related there
      exact yields.answers name value same
  · obtain ⟨index, there⟩ := List.mem_iff_getElem?.mp declared
    obtain ⟨result, member, yields⟩ :=
      exists_right_of_forall₂ related (List.mk_mem_zipIdx_iff_getElem?.mpr there)
    obtain ⟨value, added⟩ := yields.adds decl rfl
    exact exists_mem_foldl_insertConstant (.inr ⟨value, List.mem_filterMap.mpr ⟨result, member, added⟩⟩)
  · rw [List.forall₂_map_right_iff]
    exact related.imp fun _ _ yields => yields.specializes

theorem specialized_ensures (faithful : lookup.Faithful program) {drain : PassM Unit}
    (drains : ∀ pre, Ensures program pre drain fun _ _ => True) {pre : Registry → Prop} {pending : Pending}
    (generic : program.generic? pending.package.name = some pending.package) :
    Ensures program pre (program.specialized lookup drain pending) fun package registry =>
      package.target = pending.target ∧ program.Specializes registry package := by
  have resolves {known : Registry → Prop} : Ensures program known
      (PassM.ofState fun state => (state.registry.resolve pending.target, state)) fun _ _ => True :=
    .reads fun _ _ _ _ _ _ _ => trivial
  unfold specialized
  apply (specializeBody_ensures faithful pending.package pending.target).bind
  intro body
  apply (drains _).bind
  intro _
  apply resolves.bind
  intro arguments
  apply Ensures.pure
  rintro registry ⟨⟨⟨_, constants, listed, evaluator, made, items⟩, _⟩, _⟩
  refine ⟨rfl, constants, fun source found decl declared => ?_, pending.package, evaluator, generic, made, items⟩
  have same : some pending.package = some source := generic.symm.trans found
  cases same
  exact listed decl declared

theorem specialize_ends (faithful : lookup.Faithful program) {drain : Nat → PassM Unit}
    (drains : ∀ mark pre, Ensures program pre (drain mark) fun _ _ => True) {state last : State}
    {position : Nat} {pending : Pending} {result : Except Fault Unit} (consistent : state.Consistent program)
    (next : state.queue[position]? = some pending)
    (ran : (program.specialize lookup drain pending).run (state.take position) = some (result, last)) :
    Ends program state result last fun _ _ => True := by
  unfold specialize at ran
  rw [PassM.run_get_bind, PassM.run_set_bind] at ran
  -- what the work ends with, a fault included, decides the state of the instance
  obtain ⟨outcome, middle, worked, answer, finished⟩ := PassM.run_bracket ran
  subst answer finished
  have generic := consistent.queued pending (List.mem_of_getElem? next)
  have ends := specialized_ensures faithful (drains _) generic _ outcome middle
    (State.consistent_begin consistent next) (fun _ _ => trivial) worked
  refine ⟨State.leads_finish ends.leads, State.consistent_finish ends.consistent fun package made => ?_, ?_, ?_⟩
  · have known := ends.holds package made
    exact ⟨known.now.1, fun registry grows => (known registry grows).2⟩
  · intro value found clean
    cases outcome with
    | error fault => cases found
    | ok package => exact (ends.clean package rfl clean.begin).finish
  · exact fun _ _ _ _ => trivial

theorem drainFrom_ensures (program : Program) (budget mark : Nat) (pre : Registry → Prop) :
    Ensures program pre (program.drainFrom budget mark) fun _ _ => True := by
  induction budget generalizing mark pre with
  | zero => exact .exhausted
  | succ budget ih =>
    intro first result last consistent before ran
    unfold drainFrom at ran
    rw [PassM.run_get_bind] at ran
    split at ran
    · cases ran
      exact ⟨.refl first, consistent, fun _ _ clean => clean, fun _ _ _ _ => trivial⟩
    · rename_i pending next
      rw [PassM.run_set_bind] at ran
      -- draining and looking up use up the same budget, so one induction serves both
      have faithful := Lookup.faithful_ofBudget program budget
      rcases ExceptT.run_bind_eq_some ran with ⟨fault, stopped, failed⟩ | ⟨_, middle, worked, ran⟩
      · subst failed
        exact specialize_ends faithful ih consistent next stopped
      · have ends := specialize_ends faithful ih consistent next worked
        have rest := ih mark pre middle result last ends.consistent (before.later ends.leads.registry) ran
        exact ⟨ends.leads.trans rest.leads, rest.consistent,
          fun value found clean => rest.clean value found (ends.clean _ rfl clean), rest.holds⟩

end Program
end Monomorph
