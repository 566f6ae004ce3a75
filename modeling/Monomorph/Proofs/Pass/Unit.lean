import Monomorph.Proofs.Pass.Specialization
import Monomorph.Instantiation

/-! What is known at the end of the pass.

Between two items of plain text, an instance has failed only if a fault was noted.
A pass that ends without a fault has thus kept every item and finished every
instance.
-/

set_option autoImplicit false

namespace Monomorph

variable {α β : Type} {program : Program}

structure State.Settled (program : Program) (state : State) : Prop where
  consistent : state.Consistent program
  clean : state.faults = [] → state.Clean

theorem State.settled_record {state : State} (consistent : state.Consistent program) (fault : Fault) :
    (state.record fault).Settled program :=
  ⟨consistent_record consistent fault, fun none => absurd none (faults_record state fault)⟩

/-- From one settled state to the next. Without a fault, the result has the property. -/
def Machine.Ensures (program : Program) (operation : Machine α) (post : α → Registry → Prop) : Prop :=
  ∀ first value last, first.Settled program → operation.run first = some (value, last) →
    first.Leads last ∧ last.Settled program ∧ (last.faults = [] → last.Holds (post value))

namespace Machine

theorem run_bind_eq_some {operation : Machine α} {next : α → Machine β} {first last : State} {result : β}
    (ran : (operation >>= next).run first = some (result, last)) :
    ∃ value middle, operation.run first = some (value, middle) ∧ (next value).run middle = some (result, last) := by
  obtain ⟨⟨value, middle⟩, stepped, ran⟩ := Option.bind_eq_some_iff.mp ran
  exact ⟨value, middle, stepped, ran⟩

theorem run_get_bind (next : State → Machine α) (first : State) :
    (do let state ← get; next state : Machine α).run first = (next first).run first := rfl

theorem run_set_bind (next : Machine α) (first state : State) :
    (do set state; next : Machine α).run first = next.run state := rfl

namespace Ensures

theorem pure {value : α} {post : α → Registry → Prop} (holds : ∀ registry, post value registry) :
    Machine.Ensures program (Pure.pure value) post := by
  intro first found last settled ran
  cases ran
  exact ⟨.refl first, settled, fun _ registry _ => holds registry⟩

theorem bind {operation : Machine α} {next : α → Machine β} {post : α → Registry → Prop}
    {final : β → Registry → Prop} (ensures : Machine.Ensures program operation post)
    (continues : ∀ value, Machine.Ensures program (next value) fun result registry =>
      post value registry → final result registry) :
    Machine.Ensures program (operation >>= next) final := by
  intro first result last settled ran
  obtain ⟨value, middle, stepped, ran⟩ := run_bind_eq_some ran
  obtain ⟨leads, settled, known⟩ := ensures first value middle settled stepped
  obtain ⟨leads', settled', known'⟩ := continues value middle result last settled ran
  refine ⟨leads.trans leads', settled', fun none registry grows => ?_⟩
  apply known' none registry grows
  exact known (leads'.faults none) registry (leads'.registry.trans grows)

theorem imp {operation : Machine α} {post weaker : α → Registry → Prop}
    (ensures : Machine.Ensures program operation post)
    (implies : ∀ value registry, post value registry → weaker value registry) :
    Machine.Ensures program operation weaker := by
  intro first value last settled ran
  obtain ⟨leads, settled, known⟩ := ensures first value last settled ran
  exact ⟨leads, settled, fun none registry grows => implies value registry (known none registry grows)⟩

/-- Without a fault, a pass over a list has a result for each item that is to be kept. -/
theorem filterMapM {items : List α} {each : α → Machine (Option β)} {keep : α → Bool}
    {related : α → β → Registry → Prop}
    (ensures : ∀ item ∈ items, Machine.Ensures program (each item) fun kept registry =>
      if keep item then ∃ result, kept = some result ∧ related item result registry else kept = none) :
    Machine.Ensures program (items.filterMapM each) fun results registry =>
      List.Forall₂ (fun item result => related item result registry) (items.filter keep) results := by
  induction items with
  | nil => exact pure fun registry => .nil
  | cons first rest ih =>
    rw [List.filterMapM_cons]
    apply (ensures first List.mem_cons_self).bind
    intro kept
    have remaining := ih fun item member => ensures item (List.mem_cons_of_mem first member)
    -- an item that is left out is one that is not to be kept, or it faulted
    cases kept with
    | none =>
      apply remaining.imp
      intro results registry others left
      split at left
      · obtain ⟨result, impossible, _⟩ := left
        cases impossible
      · rename_i leave
        rw [List.filter_cons_of_neg leave]
        exact others
    | some result =>
      apply remaining.bind
      intro results
      apply pure
      intro registry others here
      split at here
      · rename_i take
        obtain ⟨found, same, here⟩ := here
        cases same
        rw [List.filter_cons_of_pos take]
        exact .cons here others
      · cases here

theorem filterMapM_all {items : List α} {each : α → Machine (Option β)} {related : α → β → Registry → Prop}
    (ensures : ∀ item ∈ items, Machine.Ensures program (each item) fun kept registry =>
      ∃ result, kept = some result ∧ related item result registry) :
    Machine.Ensures program (items.filterMapM each) fun results registry =>
      List.Forall₂ (fun item result => related item result registry) items results := by
  have all : ∀ item ∈ items, Machine.Ensures program (each item) fun kept registry =>
      if (fun _ => true) item then ∃ result, kept = some result ∧ related item result registry
      else kept = none :=
    fun item member => (ensures item member).imp fun _ _ holds => holds
  have results := filterMapM all
  rwa [List.filter_true] at results

end Ensures
end Machine

theorem PassM.kept_ensures {operation : PassM α} {post : α → Registry → Prop}
    (ensures : Ensures program (fun _ => True) operation post) :
    Machine.Ensures program operation.kept fun kept registry =>
      ∃ value, kept = some value ∧ post value registry := by
  intro first kept last settled ran
  unfold PassM.kept at ran
  obtain ⟨result, middle, worked, ran⟩ := Machine.run_bind_eq_some ran
  have ends := ensures first result middle settled.consistent (fun _ _ => trivial) worked
  cases result with
  | ok value =>
    cases ran
    have clean : last.faults = [] → last.Clean := fun none =>
      ends.clean value rfl (settled.clean (ends.leads.faults none))
    exact ⟨ends.leads, ⟨ends.consistent, clean⟩,
      fun _ registry grows => ⟨value, rfl, ends.holds value rfl registry grows⟩⟩
  | error fault =>
    cases ran
    refine ⟨ends.leads.trans (State.leads_record middle fault), State.settled_record ends.consistent fault, ?_⟩
    intro none
    exact absurd none (State.faults_record middle fault)

namespace Program

theorem drain_settles (program : Program) (budget : Nat) {first last : State} {result : Unit}
    (settled : first.Settled program) (ran : (program.drain budget).run first = some (result, last)) :
    first.Leads last ∧ last.Settled program ∧ last.queue = [] := by
  induction budget generalizing first with
  | zero => cases ran
  | succ budget ih =>
    unfold drain at ran
    rw [Machine.run_get_bind] at ran
    split at ran
    · rename_i empty
      cases ran
      exact ⟨.refl _, settled, empty⟩
    · rename_i pending waiting queue
      have next : first.queue[0]? = some pending := by
        rw [queue]
        rfl
      rw [Machine.run_set_bind] at ran
      obtain ⟨outcome, middle, worked, ran⟩ := Machine.run_bind_eq_some ran
      have ends := specialize_ends (Lookup.faithful_ofBudget program budget)
        (drainFrom_ensures program budget) settled.consistent next worked
      cases outcome with
      | ok value =>
        have clean : middle.faults = [] → middle.Clean := fun none =>
          ends.clean value rfl (settled.clean (ends.leads.faults none))
        obtain ⟨leads, settled, empty⟩ := ih ⟨ends.consistent, clean⟩ ran
        exact ⟨ends.leads.trans leads, settled, empty⟩
      | error fault =>
        obtain ⟨leads, settled, empty⟩ := ih (State.settled_record ends.consistent fault) ran
        exact ⟨(ends.leads.trans (State.leads_record middle fault)).trans leads, settled, empty⟩

theorem drain_ensures (program : Program) (budget : Nat) :
    Machine.Ensures program (program.drain budget) fun _ _ => True := by
  intro first result last settled ran
  obtain ⟨leads, settled, _⟩ := drain_settles program budget settled ran
  exact ⟨leads, settled, fun _ _ _ => trivial⟩

theorem lowerOne_ensures (budget : Nat) {lower : PassM α} {post : α → Registry → Prop}
    (ensures : Ensures program (fun _ => True) lower post) :
    Machine.Ensures program (program.lowerOne budget lower) fun kept registry =>
      ∃ value, kept = some value ∧ post value registry := by
  unfold lowerOne
  apply (PassM.kept_ensures ensures).bind
  intro kept
  apply (drain_ensures program budget).bind
  intro _
  exact .pure fun registry _ known => known

variable {scope : Scope} {length position : Nat} {span : Span} {decl : Option ConstDecl}

theorem rewriting_plainContext (registry : Registry) :
    program.rewriting registry (program.plainContext scope length span position decl)
      = .redirecting (program.Directs registry scope (visible length position decl)) := by
  cases decl with
  | some decl => exact rewriting_of_plain rfl
  | none => exact rewriting_of_plain rfl

theorem scope_plainContext (scope : Scope) (length : Nat) (span : Span) (position : Nat)
    (decl : Option ConstDecl) : (program.plainContext scope length span position decl).scope = scope := by
  cases decl <;> rfl

theorem hidden_plainContext : (program.plainContext scope length span position decl).hidden = [] := by
  cases decl <;> rfl

theorem lowerPackage_ensures (budget : Nat) (package : Package) (plain : package.isGeneric = false) :
    Machine.Ensures program (program.lowerPackage budget package) fun lowered registry =>
      program.Lowers registry (.package package) (.package lowered) := by
  have parameters : package.parameters = [] := by simpa [Package.isGeneric] using plain
  have items : Machine.Ensures program (package.items.zipIdx.filterMapM fun entry =>
      let context := program.plainContext (.package package.name) package.items.length package.span entry.2
        entry.1.const?
      program.lowerOne budget (program.lowerPackageItem (.ofBudget program budget) context entry.1))
      fun results registry => List.Forall₂ (fun entry lowered => entry.1.Rewrites
          (.redirecting (program.Directs registry (.package package.name)
            (visible package.items.length entry.2 entry.1.const?))) [] lowered)
        package.items.zipIdx results := by
    apply Machine.Ensures.filterMapM_all
    intro entry _
    apply lowerOne_ensures
    apply (lowerPackageItem_ensures (Lookup.faithful_ofBudget program budget) entry.1).imp
    intro lowered registry _ rewrites
    rwa [rewriting_plainContext, hidden_plainContext] at rewrites
  apply items.bind
  intro results
  apply Machine.Ensures.pure
  intro registry related
  obtain ⟨name, _, _, _⟩ := package
  cases parameters
  exact .package related

theorem lowerModule_ensures (budget : Nat) (decl : Module) :
    Machine.Ensures program (program.lowerModule budget decl) fun lowered registry =>
      program.Lowers registry (.module decl) (.module lowered) := by
  have items : Machine.Ensures program (decl.items.zipIdx.filterMapM fun entry =>
      let context := program.plainContext (.module decl.name) decl.items.length decl.span entry.2 entry.1.const?
      program.lowerOne budget (program.lowerModuleItem (.ofBudget program budget) context entry.1))
      fun results registry => List.Forall₂ (fun entry lowered => entry.1.Rewrites
          (.redirecting (program.Directs registry (.module decl.name)
            (visible decl.items.length entry.2 entry.1.const?))) [] lowered)
        decl.items.zipIdx results := by
    apply Machine.Ensures.filterMapM_all
    intro entry _
    apply lowerOne_ensures
    apply (lowerModuleItem_ensures (Lookup.faithful_ofBudget program budget) entry.1).imp
    intro lowered registry _ rewrites
    rwa [rewriting_plainContext, hidden_plainContext] at rewrites
  apply items.bind
  intro results
  exact .pure fun registry related => .module related

theorem lowerDescription_ensures (budget : Nat) (description : Description) :
    Machine.Ensures program (program.lowerDescription budget description) fun kept registry =>
      if !description.isGeneric then
        ∃ lowered, kept = some lowered ∧ program.Lowers registry description lowered
      else kept = none := by
  cases description with
  | package decl =>
    unfold lowerDescription
    simp only [Description.isGeneric]
    split
    · rename_i generic
      simp only [generic]
      exact .pure fun registry => rfl
    · rename_i plain
      simp only [plain]
      apply (lowerPackage_ensures budget decl (by simpa using plain)).bind
      intro lowered
      exact .pure fun registry lowers => ⟨_, rfl, lowers⟩
  | module decl =>
    apply (lowerModule_ensures budget decl).bind
    intro lowered
    exact .pure fun registry lowers => ⟨_, rfl, lowers⟩

end Program

/-- The end of a pass: nothing waits, and no instance is worked on. -/
structure State.Final (program : Program) (state : State) : Prop where
  settled : state.Settled program
  queue : state.queue = []
  idle : ∀ target, state.instances.get? target ≠ some .inProgress

theorem State.Final.emitted {state : State} (final : state.Final program) (none : state.faults = [])
    {target : Instance} {arguments : Arguments} (known : state.registry.get? target = some arguments) :
    ∃ package ∈ state.specialized, package.target = target := by
  cases final.settled.consistent.accounted target arguments known with
  | queued member same =>
    rw [final.queue] at member
    cases member
  | inProgress started => exact absurd started (final.idle target)
  | specialized member same => exact ⟨_, member, same⟩
  | failed noted => exact absurd noted (final.settled.clean none target _)

theorem State.settled_initial : State.initial.Settled program :=
  ⟨consistent_initial, fun _ _ _ failed => by cases failed⟩

theorem State.leads_foldl_record (faults : List Fault) (state : State) :
    state.Leads (faults.foldl State.record state) := by
  induction faults generalizing state with
  | nil => exact .refl state
  | cons fault rest ih => exact (leads_record state fault).trans (ih (state.record fault))

theorem State.settled_foldl_record {state : State} (settled : state.Settled program) (faults : List Fault) :
    (faults.foldl State.record state).Settled program := by
  induction faults generalizing state with
  | nil => exact settled
  | cons fault rest ih => exact ih (settled_record settled.consistent fault)

theorem State.eq_nil_of_foldl_record {faults : List Fault} {state : State}
    (none : (faults.foldl State.record state).faults = []) : faults = [] := by
  cases faults with
  | nil => rfl
  | cons fault rest =>
    exact absurd ((leads_foldl_record rest (state.record fault)).faults none) (faults_record state fault)

namespace SourceUnit

variable {unit : SourceUnit} {settings : Settings} {budget : Nat} {descriptions : List Description}
  {final : State}

/-- What is known at the end of a pass under any budget that is enough. -/
theorem run?_ends (ran : unit.run? settings budget = some (descriptions, final)) :
    final.Final (.ofUnit unit settings) ∧
      (final.faults = [] → unit.declarationFaults = [] ∧ final.Holds fun registry =>
        List.Forall₂ ((Program.ofUnit unit settings).Lowers registry)
          (unit.distinct.filter (!·.isGeneric)) descriptions) := by
  unfold run? Program.lowerAll at ran
  obtain ⟨lowered, middle, walked, ran⟩ := Machine.run_bind_eq_some ran
  obtain ⟨_, last, drained, ran⟩ := Machine.run_bind_eq_some ran
  cases ran
  have start : (State.ofUnit unit).Settled (.ofUnit unit settings) :=
    State.settled_foldl_record State.settled_initial _
  obtain ⟨leads, settled, related⟩ := Machine.Ensures.filterMapM
    (fun description _ => Program.lowerDescription_ensures budget description) _ _ _ start walked
  obtain ⟨leads', settled', empty⟩ := Program.drain_settles _ budget settled drained
  -- nothing is in progress at the start, so nothing is at the end
  have from_start : State.initial.Leads final :=
    (State.leads_foldl_record unit.declarationFaults .initial).trans (leads.trans leads')
  constructor
  · refine ⟨settled', empty, fun target started => ?_⟩
    cases from_start.inProgress target started
  · intro none
    have earlier := leads'.faults none
    exact ⟨State.eq_nil_of_foldl_record (leads.faults earlier), (related earlier).later leads'.registry⟩

end SourceUnit
end Monomorph
