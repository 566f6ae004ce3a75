import Monomorph.Proofs.Dependency.Introduction
import Monomorph.Proofs.Instance.Name
import Monomorph.Proofs.Pass.Unit

/-! The body of an instance.

Building the body of an instance asks for instances that the instance uses. Once it is
built, all of its demands can be met, and every reference in it stands for one of the
generic package and leads to no instance that has failed so far.
-/

set_option autoImplicit false

namespace Monomorph

namespace Program

/-- A reference stands for one of the source. If it leads to an instance, that has a number and has not
failed. -/
structure Directed (program : Program) (history : History) (scope : Scope) (position : Nat)
    (source lowered : Reference) (registry : Registry) : Prop where
  directs : program.Directs registry scope position source lowered
  usable : ∀ target, (program.generic? source.package).isSome → lowered = source.redirect target →
    (history.get? target).isSome ∧ ∀ fault, history.get? target ≠ some (.failed fault)

/-- The references in the body of an instance stand for those of its generic package, item by item. -/
def BodyDirected (program : Program) (history : History) (package : Package) (target : Instance)
    (items : List PackageItem) (registry : Registry) : Prop :=
  ∃ evaluator, program.evaluator registry (.instantiated target) = .ok evaluator ∧
    List.Forall₂ (fun entry item => List.Forall₂
      (fun source lowered => program.Directed history (.instantiated target) entry.2 source lowered registry)
        ((instanceContext target evaluator package.span entry.2).references entry.1) item.references)
      package.items.zipIdx items

theorem Directed.continues {program : Program} {first last : State} {scope : Scope} {position : Nat}
    {source lowered : Reference} {registry : Registry}
    (directed : program.Directed first.instances scope position source lowered registry)
    (continues : first.Continues true last) :
    program.Directed last.instances scope position source lowered registry := by
  refine ⟨directed.directs, fun target generic same => ?_⟩
  obtain ⟨known, usable⟩ := directed.usable target generic same
  exact ⟨History.isSome_of_suffix continues.history known,
    fun fault failed => usable fault (continues.clean rfl _ fault failed)⟩

end Program

def State.Directs (program : Program) (scope : Scope) (position : Nat) (source lowered : Reference)
    (state : State) : Prop :=
  state.Holds (program.Directed state.instances scope position source lowered)

theorem State.Directs.continues {program : Program} {first last : State} {scope : Scope} {position : Nat}
    {source lowered : Reference} (directs : first.Directs program scope position source lowered)
    (continues : first.Continues true last) : last.Directs program scope position source lowered :=
  fun registry grows => (directs registry (continues.registry.trans grows)).continues continues

namespace Program

variable {program : Program} {lookup : Lookup} {context : Context} {pre : Registry → Prop}

theorem generic?_of_plain? {name : String} {package : Package} (plain : program.plain? name = some package) :
    program.generic? name = none := by
  cases generic : program.generic? name with
  | none => rfl
  | some other =>
    rw [plain?_of_generic? generic] at plain
    cases plain

theorem Directs.reaches {registry : Registry} {scope : Scope} {position : Nat} {reference lowered : Reference}
    (directs : program.Directs registry scope position reference lowered) :
    ∃ target, program.Reaches registry scope position reference target := by
  cases directs with
  | instantiated generic binds found checked => exact ⟨_, .instantiated generic binds found⟩
  | plain plain none checked => exact ⟨_, .plain plain none⟩
  | unknown absent none => exact ⟨_, .unknown absent none⟩

theorem lowerReference_traces (faithful : lookup.Faithful program) (traceable : lookup.Traceable program)
    (reference : Reference) :
    Traces program pre (program.lowerReference lookup context reference)
      fun registry => program.TargetUses registry context.scope context.position reference := by
  unfold lowerReference
  apply Traces.bind (target_ensures faithful reference) (target_traces faithful traceable reference)
  intro target
  cases target with
  | instantiated package target => exact (Traces.ofResult _).thenPure
  | plain package => exact (Traces.ofResult _).thenPure
  | unknown => exact .pure _

theorem usable_of_instantiate {first last : State} {package : Package} {arguments : Arguments} {site : Span}
    {target : Instance} (asked : first.instantiate program.settings package arguments site = (.ok target, last)) :
    ∀ fault, last.instances.get? target ≠ some (.failed fault) := by
  unfold State.instantiate at asked
  split at asked
  · cases asked
  · split at asked
    · cases asked
    · rename_i usable
      cases asked
      exact usable
  · simp only at asked
    split at asked
    · cases asked
    · cases asked
      intro fault
      rw [Table.get?_insert, if_pos rfl]
      intro same
      cases same

theorem usable_of_target {reference : Reference} {scope : Scope} {position : Nat} {first last : State}
    {package : Package} {target : Instance}
    (ran : (program.target lookup reference scope position).run first
      = some (.ok (.instantiated package target), last)) :
    ∀ fault, last.instances.get? target ≠ some (.failed fault) := by
  unfold Program.target at ran
  split at ran
  · rcases ExceptT.run_bind_eq_some ran with ⟨_, _, failed⟩ | ⟨evaluator, middle, _, ran⟩
    · cases failed
    rcases ExceptT.run_bind_eq_some ran with ⟨_, _, failed⟩ | ⟨arguments, middle, _, ran⟩
    · cases failed
    rcases ExceptT.run_bind_eq_some ran with ⟨_, _, failed⟩ | ⟨found, middle, asked, ran⟩
    · cases failed
    cases ran
    exact usable_of_instantiate (Option.some.inj asked)
  · split at ran <;> cases ran

theorem redirect_injective {reference : Reference} {target other : Instance}
    (same : reference.redirect target = reference.redirect other) : target = other :=
  Instance.name_injective (congrArg Reference.package same)

theorem lowerReference_provides (faithful : lookup.Faithful program) (traceable : lookup.Traceable program)
    (reference : Reference) :
    Provides program pre (program.lowerReference lookup context reference)
      fun lowered state => state.Directs program context.scope context.position reference lowered := by
  intro first lowered last consistent coherent holds ran registry grows
  have directs := (lowerReference_ensures faithful reference first _ last consistent holds ran).holds lowered rfl
  refine ⟨directs registry grows, fun target generic redirected => ?_⟩
  have coherent' := (lowerReference_traces faithful traceable reference first _ last consistent coherent holds
    ran).coherent
  unfold lowerReference at ran
  rcases ExceptT.run_bind_eq_some ran with ⟨_, _, failed⟩ | ⟨reached, middle, found, ran⟩
  · cases failed
  have reaches := (target_ensures faithful reference first _ middle consistent holds found).holds reached rfl
  cases reached with
  | instantiated package other =>
    rcases ExceptT.run_bind_eq_some ran with ⟨_, _, failed⟩ | ⟨_, final, checked, ran⟩
    · cases failed
    cases ran
    cases redirect_injective redirected
    -- the check of the member leaves the state as it is
    have same : middle = last := congrArg Prod.snd (Option.some.inj checked)
    subst same
    cases reaches.now with
    | instantiated generic binds known =>
      exact ⟨(coherent'.registered _).mpr (Registry.knows_of_find? known), usable_of_target found⟩
  | plain package =>
    cases reaches.now with
    | plain plain none =>
      rw [generic?_of_plain? plain] at generic
      cases generic
  | unknown =>
    cases reaches.now with
    | unknown absent none =>
      rw [generic?, absent] at generic
      cases generic

theorem meet_ensures (faithful : lookup.Faithful program) (demand : Demand) :
    Ensures program pre (program.meet lookup context demand)
      fun _ registry => program.Meets registry context demand := by
  cases demand with
  | direct reference =>
    apply (lowerReference_ensures faithful reference).bind
    intro lowered
    exact .pure fun registry known => Directs.reaches known.2
  | size size =>
    apply ((evalSize_ensures faithful size).adapt _).bind
    intro count
    apply Ensures.pure
    rintro registry ⟨_, value, evaluated, _⟩
    exact ⟨value, evaluated⟩
  | encoding value =>
    apply ((eval_ensures faithful value).adapt _).bind
    intro found
    exact .pure fun registry known => ⟨found, known.2⟩
  | constant name site =>
    apply (faithful pre (.constant context.scope name site)).bind
    intro value
    exact .pure fun registry known => ⟨value, known.2⟩

theorem meet_traces (faithful : lookup.Faithful program) (traceable : lookup.Traceable program)
    (demand : Demand) :
    Traces program pre (program.meet lookup context demand)
      fun registry => program.DemandUses registry context demand := by
  cases demand with
  | direct reference =>
    apply Traces.thenPure
    exact (lowerReference_traces faithful traceable reference).imp fun _ _ _ uses => .direct uses
  | size size =>
    apply Traces.thenPure
    apply Traces.adapt
    exact (evalSize_traces faithful traceable size).imp fun _ _ _ uses => .size uses
  | encoding value =>
    apply Traces.thenPure
    apply Traces.adapt
    exact (eval_traces faithful traceable value).imp fun _ _ _ uses => .encoding uses
  | constant name site =>
    apply Traces.thenPure
    exact (traceable pre (.constant context.scope name site)).imp fun _ _ _ uses => .constant uses

theorem meet_provides (faithful : lookup.Faithful program) (traceable : lookup.Traceable program)
    (demand : Demand) :
    Provides program pre (program.meet lookup context demand) fun references state =>
      List.Forall₂ (fun source lowered => state.Directs program context.scope context.position source lowered)
        demand.references references := by
  cases demand with
  | direct source =>
    apply Provides.thenPure
    intro first lowered last consistent coherent holds ran
    exact .cons (lowerReference_provides faithful traceable source first lowered last consistent coherent holds ran)
      .nil
  | size size => exact .thenPure fun _ _ _ _ _ _ _ => .nil
  | encoding value => exact .thenPure fun _ _ _ _ _ _ _ => .nil
  | constant name site => exact .thenPure fun _ _ _ _ _ _ _ => .nil

theorem meetAll_ensures (faithful : lookup.Faithful program) (demands : List Demand) :
    Ensures program pre (program.meetAll lookup context demands)
      fun _ registry => ∀ demand ∈ demands, program.Meets registry context demand := by
  apply (Ensures.mapM fun demand _ => meet_ensures faithful demand).bind
  intro references
  apply Ensures.pure
  intro registry known demand member
  obtain ⟨_, _, meets⟩ := exists_right_of_forall₂ known.2 member
  exact meets

theorem meetAll_traces (faithful : lookup.Faithful program) (traceable : lookup.Traceable program)
    (demands : List Demand) :
    Traces program pre (program.meetAll lookup context demands)
      fun registry used => ∃ demand ∈ demands, program.DemandUses registry context demand used := by
  apply Traces.thenPure
  apply Traces.mapM fun demand _ => meet_ensures faithful demand
  intro demand member
  exact (meet_traces faithful traceable demand).imp fun _ _ _ uses => ⟨demand, member, uses⟩

theorem meetAll_provides (faithful : lookup.Faithful program) (traceable : lookup.Traceable program)
    (demands : List Demand) :
    Provides program pre (program.meetAll lookup context demands) fun references state =>
      List.Forall₂ (fun source lowered => state.Directs program context.scope context.position source lowered)
        (demands.flatMap Demand.references) references := by
  have each : Provides program pre (demands.mapM (program.meet lookup context)) fun lists state =>
      List.Forall₂ (fun demand references => List.Forall₂
        (fun source lowered => state.Directs program context.scope context.position source lowered)
          demand.references references) demands lists :=
    .mapM (fun _ _ _ _ continues directed => directed.imp fun _ _ directs => directs.continues continues)
      (fun demand _ => meet_ensures faithful demand) (fun demand _ => meet_traces faithful traceable demand)
      (fun demand _ => meet_provides faithful traceable demand)
  apply Provides.thenPure
  intro first lists last consistent coherent holds ran
  rw [List.flatMap_def]
  apply List.rel_flatten
  apply List.forall₂_map_left_iff.mpr
  exact each first lists last consistent coherent holds ran

section Items

variable (faithful : lookup.Faithful program) (traceable : lookup.Traceable program)

include faithful

theorem specializeItem_meets (context : Context) (item : PackageItem) :
    Ensures program pre (program.specializeItem lookup context item)
      fun _ registry => ∀ demand ∈ context.demands item, program.Meets registry context demand := by
  have meets : Ensures program pre
      ((fun result => result.1.references) <$> program.specializeItem lookup context item)
      fun _ registry => ∀ demand ∈ context.demands item, program.Meets registry context demand := by
    rw [references_specializeItem]
    exact meetAll_ensures faithful _
  exact meets.of_map

include traceable

theorem specializeItem_traces (context : Context) (item : PackageItem) :
    Traces program pre (program.specializeItem lookup context item)
      fun registry used => ∃ demand ∈ context.demands item, program.DemandUses registry context demand used := by
  apply Traces.of_map
  rw [references_specializeItem]
  exact meetAll_traces faithful traceable _

theorem specializeItem_provides (context : Context) (item : PackageItem) :
    Provides program pre (program.specializeItem lookup context item) fun result state =>
      List.Forall₂ (fun source lowered => state.Directs program context.scope context.position source lowered)
        (context.references item) result.1.references := by
  have provides : Provides program pre
      ((fun result => result.1.references) <$> program.specializeItem lookup context item) fun references state =>
        List.Forall₂ (fun source lowered => state.Directs program context.scope context.position source lowered)
          (context.references item) references := by
    rw [references_specializeItem]
    exact meetAll_provides faithful traceable _
  exact provides.of_map

end Items

section PlainText

variable (faithful : lookup.Faithful program) (traceable : lookup.Traceable program)

include faithful traceable

theorem traces_of_references {α : Type} {operation : PassM α} {references : α → List Reference}
    {demands : List Demand} (same : references <$> operation = program.meetAll lookup context demands) :
    Traces program pre operation fun _ _ => True := by
  apply Traces.of_map
  rw [same]
  exact (meetAll_traces faithful traceable demands).imp fun _ _ _ _ => trivial

theorem lowerConst_traces (decl : ConstDecl) :
    Traces program pre (program.lowerConst lookup context decl) fun _ _ => True := by
  unfold lowerConst
  apply Traces.bind (lowerType?_ensures faithful decl.type)
    (traces_of_references faithful traceable (references_lowerType? decl.type))
  intro type
  exact (traces_of_references faithful traceable (references_lowerExpr decl.value)).thenPure

theorem lowerPackageItem_traces (item : PackageItem) :
    Traces program pre (program.lowerPackageItem lookup context item) fun _ _ => True := by
  cases item with
  | const decl => exact (lowerConst_traces faithful traceable decl).thenPure
  | typeDef name type => exact (traces_of_references faithful traceable (references_lowerType type)).thenPure
  | struct name kind fields =>
    exact (traces_of_references faithful traceable (references_lowerTypedNames fields)).thenPure
  | enum name base variants =>
    apply Traces.bind (lowerType?_ensures faithful base)
      (traces_of_references faithful traceable (references_lowerType? base))
    intro base
    exact (traces_of_references faithful traceable (references_lowerVariants variants)).thenPure
  | function decl =>
    exact (traces_of_references faithful traceable (references_lowerFunction decl)).thenPure

theorem lowerModuleItem_traces (item : ModuleItem) :
    Traces program pre (program.lowerModuleItem lookup context item) fun _ _ => True := by
  cases item with
  | const decl => exact (lowerConst_traces faithful traceable decl).thenPure
  | declare name type value =>
    apply Traces.bind (lowerType_ensures faithful type)
      (traces_of_references faithful traceable (references_lowerType type))
    intro type
    exact (traces_of_references faithful traceable (references_lowerExpr value)).thenPure
  | var name type => exact (traces_of_references faithful traceable (references_lowerType type)).thenPure

end PlainText

section Bodies

variable {package : Package} {target : Instance}

/-- Once the body of an instance is built, its demands can be met. -/
theorem specializeBody_meets (faithful : lookup.Faithful program) :
    Ensures program pre (program.specializeBody lookup package target) fun _ registry =>
      ∃ evaluator, program.evaluator registry (.instantiated target) = .ok evaluator ∧
        ∀ item position, (item, position) ∈ package.items.zipIdx →
          ∀ demand ∈ (instanceContext target evaluator package.span position).demands item,
            program.Meets registry (instanceContext target evaluator package.span position) demand := by
  unfold specializeBody
  apply (evaluatorFor_ensures (.instantiated target)).bind
  intro evaluator
  apply (Ensures.mapM fun entry _ => specializeItem_meets faithful
    (instanceContext target evaluator package.span entry.2) entry.1).bind
  intro results
  apply Ensures.pure
  rintro registry ⟨⟨_, made⟩, related⟩
  refine ⟨evaluator, made, fun item position member => ?_⟩
  obtain ⟨_, _, meets⟩ := exists_right_of_forall₂ related member
  exact meets

/-- The body of an instance asks for what the instance uses. -/
theorem specializeBody_traces (faithful : lookup.Faithful program) (traceable : lookup.Traceable program)
    (generic : program.generic? target.base = some package) :
    Traces program pre (program.specializeBody lookup package target)
      fun registry => program.Uses registry target := by
  unfold specializeBody
  apply Traces.bind (evaluatorFor_ensures (.instantiated target)) (.reads _)
  intro evaluator
  apply Traces.thenPure
  apply Traces.mapM fun entry _ => specializeItem_meets faithful
    (instanceContext target evaluator package.span entry.2) entry.1
  intro entry member
  apply (specializeItem_traces faithful traceable _ entry.1).imp
  rintro registry used ⟨_, made⟩ ⟨demand, demanded, uses⟩
  exact .intro generic made member demanded uses

theorem specializeBody_provides (faithful : lookup.Faithful program) (traceable : lookup.Traceable program) :
    Provides program pre (program.specializeBody lookup package target) fun body state =>
      state.Holds (program.BodyDirected state.instances package target body.2) := by
  have reads : Traces program pre (program.evaluatorFor (.instantiated target)) fun _ _ => True := .reads _
  refine .bind (evaluatorFor_ensures (.instantiated target)) reads fun evaluator => .thenPure ?_
  have each : Provides program
      (fun registry => pre registry ∧ program.evaluator registry (.instantiated target) = .ok evaluator)
      (package.items.zipIdx.mapM fun entry =>
        program.specializeItem lookup (instanceContext target evaluator package.span entry.2) entry.1)
      fun results state => List.Forall₂ (fun entry result => List.Forall₂
        (fun source lowered => state.Directs program (.instantiated target) entry.2 source lowered)
          ((instanceContext target evaluator package.span entry.2).references entry.1) result.1.references)
        package.items.zipIdx results :=
    .mapM (fun _ _ _ _ continues directed => directed.imp fun _ _ directs => directs.continues continues)
      (fun entry _ => specializeItem_meets faithful _ entry.1)
      (fun entry _ => specializeItem_traces faithful traceable _ entry.1)
      (fun entry _ => specializeItem_provides faithful traceable _ entry.1)
  intro first results last consistent coherent holds ran registry grows
  have directed := each first results last consistent coherent holds ran
  have leads := (Ensures.mapM fun entry _ => specializeItem_meets faithful
    (instanceContext target evaluator package.span entry.2) entry.1) first _ last consistent holds ran
  have made := (holds registry (leads.leads.registry.trans grows)).2
  refine ⟨evaluator, made, List.forall₂_map_right_iff.mpr (directed.imp fun entry result references => ?_)⟩
  exact references.imp fun _ _ directs => directs registry grows

end Bodies

end Program
end Monomorph
