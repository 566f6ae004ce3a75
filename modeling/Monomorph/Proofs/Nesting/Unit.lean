import Monomorph.Proofs.Cycle.Walk
import Monomorph.Proofs.Lowering.Congruence
import Monomorph.Proofs.Nesting.Evaluation

/-! The pass goes by steps.

Lowering and the specialization of bodies go by steps as evaluation does. So the whole
pass is a path of steps, and each state in which it looks something up, starts or ends a
part of its work lies on that path.
-/

set_option autoImplicit false

namespace Monomorph

variable {α β : Type} {program : Program}

/-- A check that accepts what lies on the path does not stop what starts where it should. -/
theorem FollowsFrom.around {mode : Mode} {start : Activity} {first : State} {operations : Watched Fault α}
    {gives : α → List Scope} (follows : FollowsFrom program mode Fault.limit? start first operations gives)
    (part : Part) (starts : Activity.Seen [start] (.starts part) first) :
    FollowsFrom program mode Fault.limit? start first
      (.of (operations none) fun check => ExceptT.mk (check.around part (operations (some check)).run)) gives := by
  intro result last ran
  obtain ⟨path, arrives, same⟩ := follows result last ran
  refine ⟨path, arrives, fun check accepts => ?_⟩
  have again := same check accepts
  refine (Check.around_eq ?_ fun result' last' ended => ?_).trans again
  · exact accepts _ _ (starts.mono (List.cons_subset_cons start (List.nil_subset path)))
  · obtain ⟨journal, passes⟩ := arrives.passes
    cases again.symm.trans ended
    exact accepts _ _ ⟨_, passes.last_mem, rfl⟩

def Lookup.watched (program : Program) (budget : Nat) (watch : Option Check) : Lookup :=
  watch.elim (.ofBudget program budget) (.checked program · budget)

/-- Whatever the budget, requests go by steps. -/
theorem Lookup.follows_watched (program : Program) (mode : Mode) (budget : Nat) :
    Lookup.Follows program mode (.watched program budget) := by
  induction budget with
  | zero =>
    intro frames scopes request known start stands result last ran
    cases ran
  | succ budget ih =>
    intro frames scopes request known start stands
    exact (Program.answer_follows ih request known start stands).around (.request request)
      ⟨start, List.mem_singleton_self _, rfl, stands.knows _ known⟩

namespace Program

variable {frames : List Frame} {mode : Mode} {lookups : Option Check → Lookup} {scopes : List Scope}
  {context : Context}

theorem lowerReference_follows (follows : Lookup.Follows program mode lookups) (known : context.scope ∈ scopes)
    (reference : Reference) :
    Follows program frames mode Fault.limit? scopes
      (fun watch => program.lowerReference (lookups watch) context reference) := by
  unfold lowerReference
  refine (target_follows follows known reference).bind fun target => ?_
  cases target with
  | instantiated package target =>
    exact .bind (.ofResult fun _ refused => Package.plain_of_checkMember refused) fun _ => .pure _
  | plain package => exact .bind (.ofResult fun _ refused => Package.plain_of_checkMember refused) fun _ => .pure _
  | unknown => exact .pure _

theorem relates_follows (follows : Lookup.Follows program mode lookups) (known : context.scope ∈ scopes) :
    program.Relates (fun _ operations => Follows program frames mode Fault.limit? scopes operations)
      lookups context where
  pure := .pure
  bind := .bind
  direct := lowerReference_follows follows known
  size size _ := (evalSize_follows follows known size).toFault _ _
  encoding value _ := (eval_follows follows known value).toFault _ _
  constant _ _ := follows frames scopes _ known

theorem specializeBody_follows (follows : Lookup.Follows program mode lookups) (package : Package)
    {target : Instance} (known : .instantiated target ∈ scopes) :
    Follows program frames mode Fault.limit? scopes
      (.of (program.specializeBody (lookups none) package target) fun check =>
        program.checkedBody check (lookups (some check)) package target) := by
  have item (evaluator : Evaluator) (entry : PackageItem × Nat) :
      Follows program frames mode Fault.limit? scopes
        (.of (program.specializeItem (lookups none)
            ⟨.instantiated target, entry.2, evaluator, package.span, true, []⟩ entry.1)
          fun check => ExceptT.mk (check.around .item (program.specializeItem (lookups (some check))
            ⟨.instantiated target, entry.2, evaluator, package.span, true, []⟩ entry.1).run)) :=
    fun start stands => (specializeItem_related (relates_follows follows known) entry.1 start stands).around .item
      ⟨start, List.mem_singleton_self _, rfl⟩
  exact (evaluatorFor_follows (.instantiated target)).bind fun evaluator =>
    .bind (.mapM (item evaluator)) fun _ => .pure _

theorem specialized_follows (follows : Lookup.Follows program mode lookups) {drain : PassM Unit}
    {drain' : Check → PassM Unit} {pending : Pending}
    (drains : Follows program frames mode Fault.limit? scopes (.of drain drain'))
    (known : .instantiated pending.target ∈ scopes) :
    Follows program frames mode Fault.limit? scopes
      (.of (program.specialized (lookups none) drain pending) fun check =>
        program.checkedSpecialized check (lookups (some check)) (drain' check) pending) :=
  (specializeBody_follows follows pending.package known).bind fun _ => drains.bind fun _ =>
    .bind (.reads fun _ _ refused => Registry.plain_of_resolve refused) fun _ => .pure _

theorem specialized_made {lookup : Lookup} {drain : PassM Unit} {pending : Pending} {first last : State}
    {package : SpecializedPackage}
    (ran : (program.specialized lookup drain pending).run first = some (.ok package, last)) :
    package.target = pending.target ∧ last.registry.get? pending.target = some package.arguments := by
  rcases specialized_cases ran with ⟨fault, failed, _⟩ | ⟨body, middle, _, ⟨fault, failed, _⟩ | ⟨_, made⟩⟩
  · cases failed
  · cases failed
  · cases resolved : last.registry.resolve pending.target with
    | error fault =>
      rw [resolved] at made
      cases made
    | ok arguments =>
      rw [resolved] at made
      cases made
      exact ⟨rfl, Registry.resolve_eq_ok.mp resolved⟩

end Program

def Activity.opening (activity : Activity) (position : Nat) (pending : Pending) : List Frame :=
  .body pending activity.state.depth (activity.state.take position).queue :: activity.frames

namespace Program

variable {lookups : Option Check → Lookup} {scopes : List Scope} {frames : List Frame} {start : Activity}
  {position : Nat} {pending : Pending}

theorem begins_of_offers (offers : start.Offers position pending) :
    program.Moves .working start
      ⟨start.opening position pending, start.journal, (start.state.take position).begin pending⟩ := by
  obtain ⟨mark, free, behind, next⟩ := offers
  exact .begin free behind next

theorem stands_of_offers (valid : start.Valid program) (offers : start.Offers position pending) :
    program.Stands (start.opening position pending) [.instantiated pending.target]
      ⟨start.opening position pending, start.journal, (start.state.take position).begin pending⟩ := by
  refine ⟨(valid.step (program.begins_of_offers offers)).2, rfl, fun scope listed => ?_⟩
  obtain ⟨_, _, _, next⟩ := offers
  cases List.mem_singleton.mp listed
  exact Option.isSome_of_eq_some (valid.queued pending (List.mem_of_getElem? next))

/-- The work on an instance that was taken out of the queue has ended: its body was started, worked on by
steps, and finished. -/
structure Completes (program : Program) (start : Activity) (position : Nat) (pending : Pending)
    (path : List Activity) (result : Except Fault Unit) (last : State) : Prop where
  works : ∃ journal middle inner,
    program.Passes .working start inner ⟨start.opening position pending, journal, middle⟩ ∧
    program.Moves .working ⟨start.opening position pending, journal, middle⟩ ⟨start.frames, journal, last⟩ ∧
    path = inner ++ [⟨start.frames, journal, last⟩] ∧ last.queue = middle.queue
  blames : last.Blames Fault.limit? result

theorem specialize_completes (follows : Lookup.Follows program .working lookups) {drain : Nat → PassM Unit}
    {drain' : Check → Nat → PassM Unit} (valid : start.Valid program) (offers : start.Offers position pending)
    (drains : ∀ depth waiting, Follows program (.body pending depth waiting :: start.frames) .working Fault.limit?
      [.instantiated pending.target] (.of (drain waiting.length) fun check => drain' check waiting.length))
    {result : Except Fault Unit} {last : State}
    (ran : (program.specialize (lookups none) drain pending).run (start.state.take position) = some (result, last)) :
    ∃ path, program.Completes start position pending path result last ∧
      ∀ check : Check, check.Accepts (Activity.Seen (start :: path)) →
        (program.checkedSpecialize check (lookups (some check)) (drain' check) pending).run
          (start.state.take position) = some (result, last) := by
  unfold specialize at ran
  rw [PassM.run_get_bind, PassM.run_set_bind] at ran
  obtain ⟨outcome, middle, worked, answer, finished⟩ := PassM.run_bracket ran
  obtain ⟨path, ⟨⟨journal, passes⟩, blames, _⟩, same⟩ := specialized_follows follows (drains _ _)
    (List.mem_singleton_self _) _ (program.stands_of_offers valid offers) outcome middle worked
  have finishes : program.Moves .working ⟨start.opening position pending, journal, middle⟩
      ⟨start.frames, journal, middle.finish pending.target start.state.depth outcome⟩ :=
    .finish blames fun package made => specialized_made (made ▸ worked)
  have works := Passes.goes (program.begins_of_offers offers) passes
  have ends := (valid.passes works).2.step finishes
  subst answer finished
  refine ⟨_, ⟨⟨journal, middle, _, works, finishes, rfl, State.queue_finish ..⟩, ?_⟩, fun check accepts => ?_⟩
  · intro error fault failed about
    cases outcome with
    | ok package => cases failed
    | error found =>
      cases failed
      exact (blames _ fault rfl about).later ends.1
  · have again := same check (accepts.mono (Activity.subset_between _ _ _ _))
    unfold checkedSpecialize
    rw [PassM.run_get_bind, PassM.run_set_bind]
    exact (PassM.run_bracket_congr (again.trans worked.symm)).trans ran

theorem body_follows (budget : Nat) (valid : start.Valid program) (offers : start.Offers position pending)
    (drains : ∀ depth waiting, Follows program (.body pending depth waiting :: start.frames) .working Fault.limit?
      [.instantiated pending.target] (.of (program.drainFrom budget waiting.length) fun check =>
        program.checkedDrainFrom check budget waiting.length)) :
    FollowsFrom program .working Fault.limit? start (start.state.take position)
      (.of (program.specialize (.ofBudget program budget) (program.drainFrom budget) pending) fun check =>
        ExceptT.mk (check.around (.body pending) (program.checkedSpecialize check (.checked program check budget)
          (program.checkedDrainFrom check budget) pending).run)) := by
  have works : FollowsFrom program .working Fault.limit? start (start.state.take position)
      (.of (program.specialize (.ofBudget program budget) (program.drainFrom budget) pending) fun check =>
        program.checkedSpecialize check (.checked program check budget) (program.checkedDrainFrom check budget)
          pending) := by
    intro result last ran
    obtain ⟨path, ⟨⟨journal, middle, inner, passes, finishes, rfl, _⟩, blames⟩, same⟩ :=
      specialize_completes (Lookup.follows_watched program .working budget) valid offers drains ran
    exact ⟨_, .of_passes (passes.trans (.single finishes)) blames, same⟩
  exact works.around (.body pending) ⟨start, List.mem_singleton_self _, position, offers, rfl⟩

/-- Instances are taken from behind what waited when the innermost open body was started. -/
theorem drainFrom_follows (program : Program) (budget : Nat) {floor mark : Nat}
    (free : Frame.mark? frames = some floor) (behind : floor ≤ mark) :
    Follows program frames .working Fault.limit? scopes
      (.of (program.drainFrom budget mark) fun check => program.checkedDrainFrom check budget mark) := by
  induction budget generalizing frames scopes floor mark with
  | zero =>
    intro start stands result last ran
    cases ran
  | succ budget ih =>
    intro start stands
    cases next : start.state.queue[mark]? with
    | none =>
      obtain ⟨plain, checked⟩ := program.run_drainFrom_of_none budget next
      exact FollowsFrom.congr (Follows.pure () start stands) plain checked
    | some pending =>
      have offers : start.Offers mark pending := ⟨floor, stands.frames ▸ free, behind, next⟩
      -- what the body queues comes behind all that waits when it is started
      have works := body_follows budget stands.valid offers fun depth waiting => ih rfl (Nat.le_refl waiting.length)
      obtain ⟨plain, checked⟩ := program.run_drainFrom_of_some budget next
      exact FollowsFrom.congr (works.bind stands fun _ => ih free behind) plain checked

end Program

/-- Between the parts of the pass no work is open, and an operation goes along a path on which it can be
watched. -/
def Machine.Follows (program : Program) (operation : Machine α) (checked : Check → Machine α) : Prop :=
  ∀ journal first, Activity.Valid program ⟨[], journal, first⟩ → ∀ value last,
    operation.run first = some (value, last) →
    ∃ path journal', program.Passes .working ⟨[], journal, first⟩ path ⟨[], journal', last⟩ ∧
      ∀ check : Check, check.Accepts (Activity.Seen (⟨[], journal, first⟩ :: path)) →
        (checked check).run first = some (value, last)

theorem Machine.Follows.bind {operation : Machine α} {checked : Check → Machine α} {next : α → Machine β}
    {next' : Check → α → Machine β} (follows : Machine.Follows program operation checked)
    (continues : ∀ value, Machine.Follows program (next value) fun check => next' check value) :
    Machine.Follows program (operation >>= next) fun check => checked check >>= next' check := by
  intro journal first valid value last ran
  rw [Machine.run_bind_eq] at ran
  obtain ⟨⟨found, middle⟩, stepped, ended⟩ := Option.bind_eq_some_iff.mp ran
  obtain ⟨path, between, passes, same⟩ := follows journal first valid found middle stepped
  obtain ⟨further, journal', passes', same'⟩ :=
    continues found between middle (valid.passes passes).2 value last ended
  refine ⟨path ++ further, journal', passes.trans passes', fun check accepts => ?_⟩
  obtain ⟨before, after⟩ := accepts.append passes.last_mem
  rw [Machine.run_bind_eq, same check before]
  exact same' check after

theorem FollowsFrom.settle {start : Activity} {first last : State} {operations : Watched Fault α}
    {gives : α → List Scope} (follows : FollowsFrom program .working Fault.limit? start first operations gives)
    (outside : start.frames = []) {result : Except Fault α} (ran : (operations none).run first = some (result, last)) :
    ∃ path journal, program.Passes .working start path ⟨[], journal, last.settle result⟩ ∧
      ∀ check : Check, check.Accepts (Activity.Seen (start :: path)) →
        (operations (some check)).run first = some (result, last) := by
  obtain ⟨path, ⟨⟨journal, passes⟩, blames, _⟩, same⟩ := follows result last ran
  rw [outside] at passes
  cases result with
  | ok value => exact ⟨path, journal, passes, same⟩
  | error fault =>
    have records : program.Moves .working ⟨[], journal, last⟩ ⟨[], journal, last.record fault⟩ :=
      .record fun error found same => blames error found (by cases same; rfl)
    refine ⟨path ++ [_], journal, passes.trans (.single records), fun check accepts => same check ?_⟩
    exact accepts.mono (List.subset_append_left (start :: path) _)

namespace Program

theorem kept_follows {operations : Watched Fault α} (scope : Scope) (plain : ∀ state : State, state.Knows scope)
    (follows : Follows program [] .working Fault.limit? [scope] operations) :
    Machine.Follows program (PassM.kept (operations none)) fun check =>
      PassM.kept (ExceptT.mk (check.around .item (operations (some check)).run)) := by
  intro journal first valid value last ended
  rw [PassM.run_kept] at ended
  obtain ⟨⟨result, middle⟩, ran, kept⟩ := Option.bind_eq_some_iff.mp ended
  cases kept
  have stands : program.Stands [] [scope] ⟨[], journal, first⟩ :=
    ⟨valid, rfl, fun _ listed => List.mem_singleton.mp listed ▸ plain first⟩
  have around := FollowsFrom.around (follows _ stands) .item ⟨_, List.mem_singleton_self _, rfl⟩
  obtain ⟨path, journal', passes, same⟩ := around.settle rfl ran
  refine ⟨path, journal', passes, fun check accepts => ?_⟩
  rw [PassM.run_kept]
  exact Option.bind_eq_some_iff.mpr ⟨_, same check accepts, rfl⟩

theorem drain_follows (program : Program) (budget : Nat) :
    Machine.Follows program (program.drain budget) fun check => program.checkedDrain check budget := by
  induction budget with
  | zero =>
    intro journal first valid value last ran
    cases ran
  | succ budget ih =>
    intro journal first valid value last ran
    cases next : first.queue[0]? with
    | none =>
      obtain ⟨plain, checked⟩ := program.run_drain_of_none budget next
      cases plain.symm.trans ran
      exact ⟨[], journal, .stays, fun check _ => checked check⟩
    | some pending =>
      obtain ⟨plain, checked⟩ := program.run_drain_of_some budget next
      obtain ⟨⟨result, middle⟩, worked, ended⟩ := Option.bind_eq_some_iff.mp (plain.symm.trans ran)
      have works := body_follows budget valid ⟨0, rfl, Nat.le_refl 0, next⟩ fun depth waiting =>
        drainFrom_follows program budget rfl (Nat.le_refl waiting.length)
      obtain ⟨path, between, passes, same⟩ := works.settle rfl worked
      obtain ⟨further, journal', passes', same'⟩ := ih between _ (valid.passes passes).2 value last ended
      refine ⟨path ++ further, journal', passes.trans passes', fun check accepts => ?_⟩
      obtain ⟨before, after⟩ := accepts.append passes.last_mem
      rw [checked check]
      exact Option.bind_eq_some_iff.mpr ⟨_, same check before, same' check after⟩

theorem carries_follows (program : Program) (budget : Nat) :
    program.Carries (fun _ operation checked => Machine.Follows program operation checked) budget where
  pure value := by
    intro journal first valid found last ran
    cases ran
    exact ⟨[], journal, .stays, fun _ _ => rfl⟩
  bind := .bind
  packageItem name _ item within :=
    kept_follows (.package name) (fun _ => trivial) (lowerPackageItem_related (relates_follows
      (Lookup.follows_watched program .working budget) (List.mem_singleton.mpr within)) item)
  moduleItem name _ item within :=
    kept_follows (.module name) (fun _ => trivial) (lowerModuleItem_related (relates_follows
      (Lookup.follows_watched program .working budget) (List.mem_singleton.mpr within)) item)
  drain := drain_follows program budget

end Program

theorem Activity.valid_initial : Activity.Valid program ⟨[], [], .initial⟩ := by
  refine ⟨State.sound_initial, State.coherent_initial, ⟨List.nodup_nil, fun key => ⟨nofun, nofun⟩⟩, rfl, .outside,
    fun target => ⟨nofun, nofun⟩, List.nodup_nil, trivial, nofun, ?_, fun fault keeps => ?_⟩
  · refine ⟨List.nodup_nil, fun target => ⟨nofun, fun known => ?_⟩, nofun, nofun, nofun, fun _ _ refuses => ?_⟩
    · cases known
    · cases refuses.failed
  · cases keeps with
    | reported member => cases member
    | constant failed => cases failed
    | specialization failed => cases failed

theorem Activity.valid_ofUnit (unit : SourceUnit) : Activity.Valid program ⟨[], [], .ofUnit unit⟩ := by
  unfold State.ofUnit
  refine List.foldlRecOn (motive := fun state => Valid program ⟨[], [], state⟩) _ _ valid_initial ?_
  intro state valid fault member
  refine (valid.record fun error found same about => ?_).2
  cases same
  rw [(SourceUnit.plain_of_mem_declarationFaults member).limit] at about
  cases about

namespace SourceUnit

def start (unit : SourceUnit) : Activity := ⟨[], [], .ofUnit unit⟩

/-- A path of steps from the start of the pass to its end, on which all its moments lie: no check that accepts
what is seen on the path changes anything. -/
structure Unfolds (unit : SourceUnit) (settings : Settings) (budget : Nat) (path : List Activity)
    (journal : Journal) (result : List Description × State) : Prop where
  passes : (Program.ofUnit unit settings).Passes .working unit.start path ⟨[], journal, result.2⟩
  seen : ∀ check : Check, check.Accepts (Activity.Seen (unit.start :: path)) →
    unit.checked? settings check budget = some result

theorem exists_unfolds {unit : SourceUnit} {settings : Settings} {budget : Nat} {result : List Description × State}
    (ran : unit.run? settings budget = some result) :
    ∃ path journal, unit.Unfolds settings budget path journal result := by
  obtain ⟨path, journal, passes, same⟩ := (Program.carries_follows (Program.ofUnit unit settings) budget).lowerAll []
    (.ofUnit unit) (Activity.valid_ofUnit unit) result.1 result.2 ran
  refine ⟨path, journal, passes, fun check accepts => ?_⟩
  have again := same check accepts
  refine (Check.around_eq ?_ fun value last ended => ?_).trans again
  · exact accepts _ _ ⟨_, List.mem_cons_self, rfl⟩
  · cases again.symm.trans ended
    exact accepts _ _ ⟨_, passes.last_mem, rfl⟩

end SourceUnit
end Monomorph
