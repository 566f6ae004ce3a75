import Monomorph.Proofs.Locality.Unit
import Monomorph.Proofs.Result.Flattened

/-! Units with one more description.

A generic package that nothing refers to changes nothing, wherever it is inserted and
whatever its body is. A module at the end of a unit leaves the result for what stands
before it as it is, and adds to it.
-/

set_option autoImplicit false

namespace Monomorph

theorem filterMapM_append {α β : Type} (each : α → Machine (Option β)) (front back : List α) :
    (front ++ back).filterMapM each = (do
      let first ← front.filterMapM each
      let second ← back.filterMapM each
      pure (first ++ second)) := by
  induction front with
  | nil => simp
  | cons head rest ih =>
    rw [List.cons_append, List.filterMapM_cons, List.filterMapM_cons, bind_assoc]
    refine bind_congr fun kept => ?_
    cases kept with
    | none => exact ih
    | some result => simp only [ih, bind_assoc, pure_bind, List.cons_append]

theorem Program.filterMapM_generic (program : Program) (budget : Nat) {decl : Package}
    (generic : decl.isGeneric = true) (front back : List Description) :
    (front ++ .package decl :: back).filterMapM (program.lowerDescription budget)
      = (front ++ back).filterMapM (program.lowerDescription budget) := by
  rw [filterMapM_append, filterMapM_append, List.filterMapM_cons]
  simp only [Program.lowerDescription, generic, if_true, pure_bind]

theorem Program.filterMapM_module (program : Program) (budget : Nat) (decl : Module) :
    [Description.module decl].filterMapM (program.lowerDescription budget) = (do
      let lowered ← program.lowerModule budget decl
      pure [.module lowered]) := by
  simp only [List.filterMapM_cons, List.filterMapM_nil, Program.lowerDescription, bind_assoc, pure_bind]

namespace SourceUnit

theorem distinct_go_congr {seen other : List String} {descriptions : List Description}
    (same : ∀ description ∈ descriptions, description.name ∈ other ↔ description.name ∈ seen) :
    distinct.go other descriptions = distinct.go seen descriptions := by
  induction descriptions generalizing seen other with
  | nil => rfl
  | cons first rest ih =>
    obtain ⟨here, later⟩ := List.forall_mem_cons.mp same
    have rest_eq : distinct.go (first.name :: other) rest = distinct.go (first.name :: seen) rest :=
      ih fun description member => by simp only [List.mem_cons, later description member]
    simp only [distinct.go, here, ih later, rest_eq]

theorem declarationFaults_go_congr {seen other : List String} {descriptions : List Description}
    (same : ∀ description ∈ descriptions, description.name ∈ other ↔ description.name ∈ seen) :
    declarationFaults.go other descriptions = declarationFaults.go seen descriptions := by
  induction descriptions generalizing seen other with
  | nil => rfl
  | cons first rest ih =>
    obtain ⟨here, later⟩ := List.forall_mem_cons.mp same
    have rest_eq : declarationFaults.go (first.name :: other) rest = declarationFaults.go (first.name :: seen) rest :=
      ih fun description member => by simp only [List.mem_cons, later description member]
    simp only [declarationFaults.go, here, ih later, rest_eq]

section Insertion

variable {before after : List Description} {added : Description} {seen : List String}

theorem mem_cons_iff_of_apart (apart : ∀ description ∈ after, description.name ≠ added.name) :
    ∀ description ∈ after, description.name ∈ added.name :: seen ↔ description.name ∈ seen := by
  intro description member
  simp only [List.mem_cons, apart description member, false_or]

theorem exists_distinct_go_insert (fresh : added.name ∉ seen)
    (apart : ∀ description ∈ before ++ after, description.name ≠ added.name) :
    ∃ front back, distinct.go seen (before ++ after) = front ++ back ∧
      distinct.go seen (before ++ added :: after) = front ++ added :: back := by
  induction before generalizing seen with
  | nil =>
    rw [List.nil_append] at apart
    refine ⟨[], distinct.go seen after, rfl, ?_⟩
    rw [List.nil_append, distinct.go, if_neg fresh, distinct_go_congr (mem_cons_iff_of_apart apart)]
    rfl
  | cons first rest ih =>
    rw [List.cons_append] at apart
    obtain ⟨here, later⟩ := List.forall_mem_cons.mp apart
    simp only [List.cons_append, distinct.go]
    split
    · exact ih fresh later
    · have fresh' : added.name ∉ first.name :: seen := by simp [fresh, Ne.symm here]
      obtain ⟨front, back, without, inserted⟩ := ih fresh' later
      exact ⟨first :: front, back, congrArg _ without, congrArg _ inserted⟩

theorem declarationFaults_go_insert (fresh : added.name ∉ seen)
    (apart : ∀ description ∈ before ++ after, description.name ≠ added.name)
    (unreserved : reservedFaults added.name added.span = []) (inner : added.innerFaults = []) :
    declarationFaults.go seen (before ++ added :: after) = declarationFaults.go seen (before ++ after) := by
  induction before generalizing seen with
  | nil =>
    rw [List.nil_append] at apart
    rw [List.nil_append, List.nil_append, declarationFaults.go, if_neg fresh, unreserved, inner,
      declarationFaults_go_congr (mem_cons_iff_of_apart apart)]
    rfl
  | cons first rest ih =>
    rw [List.cons_append] at apart
    obtain ⟨here, later⟩ := List.forall_mem_cons.mp apart
    have fresh' : added.name ∉ first.name :: seen := by simp [fresh, Ne.symm here]
    simp only [List.cons_append, declarationFaults.go, ih fresh later, ih fresh' later]

theorem declarationFaults_go_front {front back : List Description}
    (none : declarationFaults.go seen (front ++ back) = []) : declarationFaults.go seen front = [] := by
  induction front generalizing seen with
  | nil => rfl
  | cons first rest ih =>
    rw [List.cons_append, declarationFaults.go] at none
    obtain ⟨reserved, none⟩ := List.append_eq_nil_iff.mp none
    rw [declarationFaults.go, reserved]
    split at none
    · cases none
    · rename_i fresh
      obtain ⟨inner, none⟩ := List.append_eq_nil_iff.mp none
      rw [if_neg fresh, inner, ih none]
      rfl

theorem mem_of_mem_distinct_go {descriptions : List Description} {description : Description}
    (member : description ∈ distinct.go seen descriptions) : description ∈ descriptions := by
  induction descriptions generalizing seen with
  | nil => exact member
  | cons first rest ih =>
    rw [distinct.go] at member
    split at member
    · exact List.mem_cons_of_mem first (ih member)
    · rcases List.mem_cons.mp member with here | later
      · exact here ▸ List.mem_cons_self
      · exact List.mem_cons_of_mem first (ih later)

end Insertion

/-- A unit is within one that has a description more, unless that is a package that the unit refers to. -/
theorem within_insert {unit wider : SourceUnit} {before after : List Description} {added : Description}
    (parts : unit.descriptions = before ++ after) (whole : wider.descriptions = before ++ added :: after)
    (undeclared : ∀ description ∈ unit.descriptions, description.name ≠ added.name)
    (unreferenced : ∀ package, added = .package package → ∀ reference : Reference,
      reference.Occurs unit.references → reference.package ≠ package.name) (settings : Settings) :
    (Program.ofUnit unit settings).Within (.ofUnit wider settings) := by
  have find (name : String) (other : name ≠ added.name) :
      wider.descriptions.find? (·.name = name) = unit.descriptions.find? (·.name = name) := by
    rw [parts, whole, List.find?_append, List.find?_append, List.find?_cons_of_neg]
    simpa using Ne.symm other
  -- a name that is declared is not the one that is added
  have declared {name : String} {description : Description}
      (found : unit.descriptions.find? (·.name = name) = some description) :
      wider.descriptions.find? (·.name = name) = some description := by
    have apart := undeclared description (List.mem_of_find?_eq_some found)
    rw [Description.find?_name found] at apart
    exact (find name apart).trans found
  constructor
  · rfl
  · intro name package found
    rw [Program.package?_ofUnit] at found ⊢
    obtain ⟨description, here, is⟩ := Option.bind_eq_some_iff.mp found
    rw [declared here]
    exact is
  · intro name decl found
    rw [Program.module?_ofUnit] at found ⊢
    obtain ⟨description, here, is⟩ := Option.bind_eq_some_iff.mp found
    rw [declared here]
    exact is
  · intro description member reference listed inner occurs
    have occurs : inner.Occurs unit.references := by
      apply occurs.mono
      refine List.cons_subset.mpr ⟨?_, List.nil_subset _⟩
      exact List.mem_flatMap.mpr ⟨description, mem_of_mem_distinct_go member, listed⟩
    rw [Program.package?_ofUnit, Program.package?_ofUnit]
    by_cases same : inner.package = added.name
    · have absent : unit.descriptions.find? (·.name = inner.package) = none := by
        rw [List.find?_eq_none]
        intro other there
        simpa [same] using undeclared other there
      cases added with
      | package package => exact absurd same (unreferenced package rfl inner occurs)
      | module decl =>
        rw [parts, List.find?_append, Option.or_eq_none_iff] at absent
        rw [parts, whole, List.find?_append, List.find?_append, absent.1, absent.2,
          List.find?_cons_of_pos (by simpa using same.symm)]
        rfl
    · rw [find inner.package same]

end SourceUnit

theorem State.queue_record (state : State) (fault : Fault) : (state.record fault).queue = state.queue := by
  unfold State.record
  split <;> rfl

theorem State.drained_ofUnit (unit : SourceUnit) {program : Program} : (State.ofUnit unit).Drained program := by
  have queue (faults : List Fault) (state : State) : (faults.foldl State.record state).queue = state.queue := by
    induction faults generalizing state with
    | nil => rfl
    | cons fault rest ih => rw [List.foldl_cons, ih, queue_record]
  exact ⟨settled_foldl_record settled_initial _, queue _ _⟩

namespace Package

def Unreserved (package : Package) : Prop :=
  isReserved package.name = false ∧ (∀ parameter ∈ package.parameters, isReserved parameter.name = false) ∧
    ∀ item ∈ package.items, isReserved item.name = false

instance (package : Package) : Decidable package.Unreserved :=
  inferInstanceAs (Decidable (_ ∧ _ ∧ _))

theorem Unreserved.innerFaults_eq_nil {package : Package} (unreserved : package.Unreserved) :
    (Description.package package).innerFaults = [] := by
  obtain ⟨_, parameters, items⟩ := unreserved
  apply List.append_eq_nil_iff.mpr
  constructor
  · exact List.flatMap_eq_nil_iff.mpr fun parameter member => reservedFaults_eq_nil (parameters parameter member)
  · exact List.flatMap_eq_nil_iff.mpr fun item member => reservedFaults_eq_nil (items item member)

end Package

namespace SourceUnit

def insert (unit : SourceUnit) (position : Nat) (added : Description) : SourceUnit :=
  ⟨unit.name, unit.descriptions.take position ++ added :: unit.descriptions.drop position⟩

variable {unit : SourceUnit} {added : Package}

theorem run?_insert (settings : Settings) (generic : added.isGeneric = true)
    (undeclared : ∀ description ∈ unit.descriptions, description.name ≠ (Description.package added).name)
    (unreferenced : ∀ reference : Reference, reference.Occurs unit.references → reference.package ≠ added.name)
    (unreserved : added.Unreserved) (position budget : Nat) :
    (unit.insert position (.package added)).run? settings budget = unit.run? settings budget := by
  have parts := (List.take_append_drop position unit.descriptions).symm
  have within : (Program.ofUnit unit settings).Within (.ofUnit (unit.insert position (.package added)) settings) :=
    within_insert parts rfl undeclared (fun _ same => by cases same; exact unreferenced) settings
  rw [parts] at undeclared
  have faults : (unit.insert position (.package added)).declarationFaults = unit.declarationFaults := by
    unfold declarationFaults
    rw [parts]
    exact declarationFaults_go_insert List.not_mem_nil undeclared (reservedFaults_eq_nil unreserved.1)
      unreserved.innerFaults_eq_nil
  obtain ⟨front, back, without, inserted⟩ := exists_distinct_go_insert List.not_mem_nil undeclared
  have whole : (Program.ofUnit (unit.insert position (.package added)) settings).descriptions
      = front ++ .package added :: back := inserted
  have rest : (Program.ofUnit unit settings).descriptions = front ++ back := by
    rw [← parts] at without
    exact without
  unfold run? State.ofUnit Program.lowerAll
  rw [faults, whole, Program.filterMapM_generic _ _ generic, ← rest]
  obtain ⟨same, kept⟩ := within.lowerDescriptions_agrees budget _ (State.drained_ofUnit unit)
  apply Machine.run_bind_congr same
  intro descriptions middle ran
  have drained := kept descriptions middle ran
  exact Machine.run_bind_congr (within.run_drain_eq budget drained.consistent) fun _ _ _ => rfl

/-- A generic package that nothing refers to changes nothing about the outcome, wherever it is inserted
and whatever its body is. -/
theorem instantiate_insert_unreferenced (generic : added.isGeneric = true)
    (undeclared : ∀ description ∈ unit.descriptions, description.name ≠ added.name)
    (unreferenced : ∀ reference : Reference, reference.Occurs unit.references → reference.package ≠ added.name)
    (unreserved : added.Unreserved) (position : Nat) (settings : Settings) :
    (unit.insert position (.package added)).instantiate settings = unit.instantiate settings := by
  obtain ⟨budget, ran⟩ := unit.run?_endFrom settings 1000
  have inserted := run?_insert settings generic undeclared unreferenced unreserved position budget
  rw [ran] at inserted
  rw [instantiate_eq _ settings inserted, instantiate_eq _ settings ran]
  rfl

end SourceUnit

/-- A package with a cycle through its own instances, a width that is no number and a reference to nothing. -/
def strayPackage : Package :=
  ⟨"Stray", [⟨"N", .const, nowhere⟩],
    [.const ⟨"Loop", some .bool, .reference "Stray" [.ident "N"] ["Loop"] nowhere, nowhere⟩,
      .typeDef "Word" (.logic (some (.literal (.bool true)))),
      .typeDef "Other" (.reference ⟨"Nothing", [.ident "M"], ["Word"], nowhere⟩)], nowhere⟩

theorem instantiate_insert_strayPackage :
    strayPackage.isGeneric = true ∧ strayPackage.Unreserved ∧
      (sampleUnit.insert 1 (.package strayPackage)).instantiate {} = sampleUnit.instantiate {} := by
  have undeclared : ∀ description ∈ sampleUnit.descriptions, description.name ≠ strayPackage.name := by decide +kernel
  have flat : ∀ outer ∈ sampleUnit.references, (Expr.listReferences outer.arguments).isEmpty = true := by
    decide +kernel
  have unreferenced : ∀ outer ∈ sampleUnit.references, outer.package ≠ strayPackage.name := by decide +kernel
  refine ⟨rfl, by decide +kernel, SourceUnit.instantiate_insert_unreferenced rfl undeclared ?_ (by decide +kernel) 1 {}⟩
  intro reference occurs
  exact unreferenced reference (occurs.mem fun outer member => List.isEmpty_iff.mp (flat outer member))

theorem Program.run_drain_of_empty (program : Program) {budget : Nat} (positive : budget ≠ 0) {state : State}
    (empty : state.queue = []) : (program.drain budget).run state = some ((), state) := by
  obtain ⟨budget, rfl⟩ := Nat.exists_eq_succ_of_ne_zero positive
  unfold Program.drain
  rw [Machine.run_get_bind, empty]
  rfl

namespace SourceUnit

def append (unit : SourceUnit) (decl : Module) : SourceUnit := ⟨unit.name, unit.descriptions ++ [.module decl]⟩

variable {unit : SourceUnit} {settings : Settings} {decl : Module} {larger : InstantiatedUnit}

theorem exists_run?_of_success {result : InstantiatedUnit} (success : unit.instantiate settings = .success result) :
    ∃ budget final, unit.run? settings budget = some (result.descriptions, final) ∧ final.faults = [] ∧
      result.packages = final.specialized ∧ result.registry = final.registry := by
  obtain ⟨budget, ran⟩ := unit.run?_endFrom settings 1000
  refine ⟨budget, (unit.endFrom settings 1000).2, ?_⟩
  simp only [instantiate, outcome] at success
  split at success
  · rename_i empty
    cases success
    exact ⟨ran, List.isEmpty_iff.mp empty, rfl, rfl⟩
  · cases success

theorem declarations_of_append (none : (unit.append decl).declarationFaults = []) :
    unit.declarationFaults = [] ∧ (unit.append decl).distinct = unit.distinct ++ [.module decl] ∧
      ∀ description ∈ unit.descriptions, description.name ≠ decl.name := by
  have front : declarationFaults.go [] unit.descriptions = [] := declarationFaults_go_front none
  obtain ⟨whole, nodup, _⟩ := declarations_of_faults_go none
  obtain ⟨kept, _, _⟩ := declarations_of_faults_go front
  refine ⟨front, ?_, fun description member same => ?_⟩
  · unfold distinct
    rw [whole, kept]
    rfl
  · unfold append at nodup
    rw [List.map_append, List.map_singleton] at nodup
    have apart := (List.nodup_append.mp nodup).2.2
    exact apart _ (List.mem_map.mpr ⟨description, member, rfl⟩) _ (List.mem_singleton_self _) same

/-- The pass over a unit and a module at its end passes through the end of the pass over the unit. -/
theorem exists_run?_of_append {budget : Nat} {descriptions : List Description} {final : State}
    (none : (unit.append decl).declarationFaults = [])
    (ran : (unit.append decl).run? settings budget = some (descriptions, final)) :
    ∃ front lowered middle, unit.run? settings budget = some (front, middle) ∧
      descriptions = front ++ [.module lowered] ∧ middle.Leads final ∧
      (final.faults = [] → final.Holds fun registry =>
        (Program.ofUnit (unit.append decl) settings).Lowers registry (.module decl) (.module lowered)) := by
  obtain ⟨unfaulty, whole, undeclared⟩ := declarations_of_append none
  have within : (Program.ofUnit unit settings).Within (.ofUnit (unit.append decl) settings) :=
    within_insert (List.append_nil _).symm rfl undeclared (fun _ same => by cases same) settings
  have start : State.ofUnit (unit.append decl) = State.ofUnit unit := by
    rw [State.ofUnit, State.ofUnit, none, unfaulty]
  have parts : (Program.ofUnit (unit.append decl) settings).descriptions
      = (Program.ofUnit unit settings).descriptions ++ [.module decl] := whole
  -- first come the descriptions of the unit, then the module, then the queue
  unfold run? Program.lowerAll at ran
  rw [start, parts, filterMapM_append, Program.filterMapM_module, bind_assoc] at ran
  obtain ⟨front, middle, walked, ran⟩ := Machine.run_bind_eq_some ran
  simp only [bind_assoc, pure_bind] at ran
  obtain ⟨lowered, worked, module, ran⟩ := Machine.run_bind_eq_some ran
  obtain ⟨_, last, drained, ran⟩ := Machine.run_bind_eq_some ran
  cases ran
  obtain ⟨_, settled, _⟩ := Machine.Ensures.filterMapM
    (fun description _ => Program.lowerDescription_ensures budget description) _ _ _
    (State.drained_ofUnit unit).toSettled walked
  obtain ⟨leads, settled, lowers⟩ := Program.lowerModule_ensures budget decl _ _ _ settled module
  obtain ⟨leads', _, _⟩ := Program.drain_settles _ budget settled drained
  obtain ⟨same, kept⟩ := within.lowerDescriptions_agrees budget _ (State.drained_ofUnit unit)
  rw [same] at walked
  have positive : budget ≠ 0 := by
    rintro rfl
    cases drained
  refine ⟨front, lowered, middle, ?_, rfl, leads.trans leads', fun clean => ?_⟩
  · -- nothing waits any more when the unit is walked through
    unfold run? Program.lowerAll
    rw [Machine.run_bind_eq, walked]
    show ((Program.ofUnit unit settings).drain budget >>= fun _ => pure front).run middle = some (front, middle)
    rw [Machine.run_bind_eq, Program.run_drain_of_empty _ positive (kept front middle walked).queue]
    rfl
  · exact (lowers (leads'.faults clean)).later leads'.registry

structure Prolongs (unit : SourceUnit) (settings : Settings) (decl : Module) (result larger : InstantiatedUnit) :
    Prop where
  descriptions : ∃ lowered, larger.descriptions = result.descriptions ++ [.module lowered] ∧
    (Program.ofUnit (unit.append decl) settings).Lowers larger.registry (.module decl) (.module lowered)
  packages : result.packages <+: larger.packages
  registry : ∀ base id arguments, result.registry.get? ⟨base, id⟩ = some arguments →
    larger.registry.get? ⟨base, id⟩ = some arguments

/-- Where the pass succeeds on a unit with a module at its end, it succeeds on the unit alone, and what it
gives for the unit stays as it is. -/
theorem prolongs_of_append (success : (unit.append decl).instantiate settings = .success larger) :
    ∃ result, unit.instantiate settings = .success result ∧ unit.Prolongs settings decl result larger := by
  obtain ⟨budget, final, ran, clean, packages, registry⟩ := exists_run?_of_success success
  obtain ⟨front, lowered, middle, ran, descriptions, leads, lowers⟩ :=
    exists_run?_of_append ((run?_ends ran).2 clean).1 ran
  have unfaulty : middle.faults.isEmpty = true := List.isEmpty_iff.mpr (leads.faults clean)
  refine ⟨_, instantiate_eq_success ran unfaulty, ⟨⟨lowered, descriptions, ?_⟩, ?_, ?_⟩⟩
  · rw [registry]
    exact (lowers clean).now
  · rw [packages]
    exact leads.specialized
  · intro base id arguments known
    rw [registry]
    exact leads.registry.get? known

end SourceUnit

def probeModule : Module :=
  ⟨"Probe",
    [.const ⟨"B", none, .reference "Bank" [.int 15] ["Address"] nowhere, nowhere⟩,
      .var "wide" (.reference ⟨"Counter", [.int 99], ["Word"], nowhere⟩)], nowhere⟩

theorem prolongs_sampleUnit : ∃ larger, (sampleUnit.append probeModule).instantiate {} = .success larger ∧
    larger.packages.map (·.name) = ["__Counter__1", "__Bank__1", "__Counter__2"] ∧
    ∃ result, sampleUnit.instantiate {} = .success result ∧ sampleUnit.Prolongs {} probeModule result larger := by
  have emitted : ((sampleUnit.append probeModule).run? {} 20).map
      (fun ended => (ended.2.faults.isEmpty, ended.2.specialized.map (·.name)))
        = some (true, ["__Counter__1", "__Bank__1", "__Counter__2"]) := by
    decide +kernel
  obtain ⟨⟨descriptions, final⟩, ran, both⟩ := Option.map_eq_some_iff.mp emitted
  rw [Prod.mk.injEq] at both
  have success := SourceUnit.instantiate_eq_success ran both.1
  exact ⟨_, success, both.2, SourceUnit.prolongs_of_append success⟩

end Monomorph
