import Monomorph.Pass.State

/-! What is left to do, counted by level.

A body of some level evaluates each constant once, takes instances out of the
queue, and asks for new instances at the next level only. Compared level by level
from the lowest, what is left at the levels up to the one worked on therefore
never rises. `Weight.wellFounded_below` says that it cannot fall forever.
-/

set_option autoImplicit false

namespace Monomorph

/-- How much is left to do at each level. -/
abbrev Weight := Nat → Nat

namespace Weight

/-- Less at some level up to the bound, and the same at every level before it. -/
def Below (bound : Nat) (first second : Weight) : Prop :=
  ∃ level, level ≤ bound ∧ first level < second level ∧
    ∀ lower, lower < level → first lower = second lower

def Agree (bound : Nat) (first second : Weight) : Prop :=
  ∀ level, level ≤ bound → first level = second level

def NotAbove (bound : Nat) (first second : Weight) : Prop :=
  Below bound first second ∨ Agree bound first second

variable {bound other : Nat} {first second third : Weight}

theorem Below.mono (le : bound ≤ other) : Below bound first second → Below other first second
  | ⟨level, within, less, before⟩ => ⟨level, Nat.le_trans within le, less, before⟩

theorem Below.notAbove (below : Below bound first second) (other : Nat) :
    NotAbove other first second := by
  obtain ⟨level, _, less, before⟩ := below
  by_cases within : level ≤ other
  · exact .inl ⟨level, within, less, before⟩
  · exact .inr fun lower low => before lower (by omega)

theorem NotAbove.refl (bound : Nat) (weight : Weight) : NotAbove bound weight weight :=
  .inr fun _ _ => rfl

theorem NotAbove.anti (le : other ≤ bound) :
    NotAbove bound first second → NotAbove other first second
  | .inl below => below.notAbove other
  | .inr agree => .inr fun level low => agree level (Nat.le_trans low le)

theorem Below.trans_notAbove (below : Below bound first second)
    (next : NotAbove bound second third) : Below bound first third := by
  obtain ⟨level, within, less, before⟩ := below
  rcases next with ⟨level', within', less', before'⟩ | agree
  · by_cases order : level ≤ level'
    · refine ⟨level, within, ?_, fun lower low => (before lower low).trans (before' lower (by omega))⟩
      by_cases same : level = level'
      · subst same; omega
      · have := before' level (by omega); omega
    · refine ⟨level', within', ?_, fun lower low => (before lower (by omega)).trans (before' lower low)⟩
      have := before level' (by omega); omega
  · refine ⟨level, within, ?_, fun lower low => (before lower low).trans (agree lower (by omega))⟩
    have := agree level within; omega

theorem NotAbove.trans_below (notAbove : NotAbove bound first second)
    (next : Below bound second third) : Below bound first third := by
  rcases notAbove with below | agree
  · exact below.trans_notAbove (.inl next)
  · obtain ⟨level, within, less, before⟩ := next
    refine ⟨level, within, ?_, fun lower low => (agree lower (by omega)).trans (before lower low)⟩
    have := agree level within; omega

theorem NotAbove.trans (notAbove : NotAbove bound first second)
    (next : NotAbove bound second third) : NotAbove bound first third := by
  rcases next with below | agree
  · exact .inl (notAbove.trans_below below)
  · rcases notAbove with below' | agree'
    · exact .inl (below'.trans_notAbove (.inr agree))
    · exact .inr fun level low => (agree' level low).trans (agree level low)

theorem below_of_le (le : ∀ level, first level ≤ second level) (level : Nat) :
    first level < second level → Below level first second := by
  induction level using Nat.strongRecOn with
  | ind level ih =>
    intro less
    by_cases earlier : ∃ lower, lower < level ∧ first lower < second lower
    · obtain ⟨lower, low, less'⟩ := earlier
      exact (ih lower low less').mono (Nat.le_of_lt low)
    · refine ⟨level, Nat.le_refl _, less, fun lower low => ?_⟩
      have := le lower
      by_cases less' : first lower < second lower
      · exact absurd ⟨lower, low, less'⟩ earlier
      · omega

theorem notAbove_of_le (le : ∀ level, first level ≤ second level) (bound : Nat) :
    NotAbove bound first second := by
  by_cases less : ∃ level, first level < second level
  · obtain ⟨level, less⟩ := less
    exact (below_of_le le level less).notAbove bound
  · refine .inr fun level _ => ?_
    have := le level
    by_cases less' : first level < second level
    · exact absurd ⟨level, less'⟩ less
    · omega

theorem wellFounded_below (bound : Nat) : WellFounded (Below bound) := by
  induction bound with
  | zero =>
    refine Subrelation.wf ?_ (InvImage.wf (fun weight : Weight => weight 0) Nat.lt_wfRel.wf)
    intro first second below
    obtain ⟨level, within, less, _⟩ := below
    have : level = 0 := Nat.le_zero.mp within
    subst this
    exact less
  | succ bound ih =>
    refine Subrelation.wf ?_ (InvImage.wf
      (fun weight : Weight => (weight 0, (fun level => weight (level + 1) : Weight)))
      (Prod.lex Nat.lt_wfRel ⟨Below bound, ih⟩).wf)
    intro first second below
    obtain ⟨level, within, less, before⟩ := below
    cases level with
    | zero => exact Prod.Lex.left _ _ less
    | succ level =>
      have same : first 0 = second 0 := before 0 (Nat.zero_lt_succ _)
      show Prod.Lex _ _ (first 0, _) (second 0, _)
      rw [same]
      exact Prod.Lex.right _ ⟨level, Nat.le_of_succ_le_succ within, less,
        fun lower low => before (lower + 1) (Nat.succ_lt_succ low)⟩

end Weight

theorem countP_lt_countP {α : Type} {p q : α → Bool} {items : List α}
    (le : ∀ item, p item = true → q item = true)
    (less : ∃ item ∈ items, q item = true ∧ p item = false) :
    items.countP p < items.countP q := by
  induction items with
  | nil => simp at less
  | cons first rest ih =>
    have rest_le : rest.countP p ≤ rest.countP q := List.countP_mono_left fun item _ => le item
    simp only [List.countP_cons]
    obtain ⟨item, member, holds, fails⟩ := less
    rcases List.mem_cons.mp member with same | member
    · subst same
      simp only [holds, fails, if_true, Bool.false_eq_true, if_false]
      omega
    · have := ih ⟨item, member, holds, fails⟩
      by_cases head : p first = true
      · simp only [head, le first head, if_true]; omega
      · simp only [head, Bool.false_eq_true, if_false]
        omega

theorem countP_eraseIdx {α : Type} (p : α → Bool) {items : List α} {position : Nat} {item : α}
    (found : items[position]? = some item) :
    (items.eraseIdx position).countP p + (if p item = true then 1 else 0) = items.countP p := by
  induction items generalizing position with
  | nil => simp at found
  | cons first rest ih =>
    cases position with
    | zero =>
      simp only [List.getElem?_cons_zero, Option.some.injEq] at found
      subst found
      simp only [List.eraseIdx_cons_zero, List.countP_cons]
    | succ position =>
      simp only [List.getElem?_cons_succ] at found
      have := ih found
      simp only [List.eraseIdx_cons_succ, List.countP_cons]
      omega

namespace Program

def itemNames (program : Program) : List String :=
  program.descriptions.flatMap fun
    | .package decl => decl.items.map (·.name)
    | .module decl => decl.items.map (·.name)

def plainScopes (program : Program) : List Scope :=
  program.descriptions.map fun
    | .package decl => .package decl.name
    | .module decl => .module decl.name

/-- Keys under which constants may be asked for, with the level of their bodies. -/
def keys (program : Program) (levels : Table Instance Nat) : List (ConstantKey × Nat) :=
  program.plainScopes.flatMap (fun scope => program.itemNames.map fun name => (⟨scope, name⟩, 0))
    ++ levels.flatMap fun entry =>
      program.itemNames.map fun name => (⟨.instantiated entry.1, name⟩, entry.2)

theorem package_mem_of_package? {program : Program} {name : String} {decl : Package}
    (found : program.package? name = some decl) :
    .package decl ∈ program.descriptions ∧ decl.name = name := by
  obtain ⟨description, member, here⟩ := List.exists_of_findSome?_eq_some found
  cases description with
  | package other =>
    simp only at here
    split at here
    · rename_i same
      cases here
      exact ⟨member, same⟩
    · cases here
  | module other => cases here

theorem module_mem_of_module? {program : Program} {name : String} {decl : Module}
    (found : program.module? name = some decl) :
    .module decl ∈ program.descriptions ∧ decl.name = name := by
  obtain ⟨description, member, here⟩ := List.exists_of_findSome?_eq_some found
  cases description with
  | package other => cases here
  | module other =>
    simp only at here
    split at here
    · rename_i same
      cases here
      exact ⟨member, same⟩
    · cases here

end Program

theorem mem_of_findConst {name : String} {decls : List (Option ConstDecl)} {position : Nat}
    {decl : ConstDecl} (found : findConst name decls = some (position, decl)) :
    some decl ∈ decls ∧ decl.name = name := by
  obtain ⟨⟨entry, index⟩, member, here⟩ := List.exists_of_findSome?_eq_some found
  cases entry with
  | none => cases here
  | some other =>
    simp only at here
    split at here
    · rename_i same
      cases here
      exact ⟨List.fst_mem_of_mem_zipIdx member, same⟩
    · cases here

namespace Program

variable {program : Program}

theorem generic?_eq_some {name : String} {decl : Package} (found : program.generic? name = some decl) :
    program.package? name = some decl := (Option.filter_eq_some_iff.mp found).1

theorem plain?_eq_some {name : String} {decl : Package} (found : program.plain? name = some decl) :
    program.package? name = some decl := (Option.filter_eq_some_iff.mp found).1

theorem mem_itemNames_of_package {decl : Package} {name : String} {position : Nat} {const : ConstDecl}
    (member : .package decl ∈ program.descriptions)
    (found : decl.findConst name = some (position, const)) : name ∈ program.itemNames := by
  obtain ⟨here, same⟩ := mem_of_findConst found
  obtain ⟨item, inside, is⟩ := List.mem_map.mp here
  refine List.mem_flatMap.mpr ⟨_, member, List.mem_map.mpr ⟨item, inside, ?_⟩⟩
  cases item <;> cases is
  exact same

theorem mem_itemNames_of_module {decl : Module} {name : String} {position : Nat} {const : ConstDecl}
    (member : .module decl ∈ program.descriptions)
    (found : decl.findConst name = some (position, const)) : name ∈ program.itemNames := by
  obtain ⟨here, same⟩ := mem_of_findConst found
  obtain ⟨item, inside, is⟩ := List.mem_map.mp here
  refine List.mem_flatMap.mpr ⟨_, member, List.mem_map.mpr ⟨item, inside, ?_⟩⟩
  cases item <;> cases is
  exact same

theorem mem_keys_of_plain {levels : Table Instance Nat} {scope : Scope} {name : String}
    (known : scope ∈ program.plainScopes) (named : name ∈ program.itemNames) :
    ((⟨scope, name⟩, 0) : ConstantKey × Nat) ∈ program.keys levels :=
  List.mem_append_left _ (List.mem_flatMap.mpr ⟨scope, known, List.mem_map.mpr ⟨name, named, rfl⟩⟩)

theorem mem_keys_of_level {levels : Table Instance Nat} {target : Instance} {level : Nat} {name : String}
    (known : (target, level) ∈ levels) (named : name ∈ program.itemNames) :
    ((⟨.instantiated target, name⟩, level) : ConstantKey × Nat) ∈ program.keys levels :=
  List.mem_append_right _ (List.mem_flatMap.mpr ⟨_, known, List.mem_map.mpr ⟨name, named, rfl⟩⟩)

end Program

/-- A body outside instances, or an instance that has been given a level. -/
def State.Knows (state : State) : Scope → Prop
  | .instantiated target => (state.levels.get? target).isSome
  | .package _ | .module _ => True

/-- The level at which a body counts: zero outside instances. -/
def State.rank (state : State) : Scope → Nat
  | .instantiated target => (state.levels.get? target).getD 0
  | .package _ | .module _ => 0

theorem Table.mem_of_get? {κ α : Type} [DecidableEq κ] {table : Table κ α} {key : κ} {value : α}
    (found : table.get? key = some value) : (key, value) ∈ table := by
  induction table with
  | nil => cases found
  | cons first rest ih =>
    obtain ⟨other, here⟩ := first
    by_cases same : key = other
    · subst same
      simp only [Table.get?, List.lookup_cons, beq_self_eq_true, Option.some.injEq] at found
      subst found
      exact List.mem_cons_self
    · simp only [Table.get?, List.lookup_cons, beq_false_of_ne same] at found
      exact List.mem_cons_of_mem _ (ih found)

theorem Program.mem_keys {program : Program} {state : State} {scope : Scope} {name : String}
    {position : Nat} {decl : ConstDecl} (known : state.Knows scope)
    (found : program.findConst scope name = some (position, decl)) :
    ((⟨scope, name⟩, state.rank scope) : ConstantKey × Nat) ∈ program.keys state.levels := by
  cases scope with
  | instantiated target =>
    obtain ⟨package, package_eq, inside⟩ := Option.bind_eq_some_iff.mp found
    obtain ⟨level, level_eq⟩ := Option.isSome_iff_exists.mp known
    have member := (package_mem_of_package? (generic?_eq_some package_eq)).1
    have rank : state.rank (.instantiated target) = level := by
      simp only [State.rank, level_eq, Option.getD_some]
    rw [rank]
    exact mem_keys_of_level (Table.mem_of_get? level_eq) (mem_itemNames_of_package member inside)
  | package name =>
    obtain ⟨package, package_eq, inside⟩ := Option.bind_eq_some_iff.mp found
    obtain ⟨member, same⟩ := package_mem_of_package? (plain?_eq_some package_eq)
    refine mem_keys_of_plain ?_ (mem_itemNames_of_package member inside)
    exact List.mem_map.mpr ⟨_, member, by rw [← same]⟩
  | module name =>
    obtain ⟨decl, decl_eq, inside⟩ := Option.bind_eq_some_iff.mp found
    obtain ⟨member, same⟩ := module_mem_of_module? decl_eq
    refine mem_keys_of_plain ?_ (mem_itemNames_of_module member inside)
    exact List.mem_map.mpr ⟨_, member, by rw [← same]⟩

/-- Constants not asked for yet, and instances in the queue, by level. -/
def State.weight (program : Program) (state : State) : Weight := fun level =>
  (program.keys state.levels).countP
      (fun entry => decide (entry.2 = level) && (state.constants.get? entry.1).isNone)
    + state.queue.countP (fun pending => decide (pending.level = level))

namespace State

variable {program : Program} {state : State}

theorem weight_insert_le (key : ConstantKey) (value : ConstantState) (level : Nat) :
    ({ state with constants := state.constants.insert key value } : State).weight program level
      ≤ state.weight program level := by
  refine Nat.add_le_add_right (List.countP_mono_left fun entry _ => ?_) _
  simp only [Bool.and_eq_true, decide_eq_true_eq, Table.get?_insert]
  rintro ⟨same, unseen⟩
  split at unseen
  · cases unseen
  · exact ⟨same, unseen⟩

theorem weight_insert_lt {scope : Scope} {name : String} {position : Nat} {decl : ConstDecl}
    (value : ConstantState) (known : state.Knows scope)
    (found : program.findConst scope name = some (position, decl))
    (unseen : state.constants.get? ⟨scope, name⟩ = none) :
    ({ state with constants := state.constants.insert ⟨scope, name⟩ value } : State).weight program
        (state.rank scope)
      < state.weight program (state.rank scope) := by
  refine Nat.add_lt_add_right (countP_lt_countP (fun entry => ?_) ⟨_, Program.mem_keys known found, ?_, ?_⟩) _
  · simp only [Bool.and_eq_true, decide_eq_true_eq, Table.get?_insert]
    rintro ⟨same, unseen⟩
    split at unseen
    · cases unseen
    · exact ⟨same, unseen⟩
  · simp only [unseen, Option.isNone_none, Bool.and_true, decide_true]
  · simp only [Table.get?_insert, if_true, Option.isNone_some, Bool.and_false]

theorem weight_allocate {target : Instance} {pending : Pending} {level : Nat}
    (other : level ≠ pending.level) :
    ({ state with
        levels := state.levels.insert target pending.level
        queue := state.queue ++ [pending] } : State).weight program level
      = state.weight program level := by
  simp only [weight, Program.keys, Table.insert, List.flatMap_cons, List.countP_append, List.countP_map]
  have none_here : (program.itemNames.countP
      ((fun entry : ConstantKey × Nat => decide (entry.2 = level) && (state.constants.get? entry.1).isNone)
        ∘ fun name => (⟨.instantiated target, name⟩, pending.level))) = 0 := by
    refine List.countP_eq_zero.mpr fun name _ => ?_
    simp only [Function.comp_apply, Bool.and_eq_true, decide_eq_true_eq, not_and]
    exact fun same => absurd same.symm other
  have not_queued : List.countP (fun pending : Pending => decide (pending.level = level)) [pending] = 0 := by
    refine List.countP_eq_zero.mpr fun item member => ?_
    rw [List.mem_singleton.mp member]
    simp only [decide_eq_true_eq]
    exact fun same => other same.symm
  omega

theorem weight_take {position : Nat} {pending : Pending}
    (found : state.queue[position]? = some pending) (level : Nat) :
    (state.take position).weight program level
        + (if pending.level = level then 1 else 0)
      = state.weight program level := by
  have := countP_eraseIdx (fun pending : Pending => decide (pending.level = level)) found
  simp only [decide_eq_true_eq] at this
  simp only [weight, take]
  omega

end State
end Monomorph
