import Monomorph.Fault
import Monomorph.Instance.Numbering

/-! The registry of instances.

For each base package it numbers the distinct argument sets in the order in which
they were first asked for, counted from one. Arguments are compared by
`Arguments.same`; the set that is kept is the first one.
-/

set_option autoImplicit false

namespace Monomorph

/-- The bases in the order of their first instance. -/
structure Registry where
  bases : List (String × NumberedSets)
  distinct : (bases.map Prod.fst).Nodup
  deriving DecidableEq, Repr

/-- The answer to a request for an instance. -/
structure Allocation where
  id : InstanceId
  isNew : Bool
  deriving DecidableEq, Repr

namespace Registry

def empty : Registry := ⟨[], List.nodup_nil⟩

def numbering (registry : Registry) (base : String) : NumberedSets := (registry.bases.lookup base).getD .empty

def sets (registry : Registry) (base : String) : List Arguments := (registry.numbering base).sets

def find? (registry : Registry) (base : String) (arguments : Arguments) : Option InstanceId :=
  (registry.numbering base).numbers.find? arguments

def get? (registry : Registry) (target : Instance) : Option Arguments :=
  (registry.sets target.base)[target.id.number - 1]?

def resolve (registry : Registry) (target : Instance) : Except Fault Arguments :=
  match registry.get? target with
  | some arguments => .ok arguments
  | none => .error ⟨.unknownInstance target.base target.id.number, none⟩

/-- Replace the numbering of a base, which comes last if it is not there yet. -/
def replace (base : String) (numbering : NumberedSets) : List (String × NumberedSets) → List (String × NumberedSets)
  | [] => [(base, numbering)]
  | (name, old) :: rest =>
    if name = base then (name, numbering) :: rest else (name, old) :: replace base numbering rest

theorem map_fst_replace (base : String) (numbering : NumberedSets) (bases : List (String × NumberedSets)) :
    (replace base numbering bases).map Prod.fst
      = if base ∈ bases.map Prod.fst then bases.map Prod.fst else bases.map Prod.fst ++ [base] := by
  induction bases with
  | nil => rfl
  | cons entry rest ih =>
    obtain ⟨name, old⟩ := entry
    by_cases here : name = base
    · simp [replace, here]
    · rw [replace, if_neg here, List.map_cons, ih]
      by_cases later : base ∈ rest.map Prod.fst
      · rw [if_pos later, if_pos (by simp [later]), List.map_cons]
      · have absent : base ∉ (((name, old) :: rest).map Prod.fst) := by
          rw [List.map_cons, List.mem_cons]
          rintro (same | member)
          · exact here same.symm
          · exact later member
        rw [if_neg later, if_neg absent]
        rfl

theorem nodup_replace (base : String) (numbering : NumberedSets) {bases : List (String × NumberedSets)}
    (distinct : (bases.map Prod.fst).Nodup) : ((replace base numbering bases).map Prod.fst).Nodup := by
  rw [map_fst_replace]
  split
  · exact distinct
  · rename_i absent
    refine List.nodup_append.mpr ⟨distinct, by simp, ?_⟩
    intro name member other isLast same
    rw [List.mem_singleton.mp isLast] at same
    exact absent (same ▸ member)

def set (registry : Registry) (base : String) (numbering : NumberedSets) : Registry :=
  ⟨replace base numbering registry.bases, nodup_replace base numbering registry.distinct⟩

theorem numbering_set (registry : Registry) (base : String) (numbering : NumberedSets) (other : String) :
    (registry.set base numbering).numbering other
      = if other = base then numbering else registry.numbering other := by
  simp only [Registry.numbering, set]
  induction registry.bases with
  | nil =>
    by_cases same : other = base
    · simp [replace, same]
    · simp [replace, List.lookup_cons, beq_false_of_ne same, same]
  | cons first rest ih =>
    obtain ⟨name, old⟩ := first
    by_cases here : name = base
    · subst here
      by_cases same : other = name
      · simp [replace, same]
      · simp [replace, List.lookup_cons, beq_false_of_ne same, same]
    · by_cases same : other = name
      · subst same
        simp [replace, here]
      · have apart := beq_false_of_ne same
        by_cases last : other = base
        · subst last
          simpa [replace, List.lookup_cons, here, apart] using ih
        · simpa [replace, List.lookup_cons, here, apart, last] using ih

/-- The instance of an argument set, made if there is none yet. -/
def request (registry : Registry) (base : String) (arguments : Arguments) :
    Except Fault (Allocation × Registry) :=
  match missing : registry.find? base arguments with
  | some id => .ok (⟨id, false⟩, registry)
  | none =>
    match next : InstanceId.ofNat? ((registry.sets base).length + 1) with
    | some id =>
      .ok (⟨id, true⟩, registry.set base ((registry.numbering base).add arguments id missing next))
    | none => .error ⟨.instanceOverflow base, none⟩

section Request

variable {registry last : Registry} {base : String} {arguments : Arguments} {id : InstanceId}

theorem request_of_find? (found : registry.find? base arguments = some id) :
    registry.request base arguments = .ok (⟨id, false⟩, registry) := by
  unfold request
  split
  · rename_i other known
    cases found.symm.trans known
    rfl
  · rename_i missing
    cases missing.symm.trans found

theorem request_of_find?_eq_none (missing : registry.find? base arguments = none)
    (next : InstanceId.ofNat? ((registry.sets base).length + 1) = some id) :
    registry.request base arguments
      = .ok (⟨id, true⟩, registry.set base ((registry.numbering base).add arguments id missing next)) := by
  unfold request
  split
  · rename_i known
    cases known.symm.trans missing
  · split
    · rename_i other made
      cases next.symm.trans made
      rfl
    · rename_i none
      cases none.symm.trans next

/-- A request finds its set, or gives it the next number. -/
theorem request_eq_ok {allocation : Allocation} (asked : registry.request base arguments = .ok (allocation, last)) :
    registry.find? base arguments = some allocation.id ∧ allocation.isNew = false ∧ last = registry ∨
      allocation.isNew = true ∧ ∃ (missing : registry.find? base arguments = none)
        (next : InstanceId.ofNat? ((registry.sets base).length + 1) = some allocation.id),
        last = registry.set base ((registry.numbering base).add arguments allocation.id missing next) := by
  unfold request at asked
  split at asked
  · rename_i found
    cases asked
    exact .inl ⟨found, rfl, rfl⟩
  · rename_i missing
    split at asked
    · rename_i next
      cases asked
      exact .inr ⟨rfl, missing, next, rfl⟩
    · cases asked

theorem find?_of_request (known : registry.request base arguments = .ok (⟨id, false⟩, last)) :
    registry.find? base arguments = some id := by
  rcases request_eq_ok known with ⟨found, _, _⟩ | ⟨isNew, _⟩
  · exact found
  · cases isNew

section New

variable (new : registry.request base arguments = .ok (⟨id, true⟩, last))

include new

theorem exists_add_of_request : ∃ (missing : registry.find? base arguments = none)
    (next : InstanceId.ofNat? ((registry.sets base).length + 1) = some id),
    last = registry.set base ((registry.numbering base).add arguments id missing next) := by
  rcases request_eq_ok new with ⟨_, isNew, _⟩ | ⟨_, added⟩
  · cases isNew
  · exact added

theorem next_of_request : InstanceId.ofNat? ((registry.sets base).length + 1) = some id :=
  (exists_add_of_request new).2.1

theorem sets_of_request (other : String) :
    last.sets other = if other = base then registry.sets base ++ [arguments] else registry.sets other := by
  obtain ⟨missing, next, rfl⟩ := exists_add_of_request new
  rw [sets, numbering_set]
  split
  · rfl
  · rfl

theorem find?_last (other : String) (sought : Arguments) :
    last.find? other sought
      = if other = base ∧ arguments.same sought = true then some id else registry.find? other sought := by
  obtain ⟨missing, next, rfl⟩ := exists_add_of_request new
  rw [find?, numbering_set]
  by_cases here : other = base
  · subst here
    rw [if_pos rfl]
    simp only [true_and]
    exact NumberMap.find?_insert _ _ _ _
  · rw [if_neg here, if_neg fun both => here both.1]
    rfl

end New
end Request

def count (registry : Registry) (base : String) : Nat := (registry.sets base).length

def size (registry : Registry) : Nat := registry.bases.foldl (fun total base => total + base.2.sets.length) 0

/-- All instances with their arguments: base by base, and by number within a base. -/
def toList (registry : Registry) : List (Instance × Arguments) :=
  registry.bases.flatMap fun (base, numbering) =>
    numbering.sets.zipIdx.filterMap fun (arguments, position) =>
      (InstanceId.ofNat? (position + 1)).map fun id => (⟨base, id⟩, arguments)

end Registry
end Monomorph
