import Monomorph.Proofs.Constant.WellFormed
import Monomorph.Instance.Registry

/-! How a registry grows.

Requests add argument sets at the end of their base, so what an instance number
stands for never changes, and neither does the number that an argument set is found
under. Sets that compare equal are found under the same number.
-/

set_option autoImplicit false

namespace Monomorph

namespace Registry

variable {registry first last third : Registry} {base : String} {arguments other : Arguments}
  {id : InstanceId} {target : Instance}

/-- Every base has the sets that it had, in front of those that were added. -/
def Extends (first last : Registry) : Prop := ∀ base, first.sets base <+: last.sets base

theorem Extends.refl (registry : Registry) : registry.Extends registry :=
  fun base => List.prefix_refl (registry.sets base)

theorem Extends.trans (grows : first.Extends last) (further : last.Extends third) :
    first.Extends third :=
  fun base => (grows base).trans (further base)

theorem resolve_eq_ok : registry.resolve target = .ok arguments ↔ registry.get? target = some arguments := by
  unfold resolve
  cases registry.get? target with
  | none => simp
  | some stored => simp

/-- A set is found where an equal one is stored. -/
theorem find?_eq_some_iff : registry.find? base arguments = some id ↔
    ∃ stored, registry.get? ⟨base, id⟩ = some stored ∧ stored.same arguments = true :=
  (registry.numbering base).inverts arguments id

theorem get?_of_find? (found : registry.find? base arguments = some id) :
    ∃ stored, registry.get? ⟨base, id⟩ = some stored ∧ stored.same arguments = true :=
  find?_eq_some_iff.mp found

theorem same_eq_false_of_find? (missing : registry.find? base arguments = none) {stored : Arguments}
    (member : stored ∈ registry.sets base) : stored.same arguments = false := by
  apply Bool.eq_false_iff.mpr
  intro agree
  obtain ⟨position, found⟩ := List.mem_iff_getElem?.mp member
  obtain ⟨id, number, known⟩ := (registry.numbering base).exists_number found
  obtain ⟨first, stored_eq, same⟩ := find?_eq_some_iff.mp known
  have there := find?_eq_some_iff.mpr ⟨first, stored_eq, Arguments.same_trans same agree⟩
  rw [missing] at there
  cases there

theorem Extends.get? (grows : first.Extends last) (found : first.get? target = some arguments) :
    last.get? target = some arguments := by
  obtain ⟨added, sets_eq⟩ := grows target.base
  unfold Registry.get? at found ⊢
  obtain ⟨within, _⟩ := List.getElem?_eq_some_iff.mp found
  rw [← sets_eq, List.getElem?_append_left within, found]

theorem Extends.find? (grows : first.Extends last) (found : first.find? base arguments = some id) :
    last.find? base arguments = some id := by
  obtain ⟨stored, known, agree⟩ := get?_of_find? found
  exact find?_eq_some_iff.mpr ⟨stored, grows.get? known, agree⟩

theorem find?_congr (agree : arguments.same other = true) :
    registry.find? base arguments = registry.find? base other := by
  apply Option.ext
  intro id
  rw [find?_eq_some_iff, find?_eq_some_iff]
  constructor
  · rintro ⟨stored, known, same⟩
    exact ⟨stored, known, Arguments.same_trans same agree⟩
  · rintro ⟨stored, known, same⟩
    exact ⟨stored, known, Arguments.same_trans same (Arguments.same_symm agree)⟩

theorem same_of_find? (found : registry.find? base arguments = some id)
    (again : registry.find? base other = some id) : arguments.same other = true := by
  obtain ⟨stored, stored_eq, same⟩ := get?_of_find? found
  obtain ⟨stored', stored_eq', same'⟩ := get?_of_find? again
  rw [stored_eq] at stored_eq'
  cases stored_eq'
  exact Arguments.same_trans (Arguments.same_symm same) same'

section New

variable (new : first.request base arguments = .ok (⟨id, true⟩, last))

include new

theorem extends_of_request : first.Extends last := by
  intro name
  rw [sets_of_request new]
  split
  · rename_i same
    rw [same]
    exact List.prefix_append _ _
  · exact List.prefix_refl _

theorem get?_of_request {stored : Arguments} (found : last.get? target = some stored) :
    first.get? target = some stored ∨ target = ⟨base, id⟩ := by
  unfold Registry.get? at found ⊢
  rw [sets_of_request new] at found
  split at found
  · rename_i same
    rcases getElem?_append_singleton_eq_some.mp found with old | ⟨here, _⟩
    · rw [same]
      exact .inl old
    · have positive := target.id.positive
      have number := InstanceId.number_of_ofNat? (next_of_request new)
      have id_eq : target.id = id := InstanceId.eq_of_number_eq (by omega)
      cases target
      cases same
      cases id_eq
      exact .inr rfl
  · exact .inl found

end New

theorem find?_of_request_ok {isNew : Bool}
    (asked : first.request base arguments = .ok (⟨id, isNew⟩, last)) :
    first.Extends last ∧ last.find? base arguments = some id := by
  cases isNew with
  | false =>
    rcases request_eq_ok asked with ⟨found, _, rfl⟩ | ⟨isNew, _⟩
    · exact ⟨.refl _, found⟩
    · cases isNew
  | true =>
    refine ⟨extends_of_request asked, ?_⟩
    rw [find?_last asked, if_pos ⟨rfl, Arguments.same_refl arguments⟩]

/-- The registry after requests for these sets, as far as there are numbers. -/
def ofRequests (requests : List (String × Arguments)) : Registry :=
  requests.foldl (fun registry request => (registry.request request.1 request.2).toOption.elim registry Prod.snd) .empty

def Every (registry : Registry) (holds : String → Arguments → Prop) : Prop :=
  ∀ base, ∀ arguments ∈ registry.sets base, holds base arguments

theorem Every.get? {holds : String → Arguments → Prop} (every : registry.Every holds)
    (found : registry.get? target = some arguments) : holds target.base arguments :=
  every target.base arguments (List.mem_of_getElem? found)

theorem Every.of_request {holds : String → Arguments → Prop} (every : first.Every holds) (added : holds base arguments)
    (new : first.request base arguments = .ok (⟨id, true⟩, last)) : last.Every holds := by
  intro name set member
  rw [sets_of_request new] at member
  split at member
  · rename_i same
    rw [same]
    rcases List.mem_append.mp member with old | new
    · exact every base set old
    · rw [List.mem_singleton.mp new]
      exact added
  · exact every name set member

def WellFormed (registry : Registry) : Prop :=
  ∀ base, ∀ arguments ∈ registry.sets base, arguments.WellFormed

theorem WellFormed.get? (formed : registry.WellFormed) (found : registry.get? target = some arguments) :
    arguments.WellFormed :=
  formed target.base arguments (List.mem_of_getElem? found)

theorem WellFormed.of_request (formed : first.WellFormed) (added : arguments.WellFormed)
    (new : first.request base arguments = .ok (⟨id, true⟩, last)) : last.WellFormed :=
  Every.of_request formed added new

end Registry

theorem one_lt_size : 1 < UInt32.size := by decide

def firstOf (base : String) : Instance := ⟨base, 1, Nat.one_pos, one_lt_size⟩

end Monomorph
