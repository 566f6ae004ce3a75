import Monomorph.Proofs.Instance.Registry

/-! The instances that a registry lists.

The list of a registry has each instance once, with the arguments that its number stands for,
and these belong to no other instance of the base.
-/

set_option autoImplicit false

namespace Monomorph

namespace Registry

variable {registry first last : Registry} {base : String} {arguments : Arguments} {id : InstanceId}
  {target : Instance}

def Knows (registry : Registry) (target : Instance) : Prop := (registry.get? target).isSome = true

theorem Extends.knows (grows : first.Extends last) (known : first.Knows target) : last.Knows target := by
  obtain ⟨arguments, found⟩ := Option.isSome_iff_exists.mp known
  exact Option.isSome_iff_exists.mpr ⟨arguments, grows.get? found⟩

theorem knows_of_find? (found : registry.find? base arguments = some id) : registry.Knows ⟨base, id⟩ := by
  obtain ⟨stored, known, _⟩ := get?_of_find? found
  exact Option.isSome_iff_exists.mpr ⟨stored, known⟩

theorem knows_of_request (asked : first.request base arguments = .ok (⟨id, true⟩, last)) :
    ¬ first.Knows ⟨base, id⟩ ∧ ∀ target, last.Knows target ↔ first.Knows target ∨ target = ⟨base, id⟩ := by
  obtain ⟨grows, found⟩ := find?_of_request_ok asked
  have number := InstanceId.number_of_ofNat? (next_of_request asked)
  constructor
  · intro known
    obtain ⟨stored, stored_eq⟩ := Option.isSome_iff_exists.mp known
    have within := (List.getElem?_eq_some_iff.mp stored_eq).1
    simp only [number] at within
    omega
  · intro target
    constructor
    · intro known
      obtain ⟨stored, stored_eq⟩ := Option.isSome_iff_exists.mp known
      rcases get?_of_request asked stored_eq with old | same
      · exact .inl (Option.isSome_iff_exists.mpr ⟨stored, old⟩)
      · exact .inr same
    · rintro (known | same)
      · exact grows.knows known
      · rw [same]
        exact knows_of_find? found

/-- Equal sets of one base belong to one instance. -/
theorem eq_of_same {other : Instance} {arguments' : Arguments} (found : registry.get? target = some arguments)
    (found' : registry.get? other = some arguments') (bases : target.base = other.base)
    (agree : arguments.same arguments' = true) : target = other := by
  obtain ⟨base, id⟩ := target
  obtain ⟨base', id'⟩ := other
  cases bases
  have here := find?_eq_some_iff.mpr ⟨arguments, found, agree⟩
  have there := find?_eq_some_iff.mpr ⟨arguments', found', Arguments.same_refl arguments'⟩
  cases here.symm.trans there
  rfl

theorem numbering_eq {numbering : NumberedSets} (member : (base, numbering) ∈ registry.bases) :
    registry.numbering base = numbering := by
  obtain ⟨bases, distinct⟩ := registry
  unfold Registry.numbering
  simp only at member ⊢
  induction bases with
  | nil => cases member
  | cons entry rest ih =>
    obtain ⟨fresh, distinct⟩ := List.nodup_cons.mp distinct
    rcases List.mem_cons.mp member with here | later
    · cases here
      simp
    · have apart : base ≠ entry.1 := by
        intro same
        exact fresh (same ▸ List.mem_map_of_mem later)
      rw [List.lookup_cons, beq_false_of_ne apart]
      exact ih distinct later

theorem exists_mem_bases (found : registry.sets base ≠ []) :
    (base, registry.numbering base) ∈ registry.bases := by
  obtain ⟨bases, distinct⟩ := registry
  unfold Registry.sets Registry.numbering at found
  unfold Registry.numbering
  simp only at found ⊢
  clear distinct
  induction bases with
  | nil => exact absurd rfl found
  | cons entry rest ih =>
    obtain ⟨name, old⟩ := entry
    by_cases same : base = name
    · subst same
      simp
    · rw [List.lookup_cons, beq_false_of_ne same] at found ⊢
      exact List.mem_cons_of_mem _ (ih found)

/-- The list has exactly the instances that the registry knows, with their arguments. -/
theorem mem_toList : (target, arguments) ∈ registry.toList ↔ registry.get? target = some arguments := by
  unfold toList Registry.get?
  rw [List.mem_flatMap]
  constructor
  · rintro ⟨⟨name, numbering⟩, member, listed⟩
    obtain ⟨⟨stored, position⟩, there, made⟩ := List.mem_filterMap.mp listed
    obtain ⟨id, number, same⟩ := Option.map_eq_some_iff.mp made
    cases same
    rw [sets, numbering_eq member]
    simp only [InstanceId.number_of_ofNat? number, Nat.add_sub_cancel]
    exact List.mk_mem_zipIdx_iff_getElem?.mp there
  · intro found
    have some_set : registry.sets target.base ≠ [] := by
      intro none
      rw [none] at found
      cases found
    refine ⟨(target.base, registry.numbering target.base), exists_mem_bases some_set, ?_⟩
    apply List.mem_filterMap.mpr
    refine ⟨(arguments, target.id.number - 1), List.mk_mem_zipIdx_iff_getElem?.mpr found, ?_⟩
    have number : target.id.number - 1 + 1 = target.id.number := Nat.sub_add_cancel target.id.positive
    simp only [number, InstanceId.ofNat?_number, Option.map_some]

theorem nodup_toList (registry : Registry) : (registry.toList.map Prod.fst).Nodup := by
  -- a base contributes the instances of its positions
  have listed : registry.toList.map Prod.fst = registry.bases.flatMap fun entry =>
      (entry.2.sets.zipIdx.map Prod.snd).filterMap fun position =>
        (InstanceId.ofNat? (position + 1)).map (Instance.mk entry.1) := by
    simp only [toList, List.map_flatMap, List.map_filterMap, List.filterMap_map, Option.map_map]
    rfl
  rw [listed, List.nodup_flatMap]
  constructor
  · intro entry _
    rw [List.zipIdx_map_snd]
    apply List.Nodup.filterMap _ List.nodup_range'
    intro position other target here there
    obtain ⟨id, number, rfl⟩ := Option.map_eq_some_iff.mp here
    obtain ⟨id', number', same⟩ := Option.map_eq_some_iff.mp there
    cases same
    have := (InstanceId.number_of_ofNat? number).symm.trans (InstanceId.number_of_ofNat? number')
    omega
  · apply (List.pairwise_map.mp registry.distinct).imp
    intro entry other apart target here there
    obtain ⟨position, _, made⟩ := List.mem_filterMap.mp here
    obtain ⟨position', _, made'⟩ := List.mem_filterMap.mp there
    obtain ⟨id, _, rfl⟩ := Option.map_eq_some_iff.mp made
    obtain ⟨id', _, same⟩ := Option.map_eq_some_iff.mp made'
    exact apart (congrArg Instance.base same).symm

end Registry
end Monomorph
