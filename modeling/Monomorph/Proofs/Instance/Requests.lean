import Mathlib
import Monomorph.Proofs.Instance.Listing

/-! Whole histories of requests.

A registry that starts empty is determined by the requests that it has answered: each
base has the distinct argument sets that were asked for, in the order in which they
came first, and a set keeps the number that it was given then. Requests for other
bases make no difference.
-/

set_option autoImplicit false

namespace Monomorph

section FirstSeen

variable {α : Type} (same : α → α → Bool)

theorem eraseDupsBy_loop_append_singleton (items kept : List α) (item : α) :
    List.eraseDupsBy.loop same (items ++ [item]) kept
      = if (List.eraseDupsBy.loop same items kept).any (same item) then List.eraseDupsBy.loop same items kept
        else List.eraseDupsBy.loop same items kept ++ [item] := by
  induction items generalizing kept with
  | nil =>
    cases known : kept.any (same item) <;> simp [List.eraseDupsBy.loop, known]
  | cons first rest ih =>
    cases known : kept.any (same first) <;> simp only [List.cons_append, List.eraseDupsBy.loop, known, ih]

theorem eraseDupsBy_append_singleton (items : List α) (item : α) :
    (items ++ [item]).eraseDupsBy same
      = if (items.eraseDupsBy same).any (same item) then items.eraseDupsBy same
        else items.eraseDupsBy same ++ [item] :=
  eraseDupsBy_loop_append_singleton same items [] item

theorem any_eraseDupsBy
    (trans : ∀ first second third, same first second = true → same second third = true → same first third = true)
    (items : List α) (item : α) : (items.eraseDupsBy same).any (same item) = items.any (same item) := by
  induction items using List.reverseRecOn with
  | nil => rfl
  | append_singleton items last ih =>
    rw [eraseDupsBy_append_singleton, List.any_append]
    split
    · rename_i known
      rw [ih]
      -- an item that is the same as the last one is the same as the one kept for it
      cases here : same item last with
      | false => simp [here]
      | true =>
        obtain ⟨stored, member, agree⟩ := List.any_eq_true.mp known
        rw [← ih, List.any_eq_true.mpr ⟨stored, member, trans _ _ _ here agree⟩]
        rfl
    · rw [List.any_append, ih]

theorem pairwise_eraseDupsBy (symm : ∀ first second, same first second = true → same second first = true)
    (items : List α) : (items.eraseDupsBy same).Pairwise fun first second => same first second = false := by
  induction items using List.reverseRecOn with
  | nil => exact List.Pairwise.nil
  | append_singleton items last ih =>
    rw [eraseDupsBy_append_singleton]
    split
    · exact ih
    · rename_i fresh
      refine List.pairwise_append.mpr ⟨ih, List.pairwise_singleton _ _, ?_⟩
      intro stored member other isLast
      rw [List.mem_singleton.mp isLast]
      apply Bool.eq_false_iff.mpr
      intro agree
      exact fresh (List.any_eq_true.mpr ⟨stored, member, symm _ _ agree⟩)

end FirstSeen

structure Call where
  base : String
  arguments : Arguments

namespace Call

def sets (calls : List Call) (base : String) : List Arguments :=
  (calls.filter (·.base = base)).map (·.arguments)

/-- The distinct sets that are asked for of a base, where they come first. -/
def distinct (calls : List Call) (base : String) : List Arguments :=
  (sets calls base).eraseDupsBy Arguments.same

def answers (calls : List Call) (allocations : List Allocation) (base : String) : List Allocation :=
  ((calls.zip allocations).filter (·.1.base = base)).map (·.2)

def Agree (first second : Call) : Prop :=
  first.base = second.base ∧ first.arguments.same second.arguments = true

theorem distinct_append (calls : List Call) (call : Call) (base : String) :
    distinct (calls ++ [call]) base
      = if call.base = base ∧ (distinct calls base).any (call.arguments.same ·) = false
        then distinct calls base ++ [call.arguments] else distinct calls base := by
  unfold distinct sets
  by_cases here : call.base = base
  · have kept : (calls ++ [call]).filter (·.base = base) = calls.filter (·.base = base) ++ [call] := by
      rw [List.filter_append, List.filter_cons_of_pos (by simp [here]), List.filter_nil]
    rw [kept, List.map_append, List.map_singleton, eraseDupsBy_append_singleton]
    by_cases known : (((calls.filter (·.base = base)).map (·.arguments)).eraseDupsBy Arguments.same).any
        (call.arguments.same ·) = true
    · rw [if_pos known, if_neg (by simp [known])]
    · rw [if_neg known, if_pos ⟨here, Bool.eq_false_iff.mpr known⟩]
  · rw [List.filter_append, List.filter_cons_of_neg (by simp [here]), List.filter_nil, List.append_nil,
      if_neg (fun both => here both.1)]

theorem length_distinct_le (calls : List Call) (base : String) : (distinct calls base).length ≤ calls.length := by
  induction calls using List.reverseRecOn with
  | nil => exact Nat.le_refl 0
  | append_singleton calls call ih =>
    rw [distinct_append]
    split <;> simp <;> omega

end Call

namespace Registry

def requestAll (registry : Registry) : List Call → Except Fault (List Allocation × Registry)
  | [] => .ok ([], registry)
  | call :: calls => do
    let answered ← registry.request call.base call.arguments
    let rest ← answered.2.requestAll calls
    .ok (answered.1 :: rest.1, rest.2)

/-- What a history of calls is answered, and the registry that it ends with. -/
structure Answers (calls : List Call) (allocations : List Allocation) (registry : Registry) : Prop where
  /-- A base has the distinct sets that were asked for in its list, -/
  sets : ∀ base, (registry.numbering base).sets = Call.distinct calls base
  /-- and in its map the place that each of them has there. -/
  places : ∀ base arguments id, (registry.numbering base).numbers.find? arguments = some id ↔
    (Call.distinct calls base).findIdx? (·.same arguments) = some (id.number - 1)
  numbers : ∀ base id arguments, registry.resolve ⟨base, id⟩ = .ok arguments ↔
    (Call.distinct calls base)[id.number - 1]? = some arguments
  length : allocations.length = calls.length
  /-- The first call for a set is the one that makes its instance, -/
  new : ∀ (position : Nat) call allocation, (calls.zip allocations)[position]? = some (call, allocation) →
    (allocation.isNew = true ↔ ∀ earlier ∈ calls.take position, ¬ earlier.Agree call)
  /-- and all others are answered with that instance. -/
  same : ∀ first ∈ calls.zip allocations, ∀ second ∈ calls.zip allocations,
    first.1.Agree second.1 → first.2.id = second.2.id
  looked : ∀ answered ∈ calls.zip allocations,
    registry.find? answered.1.base answered.1.arguments = some answered.2.id
  found : ∀ base arguments id, registry.find? base arguments = some id ↔
    ∃ stored, registry.resolve ⟨base, id⟩ = .ok stored ∧ stored.same arguments = true
  /-- The calls for a base are answered as they are when nothing else is asked for. -/
  alone : ∀ base, ∃ only, empty.requestAll (calls.filter (·.base = base))
    = .ok (Call.answers calls allocations base, only) ∧ only.sets base = registry.sets base
  size : registry.size = ((calls.map (·.base)).eraseDups.map registry.count).sum
  listed : registry.toList.map (fun entry => (entry.1.base, entry.1.id.number, entry.2))
    = (calls.map (·.base)).eraseDups.flatMap fun base =>
      ((Call.distinct calls base).zipIdx 1).map fun entry => (base, entry.2, entry.1)

variable {registry first last : Registry} {base : String} {arguments : Arguments} {allocation : Allocation}
  {calls : List Call} {allocations : List Allocation} {call : Call}

theorem any_same_of_find?_eq_none (missing : registry.find? base arguments = none) :
    (registry.sets base).any (arguments.same ·) = false := by
  apply List.any_eq_false.mpr
  intro stored member agree
  exact absurd (Arguments.same_symm agree) (Bool.eq_false_iff.mp (same_eq_false_of_find? missing member))

theorem any_same_of_find?_eq_some {id : InstanceId} (found : registry.find? base arguments = some id) :
    (registry.sets base).any (arguments.same ·) = true := by
  obtain ⟨stored, known, agree⟩ := get?_of_find? found
  exact List.any_eq_true.mpr ⟨stored, List.mem_of_getElem? known, Arguments.same_symm agree⟩

structure Replies (calls : List Call) (allocations : List Allocation) (registry : Registry) : Prop where
  sets : ∀ base, registry.sets base = Call.distinct calls base
  bases : registry.bases.map Prod.fst = (calls.map (·.base)).eraseDups
  length : allocations.length = calls.length
  new : ∀ (position : Nat) call allocation, (calls.zip allocations)[position]? = some (call, allocation) →
    (allocation.isNew = true ↔ ∀ earlier ∈ calls.take position, ¬ earlier.Agree call)
  looked : ∀ answered ∈ calls.zip allocations,
    registry.find? answered.1.base answered.1.arguments = some answered.2.id

theorem replies_nil : Replies [] [] empty where
  sets _ := rfl
  bases := rfl
  length := rfl
  new _ _ _ there := by cases there
  looked _ member := by cases member

namespace Replies

theorem any_same (replies : Replies calls allocations registry) (call : Call) :
    (registry.sets call.base).any (call.arguments.same ·) = true ↔ ∃ earlier ∈ calls, earlier.Agree call := by
  rw [replies.sets, Call.distinct, any_eraseDupsBy Arguments.same fun _ _ _ => Arguments.same_trans, List.any_eq_true]
  simp only [Call.sets, List.mem_map, List.mem_filter, decide_eq_true_eq]
  constructor
  · rintro ⟨_, ⟨earlier, ⟨member, base⟩, rfl⟩, agree⟩
    exact ⟨earlier, member, base, Arguments.same_symm agree⟩
  · rintro ⟨earlier, member, base, agree⟩
    exact ⟨_, ⟨earlier, ⟨member, base⟩, rfl⟩, Arguments.same_symm agree⟩

theorem sets_request (replies : Replies calls allocations first)
    (asked : first.request call.base call.arguments = .ok (allocation, last)) (base : String) :
    last.sets base = Call.distinct (calls ++ [call]) base := by
  rw [Call.distinct_append, ← replies.sets]
  obtain ⟨id, isNew⟩ := allocation
  cases isNew with
  | false =>
    rcases request_eq_ok asked with ⟨found, _, rfl⟩ | ⟨isNew, _⟩
    · have known := any_same_of_find?_eq_some found
      rw [if_neg]
      rintro ⟨rfl, fresh⟩
      rw [known] at fresh
      cases fresh
    · cases isNew
  | true =>
    have fresh := any_same_of_find?_eq_none (exists_add_of_request asked).1
    rw [Registry.sets_of_request asked]
    by_cases here : base = call.base
    · subst here
      rw [if_pos rfl, if_pos ⟨rfl, fresh⟩]
    · rw [if_neg here, if_neg fun both => here both.1.symm]

theorem bases_request (replies : Replies calls allocations first)
    (asked : first.request call.base call.arguments = .ok (allocation, last)) :
    last.bases.map Prod.fst = ((calls ++ [call]).map (·.base)).eraseDups := by
  have listed : ((calls.map (·.base)).eraseDupsBy (· == ·)).any (call.base == ·) = true ↔
      call.base ∈ first.bases.map Prod.fst := by
    rw [replies.bases, List.any_beq, List.contains_iff_mem]
    rfl
  rw [List.map_append, List.map_singleton, List.eraseDups, eraseDupsBy_append_singleton]
  rcases request_eq_ok asked with ⟨found, _, rfl⟩ | ⟨_, _, _, rfl⟩
  · -- a base with a set that is found is there
    have some_set : last.sets call.base ≠ [] := by
      intro none
      have known := any_same_of_find?_eq_some found
      rw [none] at known
      cases known
    rw [if_pos (listed.mpr (List.mem_map_of_mem (exists_mem_bases some_set))), replies.bases]
    rfl
  · rw [set, map_fst_replace]
    by_cases there : call.base ∈ first.bases.map Prod.fst
    · rw [if_pos there, if_pos (listed.mpr there), replies.bases]
      rfl
    · rw [if_neg there, if_neg (fun known => there (listed.mp known)), replies.bases]
      rfl

theorem zip_append (replies : Replies calls allocations first) (call : Call) (allocation : Allocation) :
    (calls ++ [call]).zip (allocations ++ [allocation]) = calls.zip allocations ++ [(call, allocation)] := by
  rw [List.zip_append replies.length.symm]
  rfl

/-- One more call is answered in line with all before it. -/
theorem request (replies : Replies calls allocations first)
    (asked : first.request call.base call.arguments = .ok (allocation, last)) :
    Replies (calls ++ [call]) (allocations ++ [allocation]) last where
  sets := replies.sets_request asked
  bases := replies.bases_request asked
  length := by simp [replies.length]
  new position other answer there := by
    rw [replies.zip_append] at there
    have size : (calls.zip allocations).length = calls.length := by simp [replies.length]
    rcases getElem?_append_singleton_eq_some.mp there with old | ⟨here, same⟩
    · have within := (List.getElem?_eq_some_iff.mp old).1
      rw [List.take_append_of_le_length (by omega)]
      exact replies.new position other answer old
    · cases same
      rw [here, size, List.take_left]
      have known := replies.any_same call
      rcases request_eq_ok asked with ⟨found, old, _⟩ | ⟨new, missing, _⟩
      · obtain ⟨earlier, member, agree⟩ := known.mp (any_same_of_find?_eq_some found)
        simp only [old, Bool.false_eq_true, false_iff]
        exact fun none => none earlier member agree
      · have fresh := any_same_of_find?_eq_none missing
        simp only [new, true_iff]
        intro earlier member agree
        rw [known.mpr ⟨earlier, member, agree⟩] at fresh
        cases fresh
  looked answered member := by
    obtain ⟨grows, found⟩ := find?_of_request_ok asked
    rw [replies.zip_append] at member
    rcases List.mem_append.mp member with old | new
    · exact grows.find? (replies.looked answered old)
    · rw [List.mem_singleton.mp new]
      exact found

end Replies

theorem requestAll_cons (asked : registry.request call.base call.arguments = .ok (allocation, first)) :
    registry.requestAll (call :: calls) = (first.requestAll calls).map fun rest => (allocation :: rest.1, rest.2) := by
  simp only [requestAll, asked]
  show (do
    let rest ← first.requestAll calls
    .ok (allocation :: rest.1, rest.2)) = _
  cases first.requestAll calls <;> rfl

theorem request_of_requestAll_cons (ran : registry.requestAll (call :: calls) = .ok (allocations, last)) :
    ∃ allocation first rest, registry.request call.base call.arguments = .ok (allocation, first) ∧
      first.requestAll calls = .ok (rest, last) ∧ allocations = allocation :: rest := by
  cases asked : registry.request call.base call.arguments with
  | error fault =>
    simp only [requestAll, asked] at ran
    cases ran
  | ok answered =>
    rw [requestAll_cons asked] at ran
    cases after : answered.2.requestAll calls with
    | error fault =>
      rw [after] at ran
      cases ran
    | ok rest =>
      rw [after] at ran
      cases ran
      exact ⟨answered.1, answered.2, rest.1, rfl, after, rfl⟩

theorem requestAll_append (ran : registry.requestAll calls = .ok (allocations, first))
    (asked : first.request call.base call.arguments = .ok (allocation, last)) :
    registry.requestAll (calls ++ [call]) = .ok (allocations ++ [allocation], last) := by
  induction calls generalizing registry allocations with
  | nil =>
    cases ran
    rw [List.nil_append, requestAll_cons asked]
    rfl
  | cons earlier calls ih =>
    obtain ⟨answer, middle, rest, begun, rest_ran, rfl⟩ := request_of_requestAll_cons ran
    rw [List.cons_append, requestAll_cons begun, ih rest_ran]
    rfl

theorem exists_request
    (room : (registry.sets base).any (arguments.same ·) = false → (registry.sets base).length + 1 < UInt32.size) :
    ∃ answered, registry.request base arguments = .ok answered := by
  cases missing : registry.find? base arguments with
  | some id => exact ⟨_, request_of_find? missing⟩
  | none =>
    have next : InstanceId.ofNat? ((registry.sets base).length + 1)
        = some ⟨_, Nat.succ_pos _, room (any_same_of_find?_eq_none missing)⟩ := by
      simp [InstanceId.ofNat?, room (any_same_of_find?_eq_none missing)]
    exact ⟨_, request_of_find?_eq_none missing next⟩

/-- Every history is answered as long as there are numbers. -/
theorem exists_replies (calls : List Call) (bounded : ∀ base, (Call.distinct calls base).length < UInt32.size) :
    ∃ allocations registry, empty.requestAll calls = .ok (allocations, registry) ∧
      Replies calls allocations registry := by
  induction calls using List.reverseRecOn with
  | nil => exact ⟨[], empty, rfl, replies_nil⟩
  | append_singleton calls call ih =>
    have shorter (base : String) :
        (Call.distinct calls base).length ≤ (Call.distinct (calls ++ [call]) base).length := by
      rw [Call.distinct_append]
      split <;> simp
    obtain ⟨allocations, registry, ran, replies⟩ := ih fun base => (shorter base).trans_lt (bounded base)
    have room (fresh : (registry.sets call.base).any (call.arguments.same ·) = false) :
        (registry.sets call.base).length + 1 < UInt32.size := by
      have bound := bounded call.base
      rw [replies.sets] at fresh ⊢
      rw [Call.distinct_append, if_pos ⟨rfl, fresh⟩, List.length_append] at bound
      exact bound
    obtain ⟨⟨allocation, last⟩, asked⟩ := exists_request room
    exact ⟨allocations ++ [allocation], last, requestAll_append ran asked, replies.request asked⟩

theorem find?_eq_of_sets_eq {second : Registry} (same : first.sets base = second.sets base) (arguments : Arguments) :
    second.find? base arguments = first.find? base arguments := by
  apply Option.ext
  intro id
  rw [find?_eq_some_iff, find?_eq_some_iff, Registry.get?, Registry.get?, same]

theorem request_congr {second : Registry} (same : first.sets base = second.sets base)
    (asked : first.request base arguments = .ok (allocation, last)) :
    ∃ other, second.request base arguments = .ok (allocation, other) ∧ last.sets base = other.sets base := by
  have find := find?_eq_of_sets_eq same arguments
  obtain ⟨id, isNew⟩ := allocation
  cases isNew with
  | false =>
    rcases request_eq_ok asked with ⟨found, _, rfl⟩ | ⟨isNew, _⟩
    · exact ⟨second, request_of_find? (find.trans found), same⟩
    · cases isNew
  | true =>
    obtain ⟨missing, next, _⟩ := exists_add_of_request asked
    have alike := request_of_find?_eq_none (find.trans missing) (same ▸ next)
    refine ⟨_, alike, ?_⟩
    rw [sets_of_request asked, sets_of_request alike, if_pos rfl, if_pos rfl, same]

theorem sets_of_request_other (asked : first.request call.base call.arguments = .ok (allocation, last))
    (apart : call.base ≠ base) : last.sets base = first.sets base := by
  rcases request_eq_ok asked with ⟨_, _, rfl⟩ | ⟨_, _, _, rfl⟩
  · rfl
  · rw [sets, numbering_set, if_neg (Ne.symm apart)]
    rfl

theorem requestAll_filter {second : Registry} (same : first.sets base = second.sets base)
    (ran : first.requestAll calls = .ok (allocations, last)) :
    ∃ other, second.requestAll (calls.filter (·.base = base)) = .ok (Call.answers calls allocations base, other) ∧
      other.sets base = last.sets base := by
  induction calls generalizing first second allocations with
  | nil =>
    cases ran
    exact ⟨second, rfl, same.symm⟩
  | cons call calls ih =>
    obtain ⟨allocation, middle, rest, asked, after, rfl⟩ := request_of_requestAll_cons ran
    by_cases here : call.base = base
    · subst here
      obtain ⟨next, alike, same⟩ := request_congr same asked
      obtain ⟨other, rest_alike, same⟩ := ih same after
      refine ⟨other, ?_, same⟩
      rw [List.filter_cons_of_pos (by simp), requestAll_cons alike, rest_alike]
      simp [Call.answers, Except.map]
    · obtain ⟨other, alike, same⟩ := ih ((sets_of_request_other asked here).trans same) after
      refine ⟨other, ?_, same⟩
      rw [List.filter_cons_of_neg (by simp [here]), alike]
      simp [Call.answers, here]

theorem size_eq (registry : Registry) :
    registry.size = ((registry.bases.map Prod.fst).map registry.count).sum := by
  have counts : registry.bases.map (fun entry => entry.2.sets.length)
      = (registry.bases.map Prod.fst).map registry.count := by
    rw [List.map_map]
    apply List.map_congr_left
    intro entry member
    have numbering : registry.numbering entry.1 = entry.2 := numbering_eq member
    exact congrArg (fun numbering => numbering.sets.length) numbering.symm
  rw [← counts, List.sum_eq_foldl, List.foldl_map]
  rfl

theorem toList_eq (registry : Registry) :
    registry.toList.map (fun entry => (entry.1.base, entry.1.id.number, entry.2))
      = (registry.bases.map Prod.fst).flatMap fun base =>
        ((registry.sets base).zipIdx 1).map fun entry => (base, entry.2, entry.1) := by
  unfold toList
  rw [List.map_flatMap, List.flatMap_map]
  apply List.flatMap_congr
  intro entry member
  have sets : registry.sets entry.1 = entry.2.sets := congrArg NumberedSets.sets (numbering_eq member)
  have bound := entry.2.bounded
  rw [sets, List.zipIdx_succ, List.map_map, List.map_filterMap, ← List.filterMap_eq_map]
  apply List.filterMap_congr
  intro numbered there
  have within := List.snd_lt_of_mem_zipIdx there
  simp [InstanceId.ofNat?, show numbered.2 + 1 < UInt32.size by omega]

/-- The map of a base has the place of each set in the order of first calls. -/
theorem Replies.find?_iff_findIdx? (replies : Replies calls allocations registry) {id : InstanceId} :
    (registry.numbering base).numbers.find? arguments = some id ↔
      (Call.distinct calls base).findIdx? (·.same arguments) = some (id.number - 1) := by
  have apart : (registry.sets base).Pairwise fun first second => first.same second = false :=
    replies.sets base ▸
      pairwise_eraseDupsBy Arguments.same (fun _ _ => Arguments.same_symm) (Call.sets calls base)
  show registry.find? base arguments = some id ↔ _
  rw [← replies.sets, find?_eq_some_iff, Registry.get?, List.findIdx?_eq_some_iff_getElem]
  constructor
  · rintro ⟨stored, found, agree⟩
    obtain ⟨within, stored_eq⟩ := List.getElem?_eq_some_iff.mp found
    refine ⟨within, stored_eq ▸ agree, ?_⟩
    intro position before same
    have differ := List.pairwise_iff_getElem.mp apart position (id.number - 1) (before.trans within) within before
    rw [stored_eq, Arguments.same_trans same (Arguments.same_symm agree)] at differ
    cases differ
  · rintro ⟨within, agree, _⟩
    exact ⟨_, List.getElem?_eq_getElem within, agree⟩

/-- A history of calls on an empty registry, with fewer distinct sets for a base than there are numbers,
is answered throughout, and the answers and the registry at the end are determined by it. -/
theorem answers_requestAll (calls : List Call)
    (bounded : ∀ base, (Call.distinct calls base).length < UInt32.size) :
    ∃ allocations registry, empty.requestAll calls = .ok (allocations, registry) ∧
      Answers calls allocations registry := by
  obtain ⟨allocations, registry, ran, replies⟩ := exists_replies calls bounded
  refine ⟨allocations, registry, ran, ?_⟩
  exact {
    sets := replies.sets
    places := fun base arguments id => replies.find?_iff_findIdx?
    numbers := fun base id arguments => by
      rw [resolve_eq_ok, get?, replies.sets]
    length := replies.length
    new := replies.new
    same := fun first here second there agree => by
      have found := replies.looked first here
      rw [agree.1, find?_congr agree.2, replies.looked second there] at found
      exact (Option.some.inj found).symm
    looked := replies.looked
    found := fun base arguments id => by
      simp only [resolve_eq_ok]
      exact find?_eq_some_iff
    alone := fun base => requestAll_filter rfl ran
    size := by rw [size_eq, replies.bases]
    listed := by simp only [toList_eq, replies.bases, replies.sets] }

/-- Two sets for one base, one of them asked for again in another spelling after a set for another base. -/
def sampleCalls : List Call :=
  [⟨"P", [.int ⟨8, 32, false, false⟩]⟩, ⟨"Q", [.int ⟨8, 32, false, true⟩]⟩, ⟨"P", [.int ⟨8, 33, false, true⟩]⟩,
    ⟨"P", [.int ⟨8, 32, false, true⟩]⟩]

theorem answers_sampleCalls : ∃ allocations registry, empty.requestAll sampleCalls = .ok (allocations, registry) ∧
    Answers sampleCalls allocations registry ∧ allocations.map (·.isNew) = [true, true, true, false] ∧
      allocations.map (·.id.number) = [1, 1, 2, 1] ∧
      registry.sets "P" = [[.int ⟨8, 32, false, false⟩], [.int ⟨8, 33, false, true⟩]] := by
  have bounded (base : String) : (Call.distinct sampleCalls base).length < UInt32.size :=
    (Call.length_distinct_le sampleCalls base).trans_lt (by decide)
  obtain ⟨allocations, registry, ran, answers⟩ := answers_requestAll sampleCalls bounded
  have evaluated : (empty.requestAll sampleCalls).toOption.map
      (fun final => (final.1.map (·.isNew), final.1.map (·.id.number), final.2.sets "P"))
        = some ([true, true, true, false], [1, 1, 2, 1],
          [[.int ⟨8, 32, false, false⟩], [.int ⟨8, 33, false, true⟩]]) := by decide +kernel
  rw [ran] at evaluated
  obtain ⟨isNew, rest⟩ := Prod.mk.inj (Option.some.inj evaluated)
  exact ⟨allocations, registry, ran, answers, isNew, Prod.mk.inj rest⟩

end Registry
end Monomorph
