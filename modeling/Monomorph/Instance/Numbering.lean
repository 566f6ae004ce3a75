import Monomorph.Constant.Value
import Monomorph.Instance.Name

/-! The numbers of argument sets.

The sets of one generic package are kept twice: in a hash map from sets to numbers, and in
a list in the order of the numbers. Both are written when a set is added, and they stay
inverse to each other. Sets are compared by `Arguments.same`, which does not look at how a
width was spelled, so the hash must not look at it either.
-/

set_option autoImplicit false

namespace Monomorph

/-- What is hashed of an integer: all that `same` compares. -/
def IntValue.words (value : IntValue) : List Nat := [value.bits.toNat, value.width, value.signed.toNat]

def Value.words : Value → List Nat
  | int value => 0 :: value.words
  | bool value => [1, value.toNat]

def Arguments.hash (arguments : Arguments) : Nat :=
  (arguments.length :: arguments.flatMap Value.words).foldl (fun code word => (31 * code + word) % UInt64.size) 0

theorem Value.words_eq_of_same {first second : Value} (same : first.same second = true) :
    first.words = second.words := by
  cases first with
  | int first =>
    cases second with
    | int second =>
      obtain ⟨width, signed, bits⟩ := IntValue.same_iff.mp same
      simp only [words, IntValue.words, width, signed, bits]
    | bool second => cases same
  | bool first =>
    cases second with
    | int second => cases same
    | bool second => rw [eq_of_beq same]

theorem Arguments.hash_eq_of_same {first second : Arguments} (agree : first.same second = true) :
    first.hash = second.hash := by
  have alike : first.length = second.length ∧ first.flatMap Value.words = second.flatMap Value.words := by
    induction first generalizing second with
    | nil =>
      cases second with
      | nil => exact ⟨rfl, rfl⟩
      | cons value rest => cases agree
    | cons value rest ih =>
      cases second with
      | nil => cases agree
      | cons value' rest' =>
        obtain ⟨here, later⟩ := Bool.and_eq_true_iff.mp agree
        obtain ⟨length, words⟩ := ih later
        rw [List.length_cons, List.length_cons, length, List.flatMap_cons, List.flatMap_cons,
          Value.words_eq_of_same here, words]
        exact ⟨rfl, rfl⟩
  rw [hash, hash, alike.1, alike.2]

theorem getElem?_append_singleton_eq_some {α : Type} {items : List α} {last item : α} {position : Nat} :
    (items ++ [last])[position]? = some item ↔
      items[position]? = some item ∨ position = items.length ∧ last = item := by
  rw [List.getElem?_append]
  split
  · rename_i within
    simp [Nat.ne_of_lt within]
  · rename_i beyond
    rw [List.getElem?_singleton, List.getElem?_eq_none (Nat.le_of_not_lt beyond)]
    split
    · have here : position = items.length := by omega
      simp [here]
    · have further : position ≠ items.length := by omega
      simp [further]

structure Slot where
  hash : Nat
  arguments : Arguments
  id : InstanceId
  deriving DecidableEq, Repr

/-- Keys are compared only where their hashes agree. -/
def Slot.holds (slot : Slot) (arguments : Arguments) : Bool :=
  slot.hash == arguments.hash && slot.arguments.same arguments

structure NumberMap where
  slots : List Slot
  deriving DecidableEq, Repr

namespace NumberMap

def empty : NumberMap := ⟨[]⟩

def find? (map : NumberMap) (arguments : Arguments) : Option InstanceId :=
  (map.slots.find? (·.holds arguments)).map (·.id)

def insert (map : NumberMap) (arguments : Arguments) (id : InstanceId) : NumberMap :=
  ⟨⟨arguments.hash, arguments, id⟩ :: map.slots.filter fun slot => !slot.holds arguments⟩

theorem find?_insert (map : NumberMap) (arguments sought : Arguments) (id : InstanceId) :
    (map.insert arguments id).find? sought = if arguments.same sought then some id else map.find? sought := by
  unfold find? insert
  cases agree : arguments.same sought with
  | true =>
    -- a set that is the same has the same hash, so that it is not overlooked
    have holds : (Slot.mk arguments.hash arguments id).holds sought = true := by
      simp only [Slot.holds, Arguments.hash_eq_of_same agree, agree, beq_self_eq_true, Bool.and_true]
    simp only [List.find?_cons, holds, if_true, Option.map_some]
  | false =>
    have passed : (Slot.mk arguments.hash arguments id).holds sought = false := by
      simp only [Slot.holds, agree, Bool.and_false]
    -- a slot for the set that is sought was not taken out
    have kept (slot : Slot) (there : slot.holds sought = true) : slot.holds arguments = false := by
      apply Bool.eq_false_iff.mpr
      intro here
      have both := Arguments.same_trans (Arguments.same_symm (Bool.and_eq_true_iff.mp here).2)
        (Bool.and_eq_true_iff.mp there).2
      rw [agree] at both
      cases both
    have slots : (map.slots.filter fun slot => !slot.holds arguments).find? (·.holds sought)
        = map.slots.find? (·.holds sought) := by
      rw [List.find?_filter]
      congr 1
      funext slot
      cases there : slot.holds sought with
      | false => simp
      | true => simp [kept slot there]
    simp only [List.find?_cons, passed, slots, Bool.false_eq_true, if_false]

/-- A set has the number under which the list has an equal one, and no other. -/
def Inverts (map : NumberMap) (sets : List Arguments) : Prop :=
  ∀ arguments id, map.find? arguments = some id ↔
    ∃ stored, sets[id.number - 1]? = some stored ∧ stored.same arguments = true

theorem inverts_empty : empty.Inverts [] := by
  intro arguments id
  constructor
  · intro found
    cases found
  · rintro ⟨stored, found, _⟩
    cases found

theorem Inverts.insert {map : NumberMap} {sets : List Arguments} {arguments : Arguments} {id : InstanceId}
    (inverts : map.Inverts sets) (missing : map.find? arguments = none)
    (next : InstanceId.ofNat? (sets.length + 1) = some id) : (map.insert arguments id).Inverts (sets ++ [arguments]) := by
  have number := InstanceId.number_of_ofNat? next
  intro sought other
  have positive := other.positive
  rw [find?_insert]
  cases agree : arguments.same sought with
  | true =>
    rw [if_pos rfl]
    constructor
    · intro same
      cases same
      exact ⟨arguments, getElem?_append_singleton_eq_some.mpr (.inr ⟨by omega, rfl⟩), agree⟩
    · rintro ⟨stored, found, same⟩
      rcases getElem?_append_singleton_eq_some.mp found with old | ⟨here, _⟩
      · -- the set would have been found before
        have known := (inverts arguments other).mpr
          ⟨stored, old, Arguments.same_trans same (Arguments.same_symm agree)⟩
        rw [missing] at known
        cases known
      · exact congrArg some (InstanceId.eq_of_number_eq (by omega))
  | false =>
    rw [if_neg Bool.false_ne_true, inverts]
    constructor
    · rintro ⟨stored, found, same⟩
      exact ⟨stored, getElem?_append_singleton_eq_some.mpr (.inl found), same⟩
    · rintro ⟨stored, found, same⟩
      rcases getElem?_append_singleton_eq_some.mp found with old | ⟨_, rfl⟩
      · exact ⟨stored, old, same⟩
      · rw [agree] at same
        cases same

end NumberMap

/-- The argument sets of one generic package and their numbers, in both directions. -/
structure NumberedSets where
  numbers : NumberMap
  sets : List Arguments
  inverts : numbers.Inverts sets
  bounded : sets.length < UInt32.size
  deriving DecidableEq, Repr

namespace NumberedSets

theorem zero_lt_size : 0 < UInt32.size := by decide

def empty : NumberedSets := ⟨.empty, [], NumberMap.inverts_empty, zero_lt_size⟩

def add (numbering : NumberedSets) (arguments : Arguments) (id : InstanceId)
    (missing : numbering.numbers.find? arguments = none)
    (next : InstanceId.ofNat? (numbering.sets.length + 1) = some id) : NumberedSets where
  numbers := numbering.numbers.insert arguments id
  sets := numbering.sets ++ [arguments]
  inverts := numbering.inverts.insert missing next
  bounded := by
    have bound := id.bounded
    rw [InstanceId.number_of_ofNat? next] at bound
    rwa [List.length_append, List.length_singleton]

theorem exists_number (numbering : NumberedSets) {position : Nat} {arguments : Arguments}
    (found : numbering.sets[position]? = some arguments) :
    ∃ id, id.number = position + 1 ∧ numbering.numbers.find? arguments = some id := by
  have within := (List.getElem?_eq_some_iff.mp found).1
  have bounded := numbering.bounded
  refine ⟨⟨position + 1, Nat.succ_pos position, by omega⟩, rfl, (numbering.inverts _ _).mpr ?_⟩
  exact ⟨arguments, found, Arguments.same_refl arguments⟩

end NumberedSets
end Monomorph
