import Mathlib.Data.Set.Card
import Keyline.Proofs.Runs.AuditTrail

/-!
# What replies say about the size of a store

A store has as many pairs as there are keys with a value. So its size can be followed from outside:
it grows by one with each query that sets a key and is told that this changed the keys, shrinks by
one with each query that deletes a key and is told so, and stays the same with all others.
-/
namespace Keyline

namespace Query

/-- Whether the reply says that the query gave the store a new key. -/
def adds : Query → Reply → Bool
  | set _ _, .changed true => true
  | _, _ => false

/-- Whether the reply says that the query took a key from the store. -/
def removes : Query → Reply → Bool
  | delete _, .changed true => true
  | _, _ => false

end Query

namespace Store
variable (s : Store)

def keys : Finset String := (s.pairs.map Prod.fst).toFinset

theorem mem_keys_iff {k : String} : k ∈ s.keys ↔ (s.get? k).isSome := by
  simp only [keys, List.mem_toFinset, List.mem_map, Prod.exists, exists_and_right, exists_eq_right,
    mem_pairs_iff, Option.isSome_iff_exists]

theorem card_keys : s.keys.card = s.size := by
  rw [keys, List.toFinset_card_of_nodup s.nodup_keys, List.length_map, size]

theorem keys_insert (k v : String) : (s.insert k v).keys = Insert.insert k s.keys := by
  ext j
  rw [mem_keys_iff, get?_insert, Finset.mem_insert, mem_keys_iff]
  by_cases h : k = j
  · simp [h]
  · simp [h, Ne.symm h]

theorem keys_erase (k : String) : (s.erase k).keys = s.keys.erase k := by
  ext j
  rw [mem_keys_iff, get?_erase, Finset.mem_erase, mem_keys_iff]
  by_cases h : k = j
  · simp [h]
  · simp [h, Ne.symm h]

theorem size_insert (k v : String) :
    (s.insert k v).size = s.size + if (s.get? k).isNone then 1 else 0 := by
  rw [← card_keys, ← card_keys, keys_insert]
  cases h : s.get? k with
  | none => exact Finset.card_insert_of_notMem (by simp [mem_keys_iff, h])
  | some w => rw [Finset.insert_eq_of_mem (by simp [mem_keys_iff, h])]; rfl

theorem size_erase (k : String) :
    (s.erase k).size + (if (s.get? k).isSome then 1 else 0) = s.size := by
  rw [← card_keys, ← card_keys, keys_erase]
  cases h : s.get? k with
  | none => rw [Finset.erase_eq_of_notMem (by simp [mem_keys_iff, h])]; rfl
  | some w => exact Finset.card_erase_add_one (by simp [mem_keys_iff, h])

theorem size_apply (q : Query) :
    (s.apply q).2.size + (if q.removes (s.apply q).1 then 1 else 0) =
      s.size + (if q.adds (s.apply q).1 then 1 else 0) := by
  cases q with
  | get k =>
    rw [apply]
    cases s.get? k <;> rfl
  | delete k =>
    have h := s.size_erase k
    rw [apply]
    cases hk : s.get? k <;> simpa [Query.adds, Query.removes, hk] using h
  | set k v =>
    have h := s.size_insert k v
    rw [apply]
    cases hk : s.get? k <;> simpa [Query.adds, Query.removes, hk] using h

def answered (qs : List Query) : List (Query × Reply) := qs.zip (s.applyAll qs).1

theorem answered_cons (q : Query) (qs : List Query) :
    s.answered (q :: qs) = (q, (s.apply q).1) :: (s.apply q).2.answered qs := rfl

theorem size_applyAll (qs : List Query) :
    (s.applyAll qs).2.size + (s.answered qs).countP (fun r => r.1.removes r.2) =
      s.size + (s.answered qs).countP (fun r => r.1.adds r.2) := by
  induction qs generalizing s with
  | nil => rfl
  | cons q qs ih =>
    have step := s.size_apply q
    have rest := ih (s.apply q).2
    rw [answered_cons, List.countP_cons, List.countP_cons, applyAll]
    dsimp only
    omega

theorem encard_keys : {k | (s.get? k).isSome}.encard = s.size := by
  have same : {k | (s.get? k).isSome} = (s.keys : Set String) := by
    ext k
    rw [Finset.mem_coe, mem_keys_iff]
    rfl
  rw [same, Set.encard_coe_eq_coe_finsetCard, card_keys]

theorem isEmpty_iff : s.isEmpty = true ↔ ∀ k, s.get? k = none := by
  rw [isEmpty, List.isEmpty_iff_length_eq_zero, ← size, ← card_keys, Finset.card_eq_zero,
    Finset.eq_empty_iff_forall_notMem]
  simp only [mem_keys_iff, Option.not_isSome_iff_eq_none]

/-- The replies to queries account for the size of the store that they lead to, and this size is the
number of keys that have a value. -/
theorem replies_account_for_size (qs : List Query) :
    ((s.applyAll qs).2.size : Int) =
        s.size + (s.answered qs).countP (fun r => r.1.adds r.2) -
          (s.answered qs).countP (fun r => r.1.removes r.2) ∧
      {k | ((s.applyAll qs).2.get? k).isSome}.encard = (s.applyAll qs).2.size ∧
      ((s.applyAll qs).2.isEmpty = true ↔ ∀ k, (s.applyAll qs).2.get? k = none) := by
  have sum := s.size_applyAll qs
  exact ⟨by omega, encard_keys _, isEmpty_iff _⟩

end Store
end Keyline
