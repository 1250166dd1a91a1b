import Mathlib.Data.List.Infix
import Raqet.Java.LinkedHashMap

/-!
# Bounded maps in access order

A map in access order that never holds more than `c` entries, and makes room by evicting
the least recently used one (`putBounded`), is the beginning of the map that evicts
nothing (`Remembers`): its keys are the most recently used ones, with the values of the
unbounded map.

Room is also made for a key that is there already. Hence a full map may drop to `c - 1`
entries, and only that many are sure to be kept.
-/

namespace Java

namespace LinkedHashMap

variable {κ ν : Type*} [DecidableEq κ] {m H : LinkedHashMap κ ν} {c : ℕ} {j k : κ} {v : ν}

/-- The map after a `put`, for which room is made in a map of `c` entries. -/
def putBounded (c : ℕ) (m : LinkedHashMap κ ν) (k : κ) (v : ν) : LinkedHashMap κ ν :=
  (if m.size = c then m.evict else m).put k v

theorem keys_put : (m.put k v).keys = k :: m.keys.erase k := AList.keys_insert m

theorem mem_put : j ∈ m.put k v ↔ j = k ∨ j ∈ m := AList.mem_insert m

theorem size_put_of_mem (h : k ∈ m) : (m.put k v).size = m.size := by
  rw [size, keys_put, List.length_cons, List.length_erase_of_mem h]
  exact Nat.succ_pred_eq_of_pos (List.length_pos_of_mem h)

theorem size_put_of_notMem (h : k ∉ m) : (m.put k v).size = m.size + 1 := by
  rw [size, keys_put, List.length_cons, List.erase_of_not_mem h, size]

/-- Evicting takes the last key. -/
theorem keys_evict : m.evict.keys = m.keys.dropLast := by
  rw [evict]
  split
  · next h => rw [List.getLast?_eq_none_iff.1 h, List.dropLast_nil]
  · next k h =>
    obtain ⟨init, hinit⟩ := List.getLast?_eq_some_iff.1 h
    have hk : k ∉ init := by
      have hnodup := m.keys_nodup
      rw [hinit, List.nodup_append] at hnodup
      exact fun hk => hnodup.2.2 k hk k (List.mem_singleton_self k) rfl
    rw [AList.keys_erase, hinit, List.erase_append_right _ hk, List.dropLast_concat,
      List.erase_cons_head, List.append_nil]

theorem size_evict : m.evict.size = m.size - 1 := by
  rw [size, keys_evict, List.length_dropLast, size]

/-- Evicting changes no entry that is left. -/
theorem lookup_evict (h : j ∈ m.evict) : m.evict.lookup j = m.lookup j := by
  obtain ⟨w, hw⟩ := Option.isSome_iff_exists.1 (AList.lookup_isSome.2 h)
  rw [hw, lookup_of_evict hw]

/-! ## The most recently used entries -/

/-- The map `m` of at most `c` entries is the beginning of the map `H`, which evicts
    nothing; all of it, if it has less than `c` entries. -/
structure Remembers (c : ℕ) (m H : LinkedHashMap κ ν) : Prop where
  keys : m.keys <+: H.keys
  lookup : ∀ k ∈ m, m.lookup k = H.lookup k
  size_le : m.size ≤ c
  le_size : min (c - 1) H.size ≤ m.size

theorem remembers_empty : Remembers c (∅ : LinkedHashMap κ ν) ∅ where
  keys := List.prefix_rfl
  lookup _ _ := rfl
  size_le := Nat.zero_le c
  le_size := Nat.min_le_right _ _

/-- A `put` with room for one more entry. -/
theorem Remembers.put (h : Remembers c m H) (hsize : k ∉ m → m.size < c) :
    Remembers c (m.put k v) (H.put k v) where
  keys := by
    rw [keys_put, keys_put]
    exact (List.prefix_cons_inj k).2 (h.keys.erase k)
  lookup j hj := by
    by_cases hjk : j = k
    · rw [hjk, lookup_put_self, lookup_put_self]
    · rw [lookup_put_of_ne hjk, lookup_put_of_ne hjk,
        h.lookup j ((mem_put.1 hj).resolve_left hjk)]
  -- a key that is there already makes the map no larger
  size_le := by
    by_cases hk : k ∈ m
    · exact (size_put_of_mem hk).trans_le h.size_le
    · exact (size_put_of_notMem hk).trans_le (hsize hk)
  le_size := by
    have hle := h.le_size
    by_cases hk : k ∈ m
    · rw [size_put_of_mem hk, size_put_of_mem (h.keys.subset hk)]
      exact hle
    · rw [size_put_of_notMem hk]
      have : (H.put k v).size ≤ H.size + 1 := by
        by_cases hH : k ∈ H
        · exact (size_put_of_mem hH).trans_le (Nat.le_succ _)
        · exact (size_put_of_notMem hH).le
      omega

/-- Making room. -/
theorem Remembers.evict (h : Remembers c m H) (hsize : m.size = c) : Remembers c m.evict H where
  keys := by
    rw [keys_evict]
    exact (List.dropLast_prefix _).trans h.keys
  lookup j hj := by
    have hjm : j ∈ m := by
      refine (List.dropLast_prefix m.keys).subset ?_
      rw [← keys_evict]
      exact hj
    rw [lookup_evict hj, h.lookup j hjm]
  size_le := size_evict.trans_le ((Nat.sub_le _ _).trans h.size_le)
  le_size := by
    rw [size_evict, hsize]
    exact Nat.min_le_left _ _

theorem Remembers.putBounded (h : Remembers c m H) (hc : 0 < c) :
    Remembers c (m.putBounded c k v) (H.put k v) := by
  rw [LinkedHashMap.putBounded]
  split
  · next hsize =>
    refine (h.evict hsize).put fun _ => ?_
    rw [size_evict, hsize]
    exact Nat.sub_lt hc Nat.one_pos
  · next hsize => exact h.put fun _ => lt_of_le_of_ne h.size_le hsize

/-- A `get` that finds its key. -/
theorem Remembers.touch (h : Remembers c m H) (hv : m.lookup k = some v) :
    Remembers c (m.touch k) (H.put k v) := by
  have hk : k ∈ m := AList.lookup_isSome.1 (Option.isSome_iff_exists.2 ⟨v, hv⟩)
  rw [LinkedHashMap.touch, hv]
  exact h.put fun hk' => absurd hk hk'

/-- The `c - 1` most recently used keys are there. -/
theorem Remembers.mem (h : Remembers c m H) (hk : k ∈ H.keys.take (c - 1)) : k ∈ m := by
  have hlen : min (c - 1) H.keys.length ≤ m.keys.length := h.le_size
  rw [List.take_eq_take_min] at hk
  refine AList.mem_keys.2 ?_
  rw [List.prefix_iff_eq_take.1 h.keys]
  exact List.take_subset_take_left _ hlen hk

/-- No other than the `c` most recently used keys are there. -/
theorem Remembers.mem_take (h : Remembers c m H) (hk : k ∈ m) : k ∈ H.keys.take c := by
  have hmem : k ∈ m.keys := hk
  rw [List.prefix_iff_eq_take.1 h.keys] at hmem
  exact List.take_subset_take_left _ h.size_le hmem

end LinkedHashMap

end Java
