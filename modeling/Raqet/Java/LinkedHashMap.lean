import Mathlib.Data.List.AList

/-!
# Access-ordered maps

A `LinkedHashMap` in access order: an association list without duplicate keys,
the most recently used entry first. Both `put` and `touch` (what `get` does to
the order) move the entry of their key to the front; `evict` removes the entry
at the back. The order only decides which entry is evicted: no operation but
`put` makes a lookup find something new.
-/

namespace Java

/-- A map in access order, the most recently used entry first. -/
abbrev LinkedHashMap (κ ν : Type*) := AList fun _ : κ => ν

namespace LinkedHashMap

variable {κ ν : Type*} [DecidableEq κ]

/-- The number of entries. -/
def size (m : LinkedHashMap κ ν) : ℕ := m.keys.length

/-- The map with the value `v` for the key `k`, now the most recently used one. -/
def put (m : LinkedHashMap κ ν) (k : κ) (v : ν) : LinkedHashMap κ ν := m.insert k v

/-- The map after a `get` of the key `k`: its entry, if any, is now the most
    recently used one. -/
def touch (m : LinkedHashMap κ ν) (k : κ) : LinkedHashMap κ ν :=
  match m.lookup k with
  | none => m
  | some v => m.put k v

/-- The map without its least recently used entry. -/
def evict (m : LinkedHashMap κ ν) : LinkedHashMap κ ν :=
  match m.keys.getLast? with
  | none => m
  | some k => m.erase k

variable {m : LinkedHashMap κ ν} {j k : κ} {v w : ν}

@[simp] theorem lookup_put_self : (m.put k v).lookup k = some v := AList.lookup_insert m

theorem lookup_put_of_ne (h : j ≠ k) : (m.put k v).lookup j = m.lookup j :=
  AList.lookup_insert_ne h

/-- Looking up an entry changes no entry. -/
@[simp] theorem lookup_touch : (m.touch k).lookup j = m.lookup j := by
  rw [touch]
  split
  · rfl
  · next v hv =>
    by_cases h : j = k
    · rw [h, lookup_put_self, hv]
    · exact lookup_put_of_ne h

/-- Evicting makes no lookup find anything new. -/
theorem lookup_of_evict (h : m.evict.lookup j = some v) : m.lookup j = some v := by
  rw [evict] at h
  split at h
  · exact h
  · next k _ =>
    by_cases hj : j = k
    · rw [hj, AList.lookup_erase] at h
      cases h
    · rwa [AList.lookup_erase_ne hj] at h

/-- What a lookup finds after a `put` was put, or was there before. -/
theorem lookup_put_cases (h : (m.put k v).lookup j = some w) :
    (j = k ∧ w = v) ∨ (j ≠ k ∧ m.lookup j = some w) := by
  by_cases hj : j = k
  · subst hj
    rw [lookup_put_self] at h
    exact .inl ⟨rfl, (Option.some.inj h).symm⟩
  · rw [lookup_put_of_ne hj] at h
    exact .inr ⟨hj, h⟩

end LinkedHashMap

end Java
