import Raqet.Evidence.Factory

/-!
# The stores of one path

The factory has the stores of all paths in one list, and in one map. What is done to the
stores of one path changes nothing for the others (`ChangesAt`), and is the same as if there
were no others, but for the numbers of the stores: a factory for one path follows the factory
for all paths (`Projects`).
-/

namespace Raqet

open Java EvidenceStore

namespace EvidenceStoreFactory

/-- The store `i` is one of this path. -/
def Owns (w : EvidenceStoreFactory) (path : String) (i : ℕ) : Prop :=
  ∃ s, w.objects[i]? = some s ∧ s.evidenceFilePath = path

/-- Only what belongs to this path may have changed, and its stores are still its stores. -/
structure ChangesAt (path : String) (w w' : EvidenceStoreFactory) : Prop where
  evidenceStores : ∀ q ≠ path, w'.evidenceStores q = w.evidenceStores q
  disk : ∀ q ≠ path, w'.disk q = w.disk q
  objects : ∀ (i : ℕ) (s : EvidenceStore), s.evidenceFilePath ≠ path →
    (w'.objects[i]? = some s ↔ w.objects[i]? = some s)
  owns : ∀ i, w.Owns path i → w'.Owns path i

/-- The factory `v` has of this path what the factory `w` has; its stores are numbered by `σ`. -/
structure Projects (path : String) (σ : ℕ → ℕ) (w v : EvidenceStoreFactory) : Prop where
  evidenceStores : v.evidenceStores path = (w.evidenceStores path).map σ
  mapped : ∀ i, w.evidenceStores path = some i → w.Owns path i
  disk : v.disk path = w.disk path
  object : ∀ i s, w.objects[i]? = some s → s.evidenceFilePath = path → v.objects[σ i]? = some s
  injective : ∀ i j, w.Owns path i → w.Owns path j → σ i = σ j → i = j

variable {w w' v v' w₁ : EvidenceStoreFactory} {p q : String} {σ σ' : ℕ → ℕ} {i j : ℕ}
  {s : EvidenceStore} {f : Files} {t : Session}

/-! ## Other paths -/

theorem ChangesAt.refl (p : String) (w : EvidenceStoreFactory) : ChangesAt p w w :=
  ⟨fun _ _ => rfl, fun _ _ => rfl, fun _ _ _ => Iff.rfl, fun _ h => h⟩

theorem ChangesAt.trans (h : ChangesAt p w w₁) (h' : ChangesAt p w₁ w') : ChangesAt p w w' where
  evidenceStores q hq := (h'.evidenceStores q hq).trans (h.evidenceStores q hq)
  disk q hq := (h'.disk q hq).trans (h.disk q hq)
  objects i s hs := (h'.objects i s hs).trans (h.objects i s hs)
  owns i hi := h'.owns i (h.owns i hi)

/-- The stores of the other paths are the same. -/
theorem ChangesAt.owns_iff (h : ChangesAt p w w') (hq : q ≠ p) : w'.Owns q i ↔ w.Owns q i := by
  refine exists_congr fun s => and_congr_left fun hs => ?_
  exact h.objects i s (hs ▸ hq)

/-- What one path sees of the factory is not changed at another path. -/
theorem Projects.changesAt (h : Projects q σ w v) (hw : ChangesAt p w w') (hq : q ≠ p) :
    Projects q σ w' v where
  evidenceStores := by rw [hw.evidenceStores q hq, h.evidenceStores]
  mapped i hi := (hw.owns_iff hq).2 (h.mapped i (hw.evidenceStores q hq ▸ hi))
  disk := h.disk.trans (hw.disk q hq).symm
  object i s hs hpath := h.object i s ((hw.objects i s (hpath ▸ hq)).1 hs) hpath
  injective i j hi hj := h.injective i j ((hw.owns_iff hq).1 hi) ((hw.owns_iff hq).1 hj)

/-! ## Single changes -/

theorem changesAt_setFiles (w : EvidenceStoreFactory) (p : String) (f : Files) :
    ChangesAt p w (w.setFiles p f) where
  evidenceStores _ _ := rfl
  disk _ hq := Function.update_of_ne hq _ _
  objects _ _ _ := Iff.rfl
  owns _ h := h

theorem changesAt_setMap (w : EvidenceStoreFactory) (p : String) (x : Option ℕ) :
    ChangesAt p w { w with evidenceStores := Function.update w.evidenceStores p x } where
  evidenceStores _ hq := Function.update_of_ne hq _ _
  disk _ _ := rfl
  objects _ _ _ := Iff.rfl
  owns _ h := h

theorem getElem?_setObject (hi : w.objects[i]? = some s) (s' : EvidenceStore) (j : ℕ) :
    (w.setObject i s').objects[j]? = if i = j then some s' else w.objects[j]? := by
  obtain ⟨hlt, -⟩ := List.getElem?_eq_some_iff.1 hi
  rw [setObject, List.getElem?_set, if_pos hlt]

theorem owns_setObject (hi : w.objects[i]? = some s) (s' : EvidenceStore)
    (hpath : s'.evidenceFilePath = s.evidenceFilePath) :
    (w.setObject i s').Owns p j ↔ w.Owns p j := by
  rw [Owns, Owns, getElem?_setObject hi]
  split_ifs with hij
  · rw [← hij, hi]
    simp [hpath]
  · exact Iff.rfl

theorem changesAt_setObject (hi : w.objects[i]? = some s) (hs : s.evidenceFilePath = p)
    (s' : EvidenceStore) (hpath : s'.evidenceFilePath = s.evidenceFilePath) :
    ChangesAt p w (w.setObject i s') where
  evidenceStores _ _ := rfl
  disk _ _ := rfl
  objects j t ht := by
    rw [getElem?_setObject hi]
    split_ifs with hij
    · rw [← hij, hi]
      constructor <;> rintro ⟨⟩
      exacts [absurd (hpath.trans hs) ht, absurd hs ht]
    · exact Iff.rfl
  owns j hj := (owns_setObject hi s' hpath).2 hj

theorem changesAt_append (w : EvidenceStoreFactory) (hs : s.evidenceFilePath = p) :
    ChangesAt p w { w with objects := w.objects ++ [s] } where
  evidenceStores _ _ := rfl
  disk _ _ := rfl
  objects i t ht := by
    rw [List.getElem?_append, List.getElem?_singleton]
    split_ifs with hi h0
    · exact Iff.rfl
    · rw [List.getElem?_eq_none (not_lt.1 hi)]
      constructor <;> rintro ⟨⟩
      exact absurd hs ht
    · rw [List.getElem?_eq_none (not_lt.1 hi)]
      simp
  owns i := by
    rintro ⟨t, ht, hpath⟩
    obtain ⟨hlt, -⟩ := List.getElem?_eq_some_iff.1 ht
    exact ⟨t, by rw [List.getElem?_append_left hlt, ht], hpath⟩

theorem Projects.setFiles (h : Projects p σ w v) (f : Files) :
    Projects p σ (w.setFiles p f) (v.setFiles p f) where
  evidenceStores := h.evidenceStores
  mapped := h.mapped
  disk := by rw [disk_setFiles, disk_setFiles]
  object := h.object
  injective := h.injective

theorem Projects.setMap_none (h : Projects p σ w v) :
    Projects p σ { w with evidenceStores := Function.update w.evidenceStores p none }
      { v with evidenceStores := Function.update v.evidenceStores p none } where
  evidenceStores := by simp only [Function.update_self, Option.map_none]
  mapped i hi := by
    dsimp only at hi
    rw [Function.update_self] at hi
    cases hi
  disk := h.disk
  object := h.object
  injective := h.injective

theorem Projects.setObject (h : Projects p σ w v) (hi : w.objects[i]? = some s)
    (hs : s.evidenceFilePath = p) (s' : EvidenceStore)
    (hpath : s'.evidenceFilePath = s.evidenceFilePath) :
    Projects p σ (w.setObject i s') (v.setObject (σ i) s') where
  evidenceStores := h.evidenceStores
  mapped j hj := (owns_setObject hi s' hpath).2 (h.mapped j hj)
  disk := h.disk
  object j t hj ht := by
    have hv := h.object i s hi hs
    rw [getElem?_setObject hi] at hj
    rw [getElem?_setObject hv]
    split_ifs at hj with hij
    · rw [← hij, if_pos rfl]
      exact hj
    · rw [if_neg fun heq => hij (h.injective i j ⟨s, hi, hs⟩ ⟨t, hj, ht⟩ heq)]
      exact h.object j t hj ht
  injective j k hj hk :=
    h.injective j k ((owns_setObject hi s' hpath).1 hj) ((owns_setObject hi s' hpath).1 hk)

/-- A new store of the path, which is put in the map. -/
theorem Projects.append (h : Projects p σ w v) (hs : s.evidenceFilePath = p) :
    Projects p (Function.update σ w.objects.length v.objects.length)
      { w with
        evidenceStores := Function.update w.evidenceStores p (some w.objects.length)
        objects := w.objects ++ [s] }
      { v with
        evidenceStores := Function.update v.evidenceStores p (some v.objects.length)
        objects := v.objects ++ [s] } := by
  have hlt : ∀ {w : EvidenceStoreFactory} {i : ℕ}, w.Owns p i → i < w.objects.length := by
    rintro w i ⟨t, ht, -⟩
    exact (List.getElem?_eq_some_iff.1 ht).1
  have hold : ∀ {i}, w.Owns p i → Function.update σ w.objects.length v.objects.length i = σ i :=
    fun hi => Function.update_of_ne (hlt hi).ne _ _
  -- a store of the path is an old one or the new one
  have hcases : ∀ {i t}, (w.objects ++ [s])[i]? = some t → t.evidenceFilePath = p →
      w.Owns p i ∧ w.objects[i]? = some t ∨ i = w.objects.length ∧ t = s := by
    intro i t ht hpath
    rw [List.getElem?_append, List.getElem?_singleton] at ht
    split_ifs at ht with hi h0
    · exact Or.inl ⟨⟨t, ht, hpath⟩, ht⟩
    · exact Or.inr ⟨by omega, (Option.some.inj ht).symm⟩
  have hlt' : ∀ {i}, w.Owns p i → σ i < v.objects.length := by
    rintro i ⟨t, ht, hpath⟩
    exact (List.getElem?_eq_some_iff.1 (h.object i t ht hpath)).1
  refine ⟨?_, ?_, h.disk, ?_, ?_⟩
  · simp only [Function.update_self, Option.map_some]
  · intro i hi
    dsimp only at hi
    rw [Function.update_self] at hi
    cases hi
    exact ⟨s, List.getElem?_concat_length, hs⟩
  · intro i t ht hpath
    rcases hcases ht hpath with ⟨hi, ht⟩ | ⟨rfl, rfl⟩
    · rw [hold hi, List.getElem?_append_left (hlt' hi)]
      exact h.object i t ht hpath
    · rw [Function.update_self]
      exact List.getElem?_concat_length
  · rintro i j ⟨t, ht, hpath⟩ ⟨u, hu, hpath'⟩ hij
    rcases hcases ht hpath with ⟨hi, -⟩ | ⟨rfl, -⟩ <;>
      rcases hcases hu hpath' with ⟨hj, -⟩ | ⟨rfl, -⟩
    · exact h.injective i j hi hj (by rwa [hold hi, hold hj] at hij)
    · rw [hold hi, Function.update_self] at hij
      exact absurd hij (hlt' hi).ne
    · rw [hold hj, Function.update_self] at hij
      exact absurd hij (hlt' hj).ne'
    · rfl

/-- A factory has what it has of a path whose store in the map is at the path. -/
theorem Projects.self (hmapped : ∀ i, w.evidenceStores p = some i → w.Owns p i) :
    Projects p id w w :=
  ⟨(Option.map_id_apply ..).symm, hmapped, rfl, fun _ _ hi _ => hi, fun _ _ _ _ hij => hij⟩

theorem Projects.session (h : Projects p σ w v) (hi : w.Owns p i) :
    v.session (σ i) = w.session i := by
  obtain ⟨s, hs, hpath⟩ := hi
  rw [EvidenceStoreFactory.session, EvidenceStoreFactory.session, h.object i s hs hpath, hs,
    Option.map_some, Option.map_some, hpath, h.disk]

/-! ## Operations -/

/-- An operation on the stores of the path took `w` to `w'`, and the factory for the path to
    `v'`. New stores are numbered by `σ'`. -/
structure Mirrors (path : String) (σ : ℕ → ℕ) (w w' v' : EvidenceStoreFactory) (σ' : ℕ → ℕ) :
    Prop where
  projects : Projects path σ' w' v'
  changes : ChangesAt path w w'
  renumbers : ∀ i, w.Owns path i → σ' i = σ i

/-- Doing nothing. -/
theorem Projects.mirrors (h : Projects p σ w v) : Mirrors p σ w w v σ :=
  ⟨h, .refl p w, fun _ _ => rfl⟩

/-- A store of the path is obtained. -/
theorem Projects.getEvidenceStore (h : Projects p σ w v) (io : OpenIo) (L B : ℤ) :
    ∃ σ', Mirrors p σ w (w.getEvidenceStore io p L B).2 (v.getEvidenceStore io p L B).2 σ' ∧
      (v.getEvidenceStore io p L B).1 = (w.getEvidenceStore io p L B).1.map σ' ∧
      ∀ i, (w.getEvidenceStore io p L B).1 = .ok i →
        (w.getEvidenceStore io p L B).2.Owns p i := by
  have hmap := h.evidenceStores
  unfold EvidenceStoreFactory.getEvidenceStore
  cases hm : w.evidenceStores p with
  | some i =>
    rw [hm, Option.map_some] at hmap
    rw [hmap]
    obtain ⟨s, hi, hs⟩ := h.mapped i hm
    have hv := h.object i s hi hs
    -- the store is shared, in both factories
    have hw' : { w with objects := w.objects.modify i incRefCount } =
        w.setObject i s.incRefCount := by
      rw [EvidenceStoreFactory.setObject, List.modify_eq_set_getElem?, hi]
      rfl
    have hv' : { v with objects := v.objects.modify (σ i) incRefCount } =
        v.setObject (σ i) s.incRefCount := by
      rw [EvidenceStoreFactory.setObject, List.modify_eq_set_getElem?, hv]
      rfl
    dsimp only
    rw [hw', hv']
    refine ⟨σ, ⟨h.setObject hi hs _ rfl, changesAt_setObject hi hs _ rfl, fun _ _ => rfl⟩, rfl, ?_⟩
    rintro _ ⟨⟩
    exact (owns_setObject hi s.incRefCount rfl).2 ⟨s, hi, hs⟩
  | none =>
    rw [hm, Option.map_none] at hmap
    rw [hmap, h.disk]
    dsimp only
    -- the files are the same, so the constructors do the same
    cases hcreate : create io p L B (w.disk p) with
    | mk result f =>
      cases result with
      | error e =>
        refine ⟨σ, ⟨h.setFiles f, changesAt_setFiles w p f, fun _ _ => rfl⟩, rfl, ?_⟩
        rintro _ ⟨⟩
      | ok s =>
        have hs : s.incRefCount.evidenceFilePath = p := by
          rw [eq_opened_of_create hcreate]
          rfl
        have hchanges : ChangesAt p w
            { w.setFiles p f with
              evidenceStores := Function.update w.evidenceStores p (some w.objects.length)
              objects := w.objects ++ [s.incRefCount] } :=
          ((changesAt_setFiles w p f).trans (changesAt_append _ hs)).trans
            (changesAt_setMap _ p _)
        refine ⟨_, ⟨(h.setFiles f).append hs, hchanges, ?_⟩, ?_, ?_⟩
        · rintro i ⟨t, ht, -⟩
          exact Function.update_of_ne (List.getElem?_eq_some_iff.1 ht).1.ne _ _
        · exact congrArg Except.ok (Function.update_self w.objects.length v.objects.length σ).symm
        · rintro _ ⟨⟩
          exact ⟨s.incRefCount, List.getElem?_concat_length, hs⟩

/-- A reference to a store of the path is closed. -/
theorem Projects.closeEvidenceStore (h : Projects p σ w v) (hi : w.Owns p i) (io : Io)
    (closeIo : CloseIo) :
    Mirrors p σ w (w.closeEvidenceStore io closeIo i).2
        (v.closeEvidenceStore io closeIo (σ i)).2 σ ∧
      (v.closeEvidenceStore io closeIo (σ i)).1 = (w.closeEvidenceStore io closeIo i).1 := by
  obtain ⟨s, hi, hs⟩ := hi
  unfold EvidenceStoreFactory.closeEvidenceStore
  rw [hi, h.object i s hi hs]
  dsimp only
  rw [hs, h.disk]
  cases hsync : s.synctodisk io (w.disk p) with
  | mk result f =>
    have hfiles := h.setFiles f
    -- whatever becomes of the store, it stays at its path
    have hset : ∀ s' : EvidenceStore, s'.evidenceFilePath = s.evidenceFilePath →
        Mirrors p σ w ((w.setFiles p f).setObject i s') ((v.setFiles p f).setObject (σ i) s') σ :=
      fun s' hs' => ⟨hfiles.setObject hi hs s' hs',
        (changesAt_setFiles w p f).trans
          (changesAt_setObject (w := w.setFiles p f) hi hs s' hs'), fun _ _ => rfl⟩
    cases result with
    | error e => exact ⟨⟨hfiles, changesAt_setFiles w p f, fun _ _ => rfl⟩, rfl⟩
    | ok u =>
      dsimp only
      split_ifs
      · have hclosed : (s.decRefCount.doclose closeIo).2.evidenceFilePath = s.evidenceFilePath := by
          cases closeIo <;> rfl
        cases hdoclose : s.decRefCount.doclose closeIo with
        | mk result s₂ =>
          rw [hdoclose] at hclosed
          have hs₂ := hset s₂ hclosed
          cases result with
          | error e => exact ⟨hs₂, rfl⟩
          | ok u => exact ⟨⟨hs₂.projects.setMap_none, hs₂.changes.trans (changesAt_setMap _ p none),
              fun _ _ => rfl⟩, rfl⟩
      · exact ⟨hset s.decRefCount rfl, rfl⟩

/-- A store of the path, and its files, are used. -/
theorem Projects.setSession (h : Projects p σ w v) (hi : w.Owns p i)
    (ht : t.store.evidenceFilePath = p) :
    Mirrors p σ w (w.setSession i t) (v.setSession (σ i) t) σ := by
  obtain ⟨s, hi, hs⟩ := hi
  have hpath : t.store.evidenceFilePath = s.evidenceFilePath := ht.trans hs.symm
  unfold EvidenceStoreFactory.setSession
  rw [ht]
  exact ⟨(h.setObject hi hs _ hpath).setFiles _,
    (changesAt_setObject hi hs _ hpath).trans (changesAt_setFiles _ p _), fun _ _ => rfl⟩

end EvidenceStoreFactory

end Raqet
