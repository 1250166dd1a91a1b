import Raqet.Remote.OpenDevices

/-!
# Readers and their stores

A reader computes the number of its blocks from the capacity that the device reported
when it was opened, and so does its evidence store, when it is opened. They *agree*
(`Agrees`) unless the store was opened for another size: the factory hands out the store
of a path whatever length is asked for.

* `agrees_iff`: in every run, all readers agree with their stores exactly when every
  reader that shares a store is made for a device of the size of the store;
* `Agrees.retrieveBlock`: a store that agrees with the reader rejects none of its blocks
  as out of range.
-/

namespace Raqet

open Java EvidenceStore

namespace OpenDevices

/-- The store has the number of blocks and the length of the image of the reader. -/
structure Agrees (d : IScsiInputData) (s : EvidenceStore) : Prop where
  blockCount : s.blockCount = d.blockReader.geometry.totalBlockCount
  imageLength : s.imageLength = d.size

/-- No number of a block that the reader accepts is rejected by the store. -/
def Accepts (d : IScsiInputData) (s : EvidenceStore) : Prop :=
  ∀ (n : ℕ) io f, argIndex "blockNumber" n d.blockReader.geometry.totalBlockCount = .ok ↑n →
    (s.retrieveBlock io n f).value ≠
      .error (.indexOutOfBounds (some (indexMessage "blockNumber" n)))

/-- Every reader agrees with its store. -/
def AllAgree (g : OpenDevices) : Prop :=
  ∀ d ∈ g.readers, ∃ s, g.factory.objects[d.evidenceStore]? = some s ∧ Agrees d s ∧ Accepts d s

/-- A reader is only made for the store in the map if the device has the size of its
    image. -/
def SameSize (path : String) (g : OpenDevices) : Call → Prop
  | .openDevice _ env => ∀ c, env.Reports c → c.Usable → ∀ i s,
    g.factory.evidenceStores path = some i → g.factory.objects[i]? = some s →
      c.sizeInBytes = s.imageLength
  | .close .. => True

variable {path : String} {g g' : OpenDevices} {d : IScsiInputData} {s : EvidenceStore} {a : Call}
  {c : IScsiLogicalUnitCapacity} {geometry : ReadGeometry} {i : ℕ}

theorem Agrees.accepts (h : Agrees d s) : Accepts d s := by
  intro n io f hn
  obtain ⟨⟨-, hlt⟩, -⟩ := argIndex_eq_ok.1 hn
  rw [← h.blockCount] at hlt
  rcases value_retrieveBlock_cases _ _ hlt with ⟨-, he⟩ | ⟨-, ⟨-, he⟩ | he | he | ⟨b, he⟩⟩ <;>
    rw [he] <;> simp

/-- The number of blocks that a reader computes. -/
theorem totalBlockCount_of_create (h : ReadGeometry.create c readBlockSize = .ok geometry) :
    geometry.totalBlockCount = countBlocks c.sizeInBytes readBlockSize := by
  rw [ReadGeometry.create, bind_eq_ok] at h
  obtain ⟨-, -, h⟩ := h
  dsimp only at h
  by_cases h₁ : c.blockSize = 0
  · rw [if_pos h₁] at h
    cases h
  by_cases h₂ : toInt ((readBlockSize : ℤ).tdiv c.blockSize * c.blockSize) ≠ readBlockSize
  · rw [if_neg h₁, if_pos h₂] at h
    cases h
  rw [if_neg h₁, if_neg h₂, if_neg (by decide)] at h
  cases h
  rfl

/-- A reader made for a device of the size of the store agrees with it. -/
theorem agrees_reader (hg : ReadGeometry.create c readBlockSize = .ok geometry)
    (hs : s.blockCount = countBlocks s.imageLength readBlockSize)
    (hsize : c.sizeInBytes = s.imageLength) : Agrees (reader c geometry i) s where
  blockCount := by
    rw [hs, ← hsize, ← totalBlockCount_of_create hg]
    rfl
  imageLength := hsize.symm

/-! ## The invariant -/

/-- The objects `l'` are those of `l`, and maybe more of them, with the same geometry. -/
def Extends (l l' : List EvidenceStore) : Prop :=
  ∀ (i : ℕ) (s : EvidenceStore), l[i]? = some s → ∃ s' : EvidenceStore, l'[i]? = some s' ∧
    s'.blockCount = s.blockCount ∧ s'.imageLength = s.imageLength

theorem Extends.refl (l : List EvidenceStore) : Extends l l :=
  fun _ s hs => ⟨s, hs, rfl, rfl⟩

theorem extends_modify (l : List EvidenceStore) (i : ℕ) : Extends l (l.modify i incRefCount) := by
  intro k s hs
  by_cases hk : i = k
  · subst hk
    exact ⟨s.incRefCount, by simp [hs], rfl, rfl⟩
  · exact ⟨s, by simp [hk, hs], rfl, rfl⟩

theorem extends_append (l : List EvidenceStore) (t : EvidenceStore) : Extends l (l ++ [t]) := by
  intro k s hs
  have hk : k < l.length := (List.getElem?_eq_some_iff.1 hs).1
  exact ⟨s, by rw [List.getElem?_append_left hk, hs], rfl, rfl⟩

theorem extends_set {l : List EvidenceStore} {t : EvidenceStore} (hi : l[i]? = some s)
    (hN : t.blockCount = s.blockCount) (hL : t.imageLength = s.imageLength) :
    Extends l (l.set i t) := by
  intro k u hu
  by_cases hk : i = k
  · subst hk
    obtain rfl : s = u := Option.some.inj (hi.symm.trans hu)
    exact ⟨t, List.getElem?_set_self (List.getElem?_eq_some_iff.1 hi).1, hN, hL⟩
  · exact ⟨u, by rw [List.getElem?_set_ne hk, hu], rfl, rfl⟩

/-- Closing a reference keeps the geometry of all stores, and adds none to the map. -/
theorem closeEvidenceStore_extends (w : EvidenceStoreFactory) (io : Io) (closeIo : CloseIo)
    (i : ℕ) : Extends w.objects (w.closeEvidenceStore io closeIo i).2.objects ∧
      ∀ p k, (w.closeEvidenceStore io closeIo i).2.evidenceStores p = some k →
        w.evidenceStores p = some k := by
  rcases closeEvidenceStore_cases w io closeIo i with
    ⟨-, disk, hw⟩ | ⟨s, disk, hs, -, -, hw⟩ | ⟨s, disk, hs, -, -, hw⟩ <;> rw [hw]
  · exact ⟨.refl _, fun _ _ h => h⟩
  · exact ⟨extends_set hs rfl rfl, fun _ _ h => h⟩
  · refine ⟨?_, fun p k hk => ?_⟩
    · cases closeIo <;> exact extends_set hs rfl rfl
    · dsimp only at hk
      split_ifs at hk with hio
      · by_cases hp : p = s.evidenceFilePath
        · rw [hp, Function.update_self] at hk
          cases hk
        · rwa [Function.update_of_ne hp] at hk
      · exact hk

/-- The readers agree with their stores, and the store in the map counts the blocks of
    its own image. -/
structure Consistent (path : String) (g : OpenDevices) : Prop where
  agree : ∀ d ∈ g.readers, ∃ s, g.factory.objects[d.evidenceStore]? = some s ∧ Agrees d s
  mapped : ∀ i, g.factory.evidenceStores path = some i → ∃ s, g.factory.objects[i]? = some s ∧
    s.blockCount = countBlocks s.imageLength readBlockSize

theorem consistent_init (disk : String → Files) : Consistent path (init disk) where
  agree _ h := absurd h List.not_mem_nil
  mapped _ h := nomatch h

theorem Consistent.allAgree (h : Consistent path g) : AllAgree g := by
  intro d hd
  obtain ⟨s, hs, ha⟩ := h.agree d hd
  exact ⟨s, hs, ha, ha.accepts⟩

theorem Agrees.congr {s' : EvidenceStore} (h : Agrees d s) (hN : s'.blockCount = s.blockCount)
    (hL : s'.imageLength = s.imageLength) : Agrees d s' :=
  ⟨hN.trans h.1, hL ▸ h.2⟩

/-- No reader is made, and stores only leave the map. -/
theorem Consistent.mono (h : Consistent path g) {w : EvidenceStoreFactory}
    (hw : Extends g.factory.objects w.objects)
    (hmap : ∀ i, w.evidenceStores path = some i → g.factory.evidenceStores path = some i) :
    Consistent path ⟨w, g.readers⟩ where
  agree d hd := by
    obtain ⟨s, hs, ha⟩ := h.agree d hd
    obtain ⟨s', hs', hN, hL⟩ := hw _ s hs
    exact ⟨s', hs', ha.congr hN hL⟩
  mapped i hi := by
    obtain ⟨s, hs, hc⟩ := h.mapped i (hmap i hi)
    obtain ⟨s', hs', hN, hL⟩ := hw i s hs
    exact ⟨s', hs', by rw [hN, hL, hc]⟩

theorem countBlocks_opened {env : OpenEnv} {f : Files} (ho : env.Opens c) :
    (opened path c.sizeInBytes readBlockSize f).incRefCount.blockCount =
      countBlocks (opened path c.sizeInBytes readBlockSize f).incRefCount.imageLength
        readBlockSize := by
  change countBlocks c.sizeInBytes readBlockSize =
    countBlocks (c.sizeInBytes.toNat : ℤ) readBlockSize
  rw [Int.toNat_of_nonneg ho.2.1]

/-- A new store is opened for the path. -/
theorem Consistent.opened {env : OpenEnv} (h : Consistent path g) (ho : env.Opens c) (f : Files)
    (disk : String → Files) :
    Consistent path ⟨⟨Function.update g.factory.evidenceStores path
      (some g.factory.objects.length), g.factory.objects ++
        [(EvidenceStore.opened path c.sizeInBytes readBlockSize f).incRefCount], disk⟩,
      g.readers⟩ where
  agree d hd := by
    obtain ⟨s, hs, ha⟩ := h.agree d hd
    obtain ⟨s', hs', hN, hL⟩ := extends_append g.factory.objects _ _ s hs
    exact ⟨s', hs', ha.congr hN hL⟩
  mapped i hi := by
    dsimp only at hi ⊢
    rw [Function.update_self, Option.some.injEq] at hi
    rw [← hi]
    exact ⟨_, List.getElem?_concat_length, countBlocks_opened ho⟩

/-- A reader is made, or none is. -/
theorem Consistent.makes {l : List IScsiInputData} (h : Consistent path g)
    (hr : Makes c i g.readers l) (hs : g.factory.objects[i]? = some s)
    (hN : s.blockCount = countBlocks s.imageLength readBlockSize)
    (hsize : c.Usable → c.sizeInBytes = s.imageLength) :
    Consistent path { g with readers := l } where
  agree d hd := by
    rcases hr with ⟨geometry, hu, hg, rfl⟩ | ⟨-, rfl⟩
    · rcases List.mem_append.1 hd with hd | hd
      · exact h.agree d hd
      · obtain rfl := List.mem_singleton.1 hd
        exact ⟨s, hs, agrees_reader hg hN (hsize hu)⟩
    · exact h.agree d hd
  mapped := h.mapped

/-- What a reader is closed to agrees with the same store. -/
theorem Consistent.close {j : ℕ} (h : Consistent path g) (hd : g.readers[j]? = some d) :
    Consistent path { g with readers := g.readers.set j { d with isOpen := false } } where
  agree e he := by
    rcases List.mem_or_eq_of_mem_set he with he | rfl
    · exact h.agree e he
    · obtain ⟨s, hs, ha⟩ := h.agree d (List.mem_of_getElem? hd)
      exact ⟨s, hs, ha.1, ha.2⟩
  mapped := h.mapped

/-! ## Runs -/

theorem consistent_step (h : Consistent path g) (hs : step path g a = some g')
    (ha : SameSize path g a) : Consistent path g' := by
  cases a with
  | openDevice info env =>
    rcases step_openDevice hs with ⟨-, disk, rfl⟩ | ⟨c, i, readers, hc, hi, hr, rfl⟩ |
      ⟨c, f, disk, readers, hc, hn, ho, hr, rfl⟩
    · exact h.mono (.refl _) fun _ h => h
    · obtain ⟨s, hs, hN⟩ := h.mapped i hi
      have h' := h.mono (w := { g.factory with objects := g.factory.objects.modify i incRefCount })
        (extends_modify _ i) fun _ h => h
      exact h'.makes (s := s.incRefCount) hr (by simp [hs]) hN fun hu => ha c hc hu i s hi hs
    · have h' := h.opened ho f disk
      exact h'.makes hr List.getElem?_concat_length (countBlocks_opened ho) fun _ =>
        (Int.toNat_of_nonneg ho.2.1).symm
  | close j connection io closeIo =>
    obtain ⟨d, hd, ⟨-, rfl⟩ | ⟨-, -, rfl⟩ | ⟨-, -, rfl⟩⟩ := step_close hs
    · exact h
    · exact h.close hd
    · obtain ⟨hext, hmap⟩ := closeEvidenceStore_extends g.factory io closeIo d.evidenceStore
      exact (h.mono hext fun i hi => hmap path i hi).close hd

/-- A reader that agrees with its store was made for a device of the size of the store. -/
theorem sameSize_of_allAgree (hs : step path g a = some g')
    (hq : AllAgree g') : SameSize path g a := by
  cases a with
  | close j connection io closeIo => trivial
  | openDevice info env =>
    intro c hc hu i s hi hobj
    rcases step_openDevice hs with ⟨hno, -⟩ | ⟨c', k, readers, hc', hk, hr, rfl⟩ |
      ⟨c', f, disk, readers, -, hn, -⟩
    · exact absurd ⟨hc, .inl (by rw [hi]; exact nofun)⟩ (hno c)
    · obtain rfl := hc.unique hc'
      obtain rfl : i = k := Option.some.inj (hi.symm.trans hk)
      rcases hr with ⟨geometry, -, -, rfl⟩ | ⟨hn, -⟩
      · obtain ⟨t, ht, hagree, -⟩ := hq (reader c geometry i) (by simp)
        change (g.factory.objects.modify i incRefCount)[i]? = some t at ht
        rw [List.getElem?_modify_eq, hobj] at ht
        cases ht
        exact hagree.imageLength.symm
      · exact absurd hu hn
    · exact absurd (hn.symm.trans hi) nofun

/-- After every call of a run, the readers agree with their stores, which accept all their
    blocks, exactly when every reader that shared a store was made for a device of the
    size of the store. -/
theorem agrees_iff (path : String) (disk : String → Files) (calls : List Call)
    (h : Transition.runs (step path) (init disk) calls = some g) :
    Transition.Throughout (step path) AllAgree (init disk) calls ↔
      Transition.AllSteps (step path) (SameSize path) (init disk) calls :=
  Transition.throughout_iff (I := Consistent path) (fun _ h => h.allAgree)
    (fun _ _ _ h hs ha => consistent_step h hs ha)
    (fun _ _ _ _ hs hq => sameSize_of_allAgree hs hq) h (consistent_init disk)

/-- The numbers of blocks of the readers and of their stores. -/
def blockCounts (g : OpenDevices) : List (ℤ × Option ℤ) :=
  g.readers.map fun d => (d.blockReader.geometry.totalBlockCount,
    g.factory.objects[d.evidenceStore]?.map fun s => s.blockCount)

/-- If the readers agree with their stores, these numbers are equal. -/
theorem AllAgree.blockCounts (h : AllAgree g) : ∀ p ∈ blockCounts g, p.2 = some p.1 := by
  intro p hp
  rw [OpenDevices.blockCounts, List.mem_map] at hp
  obtain ⟨d, hd, rfl⟩ := hp
  obtain ⟨s, hs, ha, -⟩ := h d hd
  rw [hs, Option.map_some, ha.blockCount]

/-- While it is open, the device is opened again, and has grown from one block to two. -/
theorem not_agrees_grown :
    ¬∀ path disk calls g, Transition.runs (step path) (init disk) calls = some g → AllAgree g := by
  intro h
  have hcounts : (Transition.runs (step device.evidencePath) (init emptyFiles)
      [openDevice 127, openDevice 255]).map blockCounts = some [(1, some 1), (2, some 1)] := by
    decide +kernel
  obtain ⟨g, hg, hcounts⟩ := Option.map_eq_some_iff.1 hcounts
  have heq := (h _ _ _ g hg).blockCounts (2, some 1) (by simp [hcounts])
  exact absurd heq (by decide)

theorem agrees_iff_same : ∃ g,
    Transition.runs (step device.evidencePath) (init emptyFiles)
      [openDevice 127, openDevice 127, .close 0 none .ok .evidenceFails] = some g ∧
    Transition.Throughout (step device.evidencePath) AllAgree (init emptyFiles)
      [openDevice 127, openDevice 127, .close 0 none .ok .evidenceFails] := by
  refine ⟨_, rfl, (agrees_iff _ _ _ rfl).2 ⟨nofun, fun t ht => ⟨?_, fun _ _ =>
    ⟨trivial, fun _ _ => trivial⟩⟩⟩⟩
  rintro c ⟨-, hc⟩ - i s hi hs
  cases hc
  cases ht
  obtain rfl : 0 = i := Option.some.inj hi
  cases hs
  decide

end OpenDevices

end Raqet
