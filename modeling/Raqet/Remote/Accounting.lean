import Raqet.Remote.OpenDevices

/-!
# Reference accounting

The factory counts the references to a store, and closes its files with the last one.
The counter, the map and the files agree (`Accounted`) after every call of a run exactly
when every call *completes* (`Completes`): an opening that obtains a store makes a
reader, and closing a reader closes its connection, flushes the bitmap and, if it is the
last one, closes the files (`accounted_iff`).

A call that does not complete is never made good. A reader that failed to close counts
as closed but not for the store, whose files are then never closed; and a store whose
files failed to close is handed out again.
-/

namespace Raqet

open Java EvidenceStore

namespace OpenDevices

/-- The counter of every store is the number of its open readers, a store that has none
    is not in the map, and the factory hands out no store that has a closed file. -/
structure Accounted (g : OpenDevices) : Prop where
  refCount : ∀ i (s : EvidenceStore), g.factory.objects[i]? = some s →
    s.refCount = openReaders g.readers i
  removed : ∀ i (s : EvidenceStore), g.factory.objects[i]? = some s → s.refCount = 0 →
    ∀ p, g.factory.evidenceStores p ≠ some i
  handedOut : ∀ io p length blockSize i w s,
    g.factory.getEvidenceStore io p length blockSize = (.ok i, w) → w.objects[i]? = some s →
      s.evidenceOpen = true ∧ s.bitmapOpen = true

/-- What a call needs for the accounting to be right after it: opening a device that
    obtains a store makes a reader, and the counter does not overflow; closing a reader
    does not fail. -/
def Completes (path : String) (g : OpenDevices) : Call → Prop
  | .openDevice _ env => ∀ c, Obtains path g env c → c.Usable ∧
    ∀ i, g.factory.evidenceStores path = some i → openReaders g.readers i + 1 < 2 ^ 31
  | .close j connection io closeIo => ∀ d, g.readers[j]? = some d → d.isOpen = true →
    connection = none ∧ io = .ok ∧ (openReaders g.readers d.evidenceStore = 1 → closeIo = .ok)

/-! ## The invariant -/

variable {path : String} {g g' : OpenDevices} {i j k : ℕ} {d : IScsiInputData} {a : Call}
  {c : IScsiLogicalUnitCapacity} {geometry : ReadGeometry} {l l' : List IScsiInputData}
  {s : EvidenceStore}

theorem openReaders_append :
    openReaders (l ++ [reader c geometry i]) k = openReaders l k + if i = k then 1 else 0 := by
  simp [openReaders, reader, List.countP_cons]

/-- The open readers of the store `k` after the reader `j` was closed. -/
theorem openReaders_set (hj : l[j]? = some d) (ho : d.isOpen = true) :
    openReaders (l.set j { d with isOpen := false }) k + (if d.evidenceStore = k then 1 else 0) =
      openReaders l k := by
  obtain ⟨hlt, rfl⟩ := List.getElem?_eq_some_iff.1 hj
  rw [openReaders, List.countP_set hlt]
  have hpos : (if (l[j].isOpen && l[j].evidenceStore == k) = true then 1 else 0) ≤
      openReaders l k := by
    split_ifs with h
    · exact List.countP_pos_iff.2 ⟨l[j], List.getElem_mem hlt, h⟩
    · exact Nat.zero_le _
  rw [← openReaders]
  by_cases hk : l[j].evidenceStore = k
  · simp only [ho, hk, Bool.true_and, beq_self_eq_true, if_true] at hpos
    simp [ho, hk, Nat.sub_add_cancel hpos]
  · simp [hk]

/-- The accounting is right, of stores that are all of one path: those that are in the
    map have readers and open files, and those that have readers are in the map. -/
structure Accounts (path : String) (g : OpenDevices) : Prop where
  refCount : ∀ i (s : EvidenceStore), g.factory.objects[i]? = some s →
    s.refCount = openReaders g.readers i ∧ s.evidenceFilePath = path
  mapped : ∀ p i, g.factory.evidenceStores p = some i → p = path ∧ 0 < openReaders g.readers i ∧
    ∃ s, g.factory.objects[i]? = some s ∧ s.evidenceOpen = true ∧ s.bitmapOpen = true
  bounded : ∀ i, openReaders g.readers i < 2 ^ 31
  referenced : ∀ i, 0 < openReaders g.readers i → g.factory.evidenceStores path = some i

theorem accounts_init (disk : String → Files) : Accounts path (init disk) where
  refCount _ _ h := nomatch h
  mapped _ _ h := nomatch h
  bounded _ := Nat.two_pow_pos 31
  referenced _ h := absurd h (Nat.lt_irrefl 0)

/-- The store of an open reader is open, and the factory knows it. -/
theorem Accounts.openReader (h : Accounts path g) (hd : g.readers[j]? = some d)
    (ho : d.isOpen = true) :
    0 < openReaders g.readers d.evidenceStore ∧
      g.factory.evidenceStores path = some d.evidenceStore ∧
      ∃ s, g.factory.objects[d.evidenceStore]? = some s ∧
        s.refCount = openReaders g.readers d.evidenceStore ∧ s.evidenceFilePath = path ∧
        s.evidenceOpen = true ∧ s.bitmapOpen = true := by
  have hpos : 0 < openReaders g.readers d.evidenceStore :=
    List.countP_pos_iff.2 ⟨d, List.mem_of_getElem? hd, by simp [ho]⟩
  have hmap := h.referenced _ hpos
  obtain ⟨-, -, s, hs, he, hb⟩ := h.mapped _ _ hmap
  exact ⟨hpos, hmap, s, hs, (h.refCount _ s hs).1, (h.refCount _ s hs).2, he, hb⟩

theorem Accounts.accounted (h : Accounts path g) : Accounted g where
  refCount i s hs := (h.refCount i s hs).1
  removed i s hs hzero p hp := by
    obtain ⟨-, hpos, -⟩ := h.mapped p i hp
    rw [(h.refCount i s hs).1] at hzero
    omega
  handedOut io p length blockSize i w s hw hs := by
    rw [EvidenceStoreFactory.getEvidenceStore] at hw
    cases hi : g.factory.evidenceStores p with
    | some k =>
      rw [hi] at hw
      cases hw
      obtain ⟨-, -, t, ht, he, hb⟩ := h.mapped p _ hi
      rw [List.getElem?_modify_eq, ht] at hs
      cases hs
      exact ⟨he, hb⟩
    | none =>
      rw [hi] at hw
      dsimp only at hw
      cases hc : create io p length blockSize (g.factory.disk p) with
      | mk result f =>
        rw [hc] at hw
        cases result with
        | error e => cases hw
        | ok t =>
          cases hw
          simp only [List.getElem?_concat_length, Option.some.injEq] at hs
          rw [← hs, eq_opened_of_create hc]
          exact ⟨rfl, rfl⟩

/-! ## Opening -/

/-- The factory `w` is the one of `g` after it handed out the store `i` of the path. -/
structure HandsOut (path : String) (g : OpenDevices) (i : ℕ) (w : EvidenceStoreFactory) :
    Prop where
  before : ∀ k, g.factory.evidenceStores path = some k → k = i
  evidenceStores : w.evidenceStores = Function.update g.factory.evidenceStores path (some i)
  object : ∃ s, w.objects[i]? = some s ∧ s.refCount = toInt (openReaders g.readers i + 1) ∧
    s.evidenceFilePath = path ∧ s.evidenceOpen = true ∧ s.bitmapOpen = true
  others : ∀ k ≠ i, w.objects[k]? = g.factory.objects[k]?

/-- The factory hands out the store that it has in its map. -/
theorem Accounts.handsOut_shared (h : Accounts path g)
    (hi : g.factory.evidenceStores path = some i) :
    HandsOut path g i { g.factory with objects := g.factory.objects.modify i incRefCount } := by
  obtain ⟨-, -, s, hs, he, hb⟩ := h.mapped path i hi
  obtain ⟨hcount, hpath⟩ := h.refCount i s hs
  exact
    { before := fun k hk => Option.some.inj (hk.symm.trans hi)
      evidenceStores := by rw [← hi, Function.update_eq_self]
      object := by
        refine ⟨s.incRefCount, by simp [hs], ?_, hpath, he, hb⟩
        rw [refCount_incRefCount, hcount]
      others := fun k hk => by simp [hk.symm] }

/-- There are no open readers while no store is in the map. -/
theorem Accounts.openReaders_eq_zero (h : Accounts path g)
    (hn : g.factory.evidenceStores path = none) (k : ℕ) : openReaders g.readers k = 0 := by
  by_contra hne
  have := h.referenced k (Nat.pos_of_ne_zero hne)
  rw [hn] at this
  cases this

/-- The factory hands out a new store, which no reader has yet. -/
theorem Accounts.handsOut_created (h : Accounts path g) (disk : String → Files)
    (hn : g.factory.evidenceStores path = none) {length blockSize : ℤ} {f : Files} :
    HandsOut path g g.factory.objects.length
      ⟨Function.update g.factory.evidenceStores path (some g.factory.objects.length),
        g.factory.objects ++ [(opened path length blockSize f).incRefCount], disk⟩ := by
  exact
    { before := fun k hk => by
        rw [hn] at hk
        cases hk
      evidenceStores := rfl
      object := by
        refine ⟨_, List.getElem?_concat_length, ?_, rfl, rfl, rfl⟩
        rw [refCount_incRefCount, h.openReaders_eq_zero hn]
        rfl
      others := fun k hk => by
        rcases Nat.lt_or_gt_of_ne hk with hlt | hlt
        · exact List.getElem?_append_left hlt
        · rw [List.getElem?_eq_none hlt.le, List.getElem?_eq_none]
          rw [List.length_append, List.length_singleton]
          omega }

/-- A reader is made of the store that was handed out. -/
theorem Accounts.handsOut (h : Accounts path g) {w : EvidenceStoreFactory}
    (hw : HandsOut path g i w) (hcount : openReaders g.readers i + 1 < 2 ^ 31) :
    Accounts path ⟨w, g.readers ++ [OpenDevices.reader c geometry i]⟩ where
  refCount k s hs := by
    rw [openReaders_append]
    obtain ⟨t, ht, hcounter, hpath, -⟩ := hw.object
    by_cases hk : i = k
    · rw [← hk, ht, Option.some.injEq] at hs
      rw [← hs, if_pos hk, hcounter, ← hk, toInt_eq_self (by omega) (by omega)]
      exact ⟨by push_cast; rfl, hpath⟩
    · rw [hw.others k (Ne.symm hk)] at hs
      rw [if_neg hk]
      exact h.refCount k s hs
  bounded k := by
    rw [openReaders_append]
    have := h.bounded k
    split_ifs with hk
    · rwa [← hk]
    · exact this
  mapped p k hk := by
    rw [hw.evidenceStores] at hk
    by_cases hp : p = path
    · rw [hp, Function.update_self, Option.some.injEq] at hk
      obtain ⟨t, ht, -, -, he, hb⟩ := hw.object
      rw [openReaders_append, if_pos hk, ← hk]
      exact ⟨hp, Nat.succ_pos _, t, ht, he, hb⟩
    · rw [Function.update_of_ne hp] at hk
      exact absurd (h.mapped p k hk).1 hp
  -- a store with a reader is that of the path, which is the one that was handed out
  referenced k hk := by
    rw [openReaders_append] at hk
    rw [hw.evidenceStores, Function.update_self, Option.some.injEq]
    by_contra hne
    rw [if_neg hne] at hk
    exact hne (hw.before k (h.referenced k hk)).symm

/-- If no reader is made, the accounting is wrong. -/
theorem HandsOut.usable {w : EvidenceStoreFactory} {readers : List IScsiInputData}
    (hw : HandsOut path g i w) (hr : Makes c i g.readers readers)
    (hq : Accounted ⟨w, readers⟩) : c.Usable ∧ openReaders g.readers i + 1 < 2 ^ 31 := by
  obtain ⟨s, hs, hcounter, -⟩ := hw.object
  have hcount := hq.refCount i s hs
  rw [hcounter] at hcount
  -- the counter was increased, so there must be one more reader
  rcases hr with ⟨geometry, hu, -, rfl⟩ | ⟨-, rfl⟩
  · dsimp only at hcount
    rw [openReaders_append, if_pos rfl] at hcount
    have hlt := toInt_lt (openReaders g.readers i + 1)
    exact ⟨hu, by omega⟩
  · dsimp only at hcount
    rw [toInt, Int.bmod_def] at hcount
    omega

/-! ## Closing -/

/-- The reader `j`, which is open, does not count any more once it is closed, so its
    reference must not count either. -/
theorem Accounts.not_accounted (h : Accounts path g) (hd : g.readers[j]? = some d)
    (ho : d.isOpen = true) {w : EvidenceStoreFactory} (hw : w.objects = g.factory.objects) :
    ¬Accounted ⟨w, g.readers.set j { d with isOpen := false }⟩ := by
  intro hq
  obtain ⟨-, -, s, hs, hcount, -⟩ := h.openReader hd ho
  have hcount' := hq.refCount d.evidenceStore s (hw ▸ hs)
  have hset := openReaders_set (k := d.evidenceStore) hd ho
  rw [if_pos rfl] at hset
  dsimp only at hcount'
  omega

/-- A reader is closed that is not the last one of its store. -/
theorem Accounts.release (h : Accounts path g) (hd : g.readers[j]? = some d)
    (ho : d.isOpen = true) (hs : g.factory.objects[d.evidenceStore]? = some s)
    (hc : s.decRefCount.refCount ≠ 0) (disk : String → Files) :
    Accounts path ⟨{ g.factory with
        disk, objects := g.factory.objects.set d.evidenceStore s.decRefCount },
      g.readers.set j { d with isOpen := false }⟩ := by
  obtain ⟨hpos, hmap, t, ht, hcount, hpath, he, hb⟩ := h.openReader hd ho
  obtain rfl : s = t := Option.some.inj (hs.symm.trans ht)
  have hlt : d.evidenceStore < g.factory.objects.length := (List.getElem?_eq_some_iff.1 hs).1
  have hbound := h.bounded d.evidenceStore
  have hdec : s.decRefCount.refCount = openReaders g.readers d.evidenceStore - 1 := by
    rw [refCount_decRefCount, hcount, toInt_eq_self (by omega) (by omega)]
  -- so other readers have the store, and it stays in the map
  rw [hdec] at hc
  exact
    { refCount := fun k u hu => by
        have hset := openReaders_set (k := k) hd ho
        dsimp only at hu ⊢
        by_cases hk : d.evidenceStore = k
        · subst hk
          rw [List.getElem?_set_self hlt, Option.some.injEq] at hu
          rw [if_pos rfl] at hset
          rw [← hu, hdec]
          exact ⟨by omega, hpath⟩
        · rw [List.getElem?_set_ne hk] at hu
          rw [if_neg hk, Nat.add_zero] at hset
          rw [hset]
          exact h.refCount k u hu
      mapped := fun p k hk => by
        obtain ⟨hp, -, -⟩ := h.mapped p k hk
        obtain rfl : d.evidenceStore = k := by
          rw [hp, hmap] at hk
          exact Option.some.inj hk
        have hset := openReaders_set (k := d.evidenceStore) hd ho
        rw [if_pos rfl] at hset
        refine ⟨hp, ?_, s.decRefCount, List.getElem?_set_self hlt, he, hb⟩
        dsimp only
        omega
      bounded := fun k => by
        have hset := openReaders_set (k := k) hd ho
        have := h.bounded k
        dsimp only
        omega
      referenced := fun k hk => by
        have hset := openReaders_set (k := k) hd ho
        dsimp only at hk
        exact h.referenced k (by omega) }

/-- The last reader of a store is closed, and so are the files. -/
theorem Accounts.last (h : Accounts path g) (hd : g.readers[j]? = some d)
    (ho : d.isOpen = true) (hs : g.factory.objects[d.evidenceStore]? = some s)
    (hc : s.decRefCount.refCount = 0) (disk : String → Files) :
    openReaders g.readers d.evidenceStore = 1 ∧ Accounts path
      ⟨⟨Function.update g.factory.evidenceStores s.evidenceFilePath none,
        g.factory.objects.set d.evidenceStore (s.decRefCount.doclose .ok).2, disk⟩,
      g.readers.set j { d with isOpen := false }⟩ := by
  obtain ⟨hpos, hmap, t, ht, hcount, hpath, he, hb⟩ := h.openReader hd ho
  obtain rfl : s = t := Option.some.inj (hs.symm.trans ht)
  have hlt : d.evidenceStore < g.factory.objects.length := (List.getElem?_eq_some_iff.1 hs).1
  have hbound := h.bounded d.evidenceStore
  -- the counter is that of the readers, and was 1
  have hone : openReaders g.readers d.evidenceStore = 1 := by
    rw [refCount_decRefCount, hcount, toInt_eq_self (by omega) (by omega)] at hc
    omega
  refine ⟨hone, ?_⟩
  exact
    { refCount := fun k u hu => by
        have hset := openReaders_set (k := k) hd ho
        dsimp only at hu ⊢
        by_cases hk : d.evidenceStore = k
        · subst hk
          rw [List.getElem?_set_self hlt, Option.some.injEq] at hu
          rw [if_pos rfl] at hset
          rw [← hu]
          exact ⟨hc.trans (by omega), hpath⟩
        · rw [List.getElem?_set_ne hk] at hu
          rw [if_neg hk, Nat.add_zero] at hset
          rw [hset]
          exact h.refCount k u hu
      mapped := fun p k hk => by
        dsimp only at hk
        by_cases hp : p = s.evidenceFilePath
        · rw [hp, Function.update_self] at hk
          cases hk
        · rw [Function.update_of_ne hp] at hk
          exact absurd ((h.mapped p k hk).1.trans hpath.symm) hp
      bounded := fun k => by
        have hset := openReaders_set (k := k) hd ho
        have := h.bounded k
        dsimp only
        omega
      referenced := fun k hk => by
        have hset := openReaders_set (k := k) hd ho
        dsimp only at hk
        have hk' := h.referenced k (by omega)
        rw [hmap, Option.some.injEq] at hk'
        rw [if_pos hk', ← hk', hone] at hset
        rw [← hk'] at hk
        omega }

/-! ## Runs -/

/-- A call that completes keeps the accounting right. -/
theorem accounts_step (h : Accounts path g) (hs : step path g a = some g')
    (ha : Completes path g a) : Accounts path g' := by
  cases a with
  | openDevice info env =>
    rcases step_openDevice hs with ⟨-, disk, rfl⟩ | ⟨c, i, readers, hc, hi, hr, rfl⟩ |
      ⟨c, f, disk, readers, hc, hn, ho, hr, rfl⟩
    · exact ⟨h.refCount, h.mapped, h.bounded, h.referenced⟩
    · obtain ⟨hu, hcount⟩ := ha c ⟨hc, .inl (by rw [hi]; exact nofun)⟩
      rcases hr with ⟨geometry, -, -, rfl⟩ | ⟨hn, -⟩
      · exact h.handsOut (h.handsOut_shared hi) (hcount i hi)
      · exact absurd hu hn
    · obtain ⟨hu, -⟩ := ha c ⟨hc, .inr ho⟩
      rcases hr with ⟨geometry, -, -, rfl⟩ | ⟨hn, -⟩
      · refine h.handsOut (h.handsOut_created disk hn) ?_
        rw [h.openReaders_eq_zero hn]
        decide
      · exact absurd hu hn
  | close j connection io closeIo =>
    obtain ⟨d, hd, ⟨-, rfl⟩ | ⟨ho, hne, -⟩ | ⟨ho, -, rfl⟩⟩ := step_close hs
    · exact h
    · exact absurd (ha d hd ho).1 hne
    · obtain ⟨-, hio, hcloseIo⟩ := ha d hd ho
      obtain ⟨-, -, s, hs, -, -, -, hb⟩ := h.openReader hd ho
      rcases closeEvidenceStore_cases g.factory io closeIo d.evidenceStore with
        ⟨hne | hclosed, -⟩ | ⟨s, disk, hs, -, hc, hw⟩ | ⟨s, disk, hs, -, hc, hw⟩
      · exact absurd hio hne
      · exact absurd (hb.symm.trans (hclosed s hs)) nofun
      · rw [hw]
        exact h.release hd ho hs hc disk
      · obtain ⟨hone, h'⟩ := h.last hd ho hs hc disk
        rw [hw, hcloseIo hone]
        exact h'

/-- A call after which the accounting is right has completed. -/
theorem completes_of_accounted (h : Accounts path g) (hs : step path g a = some g')
    (hq : Accounted g') : Completes path g a := by
  cases a with
  | openDevice info env =>
    intro c hobt
    rcases step_openDevice hs with ⟨hno, -⟩ | ⟨c', i, readers, hc, hi, hr, rfl⟩ |
      ⟨c', f, disk, readers, hc, hn, ho, hr, rfl⟩
    · exact absurd hobt (hno c)
    · obtain rfl := hobt.1.unique hc
      obtain ⟨hu, hcount⟩ := (h.handsOut_shared hi).usable hr hq
      exact ⟨hu, fun k hk => (h.handsOut_shared hi).before k hk ▸ hcount⟩
    · obtain rfl := hobt.1.unique hc
      obtain ⟨hu, -⟩ := (h.handsOut_created disk hn).usable hr hq
      exact ⟨hu, fun k hk => absurd (hn.symm.trans hk) nofun⟩
  | close j connection io closeIo =>
    intro d' hd' ho'
    obtain ⟨d, hd, hcases⟩ := step_close hs
    obtain rfl : d = d' := Option.some.inj (hd.symm.trans hd')
    rcases hcases with ⟨ho, -⟩ | ⟨ho, hne, rfl⟩ | ⟨ho, hconn, rfl⟩
    · exact absurd (ho.symm.trans ho') nofun
    · exact absurd hq (h.not_accounted hd ho rfl)
    · obtain ⟨-, hmap, s, hs, hcount, hpath, he, hb⟩ := h.openReader hd ho
      rcases closeEvidenceStore_cases g.factory io closeIo d.evidenceStore with
        ⟨-, disk, hw⟩ | ⟨t, disk, ht, hio, hc, -⟩ | ⟨t, disk, ht, hio, hc, hw⟩
      · rw [hw] at hq
        exact absurd hq (h.not_accounted hd ho rfl)
      · obtain rfl : s = t := Option.some.inj (hs.symm.trans ht)
        refine ⟨hconn, hio, fun hone => absurd ?_ hc⟩
        rw [refCount_decRefCount, hcount, hone]
        rfl
      · refine ⟨hconn, hio, fun _ => ?_⟩
        by_contra hne
        rw [hw, if_neg hne] at hq
        have hlt : d.evidenceStore < g.factory.objects.length := (List.getElem?_eq_some_iff.1 hs).1
        refine hq.removed d.evidenceStore _ (List.getElem?_set_self hlt) ?_ path hmap
        cases closeIo <;> exact hc

/-- After every call of a run, the counters, the map and the files agree exactly when
    every call completes. -/
theorem accounted_iff (path : String) (disk : String → Files) (calls : List Call)
    (h : Transition.runs (step path) (init disk) calls = some g) :
    Transition.Throughout (step path) Accounted (init disk) calls ↔
      Transition.AllSteps (step path) (Completes path) (init disk) calls :=
  Transition.throughout_iff (I := Accounts path) (fun _ h => h.accounted)
    (fun _ _ _ h hs ha => accounts_step h hs ha)
    (fun _ _ _ h hs hq => completes_of_accounted h hs hq) h (accounts_init disk)

/-! ## A connection that fails to close -/

/-- The counters of the stores, and the numbers of their open readers. -/
def counters (g : OpenDevices) : List (ℤ × ℕ) :=
  g.factory.objects.mapIdx fun i s => (s.refCount, openReaders g.readers i)

/-- If the accounting is right, these numbers are equal. -/
theorem Accounted.counters (h : Accounted g) : ∀ p ∈ counters g, p.1 = p.2 := by
  intro p hp
  rw [OpenDevices.counters, List.mem_mapIdx] at hp
  obtain ⟨i, hi, rfl⟩ := hp
  exact h.refCount i _ (List.getElem?_eq_getElem hi)

/-- The connection of a reader fails to close: its reference counts for ever. -/
theorem not_accounted_connection :
    ¬∀ path disk calls g, Transition.runs (step path) (init disk) calls = some g → Accounted g := by
  intro h
  have hcounters : (Transition.runs (step device.evidencePath) (init emptyFiles)
      [openDevice 127, .close 0 (some "timeout") .ok .ok]).map counters = some [(1, 0)] := by
    decide +kernel
  obtain ⟨g, hg, hcounts⟩ := Option.map_eq_some_iff.1 hcounters
  have heq := (h _ _ _ g hg).counters (1, 0) (by simp [hcounts])
  exact absurd heq (by decide)

theorem accounted_iff_closed : ∃ g,
    Transition.runs (step device.evidencePath) (init emptyFiles)
      [openDevice 127, .close 0 none .ok .ok] = some g ∧
    Transition.Throughout (step device.evidencePath) Accounted (init emptyFiles)
      [openDevice 127, .close 0 none .ok .ok] := by
  refine ⟨_, rfl, (accounted_iff _ _ _ rfl).2 ⟨?_, fun t _ => ⟨?_, fun _ _ => trivial⟩⟩⟩
  · rintro c ⟨⟨-, hc⟩, -⟩
    cases hc
    exact ⟨⟨by decide, _, rfl⟩, nofun⟩
  · exact fun d _ _ => ⟨rfl, rfl, fun _ => rfl⟩

end OpenDevices

end Raqet
