import Raqet.Evidence.Factory

/-!
# Sharing an evidence store

Any number of references to the store of one path, obtained from the factory and
closed in any order. The state of the store is shared, and survives in the files
when the last reference is closed.

The bits set through any reference are never lost, and no other bit is ever set
(`keeps_iff`), provided that

* the blocks are counted by an `int`: otherwise, the bitmap that is read back
  is too short;
* no reference is closed while `k * 2 ^ 32 + 1` of them are open: then, the
  counter wraps to `0` and the files are closed.
-/

namespace Raqet

open Java EvidenceStore EvidenceStoreFactory

/-- A factory, and the open references to stores. -/
structure Sharing where
  factory : EvidenceStoreFactory
  references : List ℕ

namespace Sharing

/-- What the holders of references may do. -/
inductive Call
  | getEvidenceStore (io : OpenIo)
  | storeBlock (i : ℕ) (io : Io) (n : ℕ) (b : Block)
  | retrieveBlock (i : ℕ) (io : Io) (n : ℕ)
  | close (i : ℕ) (io : Io) (closeIo : CloseIo)

/-- A call on the store `i` with its files. -/
def onSession (g : Sharing) (i : ℕ) (c : Session.Call) : Option Sharing :=
  if i ∈ g.references then
    (g.factory.session i).bind fun s => (Session.step s c).map fun t =>
      { g with factory := g.factory.setSession i t }
  else none

/-- A call, in a system with one path. A reference is closed once, also if
    `close` throws. -/
def step (path : String) (L B : ℕ) (g : Sharing) : Call → Option Sharing
  | .getEvidenceStore io =>
    match g.factory.getEvidenceStore io path L B with
    | (.ok i, w) => some ⟨w, i :: g.references⟩
    | (.error _, w) => some ⟨w, g.references⟩
  | .storeBlock i io n b => g.onSession i (.storeBlock io n b)
  | .retrieveBlock i io n => g.onSession i (.retrieveBlock io n)
  | .close i io closeIo =>
    if i ∈ g.references then
      some ⟨(g.factory.closeEvidenceStore io closeIo i).2, g.references.erase i⟩
    else none

/-- A new factory, over these files. -/
def init (disk : String → Files) : Sharing := ⟨⟨fun _ => none, [], disk⟩, []⟩

/-- The blocks stored, after one more call. -/
def store (S : Finset ℕ) : Call → Finset ℕ
  | .storeBlock _ _ n _ => insert n S
  | _ => S

/-- The blocks stored by these calls. -/
def stored (calls : List Call) : Finset ℕ := calls.foldl store ∅

/-- The calls whose file operations do not fail, and which only store whole blocks
    of the image. -/
def Succeeds (L B : ℕ) : Call → Prop
  | .getEvidenceStore io => io = .ok
  | .storeBlock _ io n b => io = .ok ∧ n < blocks L B ∧ b.length = B
  | .retrieveBlock _ io _ => io = .ok
  | .close _ io closeIo => io = .ok ∧ closeIo = .ok

/-- No reference is closed when the counter would wrap to zero. -/
def Counted (g : Sharing) : Call → Prop
  | .close .. => ¬∃ k ≥ 1, g.references.length = k * 2 ^ 32 + 1
  | _ => True

/-- All open references are the same store, its files are open, and its bits are
    those of the blocks stored so far. -/
structure Kept (L B : ℕ) (S : Finset ℕ) (g : Sharing) : Prop where
  same : ∀ i ∈ g.references, ∀ j ∈ g.references, i = j
  bits : ∀ i ∈ g.references, ∃ s, g.factory.objects[i]? = some s ∧
    s.evidenceOpen = true ∧ s.bitmapOpen = true ∧
    ∀ n < blocks L B, s.containsBlock n = true ↔ n ∈ S

/-- No run of calls that do not fail, from a missing or empty bitmap file, loses an
    acquisition, if all its steps satisfy `P`. -/
def Keeps (L B : ℕ) (P : Sharing → Call → Prop) : Prop :=
  ∀ path disk calls g, (disk path).bitmap.length = 0 → (∀ c ∈ calls, Succeeds L B c) →
    Transition.AllSteps (step path L B) P (init disk) calls →
    Transition.runs (step path L B) (init disk) calls = some g → Kept L B (stored calls) g

/-! ## The invariant -/

variable {path : String} {L B n i : ℕ} {S : Finset ℕ} {g g' : Sharing} {s : EvidenceStore}
  {c : Call} {b : Block}

/-- No reference is open, and the bitmap file has the bits of the blocks stored. -/
structure Idle (path : String) (L B : ℕ) (S : Finset ℕ) (g : Sharing) : Prop where
  evidenceStores : g.factory.evidenceStores path = none
  references : g.references = []
  bits : ∀ n < 8 * bitmapBytes L B, BitSet.bit (g.factory.disk path).bitmap n = true ↔ n ∈ S

/-- The store `i`, in the state `s`, is open: all references are to it, it counts
    them, and it has the bits of the blocks stored, as far as there is room for
    them in the file. -/
structure Busy (path : String) (L B : ℕ) (S : Finset ℕ) (g : Sharing) (i : ℕ) (s : EvidenceStore) :
    Prop where
  evidenceStores : g.factory.evidenceStores path = some i
  object : g.factory.objects[i]? = some s
  geometry : Session.Geometry L B s
  evidenceFilePath : s.evidenceFilePath = path
  refCount : s.refCount = toInt g.references.length
  pos : 0 < g.references.length
  same : ∀ j ∈ g.references, j = i
  tracks : Session.Tracks L B s (g.factory.disk path)
  bits : ∀ n < 8 * bitmapBytes L B, n ∈ s.bitmap ↔ n ∈ S

def Invariant (path : String) (L B : ℕ) (S : Finset ℕ) (g : Sharing) : Prop :=
  Idle path L B S g ∨ ∃ i s, Busy path L B S g i s

/-- If there is room for all blocks, nothing is lost. -/
theorem Invariant.kept (h : Invariant path L B S g) (hroom : blocks L B ≤ 8 * bitmapBytes L B) :
    Kept L B S g := by
  rcases h with h | ⟨i, s, h⟩
  · constructor <;> simp [h.references]
  · refine ⟨fun j hj k hk => (h.same j hj).trans (h.same k hk).symm, fun j hj => ?_⟩
    obtain rfl := h.same j hj
    refine ⟨s, h.object, h.geometry.evidenceOpen, h.geometry.bitmapOpen, fun n hn => ?_⟩
    rw [containsBlock_iff, h.bits n (hn.trans_le hroom)]

/-- The first reference opens the store, with the bits of its file. -/
theorem Idle.getEvidenceStore (h : Idle path L B S g) (ho : Opens L B) :
    ∃ g' i f, step path L B g (.getEvidenceStore .ok) = some g' ∧ g'.references = [i] ∧
      Busy path L B S g' i (opened path L B (extend L B f)).incRefCount := by
  rw [step, EvidenceStoreFactory.getEvidenceStore, h.evidenceStores]
  dsimp only
  rw [create_ok ho]
  set f := g.factory.disk path with hf
  refine ⟨_, g.factory.objects.length, f, rfl, by simp [h.references], ?_⟩
  exact
    { evidenceStores := Function.update_self ..
      object := by simp
      geometry := ⟨⟨rfl, rfl, rfl⟩, rfl, rfl⟩
      evidenceFilePath := rfl
      refCount := by simp [h.references, incRefCount, opened]
      pos := by simp
      same := by simp [h.references]
      tracks := by
        have htr : Session.Tracks L B (opened path L B (extend L B f)) (extend L B f) :=
          Session.tracks_opened
        simp only [setFiles, Function.update_self]
        exact htr.mono subset_rfl rfl
      bits := fun n hn => by
        change n ∈ (opened path L B (extend L B f)).bitmap ↔ _
        rw [mem_bitmap_opened, bit_extend, and_iff_right hn]
        exact h.bits n hn }

/-- The other ones share it. -/
theorem Busy.getEvidenceStore (h : Busy path L B S g i s)
    (hs : step path L B g (.getEvidenceStore .ok) = some g') :
    Busy path L B S g' i s.incRefCount := by
  rw [step, EvidenceStoreFactory.getEvidenceStore, h.evidenceStores] at hs
  cases hs
  exact
    { evidenceStores := h.evidenceStores
      object := by simp [h.object]
      geometry := ⟨h.geometry.toShape.congr rfl rfl rfl, h.geometry.2, h.geometry.3⟩
      evidenceFilePath := h.evidenceFilePath
      refCount := by
        rw [refCount_incRefCount, h.refCount, toInt_toInt_add, List.length_cons]
        push_cast
        rfl
      pos := Nat.succ_pos _
      same := List.forall_mem_cons.2 ⟨rfl, h.same⟩
      tracks := h.tracks.mono subset_rfl rfl
      bits := h.bits }

/-- All references are to the open store. -/
theorem Busy.mem (h : Busy path L B S g i s) : i ∈ g.references := by
  obtain ⟨j, hj⟩ := List.exists_mem_of_length_pos h.pos
  exact h.same j hj ▸ hj

/-- A call on the open store. -/
theorem Busy.onSession (h : Busy path L B S g i s) (c : Session.Call) :
    g.onSession i c = (Session.step ⟨s, g.factory.disk path⟩ c).map fun t =>
      { g with factory := g.factory.setSession i t } := by
  have hsession : g.factory.session i = some ⟨s, g.factory.disk path⟩ := by
    rw [session, h.object, ← h.evidenceFilePath]
    rfl
  rw [Sharing.onSession, if_pos h.mem, hsession, Option.bind_some]

theorem mem_of_onSession {c : Session.Call} {j : ℕ} (hs : g.onSession j c = some g') :
    j ∈ g.references := by
  rw [Sharing.onSession] at hs
  split_ifs at hs with hj
  exact hj

/-- The store is still open after a call that kept its geometry, path and counter. -/
theorem Busy.setSession {S' : Finset ℕ} (h : Busy path L B S g i s) (t : Session)
    (hgeo : Session.Geometry L B t.store) (hpath : t.store.evidenceFilePath = s.evidenceFilePath)
    (hcount : t.store.refCount = s.refCount) (htracks : Session.Tracks L B t.store t.files)
    (hbits : ∀ n < 8 * bitmapBytes L B, n ∈ t.store.bitmap ↔ n ∈ S') :
    Busy path L B S' { g with factory := g.factory.setSession i t } i t.store where
  evidenceStores := h.evidenceStores
  object := by
    have hi : i < g.factory.objects.length := (List.getElem?_eq_some_iff.1 h.object).1
    simp [EvidenceStoreFactory.setSession, setFiles, setObject, hi]
  geometry := hgeo
  evidenceFilePath := hpath.trans h.evidenceFilePath
  refCount := hcount.trans h.refCount
  pos := h.pos
  same := h.same
  tracks := by
    rw [EvidenceStoreFactory.setSession, setFiles, hpath, h.evidenceFilePath]
    simpa using htracks
  bits := hbits

theorem Busy.storeBlock (h : Busy path L B S g i s) (hB : 0 < B) (hB' : B < 2 ^ 31)
    (hn : n < blocks L B) (hb : b.length = B) :
    ∃ g' s', step path L B g (.storeBlock i .ok n b) = some g' ∧ g'.references = g.references ∧
      Busy path L B (insert n S) g' i s' := by
  rw [step, h.onSession]
  refine ⟨_, _, rfl, rfl, h.setSession _ (h.geometry.storeBlock ..) ?_ ?_ ?_ ?_⟩ <;>
    simp only [h.geometry.storeBlock_ok hB hB' hn hb]
  · rfl
  · rfl
  · exact h.tracks.mono (Finset.subset_insert n _) rfl
  · intro m hm
    rw [bitmap_setBit, bitmap_cacheBlock, Finset.mem_insert, Finset.mem_insert, h.bits m hm]

theorem Busy.retrieveBlock (h : Busy path L B S g i s) (io : Io) (n : ℕ) :
    ∃ g' s', step path L B g (.retrieveBlock i io n) = some g' ∧ Busy path L B S g' i s' := by
  rw [step, h.onSession]
  refine ⟨_, _, rfl, h.setSession _ (h.geometry.retrieveBlock ..) ?_ ?_ ?_ ?_⟩ <;>
    rcases retrieveBlock_cases s io n (g.factory.disk path) with ⟨e, he⟩ | ⟨b, -, -, he⟩ |
      ⟨k, -, -, -, -, he⟩ <;> simp only [he]
  any_goals rfl
  any_goals exact h.bits
  any_goals exact h.tracks.mono subset_rfl rfl

/-- A reference is closed: the store is shared by the others, or saved in its files. -/
theorem Busy.close (h : Busy path L B S g i s) {j : ℕ} (hcount : Counted g (.close j .ok .ok))
    (hs : step path L B g (.close j .ok .ok) = some g') : Invariant path L B S g' := by
  rw [step] at hs
  split_ifs at hs with hj
  obtain rfl := h.same j hj
  cases hs
  set k := g.references.length with hk
  have hpos := h.pos
  have hdec : s.decRefCount.refCount = toInt (k - 1 : ℕ) := by
    rw [refCount_decRefCount, h.refCount, toInt_toInt_sub]
    congr 1
    omega
  have hlen : (g.references.erase j).length = k - 1 := List.length_erase_of_mem hj
  by_cases hc : s.decRefCount.refCount = 0
  · -- The counter is zero only because no reference is left.
    have hk1 : k - 1 = 0 := by
      rw [hdec, toInt_eq_zero_iff] at hc
      by_contra hne
      exact hcount ⟨(k - 1) / 2 ^ 32, by omega, by omega⟩
    rw [closeEvidenceStore_last h.object h.geometry.bitmapOpen hc, h.evidenceFilePath]
    left
    exact
      { evidenceStores := Function.update_self ..
        references := List.eq_nil_of_length_eq_zero (hlen.trans hk1)
        bits := fun n hn => by
          simp only [setObject, flushed, setFiles, h.evidenceFilePath, Function.update_self]
          rw [h.tracks.bit_flush hn, h.bits n hn] }
  · rw [closeEvidenceStore_other h.object h.geometry.bitmapOpen hc]
    right
    refine ⟨j, s.decRefCount, ?_⟩
    exact
      { evidenceStores := h.evidenceStores
        object := by
          have hi : j < g.factory.objects.length := (List.getElem?_eq_some_iff.1 h.object).1
          simp [flushed, setFiles, setObject, hi]
        geometry := ⟨h.geometry.toShape.congr rfl rfl rfl, h.geometry.2, h.geometry.3⟩
        evidenceFilePath := h.evidenceFilePath
        refCount := by rw [hdec, hlen]
        pos := by
          rw [hlen]
          refine Nat.pos_of_ne_zero fun h0 => hc ?_
          rw [hdec, h0]
          rfl
        same := fun m hm => h.same m (List.mem_of_mem_erase hm)
        tracks := by
          simp only [setObject, flushed, setFiles, h.evidenceFilePath, Function.update_self]
          exact (h.tracks.writeBitmap _).mono subset_rfl rfl
        bits := h.bits }

/-- A new file has no bits. -/
theorem idle_init {disk : String → Files} (h : (disk path).bitmap.length = 0) :
    Idle path L B ∅ (init disk) where
  evidenceStores := rfl
  references := rfl
  bits n _ := by
    rw [init, BitSet.bit_of_length_le (h ▸ Nat.zero_le n)]
    simp

/-- Every call that succeeds keeps the invariant. -/
theorem Invariant.step (h : Invariant path L B S g) (ho : Opens L B) (hB' : B < 2 ^ 31)
    (hc : Succeeds L B c ∧ Counted g c) (hs : step path L B g c = some g') :
    Invariant path L B (store S c) g' := by
  -- While no reference is open, no call is possible on a store.
  have hidle : ∀ j, j ∈ g.references → ∃ s, Busy path L B S g j s := by
    intro j hj
    rcases h with h | ⟨i, s, h⟩
    · rw [h.references] at hj
      cases hj
    · exact ⟨s, h.same j hj ▸ h⟩
  cases c with
  | getEvidenceStore io =>
    obtain ⟨rfl, -⟩ := hc
    rcases h with h | ⟨i, s, h⟩
    · obtain ⟨_, i, f, hs', -, h'⟩ := h.getEvidenceStore ho
      rw [hs, Option.some.injEq] at hs'
      exact .inr ⟨i, _, hs' ▸ h'⟩
    · exact .inr ⟨i, _, h.getEvidenceStore hs⟩
  | storeBlock j io n b =>
    obtain ⟨⟨rfl, hn, hb⟩, -⟩ := hc
    obtain ⟨s, h⟩ := hidle j (mem_of_onSession hs)
    obtain ⟨_, s', hs', -, h'⟩ := h.storeBlock ho.1 hB' hn hb
    rw [hs, Option.some.injEq] at hs'
    exact .inr ⟨j, s', hs' ▸ h'⟩
  | retrieveBlock j io n =>
    obtain ⟨s, h⟩ := hidle j (mem_of_onSession hs)
    obtain ⟨_, s', hs', h'⟩ := h.retrieveBlock io n
    rw [hs, Option.some.injEq] at hs'
    exact .inr ⟨j, s', hs' ▸ h'⟩
  | close j io closeIo =>
    obtain ⟨⟨rfl, rfl⟩, hcount⟩ := hc
    have hj : j ∈ g.references := by
      by_contra hj
      rw [Sharing.step, if_neg hj] at hs
      cases hs
    obtain ⟨s, h⟩ := hidle j hj
    exact h.close hcount hs

/-! ## The exact condition -/

/-- In a system whose blocks are counted by an `int`, nothing is lost. -/
theorem keeps_of_lt (ho : Opens L B) (hB' : B < 2 ^ 31) (hN : blocks L B < 2 ^ 31) :
    Keeps L B Counted := by
  intro path disk calls g hdisk hcalls hcount hs
  have hsucc : Transition.AllSteps (step path L B) (fun _ c => Succeeds L B c) (init disk) calls :=
    .of_forall fun _ => hcalls
  have h : Invariant path L B (stored calls) g :=
    Transition.runs_simulation (R := fun g S => Invariant path L B S g)
      (fun _ _ _ _ hc h hs => h.step ho hB' hc hs) hs (hsucc.and hcount) (.inl (idle_init hdisk))
  exact h.kept (blocks_le_bitmapBytes ho hB' hN)

/-- The first block there is no room for in the bitmap file is lost when the store
    is closed and opened again. -/
theorem not_keeps_of_le {P : Sharing → Call → Prop} (ho : Opens L B) (hB' : B < 2 ^ 31)
    (hN : 2 ^ 31 ≤ blocks L B) (hP : ∀ g c, Counted g c → P g c) : ¬Keeps L B P := by
  intro hkeeps
  set n := 8 * bitmapBytes L B with hn
  have hlt : n < blocks L B := bitmapBytes_lt.trans_le hN
  have h₀ : Idle "" L B ∅ (init fun _ => ⟨.zeros 0, .zeros 0⟩) := idle_init rfl
  obtain ⟨g₁, i, f, hs₁, hr₁, h₁⟩ := h₀.getEvidenceStore ho
  obtain ⟨g₂, s₂, hs₂, hr₂, h₂⟩ := h₁.storeBlock (b := .zeros B) ho.1 hB' hlt rfl
  obtain ⟨g₃, hs₃, hr₃⟩ :
      ∃ g₃, step "" L B g₂ (.close i .ok .ok) = some g₃ ∧ g₃.references = [] := by
    rw [step, if_pos h₂.mem, hr₂, hr₁]
    exact ⟨_, rfl, by simp⟩
  have hcount : Counted g₂ (.close i .ok .ok) := by
    rintro ⟨k, hk, hlen⟩
    rw [hr₂, hr₁, List.length_singleton] at hlen
    omega
  have h₃ : Idle "" L B (insert n ∅) g₃ := by
    rcases h₂.close hcount hs₃ with h | ⟨j, s, h⟩
    · exact h
    · exact absurd h.mem (hr₃ ▸ List.not_mem_nil)
  obtain ⟨g₄, j, f', hs₄, hr₄, h₄⟩ := h₃.getEvidenceStore ho
  -- The run that opens, stores, closes and opens again.
  have hkept : Kept L B (insert n ∅) g₄ := by
    refine hkeeps "" (fun _ => ⟨.zeros 0, .zeros 0⟩)
      [.getEvidenceStore .ok, .storeBlock i .ok n (.zeros B), .close i .ok .ok,
        .getEvidenceStore .ok]
      g₄ rfl ?_ ?_ ?_
    · simp [Succeeds, hlt]
    · simp only [Transition.AllSteps, hs₁, hs₂, hs₃, Option.some.injEq, forall_eq', and_true,
        implies_true]
      exact ⟨hP _ _ trivial, hP _ _ trivial, hP _ _ hcount, hP _ _ trivial⟩
    · simp [Transition.runs, hs₁, hs₂, hs₃, hs₄]
  obtain ⟨s, hs, -, -, hbits⟩ := hkept.bits j (hr₄ ▸ List.mem_singleton_self j)
  rw [h₄.object, Option.some.injEq] at hs
  have hmem := containsBlock_iff.1 ((hbits n hlt).2 (Finset.mem_insert_self n ∅))
  rw [← hs] at hmem
  change n ∈ (opened "" L B (extend L B f')).bitmap at hmem
  exact lt_irrefl n (mem_bitmap_opened.1 hmem).1

/-- Nothing is lost, as long as no reference is closed while the counter would
    wrap to zero, exactly when the blocks are counted by an `int`. -/
theorem keeps_iff (L B : ℕ) (hB' : B < 2 ^ 31) (ho : Opens L B) :
    Keeps L B Counted ↔ blocks L B < 2 ^ 31 := by
  refine ⟨fun h => ?_, keeps_of_lt ho hB'⟩
  by_contra hN
  exact not_keeps_of_le ho hB' (not_lt.1 hN) (fun _ _ h => h) h

/-- An image of `2 ^ 32 + 1` blocks of one byte is given a bitmap for one block. -/
theorem not_keeps_long : ¬Keeps (2 ^ 32 + 1) 1 fun _ _ => True :=
  not_keeps_of_le ⟨by decide, by decide⟩ (by decide) (by decide) fun _ _ _ => trivial

theorem keeps_iff_disk : Keeps 98816 65536 Counted :=
  (keeps_iff 98816 65536 (by decide) ⟨by decide, by decide⟩).2 (by decide)

end Sharing

end Raqet
