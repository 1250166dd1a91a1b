import Mathlib.Logic.Function.Basic
import Raqet.Evidence.Session

/-!
# Transparency of the cache

A session is an implementation of a map from block numbers to blocks: what was
last stored under a number is what is retrieved, from the cache, from the
evidence file once the entry was evicted, or from a new store opened on the two
files. `Refines` relates a session to this map (`acquire`).

The implementation is right about the bytes in the image exactly when all of
them are written (`transparent_iff`): the last block must be complete, or at
least half outside the image, or end past `2 ^ 31`; and the blocks must be
counted by an `int`.
-/

namespace Raqet

open Java Buffer EvidenceStore

namespace Session

variable {L B n m : ℕ} {s t : Session} {c : Call} {b b' : Block} {A : ℕ → Option Block}
  {S₀ : BitSet}

/-! ## The abstract map -/

/-- The last block stored under each number, after one more call. -/
def acquire (A : ℕ → Option Block) : Call → ℕ → Option Block
  | .storeBlock _ n b => Function.update A n (some b)
  | _ => A

/-- The last block stored under each number by these calls. -/
def acquired (calls : List Call) : ℕ → Option Block := calls.foldl acquire fun _ => none

/-- The calls whose file operations do not fail, and which only store whole blocks
    of the image. -/
def Succeeds (L B : ℕ) : Call → Prop
  | .storeBlock io n b => io = .ok ∧ n < blocks L B ∧ b.length = B
  | .retrieveBlock io _ => io = .ok
  | .synctodisk io => io = .ok
  | .reopen => True

/-- `retrieveBlock` returns the bytes of the block `b` that are in the image. -/
def Serves (L B n : ℕ) (b : Block) (s : Session) : Prop :=
  ∃ b', (s.store.retrieveBlock .ok n s.files).value = .ok b' ∧ AgreeOn (inImage L B n) b' b

/-- The session once the block `n`, if it was in the cache, has been evicted. -/
def evicted (s : Session) (n : ℕ) : Session :=
  { s with store := { s.store with cachedBlocks := s.store.cachedBlocks.erase n } }

/-- In every run without failing file operations, the blocks of the image that
    count as acquired are the ones that did at first and the ones that were
    stored; and what was last stored under a number is retrieved, whether the
    block is looked up now, or once it was evicted, or in a new store on the same
    files. -/
def Transparent (L B : ℕ) : Prop :=
  ∀ path evidence bitmap s₀ calls s, start path L B (Files.ofFound evidence bitmap) = some s₀ →
    (∀ c ∈ calls, Succeeds L B c) → Transition.runs step s₀ calls = some s →
    ∀ n < blocks L B,
      (s.store.containsBlock n = true ↔
        s₀.store.containsBlock n = true ∨ ∃ b, acquired calls n = some b) ∧
      ∀ b, acquired calls n = some b → Serves L B n b s ∧ Serves L B n b (s.evicted n) ∧
        ∃ t, step s .reopen = some t ∧ Serves L B n b t

/-- The blocks are counted by an `int`, and all bytes of the image are transferred. -/
def Recovers (L B : ℕ) : Prop := blocks L B < 2 ^ 31 ∧ Transfers L B

instance (L B : ℕ) : Decidable (Recovers L B) := by unfold Recovers; infer_instance

/-! ## The refinement -/

/-- The session holds the map `A` of blocks, besides the bits `S₀`: the data of a
    block is in the evidence file as far as it is written, and in the cache, if it
    is there, as far as it is in the image. -/
structure Refines (L B : ℕ) (S₀ : BitSet) (s : Session) (A : ℕ → Option Block) : Prop where
  geometry : Geometry L B s.store
  tracks : Tracks L B s.store s.files
  lt : ∀ n ∈ s.store.bitmap, n < 8 * bitmapBytes L B
  mem_iff : ∀ n, n ∈ s.store.bitmap ↔ n ∈ S₀ ∨ ∃ b, A n = some b
  stored : ∀ n b, A n = some b → n < blocks L B ∧ b.length = B
  holds : ∀ n b, A n = some b → s.files.evidence.HoldsAt (n * B) b (storedLength L B n)
  cached : ∀ n b b', A n = some b → s.store.cachedBlocks.lookup n = some b' →
    AgreeOn (inImage L B n) b' b

theorem refines_start {path : String} {f : Files} (h : start path L B f = some s) :
    Refines L B s.store.bitmap s fun _ => none where
  geometry := geometry_start h
  tracks := tracks_start h
  lt n hn := by
    obtain ⟨_, rfl⟩ := start_eq_some.1 h
    exact (mem_bitmap_opened.1 hn).1
  mem_iff n := by simp
  stored n b h := by cases h
  holds n b h := by cases h
  cached n b b' h := by cases h

/-- Storing a block. -/
theorem Refines.storeBlock (h : Refines L B S₀ s A) (hB : 0 < B) (hB' : B < 2 ^ 31)
    (hr : Opens L B ∧ Recovers L B) (hn : n < blocks L B) (hb : b.length = B) :
    Refines L B S₀ ⟨(s.store.cacheBlock n b).setBit n,
      s.files.writeEvidence (n * B) b (storedLength L B n)⟩ (Function.update A n (some b)) := by
  have hroom := hn.trans_le (blocks_le_bitmapBytes hr.1 hB' hr.2.1)
  refine ⟨h.geometry.congr rfl rfl rfl rfl rfl, h.tracks.mono (Finset.subset_insert n _) rfl,
    Finset.forall_mem_insert _ _ _ |>.2 ⟨hroom, h.lt⟩, fun m => ?_, ?_, ?_, ?_⟩
  · by_cases hm : m = n
    · subst hm
      simp
    · simp [hm, h.mem_iff m]
  · intro m c hc
    by_cases hm : m = n
    · subst hm
      rw [Function.update_self, Option.some.injEq] at hc
      exact ⟨hn, hc ▸ hb⟩
    · rw [Function.update_of_ne hm] at hc
      exact h.stored m c hc
  -- the slots of different blocks are disjoint
  · intro m c hc
    by_cases hm : m = n
    · subst hm
      rw [Function.update_self, Option.some.injEq] at hc
      exact hc ▸ HoldsAt.write_self _ _ _ _
    · rw [Function.update_of_ne hm] at hc
      exact (h.holds m c hc).write_of_disjoint _
        (slots_disjoint (storedLength_le (h.stored m c hc).1 hB) (storedLength_le hn hB) hm)
  · intro m c c' hc hc'
    rw [cachedBlocks_setBit] at hc'
    rcases lookup_cacheBlock hc' with ⟨rfl, rfl⟩ | ⟨hm, hold⟩
    · rw [Function.update_self, Option.some.injEq] at hc
      exact hc ▸ AgreeOn.refl _ _
    · rw [Function.update_of_ne hm] at hc
      exact h.cached m c c' hc hold

/-- Looking up a block, or forgetting it: the cache holds what it held, or what was read. -/
theorem Refines.congr (h : Refines L B S₀ s A) (hgeo : Geometry L B t.store)
    (hbits : t.store.bitmap = s.store.bitmap) (hf : t.files = s.files)
    (hc : ∀ n b b', A n = some b → t.store.cachedBlocks.lookup n = some b' →
      AgreeOn (inImage L B n) b' b) : Refines L B S₀ t A where
  geometry := hgeo
  tracks := h.tracks.mono hbits.ge (by rw [hf])
  lt := hbits ▸ h.lt
  mem_iff n := by rw [hbits, h.mem_iff]
  stored := h.stored
  holds n b hb := hf ▸ h.holds n b hb
  cached := hc

/-- What is read of a block from the evidence file. -/
theorem Refines.agreeOn_read (h : Refines L B S₀ s A) (hB : 0 < B) (hr : Recovers L B)
    (hb : A n = some b) :
    AgreeOn (inImage L B n) (s.files.evidence.read (n * B) (storedLength L B n) B) b := by
  have hn := (h.stored n b hb).1
  have hread := (h.holds n b hb).read (storedLength_le hn hB)
  rw [min_self] at hread
  exact hread.mono (inImage_le_storedLength hB hr.2 hn)

/-- A block that was stored is retrieved. -/
theorem Refines.serves (h : Refines L B S₀ s A) (hB : 0 < B) (hB' : B < 2 ^ 31)
    (hr : Recovers L B) (hb : A n = some b) : Serves L B n b s := by
  have hn := (h.stored n b hb).1
  have hp := h.geometry.position_eq n
  have hk := h.geometry.transferLength_eq hB hB' hn
  rw [← h.geometry.blockSize] at hk
  refine ⟨_, value_retrieveBlock ?_ ((h.mem_iff n).2 (.inr ⟨b, hb⟩)) h.geometry.evidenceOpen
    hk ?_, ?_⟩
  · rw [h.geometry.blockCount, countBlocks_eq hB hB' hr.1]
    exact_mod_cast hn
  · rw [hp, h.geometry.blockSize]
    exact (h.holds n b hb).length_le (storedLength_pos hB)
  · rw [hp, h.geometry.blockSize]
    cases hc : s.store.cachedBlocks.lookup n with
    | none => exact h.agreeOn_read hB hr hb
    | some b' => exact h.cached n b b' hb hc

/-- Every call takes the session to one that holds the next map. -/
theorem Refines.step (h : Refines L B S₀ s A) (hB : 0 < B) (hB' : B < 2 ^ 31)
    (hr : Opens L B ∧ Recovers L B) (hc : Succeeds L B c) (hs : step s c = some t) :
    Refines L B S₀ t (acquire A c) := by
  cases c with
  | storeBlock io n b =>
    obtain ⟨rfl, hn, hb⟩ := hc
    cases hs
    rw [h.geometry.storeBlock_ok hB hB' hn hb]
    exact h.storeBlock hB hB' hr hn hb
  | retrieveBlock io n =>
    have hgeo := h.geometry.retrieveBlock io n s.files
    cases hs
    rcases retrieveBlock_cases s.store io n s.files with ⟨e, he⟩ | ⟨b, -, -, he⟩ |
      ⟨k, -, -, hk, -, he⟩ <;> simp only [he] at hgeo ⊢
    · exact h
    · exact h.congr hgeo rfl rfl fun m c c' hA hc' => h.cached m c c' hA (by simpa using hc')
    -- what is read is put in the cache
    · refine h.congr hgeo rfl rfl fun m c c' hA hc' => ?_
      rcases lookup_cacheBlock hc' with ⟨rfl, rfl⟩ | ⟨-, hold⟩
      · rw [h.geometry.blockSize, h.geometry.transferLength_eq hB hB' (h.stored m c hA).1,
          Option.some.injEq] at hk
        rw [← hk, h.geometry.position_eq, h.geometry.blockSize]
        exact h.agreeOn_read hB hr.2 hA
      · exact h.cached m c c' hA hold
  | synctodisk io =>
    cases hs
    have hev := evidence_synctodisk s.store io s.files
    exact ⟨h.geometry, h.tracks.synctodisk io, h.lt, h.mem_iff, h.stored,
      fun n b hb => hev ▸ h.holds n b hb, h.cached⟩
  | reopen =>
    -- the cache is empty, and the set is that of the bits that were flushed
    rw [step_reopen h.geometry.toShape, synctodisk_ok h.geometry.bitmapOpen] at hs
    have hgeo := geometry_start hs
    have htr := tracks_start hs
    obtain ⟨-, rfl⟩ := start_eq_some.1 hs
    exact
      { geometry := hgeo
        tracks := htr
        lt := fun n hn => (h.tracks.mem_reopen.1 hn).1
        mem_iff := fun n => by
          rw [h.tracks.mem_reopen, and_iff_right_of_imp (h.lt n), h.mem_iff]
          rfl
        stored := h.stored
        holds := fun n b hb => holdsAt_extend (h.holds n b hb)
        cached := fun n b b' _ hc => by cases hc }

theorem Geometry.evicted (h : Geometry L B s.store) (m : ℕ) : Geometry L B (s.evicted m).store :=
  h.congr rfl rfl rfl rfl rfl

/-- Evicting a block. -/
theorem Refines.evicted (h : Refines L B S₀ s A) (m : ℕ) : Refines L B S₀ (s.evicted m) A := by
  refine h.congr (h.geometry.evicted m) rfl rfl ?_
  intro n b b' hb hc
  refine h.cached n b b' hb ?_
  by_cases hn : n = m
  · subst hn
    rw [Session.evicted, AList.lookup_erase] at hc
    cases hc
  · rwa [Session.evicted, AList.lookup_erase_ne hn] at hc

/-! ## The exact condition -/

/-- A session in which all bytes in the image are transferred is transparent. -/
theorem transparent_of_recovers (hB : 0 < B) (hB' : B < 2 ^ 31) (hr : Opens L B ∧ Recovers L B) :
    Transparent L B := by
  intro path evidence bitmap s₀ calls s hs₀ hcalls hs n hn
  have h : Refines L B s₀.store.bitmap s (acquired calls) :=
    Transition.runs_simulation (P := fun _ c => Succeeds L B c)
      (fun _ _ _ _ hc h hs => h.step hB hB' hr hc hs) hs
      (Transition.AllSteps.of_forall fun _ => hcalls) (refines_start hs₀)
  refine ⟨by rw [containsBlock_iff, containsBlock_iff, h.mem_iff], fun b hb => ?_⟩
  refine ⟨h.serves hB hB' hr.2 hb, (h.evicted n).serves hB hB' hr.2 hb, ?_⟩
  obtain ⟨t, ht⟩ : ∃ t, step s .reopen = some t :=
    ⟨_, (step_reopen h.geometry.toShape).trans (start_eq_some.2 ⟨hr.1, rfl⟩)⟩
  exact ⟨t, ht, (h.step (c := .reopen) hB hB' hr trivial ht).serves hB hB' hr.2 hb⟩

/-- The block of ones. -/
def ones (B : ℕ) : Block := .ofFn B fun _ => 1

/-- A block of ones stored in a fresh session is served after its eviction. -/
theorem Transparent.serves_evicted (h : Transparent L B) (ho : Opens L B) (hn : n < blocks L B) :
    ∃ s : Session, Geometry L B s.store ∧ Serves L B n (ones B) (s.evicted n) := by
  obtain ⟨s₀, hs₀⟩ : ∃ s₀, start "" L B (Files.ofFound none none) = some s₀ :=
    ⟨_, start_eq_some.2 ⟨ho, rfl⟩⟩
  obtain ⟨s, hs⟩ : ∃ s, step s₀ (.storeBlock .ok n (ones B)) = some s := ⟨_, rfl⟩
  have hA : acquired [.storeBlock .ok n (ones B)] n = some (ones B) := by
    simp [acquired, acquire]
  have hcalls : ∀ c ∈ [Call.storeBlock .ok n (ones B)], Succeeds L B c :=
    List.forall_mem_singleton.2 ⟨rfl, hn, rfl⟩
  refine ⟨s, geometry_step (geometry_start hs₀) hs, ?_⟩
  exact ((h "" none none s₀ _ s hs₀ hcalls (Transition.runs_cons.2 ⟨s, hs, rfl⟩) n hn).2 _ hA).2.1

/-- What is served from the evidence file has zeros past the bytes transferred. -/
theorem Serves.inImage_le (h : Serves L B n (ones B) (s.evicted n)) (hgeo : Geometry L B s.store)
    (hB : 0 < B) (hB' : B < 2 ^ 31) (hn : n < blocks L B) :
    inImage L B n ≤ storedLength L B n := by
  obtain ⟨b', hv, hb'⟩ := h
  by_contra hlt
  rcases (hgeo.evicted n).retrieveBlock_cases hB hB' hn .ok (s.evicted n).files with
    ⟨e, he⟩ | ⟨b, -, hb, -⟩ | ⟨-, -, -, he⟩
  · rw [he] at hv
    cases hv
  · rw [evicted, AList.lookup_erase] at hb
    cases hb
  · rw [he] at hv
    cases hv
    have hone := hb' _ (not_le.1 hlt)
    rw [get_read_of_le _ (storedLength_le hn hB) le_rfl, ones,
      get_ofFn _ ((not_le.1 hlt).trans_le (min_le_left _ _))] at hone
    exact absurd hone (by decide)

/-- A store that is a transparent cache counts its blocks with an `int`: the
    number `2 ^ 31 - 1` of a block would be out of bounds. -/
theorem Transparent.blocks_lt (h : Transparent L B) (ho : Opens L B) : blocks L B < 2 ^ 31 := by
  by_contra hN
  have hn : 2 ^ 31 - 1 < blocks L B := by omega
  obtain ⟨s, hgeo, b', hv, -⟩ := h.serves_evicted ho hn
  have hcount : (s.evicted (2 ^ 31 - 1)).store.blockCount ≤ (2 ^ 31 - 1 : ℕ) := by
    have : countBlocks L B < 2 ^ 31 := toInt_lt _
    rw [evicted, hgeo.blockCount]
    omega
  rw [retrieveBlock, if_pos hcount] at hv
  cases hv

/-- A store that is a transparent cache transfers what its last block has in the image. -/
theorem Transparent.transfers (h : Transparent L B) (ho : Opens L B) (hB' : B < 2 ^ 31) :
    Transfers L B := by
  by_cases hmod : L % B = 0
  · exact .inl hmod
  have hdm := Nat.div_add_mod L B
  have hmul : (L / B + 1) * B = L / B * B + B := Nat.succ_mul _ B
  have hlt := Nat.mod_lt L ho.1
  rw [Nat.mul_comm] at hdm
  have hn : L / B < blocks L B := (lt_blocks_iff ho.1).2 (by omega)
  obtain ⟨s, hgeo, hs⟩ := h.serves_evicted ho hn
  have hle := hs.inImage_le hgeo ho.1 hB' hn
  rw [Transfers, (last_block ho.1 hn (by omega)).2.1]
  rw [inImage, storedLength, min_eq_right (by omega)] at hle
  split_ifs at hle <;> omega

/-- A store whose constructor accepts the geometry is a transparent cache exactly
    when its blocks are counted by an `int` and its last block is complete, or at
    most half in the image, or ends past `2 ^ 31`. -/
theorem transparent_iff (L B : ℕ) (hB : 0 < B) (hB' : B < 2 ^ 31) (ho : Opens L B) :
    Transparent L B ↔ Recovers L B :=
  ⟨fun h => ⟨h.blocks_lt ho, h.transfers ho hB'⟩, fun hr => transparent_of_recovers hB hB' ⟨ho, hr⟩⟩

/-- A disk of one and a half blocks, and `512` bytes: the end of its last block is lost. -/
theorem not_transparent_half : ¬Transparent 98816 65536 :=
  fun h => absurd (h.transfers ⟨by decide, by decide⟩ (by decide)) (by decide)

theorem transparent_iff_blocks : Transparent 131072 65536 :=
  (transparent_iff 131072 65536 (by decide) (by decide) ⟨by decide, by decide⟩).2 (by decide)

end Session

end Raqet
