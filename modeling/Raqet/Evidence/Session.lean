import Raqet.Evidence.Opening
import Raqet.Transition

/-!
# Sessions

A *session* is an open evidence store with its two files. Its runs are
sequences of calls, whose file operations may fail, and of reopenings: the
bitmap is flushed, the files are closed, and a new store is opened on them.

A session keeps its geometry (`Geometry`): the length of the image, the size of
the blocks, and both files open. What it transfers for a block of the image is
`storedLength` bytes (`Shape.transferLength_eq`): the whole block, except
when the block ends past the image and its end is computed without overflow; then,
it is the length of the part of the block that is *not* in the image.

The bitmap of a session always covers its file (`Tracks`), so that the bits that
an earlier and longer flush left behind are harmless.
-/

namespace Raqet

open Java EvidenceStore

/-- An open evidence store with its files. -/
structure Session where
  store : EvidenceStore
  files : Files

namespace Session

/-- What may happen to a session. -/
inductive Call
  | storeBlock (io : Io) (n : ℕ) (b : Block)
  | retrieveBlock (io : Io) (n : ℕ)
  | synctodisk (io : Io)
  /-- The store is flushed and closed, and a new one is opened on its files. -/
  | reopen

/-- The session after the constructor ran, if it succeeded. -/
def ofCreate : Except Exn EvidenceStore × Files → Option Session
  | (.ok s, f) => some ⟨s, f⟩
  | (.error _, _) => none

/-- The session on the files `f`. -/
def start (path : String) (L B : ℤ) (f : Files) : Option Session := ofCreate (create .ok path L B f)

/-- A call; whether it returns or throws, the session goes on. -/
def step (s : Session) : Call → Option Session
  | .storeBlock io n b => let o := s.store.storeBlock io n b s.files; some ⟨o.store, o.files⟩
  | .retrieveBlock io n => let o := s.store.retrieveBlock io n s.files; some ⟨o.store, o.files⟩
  | .synctodisk io => some ⟨s.store, (s.store.synctodisk io s.files).2⟩
  | .reopen =>
    start s.store.evidenceFilePath s.store.imageLength s.store.blockSize
      (s.store.synctodisk .ok s.files).2

/-- The sessions reachable with this geometry, from any files. -/
def Reachable (L B : ℕ) (s : Session) : Prop :=
  ∃ path evidence bitmap s₀ calls, start path L B (Files.ofFound evidence bitmap) = some s₀ ∧
    Transition.runs step s₀ calls = some s

theorem start_eq_some {path : String} {L B : ℕ} {f : Files} {s : Session} :
    start path L B f = some s ↔
      Opens L B ∧ s = ⟨opened path L B (extend L B f), extend L B f⟩ := by
  constructor
  · intro h
    rw [start] at h
    match hc : create .ok path L B f with
    | (.ok st, f') =>
      obtain ⟨ho, rfl, rfl⟩ := create_eq_ok hc
      rw [hc] at h
      cases h
      exact ⟨ho, rfl⟩
    | (.error e, f') =>
      rw [hc] at h
      cases h
  · rintro ⟨ho, rfl⟩
    rw [start, create_ok ho]
    rfl

/-! ## Geometry -/

/-- The store has this length of the image and this size of the blocks. -/
structure Shape (L B : ℕ) (s : EvidenceStore) : Prop where
  imageLength : s.imageLength = L
  blockSize : s.blockSize = B
  blockCount : s.blockCount = countBlocks L B

/-- The store has this shape, and its files are open. -/
structure Geometry (L B : ℕ) (s : EvidenceStore) : Prop extends Shape L B s where
  evidenceOpen : s.evidenceOpen = true
  bitmapOpen : s.bitmapOpen = true

variable {L B n m : ℕ} {s t : Session} {c : Call} {b : Block}

theorem geometry_start {path : String} {f : Files} (h : start path L B f = some s) :
    Geometry L B s.store := by
  obtain ⟨_, rfl⟩ := start_eq_some.1 h
  exact ⟨⟨rfl, rfl, rfl⟩, rfl, rfl⟩

theorem Shape.congr {s s' : EvidenceStore} (h : Shape L B s) (hL : s'.imageLength = s.imageLength)
    (hB : s'.blockSize = s.blockSize) (hN : s'.blockCount = s.blockCount) : Shape L B s' :=
  ⟨hL.trans h.1, hB.trans h.2, hN.trans h.3⟩

theorem Shape.storeBlock {s : EvidenceStore} (h : Shape L B s) (io : Io) (n : ℕ) (b : Block)
    (f : Files) : Shape L B (s.storeBlock io n b f).store := by
  rcases EvidenceStore.storeBlock_cases s io n b f with
    ⟨e, he⟩ | ⟨e, k, -, he⟩ | ⟨k, -, he⟩ <;> rw [he]
  exacts [h, h.congr rfl rfl rfl, h.congr rfl rfl rfl]

theorem Shape.retrieveBlock {s : EvidenceStore} (h : Shape L B s) (io : Io) (n : ℕ)
    (f : Files) : Shape L B (s.retrieveBlock io n f).store := by
  rcases EvidenceStore.retrieveBlock_cases s io n f with
    ⟨e, he⟩ | ⟨b, -, -, he⟩ | ⟨k, -, -, -, -, he⟩ <;> rw [he]
  exacts [h, h.congr rfl rfl rfl, h.congr rfl rfl rfl]

theorem Geometry.congr {s s' : EvidenceStore} (h : Geometry L B s)
    (hL : s'.imageLength = s.imageLength) (hB : s'.blockSize = s.blockSize)
    (hN : s'.blockCount = s.blockCount) (he : s'.evidenceOpen = s.evidenceOpen)
    (hb : s'.bitmapOpen = s.bitmapOpen) : Geometry L B s' :=
  ⟨h.toShape.congr hL hB hN, he.trans h.evidenceOpen, hb.trans h.bitmapOpen⟩

theorem Geometry.storeBlock {s : EvidenceStore} (h : Geometry L B s) (io : Io) (n : ℕ) (b : Block)
    (f : Files) : Geometry L B (s.storeBlock io n b f).store := by
  rcases EvidenceStore.storeBlock_cases s io n b f with
    ⟨e, he⟩ | ⟨e, k, -, he⟩ | ⟨k, -, he⟩ <;> rw [he]
  exacts [h, h.congr rfl rfl rfl rfl rfl, h.congr rfl rfl rfl rfl rfl]

theorem Geometry.retrieveBlock {s : EvidenceStore} (h : Geometry L B s) (io : Io) (n : ℕ)
    (f : Files) : Geometry L B (s.retrieveBlock io n f).store := by
  rcases EvidenceStore.retrieveBlock_cases s io n f with
    ⟨e, he⟩ | ⟨b, -, -, he⟩ | ⟨k, -, -, -, -, he⟩ <;> rw [he]
  exacts [h, h.congr rfl rfl rfl rfl rfl, h.congr rfl rfl rfl rfl rfl]

/-- A reopening, in a session of this geometry. -/
theorem step_reopen (h : Shape L B s.store) :
    step s .reopen =
      start s.store.evidenceFilePath L B (s.store.synctodisk .ok s.files).2 := by
  rw [step, h.imageLength, h.blockSize]

theorem geometry_step (h : Geometry L B s.store) (hs : step s c = some t) :
    Geometry L B t.store := by
  cases c with
  | storeBlock io n b =>
    cases hs
    exact h.storeBlock io n b s.files
  | retrieveBlock io n =>
    cases hs
    exact h.retrieveBlock io n s.files
  | synctodisk io =>
    cases hs
    exact h
  | reopen =>
    rw [step_reopen h.toShape] at hs
    exact geometry_start hs

/-- Every session keeps the geometry it was opened with. -/
theorem Reachable.geometry (h : Reachable L B s) : Opens L B ∧ Geometry L B s.store := by
  obtain ⟨path, evidence, bitmap, s₀, calls, hs₀, hs⟩ := h
  refine ⟨(start_eq_some.1 hs₀).1, ?_⟩
  exact Transition.runs_induction (P := fun _ s => Geometry L B s.store) (geometry_start hs₀)
    (fun _ _ _ _ _ ih hc => geometry_step ih hc) hs

/-! ## Bits -/

/-- The store has all the bits that are read back from its file as it is now. -/
def Tracks (L B : ℕ) (s : EvidenceStore) (f : Files) : Prop :=
  ∀ n < 8 * bitmapBytes L B, BitSet.bit f.bitmap n = true → n ∈ s.bitmap

theorem tracks_opened {path : String} {f : Files} :
    Tracks L B (opened path L B (extend L B f)) (extend L B f) :=
  fun _ hn hbit => mem_bitmap_opened.2 ⟨hn, hbit⟩

theorem tracks_start {path : String} {f : Files} (h : start path L B f = some s) :
    Tracks L B s.store s.files := by
  obtain ⟨_, rfl⟩ := start_eq_some.1 h
  exact tracks_opened

theorem Tracks.mono {s s' : EvidenceStore} {f f' : Files} (h : Tracks L B s f)
    (hs : s.bitmap ⊆ s'.bitmap) (hf : f'.bitmap = f.bitmap) : Tracks L B s' f' :=
  fun m hm hbit => hs (h m hm (hf ▸ hbit))

/-- A flush of the bitmap, complete or not, writes only bits of the store. -/
theorem Tracks.writeBitmap {s : EvidenceStore} {f : Files} (h : Tracks L B s f) (k : ℕ) :
    Tracks L B s (f.writeBitmap (BitSet.toByteArray s.bitmap) k) := by
  intro m hm hbit
  rw [bitmap_writeBitmap, BitSet.bit_write_toByteArray] at hbit
  split_ifs at hbit with hk
  exacts [of_decide_eq_true hbit, h m hm hbit]

theorem Tracks.synctodisk {s : EvidenceStore} {f : Files} (h : Tracks L B s f) (io : Io) :
    Tracks L B s (s.synctodisk io f).2 := by
  rcases synctodisk_cases s io f with ⟨e, k, -, he⟩ | he <;> rw [he] <;> exact h.writeBitmap _

/-- After a complete flush, the file has the bits of the store. -/
theorem Tracks.bit_flush {s : EvidenceStore} {f : Files} (h : Tracks L B s f)
    (hn : n < 8 * bitmapBytes L B) :
    BitSet.bit (f.writeBitmap (BitSet.toByteArray s.bitmap)
      (BitSet.toByteArray s.bitmap).length).bitmap n = true ↔ n ∈ s.bitmap := by
  refine ⟨h.writeBitmap _ n hn, fun hs => ?_⟩
  rw [bitmap_writeBitmap, BitSet.bit_write_toByteArray,
    if_pos (BitSet.div_lt_length_toByteArray hs), decide_eq_true hs]

/-- A new store opened after a complete flush has the bits there is room for. -/
theorem Tracks.mem_reopen {s : EvidenceStore} {f : Files} {path : String} (h : Tracks L B s f) :
    n ∈ (opened path L B (extend L B (f.writeBitmap (BitSet.toByteArray s.bitmap)
      (BitSet.toByteArray s.bitmap).length))).bitmap ↔ n < 8 * bitmapBytes L B ∧ n ∈ s.bitmap := by
  rw [mem_bitmap_opened, bit_extend]
  exact and_congr_right fun hn => h.bit_flush hn

/-! ## Transferred bytes -/

/-- The number of bytes of the block `n` that are in the image. -/
def inImage (L B n : ℕ) : ℕ := min B (L - n * B)

/-- The number of bytes of the block `n` that are written and read. -/
def storedLength (L B n : ℕ) : ℕ :=
  if L < (n + 1) * B ∧ (n + 1) * B < 2 ^ 31 then (n + 1) * B - L else B

theorem storedLength_le (hn : n < blocks L B) (hB : 0 < B) : storedLength L B n ≤ B := by
  have := (lt_blocks_iff hB).1 hn
  rw [storedLength, Nat.succ_mul]
  split_ifs <;> omega

theorem storedLength_pos (hB : 0 < B) : 0 < storedLength L B n := by
  rw [storedLength]
  split_ifs <;> omega

/-- All bytes of the image are transferred: the last block is complete, or at most
    half of it is in the image, or its end overflows. -/
def Transfers (L B : ℕ) : Prop := L % B = 0 ∨ 2 * (L % B) ≤ B ∨ 2 ^ 31 ≤ blocks L B * B

instance (L B : ℕ) : Decidable (Transfers L B) := by unfold Transfers; infer_instance

/-- A block of the image that is not complete is the last one. -/
theorem last_block (hB : 0 < B) (hn : n < blocks L B) (h : L < (n + 1) * B) :
    L / B = n ∧ blocks L B = n + 1 ∧ L - n * B = L % B := by
  have hL := (lt_blocks_iff hB).1 hn
  have hq : L / B = n := Nat.div_eq_of_lt_le hL.le h
  have hN : ¬n + 1 < blocks L B := fun h' => by
    have := (lt_blocks_iff hB).1 h'
    omega
  have hmod := Nat.div_add_mod L B
  rw [hq, Nat.mul_comm] at hmod
  exact ⟨hq, by omega, by omega⟩

/-- All bytes of the block `n` that are in the image are transferred. -/
theorem inImage_le_storedLength (hB : 0 < B) (ht : Transfers L B) (hn : n < blocks L B) :
    inImage L B n ≤ storedLength L B n := by
  rw [inImage, storedLength]
  split_ifs with h
  · obtain ⟨hq, hN, hmod⟩ := last_block hB hn h.1
    rw [Transfers, hN] at ht
    have hmul : (n + 1) * B = n * B + B := Nat.succ_mul n B
    refine (min_le_right _ _).trans ?_
    omega
  · exact min_le_left _ _

/-- What is transferred for a block of the image. The end of the block only
    exceeds the length of the image when it does not overflow: a product that
    wraps loses at least `2 ^ 32`, more than a block. -/
theorem Shape.transferLength_eq {s : EvidenceStore} (h : Shape L B s) (hB : 0 < B)
    (hB' : B < 2 ^ 31) (hn : n < blocks L B) :
    s.transferLength n B = some (storedLength L B n) := by
  have hL := (lt_blocks_iff hB).1 hn
  have hend : s.blockEnd n = toInt ((n + 1) * B : ℕ) := by
    rw [blockEnd, toInt_toInt_mul, h.blockSize]
    push_cast
    rfl
  have hmul : (n + 1) * B = n * B + B := Nat.succ_mul n B
  rw [transferLength, hend, h.imageLength, storedLength]
  rcases toInt_eq_or_le (Int.natCast_nonneg ((n + 1) * B)) with ⟨hlt, heq⟩ | ⟨hge, hle⟩
  · rw [heq]
    by_cases hL' : L < (n + 1) * B
    · have hshort : L < (n + 1) * B ∧ (n + 1) * B < 2 ^ 31 := ⟨hL', by omega⟩
      rw [if_pos (by omega), toInt_eq_self (by omega) (by omega), if_pos hshort, if_pos (by omega),
        Option.some.injEq]
      omega
    · rw [if_neg (by omega), if_neg (by omega)]
  · rw [if_neg (by omega), if_neg (by omega)]

theorem Shape.position_eq {s : EvidenceStore} (h : Shape L B s) (n : ℕ) :
    s.position n = n * B := by
  rw [position, h.blockSize]

/-- All that a call of `storeBlock` with a block of the image can do. -/
theorem Shape.storeBlock_cases {s : EvidenceStore} (h : Shape L B s) (hB : 0 < B)
    (hB' : B < 2 ^ 31) (hn : n < blocks L B) (hb : b.length = B) (io : Io) (f : Files) :
    (∃ e, s.storeBlock io n b f = ⟨.error e, s, f⟩) ∨
    (∃ e, ∃ k ≤ storedLength L B n,
      s.storeBlock io n b f = ⟨.error e, s.cacheBlock n b, f.writeEvidence (n * B) b k⟩) ∨
    s.storeBlock io n b f =
      ⟨.ok (), (s.cacheBlock n b).setBit n, f.writeEvidence (n * B) b (storedLength L B n)⟩ := by
  have hk := h.transferLength_eq hB hB' hn
  rcases EvidenceStore.storeBlock_cases s io n b f with he | ⟨e, k, hle, he⟩ | ⟨k, hle, he⟩
  · exact .inl he
  · rw [hb, hk, Option.getD_some] at hle
    rw [h.position_eq] at he
    exact .inr (.inl ⟨e, k, hle, he⟩)
  · rw [hb, hk, Option.some.injEq] at hle
    rw [h.position_eq, ← hle] at he
    exact .inr (.inr he)

/-- Without a failing file operation, a block of the image is stored. -/
theorem Geometry.storeBlock_ok {s : EvidenceStore} (h : Geometry L B s) (hB : 0 < B)
    (hB' : B < 2 ^ 31) (hn : n < blocks L B) (hb : b.length = B) (f : Files) :
    s.storeBlock .ok n b f =
      ⟨.ok (), (s.cacheBlock n b).setBit n, f.writeEvidence (n * B) b (storedLength L B n)⟩ := by
  have hk : s.transferLength n b.length = some (storedLength L B n) := by
    rw [hb, h.transferLength_eq hB hB' hn]
  rw [EvidenceStore.storeBlock_ok h.evidenceOpen hk, h.position_eq]

/-- All that a call of `retrieveBlock` of a block of the image can do. -/
theorem Shape.retrieveBlock_cases {s : EvidenceStore} (h : Shape L B s) (hB : 0 < B)
    (hB' : B < 2 ^ 31) (hn : n < blocks L B) (io : Io) (f : Files) :
    (∃ e, s.retrieveBlock io n f = ⟨.error e, s, f⟩) ∨
    (∃ b, n ∈ s.bitmap ∧ s.cachedBlocks.lookup n = some b ∧
      s.retrieveBlock io n f = ⟨.ok b, s.touchBlock n, f⟩) ∨
    (n ∈ s.bitmap ∧ s.cachedBlocks.lookup n = none ∧
      n * B + storedLength L B n ≤ f.evidence.length ∧
      s.retrieveBlock io n f = ⟨.ok (f.evidence.read (n * B) (storedLength L B n) B),
        s.cacheBlock n (f.evidence.read (n * B) (storedLength L B n) B), f⟩) := by
  rcases EvidenceStore.retrieveBlock_cases s io n f with he | he | ⟨k, hn', hc, hk, hf, he⟩
  · exact .inl he
  · exact .inr (.inl he)
  · rw [h.blockSize, h.transferLength_eq hB hB' hn, Option.some.injEq] at hk
    rw [h.position_eq, ← hk] at hf he
    rw [h.blockSize] at he
    exact .inr (.inr ⟨hn', hc, hf, he⟩)

/-- The bytes transferred for different blocks are disjoint. -/
theorem slots_disjoint {k l : ℕ} (hk : k ≤ B) (hl : l ≤ B) (hmn : m ≠ n) :
    m * B + k ≤ n * B ∨ n * B + l ≤ m * B := by
  rcases Nat.lt_or_gt_of_ne hmn with h | h
  · have := Nat.mul_le_mul_right B h
    rw [Nat.succ_mul] at this
    exact .inl (by omega)
  · have := Nat.mul_le_mul_right B h
    rw [Nat.succ_mul] at this
    exact .inr (by omega)

end Session

end Raqet
