import Raqet.Evidence.Session

/-!
# Stores of a device

If all blocks that are stored are blocks of one device of content `D`, then what
counts as stored is there: in the evidence file and in the cache, as far as it is
in the image and is transferred (`Safe`). Writing a block of the device again,
complete or not, from whichever store on the same files, changes nothing.

The bitmap file never speaks of data that is not in the evidence file
(`Trusted`).
-/

namespace Raqet

open Java Buffer EvidenceStore

namespace Session

variable {L B n k : ℕ} {s : EvidenceStore} {f : Files} {b : Block} {D e e' : Buffer Byte}
  {marked marked' : ℕ → Prop}

/-- The block `n` of a device of content `D`. -/
def content (D : Buffer Byte) (B n : ℕ) : Block := D.slice (n * B) B

/-- The block `b` is the block `n` of the device, as far as it is in the image. -/
def Carries (L B : ℕ) (D : Buffer Byte) (n : ℕ) (b : Block) : Prop :=
  b.length = B ∧ AgreeOn (inImage L B n) b (content D B n)

/-- The number of bytes of the block `n` that are in the image and are transferred. -/
def keptLength (L B n : ℕ) : ℕ := min (inImage L B n) (storedLength L B n)

/-- The evidence file holds the marked blocks of the device, as far as they are in
    the image and are transferred. -/
def Covers (L B : ℕ) (D : Buffer Byte) (marked : ℕ → Prop) (evidence : Buffer Byte) : Prop :=
  ∀ n, marked n → evidence.HoldsAt (n * B) (content D B n) (keptLength L B n)

/-- What the evidence file `e` has of the blocks of the device, `e'` has, too. -/
def Keeps (L B : ℕ) (D e e' : Buffer Byte) : Prop :=
  ∀ n, e.HoldsAt (n * B) (content D B n) (keptLength L B n) →
    e'.HoldsAt (n * B) (content D B n) (keptLength L B n)

theorem keptLength_le_inImage : keptLength L B n ≤ inImage L B n := min_le_left _ _

theorem keptLength_le : keptLength L B n ≤ B := keptLength_le_inImage.trans (min_le_left _ _)

/-- Blocks that are wholly inside the image are kept completely. -/
theorem keptLength_of_le (h : (n + 1) * B ≤ L) : keptLength L B n = B := by
  rw [keptLength, inImage, storedLength, if_neg (by omega)]
  rw [Nat.succ_mul] at h
  omega

/-- Nothing is kept of a block past the image. -/
theorem keptLength_of_blocks_le (hB : 0 < B) (h : blocks L B ≤ n) : keptLength L B n = 0 := by
  have hL : ¬n * B < L := fun hlt => h.not_gt ((lt_blocks_iff hB).2 hlt)
  rw [keptLength, inImage]
  omega

/-! ## Writes -/

theorem Keeps.refl (e : Buffer Byte) : Keeps L B D e e := fun _ h => h

/-- A write of a block of the device, complete or not, keeps what is there. -/
theorem keeps_write (hb : Carries L B D n b) (hk : k ≤ B) :
    Keeps L B D e (e.write (n * B) b k) := by
  intro m hm
  by_cases hmn : m = n
  · subst hmn
    exact hm.write_of_agreeOn (hb.2.mono keptLength_le_inImage) k
  · exact hm.write_of_disjoint b (slots_disjoint keptLength_le hk hmn)

/-- The constructor, interrupted or not, keeps what is there. -/
theorem keeps_create (stop : OpenIo) (path : String) (l c : ℤ) :
    Keeps L B D f.evidence (create stop path l c f).2.evidence :=
  fun _ hm => holdsAt_create hm stop path l c

theorem Covers.keeps (h : Covers L B D marked e) (hk : Keeps L B D e e') : Covers L B D marked e' :=
  fun n hn => hk n (h n hn)

/-- A complete write of a block of the device makes it be there. -/
theorem Covers.write_insert (h : Covers L B D marked e) (hb : Carries L B D n b) (hk : k ≤ B)
    (hfull : keptLength L B n ≤ k) :
    Covers L B D (fun m => m = n ∨ marked m) (e.write (n * B) b k) := by
  rintro m (rfl | hm)
  · exact ((HoldsAt.write_self _ _ _ _).mono hfull).congr (hb.2.mono keptLength_le_inImage)
  · exact h.keeps (keeps_write hb hk) m hm

theorem Covers.mono (h : Covers L B D marked e) (hm : ∀ n, marked' n → marked n) :
    Covers L B D marked' e := fun n hn => h n (hm n hn)

/-- Of a block of the image, at least what is kept is transferred. -/
theorem Shape.keptLength_le_transferLength (h : Shape L B s) (hB : 0 < B) (hB' : B < 2 ^ 31)
    (hk : s.transferLength n B = some k) : keptLength L B n ≤ k := by
  by_cases hn : n < blocks L B
  · rw [h.transferLength_eq hB hB' hn, Option.some.injEq] at hk
    exact (min_le_right _ _).trans hk.le
  · rw [keptLength_of_blocks_le hB (not_lt.1 hn)]
    exact Nat.zero_le k

/-- Storing a block writes at its position, and not more than a block. -/
theorem Shape.files_storeBlock (h : Shape L B s) (hb : b.length = B) (io : Io) (f : Files) :
    ∃ k ≤ B, (s.storeBlock io n b f).files = f.writeEvidence (n * B) b k := by
  rcases EvidenceStore.storeBlock_cases s io n b f with ⟨e, he⟩ | ⟨e, k, hk, he⟩ | ⟨k, hk, he⟩ <;>
    rw [he]
  · exact ⟨0, Nat.zero_le B, writeEvidence_zero.symm⟩
  · rw [h.position_eq]
    refine ⟨k, ?_, rfl⟩
    cases htl : s.transferLength n b.length with
    | none =>
      rw [htl] at hk
      exact hk.trans (Nat.zero_le B)
    | some j =>
      rw [htl] at hk
      exact hk.trans ((transferLength_le htl).trans_eq hb)
  · rw [h.position_eq]
    exact ⟨k, (transferLength_le hk).trans_eq hb, rfl⟩

/-! ## The invariant of a store -/

/-- The data of the blocks that count as stored is in the evidence file, and what
    is in the cache is data of the device. -/
structure Safe (L B : ℕ) (D : Buffer Byte) (s : EvidenceStore) (evidence : Buffer Byte) : Prop where
  shape : Shape L B s
  memory : Covers L B D (· ∈ s.bitmap) evidence
  cached : ∀ n b, s.cachedBlocks.lookup n = some b →
    b.length = B ∧ AgreeOn (keptLength L B n) b (content D B n)

/-- Another store on the same files, or this one, changes the evidence file. -/
theorem Safe.keeps (h : Safe L B D s e) (hk : Keeps L B D e e') : Safe L B D s e' :=
  ⟨h.shape, h.memory.keeps hk, h.cached⟩

/-- A store that differs in its counter and its open files only. -/
theorem Safe.congr {s' : EvidenceStore} (h : Safe L B D s e) (hs : Shape L B s')
    (hbits : s'.bitmap = s.bitmap) (hc : s'.cachedBlocks = s.cachedBlocks) : Safe L B D s' e :=
  ⟨hs, hbits ▸ h.memory, fun n b hb => h.cached n b (hc ▸ hb)⟩

/-- A block of the device is put in the cache. -/
theorem Safe.cacheBlock (h : Safe L B D s e) (hb : b.length = B)
    (hagree : AgreeOn (keptLength L B n) b (content D B n)) : Safe L B D (s.cacheBlock n b) e := by
  refine ⟨h.shape.congr rfl rfl rfl, h.memory, fun m c hc => ?_⟩
  rcases lookup_cacheBlock hc with ⟨rfl, rfl⟩ | ⟨-, hc⟩
  exacts [⟨hb, hagree⟩, h.cached m c hc]

/-- Storing a block of the device. -/
theorem Safe.storeBlock (h : Safe L B D s f.evidence) (hB : 0 < B) (hB' : B < 2 ^ 31)
    (hb : Carries L B D n b) (io : Io) :
    Safe L B D (s.storeBlock io n b f).store (s.storeBlock io n b f).files.evidence := by
  have hcache := h.cacheBlock (n := n) hb.1 (hb.2.mono keptLength_le_inImage)
  obtain ⟨j, hj, hfiles⟩ := h.shape.files_storeBlock (n := n) hb.1 io f
  rcases EvidenceStore.storeBlock_cases s io n b f with ⟨e, he⟩ | ⟨e, k, -, he⟩ | ⟨k, hk, he⟩
  · rw [he]
    exact h
  · rw [hfiles, he]
    exact hcache.keeps (keeps_write hb hj)
  · have hkB : k ≤ B := (transferLength_le hk).trans_eq hb.1
    rw [hb.1] at hk
    rw [he, h.shape.position_eq]
    refine ⟨h.shape.congr rfl rfl rfl, ?_, hcache.cached⟩
    refine (h.memory.write_insert hb hkB (h.shape.keptLength_le_transferLength hB hB' hk)).mono ?_
    exact fun m hm => Finset.mem_insert.1 hm

/-- What is read of a stored block from the evidence file. -/
theorem Safe.agreeOn_read (h : Safe L B D s e) (hB : 0 < B) (hB' : B < 2 ^ 31) (hn : n ∈ s.bitmap)
    (hk : s.transferLength n s.blockSize = some k) :
    AgreeOn (keptLength L B n) (e.read (s.position n) k s.blockSize) (content D B n) := by
  rw [h.shape.blockSize] at hk ⊢
  have hread := (h.memory n hn).read (transferLength_le hk)
  rw [min_eq_left (h.shape.keptLength_le_transferLength hB hB' hk)] at hread
  rwa [h.shape.position_eq]

/-- Looking up a block. -/
theorem Safe.retrieveBlock (h : Safe L B D s f.evidence) (hB : 0 < B) (hB' : B < 2 ^ 31) (io : Io)
    (n : ℕ) : Safe L B D (s.retrieveBlock io n f).store f.evidence := by
  rcases EvidenceStore.retrieveBlock_cases s io n f with ⟨e, he⟩ | ⟨b, -, -, he⟩ |
    ⟨k, hn, -, hk, -, he⟩ <;> rw [he]
  · exact h
  · exact ⟨h.shape.congr rfl rfl rfl, h.memory, fun m c hc => h.cached m c (by simpa using hc)⟩
  · exact h.cacheBlock h.shape.blockSize (h.agreeOn_read hB hB' hn hk)

/-- What is looked up is data of the device. -/
theorem Safe.value_retrieveBlock (h : Safe L B D s f.evidence) (hB : 0 < B) (hB' : B < 2 ^ 31)
    {io : Io} (hv : (s.retrieveBlock io n f).value = .ok b) :
    b.length = B ∧ AgreeOn (keptLength L B n) b (content D B n) ∧ (n : ℤ) < countBlocks L B := by
  have hlt : (n : ℤ) < countBlocks L B := by
    rw [← h.shape.blockCount]
    by_contra hle
    rw [EvidenceStore.retrieveBlock, if_pos (not_lt.1 hle)] at hv
    cases hv
  rcases EvidenceStore.retrieveBlock_cases s io n f with ⟨e, he⟩ | ⟨c, -, hc, he⟩ |
    ⟨k, hn, -, hk, -, he⟩ <;> rw [he] at hv <;> cases hv
  · exact ⟨(h.cached n _ hc).1, (h.cached n _ hc).2, hlt⟩
  · exact ⟨h.shape.blockSize, h.agreeOn_read hB hB' hn hk, hlt⟩

/-! ## The invariant of the files -/

/-- The evidence file holds the blocks that are marked in the bitmap file. -/
def Trusted (L B : ℕ) (D : Buffer Byte) (f : Files) : Prop :=
  Covers L B D (fun n => BitSet.bit f.bitmap n = true) f.evidence

theorem Trusted.storeBlock (h : Trusted L B D f) (hs : Shape L B s) (hb : Carries L B D n b)
    (io : Io) : Trusted L B D (s.storeBlock io n b f).files := by
  obtain ⟨k, hk, hfiles⟩ := hs.files_storeBlock (n := n) hb.1 io f
  rw [hfiles]
  exact h.keeps (keeps_write hb hk)

/-- A flush, complete or not, only writes bits whose data is there. -/
theorem Trusted.synctodisk (h : Trusted L B D f) (hs : Safe L B D s f.evidence) (io : Io) :
    Trusted L B D (s.synctodisk io f).2 := by
  have hwrite : ∀ k, Trusted L B D (f.writeBitmap (BitSet.toByteArray s.bitmap) k) := by
    intro k n hn
    rw [bitmap_writeBitmap, BitSet.bit_write_toByteArray] at hn
    split_ifs at hn with hk
    exacts [hs.memory n (of_decide_eq_true hn), h n hn]
  rcases synctodisk_cases s io f with ⟨e, k, -, he⟩ | he <;> rw [he] <;> exact hwrite _

/-- The constructor, interrupted or not, sets no bit and keeps the data. -/
theorem Trusted.create (h : Trusted L B D f) (stop : OpenIo) (path : String) (l b : ℤ) :
    Trusted L B D (create stop path l b f).2 := by
  intro n hn
  rw [bit_create] at hn
  exact holdsAt_create (h n hn) stop path l b

/-- A new store on trusted files is safe. -/
theorem Trusted.safe_opened {path : String} (h : Trusted L B D f) (ho : Opens L B) :
    Safe L B D (opened path L B (extend L B f)) (extend L B f).evidence := by
  have hf := h.create .ok path L B
  rw [create_ok ho] at hf
  refine ⟨⟨rfl, rfl, rfl⟩, hf.mono fun n hn => (mem_bitmap_opened.1 hn).2, fun n b hb => ?_⟩
  cases hb

/-- Files without bits are trusted. -/
theorem trusted_of_length_eq_zero (h : f.bitmap.length = 0) : Trusted L B D f := by
  intro n hn
  rw [BitSet.bit_of_length_le (by omega)] at hn
  cases hn

end Session

end Raqet
