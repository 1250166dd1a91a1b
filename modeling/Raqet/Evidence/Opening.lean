import Raqet.Evidence.Store

/-!
# Opening an evidence store

The constructor works on whatever files it finds. It extends the evidence file
with zeros to the length of the image, and the bitmap file to one bit for each
block, and takes the bits of the bitmap file as they are.

* `create_ok` and `create_eq_ok`: when the constructor succeeds, and with what;
* `mem_bitmap_opened`: the bits of the new object are those of the bitmap file
  as found, as far as it is read;
* `opensCovered_iff`: a bit is trusted although its data is missing exactly when
  the evidence file is too short and a bit beyond its last complete block is
  set.
-/

namespace Raqet

open Java

/-- The number of blocks of `B` bytes that hold an image of `L` bytes, `⌈L / B⌉`. -/
def blocks (L B : ℕ) : ℕ := (L + B - 1) / B

theorem lt_blocks_iff {L B n : ℕ} (hB : 0 < B) : n < blocks L B ↔ n * B < L := by
  rw [blocks, Nat.lt_div_iff_mul_lt hB]
  omega

namespace EvidenceStore

variable {path : String} {L B n : ℕ} {f f' : Files} {s : EvidenceStore} {io : OpenIo}

/-- The size in bytes of the bitmap of a store of this geometry. -/
def bitmapBytes (L B : ℕ) : ℕ := (bitmapSize (countBlocks L B)).toNat

/-- The files after the constructor extended them. -/
def extend (L B : ℕ) (f : Files) : Files :=
  extendBitmap (bitmapBytes L B) (bitmapBytes L B) (extendEvidence L f)

/-- The constructor accepts this geometry: the array of the bitmap can be allocated. -/
def Opens (L B : ℕ) : Prop := 0 < B ∧ 0 ≤ bitmapSize (countBlocks L B)

/-- The number of blocks is reduced to an `int`. -/
theorem countBlocks_eq_toInt (hL : L + B ≤ 2 ^ 63) : countBlocks L B = toInt (blocks L B) := by
  have hlong : toLong ((L : ℤ) + B - 1) = (L : ℤ) + B - 1 := toLong_eq_self (by omega) (by omega)
  rcases Nat.eq_zero_or_pos (L + B) with h | h
  · obtain ⟨rfl, rfl⟩ := Nat.add_eq_zero_iff.1 h
    rw [countBlocks, hlong]
    rfl
  · have hcast : (L : ℤ) + B - 1 = ((L + B - 1 : ℕ) : ℤ) := by omega
    rw [countBlocks, hlong, hcast, Int.tdiv_eq_ediv_of_nonneg (Int.natCast_nonneg _),
      ← Int.natCast_ediv]
    rfl

theorem length_le_of_blocks_lt {N : ℕ} (hB : 0 < B) (hB' : B < 2 ^ 31) (hN : blocks L B < N) :
    L + B ≤ N * 2 ^ 31 := by
  rw [blocks, Nat.div_lt_iff_lt_mul hB] at hN
  have hmul : N * B ≤ N * 2 ^ 31 := Nat.mul_le_mul_left N hB'.le
  omega

/-- The number of blocks is computed without overflow if it is an `int`. -/
theorem countBlocks_eq (hB : 0 < B) (hB' : B < 2 ^ 31) (hN : blocks L B < 2 ^ 31) :
    countBlocks L B = blocks L B := by
  have hle := length_le_of_blocks_lt hB hB' hN
  rw [countBlocks_eq_toInt (by omega), toInt_eq_self] <;> omega

/-- There is no array for the bits of `2 ^ 31` blocks. -/
theorem Opens.blocks_ne (h : Opens L B) (hB' : B < 2 ^ 31) : blocks L B ≠ 2 ^ 31 := by
  intro hN
  have hle : L + B ≤ (2 ^ 31 + 1) * 2 ^ 31 := length_le_of_blocks_lt h.1 hB' (by omega)
  have hs := h.2
  rw [bitmapSize, countBlocks_eq_toInt (by omega), hN] at hs
  exact absurd hs (by decide)

/-- A number below the computed number of blocks is the number of a block. -/
theorem lt_blocks_of_lt_countBlocks (hB : 0 < B) (hB' : B < 2 ^ 31)
    (h : (n : ℤ) < countBlocks L B) : n < blocks L B := by
  by_cases hN : blocks L B < 2 ^ 31
  · rw [countBlocks_eq hB hB' hN] at h
    exact_mod_cast h
  · have hlt : countBlocks L B < 2 ^ 31 := toInt_lt _
    omega

/-- There is room in the bitmap for all blocks, if they are counted by an `int`. -/
theorem blocks_le_bitmapBytes (h : Opens L B) (hB' : B < 2 ^ 31) (hN : blocks L B < 2 ^ 31) :
    blocks L B ≤ 8 * bitmapBytes L B := by
  have hs := h.2
  rw [bitmapBytes]
  rw [bitmapSize, countBlocks_eq h.1 hB' hN] at hs ⊢
  rcases toInt_eq_or_le (x := (blocks L B : ℤ) + 7) (by omega) with ⟨_, heq⟩ | ⟨_, hle⟩
  · rw [heq, Int.tdiv_eq_ediv_of_nonneg (by omega)]
    omega
  · rw [Int.tdiv_eq_ediv, show Int.sign 8 = 1 from rfl] at hs
    split_ifs at hs <;> omega

/-- The bits that there is room for are numbered by an `int`. -/
theorem bitmapBytes_lt : 8 * bitmapBytes L B < 2 ^ 31 := by
  have hlt := toInt_lt (countBlocks L B + 7)
  rw [bitmapBytes, bitmapSize, Int.tdiv_eq_ediv, show Int.sign 8 = 1 from rfl]
  split_ifs <;> omega

theorem create_ok (h : Opens L B) :
    create .ok path L B f = (.ok (opened path L B (extend L B f)), extend L B f) := by
  obtain ⟨hB, hs⟩ := h
  rw [create, if_neg (by omega), if_neg (by omega), if_neg (by decide), if_neg (by omega),
    if_neg (by decide)]
  dsimp only
  rw [if_neg (by omega)]
  rfl

/-- A successful construction. -/
theorem create_eq_ok (h : create io path L B f = (.ok s, f')) :
    Opens L B ∧ s = opened path L B (extend L B f) ∧ f' = extend L B f := by
  rw [create, if_neg (by omega), if_neg (by omega)] at h
  by_cases h₁ : io = .openFails
  · rw [if_pos h₁] at h
    cases h
  by_cases h₂ : (B : ℤ) = 0
  · rw [if_neg h₁, if_pos h₂] at h
    cases h
  by_cases h₃ : io = .extendFails
  · rw [if_neg h₁, if_neg h₂, if_pos h₃] at h
    cases h
  rw [if_neg h₁, if_neg h₂, if_neg h₃] at h
  dsimp only at h
  by_cases h₄ : bitmapSize (countBlocks L B) < 0
  · rw [if_pos h₄] at h
    cases h
  rw [if_neg h₄] at h
  cases io with
  | ok =>
    cases h
    exact ⟨⟨by omega, by omega⟩, rfl, rfl⟩
  | openFails => exact absurd rfl h₁
  | extendFails => exact absurd rfl h₃
  | bitmapFails k => cases h
  | readFails => cases h

/-- The object that a construction gives, whatever the arguments. -/
theorem eq_opened_of_create {length blockSize : ℤ}
    (h : create io path length blockSize f = (.ok s, f')) :
    s = opened path length blockSize f' := by
  rw [create] at h
  split_ifs at h with h₁ h₂ h₃ h₄ h₅
  any_goals cases h
  dsimp only at h
  split_ifs at h with h₆
  · cases h
  cases io with
  | ok =>
    cases h
    rfl
  | openFails => exact absurd rfl h₃
  | extendFails => exact absurd rfl h₅
  | bitmapFails k => cases h
  | readFails => cases h

/-! ## The files -/

@[simp] theorem bitmap_ofFound (e b : Option (Buffer Byte)) :
    (Files.ofFound e b).bitmap = openRw b := rfl

@[simp] theorem bitmap_extendEvidence (l : ℤ) (f : Files) :
    (extendEvidence l f).bitmap = f.bitmap := by
  rw [extendEvidence]
  split_ifs <;> rfl

@[simp] theorem evidence_extendBitmap (m k : ℕ) (f : Files) :
    (extendBitmap m k f).evidence = f.evidence := by
  rw [extendBitmap]
  split_ifs <;> rfl

theorem length_evidence_extend : (extend L B f).evidence.length = max f.evidence.length L := by
  rw [extend, evidence_extendBitmap, extendEvidence]
  split_ifs with h
  · rw [Buffer.length_setLength, Int.toNat_natCast, max_eq_right (by omega)]
  · rw [max_eq_left (by omega)]

theorem holdsAt_extendEvidence {p k : ℕ} {b : Block} (h : f.evidence.HoldsAt p b k) (l : ℤ) :
    (extendEvidence l f).evidence.HoldsAt p b k := by
  rw [extendEvidence]
  split_ifs with hlt
  · exact h.setLength (by omega)
  · exact h

/-- Extending the files keeps what the evidence file holds. -/
theorem holdsAt_extend {p k : ℕ} {b : Block} (h : f.evidence.HoldsAt p b k) :
    (extend L B f).evidence.HoldsAt p b k := by
  rw [extend, evidence_extendBitmap]
  exact holdsAt_extendEvidence h L

/-- Extending the bitmap file sets no bit. -/
theorem bit_extendBitmap (m k n : ℕ) (f : Files) :
    BitSet.bit (extendBitmap m k f).bitmap n = BitSet.bit f.bitmap n := by
  rw [extendBitmap]
  split_ifs with h
  · rw [BitSet.bit, BitSet.bit, Buffer.get_write_length_zeros]
  · rfl

theorem bit_extend : BitSet.bit (extend L B f).bitmap n = BitSet.bit f.bitmap n := by
  rw [extend, bit_extendBitmap, bitmap_extendEvidence]

/-- Wherever the constructor stops, it has extended none, one or both of the files,
    the second one maybe in part. -/
theorem files_create_cases (io : OpenIo) (path : String) (l b : ℤ) (f : Files) :
    (create io path l b f).2 = f ∨ (create io path l b f).2 = extendEvidence l f ∨
      ∃ m k, (create io path l b f).2 = extendBitmap m k (extendEvidence l f) := by
  rw [create]
  by_cases h₁ : l < 0
  · exact .inl (by rw [if_pos h₁])
  by_cases h₂ : b < 0
  · exact .inl (by rw [if_neg h₁, if_pos h₂])
  by_cases h₃ : io = .openFails
  · exact .inl (by rw [if_neg h₁, if_neg h₂, if_pos h₃])
  by_cases h₄ : b = 0
  · exact .inl (by rw [if_neg h₁, if_neg h₂, if_neg h₃, if_pos h₄])
  by_cases h₅ : io = .extendFails
  · exact .inl (by rw [if_neg h₁, if_neg h₂, if_neg h₃, if_neg h₄, if_pos h₅])
  rw [if_neg h₁, if_neg h₂, if_neg h₃, if_neg h₄, if_neg h₅]
  dsimp only
  by_cases h₆ : bitmapSize (countBlocks l b) < 0
  · exact .inr (.inl (by rw [if_pos h₆]))
  · rw [if_neg h₆]
    cases io <;> exact .inr (.inr ⟨_, _, rfl⟩)

/-- Wherever the constructor stops, the evidence file holds what it held. -/
theorem holdsAt_create {p k : ℕ} {b : Block} (h : f.evidence.HoldsAt p b k) (io : OpenIo)
    (path : String) (l c : ℤ) : (create io path l c f).2.evidence.HoldsAt p b k := by
  rcases files_create_cases io path l c f with he | he | ⟨m, j, he⟩ <;> rw [he]
  · exact h
  · exact holdsAt_extendEvidence h l
  · rw [evidence_extendBitmap]
    exact holdsAt_extendEvidence h l

/-- Wherever the constructor stops, it has set no bit in the bitmap file. -/
theorem bit_create (io : OpenIo) (path : String) (l b : ℤ) :
    BitSet.bit (create io path l b f).2.bitmap n = BitSet.bit f.bitmap n := by
  rcases files_create_cases io path l b f with he | he | ⟨m, k, he⟩ <;> rw [he]
  · rw [bitmap_extendEvidence]
  · rw [bit_extendBitmap, bitmap_extendEvidence]

/-- The bits of the new object are those of the bitmap file, as far as it is read. -/
theorem mem_bitmap_opened :
    n ∈ (opened path L B f).bitmap ↔ n < 8 * bitmapBytes L B ∧ BitSet.bit f.bitmap n = true := by
  simp only [opened, BitSet.mem_valueOf, BitSet.bit]
  change ((f.bitmap.read 0 (bitmapBytes L B) (bitmapBytes L B)).get (n / 8)).getLsbD (n % 8) =
    true ↔ _
  rw [Buffer.get_read _ le_rfl, Nat.zero_add]
  split_ifs with h
  · exact (and_iff_right (by omega)).symm
  · rw [iff_false_intro (show ¬n < 8 * bitmapBytes L B by omega)]
    simp

theorem containsBlock_iff : s.containsBlock n = true ↔ n ∈ s.bitmap := decide_eq_true_iff

/-! ## Trusted bits -/

/-- Every construction over the files found trusts only bits of blocks whose
    range in the image the evidence file, as found, covers. -/
def OpensCovered (path : String) (L B : ℕ) (evidence bitmap : Option (Buffer Byte)) : Prop :=
  ∀ io s f, create io path L B (Files.ofFound evidence bitmap) = (.ok s, f) →
    ∀ n < blocks L B, s.containsBlock n = true → min ((n + 1) * B) L ≤ (openRw evidence).length

/-- Bits are trusted although their data is missing exactly when the evidence
    file found is shorter than the image and the part of the bitmap file that is
    read has a bit set for a block of the image past the last one that the
    evidence file holds completely. -/
theorem opensCovered_iff (path : String) (L B : ℕ) (evidence bitmap : Option (Buffer Byte)) :
    OpensCovered path L B evidence bitmap ↔
      L ≤ (openRw evidence).length ∨
        ∀ n, (openRw evidence).length / B ≤ n → n < blocks L B → n < 8 * bitmapBytes L B →
          BitSet.bit (openRw bitmap) n = false := by
  constructor
  · intro h
    by_contra hc
    push Not at hc
    obtain ⟨hE, n, hn, hL, hm, hbit⟩ := hc
    have ho : Opens L B := by
      refine ⟨Nat.pos_of_ne_zero ?_, ?_⟩
      · rintro rfl
        simp [blocks] at hL
      · by_contra hs
        rw [bitmapBytes, Int.toNat_of_nonpos (by omega)] at hm
        omega
    -- The bit is set, so the construction trusts it.
    have hs := h .ok _ _ (create_ok ho) n hL
      (containsBlock_iff.2 (mem_bitmap_opened.2 ⟨hm, by rw [bit_extend]; simpa using hbit⟩))
    have hle : (n + 1) * B ≤ (openRw evidence).length := by omega
    have := (Nat.le_div_iff_mul_le ho.1).2 hle
    omega
  · intro h io s f hc n hn hs
    obtain ⟨ho, rfl, -⟩ := create_eq_ok hc
    obtain ⟨hm, hbit⟩ := mem_bitmap_opened.1 (containsBlock_iff.1 hs)
    rw [bit_extend, bitmap_ofFound] at hbit
    rcases h with hE | h
    · exact (min_le_right _ _).trans hE
    · by_cases hlt : (openRw evidence).length / B ≤ n
      · rw [h n hlt hn hm] at hbit
        cases hbit
      · exact (min_le_left _ _).trans ((Nat.le_div_iff_mul_le ho.1).1 (not_le.1 hlt))

/-- A bitmap file left without its evidence file: block `0` counts as acquired. -/
theorem not_opensCovered_missing :
    ¬OpensCovered "disk.dd" 65536 65536 none (some (.ofFn 1 fun _ => 1)) := by
  intro h
  have ho : Opens 65536 65536 := by constructor <;> decide
  have := h .ok _ _ (create_ok ho) 0 (by decide)
    (containsBlock_iff.2 (mem_bitmap_opened.2 ⟨by decide, by rw [bit_extend]; decide⟩))
  exact absurd this (by decide)

end EvidenceStore

end Raqet
