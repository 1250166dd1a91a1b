import Mathlib.Data.Int.ConditionallyCompleteOrder
import Mathlib.Order.CompletePartialOrder
import Mathlib.Order.Interval.Set.Basic
import Raqet.IScsi.BlockReader

/-!
# The requests of a disk

The requests for the blocks of a disk should be for disjoint ranges of sectors
that together make up the disk (`Tiles`). The number of the first sector of a
block is a product of two `int`s, which overflows from `2 ^ 31` sectors on: the
blocks that begin there cannot be requested (`tiles_iff`).
-/

namespace Raqet

open Java EvidenceStore

/-- The sectors a command asks for. -/
def Read10.sectors (c : Read10) : Set ℤ := Set.Ico c.firstSector (c.firstSector + c.sectorCount)

namespace ReadGeometry

variable {lastLBA s B n : ℕ}

/-- The geometry of a disk whose last sector has the number `lastLBA`, with sectors
    of `s` bytes, read in blocks of `B` bytes. -/
def ofDisk (lastLBA s B : ℕ) : ReadGeometry where
  readBlockSize := B
  iScsiBlockSize := s
  maxLogicalBlockAddress := lastLBA + 1
  iScsiBlocksPerReadRequest := (B / s : ℕ)
  totalBlockCount := blocks ((lastLBA + 1) * s) B

/-- A disk and a block size that the constructor of the reader accepts. -/
structure ValidDisk (lastLBA s B : ℕ) : Prop where
  lastLBA_lt : lastLBA < 2 ^ 32
  pos : 0 < s
  dvd : s ∣ B
  blockSize_pos : 0 < B
  blockSize_lt : B < 2 ^ 31

/-- Such a disk with a number of blocks that is an `int`. -/
structure Accepted (lastLBA s B : ℕ) : Prop extends ValidDisk lastLBA s B where
  blocks_lt : blocks ((lastLBA + 1) * s) B < 2 ^ 31

theorem ValidDisk.mul_div (h : ValidDisk lastLBA s B) : B / s * s = B := Nat.div_mul_cancel h.dvd

theorem ValidDisk.div_pos (h : ValidDisk lastLBA s B) : 0 < B / s :=
  Nat.div_pos (Nat.le_of_dvd h.blockSize_pos h.dvd) h.pos

theorem ValidDisk.length_le (h : ValidDisk lastLBA s B) : (lastLBA + 1) * s ≤ 2 ^ 32 * B :=
  Nat.mul_le_mul h.lastLBA_lt (Nat.le_of_dvd h.blockSize_pos h.dvd)

theorem ValidDisk.toLong_length (h : ValidDisk lastLBA s B) :
    toLong (((lastLBA : ℤ) + 1) * s) = ((lastLBA + 1) * s : ℕ) := by
  have hle := h.length_le
  have hB := h.blockSize_lt
  have heq : ((lastLBA : ℤ) + 1) * s = ((lastLBA + 1) * s : ℕ) := by push_cast; rfl
  rw [heq, toLong_eq_self] <;> omega

/-- What the constructor makes of a disk: it may count its blocks wrongly. -/
theorem create_eq (h : ValidDisk lastLBA s B) :
    create ⟨lastLBA, s⟩ B = .ok { ofDisk lastLBA s B with
      totalBlockCount := countBlocks ((lastLBA + 1) * s : ℕ) B } := by
  obtain ⟨hlba, hs, hd, hB, hB'⟩ := id h
  have hper : (B : ℤ).tdiv s = (B / s : ℕ) := by
    rw [Int.tdiv_eq_ediv_of_nonneg (by omega), Int.natCast_ediv]
  have hmul : toInt ((B / s : ℕ) * s) = B := by
    rw [← Int.natCast_mul, h.mul_div, toInt_eq_self] <;> omega
  have hmax : toLong ((lastLBA : ℤ) + 1) = lastLBA + 1 := toLong_eq_self (by omega) (by omega)
  rw [create, argNotNegative_ok (by omega)]
  change (if (s : ℤ) = 0 then _ else if toInt ((B : ℤ).tdiv s * s) ≠ B then _ else
    if (B : ℤ) = 0 then _ else _) = _
  rw [hper, if_neg (by omega), if_neg (not_not.2 hmul), if_neg (by omega), h.toLong_length, hmax]
  rfl

theorem create_ok (h : Accepted lastLBA s B) :
    create ⟨lastLBA, s⟩ B = .ok (ofDisk lastLBA s B) := by
  rw [create_eq h.toValidDisk, countBlocks_eq h.blockSize_pos h.blockSize_lt h.blocks_lt]
  rfl

/-- The first sector of a block of the disk is on the disk. -/
theorem ValidDisk.lt_blocks_iff (h : ValidDisk lastLBA s B) :
    n < blocks ((lastLBA + 1) * s) B ↔ n * (B / s) ≤ lastLBA := by
  rw [Raqet.lt_blocks_iff h.blockSize_pos]
  conv_lhs => rw [← h.mul_div, ← Nat.mul_assoc]
  rw [Nat.mul_lt_mul_right h.pos, Nat.lt_succ_iff]

/-- The request for the block `n` is sent, and for the right sectors. -/
def Exact (lastLBA s B n : ℕ) (c : Read10) : Prop :=
  (ofDisk lastLBA s B).read10 n none = .ok c ∧ c.firstSector = (n * (B / s) : ℕ) ∧
    c.sectorCount = (min (B / s) (lastLBA + 1 - n * (B / s)) : ℕ) ∧ 1 ≤ c.sectorCount

/-- The requests for all blocks are sent, for disjoint ranges of sectors that make
    up the disk. -/
def Tiles (lastLBA s B : ℕ) : Prop :=
  create ⟨lastLBA, s⟩ B = .ok (ofDisk lastLBA s B) ∧
    ∃ commands : ℕ → Read10,
      (∀ n < blocks ((lastLBA + 1) * s) B, Exact lastLBA s B n (commands n)) ∧
      (∀ m < blocks ((lastLBA + 1) * s) B, ∀ n < blocks ((lastLBA + 1) * s) B, m ≠ n →
        Disjoint (commands m).sectors (commands n).sectors) ∧
      ∀ x, (∃ n < blocks ((lastLBA + 1) * s) B, x ∈ (commands n).sectors) ↔ 0 ≤ x ∧ x ≤ lastLBA

/-- The command for a block whose first sector is an `int`. -/
theorem exact_of_lt (h : ValidDisk lastLBA s B) (hn : n < blocks ((lastLBA + 1) * s) B)
    (hlt : n * (B / s) < 2 ^ 31) : ∃ c, Exact lastLBA s B n c := by
  set first := n * (B / s) with hfirst
  set count := min (B / s) (lastLBA + 1 - first) with hcount
  have hle : first ≤ lastLBA := h.lt_blocks_iff.1 hn
  have hpos : 1 ≤ count := le_min h.div_pos (by omega)
  have hdata : count * s ≤ B := by
    calc count * s ≤ B / s * s := Nat.mul_le_mul_right s (min_le_left _ _)
      _ = B := h.mul_div
  have hcs : count ≤ count * s := Nat.le_mul_of_pos_right count h.pos
  have hB' := h.blockSize_lt
  have hlba := h.lastLBA_lt
  -- no narrowing changes a number
  have hint : toInt ((n : ℤ) * (B / s : ℕ)) = first := by
    rw [← Int.natCast_mul, toInt_eq_self] <;> omega
  have hmin : toInt (min ((B / s : ℕ) : ℤ) (toLong ((lastLBA : ℤ) + 1 - first))) = count := by
    have : min ((B / s : ℕ) : ℤ) ((lastLBA : ℤ) + 1 - first) = count := by omega
    rw [toLong_eq_self (by omega) (by omega), this, toInt_eq_self] <;> omega
  have hlen : toInt ((count : ℤ) * s) = (count * s : ℕ) := by
    rw [← Int.natCast_mul, toInt_eq_self] <;> omega
  refine ⟨⟨first, (count * s : ℕ), s⟩, ?_, ?_, ?_, ?_⟩
  · simp only [read10, ofDisk, hint, hmin]
    refine IScsiLogicalUnit.read_eq_ok.2 ⟨by omega, by omega, ⟨le_rfl, ?_⟩, ?_, ?_, rfl, ?_⟩
    · exact_mod_cast h.blockSize_pos
    · exact_mod_cast h.pos
    · rw [hlen]
      omega
    · rw [hlen, toInt_eq_self] <;> omega
  · change (first : ℤ) % 2 ^ 32 = first
    omega
  · rw [Read10.sectorCount, ← Int.natCast_ediv, Nat.mul_div_cancel _ h.pos]
  · rw [Read10.sectorCount, ← Int.natCast_ediv, Nat.mul_div_cancel _ h.pos]
    exact_mod_cast hpos

/-- The number of the first sector is negative where it overflows. -/
theorem lt_of_read10 (h : ValidDisk lastLBA s B) (hn : n < blocks ((lastLBA + 1) * s) B)
    {c : Read10} (hc : (ofDisk lastLBA s B).read10 n none = .ok c) : n * (B / s) < 2 ^ 31 := by
  have hle : n * (B / s) ≤ lastLBA := h.lt_blocks_iff.1 hn
  have hlba := h.lastLBA_lt
  simp only [read10, ofDisk] at hc
  have hpos := (IScsiLogicalUnit.read_eq_ok.1 hc).1
  rw [← Int.natCast_mul] at hpos
  rcases toInt_eq_or_le (Int.natCast_nonneg (n * (B / s))) with ⟨hlt, heq⟩ | ⟨hge, hneg⟩ <;> omega

/-- A request for a block of the disk that is sent is right. -/
theorem exact_of_read10 (h : ValidDisk lastLBA s B) (hn : n < blocks ((lastLBA + 1) * s) B)
    {c : Read10} (hc : (ofDisk lastLBA s B).read10 n none = .ok c) : Exact lastLBA s B n c := by
  obtain ⟨c', hc'⟩ := exact_of_lt h hn (lt_of_read10 h hn hc)
  obtain rfl : c = c' := Except.ok.inj (hc.symm.trans hc'.1)
  exact hc'

/-- The ranges of two blocks are disjoint. -/
theorem Exact.disjoint {m : ℕ} {c d : Read10} (hc : Exact lastLBA s B m c)
    (hd : Exact lastLBA s B n d) (hmn : m ≠ n) : Disjoint c.sectors d.sectors := by
  have key := Session.slots_disjoint (B := B / s) (min_le_left (B / s) (lastLBA + 1 - m * (B / s)))
    (min_le_left (B / s) (lastLBA + 1 - n * (B / s))) hmn
  rw [Read10.sectors, Read10.sectors, hc.2.1, hc.2.2.1, hd.2.1, hd.2.2.1, Set.disjoint_left]
  rintro x ⟨h₁, h₂⟩ ⟨h₃, h₄⟩
  omega

/-- If all requests are sent, they make up the disk. -/
theorem tiles_of_exact (h : Accepted lastLBA s B)
    (hexact : ∀ n < blocks ((lastLBA + 1) * s) B, ∃ c, Exact lastLBA s B n c) :
    Tiles lastLBA s B := by
  refine ⟨create_ok h, ?_⟩
  choose! commands hcommands using hexact
  refine ⟨commands, hcommands, fun m hm n hn hmn =>
    (hcommands m hm).disjoint (hcommands n hn) hmn, fun x => ?_⟩
  have hsectors : ∀ n < blocks ((lastLBA + 1) * s) B, (x ∈ (commands n).sectors ↔
      (n * (B / s) : ℕ) ≤ x ∧ x < (n * (B / s) + min (B / s) (lastLBA + 1 - n * (B / s)) : ℕ)) := by
    intro n hn
    rw [Read10.sectors, (hcommands n hn).2.1, (hcommands n hn).2.2.1, ← Int.natCast_add]
    rfl
  constructor
  · rintro ⟨n, hn, hx⟩
    obtain ⟨h₁, h₂⟩ := (hsectors n hn).1 hx
    have hle := h.lt_blocks_iff.1 hn
    omega
  · rintro ⟨h₁, h₂⟩
    lift x to ℕ using h₁
    have hdiv := Nat.div_mul_le_self x (B / s)
    have hlt := Nat.lt_div_mul_add h.div_pos (a := x)
    have hn : x / (B / s) < blocks ((lastLBA + 1) * s) B := h.lt_blocks_iff.2 (by omega)
    exact ⟨_, hn, (hsectors _ hn).2 (by omega)⟩

/-- The requests make up the disk exactly when the first sector of the last block
    is an `int`; and the request for a block is right exactly when its first sector
    is. -/
theorem tiles_iff (lastLBA s B : ℕ) (h : Accepted lastLBA s B) :
    (∀ n < blocks ((lastLBA + 1) * s) B,
        ((∃ c, Exact lastLBA s B n c) ↔ n * (B / s) < 2 ^ 31)) ∧
      (Tiles lastLBA s B ↔ (blocks ((lastLBA + 1) * s) B - 1) * (B / s) < 2 ^ 31) := by
  have hblock : ∀ n < blocks ((lastLBA + 1) * s) B,
      ((∃ c, Exact lastLBA s B n c) ↔ n * (B / s) < 2 ^ 31) := fun n hn =>
    ⟨fun ⟨_, hc⟩ => lt_of_read10 h.toValidDisk hn hc.1, exact_of_lt h.toValidDisk hn⟩
  have hlast : blocks ((lastLBA + 1) * s) B - 1 < blocks ((lastLBA + 1) * s) B := by
    have : 0 < blocks ((lastLBA + 1) * s) B := h.lt_blocks_iff.2 (by omega)
    omega
  refine ⟨hblock, ?_, fun hlt => tiles_of_exact h fun n hn => (hblock n hn).2 ?_⟩
  · rintro ⟨-, commands, hcommands, -⟩
    exact (hblock _ hlast).1 ⟨_, hcommands _ hlast⟩
  · exact (Nat.mul_le_mul_right _ (by omega)).trans_lt hlt

/-- A disk of two blocks, and of `44` sectors of a third one. -/
theorem accepted_small : Accepted 299 512 65536 where
  lastLBA_lt := by decide
  pos := by decide
  dvd := by decide
  blockSize_pos := by decide
  blockSize_lt := by decide
  blocks_lt := by decide

theorem tiles_iff_small : Tiles 299 512 65536 :=
  ((tiles_iff 299 512 65536 accepted_small).2).2 (by decide)

/-- A disk of one sector more than a terabyte: its last block cannot be requested. -/
theorem not_tiles_terabyte : ¬Tiles (2 ^ 31) 512 65536 := by
  have h : Accepted (2 ^ 31) 512 65536 := ⟨by constructor <;> decide, by decide⟩
  rintro ⟨-, commands, hcommands, -⟩
  have hn : 2 ^ 24 < blocks ((2 ^ 31 + 1) * 512) 65536 := by decide
  exact absurd (lt_of_read10 h.toValidDisk hn (hcommands _ hn).1) (by decide)

end ReadGeometry

end Raqet
