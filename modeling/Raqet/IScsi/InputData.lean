import Raqet.Evidence.Factory
import Raqet.IScsi.BlockReader

/-!
# Input data

An `IScsiInputData` presents a disk as a sequence of bytes with a position. Its
`read` copies the requested bytes block by block: `startRead` is what it does before
its loop, and `copyBlock` what it does with each block that the block reader
retrieves.

* `Copied`: the invariant of the loop. The bytes that were copied so far are those of
  the disk, and the next block is the one that the next byte is in.
* `Copied.copyBlock`: the body of the loop keeps it;
* `Copied.finished`: after the loop, everything was copied.
-/

namespace Raqet

open Java

/-- `block.read(offsetInBlock, buffer, offset, count)`: the number of bytes that were
    copied, and the buffer after it. -/
def Block.read (block : Block) (offsetInBlock : ℤ) (buffer : Buffer Byte) (offset count : ℤ) :
    Except Exn (ℤ × Buffer Byte) := do
  let _ ← argIndexRange "offset" offset "count" count buffer.length
  let _ ← argNotNegative "offsetInBlock" offsetInBlock
  let bytesRead := min count (toInt (block.length - offsetInBlock))
  if bytesRead ≤ 0 then .ok (0, buffer)
  else .ok (bytesRead, buffer.copy offset.toNat block offsetInBlock.toNat bytesRead.toNat)

/-- An `IScsiInputData`. -/
structure IScsiInputData where
  blockReader : IScsiBlockReader
  /-- The evidence store of the block reader. -/
  evidenceStore : ℕ
  size : ℤ
  readBlockSize : ℤ
  position : ℤ
  isOpen : Bool

/-- The variables of `read(buffer, offset, count)` in its loop. -/
structure Reading where
  buffer : Buffer Byte
  offset : ℤ
  bytesToRead : ℤ
  totalBytesRead : ℤ
  blockNumber : ℤ
  lastBlock : ℤ

namespace IScsiInputData

/-- The constructor `IScsiInputData(blockReader, size, readBlockSize)`. -/
def create (blockReader : IScsiBlockReader) (evidenceStore : ℕ) (size readBlockSize : ℤ) :
    Except Exn IScsiInputData := do
  let size ← argNotNegative "size" size
  let readBlockSize ← argNotNegative "readBlockSize" readBlockSize
  .ok ⟨blockReader, evidenceStore, size, readBlockSize, 0, true⟩

/-- `close()`: the connection is closed, and then the evidence store. The object is
    closed in any case. -/
def close (d : IScsiInputData) (connection : Option String) (io : Io) (closeIo : CloseIo)
    (w : EvidenceStoreFactory) : Except Exn Unit × IScsiInputData × EvidenceStoreFactory :=
  if d.isOpen then
    match connection with
    | some message => (.error (.wrapped (.iScsi message)), { d with isOpen := false }, w)
    | none =>
      let o := w.closeEvidenceStore io closeIo d.evidenceStore
      (o.1, { d with isOpen := false }, o.2)
  else (.ok (), d, w)

/-- `assertOpen()`. -/
def assertOpen (d : IScsiInputData) : Except Exn Unit :=
  if d.isOpen then .ok () else .error (.illegalState "stream is closed")

/-- `validatePosition(position)`. -/
def validatePosition (d : IScsiInputData) (position : ℤ) : Except Exn ℤ := do
  d.assertOpen
  if position < 0 then .error (.illegalArgument ("position is negative: " ++ toString position))
  else if d.size < position then
    .error (.illegalArgument ("position lies beyond max stream size: " ++ toString position ++
      " (max: " ++ toString d.size ++ ")"))
  else .ok position

/-- `seek(position)`. -/
def seek (d : IScsiInputData) (position : ℤ) : Except Exn IScsiInputData := do
  let position ← d.validatePosition position
  .ok { d with position }

/-- `validateReadParameters(buffer, offset, count)`. The message about a negative
    offset has the count in it. -/
def validateReadParameters (d : IScsiInputData) (bufferLength offset count : ℤ) : Except Exn ℤ := do
  d.assertOpen
  if count < 0 then .error (.illegalArgument ("read size is negative: " ++ toString count))
  else if offset < 0 then .error (.illegalArgument ("offset is negative: " ++ toString count))
  else if bufferLength < toInt (offset + count) then
    .error (.illegalArgument "offset + count out of range for buffer")
  else if bufferLength = 0 ∨ count = 0 then .ok 0
  else if d.size ≤ d.position then .ok (-1)
  else
    let bytesToRead :=
      if bufferLength < toInt (offset + count) then toInt (bufferLength - offset) else count
    .ok (toInt (if d.size < toLong (d.position + bytesToRead) then toLong (d.size - d.position)
      else bytesToRead))

/-- `read(buffer, offset, count)` before its loop: it returns, or enters the loop. -/
def startRead (d : IScsiInputData) (buffer : Buffer Byte) (offset count : ℤ) :
    Except Exn (ℤ ⊕ Reading) := do
  let bytesToRead ← d.validateReadParameters buffer.length offset count
  if bytesToRead ≤ 0 then .ok (.inl bytesToRead)
  else if d.readBlockSize = 0 then .error .arithmetic
  else .ok (.inr {
    buffer, offset, bytesToRead
    totalBytesRead := 0
    blockNumber := d.position.tdiv d.readBlockSize
    lastBlock := (toLong (d.position + bytesToRead - 1)).tdiv d.readBlockSize })

/-- The body of the loop, once the block was retrieved. -/
def copyBlock (d : IScsiInputData) (r : Reading) (block : Block) :
    Except Exn (IScsiInputData × Reading) := do
  let offsetInBlock := toInt (d.position - r.blockNumber * d.readBlockSize)
  let (bytesRead, buffer) ← Block.read block offsetInBlock r.buffer
    (toInt (r.offset + r.totalBytesRead)) r.bytesToRead
  .ok ({ d with position := toLong (d.position + bytesRead) },
    { r with
      buffer
      totalBytesRead := toInt (r.totalBytesRead + bytesRead)
      bytesToRead := toInt (r.bytesToRead - bytesRead)
      blockNumber := toLong (r.blockNumber + 1) })

/-! ## The loop -/

variable {d d' : IScsiInputData} {r r' : Reading} {buffer : Buffer Byte} {offset count position : ℤ}
  {block : Block} {D : Buffer Byte} {L B start size t : ℕ} {k : ℤ}

/-- New input data is at its beginning. -/
theorem create_eq_ok {blockReader : IScsiBlockReader} {i : ℕ} {size readBlockSize : ℤ}
    (h : create blockReader i size readBlockSize = .ok d) :
    d = ⟨blockReader, i, size, readBlockSize, 0, true⟩ := by
  rw [create, bind_eq_ok] at h
  obtain ⟨_, h₁, h⟩ := h
  rw [bind_eq_ok] at h
  obtain ⟨_, h₂, h⟩ := h
  obtain ⟨-, rfl⟩ := argNotNegative_eq_ok.1 h₁
  obtain ⟨-, rfl⟩ := argNotNegative_eq_ok.1 h₂
  exact (Except.ok.inj h).symm

theorem assertOpen_eq_ok {u : Unit} : d.assertOpen = .ok u ↔ d.isOpen = true := by
  rw [assertOpen]
  split_ifs with h <;> simp [h]

theorem validatePosition_eq_ok {p : ℤ} :
    d.validatePosition position = .ok p ↔
      d.isOpen = true ∧ (0 ≤ position ∧ position ≤ d.size) ∧ position = p := by
  rw [validatePosition, bind_eq_ok]
  simp only [assertOpen_eq_ok, exists_const]
  refine and_congr_right fun _ => ?_
  split_ifs with h₁ h₂
  · simp only [false_iff]
    omega
  · simp only [false_iff]
    omega
  · rw [Except.ok.injEq, iff_and_self]
    intro _
    omega

/-- A position that `seek` accepts is in the disk, or at its end. -/
theorem seek_eq_ok (h : d.seek position = .ok d') :
    d.isOpen = true ∧ 0 ≤ position ∧ position ≤ d.size ∧ d' = { d with position } := by
  rw [seek, bind_eq_ok] at h
  obtain ⟨p, hp, h⟩ := h
  obtain ⟨ho, ⟨h₀, h₁⟩, rfl⟩ := validatePosition_eq_ok.1 hp
  exact ⟨ho, h₀, h₁, (Except.ok.inj h).symm⟩

/-- At the head of the loop of a read of `size` bytes from the position `start` of the
    disk `D`, when `t` of them have been copied. -/
structure Copied (D : Buffer Byte) (B start size t : ℕ) (d : IScsiInputData) (r : Reading) :
    Prop where
  readBlockSize : d.readBlockSize = B
  le : t ≤ size
  position : d.position = (start + t : ℕ)
  totalBytesRead : r.totalBytesRead = t
  bytesToRead : r.bytesToRead = (size - t : ℕ)
  blockNumber : r.blockNumber =
    (if t < size then (start + t) / B else (start + size - 1) / B + 1 : ℕ)
  lastBlock : r.lastBlock = ((start + size - 1) / B : ℕ)
  offset : 0 ≤ r.offset ∧ r.offset < 2 ^ 31
  fits : 0 < t → r.offset + size ≤ r.buffer.length
  copied : ∀ j < t, r.buffer.get (r.offset.toNat + j) = D.get (start + j)

/-- The number of bytes that a read returns if there are any: as many as were asked
    for, or as there are. -/
theorem validateReadParameters_eq_ok {bufferLength : ℤ} (hcount : count < 2 ^ 31)
    (hsize : d.size < 2 ^ 62) (hpos : 0 ≤ d.position)
    (h : d.validateReadParameters bufferLength offset count = .ok k) (hk : 0 < k) :
    0 ≤ offset ∧ 0 < count ∧ d.position < d.size ∧ k = min count (d.size - d.position) := by
  rw [validateReadParameters, bind_eq_ok] at h
  obtain ⟨_, -, h⟩ := h
  split_ifs at h with h₁ h₂ h₃ h₄ h₅
  · rw [Except.ok.injEq] at h
    omega
  · rw [Except.ok.injEq] at h
    omega
  rw [Except.ok.injEq] at h
  refine ⟨not_lt.1 h₂, by omega, not_le.1 h₅, ?_⟩
  rw [toLong_eq_self (by omega) (by omega), toLong_eq_self (by omega) (by omega)] at h
  rw [← h]
  split_ifs with h₆ <;> rw [toInt_eq_self] <;> omega

/-- A read enters its loop, with nothing copied, unless it returns at once. -/
theorem startRead_cases {x : ℤ ⊕ Reading} (hL : L < 2 ^ 62) (hsize : d.size = L)
    (hblock : d.readBlockSize = B) (hstart : d.position = start) (hoffset : offset < 2 ^ 31)
    (hcount : count < 2 ^ 31) (h : d.startRead buffer offset count = .ok x) :
    (∃ k ≤ 0, x = .inl k) ∨
    ∃ r, x = .inr r ∧ 0 < count ∧ start < L ∧ r.buffer = buffer ∧ r.offset = offset ∧
      Copied D B start (min count.toNat (L - start)) 0 d r := by
  rw [startRead, bind_eq_ok] at h
  obtain ⟨k, hk, h⟩ := h
  split_ifs at h with h₁ h₂
  · exact .inl ⟨k, h₁, (Except.ok.inj h).symm⟩
  obtain ⟨hoff, hpos, hlt, rfl⟩ := validateReadParameters_eq_ok hcount (by omega) (by omega) hk
    (not_le.1 h₁)
  rw [hsize, hstart] at hlt
  -- the number of bytes to copy
  have hmin : min count (d.size - d.position) = (min count.toNat (L - start) : ℕ) := by omega
  refine .inr ⟨_, (Except.ok.inj h).symm, hpos, by exact_mod_cast hlt, rfl, rfl, ?_⟩
  rw [hmin]
  set size := min count.toNat (L - start) with hsz
  have hsizepos : 0 < size := by omega
  exact
    { readBlockSize := hblock
      le := Nat.zero_le _
      position := hstart
      totalBytesRead := rfl
      bytesToRead := rfl
      blockNumber := by
        rw [if_pos hsizepos, hstart, hblock, Int.tdiv_eq_ediv_of_nonneg (by omega),
          Int.natCast_ediv]
        rfl
      lastBlock := by
        have hlast : (start : ℤ) + size - 1 = (start + size - 1 : ℕ) := by omega
        dsimp only
        rw [hstart, hblock, hlast, toLong_eq_self (by omega) (by omega),
          Int.tdiv_eq_ediv_of_nonneg (by omega), Int.natCast_ediv]
      offset := ⟨hoff, hoffset⟩
      fits := fun h => absurd h (Nat.lt_irrefl 0)
      copied := fun j hj => absurd hj (Nat.not_lt_zero j) }

/-- A read that returns at once returns no bytes. -/
theorem startRead_inl (h : d.startRead buffer offset count = .ok (.inl k)) : k ≤ 0 := by
  rw [startRead, bind_eq_ok] at h
  obtain ⟨k', -, h⟩ := h
  split_ifs at h with hk
  · cases h
    exact hk
  · cases h

/-- A read begins with the block of its first byte. -/
theorem blockNumber_startRead (h : d.startRead buffer offset count = .ok (.inr r)) :
    r.blockNumber = d.position.tdiv d.readBlockSize := by
  rw [startRead, bind_eq_ok] at h
  obtain ⟨k', -, h⟩ := h
  split_ifs at h
  · cases h
  · cases h
    rfl

/-- What `block.read` copies, if there is something to copy. -/
theorem Block.read_eq_ok {offsetInBlock : ℤ} {p : ℤ × Buffer Byte} (hoffset : offset < 2 ^ 31)
    (hcount : 0 < count ∧ count < 2 ^ 31) (hbuffer : buffer.length < 2 ^ 31)
    (hblock : block.length < 2 ^ 31) (hin : offsetInBlock < block.length)
    (h : Block.read block offsetInBlock buffer offset count = .ok p) :
    0 ≤ offset ∧ offset + count ≤ buffer.length ∧
      p = (min count (block.length - offsetInBlock), buffer.copy offset.toNat block
        offsetInBlock.toNat (min count (block.length - offsetInBlock)).toNat) := by
  rw [Block.read, bind_eq_ok] at h
  obtain ⟨_, hrange, h⟩ := h
  obtain ⟨h₁, h₂, h₃⟩ := argIndexRange_eq_ok hoffset hcount.2 (by omega) (by omega) hrange
  rw [bind_eq_ok] at h
  obtain ⟨_, hneg, h⟩ := h
  obtain ⟨h₄, -⟩ := argNotNegative_eq_ok.1 hneg
  dsimp only at h
  rw [toInt_eq_self (by omega) (by omega), if_neg (by omega)] at h
  exact ⟨h₁, h₃, (Except.ok.inj h).symm⟩

/-- The body of the loop moves the position only. -/
theorem copyBlock_eq_ok (h : d.copyBlock r block = .ok (d', r')) :
    d' = { d with position := d'.position } := by
  rw [copyBlock, bind_eq_ok] at h
  obtain ⟨p, -, h⟩ := h
  cases h
  rfl

/-- The body of the loop goes on to the next block. -/
theorem blockNumber_copyBlock (h : d.copyBlock r block = .ok (d', r')) :
    r'.blockNumber = toLong (r.blockNumber + 1) ∧ r'.lastBlock = r.lastBlock := by
  rw [copyBlock, bind_eq_ok] at h
  obtain ⟨p, -, h⟩ := h
  cases h
  exact ⟨rfl, rfl⟩

/-- Where in its block the next byte is. -/
theorem Copied.offsetInBlock (h : Copied D B start size t d r) (ht : t < size) (hB : 0 < B)
    (hB' : B < 2 ^ 31) :
    toInt (d.position - r.blockNumber * d.readBlockSize) = ((start + t) % B : ℕ) := by
  have hdiv : (start + t) / B * B + (start + t) % B = start + t := Nat.div_add_mod' (start + t) B
  have hmod : (start + t) % B < B := Nat.mod_lt _ hB
  rw [h.position, h.blockNumber, if_pos ht, h.readBlockSize, ← Int.natCast_mul, toInt_eq_self] <;>
    omega

/-- Where in the buffer the next byte goes. -/
theorem Copied.offsetInBuffer (h : Copied D B start size t d r)
    (hfits : 0 < t → r.offset + t < 2 ^ 31) :
    toInt (r.offset + r.totalBytesRead) = r.offset + t := by
  obtain ⟨hoff₀, hoff₁⟩ := h.offset
  rw [h.totalBytesRead]
  rcases Nat.eq_zero_or_pos t with rfl | ht
  · exact toInt_eq_self (by omega) (by omega)
  · have hlt := hfits ht
    exact toInt_eq_self (by omega) (by omega)

/-- Once what the block holds of the read was copied, the next block follows it. -/
theorem nextBlock_eq (ht : t < size) (hB : 0 < B) :
    (if t + min (size - t) (B - (start + t) % B) < size
      then (start + (t + min (size - t) (B - (start + t) % B))) / B
      else (start + size - 1) / B + 1) = (start + t) / B + 1 := by
  have hdiv := Nat.div_add_mod' (start + t) B
  have hmod : (start + t) % B < B := Nat.mod_lt _ hB
  generalize (start + t) / B = n at hdiv ⊢
  have hmul : (n + 1) * B = n * B + B := Nat.succ_mul n B
  have hmul' : (n + 1 + 1) * B = (n + 1) * B + B := Nat.succ_mul (n + 1) B
  split_ifs with hlt
  · exact Nat.div_eq_of_lt_le (by omega) (by omega)
  · rw [Nat.div_eq_of_lt_le (k := n) (by omega) (by omega)]

/-- The body of the loop copies what is left to copy of the block, one byte at least. -/
theorem Copied.copyBlock (h : Copied D B start size t d r) (ht : t < size) (hB : 0 < B)
    (hB' : B < 2 ^ 31) (hsize : size < 2 ^ 31) (hend : start + size < 2 ^ 62)
    (hbuffer : r.buffer.length < 2 ^ 31) (hblock : block.length = B)
    (hget : ∀ i < B, (start + t) / B * B + i < start + size →
      block.get i = D.get ((start + t) / B * B + i))
    (hc : d.copyBlock r block = .ok (d', r')) :
    ∃ u, t < u ∧ Copied D B start size u d' r' ∧ r'.offset = r.offset ∧
      r'.buffer.length = r.buffer.length := by
  set n := (start + t) / B with hn
  have hdiv : n * B + (start + t) % B = start + t := Nat.div_add_mod' (start + t) B
  have hmod : (start + t) % B < B := Nat.mod_lt _ hB
  set off := (start + t) % B with hoff
  have hnumber : r.blockNumber = n := by rw [h.blockNumber, if_pos ht]
  have hin : toInt (d.position - r.blockNumber * d.readBlockSize) = off :=
    h.offsetInBlock ht hB hB'
  obtain ⟨hoff₀, hoff₁⟩ := h.offset
  have hto : toInt (r.offset + r.totalBytesRead) = r.offset + t := h.offsetInBuffer fun ht₀ => by
    have hfits := h.fits ht₀
    omega
  rw [IScsiInputData.copyBlock, bind_eq_ok] at hc
  obtain ⟨p, hp, hc⟩ := hc
  rw [hin, hto, h.bytesToRead] at hp
  have hlt := toInt_lt (r.offset + r.totalBytesRead)
  -- nothing overflows: the block and the buffer have lengths that are `int`s
  obtain ⟨-, hfits, rfl⟩ := Block.read_eq_ok (by omega) (by omega) hbuffer (by omega) (by omega) hp
  -- The number of bytes that are copied.
  set u := min (size - t) (B - off) with hu
  have hmin : min ((size - t : ℕ) : ℤ) (block.length - off) = u := by omega
  have hfrom : (r.offset + t).toNat = r.offset.toNat + t := by omega
  rw [hmin, hfrom, Int.toNat_natCast, Int.toNat_natCast] at hc
  cases hc
  refine ⟨t + u, by omega, ?_, rfl, rfl⟩
  exact
    { readBlockSize := h.readBlockSize
      le := by omega
      position := by
        dsimp only
        rw [h.position, toLong_eq_self] <;> omega
      totalBytesRead := by
        dsimp only
        rw [h.totalBytesRead, toInt_eq_self] <;> omega
      bytesToRead := by
        dsimp only
        rw [h.bytesToRead, toInt_eq_self] <;> omega
      blockNumber := by
        have hle : n ≤ start + t := Nat.div_le_self _ _
        have hn₀ : 0 ≤ (n : ℤ) := Int.natCast_nonneg n
        dsimp only
        rw [nextBlock_eq ht hB, hnumber, toLong_eq_self (x := (n : ℤ) + 1) (by omega) (by omega)]
        rfl
      lastBlock := h.lastBlock
      offset := h.offset
      fits := fun _ => by
        dsimp only
        rw [Buffer.length_copy]
        omega
      copied := fun j hj => by
        dsimp only
        by_cases hjt : j < t
        · rw [Buffer.get_copy_of_notMem _ _ (.inl (by omega)), h.copied j hjt]
        · obtain ⟨i, rfl⟩ := Nat.exists_eq_add_of_le (not_lt.1 hjt)
          rw [← Nat.add_assoc, Buffer.get_copy_of_mem _ _ (by omega) (by omega),
            hget (off + i) (by omega) (by omega)]
          congr 1
          omega }

/-- While something is left to copy, the next block is not past the last one. -/
theorem Copied.lt_iff (h : Copied D B start size t d r) :
    t < size ↔ r.blockNumber ≤ r.lastBlock := by
  rw [h.blockNumber, h.lastBlock]
  split_ifs with ht
  · have hdiv : (start + t) / B ≤ (start + size - 1) / B := Nat.div_le_div_right (by omega)
    exact iff_of_true ht (by exact_mod_cast hdiv)
  · exact iff_of_false ht (by omega)

/-- After the loop, everything was copied. -/
theorem Copied.finished (h : Copied D B start size t d r) (hlast : r.lastBlock < r.blockNumber) :
    t = size ∧ r.totalBytesRead = size := by
  have ht : t = size := h.le.antisymm (not_lt.1 fun ht => (h.lt_iff.1 ht).not_gt hlast)
  exact ⟨ht, ht ▸ h.totalBytesRead⟩

end IScsiInputData

end Raqet
