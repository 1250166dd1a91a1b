import Raqet.IScsi.InputData

/-!
# Exact reads

The whole of `read(buffer, offset, count)`, over a block reader of any kind: what a
`BlockReader` returns may depend on all that was asked of it before.

A read that enters its loop goes through the blocks of its bytes, one after another,
and copies its part of each. The invariant `Copied` tells what was copied; in
addition, no byte outside the range of the read is touched, no check of an argument
fails, and the blocks are asked for in order (`copyBlocks_eq`). Hence a read is exact
(`read_exactly`).
-/

namespace Raqet

open Java

/-- A `BlockReader`: what `retrieveBlock(blockNumber)` returns, or throws, once the
    blocks `requested` have been asked for. -/
abbrev BlockReader := (requested : List ℤ) → (blockNumber : ℤ) → Except Exn Block

/-- The block reader returns the blocks of the image `D`: each has `B` bytes, those of
    the image as far as it goes. -/
def BlockReader.Holds (blockReader : BlockReader) (D : Buffer Byte) (B : ℕ) : Prop :=
  ∀ requested (n : ℕ), n < (D.length + B - 1) / B → ∃ block,
    blockReader requested n = .ok block ∧ block.length = B ∧
    ∀ i < B, n * B + i < D.length → block.get i = D.get (n * B + i)

/-- What there is after a call of `read`. -/
structure ReadOutcome where
  /-- What it returned, or threw. -/
  result : Except Exn ℤ
  inputData : IScsiInputData
  buffer : Buffer Byte
  /-- The blocks that were asked of the block reader. -/
  requested : List ℤ

/-- A read of `k` bytes of the image `D`, from the position `p`, into `buffer`, did
    what it should. -/
structure ReadOutcome.Exactly (o : ReadOutcome) (d : IScsiInputData) (D : Buffer Byte)
    (B p offset k : ℕ) (buffer : Buffer Byte) : Prop where
  result : o.result = .ok k
  inputData : o.inputData = { d with position := (p + k : ℕ) }
  length : o.buffer.length = buffer.length
  copied : ∀ j < k, o.buffer.get (offset + j) = D.get (p + j)
  unchanged : ∀ i, i < offset ∨ offset + k ≤ i → o.buffer.get i = buffer.get i
  /-- Each block is asked for once, and in order. -/
  requested : o.requested = (List.range' (p / B) ((p + k - 1) / B - p / B + 1)).map (↑)
  inRange : ∀ n ∈ o.requested, 0 ≤ n ∧ n < ((D.length + B - 1) / B : ℕ)

namespace IScsiInputData

/-- The loop of `read`, with `fuel` iterations at most. -/
def copyBlocks (blockReader : BlockReader) :
    ℕ → IScsiInputData → Reading → List ℤ → Option ReadOutcome
  | 0, _, _, _ => none
  | fuel + 1, d, r, requested =>
    if r.blockNumber ≤ r.lastBlock then
      let blockNumber := toInt r.blockNumber
      match blockReader requested blockNumber with
      | .error e => some ⟨.error e, d, r.buffer, requested ++ [blockNumber]⟩
      | .ok block =>
        match d.copyBlock r block with
        | .error e => some ⟨.error e, d, r.buffer, requested ++ [blockNumber]⟩
        | .ok (d, r) => copyBlocks blockReader fuel d r (requested ++ [blockNumber])
    else some ⟨.ok r.totalBytesRead, d, r.buffer, requested⟩

/-- `read(buffer, offset, count)`, whatever the class of the object's block reader is;
    none if its loop is not over after `fuel` iterations. -/
def read (blockReader : BlockReader) (fuel : ℕ) (d : IScsiInputData) (buffer : Buffer Byte)
    (offset count : ℤ) : Option ReadOutcome :=
  match d.startRead buffer offset count with
  | .error e => some ⟨.error e, d, buffer, []⟩
  | .ok (.inl k) => some ⟨.ok k, d, buffer, []⟩
  | .ok (.inr r) => copyBlocks blockReader fuel d r []

variable {d d' : IScsiInputData} {r r' : Reading} {buffer : Buffer Byte} {block : Block}
  {D : Buffer Byte} {B start size t offset count p : ℕ} {blockReader : BlockReader}

/-! ## The checks of the arguments -/

/-- `block.read(…)` passes its checks if it is asked for bytes of the block, and the
    buffer has room for all that is left to copy. -/
theorem Block.read_ok {offsetInBlock offset count : ℤ} (h₀ : 0 ≤ offsetInBlock)
    (hin : offsetInBlock < block.length) (hblock : block.length < 2 ^ 31) (hoffset : 0 ≤ offset)
    (hcount : 0 < count) (hfits : offset + count ≤ buffer.length)
    (hbuffer : buffer.length < 2 ^ 31) :
    Block.read block offsetInBlock buffer offset count =
      .ok (min count (block.length - offsetInBlock), buffer.copy offset.toNat block
        offsetInBlock.toNat (min count (block.length - offsetInBlock)).toNat) := by
  have hrange : argIndexRange "offset" offset "count" count buffer.length = .ok offset :=
    argIndexRange_ok hoffset hcount.le hfits (by exact_mod_cast hbuffer)
  have hneg : argNotNegative "offsetInBlock" offsetInBlock = .ok offsetInBlock :=
    argNotNegative_ok h₀
  have hleft : toInt (block.length - offsetInBlock) = block.length - offsetInBlock :=
    toInt_eq_self (by omega) (by omega)
  rw [Block.read, hrange, hneg]
  simp only [bind, Except.bind, hleft]
  rw [if_neg (by omega)]

/-- The body of the loop passes the checks of `block.read(…)` while something is left to
    copy. It touches no byte outside the range of the read, and goes on to the next block. -/
theorem Copied.copyBlock_ok (h : Copied D B start size t d r) (ht : t < size) (hB : 0 < B)
    (hB' : B < 2 ^ 31) (hend : start + size < 2 ^ 62)
    (hbuffer : r.buffer.length < 2 ^ 31) (hfits : r.offset + size ≤ r.buffer.length)
    (hblock : block.length = B) :
    ∃ d' r', d.copyBlock r block = .ok (d', r') ∧ r'.blockNumber = r.blockNumber + 1 ∧
      ∀ i : ℕ, i < r.offset.toNat ∨ r.offset.toNat + size ≤ i →
        r'.buffer.get i = r.buffer.get i := by
  have hmod : (start + t) % B < B := Nat.mod_lt _ hB
  have hoff := h.offset
  have hnext : toLong (r.blockNumber + 1) = r.blockNumber + 1 := by
    have hle : (start + t) / B ≤ start + t := Nat.div_le_self _ _
    rw [h.blockNumber, if_pos ht]
    generalize (start + t) / B = n at hle
    exact toLong_eq_self (by omega) (by omega)
  rw [IScsiInputData.copyBlock, h.offsetInBlock ht hB hB',
    h.offsetInBuffer (by omega), h.bytesToRead,
    Block.read_ok (by omega) (by omega) (by omega) (by omega) (by omega) (by omega) hbuffer]
  exact ⟨_, _, rfl, hnext, fun i hi => Buffer.get_copy_of_notMem _ _ (by omega)⟩

/-! ## The loop -/

/-- The block of a byte of the image is one of its blocks. -/
theorem div_lt_blocks {x L : ℕ} (hB : 0 < B) (hx : x < L) : x / B < (L + B - 1) / B := by
  have hle : x / B * B ≤ x := Nat.div_mul_le_self x B
  have hsucc : (x / B + 1) * B = x / B * B + B := Nat.succ_mul _ _
  refine (Nat.le_div_iff_mul_le hB).2 ?_
  rw [Nat.succ_eq_add_one]
  omega

/-- The size of an image whose blocks have numbers of type `int`. -/
theorem length_lt_of_blocks_lt {L : ℕ} (hB : 0 < B) (hB' : B < 2 ^ 31)
    (hL : (L + B - 1) / B < 2 ^ 31) : L < 2 ^ 62 := by
  have hlt : L + B - 1 < 2 ^ 31 * B := (Nat.div_lt_iff_lt_mul hB).1 hL
  omega

/-- From a state of its loop in which nothing is wrong, a read copies the rest, and asks
    for the blocks of the rest. The induction is on the number of blocks to go. -/
theorem copyBlocks_eq (hB : 0 < B) (hB' : B < 2 ^ 31) (hD : (D.length + B - 1) / B < 2 ^ 31)
    (hend : start + size ≤ D.length) (hreader : blockReader.Holds D B) {fuel m n : ℕ}
    (hn : r.blockNumber = n) (hm : r.lastBlock + 1 = (n + m : ℕ)) (hfuel : m < fuel)
    (h : Copied D B start size t d r) (hbuffer : r.buffer.length < 2 ^ 31)
    (hfits : r.offset + size ≤ r.buffer.length) (requested : List ℤ) :
    ∃ b, copyBlocks blockReader fuel d r requested =
        some ⟨.ok size, { d with position := (start + size : ℕ) }, b,
          requested ++ (List.range' n m).map (↑)⟩ ∧
      b.length = r.buffer.length ∧
      (∀ j < size, b.get (r.offset.toNat + j) = D.get (start + j)) ∧
      ∀ i : ℕ, i < r.offset.toNat ∨ r.offset.toNat + size ≤ i → b.get i = r.buffer.get i := by
  -- by induction on the number of blocks that are left
  induction m generalizing fuel n t d r requested with
  | zero =>
    obtain ⟨fuel, rfl⟩ := Nat.exists_eq_add_of_lt hfuel
    obtain ⟨rfl, htotal⟩ := h.finished (by omega)
    refine ⟨r.buffer, ?_, rfl, h.copied, fun i _ => rfl⟩
    rw [copyBlocks, if_neg (by omega), htotal, ← h.position]
    simp
  | succ m ih =>
    obtain ⟨fuel, rfl⟩ := Nat.exists_eq_add_of_lt hfuel
    have hlength₀ : D.length < 2 ^ 62 := length_lt_of_blocks_lt hB hB' hD
    have hoff := h.offset
    have hle : r.blockNumber ≤ r.lastBlock := by omega
    have ht : t < size := h.lt_iff.2 hle
    have hnt : n = (start + t) / B := by
      have hnumber := h.blockNumber
      rw [if_pos ht, hn] at hnumber
      exact_mod_cast hnumber
    have hlt : n < (D.length + B - 1) / B := by
      rw [hnt]
      exact div_lt_blocks hB (by omega)
    have hint : toInt r.blockNumber = n := by
      rw [hn]
      exact toInt_eq_self (by omega) (by omega)
    obtain ⟨block, hblock, hlength, hget⟩ := hreader requested n hlt
    obtain ⟨d', r', hc, hnumber, houtside⟩ :=
      h.copyBlock_ok ht hB hB' (by omega) hbuffer hfits hlength
    obtain ⟨u, -, h', hoffset, hlength'⟩ :=
      h.copyBlock ht hB hB' (by omega) (by omega) hbuffer hlength (by
        rw [← hnt]
        exact fun i hi hend' => hget i hi (by omega)) hc
    obtain ⟨b, hb, hlen, hcopied, hunchanged⟩ :=
      ih (show r'.blockNumber = (n + 1 : ℕ) by omega)
        (by rw [h'.lastBlock, ← h.lastBlock]; omega) (show m < m + fuel + 1 by omega) h'
        (by omega) (by omega)
        (requested ++ [(n : ℤ)])
    refine ⟨b, ?_, hlen.trans hlength', ?_, fun i hi => ?_⟩
    · rw [copyBlocks, if_pos hle]
      simp only [hint, hblock, hc]
      rw [show m + 1 + fuel = m + fuel + 1 by omega, hb, copyBlock_eq_ok hc, List.range'_succ]
      simp
    · rwa [hoffset] at hcopied
    · rw [hoffset] at hunchanged
      rw [hunchanged i hi, houtside i hi]

/-! ## The read -/

/-- What is left of the disk after the position, or as much of it as was asked for, if
    the range of the read is within the buffer. -/
theorem validateReadParameters_ok (hopen : d.isOpen = true) (hsize : d.size = D.length)
    (hlength : D.length < 2 ^ 62) (hpos : d.position = p) (hbuffer : buffer.length < 2 ^ 31)
    (hfits : offset + count ≤ buffer.length) (hr : 0 < min count (D.length - p)) :
    d.validateReadParameters buffer.length offset count =
      .ok (min count (D.length - p) : ℕ) := by
  have hend : toInt ((offset : ℤ) + count) = offset + count := toInt_eq_self (by omega) (by omega)
  have hassert : d.assertOpen = .ok () := assertOpen_eq_ok.2 hopen
  have hafter : toLong ((p : ℤ) + count) = p + count := toLong_eq_self (by omega) (by omega)
  have hleft : toLong ((D.length : ℤ) - p) = D.length - p := toLong_eq_self (by omega) (by omega)
  have hroom : ¬(buffer.length : ℤ) < offset + count := by omega
  rw [validateReadParameters, bind_eq_ok]
  refine ⟨(), hassert, ?_⟩
  rw [hsize, hpos, hend, if_neg (by omega), if_neg (by omega), if_neg hroom, if_neg (by omega),
    if_neg (by omega), if_neg hroom]
  dsimp only
  rw [hafter, hleft, Except.ok.injEq]
  split_ifs <;> rw [toInt_eq_self] <;> omega

/-- For every range of a buffer, and every position of an image of any size whose blocks
    have numbers of type `int`: a read returns as many bytes as were asked for, or as
    there are. It puts the bytes of the image there, changes no other byte, moves the
    position behind them, and asks for their blocks, once each and in order. -/
theorem read_exactly (hopen : d.isOpen = true) (hsize : d.size = D.length)
    (hblock : d.readBlockSize = B) (hpos : d.position = p) (hB : 0 < B) (hB' : B < 2 ^ 31)
    (hD : (D.length + B - 1) / B < 2 ^ 31) (hreader : blockReader.Holds D B)
    (hbuffer : buffer.length < 2 ^ 31) (hfits : offset + count ≤ buffer.length)
    (hr : 0 < min count (D.length - p)) {fuel : ℕ}
    (hfuel : (p + min count (D.length - p) - 1) / B - p / B + 1 < fuel) :
    ∃ o, d.read blockReader fuel buffer offset count = some o ∧
      o.Exactly d D B p offset (min count (D.length - p)) buffer := by
  have hlength : D.length < 2 ^ 62 := length_lt_of_blocks_lt hB hB' hD
  have hvalid := validateReadParameters_ok hopen hsize hlength hpos hbuffer hfits hr
  obtain ⟨r, hstart⟩ : ∃ r, d.startRead buffer offset count = .ok (.inr r) := by
    rw [startRead, hvalid]
    simp only [bind, Except.bind]
    rw [if_neg (by omega), if_neg (by omega)]
    exact ⟨_, rfl⟩
  rcases startRead_cases (D := D) hlength hsize hblock hpos (by omega) (by omega) hstart with
    ⟨_, -, hx⟩ | ⟨r', hx, -, -, hbuf, hoff, hcopied⟩
  · cases hx
  cases hx
  rw [Int.toNat_natCast] at hcopied
  -- from here on, it is the loop that copies `k` bytes
  set k := min count (D.length - p) with hk
  have hdiv : p / B ≤ (p + k - 1) / B := Nat.div_le_div_right (by omega)
  obtain ⟨b, hb, hlen, hget, hunchanged⟩ :=
    copyBlocks_eq hB hB' hD (by omega) hreader (n := p / B)
      (by rw [hcopied.blockNumber, if_pos hr, Nat.add_zero])
      (by rw [hcopied.lastBlock]; omega) hfuel hcopied (by rwa [hbuf])
      (by rw [hbuf, hoff]; omega) []
  rw [hoff, Int.toNat_natCast] at hget hunchanged
  rw [hbuf] at hlen hunchanged
  refine ⟨_, by rw [read, hstart]; exact hb, ?_⟩
  exact
    { result := rfl
      inputData := rfl
      length := hlen
      copied := hget
      unchanged := hunchanged
      requested := rfl
      inRange := by
        intro n hn
        obtain ⟨m, hm, rfl⟩ := List.mem_map.1 hn
        have hlast : (p + k - 1) / B < (D.length + B - 1) / B := div_lt_blocks hB (by omega)
        rw [List.mem_range'_1] at hm
        omega }

/-- An image of three bytes. -/
def threeBytes : Buffer Byte := .ofFn 3 fun i => BitVec.ofNat 8 (i + 1)

/-- The image of three bytes, in blocks of two. -/
def threeByteReader : BlockReader := fun _ n => .ok (threeBytes.slice (n.toNat * 2) 2)

theorem holds_threeByteReader : threeByteReader.Holds threeBytes 2 := fun _ _ _ =>
  ⟨_, rfl, rfl, fun _ hi _ => Buffer.get_slice _ hi⟩

/-- The input data, at the second byte. -/
def threeByteData : IScsiInputData := ⟨.new ⟨2, 1, 3, 2, 2⟩, 0, 3, 2, 1, true⟩

/-- The last two bytes of an image of three are read, from two blocks of two bytes,
    into the middle of a buffer. -/
theorem read_exactly_threeBytes :
    ∃ o, threeByteData.read threeByteReader 3 (.zeros 4) (1 : ℕ) (2 : ℕ) = some o ∧
      o.Exactly threeByteData threeBytes 2 1 1 (min 2 (threeBytes.length - 1)) (.zeros 4) :=
  read_exactly rfl rfl rfl rfl (by decide) (by decide) (by decide) holds_threeByteReader
    (by decide) (by decide) (by decide) (by decide)

end IScsiInputData

end Raqet
