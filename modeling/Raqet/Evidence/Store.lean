import Mathlib.Tactic.Cases
import Raqet.Check
import Raqet.Java.BitSet
import Raqet.Java.LinkedHashMap

/-!
# The evidence store

`EvidenceStore` keeps the blocks acquired from a disk: their data in an
*evidence file*, laid out as the disk, and which of them are there in a
*bitmap*, held in memory and flushed to a *bitmap file* (`synctodisk`). The
blocks used last are cached.

What is on disk (`Files`) is kept apart from the object (`EvidenceStore`): it is
what is left when the process is killed, and what the next object on the same
path starts from. Every access to a file seeks first, so its file pointer is
not part of the state.

The file operations of a call may fail. Where they do is an argument of the
modelled methods (`Io`, `OpenIo`, `CloseIo`): a write that fails may have
written any number of bytes before.

* `storeBlock_cases`, `retrieveBlock_cases` and `synctodisk_cases`: all that a
  call can do.
-/

namespace Raqet

open Java

/-- A block: its array of bytes. -/
abbrev Block := Buffer Byte

/-- The contents of the two files of an evidence store. -/
structure Files where
  /-- The evidence file. -/
  evidence : Buffer Byte
  /-- The bitmap file. -/
  bitmap : Buffer Byte

/-- The contents of a file opened for reading and writing: a missing file is
    created empty. -/
def openRw (found : Option (Buffer Byte)) : Buffer Byte := found.getD (.zeros 0)

/-- The files after `k` bytes of `block` were written at the position `p` of the
    evidence file. -/
def Files.writeEvidence (f : Files) (p : ℕ) (block : Block) (k : ℕ) : Files :=
  { f with evidence := f.evidence.write p block k }

/-- The files after the first `k` bytes of the bitmap file were overwritten. -/
def Files.writeBitmap (f : Files) (bytes : Buffer Byte) (k : ℕ) : Files :=
  { f with bitmap := f.bitmap.write 0 bytes k }

/-- The files of an evidence store once opened, from the ones found on disk. -/
def Files.ofFound (evidence bitmap : Option (Buffer Byte)) : Files :=
  ⟨openRw evidence, openRw bitmap⟩

/-- The outcome of the file operations of a call. -/
inductive Io
  | ok
  /-- The seek fails. -/
  | seekFails
  /-- The read or write fails after this number of bytes. -/
  | failsAfter (k : ℕ)
  deriving DecidableEq

/-- The outcome of the file operations of the constructor. -/
inductive OpenIo
  | ok
  /-- Opening one of the files fails. -/
  | openFails
  /-- Extending the evidence file fails. -/
  | extendFails
  /-- Extending the bitmap file fails after this number of bytes. -/
  | bitmapFails (k : ℕ)
  /-- Reading the bitmap file fails. -/
  | readFails
  deriving DecidableEq

/-- The outcome of closing the two files. -/
inductive CloseIo
  | ok
  /-- Closing the evidence file fails. -/
  | evidenceFails
  /-- Closing the bitmap file fails. -/
  | bitmapFails
  deriving DecidableEq

/-- `BLOCKS_TO_CACHE`. -/
def blocksToCache : ℕ := 256

/-- An `EvidenceStore` object. -/
structure EvidenceStore where
  imageLength : ℕ
  blockSize : ℕ
  blockCount : ℤ
  bitmap : BitSet
  cachedBlocks : LinkedHashMap ℕ Block
  evidenceFilePath : String
  refCount : ℤ
  /-- The evidence file has not been closed. -/
  evidenceOpen : Bool
  /-- The bitmap file has not been closed. -/
  bitmapOpen : Bool

/-- What a call returns or throws, and the store and the files after it. -/
structure Outcome (α : Type) where
  value : Except Exn α
  store : EvidenceStore
  files : Files

namespace EvidenceStore

/-! ## The constructor -/

/-- `(int) ((length + blockSize - 1) / blockSize)`. -/
def countBlocks (length blockSize : ℤ) : ℤ :=
  toInt ((toLong (length + blockSize - 1)).tdiv blockSize)

/-- `(_blockCount + 7) / 8`, the size of the bitmap in bytes. -/
def bitmapSize (blockCount : ℤ) : ℤ := (toInt (blockCount + 7)).tdiv 8

/-- The evidence file, extended if it is shorter than the image, never truncated. -/
def extendEvidence (length : ℤ) (f : Files) : Files :=
  if (f.evidence.length : ℤ) < length then
    { f with evidence := f.evidence.setLength length.toNat }
  else f

/-- The bitmap file, extended with (at most `k`) zeros if it is shorter than `size`. -/
def extendBitmap (size k : ℕ) (f : Files) : Files :=
  if f.bitmap.length < size then
    { f with
      bitmap := f.bitmap.write f.bitmap.length (.zeros size) (min k (size - f.bitmap.length)) }
  else f

/-- The new object, over the files once they were extended. -/
def opened (path : String) (length blockSize : ℤ) (f : Files) : EvidenceStore :=
  let blockCount := countBlocks length blockSize
  let bytes := (bitmapSize blockCount).toNat
  { imageLength := length.toNat
    blockSize := blockSize.toNat
    blockCount
    bitmap := BitSet.valueOf (f.bitmap.read 0 bytes bytes)
    cachedBlocks := ∅
    evidenceFilePath := path
    refCount := 0
    evidenceOpen := true
    bitmapOpen := true }

/-- The constructor `EvidenceStore(evidenceStoreFactory, evidenceFile, length, blockSize)`. -/
def create (io : OpenIo) (path : String) (length blockSize : ℤ) (f : Files) :
    Except Exn EvidenceStore × Files :=
  if length < 0 then (.error (.illegalArgument (negativeMessage "length" length)), f)
  else if blockSize < 0 then (.error (.illegalArgument (negativeMessage "blockSize" blockSize)), f)
  else if io = .openFails then (.error .io, f)
  else if blockSize = 0 then (.error .arithmetic, f)
  else if io = .extendFails then (.error .io, f)
  else
    let size := bitmapSize (countBlocks length blockSize)
    let f₁ := extendEvidence length f
    -- The array is allocated after the evidence file was extended.
    if size < 0 then (.error .negativeArraySize, f₁)
    else
      let bytes := size.toNat
      let f₂ := extendBitmap bytes bytes f₁
      match io with
      | .bitmapFails k => (.error .io, extendBitmap bytes k f₁)
      | .readFails => (.error .io, f₂)
      | _ => (.ok (opened path length blockSize f₂), f₂)

/-! ## Methods -/

/-- `containsBlock(blockNumber)`. -/
def containsBlock (s : EvidenceStore) (blockNumber : ℕ) : Bool := decide (blockNumber ∈ s.bitmap)

/-- `(blockNumber + 1) * _blockSize`, an `int`. -/
def blockEnd (s : EvidenceStore) (blockNumber : ℕ) : ℤ :=
  toInt (toInt (blockNumber + 1) * s.blockSize)

/-- The number of bytes that are transferred between the evidence file and the
    array of a block: `maxlen` if the block ends past the image, and else the
    whole array; none if the array is too short. -/
def transferLength (s : EvidenceStore) (blockNumber arrayLength : ℕ) : Option ℕ :=
  if s.blockEnd blockNumber > s.imageLength then
    let maxlen := toInt (s.blockEnd blockNumber - s.imageLength)
    if 0 ≤ maxlen ∧ maxlen ≤ arrayLength then some maxlen.toNat else none
  else some arrayLength

/-- The position `seekToBlock(blockNumber)` seeks to. -/
def position (s : EvidenceStore) (blockNumber : ℕ) : ℕ := blockNumber * s.blockSize

/-- The cache once there is room for one more block. -/
def makeRoom (s : EvidenceStore) : LinkedHashMap ℕ Block :=
  if s.cachedBlocks.size = blocksToCache then s.cachedBlocks.evict else s.cachedBlocks

/-- The store with `block` in the cache. -/
def cacheBlock (s : EvidenceStore) (blockNumber : ℕ) (block : Block) : EvidenceStore :=
  { s with cachedBlocks := s.makeRoom.put blockNumber block }

/-- The store after a lookup of a block in the cache. -/
def touchBlock (s : EvidenceStore) (blockNumber : ℕ) : EvidenceStore :=
  { s with cachedBlocks := s.cachedBlocks.touch blockNumber }

/-- The store with the bit of a block set. -/
def setBit (s : EvidenceStore) (blockNumber : ℕ) : EvidenceStore :=
  { s with bitmap := insert blockNumber s.bitmap }

/-- `storeBlock(blockNumber, block)`. -/
def storeBlock (s : EvidenceStore) (io : Io) (blockNumber : ℕ) (block : Block) (f : Files) :
    Outcome Unit :=
  if io = .seekFails ∨ s.evidenceOpen = false then ⟨.error .io, s, f⟩
  else
    let s₁ := s.cacheBlock blockNumber block
    let p := s.position blockNumber
    match s.transferLength blockNumber block.length with
    | none => ⟨.error (.indexOutOfBounds none), s₁, f⟩
    | some n =>
      match io with
      | .failsAfter k => ⟨.error .io, s₁, f.writeEvidence p block (min k n)⟩
      | _ => ⟨.ok (), s₁.setBit blockNumber, f.writeEvidence p block n⟩

/-- `retrieveBlock(blockNumber)`. -/
def retrieveBlock (s : EvidenceStore) (io : Io) (blockNumber : ℕ) (f : Files) : Outcome Block :=
  if s.blockCount ≤ blockNumber then
    ⟨.error (.indexOutOfBounds (some (indexMessage "blockNumber" blockNumber))), s, f⟩
  else if s.containsBlock blockNumber = false then
    ⟨.error (.illegalArgument ("block " ++ toString blockNumber ++ " is not available")), s, f⟩
  else match s.cachedBlocks.lookup blockNumber with
    | some block => ⟨.ok block, s.touchBlock blockNumber, f⟩
    | none =>
      if io ≠ .ok ∨ s.evidenceOpen = false then ⟨.error .io, s, f⟩
      else match s.transferLength blockNumber s.blockSize with
        | none => ⟨.error (.indexOutOfBounds none), s, f⟩
        | some n =>
          if f.evidence.length < s.position blockNumber + n then ⟨.error .eof, s, f⟩
          else
            let block := f.evidence.read (s.position blockNumber) n s.blockSize
            ⟨.ok block, s.cacheBlock blockNumber block, f⟩

/-- `synctodisk()`. -/
def synctodisk (s : EvidenceStore) (io : Io) (f : Files) : Except Exn Unit × Files :=
  let bytes := BitSet.toByteArray s.bitmap
  if io = .seekFails ∨ s.bitmapOpen = false then (.error .io, f)
  else match io with
    | .failsAfter k => (.error .io, f.writeBitmap bytes (min k bytes.length))
    | _ => (.ok (), f.writeBitmap bytes bytes.length)

/-- `doclose()`. A file counts as closed even if closing it fails. -/
def doclose (s : EvidenceStore) (io : CloseIo) : Except Exn Unit × EvidenceStore :=
  match io with
  | .evidenceFails => (.error .io, { s with evidenceOpen := false })
  | .bitmapFails => (.error .io, { s with evidenceOpen := false, bitmapOpen := false })
  | .ok => (.ok (), { s with evidenceOpen := false, bitmapOpen := false })

/-- `incRefCount()`. -/
def incRefCount (s : EvidenceStore) : EvidenceStore := { s with refCount := toInt (s.refCount + 1) }

/-- `decRefCount()`; it returns the new count. -/
def decRefCount (s : EvidenceStore) : EvidenceStore := { s with refCount := toInt (s.refCount - 1) }

/-! ## What a call can do -/

variable {s : EvidenceStore} {f : Files} {io : Io} {n m k : ℕ} {b b' : Block}

@[simp] theorem bitmap_cacheBlock : (s.cacheBlock n b).bitmap = s.bitmap := rfl

@[simp] theorem bitmap_setBit : (s.setBit n).bitmap = insert n s.bitmap := rfl

@[simp] theorem cachedBlocks_setBit : (s.setBit n).cachedBlocks = s.cachedBlocks := rfl

@[simp] theorem refCount_incRefCount : s.incRefCount.refCount = toInt (s.refCount + 1) := rfl

@[simp] theorem refCount_decRefCount : s.decRefCount.refCount = toInt (s.refCount - 1) := rfl

@[simp] theorem evidence_writeEvidence {p : ℕ} :
    (f.writeEvidence p b k).evidence = f.evidence.write p b k := rfl

@[simp] theorem evidence_writeBitmap : (f.writeBitmap b k).evidence = f.evidence := rfl

@[simp] theorem bitmap_writeBitmap : (f.writeBitmap b k).bitmap = f.bitmap.write 0 b k := rfl

@[simp] theorem writeEvidence_zero {p : ℕ} : f.writeEvidence p b 0 = f := by
  rw [Files.writeEvidence, Buffer.write_zero]

/-- What is in the cache after a block was cached is this block, or was there before. -/
theorem lookup_cacheBlock (h : (s.cacheBlock n b).cachedBlocks.lookup m = some b') :
    (m = n ∧ b' = b) ∨ (m ≠ n ∧ s.cachedBlocks.lookup m = some b') := by
  rcases LinkedHashMap.lookup_put_cases h with h | ⟨hm, h⟩
  · exact .inl h
  · refine .inr ⟨hm, ?_⟩
    rw [makeRoom] at h
    split_ifs at h
    exacts [LinkedHashMap.lookup_of_evict h, h]

@[simp] theorem lookup_touchBlock :
    (s.touchBlock n).cachedBlocks.lookup m = s.cachedBlocks.lookup m :=
  LinkedHashMap.lookup_touch

theorem transferLength_le (h : s.transferLength n m = some k) : k ≤ m := by
  rw [transferLength] at h
  split_ifs at h with h₁
  · dsimp only at h
    split_ifs at h with h₂
    rw [Option.some.injEq] at h
    omega
  · rw [Option.some.injEq] at h
    exact h.ge

/-- A call of `storeBlock` fails before it changes anything; or it fails with the
    block cached, after it wrote some of the bytes to transfer; or it caches the
    block, writes all of them and sets the bit. -/
theorem storeBlock_cases (s : EvidenceStore) (io : Io) (n : ℕ) (b : Block) (f : Files) :
    (∃ e, s.storeBlock io n b f = ⟨.error e, s, f⟩) ∨
    (∃ e, ∃ k ≤ (s.transferLength n b.length).getD 0, s.storeBlock io n b f =
      ⟨.error e, s.cacheBlock n b, f.writeEvidence (s.position n) b k⟩) ∨
    (∃ k, s.transferLength n b.length = some k ∧ s.storeBlock io n b f =
      ⟨.ok (), (s.cacheBlock n b).setBit n, f.writeEvidence (s.position n) b k⟩) := by
  rw [storeBlock]
  split_ifs with h
  · exact .inl ⟨_, rfl⟩
  · cases hk : s.transferLength n b.length with
    | none => exact .inr (.inl ⟨_, 0, le_rfl, by rw [writeEvidence_zero]⟩)
    | some k =>
      cases io with
      | ok => exact .inr (.inr ⟨k, rfl, rfl⟩)
      | seekFails => exact absurd (.inl rfl) h
      | failsAfter j => exact .inr (.inl ⟨_, min j k, min_le_right _ _, rfl⟩)

/-- `storeBlock` fails and sets no bit, or it sets the one of the block. -/
theorem bitmap_storeBlock_cases (s : EvidenceStore) (io : Io) (n : ℕ) (b : Block) (f : Files) :
    (∃ e, (s.storeBlock io n b f).value = .error e ∧
      (s.storeBlock io n b f).store.bitmap = s.bitmap) ∨
    ((s.storeBlock io n b f).value = .ok () ∧
      (s.storeBlock io n b f).store.bitmap = insert n s.bitmap) := by
  rcases storeBlock_cases s io n b f with ⟨e, he⟩ | ⟨e, k, -, he⟩ | ⟨k, -, he⟩ <;> rw [he]
  · exact .inl ⟨e, rfl, rfl⟩
  · exact .inl ⟨e, rfl, rfl⟩
  · exact .inr ⟨rfl, rfl⟩

/-- If there are bytes to transfer for the block, `storeBlock` fails only by a file operation. -/
theorem value_storeBlock_cases (io : Io) (f : Files) (hk : s.transferLength n b.length = some k) :
    (s.storeBlock io n b f).value = .ok () ∨ (s.storeBlock io n b f).value = .error .io := by
  rw [storeBlock]
  split_ifs with h
  · exact .inr rfl
  · rw [hk]
    cases io with
    | failsAfter j => exact .inr rfl
    | _ => exact .inl rfl

/-- Without a failing file operation, `storeBlock` stores the block. -/
theorem storeBlock_ok (ho : s.evidenceOpen = true) (hk : s.transferLength n b.length = some k) :
    s.storeBlock .ok n b f =
      ⟨.ok (), (s.cacheBlock n b).setBit n, f.writeEvidence (s.position n) b k⟩ := by
  simp [storeBlock, ho, hk]

/-- A call of `retrieveBlock` fails and changes nothing; or it finds the block in
    the cache; or it reads it from the evidence file and caches it. -/
theorem retrieveBlock_cases (s : EvidenceStore) (io : Io) (n : ℕ) (f : Files) :
    (∃ e, s.retrieveBlock io n f = ⟨.error e, s, f⟩) ∨
    (∃ b, n ∈ s.bitmap ∧ s.cachedBlocks.lookup n = some b ∧
      s.retrieveBlock io n f = ⟨.ok b, s.touchBlock n, f⟩) ∨
    (∃ k, n ∈ s.bitmap ∧ s.cachedBlocks.lookup n = none ∧
      s.transferLength n s.blockSize = some k ∧ s.position n + k ≤ f.evidence.length ∧
      s.retrieveBlock io n f = ⟨.ok (f.evidence.read (s.position n) k s.blockSize),
        s.cacheBlock n (f.evidence.read (s.position n) k s.blockSize), f⟩) := by
  rw [retrieveBlock]
  by_cases h₁ : s.blockCount ≤ n
  · exact .inl ⟨_, if_pos h₁⟩
  by_cases h₂ : s.containsBlock n = false
  · exact .inl ⟨_, by rw [if_neg h₁, if_pos h₂]⟩
  rw [if_neg h₁, if_neg h₂]
  have hn : n ∈ s.bitmap := by simpa [containsBlock] using h₂
  cases hb : s.cachedBlocks.lookup n with
  | some b => exact .inr (.inl ⟨b, hn, rfl, rfl⟩)
  | none =>
    by_cases h₃ : io ≠ .ok ∨ s.evidenceOpen = false
    · exact .inl ⟨_, if_pos h₃⟩
    cases hk : s.transferLength n s.blockSize with
    | none => exact .inl ⟨_, if_neg h₃⟩
    | some k =>
      -- `readFully` needs all bytes
      by_cases h₄ : f.evidence.length < s.position n + k
      · exact .inl ⟨.eof, by simp [h₃, h₄]⟩
      · exact .inr (.inr ⟨k, hn, rfl, rfl, not_lt.1 h₄, by simp [h₃, h₄]⟩)

/-- A lookup changes nothing on disk. -/
@[simp] theorem files_retrieveBlock (s : EvidenceStore) (io : Io) (n : ℕ) (f : Files) :
    (s.retrieveBlock io n f).files = f := by
  rcases retrieveBlock_cases s io n f with ⟨e, he⟩ | ⟨b, -, -, he⟩ | ⟨k, -, -, -, -, he⟩ <;> rw [he]

/-- Without a failing file operation, `retrieveBlock` returns a block that is
    there, from the cache or from the evidence file. -/
theorem value_retrieveBlock (hn : (n : ℤ) < s.blockCount) (hb : n ∈ s.bitmap)
    (ho : s.evidenceOpen = true) (hk : s.transferLength n s.blockSize = some k)
    (hf : s.position n + k ≤ f.evidence.length) :
    (s.retrieveBlock .ok n f).value =
      .ok ((s.cachedBlocks.lookup n).getD (f.evidence.read (s.position n) k s.blockSize)) := by
  rw [retrieveBlock, if_neg hn.not_ge, if_neg (by simp [containsBlock, hb])]
  cases s.cachedBlocks.lookup n with
  | some b => rfl
  | none => simp [ho, hk, hf.not_gt]

/-- All that `retrieveBlock` returns or throws for a number in range: the argument is
    rejected only if the block is not there. -/
theorem value_retrieveBlock_cases (io : Io) (f : Files) (hn : (n : ℤ) < s.blockCount) :
    (n ∉ s.bitmap ∧ (s.retrieveBlock io n f).value =
      .error (.illegalArgument ("block " ++ toString n ++ " is not available"))) ∨
    (n ∈ s.bitmap ∧ (s.transferLength n s.blockSize = none ∧
        (s.retrieveBlock io n f).value = .error (.indexOutOfBounds none) ∨
      (s.retrieveBlock io n f).value = .error .io ∨ (s.retrieveBlock io n f).value = .error .eof ∨
      ∃ b, (s.retrieveBlock io n f).value = .ok b)) := by
  rw [retrieveBlock, if_neg hn.not_ge]
  by_cases hb : n ∈ s.bitmap
  · right
    refine ⟨hb, ?_⟩
    rw [if_neg (by simp [containsBlock, hb])]
    cases hc : s.cachedBlocks.lookup n with
    | some b => simp
    | none =>
      by_cases hio : io ≠ .ok ∨ s.evidenceOpen = false
      · simp [hio]
      cases hk : s.transferLength n s.blockSize with
      | none => simp [hio]
      | some k => by_cases hf : f.evidence.length < s.position n + k <;> simp [hio, hf]
  · left
    rw [if_pos (by simp [containsBlock, hb])]
    exact ⟨hb, rfl⟩

/-- Without a failing file operation, the whole bitmap is flushed. -/
theorem synctodisk_ok (ho : s.bitmapOpen = true) :
    s.synctodisk .ok f = (.ok (), f.writeBitmap (BitSet.toByteArray s.bitmap)
      (BitSet.toByteArray s.bitmap).length) := by
  simp [synctodisk, ho]

/-- A flush of the bitmap overwrites some of the beginning of the bitmap file, all
    of it when it succeeds. -/
theorem synctodisk_cases (s : EvidenceStore) (io : Io) (f : Files) :
    (∃ e, ∃ k ≤ (BitSet.toByteArray s.bitmap).length,
      s.synctodisk io f = (.error e, f.writeBitmap (BitSet.toByteArray s.bitmap) k)) ∨
    s.synctodisk io f = (.ok (), f.writeBitmap (BitSet.toByteArray s.bitmap)
      (BitSet.toByteArray s.bitmap).length) := by
  have h₀ : f = f.writeBitmap (BitSet.toByteArray s.bitmap) 0 := by
    rw [Files.writeBitmap, Buffer.write_zero]
  unfold synctodisk
  split_ifs with h
  · exact .inl ⟨_, 0, Nat.zero_le _, by rw [← h₀]⟩
  · cases io with
    | ok => exact .inr rfl
    | seekFails => exact absurd (.inl rfl) h
    | failsAfter j => exact .inl ⟨_, _, min_le_right _ _, rfl⟩

/-- A flush of the bitmap leaves the evidence file as it is. -/
@[simp] theorem evidence_synctodisk (s : EvidenceStore) (io : Io) (f : Files) :
    (s.synctodisk io f).2.evidence = f.evidence := by
  rcases synctodisk_cases s io f with ⟨e, k, -, he⟩ | he <;> rw [he, evidence_writeBitmap]

end EvidenceStore

end Raqet
