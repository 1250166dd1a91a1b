import Raqet.IScsi.LogicalUnit

/-!
# Commands as they were checked

The asynchronous `read` checks its arguments, and then hands a `READ10` command to libiscsi,
which takes the address of the first block, and the length of the data, as unsigned numbers
of 32 bits. The address is narrowed after it was checked, the length is a product of `int`s.

* `IScsiRead10Callback.receive`: the answer is written into the buffer, at an offset;
* `SendsChecked`: the command asks for the blocks in the arguments, and a full answer lies
  inside the buffer;
* `sendsChecked_iff`: neither is so exactly if one of the two numbers is too large.
-/

namespace Raqet

open Java

/-- The length of the data that libiscsi asks for. -/
def Read10.transferLength (c : Read10) : ℤ := c.dataLength % 2 ^ 32

/-- What `callback` makes of the buffer, whose part from `offset` on is for this data:
    `task.datain.data.read(0L, _buffer, _offset, _bytesRead)`. -/
def IScsiRead10Callback.receive (buffer : Block) (offset : ℤ) (data : Buffer Byte) :
    Except Exn Block :=
  let bytesRead := toInt data.length
  if 0 < bytesRead then
    if offset < 0 ∨ (buffer.length : ℤ) < offset + bytesRead then .error (.indexOutOfBounds none)
    else .ok (buffer.copy offset.toNat data 0 bytesRead.toNat)
  else .ok buffer

/-- The command asks for what the arguments of `read` say, and a full answer lies inside the
    buffer, where it is written. -/
structure SendsChecked (firstBlock blocksToRead blockSize : ℤ) (buffer : Block) (offset : ℤ)
    (c : Read10) : Prop where
  firstSector : c.firstSector = firstBlock
  dataLength : c.dataLength = blocksToRead * blockSize
  answer : ∀ data : Buffer Byte, (data.length : ℤ) = c.transferLength →
    offset + data.length ≤ buffer.length ∧
      ∃ b, IScsiRead10Callback.receive buffer offset data = .ok b ∧
        b.HoldsAt offset.toNat data data.length

namespace IScsiRead10Callback

variable {buffer : Block} {offset : ℤ} {data : Buffer Byte}

/-- Data that fits is written where it belongs. -/
theorem receive_of_le (hoffset : 0 ≤ offset) (hfits : offset + data.length ≤ buffer.length)
    (hlength : data.length < 2 ^ 31) :
    ∃ b, receive buffer offset data = .ok b ∧ b.HoldsAt offset.toNat data data.length := by
  rw [receive, toInt_eq_self (by omega) (by omega)]
  split_ifs with hpos hbounds
  · omega
  · exact ⟨_, rfl, Buffer.HoldsAt.copy_self data (by omega)⟩
  · refine ⟨buffer, rfl, fun i hi => ?_⟩
    omega

end IScsiRead10Callback

namespace IScsiLogicalUnit

variable {firstBlock blocksToRead blockSize offset : ℤ} {buffer : Block} {c : Read10}

/-- For all arguments that pass the checks, and the command that is handed to libiscsi: it
    asks for what was checked exactly if the address of the first block fits into 32 bits,
    and the length of the data into an `int`. -/
theorem sendsChecked_iff
    (h : read firstBlock blocksToRead blockSize buffer.length offset none = .ok c) :
    SendsChecked firstBlock blocksToRead blockSize buffer offset c ↔
      firstBlock < 2 ^ 32 ∧ blocksToRead * blockSize < 2 ^ 31 := by
  obtain ⟨hfirst, hcount, ⟨hoffset, -⟩, hsize, hfits, -, rfl⟩ := read_eq_ok.1 h
  have hnonneg : 0 ≤ blocksToRead * blockSize := Int.mul_nonneg hcount hsize.le
  constructor
  · intro hsends
    constructor
    · have hsector : toInt firstBlock % 2 ^ 32 = firstBlock := hsends.firstSector
      omega
    · -- a product that is sent unchanged is an `int`
      have hlength : toInt (blocksToRead * blockSize) = blocksToRead * blockSize :=
        hsends.dataLength
      rw [← hlength]
      exact toInt_lt _
  · rintro ⟨hlba, hlength⟩
    have hexact : toInt (blocksToRead * blockSize) = blocksToRead * blockSize :=
      toInt_eq_self (by omega) hlength
    refine ⟨?_, hexact, fun data hdata => ?_⟩
    · change toInt firstBlock % 2 ^ 32 = firstBlock
      rw [toInt, Int.bmod_def]
      omega
    · rw [Read10.transferLength, hexact, Int.emod_eq_of_lt hnonneg (by omega)] at hdata
      have hinside : offset + data.length ≤ buffer.length := by omega
      exact ⟨hinside, IScsiRead10Callback.receive_of_le hoffset hinside (by omega)⟩

/-- Two blocks of `512` bytes, into the end of a buffer. -/
theorem sendsChecked_iff_end : SendsChecked 8 2 512 (.zeros 2048) 1024 ⟨8, 1024, 512⟩ :=
  (sendsChecked_iff (show read 8 2 512 (Buffer.zeros 2048 : Block).length 1024 none =
    .ok ⟨8, 1024, 512⟩ from rfl)).2 (by decide)

/-- The first block behind the addresses of 32 bits is read from the beginning of the disk. A
    length of `2 ^ 32` passes the check of any buffer, as one of `0`, and one of `2 ^ 31` is
    asked for, into a buffer of one byte. -/
theorem not_sendsChecked :
    (read (2 ^ 32) 1 512 (Buffer.zeros 512 : Block).length 0 none = .ok ⟨0, 512, 512⟩ ∧
      ¬SendsChecked (2 ^ 32) 1 512 (.zeros 512) 0 ⟨0, 512, 512⟩) ∧
    (read 0 (2 ^ 16) (2 ^ 16) (Buffer.zeros 1 : Block).length 0 none = .ok ⟨0, 0, 2 ^ 16⟩ ∧
      ¬SendsChecked 0 (2 ^ 16) (2 ^ 16) (.zeros 1) 0 ⟨0, 0, 2 ^ 16⟩) ∧
    (read 0 (2 ^ 15) (2 ^ 16) (Buffer.zeros 1 : Block).length 0 none =
        .ok ⟨0, -2 ^ 31, 2 ^ 16⟩ ∧
      (⟨0, -2 ^ 31, 2 ^ 16⟩ : Read10).transferLength = 2 ^ 31 ∧
      ¬SendsChecked 0 (2 ^ 15) (2 ^ 16) (.zeros 1) 0 ⟨0, -2 ^ 31, 2 ^ 16⟩) := by
  refine ⟨⟨read_eq_ok.2 (by decide), fun h => ?_⟩, ⟨read_eq_ok.2 (by decide), fun h => ?_⟩,
    read_eq_ok.2 (by decide), rfl, fun h => ?_⟩
  · exact absurd h.firstSector (by decide)
  · exact absurd h.dataLength (by decide)
  · exact absurd h.dataLength (by decide)

end IScsiLogicalUnit

end Raqet
