import Mathlib.Data.Finmap
import Raqet.Check
import Raqet.Evidence.Store

/-!
# Logical units

Commands to an iSCSI logical unit (`IScsiLogicalUnit`): reading its capacity,
and the asynchronous `READ10` command, whose outcome is kept by the object that
is its callback and its future (`IScsiRead10Callback`). What libiscsi answers is
an argument.
-/

namespace Raqet

open Java

/-- `IScsiException(message, error)`. -/
def libiscsiError (message error : String) : Exn :=
  .iScsi (message ++ "; libiscsi error '" ++ error ++ "'")

/-- An `IScsiLogicalUnitCapacity`: the highest valid LBA, and the size of a sector. -/
structure IScsiLogicalUnitCapacity where
  logicalBlockAddress : ℤ
  blockSize : ℤ

/-- `(capacity.getLogicalBlockAddress() + 1) * capacity.getBlockSize()`. -/
def IScsiLogicalUnitCapacity.sizeInBytes (c : IScsiLogicalUnitCapacity) : ℤ :=
  toLong ((c.logicalBlockAddress + 1) * c.blockSize)

/-- A `READ10` command, as it is handed to libiscsi. -/
structure Read10 where
  lba : ℤ
  dataLength : ℤ
  blockSize : ℤ
  deriving DecidableEq, Inhabited

/-- The first sector that is asked for: the LBA is read as an unsigned number. -/
def Read10.firstSector (c : Read10) : ℤ := c.lba % 2 ^ 32

/-- The number of sectors that are asked for. -/
def Read10.sectorCount (c : Read10) : ℤ := c.dataLength / c.blockSize

/-- How a synchronous command comes back from libiscsi. -/
inductive Task (α : Type)
  /-- It could not be sent. -/
  | null (error : String)
  /-- It has another status than `SCSI_STATUS_GOOD`. -/
  | failed
  /-- Its data could not be unmarshalled. -/
  | garbled (error : String)
  | good (data : α)

namespace IScsiLogicalUnit

/-- `readCapacity()`; the answer consists of two `int`s. -/
def readCapacity : Task (ℤ × ℤ) → Except Exn IScsiLogicalUnitCapacity
  | .null error => .error (libiscsiError "Failed to send readcapacity command" error)
  | .failed => .error (.iScsi "Failed to send readcapacity command")
  | .garbled error => .error (libiscsiError "Failed to unmarshall datain blob" error)
  | .good (lba, blockSize) => .ok ⟨lba % 2 ^ 32, blockSize⟩

/-- `read(firstBlock, blocksToRead, blockSize, buffer, offset)`: the command that
    is sent, unless there is a `sendError`. -/
def read (firstBlock blocksToRead blockSize bufferLength offset : ℤ) (sendError : Option String) :
    Except Exn Read10 := do
  let _ ← argNotNegative "firstBlock" firstBlock
  let _ ← argNotNegative "blockCount" blocksToRead
  let _ ← argIndex "offset" offset bufferLength
  let dataLength := toInt (blocksToRead * blockSize)
  if blockSize ≤ 0 then
    .error (.illegalArgument "blockSize must be positive")
  else if bufferLength - offset < dataLength then
    .error (.illegalArgument ("buffer is not large enough (" ++ toString bufferLength ++
      ") to hold " ++ toString blocksToRead ++ " blocks, starting at " ++ toString offset))
  else match sendError with
    | some error => .error (libiscsiError "Failed to send READ10 command" error)
    | none => .ok ⟨toInt firstBlock, dataLength, blockSize⟩

/-- The arguments of a command that is sent. -/
theorem read_eq_ok {firstBlock blocksToRead blockSize bufferLength offset : ℤ}
    {sendError : Option String} {c : Read10} :
    read firstBlock blocksToRead blockSize bufferLength offset sendError = .ok c ↔
      0 ≤ firstBlock ∧ 0 ≤ blocksToRead ∧ (0 ≤ offset ∧ offset < bufferLength) ∧ 0 < blockSize ∧
        toInt (blocksToRead * blockSize) ≤ bufferLength - offset ∧ sendError = none ∧
        c = ⟨toInt firstBlock, toInt (blocksToRead * blockSize), blockSize⟩ := by
  simp only [read, bind_eq_ok, argNotNegative_eq_ok, argIndex_eq_ok]
  constructor
  · rintro ⟨_, ⟨h₁, -⟩, _, ⟨h₂, -⟩, _, ⟨h₃, -⟩, h⟩
    split_ifs at h with h₄ h₅
    cases sendError with
    | some error => cases h
    | none =>
      cases h
      exact ⟨h₁, h₂, h₃, not_le.1 h₄, not_lt.1 h₅, rfl, rfl⟩
  · rintro ⟨h₁, h₂, h₃, h₄, h₅, rfl, rfl⟩
    exact ⟨_, ⟨h₁, rfl⟩, _, ⟨h₂, rfl⟩, _, ⟨h₃, rfl⟩, by rw [if_neg h₄.not_ge, if_neg h₅.not_gt]⟩

/-- Libiscsi may refuse any command that can be sent. -/
theorem read_some {firstBlock blocksToRead blockSize bufferLength offset : ℤ} {c : Read10}
    (h : read firstBlock blocksToRead blockSize bufferLength offset none = .ok c) (error : String) :
    read firstBlock blocksToRead blockSize bufferLength offset (some error) =
      .error (libiscsiError "Failed to send READ10 command" error) := by
  obtain ⟨h₁, h₂, h₃, h₄, h₅, -, -⟩ := read_eq_ok.1 h
  rw [read, argNotNegative_ok h₁, argNotNegative_ok h₂, argIndex_eq_ok.2 ⟨h₃, rfl⟩]
  change (if blockSize ≤ 0 then _ else if bufferLength - offset < toInt (blocksToRead * blockSize)
    then _ else _) = _
  rw [if_neg h₄.not_ge, if_neg h₅.not_gt]

end IScsiLogicalUnit

/-- How a `READ10` command comes back from libiscsi. -/
inductive Read10Outcome
  /-- It has another status than `SCSI_STATUS_GOOD`. -/
  | failed (error : String)
  /-- It has the status `SCSI_STATUS_GOOD`, and this data. -/
  | good (data : Buffer Byte)

/-- An `IScsiRead10Callback`, with the command it belongs to, whose buffer starts
    at the offset `0`. -/
structure IScsiRead10Callback where
  command : Read10
  buffer : Block
  finished : Bool
  exception : Option Exn
  bytesRead : ℕ

namespace IScsiRead10Callback

/-- A new callback. -/
def new (command : Read10) (buffer : Block) : IScsiRead10Callback :=
  ⟨command, buffer, false, none, 0⟩

/-- `callback(iScsi, status, commandData, privateData)`. -/
def callback (q : IScsiRead10Callback) : Read10Outcome → IScsiRead10Callback
  | .failed error =>
    { q with
      exception := some (q.exception.getD (libiscsiError "READ10 command failed" error))
      finished := true }
  | .good data =>
    { q with
      bytesRead := data.length
      buffer := q.buffer.copy 0 data 0 data.length
      finished := true }

/-- `complete()`, once the command is finished: the number of bytes that were read. -/
def complete (q : IScsiRead10Callback) : Except Exn ℕ :=
  match q.exception with
  | some e => .error e
  | none => .ok q.bytesRead

end IScsiRead10Callback

end Raqet
