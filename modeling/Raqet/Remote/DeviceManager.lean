import Raqet.IScsi.InputData
import Raqet.Java.File
import Raqet.Remote.Discovery

/-!
# Remote devices

A `RemoteDeviceInfo` says where a device was discovered, and where its evidence is to be
kept. `openDevice` connects to the device, obtains the evidence store of its path from
the factory, and puts a block reader and input data on top.
-/

namespace Raqet

open Java

/-- `READ_BLOCK_SIZE`. -/
def readBlockSize : ℕ := 65536

/-- A `RemoteDeviceInfo`. -/
structure RemoteDeviceInfo extends DiscoveredDevice where
  evidenceDirectory : File
  evidenceBaseFileName : String

/-- The path of the evidence file of a device. -/
def RemoteDeviceInfo.evidencePath (info : RemoteDeviceInfo) : String :=
  (info.evidenceDirectory.child info.evidenceBaseFileName).getPath

/-- How connecting to a device ends. -/
inductive Connecting
  /-- The context is not created. -/
  | contextFails (message : String)
  /-- Setting up the context, connecting, or asking whether the device is ready throws. -/
  | fails (e : Exn)
  | notReady
  | ready

/-- What the environment decides when a device is opened. -/
structure OpenEnv where
  connecting : Connecting
  /-- The answer to the request for the capacity. -/
  capacity : Task (ℤ × ℤ)
  /-- The outcome of the file operations of a new evidence store. -/
  io : OpenIo

/-- What `openDevice` returns or throws, the factory after it, and whether its
    context is left open. -/
structure Opening where
  value : Except Exn IScsiInputData
  factory : EvidenceStoreFactory
  contextOpen : Bool

namespace RemoteDeviceManager

/-- `openDevice` throws, once it has a context. The handler only closes the context
    when it catches an `IScsiException`. -/
def throw (w : EvidenceStoreFactory) : Exn → Opening
  | .iScsi message =>
    ⟨.error (.wrappedMessage "Failed to open remote device" (.iScsi message)), w, false⟩
  | e => ⟨.error e, w, true⟩

/-- The message about a device that is not ready. -/
def notReadyMessage (info : RemoteDeviceInfo) : String :=
  "Logical unit not ready: " ++ info.targetName ++ ", Lun:" ++ format04d info.lun ++ " at " ++
    info.portal

/-- `openDevice(remoteDeviceInfo)`. -/
def openDevice (info : RemoteDeviceInfo) (env : OpenEnv) (w : EvidenceStoreFactory) : Opening :=
  match env.connecting with
  | .contextFails message =>
    ⟨.error (.wrappedMessage "Failed to open remote device" (.iScsi message)), w, false⟩
  | .fails e => throw w e
  | .notReady => throw w (.ioMessage (notReadyMessage info))
  | .ready =>
    match IScsiLogicalUnit.readCapacity env.capacity with
    | .error e => throw w e
    | .ok capacity =>
      let sizeInBytes := toLong ((capacity.logicalBlockAddress + 1) * capacity.blockSize)
      match w.getEvidenceStore env.io info.evidencePath sizeInBytes readBlockSize with
      | (.error e, w) => throw w e
      | (.ok evidenceStore, w) =>
        match ReadGeometry.create capacity readBlockSize with
        | .error e => throw w e
        | .ok geometry =>
          match IScsiInputData.create (.new geometry) evidenceStore sizeInBytes readBlockSize with
          | .error e => throw w e
          | .ok inputData => ⟨.ok inputData, w, true⟩

variable {info : RemoteDeviceInfo} {env : OpenEnv} {w : EvidenceStoreFactory}

@[simp] theorem factory_throw (e : Exn) : (throw w e).factory = w := by cases e <;> rfl

@[simp] theorem value_throw_ne_ok (e : Exn) (d : IScsiInputData) : (throw w e).value ≠ .ok d := by
  cases e <;> exact nofun

/-- Opening a device does nothing to the factory, or obtains one evidence store from it.
    Input data that is returned is new, and uses this store and the capacity that the
    device reported. -/
theorem openDevice_cases (info : RemoteDeviceInfo) (env : OpenEnv) (w : EvidenceStoreFactory) :
    ((∀ d, (openDevice info env w).value ≠ .ok d) ∧ (openDevice info env w).factory = w) ∨
    ∃ capacity o, IScsiLogicalUnit.readCapacity env.capacity = .ok capacity ∧
      w.getEvidenceStore env.io info.evidencePath
        (toLong ((capacity.logicalBlockAddress + 1) * capacity.blockSize)) readBlockSize = o ∧
      (openDevice info env w).factory = o.2 ∧
      ∀ d, (openDevice info env w).value = .ok d → ∃ i geometry, o.1 = .ok i ∧
        ReadGeometry.create capacity readBlockSize = .ok geometry ∧
        d = ⟨.new geometry, i, toLong ((capacity.logicalBlockAddress + 1) * capacity.blockSize),
          readBlockSize, 0, true⟩ := by
  rw [openDevice]
  cases env.connecting with
  | contextFails message =>
    left
    refine ⟨fun d hd => ?_, rfl⟩
    dsimp only at hd
    cases hd
  | fails e =>
    left
    exact ⟨value_throw_ne_ok e, factory_throw e⟩
  | notReady =>
    left
    exact ⟨value_throw_ne_ok _, factory_throw _⟩
  | ready =>
    dsimp only
    cases hc : IScsiLogicalUnit.readCapacity env.capacity with
    | error e => exact .inl ⟨value_throw_ne_ok e, factory_throw e⟩
    | ok capacity =>
      refine .inr ⟨capacity, _, rfl, rfl, ?_⟩
      dsimp only
      match w.getEvidenceStore env.io info.evidencePath
        (toLong ((capacity.logicalBlockAddress + 1) * capacity.blockSize)) readBlockSize with
      | (.error e, w') => exact ⟨factory_throw e, fun d hd => absurd hd (value_throw_ne_ok e d)⟩
      | (.ok i, w') =>
        dsimp only
        cases hg : ReadGeometry.create capacity readBlockSize with
        | error e => exact ⟨factory_throw e, fun d hd => absurd hd (value_throw_ne_ok e d)⟩
        | ok geometry =>
          dsimp only
          cases hd : IScsiInputData.create (.new geometry) i
            (toLong ((capacity.logicalBlockAddress + 1) * capacity.blockSize)) readBlockSize with
          | error e => exact ⟨factory_throw e, fun d hd => absurd hd (value_throw_ne_ok e d)⟩
          | ok inputData =>
            refine ⟨rfl, fun d h => ⟨i, geometry, rfl, rfl, ?_⟩⟩
            cases h
            exact IScsiInputData.create_eq_ok hd

end RemoteDeviceManager

end Raqet
