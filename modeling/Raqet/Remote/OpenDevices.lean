import Raqet.Remote.DeviceManager
import Raqet.Transition

/-!
# The readers of one evidence path

Devices whose evidence is kept at one path are opened and closed in any order, and
each opening that succeeds makes a new reader (`OpenDevices`). What the device answers
and which operations fail is decided at each call: the device may report another
capacity every time, and the connection, the flush of the bitmap and the files may all
fail to close.

A reader that was closed stays in the list: its `close` may be called again.

* `Obtains`: when `openDevice` gets as far as obtaining an evidence store;
* `step_openDevice` and `step_close`: all that a call can do.
-/

namespace Raqet

open Java EvidenceStore

/-- A reader can be made for a device of this capacity. -/
def IScsiLogicalUnitCapacity.Usable (c : IScsiLogicalUnitCapacity) : Prop :=
  0 ≤ c.sizeInBytes ∧ ∃ geometry, ReadGeometry.create c readBlockSize = .ok geometry

/-- The device is ready, and reports this capacity. -/
def OpenEnv.Reports (env : OpenEnv) (c : IScsiLogicalUnitCapacity) : Prop :=
  env.connecting = .ready ∧ IScsiLogicalUnit.readCapacity env.capacity = .ok c

/-- A device reports one capacity. -/
theorem OpenEnv.Reports.unique {env : OpenEnv} {c c' : IScsiLogicalUnitCapacity}
    (h : env.Reports c) (h' : env.Reports c') : c = c' := Except.ok.inj (h.2.symm.trans h'.2)

/-- A new evidence store can be opened for a device of this capacity. -/
def OpenEnv.Opens (env : OpenEnv) (c : IScsiLogicalUnitCapacity) : Prop :=
  env.io = .ok ∧ 0 ≤ c.sizeInBytes ∧ 0 ≤ bitmapSize (countBlocks c.sizeInBytes readBlockSize)

/-- A factory, and the readers made so far. -/
structure OpenDevices where
  factory : EvidenceStoreFactory
  readers : List IScsiInputData

namespace OpenDevices

open EvidenceStoreFactory

/-- The calls on the devices and readers of one path. -/
inductive Call
  | openDevice (info : RemoteDeviceInfo) (env : OpenEnv)
  | close (j : ℕ) (connection : Option String) (io : Io) (closeIo : CloseIo)

/-- The readers after a call of `openDevice`. -/
def add (readers : List IScsiInputData) : Except Exn IScsiInputData → List IScsiInputData
  | .ok d => readers ++ [d]
  | .error _ => readers

/-- A call; whether it returns or throws, the others go on. -/
def step (path : String) (g : OpenDevices) : Call → Option OpenDevices
  | .openDevice info env =>
    if info.evidencePath = path then
      let o := RemoteDeviceManager.openDevice info env g.factory
      some ⟨o.factory, add g.readers o.value⟩
    else none
  | .close j connection io closeIo =>
    g.readers[j]?.map fun d =>
      let o := d.close connection io closeIo g.factory
      ⟨o.2.2, g.readers.set j o.2.1⟩

/-- A new factory, over these files. -/
def init (disk : String → Files) : OpenDevices := ⟨⟨fun _ => none, [], disk⟩, []⟩

/-- The reader that `openDevice` makes. -/
def reader (c : IScsiLogicalUnitCapacity) (geometry : ReadGeometry) (i : ℕ) : IScsiInputData :=
  ⟨.new geometry, i, c.sizeInBytes, readBlockSize, 0, true⟩

/-- `openDevice`, having obtained the store `i`, makes a reader, if the capacity is
    usable, and takes the readers `l` to `l'`. -/
def Makes (c : IScsiLogicalUnitCapacity) (i : ℕ) (l l' : List IScsiInputData) : Prop :=
  (∃ geometry, c.Usable ∧ ReadGeometry.create c readBlockSize = .ok geometry ∧
    l' = l ++ [reader c geometry i]) ∨
  (¬c.Usable ∧ l' = l)

/-- The number of the readers `l` of the store `i` that are open. -/
def openReaders (l : List IScsiInputData) (i : ℕ) : ℕ :=
  l.countP fun d => d.isOpen && d.evidenceStore == i

/-- `openDevice` obtains an evidence store from the factory. -/
def Obtains (path : String) (g : OpenDevices) (env : OpenEnv) (c : IScsiLogicalUnitCapacity) :
    Prop :=
  env.Reports c ∧ (g.factory.evidenceStores path ≠ none ∨ env.Opens c)

/-! ## The factory -/

variable {path : String} {g g' : OpenDevices} {info : RemoteDeviceInfo} {env : OpenEnv}
  {c : IScsiLogicalUnitCapacity} {w w' : EvidenceStoreFactory} {i j : ℕ} {d : IScsiInputData}

/-- A new evidence store is opened exactly when nothing fails and its bitmap can be
    allocated. -/
theorem create_cases (path : String) (env : OpenEnv) (c : IScsiLogicalUnitCapacity) (f : Files) :
    (¬env.Opens c ∧ ∃ e f', create env.io path c.sizeInBytes readBlockSize f = (.error e, f')) ∨
    (env.Opens c ∧ ∃ f', create env.io path c.sizeInBytes readBlockSize f =
      (.ok (opened path c.sizeInBytes readBlockSize f'), f')) := by
  rw [create, OpenEnv.Opens]
  by_cases h₁ : c.sizeInBytes < 0
  · exact .inl ⟨fun h => h₁.not_ge h.2.1, _, _, if_pos h₁⟩
  rw [if_neg h₁, if_neg (by decide)]
  by_cases h₂ : env.io = .openFails
  · exact .inl ⟨fun h => absurd h.1 (by simp [h₂]), _, _, if_pos h₂⟩
  rw [if_neg h₂, if_neg (by decide)]
  by_cases h₃ : env.io = .extendFails
  · exact .inl ⟨fun h => absurd h.1 (by simp [h₃]), _, _, if_pos h₃⟩
  rw [if_neg h₃]
  dsimp only
  by_cases h₄ : bitmapSize (countBlocks c.sizeInBytes readBlockSize) < 0
  · exact .inl ⟨fun h => h₄.not_ge h.2.2, _, _, if_pos h₄⟩
  rw [if_neg h₄]
  cases hio : env.io with
  | ok => exact .inr ⟨⟨rfl, not_lt.1 h₁, not_lt.1 h₄⟩, _, rfl⟩
  | openFails => exact absurd hio h₂
  | extendFails => exact absurd hio h₃
  | bitmapFails k => exact .inl ⟨fun h => absurd h.1 (by rintro ⟨⟩), _, _, rfl⟩
  | readFails => exact .inl ⟨fun h => absurd h.1 (by rintro ⟨⟩), _, _, rfl⟩

/-- The store of a path: the one in the map with one more reference, or else a new one. -/
theorem getEvidenceStore_cases (path : String) (env : OpenEnv) (c : IScsiLogicalUnitCapacity)
    (w : EvidenceStoreFactory) :
    (∃ i, w.evidenceStores path = some i ∧
      w.getEvidenceStore env.io path c.sizeInBytes readBlockSize =
        (.ok i, { w with objects := w.objects.modify i incRefCount })) ∨
    (w.evidenceStores path = none ∧ ¬env.Opens c ∧ ∃ e f,
      w.getEvidenceStore env.io path c.sizeInBytes readBlockSize = (.error e, w.setFiles path f)) ∨
    (w.evidenceStores path = none ∧ env.Opens c ∧ ∃ f,
      w.getEvidenceStore env.io path c.sizeInBytes readBlockSize =
        (.ok w.objects.length,
          { w.setFiles path f with
            evidenceStores := Function.update w.evidenceStores path (some w.objects.length)
            objects :=
              w.objects ++ [(opened path c.sizeInBytes readBlockSize f).incRefCount] })) := by
  rw [EvidenceStoreFactory.getEvidenceStore]
  cases hi : w.evidenceStores path with
  | some i => exact .inl ⟨i, rfl, rfl⟩
  | none =>
    right
    dsimp only
    rcases create_cases path env c (w.disk path) with ⟨ho, e, f, he⟩ | ⟨ho, f, he⟩
    · left
      rw [he]
      exact ⟨rfl, ho, e, f, rfl⟩
    · right
      rw [he]
      exact ⟨rfl, ho, f, rfl⟩

/-- The constructor of the block reader throws no `IScsiException`. -/
theorem readGeometry_ne_iScsi {readBlockSize : ℤ} {e : Exn} (message : String)
    (h : ReadGeometry.create c readBlockSize = .error e) : e ≠ .iScsi message := by
  rintro rfl
  rw [ReadGeometry.create, argNotNegative] at h
  by_cases hneg : readBlockSize < 0
  · rw [if_pos hneg] at h
    cases h
  · rw [if_neg hneg] at h
    dsimp only [bind, Except.bind] at h
    split_ifs at h <;> cases h

/-- Nor does the factory of evidence stores. -/
theorem getEvidenceStore_ne_iScsi {io : OpenIo} {length blockSize : ℤ} {e : Exn} (message : String)
    (h : w.getEvidenceStore io path length blockSize = (.error e, w')) : e ≠ .iScsi message := by
  rintro rfl
  rw [EvidenceStoreFactory.getEvidenceStore] at h
  cases hi : w.evidenceStores path with
  | some i =>
    rw [hi] at h
    cases h
  | none =>
    rw [hi] at h
    dsimp only at h
    cases hc : create io path length blockSize (w.disk path) with
    | mk result f =>
      rw [hc] at h
      cases result with
      | ok s => cases h
      | error e =>
        cases h
        rw [create] at hc
        dsimp only at hc
        split_ifs at hc <;> first | cases hc | (cases io <;> cases hc)

@[simp] theorem add_throw (readers : List IScsiInputData) (e : Exn) :
    add readers (RemoteDeviceManager.throw w e).value = readers := by
  cases e <;> rfl

theorem openDevice_error {e : Exn} (h : env.Reports c)
    (hs : w.getEvidenceStore env.io info.evidencePath c.sizeInBytes readBlockSize =
      (.error e, w')) :
    RemoteDeviceManager.openDevice info env w = RemoteDeviceManager.throw w' e := by
  unfold IScsiLogicalUnitCapacity.sizeInBytes at hs
  rw [RemoteDeviceManager.openDevice, h.1]
  dsimp only
  rw [h.2]
  dsimp only
  rw [hs]

/-- Once it obtained a store, `openDevice` returns a new reader exactly when the capacity
    is usable. What it throws else is not an `IScsiException`. -/
theorem openDevice_obtained (h : env.Reports c)
    (hs : w.getEvidenceStore env.io info.evidencePath c.sizeInBytes readBlockSize = (.ok i, w')) :
    (∃ geometry, c.Usable ∧ ReadGeometry.create c readBlockSize = .ok geometry ∧
      RemoteDeviceManager.openDevice info env w = ⟨.ok (reader c geometry i), w', true⟩) ∨
    (¬c.Usable ∧ ∃ e, (∀ message, e ≠ .iScsi message) ∧
      RemoteDeviceManager.openDevice info env w = RemoteDeviceManager.throw w' e) := by
  unfold IScsiLogicalUnitCapacity.sizeInBytes at hs
  rw [RemoteDeviceManager.openDevice, h.1]
  dsimp only
  rw [h.2]
  dsimp only
  rw [hs]
  dsimp only
  cases hg : ReadGeometry.create c readBlockSize with
  | error e =>
    refine .inr ⟨?_, e, fun message => readGeometry_ne_iScsi message hg, rfl⟩
    rintro ⟨-, geometry, hgeometry⟩
    rw [hg] at hgeometry
    cases hgeometry
  | ok geometry =>
    dsimp only
    by_cases hsize : 0 ≤ c.sizeInBytes
    · have hd : IScsiInputData.create (.new geometry) i
          (toLong ((c.logicalBlockAddress + 1) * c.blockSize)) readBlockSize =
            .ok (reader c geometry i) := by
        rw [IScsiInputData.create, argNotNegative_ok (show 0 ≤ toLong _ from hsize)]
        rfl
      rw [hd]
      exact .inl ⟨geometry, ⟨hsize, geometry, hg⟩, rfl, rfl⟩
    · have hd : IScsiInputData.create (.new geometry) i
          (toLong ((c.logicalBlockAddress + 1) * c.blockSize)) readBlockSize =
            .error (.illegalArgument (negativeMessage "size" c.sizeInBytes)) := by
        rw [IScsiInputData.create, argNotNegative, if_pos (show toLong _ < 0 from not_le.1 hsize)]
        rfl
      rw [hd]
      exact .inr ⟨fun h => hsize h.1, _, by rintro _ ⟨⟩, rfl⟩

/-- So it makes a reader, or none. -/
theorem openDevice_ok (h : env.Reports c)
    (hs : w.getEvidenceStore env.io info.evidencePath c.sizeInBytes readBlockSize = (.ok i, w')) :
    (RemoteDeviceManager.openDevice info env w).factory = w' ∧ ∀ readers,
      Makes c i readers (add readers (RemoteDeviceManager.openDevice info env w).value) := by
  rcases openDevice_obtained h hs with ⟨geometry, hu, hg, ho⟩ | ⟨hu, e, -, ho⟩ <;> rw [ho]
  · exact ⟨rfl, fun _ => .inl ⟨geometry, hu, hg, rfl⟩⟩
  · exact ⟨RemoteDeviceManager.factory_throw e, fun _ => .inr ⟨hu, add_throw _ e⟩⟩

/-- Without the capacity of the device, `openDevice` fails and asks for no store. -/
theorem openDevice_unreported (hr : ¬∃ c, env.Reports c) :
    ∃ e, RemoteDeviceManager.openDevice info env w = RemoteDeviceManager.throw w e := by
  rw [RemoteDeviceManager.openDevice]
  cases hconn : env.connecting with
  | contextFails message => exact ⟨.iScsi message, rfl⟩
  | fails e => exact ⟨e, rfl⟩
  | notReady => exact ⟨_, rfl⟩
  | ready =>
    dsimp only
    cases hc : IScsiLogicalUnit.readCapacity env.capacity with
    | error e => exact ⟨e, rfl⟩
    | ok c => exact absurd ⟨c, hconn, hc⟩ hr

/-- All that a call of `openDevice` can do: it fails, and leaves the stores as they are;
    or it shares the store of the path; or it opens a new store. -/
theorem step_openDevice (h : step path g (.openDevice info env) = some g') :
    ((∀ c, ¬Obtains path g env c) ∧ ∃ disk, g' = { g with factory := { g.factory with disk } }) ∨
    (∃ c i readers, env.Reports c ∧ g.factory.evidenceStores path = some i ∧
      Makes c i g.readers readers ∧
      g' = ⟨{ g.factory with objects := g.factory.objects.modify i incRefCount }, readers⟩) ∨
    (∃ c f disk readers, env.Reports c ∧ g.factory.evidenceStores path = none ∧ env.Opens c ∧
      Makes c g.factory.objects.length g.readers readers ∧
      g' = ⟨⟨Function.update g.factory.evidenceStores path (some g.factory.objects.length),
        g.factory.objects ++ [(opened path c.sizeInBytes readBlockSize f).incRefCount], disk⟩,
        readers⟩) := by
  rw [step] at h
  split_ifs at h with hpath
  subst hpath
  cases h
  by_cases hr : ∃ c, env.Reports c
  · obtain ⟨c, hc⟩ := hr
    rcases getEvidenceStore_cases info.evidencePath env c g.factory with
      ⟨i, hi, he⟩ | ⟨hn, ho, e, f, he⟩ | ⟨hn, ho, f, he⟩
    · obtain ⟨hw, hd⟩ := openDevice_ok hc he
      exact .inr (.inl ⟨c, i, _, hc, hi, hd _, by rw [hw]⟩)
    · refine .inl ⟨fun c' h => ?_, (g.factory.setFiles info.evidencePath f).disk, ?_⟩
      swap
      · dsimp only
        rw [openDevice_error hc he, RemoteDeviceManager.factory_throw, add_throw]
        rfl
      rcases h.2 with hne | ho'
      · exact hne hn
      · exact ho (h.1.unique hc ▸ ho')
    · obtain ⟨hw, hd⟩ := openDevice_ok hc he
      exact .inr (.inr ⟨c, f, (g.factory.setFiles _ f).disk, _, hc, hn, ho, hd _, by rw [hw]⟩)
  · obtain ⟨e, he⟩ : ∃ e, RemoteDeviceManager.openDevice info env g.factory =
        RemoteDeviceManager.throw g.factory e := openDevice_unreported hr
    refine .inl ⟨fun c h => hr ⟨c, h.1⟩, g.factory.disk, ?_⟩
    rw [he, RemoteDeviceManager.factory_throw, add_throw]

/-- All that closing a reference can do: the flush fails, maybe because the bitmap file
    has been closed; or the reference is not the last one; or it is. -/
theorem closeEvidenceStore_cases (w : EvidenceStoreFactory) (io : Io) (closeIo : CloseIo) (i : ℕ) :
    ((io ≠ .ok ∨ ∀ s, w.objects[i]? = some s → s.bitmapOpen = false) ∧
      ∃ disk, (w.closeEvidenceStore io closeIo i).2 = { w with disk }) ∨
    (∃ s disk, w.objects[i]? = some s ∧ io = .ok ∧ s.decRefCount.refCount ≠ 0 ∧
      (w.closeEvidenceStore io closeIo i).2 =
        { w with disk, objects := w.objects.set i s.decRefCount }) ∨
    (∃ s disk, w.objects[i]? = some s ∧ io = .ok ∧ s.decRefCount.refCount = 0 ∧
      (w.closeEvidenceStore io closeIo i).2 =
        { w with
          disk
          objects := w.objects.set i (s.decRefCount.doclose closeIo).2
          evidenceStores := if closeIo = .ok then
              Function.update w.evidenceStores s.evidenceFilePath none
            else w.evidenceStores }) := by
  cases hi : w.objects[i]? with
  | none =>
    rw [closeEvidenceStore, hi]
    exact .inl ⟨.inr (by rintro _ ⟨⟩), _, rfl⟩
  | some s =>
    rw [closeEvidenceStore, hi]
    dsimp only
    by_cases hf : io = .ok ∧ s.bitmapOpen = true
    · obtain ⟨rfl, ho⟩ := hf
      right
      rw [synctodisk_ok ho]
      dsimp only
      by_cases hc : s.decRefCount.refCount = 0
      · right
        rw [if_pos hc]
        refine ⟨s, (w.flushed s).disk, rfl, rfl, hc, ?_⟩
        cases closeIo <;> rfl
      · left
        rw [if_neg hc]
        exact ⟨s, _, rfl, rfl, hc, rfl⟩
    · left
      -- the flush fails, and nothing after it is done
      have hsync : ∃ f, s.synctodisk io (w.disk s.evidenceFilePath) = (.error .io, f) := by
        cases io with
        | ok => exact ⟨_, if_pos (.inr (by simpa using hf))⟩
        | seekFails => exact ⟨_, rfl⟩
        | failsAfter k =>
          rw [synctodisk]
          split_ifs <;> exact ⟨_, rfl⟩
      obtain ⟨f, hf'⟩ := hsync
      rw [hf']
      refine ⟨?_, _, rfl⟩
      by_contra hc
      push Not at hc
      obtain ⟨hio, t, ht, ho⟩ := hc
      exact hf ⟨hio, by simpa [Option.some.inj ht] using ho⟩

/-- All that a call of `close` can do: it is ignored; or the connection fails to close;
    or the reference to the store is closed. In any case, the reader is closed then. -/
theorem step_close {connection : Option String} {io : Io} {closeIo : CloseIo}
    (h : step path g (.close j connection io closeIo) = some g') :
    ∃ d, g.readers[j]? = some d ∧
      ((d.isOpen = false ∧ g' = g) ∨
      (d.isOpen = true ∧ connection ≠ none ∧
        g' = ⟨g.factory, g.readers.set j { d with isOpen := false }⟩) ∨
      (d.isOpen = true ∧ connection = none ∧
        g' = ⟨(g.factory.closeEvidenceStore io closeIo d.evidenceStore).2,
          g.readers.set j { d with isOpen := false }⟩)) := by
  rw [step, Option.map_eq_some_iff] at h
  obtain ⟨d, hd, rfl⟩ := h
  refine ⟨d, hd, ?_⟩
  unfold IScsiInputData.close
  cases ho : d.isOpen with
  | false =>
    left
    obtain ⟨hj, rfl⟩ := List.getElem?_eq_some_iff.1 hd
    exact ⟨rfl, congrArg (OpenDevices.mk g.factory) (List.set_getElem_self hj)⟩
  | true =>
    right
    cases connection with
    | none => exact .inr ⟨rfl, rfl, rfl⟩
    | some message => exact .inl ⟨rfl, nofun, rfl⟩

/-! ## A device -/

/-- A device with sectors of 512 bytes. -/
def device : RemoteDeviceInfo :=
  ⟨⟨"10.0.0.1:3260", "iqn.2015-01.org.raqet:disk", 0, ⟨127, 512⟩, ⟨"10.0.0.1:3260", "", ""⟩⟩,
    .ofPath "/evidence", "0000-disk.dd"⟩

/-- It is opened, and reports this number of its last sector. -/
def openDevice (lastLBA : ℤ) : Call := .openDevice device ⟨.ready, .good (lastLBA, 512), .ok⟩

/-- Empty files at every path. -/
def emptyFiles : String → Files := fun _ => ⟨.zeros 0, .zeros 0⟩

end OpenDevices

end Raqet
