import Raqet.Evidence.Session

/-!
# The factory of evidence stores

`EvidenceStoreFactory` hands out the evidence store of a path: the one in its
map, or else a new one. Each store counts the references to it; the last one to
be closed closes the files and removes the store from the map. Every close
flushes the bitmap first.

The objects made so far are kept in a list, and a reference is an index in it.
A missing file counts as an empty one, since opening it creates it.
-/

namespace Raqet

open Java EvidenceStore

/-- An `EvidenceStoreFactory` object, the stores it made, and the files on disk. -/
structure EvidenceStoreFactory where
  /-- The map from paths to stores. -/
  evidenceStores : String → Option ℕ
  /-- The stores made so far. -/
  objects : List EvidenceStore
  /-- The files of each path. -/
  disk : String → Files

namespace EvidenceStoreFactory

/-- The factory with other files at a path. -/
def setFiles (w : EvidenceStoreFactory) (path : String) (f : Files) : EvidenceStoreFactory :=
  { w with disk := Function.update w.disk path f }

/-- The factory with another state of the store `i`. -/
def setObject (w : EvidenceStoreFactory) (i : ℕ) (s : EvidenceStore) : EvidenceStoreFactory :=
  { w with objects := w.objects.set i s }

/-- The store `i` with its files. -/
def session (w : EvidenceStoreFactory) (i : ℕ) : Option Session :=
  w.objects[i]?.map fun s => ⟨s, w.disk s.evidenceFilePath⟩

/-- The factory with another state of the store `i` and of its files. -/
def setSession (w : EvidenceStoreFactory) (i : ℕ) (t : Session) : EvidenceStoreFactory :=
  (w.setObject i t.store).setFiles t.store.evidenceFilePath t.files

/-- `getEvidenceStore(evidenceFile, length, blockSize)`. -/
def getEvidenceStore (w : EvidenceStoreFactory) (io : OpenIo) (path : String)
    (length blockSize : ℤ) : Except Exn ℕ × EvidenceStoreFactory :=
  match w.evidenceStores path with
  | some i => (.ok i, { w with objects := w.objects.modify i incRefCount })
  | none =>
    match create io path length blockSize (w.disk path) with
    | (.error e, f) => (.error e, w.setFiles path f)
    | (.ok s, f) => (.ok w.objects.length,
        { w.setFiles path f with
          evidenceStores := Function.update w.evidenceStores path (some w.objects.length)
          objects := w.objects ++ [s.incRefCount] })

/-- `closeEvidenceStore(evidenceStore)`. If the flush fails, the reference is
    still counted. -/
def closeEvidenceStore (w : EvidenceStoreFactory) (io : Io) (closeIo : CloseIo) (i : ℕ) :
    Except Exn Unit × EvidenceStoreFactory :=
  match w.objects[i]? with
  | none => (.error .nullPointer, w)
  | some s =>
    match s.synctodisk io (w.disk s.evidenceFilePath) with
    | (.error e, f) => (.error e, w.setFiles s.evidenceFilePath f)
    | (.ok (), f) =>
      let w₁ := w.setFiles s.evidenceFilePath f
      if s.decRefCount.refCount = 0 then
        match s.decRefCount.doclose closeIo with
        | (.error e, s₂) => (.error e, w₁.setObject i s₂)
        | (.ok (), s₂) => (.ok (), { w₁.setObject i s₂ with
            evidenceStores := Function.update w.evidenceStores s.evidenceFilePath none })
      else (.ok (), w₁.setObject i s.decRefCount)

variable {w : EvidenceStoreFactory} {i : ℕ} {s : EvidenceStore}

@[simp] theorem disk_setFiles (path : String) (f : Files) : (w.setFiles path f).disk path = f :=
  Function.update_self ..

/-- The files of the store `s` after a complete flush of its bitmap. -/
def flushed (w : EvidenceStoreFactory) (s : EvidenceStore) : EvidenceStoreFactory :=
  w.setFiles s.evidenceFilePath ((w.disk s.evidenceFilePath).writeBitmap
    (BitSet.toByteArray s.bitmap) (BitSet.toByteArray s.bitmap).length)

/-- Closing the last reference, as the counter has it. -/
theorem closeEvidenceStore_last (hi : w.objects[i]? = some s) (ho : s.bitmapOpen = true)
    (hc : s.decRefCount.refCount = 0) :
    (w.closeEvidenceStore .ok .ok i).2 =
      { (w.flushed s).setObject i
          { s.decRefCount with evidenceOpen := false, bitmapOpen := false } with
        evidenceStores := Function.update w.evidenceStores s.evidenceFilePath none } := by
  rw [closeEvidenceStore, hi]
  dsimp only
  rw [synctodisk_ok ho]
  dsimp only
  rw [if_pos hc]
  rfl

/-- Closing another reference. -/
theorem closeEvidenceStore_other (hi : w.objects[i]? = some s) (ho : s.bitmapOpen = true)
    (hc : s.decRefCount.refCount ≠ 0) :
    (w.closeEvidenceStore .ok .ok i).2 = (w.flushed s).setObject i s.decRefCount := by
  rw [closeEvidenceStore, hi]
  dsimp only
  rw [synctodisk_ok ho]
  dsimp only
  rw [if_neg hc]
  rfl

end EvidenceStoreFactory

end Raqet
