import Raqet.Evidence.Factory
import Raqet.Evidence.Integrity

/-!
# All stores of a device

A factory may have made several stores on the files of one device: when the last
reference to a store is closed, the next one opens a new store, while the old object may
still be in use. All of them stay safe, since whatever one of them does to the evidence
file keeps what is there (`Stores`).
-/

namespace Raqet

open Java EvidenceStore Session EvidenceStoreFactory

variable {L B i n : ℕ} {D : Buffer Byte} {path : String} {w w' : EvidenceStoreFactory}
  {s : EvidenceStore} {t : Session} {b : Block}

/-- The stores of the factory are those of one device, whose content is `D`. -/
structure Stores (L B : ℕ) (D : Buffer Byte) (path : String) (w : EvidenceStoreFactory) : Prop where
  safe : ∀ s ∈ w.objects, s.evidenceFilePath = path ∧ Safe L B D s (w.disk path).evidence
  trusted : Trusted L B D (w.disk path)

namespace Stores

theorem init {disk : String → Files} (h : (disk path).bitmap.length = 0) :
    Stores L B D path ⟨fun _ => none, [], disk⟩ where
  safe s hs := by cases hs
  trusted := trusted_of_length_eq_zero h

/-- The files of the device are changed. -/
theorem setFiles {f : Files} (h : Stores L B D path w)
    (hk : Keeps L B D (w.disk path).evidence f.evidence) (hf : Trusted L B D f) :
    Stores L B D path (w.setFiles path f) where
  safe s hs := by
    rw [disk_setFiles]
    exact ⟨(h.safe s hs).1, (h.safe s hs).2.keeps hk⟩
  trusted := by
    rw [disk_setFiles]
    exact hf

/-- The state of a store is changed. -/
theorem setObject (h : Stores L B D path w) (hpath : s.evidenceFilePath = path)
    (hs : Safe L B D s (w.disk path).evidence) (i : ℕ) : Stores L B D path (w.setObject i s) where
  safe s' hs' := by
    rcases List.mem_or_eq_of_mem_set hs' with hs' | rfl
    exacts [h.safe s' hs', ⟨hpath, hs⟩]
  trusted := h.trusted

/-- The map from paths to stores does not matter. -/
theorem setMap (h : Stores L B D path w) (m : String → Option ℕ) :
    Stores L B D path { w with evidenceStores := m } := ⟨h.safe, h.trusted⟩

/-- The state of a store and of the files is changed. -/
theorem setSession (h : Stores L B D path w) (hpath : t.store.evidenceFilePath = path)
    (hk : Keeps L B D (w.disk path).evidence t.files.evidence)
    (hs : Safe L B D t.store t.files.evidence) (hf : Trusted L B D t.files) (i : ℕ) :
    Stores L B D path (w.setSession i t) := by
  rw [EvidenceStoreFactory.setSession, hpath]
  refine (h.setFiles hk hf).setObject hpath ?_ i
  rw [disk_setFiles]
  exact hs

/-- A store of the factory with its files. -/
theorem session (h : Stores L B D path w) (ht : w.session i = some t) :
    t.store.evidenceFilePath = path ∧ t.files = w.disk path ∧
      Safe L B D t.store t.files.evidence := by
  obtain ⟨s, hs, rfl⟩ := Option.map_eq_some_iff.1 ht
  obtain ⟨hpath, hsafe⟩ := h.safe s (List.mem_of_getElem? hs)
  refine ⟨hpath, by rw [hpath], ?_⟩
  rw [hpath]
  exact hsafe

/-- Obtaining a store, that is in the map or new. -/
theorem getEvidenceStore (h : Stores L B D path w) (io : OpenIo) :
    Stores L B D path (w.getEvidenceStore io path L B).2 := by
  rw [EvidenceStoreFactory.getEvidenceStore]
  cases w.evidenceStores path with
  | some i =>
    refine ⟨fun s hs => ?_, h.trusted⟩
    obtain ⟨j, hj⟩ := List.mem_iff_getElem?.1 hs
    rw [List.getElem?_modify, Option.map_eq_map, Option.map_eq_some_iff] at hj
    obtain ⟨s₀, hs₀, rfl⟩ := hj
    obtain ⟨hpath, hsafe⟩ := h.safe s₀ (List.mem_of_getElem? hs₀)
    dsimp only
    split_ifs
    · exact ⟨hpath, hsafe.congr (hsafe.shape.congr rfl rfl rfl) rfl rfl⟩
    · exact ⟨hpath, hsafe⟩
  | none =>
    -- a new store trusts the blocks whose bits are in the file
    have hf := h.setFiles (keeps_create io path L B) (h.trusted.create io path L B)
    match hc : create io path L B (w.disk path) with
    | (.error e, f) =>
      rw [hc] at hf
      exact hf
    | (.ok s, f) =>
      obtain ⟨ho, rfl, rfl⟩ := create_eq_ok hc
      rw [hc] at hf
      have hsafe : Safe L B D (opened path L B (extend L B (w.disk path)))
          ((w.setFiles path (extend L B (w.disk path))).disk path).evidence := by
        rw [disk_setFiles]
        exact h.trusted.safe_opened ho
      refine ⟨fun s hs => ?_, hf.trusted⟩
      rcases List.mem_append.1 hs with hs | hs
      · exact hf.safe s hs
      · obtain rfl := List.mem_singleton.1 hs
        exact ⟨rfl, hsafe.congr (hsafe.shape.congr rfl rfl rfl) rfl rfl⟩

/-- Closing a reference, whatever fails. -/
theorem closeEvidenceStore (h : Stores L B D path w) (io : Io) (closeIo : CloseIo) (i : ℕ) :
    Stores L B D path (w.closeEvidenceStore io closeIo i).2 := by
  rw [EvidenceStoreFactory.closeEvidenceStore]
  cases hi : w.objects[i]? with
  | none => exact h
  | some s =>
    obtain ⟨hpath, hsafe⟩ := h.safe s (List.mem_of_getElem? hi)
    have hev := evidence_synctodisk s io (w.disk path)
    have hf : Stores L B D path (w.setFiles path (s.synctodisk io (w.disk path)).2) :=
      h.setFiles (hev ▸ Keeps.refl _) (h.trusted.synctodisk hsafe io)
    -- The store in any later state, with the same blocks.
    have hobject : ∀ s' : EvidenceStore, s'.evidenceFilePath = path → Shape L B s' →
        s'.bitmap = s.bitmap → s'.cachedBlocks = s.cachedBlocks →
        Stores L B D path ((w.setFiles path (s.synctodisk io (w.disk path)).2).setObject i s') := by
      intro s' hpath' hshape hbits hcache
      refine hf.setObject hpath' ?_ i
      rw [disk_setFiles, hev]
      exact hsafe.congr hshape hbits hcache
    have hshape := hsafe.shape
    dsimp only
    rw [hpath]
    rcases hsync : s.synctodisk io (w.disk path) with ⟨_ | _, f⟩
    · rw [hsync] at hf
      exact hf
    · rw [hsync] at hobject
      dsimp only
      split_ifs with hcount
      · cases closeIo with
        | ok =>
          refine (hobject { s.decRefCount with evidenceOpen := false, bitmapOpen := false } hpath
            (hshape.congr rfl rfl rfl) rfl rfl).setMap _
        | evidenceFails => exact hobject _ hpath (hshape.congr rfl rfl rfl) rfl rfl
        | bitmapFails => exact hobject _ hpath (hshape.congr rfl rfl rfl) rfl rfl
      · exact hobject _ hpath (hshape.congr rfl rfl rfl) rfl rfl

end Stores

end Raqet
