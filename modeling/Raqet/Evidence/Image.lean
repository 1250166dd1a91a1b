import Raqet.Evidence.Frame
import Raqet.Evidence.Recovery

/-!
# The image of a disk

Once all blocks of a disk are stored, its evidence file should be the disk. Of the last block,
if it ends past the disk, `storedLength` bytes are written, the number of those that are *not*
on the disk (unless the end overflows). So the file is the disk exactly when this happens to be
the number of those that are (`exact_iff`). Otherwise it is too long, or its end is left zero,
even when nothing fails (`storeAll`).
-/

namespace Raqet

open Java Buffer EvidenceStore

namespace Session

/-- The events that only store blocks of the device, and none past its end. -/
def Event.StoresImage (L B : ℕ) (D : Buffer Byte) (e : Event) : Prop :=
  e.StoresContent L B D ∧
    match e with
    | .call (.storeBlock _ n _) | .crash (.storeBlock _ n _) _ => n < blocks L B
    | _ => True

/-- From an evidence file that is not longer than the image, and a missing or empty bitmap
    file: in every run of calls and crashes that stores blocks of a device of this length, the
    evidence file is the device when all its blocks are stored. -/
def Exact (L B : ℕ) : Prop :=
  ∀ D : Buffer Byte, D.length = L → ∀ path evidence bitmap, (openRw evidence).length ≤ L →
    (openRw bitmap).length = 0 → ∀ s₀ l s,
      start path L B (Files.ofFound evidence bitmap) = some s₀ →
      (∀ e ∈ l, e.StoresImage L B D) → Transition.runs event s₀ l = some s →
      (∀ n < blocks L B, s.store.containsBlock n = true) → s.files.evidence = D

/-- The disk ends with a block, or in the middle of one whose end does not overflow. -/
def EndsEvenly (L B : ℕ) : Prop := L % B = 0 ∨ 2 * (L % B) = B ∧ blocks L B * B < 2 ^ 31

instance (L B : ℕ) : Decidable (EndsEvenly L B) := by unfold EndsEvenly; infer_instance

variable {L B n k : ℕ} {s t : Session} {D : Buffer Byte} {e : Event} {f : Files}

/-! ## Disks that end evenly -/

/-- All blocks fit. -/
theorem EndsEvenly.fits (h : EndsEvenly L B) (hB : 0 < B) (hn : n < blocks L B) : Fits L B n := by
  by_cases hle : (n + 1) * B ≤ L
  · exact Or.inl hle
  · obtain ⟨hdiv, hblocks, hrest⟩ := last_block hB hn (not_le.1 hle)
    have hmod := Nat.div_add_mod' L B
    rw [hdiv] at hmod
    rw [Nat.succ_mul] at hle
    rcases h with h | ⟨h, hlt⟩
    · have := (lt_blocks_iff hB).1 hn
      omega
    · rw [hblocks, Nat.succ_mul] at hlt
      refine Or.inr ⟨by rwa [Nat.succ_mul], ?_⟩
      rw [Nat.succ_mul]
      omega

theorem EndsEvenly.transfers (h : EndsEvenly L B) : Transfers L B := by
  rcases h with h | ⟨h, -⟩
  exacts [Or.inl h, Or.inr (Or.inl h.le)]

/-- The constructor leaves an evidence file alone that is as long as the image. -/
theorem evidence_create (stop : OpenIo) (path : String) (B : ℤ) (h : L ≤ f.evidence.length) :
    (create stop path L B f).2.evidence = f.evidence := by
  have hsame : extendEvidence L f = f := if_neg (by exact_mod_cast h.not_gt)
  rcases files_create_cases stop path L B f with he | he | ⟨m, k, he⟩ <;>
    simp only [he, hsame, evidence_extendBitmap]

/-- No event changes the length of the evidence file. -/
theorem Alive.length_event (h : Alive L B D s) (hB : 0 < B) (hB' : B < 2 ^ 31)
    (hfits : ∀ n < blocks L B, Fits L B n) (he : e.StoresImage L B D)
    (hs : Session.event s e = some t) (hL : s.files.evidence.length = L) :
    t.files.evidence.length = L := by
  -- a start extends the file to the length that it has
  have hstart : ∀ {path : String} {f : Files}, f.evidence.length = L →
      start path L B f = some t → t.files.evidence.length = L := by
    intro path f hf hs
    obtain ⟨-, rfl⟩ := start_eq_some.1 hs
    rw [length_evidence_extend, hf, max_self]
  obtain ⟨hcontent, himage⟩ := he
  cases e with
  | call c =>
    rw [length_step hB hB' h.geometry hL.ge ?_ hs, hL]
    cases c with
    | storeBlock io n b => exact ⟨himage, hcontent.1, hfits n himage⟩
    | retrieveBlock | synctodisk | reopen => trivial
  | crash cut stops =>
    rw [Session.event, h.geometry.imageLength, h.geometry.blockSize] at hs
    have hcut : (s.filesAt cut).evidence.length = L := by
      cases cut with
      | storeBlock stop n b =>
        rw [filesAt]
        rcases h.geometry.storeBlock_cases hB hB' himage hcontent.1 stop s.files with
          ⟨e, he⟩ | ⟨e, k, hk, he⟩ | he <;> rw [he]
        · exact hL
        · exact ((write_frame hB himage (hfits n himage) hk hL.ge).2).trans hL
        · exact ((write_frame hB himage (hfits n himage) le_rfl hL.ge).2).trans hL
      | synctodisk stop => rw [filesAt, evidence_synctodisk, hL]
      | reopen stop =>
        rw [filesAt, h.geometry.imageLength, h.geometry.blockSize, evidence_create,
          evidence_synctodisk, hL]
        rw [evidence_synctodisk, hL]
    refine hstart ?_ hs
    -- nor do the attempts to start again change it
    clear hs hcontent himage
    generalize s.filesAt cut = f at hcut
    induction stops generalizing f with
    | nil => exact hcut
    | cons stop stops ih =>
      refine ih _ ?_
      rw [evidence_create _ _ _ hcut.ge, hcut]

/-- A file that holds all blocks of a device is the device. -/
theorem Covers.eq (h : Covers L B D (· < blocks L B) f.evidence) (hB : 0 < B)
    (ht : Transfers L B) (hL : f.evidence.length = L) (hD : D.length = L) : f.evidence = D := by
  refine eq_of_agreeOn hL hD fun i hi => ?_
  have hmod := Nat.div_add_mod' i B
  have hlt := Nat.mod_lt i hB
  have hn : i / B < blocks L B := (lt_blocks_iff hB).2 (by omega)
  have hkept : i % B < keptLength L B (i / B) :=
    lt_min (lt_min hlt (by omega)) ((lt_min hlt (by omega)).trans_le
      (inImage_le_storedLength hB ht hn))
  have hget := (h _ hn _ hkept).2
  rwa [content, get_slice _ hlt, hmod] at hget

/-! ## Storing all blocks in order -/

/-- A device without zeros. -/
def allOnes (L : ℕ) : Buffer Byte := .ofFn L fun _ => 1

/-- The first `k` blocks of the device are stored, in order, and nothing fails. -/
def storeAll (B k : ℕ) (D : Buffer Byte) : List Event :=
  (List.range k).map fun n => .call (.storeBlock .ok n (content D B n))

theorem storesImage_storeAll (hk : k ≤ blocks L B) (e : Event) (he : e ∈ storeAll B k D) :
    e.StoresImage L B D := by
  obtain ⟨n, hn, rfl⟩ := List.mem_map.1 he
  exact ⟨⟨rfl, .refl _ _⟩, (List.mem_range.1 hn).trans_le hk⟩

/-- The first `k` blocks are stored, and nothing was written past them. -/
structure Acquired (L B k : ℕ) (s : Session) : Prop where
  geometry : Geometry L B s.store
  stored : ∀ n < k, n ∈ s.store.bitmap
  rest : ∀ i, k * B ≤ i → s.files.evidence.get i = 0

/-- The next block is stored. -/
theorem Acquired.succ (h : Acquired L B k s) (hB : 0 < B) (hB' : B < 2 ^ 31)
    (hk : k < blocks L B) {b : Block} (hb : b.length = B) :
    ∃ t, event s (.call (.storeBlock .ok k b)) = some t ∧ Acquired L B (k + 1) t ∧
      t.files.evidence = s.files.evidence.write (k * B) b (storedLength L B k) := by
  have hok := h.geometry.storeBlock_ok hB hB' hk hb s.files
  have hle := storedLength_le hk hB
  refine ⟨⟨(s.store.cacheBlock k b).setBit k,
    s.files.writeEvidence (k * B) b (storedLength L B k)⟩, ?_, ⟨?_, fun n hn => ?_, fun i hi => ?_⟩,
    rfl⟩
  · rw [event, step, hok]
  · have hgeo := h.geometry.storeBlock .ok k b s.files
    rwa [hok] at hgeo
  · rw [bitmap_setBit, bitmap_cacheBlock, Finset.mem_insert]
    rcases Nat.lt_succ_iff_lt_or_eq.1 hn with hn | hn
    exacts [Or.inr (h.stored n hn), Or.inl hn]
  · rw [Nat.succ_mul] at hi
    rw [evidence_writeEvidence, get_write_of_notMem _ _ (Or.inr (by omega))]
    exact h.rest i (by omega)

/-- From new files, the first `k` blocks are stored in order. -/
theorem acquired_storeAll (hB : 0 < B) (hB' : B < 2 ^ 31) {path : String}
    (h₀ : start path L B (Files.ofFound none none) = some s) :
    ∀ k ≤ blocks L B, ∃ t, Transition.runs event s (storeAll B k D) = some t ∧
      Acquired L B k t := by
  intro k hk
  induction k with
  | zero =>
    refine ⟨s, rfl, geometry_start h₀, fun n hn => absurd hn n.not_lt_zero, fun i _ => ?_⟩
    obtain ⟨-, rfl⟩ := start_eq_some.1 h₀
    rw [extend, evidence_extendBitmap, extendEvidence]
    split_ifs
    exacts [get_setLength _ (Nat.zero_le _) i, rfl]
  | succ k ih =>
    obtain ⟨t, ht, hacquired⟩ := ih (Nat.le_of_succ_le hk)
    obtain ⟨u, hu, hacquired, -⟩ := hacquired.succ hB hB' hk (b := content D B k) rfl
    refine ⟨u, ?_, hacquired⟩
    rw [storeAll, List.range_succ, List.map_append]
    exact Transition.runs_concat.2 ⟨t, ht, hu⟩

/-- The bytes of the device that are not written would be zero. -/
theorem Exact.endsEvenly (h : Exact L B) (hB' : B < 2 ^ 31) (ho : Opens L B) :
    EndsEvenly L B := by
  have hB := ho.1
  by_cases hmod : L % B = 0
  · exact Or.inl hmod
  have hdiv := Nat.div_add_mod' L B
  have hlt : L < (L / B + 1) * B := by
    rw [Nat.succ_mul]
    have := Nat.mod_lt L hB
    omega
  have hn : L / B < blocks L B := (lt_blocks_iff hB).2 (by omega)
  obtain ⟨-, hblocks, -⟩ := last_block hB hn hlt
  obtain ⟨s, h₀⟩ : ∃ s, start "" L B (Files.ofFound none none) = some s :=
    ⟨_, start_eq_some.2 ⟨ho, rfl⟩⟩
  -- All blocks of a device without zeros are stored; the last write comes last.
  obtain ⟨t, ht, hacquired⟩ := acquired_storeAll (D := allOnes L) hB hB' h₀ _ hn.le
  obtain ⟨u, hu, hall, hevidence⟩ :=
    hacquired.succ hB hB' hn (b := content (allOnes L) B (L / B)) rfl
  have hrun : Transition.runs event s (storeAll B (blocks L B) (allOnes L)) = some u := by
    rw [hblocks, storeAll, List.range_succ, List.map_append]
    exact Transition.runs_concat.2 ⟨t, ht, hu⟩
  have heq := h (allOnes L) rfl "" none none (Nat.zero_le L) rfl s _ u h₀
    (storesImage_storeAll le_rfl) hrun
    fun n hn => containsBlock_iff.2 (hall.stored n (hblocks ▸ hn))
  rw [heq] at hevidence
  have hlength : L / B * B + storedLength L B (L / B) ≤ L := by
    have hwrite := congrArg Buffer.length hevidence
    rw [length_write _ _ _ (storedLength_pos hB)] at hwrite
    exact (le_max_right _ _).trans hwrite.ge
  have hrest : ¬L / B * B + storedLength L B (L / B) < L := by
    intro hlt
    have hget := congrFun (congrArg Buffer.get hevidence) (L / B * B + storedLength L B (L / B))
    rw [get_write_of_notMem _ _ (Or.inr le_rfl), hacquired.rest _ (Nat.le_add_right _ _), allOnes,
      get_ofFn _ hlt] at hget
    exact absurd hget (by decide)
  rw [Nat.succ_mul] at hlt
  rw [storedLength, Nat.succ_mul] at hlength hrest
  split_ifs at hlength hrest with hwrite
  · refine Or.inr ⟨by omega, ?_⟩
    rw [hblocks, Nat.succ_mul]
    exact hwrite.2
  · omega

/-- Once all blocks of a disk are stored, the evidence file is the disk, whatever failed and
    however often the process was killed, exactly when the disk ends with a block, or in the
    middle of one whose end does not overflow. -/
theorem exact_iff (L B : ℕ) (hB' : B < 2 ^ 31) (ho : Opens L B) : Exact L B ↔ EndsEvenly L B := by
  have hB := ho.1
  refine ⟨fun h => h.endsEvenly hB' ho, fun h D hD path evidence bitmap hle hempty s₀ l s h₀ hl hs
    hall => ?_⟩
  have hstart : Alive L B D s₀ := alive_start (trusted_of_length_eq_zero hempty) h₀
  have hlength : s₀.files.evidence.length = L := by
    obtain ⟨-, rfl⟩ := start_eq_some.1 h₀
    rw [length_evidence_extend]
    exact max_eq_right hle
  obtain ⟨halive, hL⟩ := Transition.runs_invariant (P := fun _ e => Event.StoresImage L B D e)
    (I := fun u => Alive L B D u ∧ u.files.evidence.length = L)
    (fun _ _ _ he hu hs => ⟨hu.1.event hB hB' he.1 hs,
      hu.1.length_event hB hB' (fun _ hn => h.fits hB hn) he hs hu.2⟩)
    hs (.of_forall fun _ => hl) ⟨hstart, hlength⟩
  exact Covers.eq (halive.sound.safe.memory.mono fun n hn => containsBlock_iff.1 (hall n hn)) hB
    h.transfers hL hD

/-- A disk of whole sectors of `512` bytes does not end evenly, unless it ends on a block or on
    half of one. -/
theorem exact_iff_sectors : Exact 98304 65536 ∧ ¬Exact 66048 65536 :=
  ⟨(exact_iff 98304 65536 (by decide) ⟨by decide, by decide⟩).2 (by decide),
    fun h => absurd ((exact_iff 66048 65536 (by decide) ⟨by decide, by decide⟩).1 h) (by decide)⟩

end Session

end Raqet
