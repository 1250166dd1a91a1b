import Raqet.Evidence.Session

/-!
# What storing a block changes

Storing the block `n` writes `storedLength` bytes at the beginning of its range
in the evidence file. For a block that ends past the image, this is the length
of the part that is not in the image, or the whole block when its end
overflows; the write stays in the image only if this happens to be at most the
part that is (`Fits`).

* `write_frame`: in a file of at least the length of the image, a write of
  a block that fits stays inside the block and the image, and keeps the length;
* `staysInside_iff`: a block that does not fit makes the evidence file grow.
-/

namespace Raqet

open Java EvidenceStore

namespace Session

variable {L B n : ℕ} {s t : Session}

/-- The block ends inside the image, or else its end does not overflow and at
    least half of the block is in the image. -/
def Fits (L B n : ℕ) : Prop :=
  (n + 1) * B ≤ L ∨ ((n + 1) * B < 2 ^ 31 ∧ (n + 1) * B - L ≤ L - n * B)

instance (L B n : ℕ) : Decidable (Fits L B n) := by unfold Fits; infer_instance

/-- A block fits when its write stays in the image. -/
theorem fits_iff (hB : 0 < B) (hn : n < blocks L B) :
    Fits L B n ↔ n * B + storedLength L B n ≤ L := by
  have hL := (lt_blocks_iff hB).1 hn
  rw [Fits, storedLength, Nat.succ_mul]
  split_ifs with h <;> omega

/-- A successful `storeBlock` of the block `n` changes only bytes of the evidence
    file in the range of the block and in the image, and keeps its length. -/
def StaysInside (L B n : ℕ) : Prop :=
  ∀ s, Reachable L B s → ∀ io b, b.length = B → ∀ s' f',
    s.store.storeBlock io n b s.files = ⟨.ok (), s', f'⟩ →
    (∀ i, f'.evidence.get i ≠ s.files.evidence.get i → n * B ≤ i ∧ i < min ((n + 1) * B) L) ∧
      f'.evidence.length = s.files.evidence.length

/-- The calls that only store whole blocks of the image that fit. -/
def StoresFit (L B : ℕ) : Call → Prop
  | .storeBlock _ n b => n < blocks L B ∧ b.length = B ∧ Fits L B n
  | _ => True

/-- The write of a block that fits, complete or not. -/
theorem write_frame {f : Buffer Byte} {b : Block} {k : ℕ} (hB : 0 < B) (hn : n < blocks L B)
    (hfit : Fits L B n) (hk : k ≤ storedLength L B n) (hf : L ≤ f.length) :
    (∀ i, (f.write (n * B) b k).get i ≠ f.get i → n * B ≤ i ∧ i < min ((n + 1) * B) L) ∧
      (f.write (n * B) b k).length = f.length := by
  have hle := (fits_iff hB hn).1 hfit
  have hB' := storedLength_le hn hB
  refine ⟨fun i hi => ?_, Buffer.length_write_of_le b (by omega)⟩
  by_contra hout
  rw [Nat.succ_mul, lt_min_iff] at hout
  exact hi (Buffer.get_write_of_notMem f b (by omega))

/-- No call makes the evidence file shorter. -/
theorem length_le_step {c : Call} (hgeo : Geometry L B s.store) (hs : step s c = some t) :
    s.files.evidence.length ≤ t.files.evidence.length := by
  cases c with
  | storeBlock io n b =>
    cases hs
    rcases storeBlock_cases s.store io n b s.files with ⟨e, he⟩ | ⟨e, k, -, he⟩ | ⟨k, -, he⟩ <;>
      simp only [he, evidence_writeEvidence, le_refl]
    exacts [Buffer.length_le_length_write _ _ _ _, Buffer.length_le_length_write _ _ _ _]
  | retrieveBlock io n =>
    cases hs
    rw [files_retrieveBlock]
  | synctodisk io =>
    cases hs
    rw [evidence_synctodisk]
  | reopen =>
    rw [step_reopen hgeo.toShape] at hs
    obtain ⟨_, rfl⟩ := start_eq_some.1 hs
    rw [length_evidence_extend, evidence_synctodisk]
    exact le_max_left _ _

/-- The evidence file is never shorter than the image. -/
theorem Reachable.length_le (h : Reachable L B s) : L ≤ s.files.evidence.length := by
  obtain ⟨path, evidence, bitmap, s₀, calls, hs₀, hs⟩ := h
  have hgeo₀ := geometry_start hs₀
  obtain ⟨_, rfl⟩ := start_eq_some.1 hs₀
  refine (Transition.runs_induction
    (P := fun _ s => Geometry L B s.store ∧ L ≤ s.files.evidence.length)
    ⟨hgeo₀, by rw [length_evidence_extend]; exact le_max_right _ _⟩ ?_ hs).2
  rintro _ s c t _ ⟨hgeo, hle⟩ hc
  exact ⟨geometry_step hgeo hc, hle.trans (length_le_step hgeo hc)⟩

/-- A step that only stores blocks that fit keeps the length of the evidence file. -/
theorem length_step {c : Call} (hB : 0 < B) (hB' : B < 2 ^ 31) (hgeo : Geometry L B s.store)
    (hle : L ≤ s.files.evidence.length) (hc : StoresFit L B c) (hs : step s c = some t) :
    t.files.evidence.length = s.files.evidence.length := by
  cases c with
  | storeBlock io n b =>
    obtain ⟨hn, hb, hfit⟩ := hc
    cases hs
    rcases hgeo.storeBlock_cases hB hB' hn hb io s.files with ⟨e, he⟩ | ⟨e, k, hk, he⟩ | he <;>
      simp only [he, evidence_writeEvidence]
    exacts [(write_frame hB hn hfit hk hle).2, (write_frame hB hn hfit le_rfl hle).2]
  | retrieveBlock io n =>
    cases hs
    rw [files_retrieveBlock]
  | synctodisk io =>
    cases hs
    rw [evidence_synctodisk]
  | reopen =>
    rw [step_reopen hgeo.toShape] at hs
    obtain ⟨_, rfl⟩ := start_eq_some.1 hs
    rw [length_evidence_extend, evidence_synctodisk]
    exact max_eq_left hle

/-- A block that fits is stored inside its block. -/
theorem staysInside_of_fits (hB : 0 < B) (hB' : B < 2 ^ 31) (hn : n < blocks L B)
    (hfit : Fits L B n) : StaysInside L B n := by
  intro s hs io b hb s' f' hstore
  rcases hs.geometry.2.storeBlock_cases hB hB' hn hb io s.files with ⟨e, he⟩ | ⟨e, k, -, he⟩ | he
  · rw [he] at hstore
    cases hstore
  · rw [he] at hstore
    cases hstore
  · rw [he, Outcome.mk.injEq] at hstore
    obtain ⟨_, _, rfl⟩ := hstore
    exact write_frame hB hn hfit le_rfl hs.length_le

/-- A block that does not fit makes a fresh evidence file grow. -/
theorem not_staysInside_of_not_fits (hB : 0 < B) (hB' : B < 2 ^ 31) (ho : Opens L B)
    (hn : n < blocks L B) (hfit : ¬Fits L B n) : ¬StaysInside L B n := by
  intro h
  have hstart : start "" L B (Files.ofFound none none) = some _ := start_eq_some.2 ⟨ho, rfl⟩
  have hreach : Reachable L B _ := ⟨"", none, none, _, [], hstart, rfl⟩
  have hstore := (geometry_start hstart).storeBlock_ok hB hB' hn (b := .zeros B) rfl
  have hlen := (h _ hreach .ok (.zeros B) rfl _ _ (hstore _)).2
  rw [evidence_writeEvidence, Buffer.length_write _ _ _ (storedLength_pos hB),
    length_evidence_extend] at hlen
  have hL : max (Files.ofFound none none).evidence.length L = L := max_eq_right (Nat.zero_le L)
  rw [fits_iff hB hn] at hfit
  rw [hL] at hlen
  omega

/-- Storing a block stays inside it, in every reachable session, exactly when
    the block fits; and in a session that only stores blocks that fit, the evidence
    file stays at the length it was given by the constructor. -/
theorem staysInside_iff (L B : ℕ) (hB : 0 < B) (hB' : B < 2 ^ 31) (ho : Opens L B) :
    (∀ n < blocks L B, (StaysInside L B n ↔ Fits L B n)) ∧
      ∀ path evidence bitmap s₀ calls s, start path L B (Files.ofFound evidence bitmap) = some s₀ →
        (∀ c ∈ calls, StoresFit L B c) → Transition.runs step s₀ calls = some s →
        s.files.evidence.length = s₀.files.evidence.length := by
  refine ⟨fun n hn => ⟨fun h => ?_, staysInside_of_fits hB hB' hn⟩, ?_⟩
  · by_contra hfit
    exact not_staysInside_of_not_fits hB hB' ho hn hfit h
  · intro path evidence bitmap s₀ calls s hs₀ hcalls hs
    induction calls using List.reverseRecOn generalizing s with
    | nil =>
      cases hs
      rfl
    | append_singleton calls c ih =>
      obtain ⟨t, ht, hc⟩ := Transition.runs_concat.1 hs
      have hreach : Reachable L B t := ⟨path, evidence, bitmap, s₀, calls, hs₀, ht⟩
      rw [length_step hB hB' hreach.geometry.2 hreach.length_le (hcalls c (by simp)) hc,
        ih t (fun d hd => hcalls d (by simp [hd])) ht]

/-- A disk of `512` bytes more than a block: storing its last block makes the
    evidence file grow. -/
theorem not_staysInside_small : ¬StaysInside 66048 65536 1 :=
  not_staysInside_of_not_fits (by decide) (by decide) ⟨by decide, by decide⟩ (by decide) (by decide)

theorem staysInside_iff_half :
    (∀ n < blocks 98304 65536, (StaysInside 98304 65536 n ↔ Fits 98304 65536 n)) ∧
    Fits 98304 65536 1 :=
  ⟨(staysInside_iff 98304 65536 (by decide) (by decide) ⟨by decide, by decide⟩).1, by decide⟩

end Session

end Raqet
