import Raqet.Evidence.Integrity
import Raqet.IScsi.Tiling

/-!
# Readers of a device

If the answers to the requests are the sectors of a device of content `D` (`Honest`), the
buffers of the finished requests of a reader are blocks of the device (`Serving`), and so
is what the reader stores (`Effect.session`) and what it returns (`Effect.retrieves`).
-/

namespace Raqet

open Java Buffer EvidenceStore Session ReadGeometry

/-- What a device with sectors of `s` bytes has where the command reads. -/
def Read10.content (s : ℕ) (D : Buffer Byte) (c : Read10) : Buffer Byte :=
  D.slice (c.firstSector.toNat * s) c.dataLength.toNat

namespace IScsiBlockReader

variable {lastLBA s B n : ℕ} {D : Buffer Byte} {c : Read10} {r r' : IScsiBlockReader}
  {t t' : Session} {a : Action} {e : Env} {k : ℤ} {q : IScsiRead10Callback}

/-- What a device answers to the request for a block is this block. -/
theorem carries_content (h : ValidDisk lastLBA s B)
    (hc : (ofDisk lastLBA s B).read10 n none = .ok c) :
    Carries ((lastLBA + 1) * s) B D n
      ((zeros B : Buffer Byte).copy 0 (c.content s D) 0 (c.content s D).length) := by
  refine ⟨rfl, fun i hi => ?_⟩
  rw [inImage] at hi
  have hn : n < blocks ((lastLBA + 1) * s) B := (Raqet.lt_blocks_iff h.blockSize_pos).2 (by omega)
  obtain ⟨-, hfirst, hcount, -⟩ := exact_of_read10 h hn hc
  have hs : c.blockSize = s := blockSize_of_read10 hc
  set m := B / s with hm
  have hmB : m * s = B := h.mul_div
  -- What is in the image of the block is what the sectors of the command make up.
  have hsectors : min B ((lastLBA + 1) * s - n * B) = min m (lastLBA + 1 - n * m) * s := by
    rw [← hmB, ← Nat.mul_assoc, ← Nat.sub_mul, Nat.mul_min_mul_right]
  have hlen : i < c.dataLength.toNat := by
    have hle := Int.ediv_mul_le c.dataLength (b := c.blockSize) (by have := h.pos; omega)
    rw [← Read10.sectorCount, hcount, hs, ← Int.natCast_mul] at hle
    omega
  have hget : ((zeros B : Buffer Byte).copy 0 (c.content s D) 0
      (c.content s D).length).get (0 + i) = (c.content s D).get (0 + i) :=
    get_copy_of_mem _ _ hlen (by rw [length_zeros]; omega)
  rw [Nat.zero_add] at hget
  rw [hget, Read10.content, get_slice D hlen, Session.content, get_slice D (by omega), hfirst,
    Int.toNat_natCast, Nat.mul_assoc, hmB]

/-- A request in flight is for its block; its buffer is empty, or the block. -/
structure Request (lastLBA s B : ℕ) (D : Buffer Byte) (n : ℕ) (q : IScsiRead10Callback) : Prop where
  command : (ofDisk lastLBA s B).read10 n none = .ok q.command
  waiting : q.finished = false → q.buffer = zeros B
  carries : q.finished = true → q.exception = none → Carries ((lastLBA + 1) * s) B D n q.buffer

/-- The reader is one of this device. -/
structure Serving (lastLBA s B : ℕ) (D : Buffer Byte) (r : IScsiBlockReader) : Prop where
  geometry : r.geometry =
    { ofDisk lastLBA s B with totalBlockCount := countBlocks ((lastLBA + 1) * s : ℕ) B }
  request : ∀ n q, r.requestsInFlight.lookup n = some q → Request lastLBA s B D n q

/-- The answers are failures, or all the data of the device that was asked for. -/
def Honest (s : ℕ) (D : Buffer Byte) (r : IScsiBlockReader) : Action → Prop
  | .finish n (.good data) =>
    ∀ q, r.requestsInFlight.lookup n = some q → data = q.command.content s D
  | _ => True

theorem serving_new : Serving lastLBA s B D (.new
    { ofDisk lastLBA s B with totalBlockCount := countBlocks ((lastLBA + 1) * s : ℕ) B }) :=
  ⟨rfl, fun n q hq => by cases hq⟩

/-- A step of a reader of the device. -/
theorem Serving.step (h : Serving lastLBA s B D r) (hd : ValidDisk lastLBA s B)
    (heff : Effect r t a r' t') (ha : Honest s D r a) : Serving lastLBA s B D r' := by
  refine ⟨heff.geometry.trans h.geometry, fun n q hq => ?_⟩
  rcases heff.lookup_cases hq with
    hq | ⟨env, command, -, hc, rfl⟩ | ⟨outcome, q₀, rfl, hq₀, hf, -, rfl⟩
  · exact h.request n q hq
  · rw [h.geometry] at hc ⊢
    exact ⟨read10_none hc, fun _ => rfl, fun hf => by cases hf⟩
  · obtain ⟨hcommand, hwaiting, -⟩ := h.request n q₀ hq₀
    cases outcome with
    | failed error => exact ⟨hcommand, (by cases ·), fun _ hx => by cases hx⟩
    | good data =>
      refine ⟨hcommand, (by cases ·), fun _ _ => ?_⟩
      rw [IScsiRead10Callback.callback, hwaiting hf, ha q₀ hq₀]
      exact carries_content hd hcommand

/-- What a reader of the device does to its store and its files. -/
theorem Effect.session (heff : Effect r t a r' t') (h : Serving lastLBA s B D r)
    (hd : ValidDisk lastLBA s B) (ht : Safe ((lastLBA + 1) * s) B D t.store t.files.evidence)
    (hf : Trusted ((lastLBA + 1) * s) B D t.files) :
    t'.store.evidenceFilePath = t.store.evidenceFilePath ∧
      Keeps ((lastLBA + 1) * s) B D t.files.evidence t'.files.evidence ∧
      Safe ((lastLBA + 1) * s) B D t'.store t'.files.evidence ∧
      Trusted ((lastLBA + 1) * s) B D t'.files := by
  cases heff with
  | lookup env n _ =>
    refine ⟨?_, ?_, ?_, ?_⟩
    · rcases retrieveBlock_cases t.store env.io n t.files with ⟨e, he⟩ | ⟨b, -, -, he⟩ |
        ⟨k, -, -, -, -, he⟩ <;> rw [he] <;> rfl
    · rw [files_retrieveBlock]
      exact Keeps.refl _
    · rw [files_retrieveBlock]
      exact ht.retrieveBlock hd.blockSize_pos hd.blockSize_lt env.io n
    · rw [files_retrieveBlock]
      exact hf
  | store env q control _ hq hfin hx _ =>
    -- only this writes to the evidence file: the block that the request brought
    have hb := (h.request env.key q hq).carries hfin hx
    refine ⟨?_, ?_, ht.storeBlock hd.blockSize_pos hd.blockSize_lt hb env.io,
      hf.storeBlock ht.shape hb env.io⟩
    · rcases storeBlock_cases t.store env.io env.key q.buffer t.files with ⟨e, he⟩ | ⟨e, k, -, he⟩ |
        ⟨k, -, he⟩ <;> rw [he] <;> rfl
    · obtain ⟨k, hk, hfiles⟩ := ht.shape.files_storeBlock (n := env.key) hb.1 env.io t.files
      rw [hfiles]
      exact keeps_write hb hk
  | _ => exact ⟨rfl, Keeps.refl _, ht, hf⟩

/-- In a call of `retrieveBlock(k)`, or after it threw, or after it returned a block
    of the device. -/
def Retrieves (L B : ℕ) (D : Buffer Byte) (k : ℤ) (control : Control) : Prop :=
  control.blockNumber = some k ∨ (∃ x, control = .returned (.error x)) ∨
    ∃ (b : Block) (n : ℕ), control = .returned (.ok b) ∧ (n : ℤ) = k ∧ n < blocks L B ∧
      b.length = B ∧ AgreeOn (keptLength L B n) b (content D B n)

/-- A step of the thread in a call. -/
theorem Effect.retrieves {L : ℕ} (heff : Effect r t (.advance e) r' t') (hB : 0 < B)
    (hB' : B < 2 ^ 31) (ht : Safe L B D t.store t.files.evidence)
    (hk : r.control.blockNumber = some k) : Retrieves L B D k r'.control := by
  have hfollows : ∀ control, r.control.Follows control → Retrieves L B D k control := by
    rintro control (h | h)
    exacts [.inl (h.trans hk), .inr (.inl h)]
  cases heff with
  | move env control hf _ => exact hfollows control hf
  | lookup env n hc =>
    rw [hc] at hk
    obtain rfl : (n : ℤ) = k := Option.some.inj hk
    cases hv : (t.store.retrieveBlock e.io n t.files).value with
    | error x => exact .inr (.inl ⟨x, rfl⟩)
    | ok b =>
      obtain ⟨hlen, hagree, hlt⟩ := ht.value_retrieveBlock hB hB' hv
      exact .inr (.inr ⟨b, n, rfl, rfl, lt_blocks_of_lt_countBlocks hB hB' hlt, hlen, hagree⟩)
  | request env n command control hf _ _ _ => exact hfollows control hf
  | drop env q control hf _ _ _ _ => exact hfollows control hf
  | store env q control hf _ _ _ _ => exact hfollows control hf

end IScsiBlockReader

end Raqet
