import Raqet.Evidence.Integrity

/-!
# Crashes

The process may be killed at any moment, also in the middle of a call. What is
then on disk is what the call would have left had its file operations failed
there: a prefix of its write (`OnDisk`).

The bitmap is flushed after the data it speaks of was written, and writing the
same data again, complete or not, changes nothing. Hence on disk, at every
moment, a bit of a whole block means that the data of the block is there
(`crashConsistent`): whole blocks are always transferred completely, even when
their end overflows.
-/

namespace Raqet

open Java Buffer EvidenceStore

namespace Session

variable {L B : ℕ} {s t : Session} {c : Call} {f : Files} {D : Buffer Byte}

/-- The calls that only store blocks of the device. -/
def StoresContent (L B : ℕ) (D : Buffer Byte) : Call → Prop
  | .storeBlock _ n b => Carries L B D n b
  | _ => True

/-- What may be on disk when the process is killed during a call. Here, `stop`
    tells where the call is interrupted. -/
inductive OnDisk (s : Session) : Call → Files → Prop
  | storeBlock (io stop : Io) (n : ℕ) (b : Block) :
    OnDisk s (.storeBlock io n b) (s.store.storeBlock stop n b s.files).files
  | retrieveBlock (io : Io) (n : ℕ) : OnDisk s (.retrieveBlock io n) s.files
  | synctodisk (io stop : Io) : OnDisk s (.synctodisk io) (s.store.synctodisk stop s.files).2
  /-- The bitmap is flushed before the files are closed. -/
  | flush (stop : Io) : OnDisk s .reopen (s.store.synctodisk stop s.files).2
  /-- The new store extends the files. -/
  | create (stop : OpenIo) :
    OnDisk s .reopen (create stop s.store.evidenceFilePath s.store.imageLength s.store.blockSize
      (s.store.synctodisk .ok s.files).2).2

/-- Every whole block whose bit is set in the bitmap file is in the evidence file. -/
def Consistent (L B : ℕ) (D : Buffer Byte) (f : Files) : Prop :=
  ∀ n, BitSet.bit f.bitmap n = true → (n + 1) * B ≤ L → f.evidence.HoldsAt (n * B) (content D B n) B

/-- From a missing or empty bitmap file, and as long as only blocks of the device
    are stored, the files are consistent at every moment: during the constructor,
    between calls, and during a call, wherever it fails. -/
def CrashConsistent (L B : ℕ) (D : Buffer Byte) : Prop :=
  ∀ path evidence bitmap, (openRw bitmap).length = 0 →
    (∀ stop, Consistent L B D (create stop path L B (Files.ofFound evidence bitmap)).2) ∧
    ∀ s₀ calls s, start path L B (Files.ofFound evidence bitmap) = some s₀ →
      (∀ c ∈ calls, StoresContent L B D c) → Transition.runs step s₀ calls = some s →
      Consistent L B D s.files ∧
        ∀ c f, StoresContent L B D c → OnDisk s c f → Consistent L B D f

theorem Trusted.consistent (h : Trusted L B D f) : Consistent L B D f := by
  intro n hn hL
  have hholds := h n hn
  rwa [keptLength_of_le hL] at hholds

/-- The store holds what it should, and so do its files. -/
structure Sound (L B : ℕ) (D : Buffer Byte) (s : Session) : Prop where
  safe : Safe L B D s.store s.files.evidence
  trusted : Trusted L B D s.files

theorem Trusted.start {path : String} (h : Trusted L B D f) (hs : start path L B f = some s) :
    Sound L B D s := by
  obtain ⟨ho, rfl⟩ := start_eq_some.1 hs
  have hf := h.create .ok path L B
  rw [create_ok ho] at hf
  exact ⟨h.safe_opened ho, hf⟩

theorem Sound.step (h : Sound L B D s) (hB : 0 < B) (hB' : B < 2 ^ 31)
    (hc : StoresContent L B D c) (hs : step s c = some t) : Sound L B D t := by
  cases c with
  | storeBlock io n b =>
    cases hs
    exact ⟨h.safe.storeBlock hB hB' hc io, h.trusted.storeBlock h.safe.shape hc io⟩
  | retrieveBlock io n =>
    cases hs
    refine ⟨?_, ?_⟩
    · rw [files_retrieveBlock]
      exact h.safe.retrieveBlock hB hB' io n
    · rw [files_retrieveBlock]
      exact h.trusted
  | synctodisk io =>
    cases hs
    refine ⟨?_, h.trusted.synctodisk h.safe io⟩
    rw [evidence_synctodisk]
    exact h.safe
  | reopen =>
    rw [step_reopen h.safe.shape] at hs
    exact (h.trusted.synctodisk h.safe .ok).start hs

/-- What is on disk during a call is consistent. -/
theorem Sound.onDisk (h : Sound L B D s) (hc : StoresContent L B D c) (hf : OnDisk s c f) :
    Trusted L B D f := by
  cases hf with
  | storeBlock io stop n b => exact h.trusted.storeBlock h.safe.shape hc stop
  | retrieveBlock io n => exact h.trusted
  | synctodisk io stop => exact h.trusted.synctodisk h.safe stop
  | flush stop => exact h.trusted.synctodisk h.safe stop
  | create stop => exact (h.trusted.synctodisk h.safe .ok).create stop _ _ _

/-- Whatever fails, and whenever the process is killed, a bit on disk of a block
    that is wholly inside the image means that its data is on disk. -/
theorem crashConsistent (L B : ℕ) (D : Buffer Byte) (hB' : B < 2 ^ 31) : CrashConsistent L B D := by
  intro path evidence bitmap hempty
  have h₀ : Trusted L B D (Files.ofFound evidence bitmap) := trusted_of_length_eq_zero hempty
  refine ⟨fun stop => (h₀.create stop path L B).consistent, fun s₀ calls s hs₀ hcalls hs => ?_⟩
  have hB := (start_eq_some.1 hs₀).1.1
  have h : Sound L B D s :=
    Transition.runs_invariant (P := fun _ c => StoresContent L B D c)
      (fun _ _ _ hc h hs => h.step hB hB' hc hs) hs
      (Transition.AllSteps.of_forall fun _ => hcalls) (h₀.start hs₀)
  exact ⟨h.trusted.consistent, fun c f hc hf => (h.onDisk hc hf).consistent⟩

/-- A disk of ten bytes, from `1` to `10`. -/
def counting : Buffer Byte := .ofFn 10 fun i => BitVec.ofNat 8 (i + 1)

/-- The first of its blocks is stored, and flushed; the write of the second one fails in the
    middle. -/
def storesTwo : List Call :=
  [.storeBlock .ok 0 (content counting 4 0), .synctodisk .ok,
    .storeBlock (.failsAfter 3) 1 (content counting 4 1)]

/-- The process is killed while it writes the first block again. -/
theorem crashConsistent_small : ∃ s₀ s f, start "disk" 10 4 (Files.ofFound none none) = some s₀ ∧
    Transition.runs step s₀ storesTwo = some s ∧
    OnDisk s (.storeBlock .ok 0 (content counting 4 0)) f ∧ BitSet.bit f.bitmap 0 = true ∧
    f.evidence.HoldsAt 0 (content counting 4 0) 4 := by
  have hrun : ((start "disk" 10 4 (Files.ofFound none none)).bind fun s₀ =>
      (Transition.runs step s₀ storesTwo).map fun s => BitSet.bit
        (s.store.storeBlock (.failsAfter 2) 0 (content counting 4 0) s.files).files.bitmap 0) =
      some true := by decide +kernel
  obtain ⟨s₀, h₀, hrun⟩ := Option.bind_eq_some_iff.1 hrun
  obtain ⟨s, hs, hbit⟩ := Option.map_eq_some_iff.1 hrun
  have hcarries (n : ℕ) : Carries 10 4 counting n (content counting 4 n) := ⟨rfl, .refl _ _⟩
  have hstores : ∀ c ∈ storesTwo, StoresContent 10 4 counting c := by
    intro c hc
    simp only [storesTwo, List.mem_cons, List.not_mem_nil, or_false] at hc
    rcases hc with rfl | rfl | rfl
    exacts [hcarries 0, trivial, hcarries 1]
  have hdisk := OnDisk.storeBlock (s := s) .ok (.failsAfter 2) 0 (content counting 4 0)
  obtain ⟨-, hconsistent⟩ := (crashConsistent 10 4 counting (by decide) "disk" none none rfl).2
    s₀ storesTwo s h₀ hstores hs
  refine ⟨s₀, s, _, h₀, hs, hdisk, hbit, ?_⟩
  exact hconsistent (.storeBlock .ok 0 _) _ (hcarries 0) hdisk 0 hbit (by decide)

end Session

end Raqet
