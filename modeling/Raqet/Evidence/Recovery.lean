import Raqet.Evidence.Crash

/-!
# After a crash

A process that was killed is started again, and opens a new store on the files that it
finds; it may be killed again while it does. What was not flushed is lost, but for what a
later call happened to flush.

* `onDisk_iff`: the files that are found are those of a call that was cut off (`Cut`);
* `survives`: in any run of calls and crashes in which only blocks of a device are stored,
  what is retrieved is data of the device; and a whole block that was stored when the bitmap
  was flushed is retrieved, exactly, ever after.
-/

namespace Raqet

open Java Buffer EvidenceStore

namespace Session

/-- Where a call was cut off. -/
inductive Cut
  | storeBlock (stop : Io) (n : ℕ) (b : Block)
  | synctodisk (stop : Io)
  | reopen (stop : OpenIo)

/-- The call that was cut off. -/
def Cut.call : Cut → Call
  | .storeBlock stop n b => .storeBlock stop n b
  | .synctodisk stop => .synctodisk stop
  | .reopen _ => .reopen

/-- What it left on disk. -/
def filesAt (s : Session) : Cut → Files
  | .storeBlock stop n b => (s.store.storeBlock stop n b s.files).files
  | .synctodisk stop => (s.store.synctodisk stop s.files).2
  | .reopen stop => (create stop s.store.evidenceFilePath s.store.imageLength s.store.blockSize
      (s.store.synctodisk .ok s.files).2).2

/-- The files after attempts to open a store on them that were cut off. -/
def attempted (path : String) (l b : ℤ) (f : Files) (stops : List OpenIo) : Files :=
  stops.foldl (fun f stop => (create stop path l b f).2) f

/-- What may happen to a session that may crash. -/
inductive Event
  | call (c : Call)
  /-- The process is killed, and so are some of the next ones while they open the store. -/
  | crash (cut : Cut) (stops : List OpenIo)

/-- The session after a call, or that of the next process. -/
def event (s : Session) : Event → Option Session
  | .call c => step s c
  | .crash cut stops =>
    start s.store.evidenceFilePath s.store.imageLength s.store.blockSize
      (attempted s.store.evidenceFilePath s.store.imageLength s.store.blockSize (s.filesAt cut)
        stops)

/-- The events that only store blocks of the device. -/
def Event.StoresContent (L B : ℕ) (D : Buffer Byte) : Event → Prop
  | .call c => Session.StoresContent L B D c
  | .crash cut _ => Session.StoresContent L B D cut.call

/-- The calls that flush the bitmap. -/
def Flushes : Call → Prop
  | .synctodisk io => io = .ok
  | .reopen => True
  | _ => False

variable {L B n : ℕ} {s t : Session} {c : Call} {f : Files} {D : Buffer Byte} {e : Event}

/-- Buffers that agree as far as they go are equal. -/
theorem eq_of_agreeOn {b b' : Buffer Byte} {k : ℕ} (hb : b.length = k) (hb' : b'.length = k)
    (h : AgreeOn k b b') : b = b' := by
  ext1
  · rw [hb, hb']
  · funext i
    by_cases hi : i < k
    · exact h i hi
    · rw [b.get_of_length_le i (hb ▸ not_lt.1 hi), b'.get_of_length_le i (hb' ▸ not_lt.1 hi)]

/-! ## What is found -/

theorem onDisk_filesAt (s : Session) (cut : Cut) : OnDisk s cut.call (s.filesAt cut) := by
  cases cut with
  | storeBlock stop n b => exact .storeBlock stop stop n b
  | synctodisk stop => exact .synctodisk stop stop
  | reopen stop => exact .create stop

/-- A process that is killed during a call, or between two, leaves the files of a call that
    was cut off. -/
theorem onDisk_iff : (∃ c, OnDisk s c f) ↔ ∃ cut, f = s.filesAt cut := by
  constructor
  · rintro ⟨c, hf⟩
    cases hf with
    | storeBlock io stop n b => exact ⟨.storeBlock stop n b, rfl⟩
    | retrieveBlock io n => exact ⟨.synctodisk .seekFails, rfl⟩
    | synctodisk io stop => exact ⟨.synctodisk stop, rfl⟩
    | flush stop => exact ⟨.synctodisk stop, rfl⟩
    | create stop => exact ⟨.reopen stop, rfl⟩
  · rintro ⟨cut, rfl⟩
    exact ⟨cut.call, onDisk_filesAt s cut⟩

/-- Attempts to open a store keep the data, and set no bit. -/
theorem Trusted.attempted (h : Trusted L B D f) (path : String) (l b : ℤ) (stops : List OpenIo) :
    Trusted L B D (attempted path l b f stops) := by
  induction stops generalizing f with
  | nil => exact h
  | cons stop stops ih => exact ih (h.create stop path l b)

theorem bit_attempted (path : String) (l b : ℤ) (stops : List OpenIo) :
    BitSet.bit (attempted path l b f stops).bitmap n = BitSet.bit f.bitmap n := by
  induction stops generalizing f with
  | nil => rfl
  | cons stop stops ih => exact ih.trans (bit_create stop path l b)

/-! ## Bits that were flushed -/

/-- A flush, complete or not, keeps the bits that the store has. -/
theorem bit_synctodisk {s : EvidenceStore} (hn : n ∈ s.bitmap)
    (h : BitSet.bit f.bitmap n = true) (io : Io) :
    BitSet.bit (s.synctodisk io f).2.bitmap n = true := by
  have hwrite : ∀ k,
      BitSet.bit (f.writeBitmap (BitSet.toByteArray s.bitmap) k).bitmap n = true := by
    intro k
    rw [bitmap_writeBitmap, BitSet.bit_write_toByteArray]
    split_ifs
    exacts [decide_eq_true hn, h]
  rcases synctodisk_cases s io f with ⟨e, k, -, he⟩ | he <;> rw [he] <;> exact hwrite _

/-- What holds of a session that may have crashed. -/
structure Alive (L B : ℕ) (D : Buffer Byte) (s : Session) : Prop where
  geometry : Geometry L B s.store
  tracks : Tracks L B s.store s.files
  sound : Sound L B D s

theorem alive_start {path : String} (h : Trusted L B D f) (hs : start path L B f = some s) :
    Alive L B D s := ⟨geometry_start hs, tracks_start hs, h.start hs⟩

/-- Storing a block does not touch the bitmap file. -/
theorem bitmap_files_storeBlock (s : EvidenceStore) (io : Io) (n : ℕ) (b : Block) (f : Files) :
    (s.storeBlock io n b f).files.bitmap = f.bitmap := by
  rcases EvidenceStore.storeBlock_cases s io n b f with ⟨e, he⟩ | ⟨e, k, -, he⟩ | ⟨k, -, he⟩ <;>
    rw [he] <;> rfl

theorem bitmap_store_retrieveBlock (s : EvidenceStore) (io : Io) (n : ℕ) (f : Files) :
    (s.retrieveBlock io n f).store.bitmap = s.bitmap := by
  rcases EvidenceStore.retrieveBlock_cases s io n f with ⟨e, he⟩ | ⟨b, -, -, he⟩ |
    ⟨k, -, -, -, -, he⟩ <;> rw [he] <;> rfl

theorem tracks_step (hgeo : Geometry L B s.store) (h : Tracks L B s.store s.files)
    (hs : step s c = some t) : Tracks L B t.store t.files := by
  cases c with
  | storeBlock io n b =>
    cases hs
    refine h.mono ?_ (bitmap_files_storeBlock s.store io n b s.files)
    rcases bitmap_storeBlock_cases s.store io n b s.files with ⟨e, -, hb⟩ | ⟨-, hb⟩ <;> rw [hb]
    exact Finset.subset_insert n _
  | retrieveBlock io n =>
    cases hs
    refine h.mono ?_ (congrArg Files.bitmap (files_retrieveBlock s.store io n s.files))
    rw [bitmap_store_retrieveBlock]
  | synctodisk io =>
    cases hs
    exact h.synctodisk io
  | reopen =>
    rw [step_reopen hgeo.toShape] at hs
    exact tracks_start hs

theorem Alive.event (h : Alive L B D s) (hB : 0 < B) (hB' : B < 2 ^ 31)
    (he : e.StoresContent L B D) (hs : event s e = some t) : Alive L B D t := by
  cases e with
  | call c =>
    exact ⟨geometry_step h.geometry hs, tracks_step h.geometry h.tracks hs,
      h.sound.step hB hB' he hs⟩
  | crash cut stops =>
    rw [Session.event, h.geometry.imageLength, h.geometry.blockSize] at hs
    exact alive_start ((h.sound.onDisk he (onDisk_filesAt s cut)).attempted _ _ _ _) hs

/-- The bit of the block is set in the bitmap file, and there is room for it. -/
def Flushed (L B n : ℕ) (s : Session) : Prop :=
  n < 8 * bitmapBytes L B ∧ BitSet.bit s.files.bitmap n = true

/-- A block that was flushed stays so. -/
theorem Alive.flushed (h : Alive L B D s) (hn : Flushed L B n s) (hs : Session.event s e = some t) :
    Flushed L B n t := by
  obtain ⟨hroom, hbit⟩ := hn
  -- a block with its bit in the file is in the set in memory, so a flush keeps its bit
  have hmem := h.tracks n hroom hbit
  refine ⟨hroom, ?_⟩
  have hstart : ∀ {path : String} {f : Files}, BitSet.bit f.bitmap n = true →
      start path L B f = some t → BitSet.bit t.files.bitmap n = true := by
    intro path f hf hs
    obtain ⟨-, rfl⟩ := start_eq_some.1 hs
    rw [bit_extend]
    exact hf
  cases e with
  | call c =>
    cases c with
    | storeBlock io m b =>
      cases hs
      rw [bitmap_files_storeBlock]
      exact hbit
    | retrieveBlock io m =>
      cases hs
      rw [files_retrieveBlock]
      exact hbit
    | synctodisk io =>
      cases hs
      exact bit_synctodisk hmem hbit io
    | reopen =>
      rw [Session.event, step_reopen h.geometry.toShape] at hs
      exact hstart (bit_synctodisk hmem hbit .ok) hs
  | crash cut stops =>
    rw [Session.event, h.geometry.imageLength, h.geometry.blockSize] at hs
    refine hstart ?_ hs
    rw [bit_attempted]
    cases cut with
    | storeBlock stop m b =>
      rw [filesAt, bitmap_files_storeBlock]
      exact hbit
    | synctodisk stop => exact bit_synctodisk hmem hbit stop
    | reopen stop =>
      rw [filesAt, bit_create]
      exact bit_synctodisk hmem hbit .ok

/-- A flush makes the blocks flushed that are stored. -/
theorem Alive.flushes (h : Alive L B D s) (hc : Flushes c) (hroom : n < 8 * bitmapBytes L B)
    (hn : n ∈ s.store.bitmap) (hs : step s c = some t) : Flushed L B n t := by
  refine ⟨hroom, ?_⟩
  have hflush : BitSet.bit (s.store.synctodisk .ok s.files).2.bitmap n = true := by
    rw [synctodisk_ok h.geometry.bitmapOpen]
    exact (h.tracks.bit_flush hroom).2 hn
  cases c with
  | storeBlock | retrieveBlock => exact absurd hc id
  | synctodisk io =>
    obtain rfl : io = .ok := hc
    cases hs
    exact hflush
  | reopen =>
    rw [step_reopen h.geometry.toShape] at hs
    obtain ⟨-, rfl⟩ := start_eq_some.1 hs
    rw [bit_extend]
    exact hflush

/-- A whole block that is stored is retrieved. -/
theorem Alive.retrieves (h : Alive L B D s) (hB : 0 < B) (hB' : B < 2 ^ 31)
    (hN : blocks L B < 2 ^ 31) (hn : (n + 1) * B ≤ L) (hmem : n ∈ s.store.bitmap) :
    (s.store.retrieveBlock .ok n s.files).value = .ok (content D B n) := by
  have hlt : n < blocks L B := (lt_blocks_iff hB).2 (by rw [Nat.succ_mul] at hn; omega)
  have hkept := keptLength_of_le hn
  have hstored : storedLength L B n = B := if_neg fun h => h.1.not_ge hn
  have hlength : n * B + B ≤ s.files.evidence.length := by
    have hholds := h.sound.safe.memory n hmem
    rw [hkept] at hholds
    exact hholds.length_le hB
  have hvalue := value_retrieveBlock (f := s.files)
    (by rw [h.geometry.blockCount, countBlocks_eq hB hB' hN]; exact_mod_cast hlt) hmem
    h.geometry.evidenceOpen
    (by rw [h.geometry.blockSize, h.geometry.transferLength_eq hB hB' hlt])
    (by rw [h.geometry.position_eq, hstored]; exact hlength)
  obtain ⟨hlen, hagree, -⟩ := h.sound.safe.value_retrieveBlock hB hB' hvalue
  rw [hkept] at hagree
  rw [hvalue]
  exact congrArg Except.ok (eq_of_agreeOn hlen rfl hagree)

/-- From a missing or empty bitmap file, and in every run of calls, whatever fails in them, and
    of crashes, wherever they come, in which only blocks of a device are stored: what is
    retrieved is data of the device, as far as it is in the image and is transferred; and a
    whole block that was stored at a flush of the bitmap is retrieved, exactly, after it. -/
theorem survives (L B : ℕ) (D : Buffer Byte) (hB' : B < 2 ^ 31) (hN : blocks L B < 2 ^ 31)
    (path : String) (evidence bitmap : Option (Buffer Byte)) (hempty : (openRw bitmap).length = 0)
    (s₀ s : Session) (l : List Event)
    (h₀ : start path L B (Files.ofFound evidence bitmap) = some s₀)
    (hl : ∀ e ∈ l, e.StoresContent L B D) (hs : Transition.runs event s₀ l = some s) :
    (∀ io n b, (s.store.retrieveBlock io n s.files).value = .ok b →
      b.length = B ∧ AgreeOn (keptLength L B n) b (content D B n)) ∧
    ∀ l₁ c l₂ s₁, l = l₁ ++ .call c :: l₂ → Flushes c → Transition.runs event s₀ l₁ = some s₁ →
      ∀ n, (n + 1) * B ≤ L → s₁.store.containsBlock n = true →
        (s.store.retrieveBlock .ok n s.files).value = .ok (content D B n) := by
  have ho := (start_eq_some.1 h₀).1
  have hB := ho.1
  have halive : ∀ {l : List Event} {t u : Session}, Alive L B D t →
      (∀ e ∈ l, e.StoresContent L B D) → Transition.runs event t l = some u → Alive L B D u :=
    fun ht hl hu => Transition.runs_invariant (P := fun _ e => Event.StoresContent L B D e)
      (fun _ _ _ he h hs => h.event hB hB' he hs) hu (.of_forall fun _ => hl) ht
  have hstart : Alive L B D s₀ := alive_start (trusted_of_length_eq_zero hempty) h₀
  have hend := halive hstart hl hs
  refine ⟨fun io n b hb => ?_, ?_⟩
  · obtain ⟨hlen, hagree, -⟩ := hend.sound.safe.value_retrieveBlock hB hB' hb
    exact ⟨hlen, hagree⟩
  · rintro l₁ c l₂ s₁ rfl hc h₁ n hn hmem
    have hroom : n < 8 * bitmapBytes L B := by
      refine Nat.lt_of_lt_of_le ?_ (blocks_le_bitmapBytes ho hB' hN)
      exact (lt_blocks_iff hB).2 (by rw [Nat.succ_mul] at hn; omega)
    obtain ⟨t, ht, hrest⟩ := Transition.runs_append.1 hs
    obtain rfl : s₁ = t := Option.some.inj (h₁.symm.trans ht)
    obtain ⟨s₂, hcall, hrest⟩ := Transition.runs_cons.1 hrest
    have hl₁ : ∀ e ∈ l₁, e.StoresContent L B D := fun e he => hl e (List.mem_append_left _ he)
    have hc' : Event.StoresContent L B D (.call c) := hl _ (by simp)
    have hl₂ : ∀ e ∈ l₂, e.StoresContent L B D := fun e he => hl e (by simp [he])
    have halive₁ := halive hstart hl₁ h₁
    have halive₂ := halive₁.event hB hB' hc' hcall
    -- The block stays flushed in the rest of the run.
    have hflushed : Alive L B D s ∧ Flushed L B n s :=
      Transition.runs_invariant (P := fun _ e => Event.StoresContent L B D e)
        (I := fun u => Alive L B D u ∧ Flushed L B n u)
        (fun _ _ _ he h hs => ⟨h.1.event hB hB' he hs, h.1.flushed h.2 hs⟩) hrest
        (.of_forall fun _ => hl₂)
        ⟨halive₂, halive₁.flushes hc hroom (containsBlock_iff.1 hmem) hcall⟩
    exact hend.retrieves hB hB' hN hn (hend.tracks n hroom hflushed.2.2)

/-- A device of one byte. -/
def oneByte : Buffer Byte := .ofFn 1 fun _ => 1

/-- The byte is stored and flushed; then the process is killed while it stores it again, and
    so is the next one while it opens the store. -/
def killedTwice : List Event :=
  [.call (.storeBlock .ok 0 (content oneByte 1 0)), .call (.synctodisk .ok),
    .crash (.storeBlock (.failsAfter 0) 0 (content oneByte 1 0)) [.readFails]]

/-- The byte is retrieved. -/
theorem survives_killedTwice : ∃ s₀ s, start "" 1 1 (Files.ofFound none none) = some s₀ ∧
    Transition.runs event s₀ killedTwice = some s ∧
    (s.store.retrieveBlock .ok 0 s.files).value = .ok (content oneByte 1 0) := by
  have hrun : ((start "" 1 1 (Files.ofFound none none)).bind fun s₀ =>
      (Transition.runs event s₀ killedTwice).map fun _ =>
        (Transition.runs event s₀ (killedTwice.take 1)).map fun s₁ => s₁.store.containsBlock 0) =
      some (some true) := by decide +kernel
  obtain ⟨s₀, h₀, hrun⟩ := Option.bind_eq_some_iff.1 hrun
  obtain ⟨s, hs, hval⟩ := Option.map_eq_some_iff.1 hrun
  obtain ⟨s₁, h₁, hmem⟩ := Option.map_eq_some_iff.1 hval
  have hcarries : Carries 1 1 oneByte 0 (content oneByte 1 0) := ⟨rfl, .refl _ _⟩
  have hl : ∀ e ∈ killedTwice, e.StoresContent 1 1 oneByte := by
    intro e he
    simp only [killedTwice, List.mem_cons, List.not_mem_nil, or_false] at he
    rcases he with rfl | rfl | rfl
    exacts [hcarries, trivial, hcarries]
  exact ⟨s₀, s, h₀, hs, (survives 1 1 oneByte (by decide) (by decide) "" none none rfl s₀ s
    killedTwice h₀ hl hs).2 (killedTwice.take 1) (.synctodisk .ok) (killedTwice.drop 2) s₁ rfl rfl
    h₁ 0 le_rfl hmem⟩

end Session

end Raqet
