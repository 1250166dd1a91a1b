import Raqet.Evidence.Session
import Raqet.Java.Recency

/-!
# What the cache holds

A block is used when it is handed to `storeBlock`, whether the write succeeds or not, and
when `retrieveBlock` returns it. `history` is a cache that evicts nothing: the blocks that
were used since the store was opened, the last one first.

The cache of the store is its beginning (`cache_history`): the `256` blocks that were used
last, or, if it was full when a block was stored that it held already, the `255` that were.
Hence one of the last `255` that counts as stored is returned without a file operation; and
a block that is not among the last `256` is read from the evidence file.
-/

namespace Raqet

open Java LinkedHashMap EvidenceStore

namespace Session

variable {L B : ℕ} {path : String} {f : Files} {s s₀ t : Session} {c : Call} {n : ℕ} {b : Block}
  {calls : List Call} {H : LinkedHashMap ℕ Block}

/-- The block that a call uses. -/
def used (s : Session) : Call → Option (ℕ × Block)
  | .storeBlock io n b =>
    if io = .seekFails ∨ s.store.evidenceOpen = false then none else some (n, b)
  | .retrieveBlock io n =>
    (s.store.retrieveBlock io n s.files).value.toOption.map fun b => (n, b)
  | _ => none

/-- The blocks used since the store was opened, after one more call. -/
def remember (H : LinkedHashMap ℕ Block) (s : Session) : Call → LinkedHashMap ℕ Block
  | .reopen => ∅
  | c => (s.used c).elim H fun e => H.put e.1 e.2

/-- The blocks used since the store was opened, after a run from `s`, where they are `H`. -/
def history (H : LinkedHashMap ℕ Block) (s : Session) : List Call → LinkedHashMap ℕ Block
  | [] => H
  | c :: l => (step s c).elim H fun t => history (remember H s c) t l

theorem cachedBlocks_cacheBlock (s : EvidenceStore) (n : ℕ) (b : Block) :
    (s.cacheBlock n b).cachedBlocks = s.cachedBlocks.putBounded blocksToCache n b := by
  change s.makeRoom.put n b = _
  rw [makeRoom, putBounded]

/-- Storing a block puts it in the cache, unless the seek fails. -/
theorem cachedBlocks_storeBlock (s : EvidenceStore) (io : Io) (n : ℕ) (b : Block) (f : Files) :
    (s.storeBlock io n b f).store.cachedBlocks =
      if io = .seekFails ∨ s.evidenceOpen = false then s.cachedBlocks
      else s.cachedBlocks.putBounded blocksToCache n b := by
  rw [storeBlock, ← cachedBlocks_cacheBlock]
  split_ifs with h
  · rfl
  · cases s.transferLength n b.length with
    | none => rfl
    | some k => cases io <;> rfl

theorem blocksToCache_pos : 0 < blocksToCache := by decide

/-- A call keeps the cache the beginning of the history. -/
theorem remembers_step (h : Remembers blocksToCache s.store.cachedBlocks H)
    (hs : step s c = some t) :
    Remembers blocksToCache t.store.cachedBlocks (remember H s c) := by
  cases c with
  | storeBlock io n b =>
    cases hs
    change Remembers _ (s.store.storeBlock io n b s.files).store.cachedBlocks
      ((if io = .seekFails ∨ s.store.evidenceOpen = false then none else some (n, b)).elim H
        fun e : ℕ × Block => H.put e.1 e.2)
    rw [cachedBlocks_storeBlock]
    split
    · exact h
    · exact h.putBounded blocksToCache_pos
  | retrieveBlock io n =>
    cases hs
    change Remembers _ (s.store.retrieveBlock io n s.files).store.cachedBlocks
      (((s.store.retrieveBlock io n s.files).value.toOption.map fun b => (n, b)).elim H
        fun e : ℕ × Block => H.put e.1 e.2)
    rcases retrieveBlock_cases s.store io n s.files with
      ⟨e, he⟩ | ⟨b, -, hb, he⟩ | ⟨k, -, -, -, -, he⟩
    · -- Nothing is looked up.
      rw [he]
      exact h
    · rw [he]
      exact h.touch hb
    · rw [he]
      change Remembers _ (s.store.cacheBlock n _).cachedBlocks (H.put n _)
      rw [cachedBlocks_cacheBlock]
      exact h.putBounded blocksToCache_pos
  | synctodisk io =>
    cases hs
    exact h
  | reopen =>
    -- The new store has an empty cache.
    obtain ⟨-, rfl⟩ := start_eq_some.1 hs
    exact remembers_empty

/-- So do the calls of a run. -/
theorem remembers_history (h : Remembers blocksToCache s.store.cachedBlocks H)
    (hr : Transition.runs step s calls = some t) :
    Remembers blocksToCache t.store.cachedBlocks (history H s calls) := by
  induction calls generalizing s H with
  | nil =>
    cases hr
    exact h
  | cons c l ih =>
    obtain ⟨u, hu, hr⟩ := Transition.runs_cons.1 hr
    rw [history, hu]
    exact ih (remembers_step h hu) hr

/-- A block of the image that counts as stored and is in the cache is returned from there. -/
theorem retrieveBlock_of_lookup {s : EvidenceStore} (hn : (n : ℤ) < s.blockCount)
    (hbit : n ∈ s.bitmap) (hb : s.cachedBlocks.lookup n = some b) (io : Io) (f : Files) :
    s.retrieveBlock io n f = ⟨.ok b, s.touchBlock n, f⟩ := by
  rw [retrieveBlock, if_neg (not_le.2 hn), containsBlock, decide_eq_true hbit, hb]
  rfl

/-- One that is not there is not returned if a file operation fails. -/
theorem retrieveBlock_of_notMem {s : EvidenceStore} (hn : n ∉ s.cachedBlocks) {io : Io}
    (hio : io ≠ .ok) (f : Files) : ∃ e, s.retrieveBlock io n f = ⟨.error e, s, f⟩ := by
  have hnone : s.cachedBlocks.lookup n = none := AList.lookup_eq_none.2 hn
  rw [retrieveBlock]
  split_ifs with hcount hbit hfails
  · exact ⟨_, rfl⟩
  · exact ⟨_, rfl⟩
  · rw [hnone]
    exact ⟨_, rfl⟩
  · exact absurd (.inl hio) hfails

/-- In every run of a store, whatever fails: the cache holds at most `256` blocks, which are
    those used last since the store was opened. Of the last `255`, those that count as stored
    are returned as they were used last, without a file operation; without the file
    operations, no block is returned that is not among the last `256`. -/
theorem cache_history (hstart : start path L B f = some s₀)
    (hr : Transition.runs step s₀ calls = some s) :
    let H := history ∅ s₀ calls
    s.store.cachedBlocks.keys <+: H.keys ∧ s.store.cachedBlocks.size ≤ blocksToCache ∧
      min (blocksToCache - 1) H.size ≤ s.store.cachedBlocks.size ∧
      (∀ n ∈ H.keys.take (blocksToCache - 1), n ∈ s.store.bitmap → (n : ℤ) < s.store.blockCount →
        ∃ b, H.lookup n = some b ∧
          ∀ io f, s.store.retrieveBlock io n f = ⟨.ok b, s.store.touchBlock n, f⟩) ∧
      ∀ n ∉ H.keys.take blocksToCache, ∀ io ≠ .ok, ∀ f,
        ∃ e, s.store.retrieveBlock io n f = ⟨.error e, s.store, f⟩ := by
  intro H
  obtain ⟨-, rfl⟩ := start_eq_some.1 hstart
  have h : Remembers blocksToCache s.store.cachedBlocks H := remembers_history remembers_empty hr
  refine ⟨h.keys, h.size_le, h.le_size, fun n hn hbit hlt => ?_, fun n hn io hio f => ?_⟩
  · have hmem := h.mem hn
    obtain ⟨b, hb⟩ := Option.isSome_iff_exists.1 (AList.lookup_isSome.2 hmem)
    exact ⟨b, (h.lookup n hmem).symm.trans hb, retrieveBlock_of_lookup hlt hbit hb⟩
  · exact retrieveBlock_of_notMem (fun hmem => hn (h.mem_take hmem)) hio f

/-- The cache is filled, the first block is looked up, and another block is stored. -/
def fillsCache : List Call :=
  (List.range 256).map (fun n => .storeBlock .ok n (.ofFn 1 fun _ => BitVec.ofNat 8 n)) ++
    [.retrieveBlock .ok 0, .storeBlock .ok 256 (.zeros 1)]

/-- The first block is still in the cache; the second one, which was used before it, is not. -/
theorem cache_history_full : ∃ s₀ s, start "disk" 257 1 (Files.ofFound none none) = some s₀ ∧
    Transition.runs step s₀ fillsCache = some s ∧
    (∃ b, ∀ io f, s.store.retrieveBlock io 0 f = ⟨.ok b, s.store.touchBlock 0, f⟩) ∧
    ∀ io ≠ .ok, ∀ f, ∃ e, s.store.retrieveBlock io 1 f = ⟨.error e, s.store, f⟩ := by
  have hrun : ((start "disk" 257 1 (Files.ofFound none none)).bind fun s₀ =>
      (Transition.runs step s₀ fillsCache).map fun s =>
        decide (0 ∈ (history ∅ s₀ fillsCache).keys.take (blocksToCache - 1) ∧
          0 ∈ s.store.bitmap ∧ (0 : ℤ) < s.store.blockCount ∧
          1 ∉ (history ∅ s₀ fillsCache).keys.take blocksToCache)) = some true := by
    decide +kernel
  obtain ⟨s₀, h₀, hrun⟩ := Option.bind_eq_some_iff.1 hrun
  obtain ⟨s, hs, hval⟩ := Option.map_eq_some_iff.1 hrun
  obtain ⟨hfirst, hbit, hcount, hsecond⟩ := of_decide_eq_true hval
  obtain ⟨-, -, -, hkept, hevicted⟩ := cache_history h₀ hs
  obtain ⟨b, -, hb⟩ := hkept 0 hfirst hbit hcount
  exact ⟨s₀, s, h₀, hs, ⟨b, hb⟩, hevicted 1 hsecond⟩

end Session

end Raqet
