import Raqet.Evidence.Session

/-!
# A block that could not be stored

`storeBlock` may fail in the seek, or in the write. In between, it has put the block in
the cache, where it stays if the write fails: a later `retrieveBlock` returns it, if the
block was stored before, and no other file operation is needed for that.

* `SameAnswers`: two sessions cannot be told apart, now or later;
* `Atomic`: a failed `storeBlock` cannot be told from none.

`storeBlock` is atomic when the seek fails, and only then (`atomic_iff`).
-/

namespace Raqet

open Java EvidenceStore

/-- A file operation fails before any byte is written. -/
def Io.FailsFirst : Io → Prop
  | .ok => False
  | .seekFails => True
  | .failsAfter k => k = 0

namespace Session

/-- The session after a call of `storeBlock`. -/
def afterStore (s : Session) (io : Io) (n : ℕ) (b : Block) : Session :=
  ⟨(s.store.storeBlock io n b s.files).store, (s.store.storeBlock io n b s.files).files⟩

/-- After the same calls, whatever fails in them, both sessions have the same bits, and
    return the same blocks, except for what was stored meanwhile. -/
def SameAnswers (s t : Session) : Prop :=
  ∀ calls s' t', Transition.runs step s calls = some s' → Transition.runs step t calls = some t' →
    ∀ m, (∀ io b, Call.storeBlock io m b ∉ calls) →
      s'.store.containsBlock m = t'.store.containsBlock m ∧
      ∀ io, (s'.store.retrieveBlock io m s'.files).value =
        (t'.store.retrieveBlock io m t'.files).value

/-- What is transferred of the block `b` is in the evidence file. -/
def IsWritten (s : Session) (n : ℕ) (b : Block) : Prop :=
  ∃ k, s.store.transferLength n b.length = some k ∧
    s.files.evidence.HoldsAt (s.store.position n) b k

/-- What `t` has in the cache, it has in the evidence file, or `s` had it in the cache. -/
def CachesWritten (s t : Session) : Prop :=
  ∀ n b, t.store.cachedBlocks.lookup n = some b →
    s.store.cachedBlocks.lookup n = some b ∨ t.IsWritten n b

/-- If `storeBlock` fails with an `IOException` before it wrote a byte, this cannot be
    told from no call, and puts no block in the cache that was not written. -/
def Atomic (s : Session) (io : Io) (n : ℕ) (b : Block) : Prop :=
  io.FailsFirst → (s.store.storeBlock io n b s.files).value = .error .io →
    SameAnswers s (s.afterStore io n b) ∧ CachesWritten s (s.afterStore io n b)

variable {s : Session} {L B n k : ℕ} {b : Block} {io : Io}

/-! ## The seek fails -/

theorem SameAnswers.refl (s : Session) : SameAnswers s s := by
  intro calls s' t' hs ht m _
  obtain rfl : s' = t' := Option.some.inj (hs.symm.trans ht)
  exact ⟨rfl, fun _ => rfl⟩

/-- Nothing has changed when the seek fails. -/
theorem atomic_seekFails (s : Session) (n : ℕ) (b : Block) : Atomic s .seekFails n b := by
  intro _ _
  have hsame : s.afterStore .seekFails n b = s := by
    rw [afterStore, storeBlock, if_pos (.inl rfl)]
  rw [hsame]
  exact ⟨.refl s, fun _ _ h => .inl h⟩

/-! ## The write fails -/

/-- A write that fails at once leaves the block in the cache, and the files as they are. -/
theorem afterStore_failsAfter (ho : s.store.evidenceOpen = true)
    (hk : s.store.transferLength n b.length = some k) :
    (s.store.storeBlock (.failsAfter 0) n b s.files).value = .error .io ∧
      s.afterStore (.failsAfter 0) n b = ⟨s.store.cacheBlock n b, s.files⟩ := by
  have hopen : ¬(Io.failsAfter 0 = .seekFails ∨ s.store.evidenceOpen = false) := by simp [ho]
  rw [afterStore, storeBlock, if_neg hopen, hk]
  exact ⟨rfl, by dsimp only; rw [Nat.zero_min, writeEvidence_zero]⟩

/-- A block in the cache is returned, if its bit is set; the files are not needed. -/
theorem value_retrieveBlock_cached {s : EvidenceStore} (hcount : (n : ℤ) < s.blockCount)
    (hbit : n ∈ s.bitmap) (hcached : s.cachedBlocks.lookup n = some b) (io : Io) (f : Files) :
    (s.retrieveBlock io n f).value = .ok b := by
  have hcontains : s.containsBlock n = true := by simp [containsBlock, hbit]
  rw [retrieveBlock, if_neg hcount.not_ge, hcontains, if_neg (by decide), hcached]

/-- So the call is not atomic unless the block had been in the evidence file, or in the
    cache; and unless it was what would be returned anyway. -/
theorem Atomic.of_failsAfter (ha : Atomic s (.failsAfter 0) n b)
    (ho : s.store.evidenceOpen = true) (hk : s.store.transferLength n b.length = some k) :
    (s.store.cachedBlocks.lookup n = some b ∨ s.IsWritten n b) ∧
      ((n : ℤ) < s.store.blockCount → n ∈ s.store.bitmap →
        ∀ io, (s.store.retrieveBlock io n s.files).value = .ok b) := by
  obtain ⟨hvalue, hafter⟩ := afterStore_failsAfter ho hk
  obtain ⟨hsame, hcache⟩ := ha rfl hvalue
  constructor
  · rw [hafter] at hcache
    exact hcache n b LinkedHashMap.lookup_put_self
  · intro hcount hbit io
    have heq := (hsame [] s _ rfl rfl n fun _ _ => List.not_mem_nil).2 io
    have hcached : (s.store.cacheBlock n b).cachedBlocks.lookup n = some b :=
      LinkedHashMap.lookup_put_self
    rw [heq, hafter]
    exact value_retrieveBlock_cached (by exact hcount) (by exact hbit) hcached io s.files

/-- There is a block that is neither in the evidence file nor in the cache. -/
theorem exists_block_not_written (h : Geometry L B s.store) (hB : 0 < B) (hB' : B < 2 ^ 31)
    (hn : n < blocks L B) :
    ∃ b : Block, b.length = B ∧ s.store.cachedBlocks.lookup n ≠ some b ∧ ¬s.IsWritten n b := by
  have hbyte : ∀ x y : Byte, ∃ z, z ≠ x ∧ z ≠ y := by
    intro x y
    by_cases hy : y = x + 1
    · exact ⟨x + 2, by bv_omega, by bv_omega⟩
    · exact ⟨x + 1, by bv_omega, fun h => hy h.symm⟩
  obtain ⟨z, hz, hz'⟩ := hbyte (s.files.evidence.get (s.store.position n))
    (((s.store.cachedBlocks.lookup n).getD (.zeros 0)).get 0)
  refine ⟨.ofFn B fun _ => z, rfl, fun hc => ?_, ?_⟩
  · rw [hc, Option.getD_some, Buffer.get_ofFn _ hB] at hz'
    exact hz' rfl
  · rintro ⟨k, hk, hholds⟩
    rw [Buffer.length_ofFn, h.transferLength_eq hB hB' hn, Option.some.injEq] at hk
    have hfirst := (hholds 0 (hk ▸ storedLength_pos hB)).2
    rw [Nat.add_zero, Buffer.get_ofFn _ hB] at hfirst
    exact hz hfirst.symm

/-- In every reachable session, and for every block number of the image: `storeBlock` is
    atomic, whatever the block, exactly when it is not the write that fails. When it is,
    it is not atomic for any block that can be written but one that is in the evidence
    file or the cache already, and that is returned already if the bit is set. -/
theorem atomic_iff (hB : 0 < B) (hB' : B < 2 ^ 31) (hs : Reachable L B s) (hn : n < blocks L B) :
    (∀ io, (∀ b, Atomic s io n b) ↔ io ≠ .failsAfter 0) ∧
    ∀ b k, s.store.transferLength n b.length = some k → Atomic s (.failsAfter 0) n b →
      (s.store.cachedBlocks.lookup n = some b ∨ s.IsWritten n b) ∧
      ((n : ℤ) < s.store.blockCount → n ∈ s.store.bitmap →
        ∀ io, (s.store.retrieveBlock io n s.files).value = .ok b) := by
  have h := hs.geometry.2
  refine ⟨fun io => ⟨?_, ?_⟩, fun b k hk ha => ha.of_failsAfter h.evidenceOpen hk⟩
  · rintro hall rfl
    obtain ⟨b, hb, hcache, hwritten⟩ := exists_block_not_written h hB hB' hn
    have hk : s.store.transferLength n b.length = some (storedLength L B n) := by
      rw [hb, h.transferLength_eq hB hB' hn]
    exact ((hall b).of_failsAfter h.evidenceOpen hk).1.elim hcache hwritten
  · intro hio b
    cases io with
    | ok => exact fun hfails => hfails.elim
    | seekFails => exact atomic_seekFails s n b
    | failsAfter k => exact fun hfails => absurd (congrArg Io.failsAfter hfails) hio

/-- A store of one block of one byte, over empty files. -/
def byteStore : Session := ⟨opened "" 1 1 (extend 1 1 (Files.ofFound none none)),
  extend 1 1 (Files.ofFound none none)⟩

theorem reachable_byteStore : Reachable 1 1 byteStore :=
  ⟨"", none, none, byteStore, [], start_eq_some.2 ⟨⟨by decide, by decide⟩, rfl⟩, rfl⟩

theorem atomic_iff_byte :
    (∀ b, Atomic byteStore .seekFails 0 b) ∧ ¬∀ b, Atomic byteStore (.failsAfter 0) 0 b := by
  have h := (atomic_iff (n := 0) (by decide) (by decide) reachable_byteStore (by decide)).1
  exact ⟨(h .seekFails).2 (by decide), fun hall => (h (.failsAfter 0)).1 hall rfl⟩

/-- One block of one byte. -/
def byteBlock (x : Byte) : Block := .ofFn 1 fun _ => x

/-- The session in which the byte `1` was stored. -/
def byteStored : Session := byteStore.afterStore .ok 0 (byteBlock 1)

theorem reachable_byteStored : Reachable 1 1 byteStored :=
  ⟨"", none, none, byteStore, [.storeBlock .ok 0 (byteBlock 1)],
    start_eq_some.2 ⟨⟨by decide, by decide⟩, rfl⟩, rfl⟩

theorem store_byteStored :
    byteStored.store = (byteStore.store.cacheBlock 0 (byteBlock 1)).setBit 0 := by
  rw [byteStored, afterStore, reachable_byteStore.geometry.2.storeBlock_ok (by decide) (by decide)
    (by decide) rfl]

/-- The byte `2` is to be stored, but the write fails: it is returned instead of `1`. -/
theorem not_atomic_byte : ¬Atomic byteStored (.failsAfter 0) 0 (byteBlock 2) ∧
    (byteStored.store.retrieveBlock .ok 0 byteStored.files).value = .ok (byteBlock 1) ∧
    ((byteStored.afterStore (.failsAfter 0) 0 (byteBlock 2)).store.retrieveBlock .ok 0
      byteStored.files).value = .ok (byteBlock 2) := by
  have hgeo := reachable_byteStored.geometry.2
  have hcount : ((0 : ℕ) : ℤ) < byteStored.store.blockCount := by
    rw [hgeo.blockCount]
    decide
  have hbit : 0 ∈ byteStored.store.bitmap := by
    rw [store_byteStored, bitmap_setBit]
    exact Finset.mem_insert_self _ _
  have hcached : byteStored.store.cachedBlocks.lookup 0 = some (byteBlock 1) := by
    rw [store_byteStored]
    exact LinkedHashMap.lookup_put_self
  have hcached' : (byteStored.store.cacheBlock 0 (byteBlock 2)).cachedBlocks.lookup 0 =
      some (byteBlock 2) := LinkedHashMap.lookup_put_self
  have hk : byteStored.store.transferLength 0 (byteBlock 2).length = some (storedLength 1 1 0) :=
    hgeo.transferLength_eq (by decide) (by decide) (by decide)
  have hone := value_retrieveBlock_cached hcount hbit hcached .ok byteStored.files
  refine ⟨fun h => ?_, hone, ?_⟩
  · have htwo := (h.of_failsAfter hgeo.evidenceOpen hk).2 hcount hbit .ok
    have heq : byteBlock 1 = byteBlock 2 := Except.ok.inj (hone.symm.trans htwo)
    exact absurd (congrArg (fun b : Block => b.get 0) heq) (by decide)
  · rw [(afterStore_failsAfter hgeo.evidenceOpen hk).2]
    exact value_retrieveBlock_cached (by exact hcount) (by exact hbit) hcached' .ok _

end Session

end Raqet
