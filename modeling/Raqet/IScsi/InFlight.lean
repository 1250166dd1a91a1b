import Raqet.IScsi.Tiling
import Raqet.IScsi.WriteOnce

/-!
# The requests in flight

The thread of a reader adds requests in two loops and takes them out in a third one,
and may leave any of them by an exception. `InFlight` is what holds in every state: a
request is for the block it is filed under, there are no more than
`maxRequestsInFlight`, and the thread is where it may be (`Control.OnCourse`); once it
turned to the wait for its block, for instance, the block is in flight or stored.

The last block to read ahead is computed on `int`s, which overflows for one block of a
disk of almost `2 ^ 31` blocks. The steps that do not (`Unwrapped`) keep the invariant.

* `Ends` and `InFlight.ends`: the ways in which a call can end;
* `InFlight.advance`: a step of the thread keeps the invariant.
-/

namespace Raqet

open Java EvidenceStore

/-- What holds where `completeRequests()` returns to, in a reader of `N` blocks, when the
    blocks in `known` are in flight or stored. -/
def Caller.OnCourse (N : ℕ) (known : Finset ℕ) : Caller → Prop
  | .waitForFreeSlot n => n < N
  | .requestBlocksForReadAhead n last =>
    n < N ∧ n ∈ known ∧ last < N ∧ last < n + maxReadAheadBlocks
  | .retrieveBlock n => n < N ∧ n ∈ known

/-- What holds where the thread is, in a reader of `N` blocks with a bitmap of `M` bits,
    when the blocks in `keys` are in flight and those in `bitmap` are stored. -/
def Control.OnCourse (N M : ℕ) (keys : Finset ℕ) (bitmap : BitSet) : Control → Prop
  | .idle => True
  | .retrieveBlock _ => True
  | .hasBlockBeenRequested n => n < N
  | .waitForFreeSlot n => n < N
  | .waitForFreeSlotSync n => n < N
  | .completeRequests caller rest => rest ⊆ keys ∧ caller.OnCourse N (keys ∪ bitmap)
  | .requestBlock n => n < N ∧ keys.card < maxRequestsInFlight
  | .determineReadAheadBlocks n i =>
    n < N ∧ n ∈ keys ∪ bitmap ∧ i ≤ (maxReadAheadBlocks + 1) / 2 ∧ n + i ≤ M
  | .requestBlocksForReadAhead n i last =>
    (n < N ∧ n ∈ keys ∪ bitmap ∧ last < N ∧ last < n + maxReadAheadBlocks) ∧ n ≤ i
  | .requestBlockForReadAhead n i last =>
    (n < N ∧ n ∈ keys ∪ bitmap ∧ last < N ∧ last < n + maxReadAheadBlocks) ∧ n ≤ i ∧ i ≤ last ∧
      keys.card < maxRequestsInFlight
  | .wait n => n < N ∧ n ∈ keys ∪ bitmap
  | .lookup n => n < N ∧ n ∈ bitmap
  | .returned _ => True

/-- It still does when more blocks are in flight or stored. -/
theorem Caller.OnCourse.mono {known known' : Finset ℕ} {N : ℕ} {caller : Caller}
    (h : caller.OnCourse N known) (hsub : known ⊆ known') : caller.OnCourse N known' := by
  cases caller with
  | waitForFreeSlot n => exact h
  | requestBlocksForReadAhead n last => exact ⟨h.1, hsub h.2.1, h.2.2⟩
  | retrieveBlock n => exact ⟨h.1, hsub h.2⟩

/-- It still does when other blocks are stored. -/
theorem Control.OnCourse.mono {N M : ℕ} {keys : Finset ℕ} {bitmap bitmap' : BitSet}
    {control : Control} (h : control.OnCourse N M keys bitmap) (hb : bitmap ⊆ bitmap') :
    control.OnCourse N M keys bitmap' := by
  have hsub : keys ∪ bitmap ⊆ keys ∪ bitmap' := Finset.union_subset_union_right hb
  cases control with
  | completeRequests caller rest => exact ⟨h.1, h.2.mono hsub⟩
  | determineReadAheadBlocks n i => exact ⟨h.1, hsub h.2.1, h.2.2⟩
  | requestBlocksForReadAhead n i last => exact ⟨⟨h.1.1, hsub h.1.2.1, h.1.2.2⟩, h.2⟩
  | requestBlockForReadAhead n i last => exact ⟨⟨h.1.1, hsub h.1.2.1, h.1.2.2⟩, h.2⟩
  | wait n => exact ⟨h.1, hsub h.2⟩
  | lookup n => exact ⟨h.1, hb h.2⟩
  | _ => exact h

/-- The block that the thread is about to request. -/
def Control.requests : Control → Option ℕ
  | .requestBlock n => some n
  | .requestBlockForReadAhead _ i _ => some i.toNat
  | _ => none

namespace IScsiBlockReader

/-- The request was issued for the block `k`, by a reader of `N` blocks. -/
structure IssuedFor (g : ReadGeometry) (N k : ℕ) (q : IScsiRead10Callback) : Prop where
  lt : k < N
  command : g.read10 k none = .ok q.command
  length : q.buffer.length = g.readBlockSize.toNat
  exception : ∀ x, q.exception = some x → ∃ message, x = .iScsi message

/-- What holds of a reader of `N` blocks and its store, with a bitmap of `M` bits, in
    every state. -/
structure InFlight (N M : ℕ) (r : IScsiBlockReader) (s : Session) : Prop where
  totalBlockCount : r.geometry.totalBlockCount = N
  card : r.requestsInFlight.keys.card ≤ maxRequestsInFlight
  request : ∀ k q, r.requestsInFlight.lookup k = some q → IssuedFor r.geometry N k q
  bits : ∀ n ∈ s.store.bitmap, n < M
  course : r.control.OnCourse N M r.requestsInFlight.keys s.store.bitmap

/-- There is a bit for every block, and the bits are numbered by an `int`. -/
structure Room (N M : ℕ) : Prop where
  le : N ≤ M
  lt : M + 8 ≤ 2 ^ 31

/-- The number of the block after the last one to read ahead does not overflow. -/
def Unwrapped (r : IScsiBlockReader) : Prop :=
  ∀ n, r.control = .determineReadAheadBlocks n ((maxReadAheadBlocks + 1) / 2) →
    n + maxReadAheadBlocks < 2 ^ 31

variable {r r' : IScsiBlockReader} {s s' : Session} {a : Action} {e : Env} {N M n k : ℕ} {x : Exn}
  {q : IScsiRead10Callback} {control : Control} {caller : Caller} {keys rest : Finset ℕ}
  {bitmap bitmap' : BitSet} {v : Except Exn Block}

/-! ## How a call ends -/

/-- All the ways in which a step of the thread can end the call. -/
inductive Ends (r : IScsiBlockReader) (s : Session) (e : Env) : Except Exn Block → Prop
  /-- The argument is not the number of a block. -/
  | argument (blockNumber : ℤ) (x : Exn) (control : r.control = .retrieveBlock blockNumber)
    (check : argIndex "blockNumber" blockNumber r.geometry.totalBlockCount = .error x) :
    Ends r s e (.error x.wrap)
  /-- `sync()` fails. -/
  | sync (message : String) (error : e.error = some message) (control : r.control.requests = none) :
    Ends r s e (.error (.wrapped (.iScsi message)))
  /-- A request that failed is completed. -/
  | completion (caller : Caller) (keys : Finset ℕ) (q : IScsiRead10Callback) (x : Exn)
    (control : r.control = .completeRequests caller keys) (mem : e.key ∈ keys)
    (lookup : r.requestsInFlight.lookup e.key = some q) (finished : q.finished = true)
    (exception : q.exception = some x) : Ends r s e (.error x.wrap)
  /-- A block cannot be stored. -/
  | store (caller : Caller) (keys : Finset ℕ) (q : IScsiRead10Callback) (x : Exn)
    (control : r.control = .completeRequests caller keys) (mem : e.key ∈ keys)
    (lookup : r.requestsInFlight.lookup e.key = some q) (finished : q.finished = true)
    (exception : q.exception = none)
    (value : (s.store.storeBlock e.io e.key q.buffer s.files).value = .error x) :
    Ends r s e (.error x.wrap)
  /-- A request cannot be sent. -/
  | send (n : ℕ) (x : Exn) (control : r.control.requests = some n)
    (read10 : r.geometry.read10 n e.error = .error x) : Ends r s e (.error x.wrap)
  /-- The evidence store answers. -/
  | lookup (n : ℕ) (control : r.control = .lookup n) :
    Ends r s e (s.store.retrieveBlock e.io n s.files).value

/-- Only the evidence store ends a call with a block. -/
theorem Ends.eq_ok {b : Block} (he : Ends r s e v) (hv : v = .ok b) :
    ∃ n, r.control = .lookup n ∧ (s.store.retrieveBlock e.io n s.files).value = .ok b := by
  cases he with
  | lookup n control => exact ⟨n, control, hv⟩
  | _ => cases hv

/-- The request ends the call if it cannot be sent. -/
theorem ends_requestBlock (hc : r.control.requests = some n)
    (hcontrol : ∀ v, control ≠ .returned v)
    (hv : (r.requestBlock n e control).control = .returned v) : Ends r s e v := by
  rw [requestBlock] at hv
  cases hread : r.geometry.read10 n e.error with
  | error x =>
    rw [hread] at hv
    cases hv
    exact .send n x hc hread
  | ok command =>
    rw [hread] at hv
    exact absurd hv (hcontrol v)

/-- The reader without the request for the block `k`. -/
def forget (r : IScsiBlockReader) (k : ℕ) : IScsiBlockReader :=
  { r with requestsInFlight := r.requestsInFlight.erase k }

/-- All that the body of the loop of `completeRequests()` can do with a request: it is not
    finished; or it had failed; or what it brought cannot be stored; or this is stored. -/
theorem completeRequest_cases (hq : r.requestsInFlight.lookup k = some q) (s : Session) (io : Io)
    (control : Control) :
    let o := s.store.storeBlock io k q.buffer s.files
    (q.finished = false ∧ r.completeRequest s io k control = (r.goto control, s)) ∨
    (q.finished = true ∧ ∃ x, q.exception = some x ∧
      r.completeRequest s io k control = ((r.forget k).throw x, s)) ∨
    (q.finished = true ∧ q.exception = none ∧
      ∃ x, o.value = .error x ∧ o.store.bitmap = s.store.bitmap ∧
      r.completeRequest s io k control = ((r.forget k).throw x, ⟨o.store, o.files⟩)) ∨
    (q.finished = true ∧ q.exception = none ∧ o.value = .ok () ∧
      o.store.bitmap = insert k s.store.bitmap ∧
      r.completeRequest s io k control = ((r.forget k).goto control, ⟨o.store, o.files⟩)) := by
  rw [completeRequest, hq]
  dsimp only
  by_cases hf : q.finished = true
  · rw [if_pos hf, IScsiRead10Callback.complete]
    cases hx : q.exception with
    | some x => exact .inr (.inl ⟨hf, x, rfl, rfl⟩)
    | none =>
      dsimp only
      rcases bitmap_storeBlock_cases s.store io k q.buffer s.files with ⟨x, hv, hb⟩ | ⟨hv, hb⟩ <;>
        rw [hv]
      · exact .inr (.inr (.inl ⟨hf, rfl, x, rfl, hb, rfl⟩))
      · exact .inr (.inr (.inr ⟨hf, rfl, rfl, hb, rfl⟩))
  · rw [if_neg hf]
    exact .inl ⟨Bool.eq_false_iff.2 hf, rfl⟩

/-- The completion of a request ends the call if the request failed, or if its block cannot
    be stored. -/
theorem ends_completeRequest (hc : r.control = .completeRequests caller keys) (hk : e.key ∈ keys)
    (hmem : e.key ∈ r.requestsInFlight) (hcontrol : ∀ v, control ≠ .returned v)
    (hv : (r.completeRequest s e.io e.key control).1.control = .returned v) : Ends r s e v := by
  obtain ⟨q, hq⟩ := Finmap.mem_iff.1 hmem
  rcases completeRequest_cases hq s e.io control with ⟨-, he⟩ | ⟨hf, x, hx, he⟩ |
    ⟨hf, hx, x, hval, -, he⟩ | ⟨-, -, -, -, he⟩ <;> rw [he] at hv
  · exact absurd hv (hcontrol v)
  · cases hv
    exact .completion caller keys q x hc hk hq hf hx
  · cases hv
    exact .store caller keys q x hc hk hq hf hx hval
  · exact absurd hv (hcontrol v)

/-- The number of a block to look at for reading ahead does not overflow. -/
theorem Room.toInt_eq {i : ℕ} (h : Room N M) (hi : n + i ≤ M) :
    toInt ((n : ℤ) + i) = (n + i : ℕ) := by
  have hlt := h.lt
  rw [toInt_eq_self] <;> omega

/-- Nor does the number of the next block to read ahead. -/
theorem Room.toInt_succ {i last : ℤ} (h : Room N M) (hi : (n : ℤ) ≤ i) (hle : i ≤ last)
    (hlast : last < N) : toInt (i + 1) = i + 1 := by
  have hNM := h.le
  have hlt := h.lt
  rw [toInt_eq_self] <;> omega

/-- Whatever ends a call is one of these. -/
theorem InFlight.ends (h : InFlight N M r s) (hr : Room N M)
    (hs : r.advance s e = some (r', s')) (hv : r'.control = .returned v) : Ends r s e v := by
  have hcourse := h.course
  have hstep := advances hs
  generalize hc : r.control = c at hcourse hstep
  cases hstep with
  | @badNumber blockNumber x harg =>
    cases hv
    exact .argument blockNumber x hc harg
  | slotSyncFails _ herror | waitSyncFails _ herror =>
    cases hv
    exact .sync _ herror (by rw [hc]; rfl)
  | @allCompleted caller => cases caller <;> cases hv
  | completes hkey =>
    exact ends_completeRequest hc hkey (Finmap.mem_keys.1 (hcourse.1 hkey))
      (fun v hv => by cases hv) hv
  | requests | requestsAhead =>
    exact ends_requestBlock (by rw [hc]; rfl) (fun v hv => by cases hv) hv
  -- with room for the read-ahead, no number is negative
  | overflows _ hneg =>
    obtain ⟨-, -, -, hle⟩ := hcourse
    rw [hr.toInt_eq hle] at hneg
    omega
  | negativeAhead _ _ hneg =>
    obtain ⟨-, hle⟩ := hcourse
    omega
  | @looksUp n =>
    cases hv
    exact .lookup n hc
  | _ => cases hv

/-! ## A step of the thread -/

theorem keys_insert {m : Finmap fun _ : ℕ => IScsiRead10Callback} :
    (m.insert k q).keys = insert k m.keys := by
  ext j
  rw [Finmap.mem_keys, Finmap.mem_insert, Finset.mem_insert, Finmap.mem_keys]

/-- The answer to a request keeps it in flight. -/
theorem keys_insert_of_mem {m : Finmap fun _ : ℕ => IScsiRead10Callback} {q' : IScsiRead10Callback}
    (h : m.lookup k = some q') : (m.insert k q).keys = m.keys := by
  rw [keys_insert, Finset.insert_eq_of_mem (Finmap.mem_keys.2 (mem_of_lookup h))]

theorem hasBlockBeenRequested_iff :
    r.hasBlockBeenRequested s n = true ↔ n ∈ r.requestsInFlight.keys ∪ s.store.bitmap := by
  simp [hasBlockBeenRequested, containsBlock, Finmap.mem_keys]

theorem hasMaxRequestsInFlight_iff :
    r.hasMaxRequestsInFlight = true ↔ maxRequestsInFlight ≤ r.requestsInFlight.keys.card := by
  rw [hasMaxRequestsInFlight, decide_eq_true_iff]

theorem InFlight.goto (h : InFlight N M r s)
    (hc : control.OnCourse N M r.requestsInFlight.keys s.store.bitmap) :
    InFlight N M (r.goto control) s :=
  ⟨h.totalBlockCount, h.card, h.request, h.bits, hc⟩

theorem InFlight.throw (h : InFlight N M r s) (x : Exn) : InFlight N M (r.throw x) s :=
  h.goto trivial

/-- A request that is sent is the one for its block. -/
theorem issuedFor_new {g : ReadGeometry} {command : Read10} {error : Option String} (hn : n < N)
    (hc : g.read10 n error = .ok command) :
    IssuedFor g N n (.new command (.zeros g.readBlockSize.toNat)) :=
  ⟨hn, ReadGeometry.read10_none hc, rfl, fun x hx => by cases hx⟩

/-- The answer to a request is for the same block. -/
theorem IssuedFor.callback {g : ReadGeometry} (h : IssuedFor g N k q) (outcome : Read10Outcome) :
    IssuedFor g N k (q.callback outcome) := by
  cases outcome with
  | failed error =>
    refine ⟨h.lt, h.command, h.length, fun x hx => ?_⟩
    cases hq : q.exception with
    | some y =>
      rw [IScsiRead10Callback.callback, hq] at hx
      cases hx
      exact h.exception y hq
    | none =>
      rw [IScsiRead10Callback.callback, hq] at hx
      cases hx
      exact ⟨_, rfl⟩
  | good data => exact ⟨h.lt, h.command, (Java.Buffer.length_copy ..).trans h.length, h.exception⟩

theorem InFlight.requestBlock (h : InFlight N M r s) (hn : n < N)
    (hcard : r.requestsInFlight.keys.card < maxRequestsInFlight)
    (hc : control.OnCourse N M (insert n r.requestsInFlight.keys) s.store.bitmap) :
    InFlight N M (r.requestBlock n e control) s := by
  rw [IScsiBlockReader.requestBlock]
  cases hread : r.geometry.read10 n e.error with
  | error x => exact h.throw x
  | ok command =>
    refine ⟨h.totalBlockCount, ?_, fun k q hq => ?_, h.bits, ?_⟩
    · dsimp only
      rw [keys_insert]
      exact (Finset.card_insert_le _ _).trans hcard
    -- the request that was sent, and those that were in flight before
    · by_cases hk : k = n
      · subst hk
        rw [Finmap.lookup_insert, Option.some.injEq] at hq
        rw [← hq]
        exact issuedFor_new hn hread
      · rw [Finmap.lookup_insert_of_ne _ hk] at hq
        exact h.request k q hq
    · dsimp only
      rw [keys_insert]
      exact hc

@[simp] theorem keys_forget : (r.forget k).requestsInFlight.keys =
    r.requestsInFlight.keys.erase k :=
  Finmap.keys_erase k r.requestsInFlight

theorem notMem_forget : k ∉ (r.forget k).requestsInFlight := fun h => (Finmap.mem_erase.1 h).1 rfl

/-- Without a request that was in flight, the thread being anywhere. -/
theorem InFlight.forget (h : InFlight N M r s) (hbits : ∀ n ∈ s'.store.bitmap, n < M)
    (hc : control.OnCourse N M (r.requestsInFlight.keys.erase k) s'.store.bitmap) :
    InFlight N M ((r.forget k).goto control) s' := by
  rw [← keys_forget] at hc
  refine ⟨h.totalBlockCount, ?_, fun j q hq => h.request j q (lookup_of_erase hq), hbits, hc⟩
  change (r.forget k).requestsInFlight.keys.card ≤ _
  rw [keys_forget]
  exact (Finset.card_erase_le).trans h.card

/-- The body of the loop of `completeRequests()`. -/
theorem InFlight.completeRequest (h : InFlight N M r s) (hr : Room N M)
    (hc : r.control = .completeRequests caller rest) (hk : k ∈ rest) (io : Io) :
    InFlight N M (r.completeRequest s io k (.completeRequests caller (rest.erase k))).1
      (r.completeRequest s io k (.completeRequests caller (rest.erase k))).2 := by
  have hcourse := h.course
  rw [hc] at hcourse
  obtain ⟨hsub, hcaller⟩ := hcourse
  obtain ⟨q, hq⟩ := Finmap.mem_iff.1 (Finmap.mem_keys.1 (hsub hk))
  rcases completeRequest_cases hq s io (.completeRequests caller (rest.erase k)) with ⟨-, he⟩ |
    ⟨-, x, -, he⟩ | ⟨-, -, x, -, hb, he⟩ | ⟨-, -, -, hb, he⟩ <;> rw [he]
  · exact h.goto ⟨(Finset.erase_subset k rest).trans hsub, hcaller⟩
  · exact h.forget h.bits trivial
  · refine h.forget ?_ trivial
    rw [hb]
    exact h.bits
  · refine h.forget ?_ ⟨Finset.erase_subset_erase k hsub, hcaller.mono ?_⟩ <;> rw [hb]
    · intro n hn
      rcases Finset.mem_insert.1 hn with rfl | hn
      exacts [(h.request n q hq).lt.trans_le hr.le, h.bits n hn]
    · -- The block left those in flight, and is stored.
      intro n hn
      by_cases hnk : n = k
      · exact Finset.mem_union_right _ (hnk ▸ Finset.mem_insert_self _ _)
      · rcases Finset.mem_union.1 hn with hn | hn
        exacts [Finset.mem_union_left _ (Finset.mem_erase.2 ⟨hnk, hn⟩),
          Finset.mem_union_right _ (Finset.mem_insert_of_mem hn)]

/-- The end of the read-ahead is the number of a block if it does not overflow. -/
theorem InFlight.startReadAhead {readahead : ℕ} (h : InFlight N M r s) (hr : Room N M) (hn : n < N)
    (hknown : n ∈ r.requestsInFlight.keys ∪ s.store.bitmap) (hle : readahead ≤ maxReadAheadBlocks)
    (hlt : n + readahead < 2 ^ 31) : InFlight N M (r.startReadAhead n readahead) s := by
  have hN : (N : ℤ) < 2 ^ 31 := by
    have := hr.le
    have := hr.lt
    omega
  have hlast : toInt (min (toInt (n + readahead)) r.geometry.totalBlockCount - 1) =
      min ((n : ℤ) + readahead) N - 1 := by
    rw [h.totalBlockCount, toInt_eq_self (x := n + readahead) (by omega) (by omega),
      toInt_eq_self] <;> omega
  refine h.goto ⟨subset_rfl, hn, hknown, ?_, ?_⟩ <;> rw [hlast]
  · omega
  · rw [maxReadAheadBlocks] at hle ⊢
    omega

/-- A step of the thread keeps the invariant. -/
theorem InFlight.advance (h : InFlight N M r s) (hr : Room N M) (hu : r.Unwrapped)
    (hs : r.advance s e = some (r', s')) : InFlight N M r' s' := by
  have hcourse := h.course
  have hstep := advances hs
  generalize hc : r.control = c at hcourse hstep
  cases hstep with
  | badNumber | slotSyncFails | overflows | negativeAhead | waitSyncFails => exact h.throw _
  | isStored hlt hstored =>
    rw [h.totalBlockCount] at hlt
    exact h.goto ⟨by omega, containsBlock_iff.1 hstored⟩
  | @notStored n hlt =>
    rw [h.totalBlockCount] at hlt
    exact h.goto (show n < N by omega)
  | isRequested hreq =>
    exact h.goto ⟨hcourse, hasBlockBeenRequested_iff.1 hreq, Nat.zero_le _,
      (Nat.lt_of_lt_of_le hcourse hr.le).le⟩
  | notRequested | slotSynced => exact h.goto hcourse
  | noSlot => exact h.goto ⟨subset_rfl, hcourse⟩
  | freeSlot hmax =>
    rw [← Bool.not_eq_true] at hmax
    exact h.goto ⟨hcourse, not_le.1 (mt hasMaxRequestsInFlight_iff.2 hmax)⟩
  | @allCompleted caller =>
    cases caller with
    | waitForFreeSlot n => exact h.goto hcourse.2
    | requestBlocksForReadAhead n last => exact h.goto ⟨hcourse.2, le_rfl⟩
    | retrieveBlock n => exact h.goto hcourse.2
  | completes hkey => exact h.completeRequest hr hc hkey e.io
  | requests =>
    exact h.requestBlock hcourse.1 hcourse.2 ⟨hcourse.1,
      Finset.mem_union_left _ (Finset.mem_insert_self _ _), Nat.zero_le _,
      (Nat.lt_of_lt_of_le hcourse.1 hr.le).le⟩
  | seesRequested hi hpos hreq =>
    obtain ⟨hn, hknown, -, hle⟩ := hcourse
    rw [hr.toInt_eq hle] at hreq
    refine h.goto ⟨hn, hknown, hi, ?_⟩
    -- The block is in flight, and one of the disk; or it has a bit.
    rcases Finset.mem_union.1 (hasBlockBeenRequested_iff.1 hreq) with hmem | hmem
    · obtain ⟨q, hq⟩ := Finmap.mem_iff.1 (Finmap.mem_keys.1 hmem)
      have := (h.request _ q hq).lt
      have := hr.le
      omega
    · have := h.bits _ hmem
      omega
  | seesNew =>
    obtain ⟨hn, hknown, hi, hle⟩ := hcourse
    have := hr.lt
    refine h.startReadAhead hr hn hknown ?_ ?_ <;> rw [maxReadAheadBlocks] at * <;> omega
  | @seesAll n i hi' =>
    obtain ⟨hn, hknown, hi, -⟩ := hcourse
    obtain rfl : i = (maxReadAheadBlocks + 1) / 2 := by omega
    exact h.startReadAhead hr hn hknown le_rfl (hu n hc)
  | endsAhead => exact h.goto ⟨hcourse.1.1, hcourse.1.2.1⟩
  | skipsAhead hi =>
    obtain ⟨hahead, hle⟩ := hcourse
    refine h.goto ⟨hahead, ?_⟩
    rw [hr.toInt_succ hle hi hahead.2.2.1]
    omega
  | goesAhead hi hmax =>
    rw [← Bool.not_eq_true] at hmax
    exact h.goto ⟨hcourse.1, hcourse.2, hi, not_le.1 (mt hasMaxRequestsInFlight_iff.2 hmax)⟩
  | requestsAhead =>
    obtain ⟨⟨hn, hknown, hlast, hahead⟩, hle, hi, hcard⟩ := hcourse
    refine h.requestBlock (by omega) hcard ⟨⟨hn, ?_, hlast, hahead⟩, ?_⟩
    · rcases Finset.mem_union.1 hknown with hmem | hmem
      exacts [Finset.mem_union_left _ (Finset.mem_insert_of_mem hmem),
        Finset.mem_union_right _ hmem]
    · rw [hr.toInt_succ hle hi hlast]
      omega
  | waitSynced => exact h.goto ⟨subset_rfl, hcourse⟩
  | arrived hmem =>
    exact h.goto ⟨hcourse.1, (Finset.mem_union.1 hcourse.2).resolve_left
      (mt Finmap.mem_keys.1 hmem)⟩
  | @looksUp n =>
    rcases retrieveBlock_cases s.store e.io n s.files with ⟨x, he⟩ | ⟨b, -, -, he⟩ |
      ⟨j, -, -, -, -, he⟩ <;> rw [he] <;>
      exact ⟨h.totalBlockCount, h.card, h.request, h.bits, trivial⟩

/-- Any step of the reader keeps the invariant. -/
theorem InFlight.step (h : InFlight N M r s) (hr : Room N M)
    (hu : ∀ e, a = .advance e → r.Unwrapped) (hs : r.step s a = some (r', s')) :
    InFlight N M r' s' := by
  cases a with
  | call blockNumber =>
    rw [IScsiBlockReader.step] at hs
    split_ifs at hs
    cases hs
    exact h.goto trivial
  | advance e => exact h.advance hr (hu e rfl) hs
  | finish n outcome =>
    rw [IScsiBlockReader.step] at hs
    cases hq : r.requestsInFlight.lookup n with
    | none =>
      rw [hq] at hs
      cases hs
    | some q =>
      rw [hq] at hs
      dsimp only at hs
      split_ifs at hs
      cases hs
      -- the answer leaves the request in flight
      have hcard := h.card
      have hcourse := h.course
      rw [← keys_insert_of_mem hq (q := q.callback outcome)] at hcard hcourse
      refine ⟨h.totalBlockCount, hcard, fun k p hp => ?_, h.bits, hcourse⟩
      by_cases hk : k = n
      · subst hk
        rw [Finmap.lookup_insert, Option.some.injEq] at hp
        rw [← hp]
        exact (h.request k q hq).callback outcome
      · rw [Finmap.lookup_insert_of_ne _ hk] at hp
        exact h.request k p hp

/-- Steps of the other readers keep the invariant: they only store blocks. -/
theorem InFlight.mono (h : InFlight N M r s) (hsub : s.store.bitmap ⊆ s'.store.bitmap)
    (hbits : ∀ n ∈ s'.store.bitmap, n < M) : InFlight N M r s' :=
  ⟨h.totalBlockCount, h.card, h.request, hbits, h.course.mono hsub⟩

/-- A step keeps the geometry of the store. -/
theorem Effect.shape {L B : ℕ} (heff : Effect r s a r' s') (h : Session.Geometry L B s.store) :
    Session.Geometry L B s'.store := by
  cases heff with
  | lookup env n _ => exact h.retrieveBlock env.io n s.files
  | store env q _ _ _ _ _ _ => exact h.storeBlock env.io env.key q.buffer s.files
  | _ => exact h

end IScsiBlockReader

open IScsiBlockReader

/-! ## Readers of a disk -/

namespace Readers

variable {ι : Type*} [DecidableEq ι] {lastLBA s B : ℕ} {g g' : Readers ι} {a : ι × Action}
  {l : List (ι × Action)}

/-- New readers of a disk, over the evidence store that was opened for it. -/
structure Opened (lastLBA s B : ℕ) (g : Readers ι) : Prop where
  readers : ∀ i, ∃ geometry, ReadGeometry.create ⟨lastLBA, s⟩ B = .ok geometry ∧
    g.readers i = .new geometry
  session : ∃ path f, Session.start path ((lastLBA + 1) * s : ℕ) B f = some g.session

/-- What holds of readers of a disk and their evidence store in every state. -/
structure Working (lastLBA s B : ℕ) (g : Readers ι) : Prop where
  disk : ReadGeometry.Accepted lastLBA s B
  opens : Opens ((lastLBA + 1) * s) B
  geometry : ∀ i, (g.readers i).geometry = .ofDisk lastLBA s B
  inFlight : ∀ i, InFlight (blocks ((lastLBA + 1) * s) B)
    (8 * bitmapBytes ((lastLBA + 1) * s) B) (g.readers i) g.session
  exclusive : ∀ i, Exclusive (g.readers i)
  store : Session.Geometry ((lastLBA + 1) * s) B g.session.store

/-- The step does not overflow. -/
def NoWrap (g : Readers ι) : ι × Action → Prop
  | (i, .advance _) => (g.readers i).Unwrapped
  | _ => True

omit [DecidableEq ι] in
theorem Opened.working (h : Opened lastLBA s B g) (hd : ReadGeometry.Accepted lastLBA s B) :
    Working lastLBA s B g := by
  obtain ⟨path, f, hsession⟩ := h.session
  have hstore := Session.geometry_start hsession
  obtain ⟨hopens, hsession⟩ := Session.start_eq_some.1 hsession
  have hnew : ∀ i, g.readers i = .new (.ofDisk lastLBA s B) := by
    intro i
    obtain ⟨geometry, hcreate, hi⟩ := h.readers i
    rw [ReadGeometry.create_ok hd] at hcreate
    cases hcreate
    exact hi
  refine ⟨hd, hopens, fun i => by rw [hnew i]; rfl, fun i => ?_, fun i => ?_, hstore⟩
  · rw [hnew i]
    refine ⟨rfl, Nat.zero_le _, fun k q hq => (by cases hq), fun n hn => ?_, trivial⟩
    rw [hsession] at hn
    exact (mem_bitmap_opened.1 hn).1
  · rw [hnew i]
    exact fun n hn => by cases hn

omit [DecidableEq ι] in
theorem Working.room (h : Working lastLBA s B g) : Room (blocks ((lastLBA + 1) * s) B)
    (8 * bitmapBytes ((lastLBA + 1) * s) B) := by
  have hlt := bitmapBytes_lt (L := (lastLBA + 1) * s) (B := B)
  exact ⟨blocks_le_bitmapBytes h.opens h.disk.blockSize_lt h.disk.blocks_lt, by omega⟩

/-- A step that does not overflow keeps the invariant. -/
theorem Working.step (h : Working lastLBA s B g) (ha : NoWrap g a) (hs : step g a = some g') :
    Working lastLBA s B g' := by
  obtain ⟨⟨r, t⟩, hp, rfl⟩ := Option.map_eq_some_iff.1 hs
  have heff := effect_of_step hp
  have hnext : InFlight _ _ r t := (h.inFlight a.1).step h.room (fun e he => by
    obtain ⟨i, b⟩ := a
    cases he
    exact ha) hp
  refine ⟨h.disk, h.opens, ?_, ?_, exclusive_step h.exclusive hs, heff.shape h.store⟩
  · exact forall_readers (P := fun _ r => r.geometry = .ofDisk lastLBA s B) rfl h.geometry
      (heff.geometry.trans (h.geometry a.1))
  · exact forall_readers (P := fun _ r => InFlight _ _ r t) rfl
      (fun j => (h.inFlight j).mono heff.bitmap_subset hnext.bits) hnext

theorem Working.runs (h : Working lastLBA s B g) (hl : Transition.AllSteps Readers.step NoWrap g l)
    (hg : Transition.runs Readers.step g l = some g') : Working lastLBA s B g' :=
  Transition.runs_invariant (fun _ _ _ ha h hs => h.step ha hs) hg hl h

/-- Whatever ends a call of the reader `i` is one of the ways in which a call can end. -/
theorem Working.ends {i : ι} {e : Env} {v : Except Exn Block} (h : Working lastLBA s B g)
    (hs : Readers.step g (i, .advance e) = some g') (hv : (g'.readers i).control = .returned v) :
    Ends (g.readers i) g.session e v := by
  obtain ⟨⟨r, t⟩, hp, rfl⟩ := Option.map_eq_some_iff.1 hs
  dsimp only at hv
  rw [Function.update_self] at hv
  exact (h.inFlight i).ends h.room hp hv

/-- Nothing overflows on a disk of at most `2 ^ 31 - maxReadAheadBlocks` blocks. -/
theorem Working.noWrap (h : Working lastLBA s B g)
    (hN : blocks ((lastLBA + 1) * s) B + maxReadAheadBlocks ≤ 2 ^ 31) :
    Transition.AllSteps Readers.step NoWrap g l := by
  induction l generalizing g with
  | nil => trivial
  | cons a l ih =>
    have ha : NoWrap g a := by
      obtain ⟨i, _ | e | _⟩ := a
      · trivial
      · intro n hn
        have hcourse := (h.inFlight i).course
        rw [hn] at hcourse
        have := hcourse.1
        omega
      · trivial
    exact ⟨ha, fun t ht => ih (h.step ha ht)⟩

end Readers

end Raqet
