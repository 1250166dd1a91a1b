import Raqet.IScsi.InFlight

/-!
# How calls end

Readers of a disk whose sector numbers are `int`s keep their requests in flight in order
(`Sound`, `SoundStep`); a call for a block of the disk ends with this block or with an
`IOException`; and a request that failed is forgotten, so that a later call makes a new
one (`inFlight_and_outcomes`).

This is so in all runs whose read-ahead does not overflow (`NoWrap`). It does for the
block `2 ^ 31 - 16`: the reader then requests a block that the disk does not have
(`not_sound_wrapped`).
-/

namespace Raqet

open Java EvidenceStore

/-- Libiscsi may refuse to send any command. -/
theorem ReadGeometry.read10_some {g : ReadGeometry} {n : ℤ} {c : Read10}
    (h : g.read10 n none = .ok c) (error : String) :
    g.read10 n (some error) = .error (libiscsiError "Failed to send READ10 command" error) :=
  IScsiLogicalUnit.read_some h error

namespace IScsiBlockReader

/-- The block whose `READ10` command the step sends. -/
def issued (r : IScsiBlockReader) : Action → Option ℕ
  | .advance e => r.control.requests.filter fun n => (r.geometry.read10 n e.error).isOk
  | _ => none

/-- The block whose request fails in the step: the request cannot be sent, or it is
    completed and had failed, or what it brought cannot be stored. -/
def failed (r : IScsiBlockReader) (s : Session) : Action → Option ℕ
  | .advance e =>
    match r.control with
    | .completeRequests _ keys =>
      if e.key ∈ keys then
        (r.requestsInFlight.lookup e.key).bind fun q =>
          if q.finished = true ∧ (q.exception ≠ none ∨
            (s.store.storeBlock e.io e.key q.buffer s.files).value.isOk = false) then some e.key
          else none
      else none
    | control => control.requests.filter fun n => !(r.geometry.read10 n e.error).isOk
  | _ => none

/-- The result of the call that ended last. -/
def result (r : IScsiBlockReader) : Option (Except Exn Block) :=
  match r.control with
  | .returned v => some v
  | _ => none

/-- The requests in flight of a reader of `N` blocks are in order: there are at most
    `maxRequestsInFlight`, each for the block it is filed under, which is one of the disk. -/
structure Sound (N : ℕ) (r : IScsiBlockReader) : Prop where
  card : r.requestsInFlight.keys.card ≤ maxRequestsInFlight
  request : ∀ k q, r.requestsInFlight.lookup k = some q →
    k < N ∧ r.geometry.read10 k none = .ok q.command

/-- The step keeps the requests in order. -/
structure SoundStep (r : IScsiBlockReader) (s : Session) (a : Action) (r' : IScsiBlockReader) :
    Prop where
  /-- No second `READ10` is sent for a block that is in flight. -/
  issued : ∀ k, r.issued a = some k → k ∉ r.requestsInFlight
  /-- A block is stored under the number that it was requested for. -/
  stored : ∀ k v, r.storeCall s a = some (k, v) → ∃ e q, a = .advance e ∧
    r.requestsInFlight.lookup k = some q ∧ q.finished = true ∧
    r.geometry.read10 k none = .ok q.command ∧
    v = (s.store.storeBlock e.io k q.buffer s.files).value
  /-- A request that fails ends the call, and is no longer in flight. -/
  failed : ∀ k, r.failed s a = some k →
    k ∉ r'.requestsInFlight ∧ ∃ x, r'.control = .returned (.error x)

/-- The thread is on its way to request the block. -/
def Requesting (n : ℕ) (control : Control) : Prop :=
  control = .retrieveBlock n ∨ control = .hasBlockBeenRequested n ∨ control.target = some n

variable {r r' : IScsiBlockReader} {s s' : Session} {a : Action} {e : Env} {N M n k : ℕ} {x : Exn}
  {v : Except Exn Block}

/-! ## The requests in flight -/

theorem InFlight.sound (h : InFlight N M r s) : Sound N r :=
  ⟨h.card, fun k q hq => ⟨(h.request k q hq).lt, (h.request k q hq).command⟩⟩

theorem target_of_requests {control : Control} (h : control.requests = some n) :
    control.target = some n := by
  cases control <;> first | exact h | cases h

theorem requests_of_issued (h : r.issued (.advance e) = some k) : r.control.requests = some k :=
  Option.eq_some_of_filter_eq_some h

/-- Where the thread is when a request fails. -/
theorem failed_eq_some (h : r.failed s a = some k) : ∃ e, a = .advance e ∧
    ((∃ caller keys q, r.control = .completeRequests caller keys ∧ e.key ∈ keys ∧
      r.requestsInFlight.lookup e.key = some q ∧ q.finished = true ∧ (q.exception ≠ none ∨
        (s.store.storeBlock e.io e.key q.buffer s.files).value.isOk = false) ∧ k = e.key) ∨
    (r.control.requests = some k ∧ (r.geometry.read10 k e.error).isOk = false)) := by
  cases a with
  | advance e =>
    refine ⟨e, rfl, ?_⟩
    unfold failed at h
    cases hc : r.control with
    | completeRequests caller keys =>
      rw [hc] at h
      dsimp only at h
      split_ifs at h with hk
      obtain ⟨q, hq, h⟩ := Option.bind_eq_some_iff.1 h
      split_ifs at h with hf
      exact .inl ⟨caller, keys, q, rfl, hk, hq, hf.1, hf.2, (Option.some.inj h).symm⟩
    | _ =>
      rw [hc] at h
      obtain ⟨hreq, hread⟩ := Option.filter_eq_some_iff.1 h
      exact .inr ⟨hreq, by simpa using hread⟩
  | _ => cases h

/-- A request that cannot be sent ends the call. -/
theorem step_not_sent (hreq : r.control.requests = some k)
    (hread : (r.geometry.read10 k e.error).isOk = false)
    (hs : step r s (.advance e) = some (r', s')) : ∃ x, r' = r.throw x := by
  obtain ⟨x, hx⟩ : ∃ x, r.geometry.read10 k e.error = .error x := by
    cases hx : r.geometry.read10 k e.error with
    | error x => exact ⟨x, rfl⟩
    | ok c =>
      rw [hx] at hread
      cases hread
  rw [step, advance] at hs
  cases hc : r.control with
  | requestBlock n =>
    rw [hc] at hs hreq
    obtain rfl : n = k := Option.some.inj hreq
    dsimp only at hs
    rw [requestBlock, hx] at hs
    cases hs
    exact ⟨x, rfl⟩
  -- the request is sent for the block `i` here
  | requestBlockForReadAhead n i last =>
    rw [hc] at hs hreq
    obtain rfl : i.toNat = k := Option.some.inj hreq
    dsimp only at hs
    rw [requestBlock, hx] at hs
    cases hs
    exact ⟨x, rfl⟩
  | _ =>
    rw [hc] at hreq
    cases hreq

/-- A request that fails is no longer in flight. -/
theorem step_failed (hx : Exclusive r) (hf : r.failed s a = some k)
    (hs : step r s a = some (r', s')) :
    k ∉ r'.requestsInFlight ∧ ∃ x, r'.control = .returned (.error x) := by
  obtain ⟨e, rfl, ⟨caller, keys, q, hc, hk, hq, hfin, hfail, rfl⟩ | ⟨hreq, hread⟩⟩ :=
    failed_eq_some hf
  · rw [step, advance, hc] at hs
    dsimp only at hs
    rw [if_neg (Finset.ne_empty_of_mem hk), if_pos hk, Option.some.injEq] at hs
    rcases completeRequest_cases hq s e.io (.completeRequests caller (keys.erase e.key)) with
      ⟨hunfin, -⟩ | ⟨-, x, -, he⟩ | ⟨-, -, x, -, -, he⟩ | ⟨-, hnone, hv, -, -⟩
    · rw [hfin] at hunfin
      cases hunfin
    · rw [he] at hs
      cases hs
      exact ⟨notMem_forget, _, rfl⟩
    · rw [he] at hs
      cases hs
      exact ⟨notMem_forget, _, rfl⟩
    · rw [hv] at hfail
      rcases hfail with hfail | hfail
      · exact absurd hnone hfail
      · cases hfail
  · obtain ⟨x, rfl⟩ := step_not_sent hreq hread hs
    exact ⟨hx k (target_of_requests hreq), _, rfl⟩

theorem InFlight.soundStep (h : InFlight N M r s) (hx : Exclusive r)
    (hs : r.step s a = some (r', s')) : SoundStep r s a r' where
  issued k hk := by
    cases a with
    | advance e => exact hx k (target_of_requests (requests_of_issued hk))
    | _ => cases hk
  stored k v hv := by
    obtain ⟨e, _, _, q, rfl, -, -, hq, hf, -, rfl, rfl⟩ := storeCall_eq_some hv
    exact ⟨e, q, rfl, hq, hf, (h.request _ q hq).command, rfl⟩
  failed k hk := step_failed hx hk hs

/-! ## How a call ends -/

/-- What ends a call for a block of the disk is an `IOException` or what the evidence store
    returns, if all blocks of the disk can be requested. -/
theorem InFlight.ends_or {L B : ℕ} (h : InFlight (blocks L B) M r s)
    (hB : 0 < B) (hB' : B < 2 ^ 31) (hsize : r.geometry.readBlockSize = B)
    (hread : ∀ k < blocks L B, ∃ c, r.geometry.read10 k none = .ok c)
    (hstore : Session.Geometry L B s.store) (hcount : countBlocks L B = blocks L B)
    (hn : n < blocks L B) (hc : r.control.blockNumber = some (n : ℤ)) (he : Ends r s e v) :
    (∃ b, v = .ok b ∧ r.control = .lookup n ∧
      (s.store.retrieveBlock e.io n s.files).value = .ok b) ∨
    ∃ x, v = .error x ∧ x.IsIOException := by
  have hcourse := h.course
  cases he with
  | argument blockNumber x control check =>
    rw [control] at hc
    obtain rfl : blockNumber = n := Option.some.inj hc
    rw [h.totalBlockCount, argIndex_eq_ok.2 ⟨⟨by omega, by omega⟩, rfl⟩] at check
    cases check
  | sync message error control => exact .inr ⟨_, rfl, trivial⟩
  | completion caller keys q x control mem lookup finished exception =>
    obtain ⟨message, rfl⟩ := (h.request _ q lookup).exception x exception
    exact .inr ⟨_, rfl, trivial⟩
  | store caller keys q x control mem lookup finished exception value =>
    have hq := h.request _ q lookup
    have hlen : q.buffer.length = B := by rw [hq.length, hsize, Int.toNat_natCast]
    have hk : s.store.transferLength e.key q.buffer.length =
        some (Session.storedLength L B e.key) := by
      rw [hlen]
      exact hstore.transferLength_eq hB hB' hq.lt
    rcases value_storeBlock_cases e.io s.files hk with hv | hv <;> rw [hv] at value <;>
      cases value
    exact .inr ⟨_, rfl, trivial⟩
  | send k x control read10 =>
    -- a request is only sent for a block of the disk
    have hk : k < blocks L B := by
      cases hcontrol : r.control with
      | requestBlock m =>
        rw [hcontrol] at control hcourse
        obtain rfl : m = k := Option.some.inj control
        exact hcourse.1
      | requestBlockForReadAhead m i last =>
        rw [hcontrol] at control hcourse
        obtain rfl : i.toNat = k := Option.some.inj control
        obtain ⟨⟨-, -, hlast, -⟩, hle, hi, -⟩ := hcourse
        omega
      | _ =>
        rw [hcontrol] at control
        cases control
    obtain ⟨c, hok⟩ := hread k hk
    cases herror : e.error with
    | none =>
      rw [herror, hok] at read10
      cases read10
    | some message =>
      rw [herror, ReadGeometry.read10_some hok] at read10
      cases read10
      exact .inr ⟨_, rfl, trivial⟩
  | lookup m control =>
    rw [control] at hc hcourse
    obtain rfl : m = n := by exact_mod_cast Option.some.inj hc
    have hlt : (m : ℤ) < s.store.blockCount := by
      rw [hstore.blockCount, hcount]
      exact_mod_cast hn
    rcases value_retrieveBlock_cases e.io s.files hlt with ⟨hnot, -⟩ |
      ⟨-, ⟨hk, -⟩ | hv | hv | ⟨b, hv⟩⟩
    -- the block has a bit here, and a length, so only the files can fail
    · exact absurd hcourse.2 hnot
    · rw [hstore.blockSize, hstore.transferLength_eq hB hB' hn] at hk
      cases hk
    · exact .inr ⟨_, hv, trivial⟩
    · exact .inr ⟨_, hv, trivial⟩
    · exact .inl ⟨b, hv, control, hv⟩

/-- Only the completion of a request changes the bitmap. -/
theorem completeRequests_of_bitmap_ne (hs : r.advance s e = some (r', s'))
    (hne : s'.store.bitmap ≠ s.store.bitmap) : ∃ caller rest, r.control =
      .completeRequests caller rest ∧ e.key ∈ rest ∧
      r.completeRequest s e.io e.key (.completeRequests caller (rest.erase e.key)) = (r', s') := by
  have hstep := advances hs
  generalize hc : r.control = c at hstep
  cases hstep with
  | @completes caller rest hkey => exact ⟨caller, rest, rfl, hkey, rfl⟩
  | @looksUp n =>
    rcases retrieveBlock_cases s.store e.io n s.files with ⟨x, he⟩ | ⟨b, -, -, he⟩ |
      ⟨k, -, -, -, -, he⟩ <;> rw [he] at hne <;> exact absurd rfl hne
  | _ => exact absurd rfl hne

/-- The step that sets the bit of a block stores this block. -/
theorem storeCall_of_mem (hs : r.step s a = some (r', s')) (hn : n ∉ s.store.bitmap)
    (hn' : n ∈ s'.store.bitmap) : r.storeCall s a = some (n, .ok ()) := by
  have hne : s'.store.bitmap ≠ s.store.bitmap := fun heq => hn (heq ▸ hn')
  cases a with
  | call k =>
    rw [IScsiBlockReader.step] at hs
    split_ifs at hs
    cases hs
    exact absurd rfl hne
  | finish k outcome =>
    rcases effect_of_step hs with _ | _ | _ | _ | _ | _ | _
    exact absurd rfl hne
  | advance e =>
    -- only the completion of a request sets a bit
    obtain ⟨caller, rest, hc, hk, hcomplete⟩ := completeRequests_of_bitmap_ne hs hne
    cases hq : r.requestsInFlight.lookup e.key with
    | none =>
      rw [completeRequest, hq] at hcomplete
      cases hcomplete
      exact absurd rfl hne
    | some q =>
      rcases completeRequest_cases hq s e.io (.completeRequests caller (rest.erase e.key)) with
        ⟨-, he⟩ | ⟨-, x, -, he⟩ | ⟨-, -, x, -, hb, he⟩ | ⟨hf, hx, hv, hb, he⟩ <;>
        rw [he] at hcomplete <;> cases hcomplete
      · exact absurd rfl hne
      · exact absurd rfl hne
      · exact absurd hb hne
      · rw [hb] at hn'
        obtain rfl := (Finset.mem_insert.1 hn').resolve_right hn
        rw [storeCall, hc]
        dsimp only
        rw [if_pos hk, hq, Option.bind_some, if_pos ⟨hf, hx⟩, hv]

/-- A request is sent, or ends the call. -/
theorem issued_or_returned (hreq : r.control.requests = some n)
    (hs : r.advance s e = some (r', s')) :
    r.issued (.advance e) = some n ∨ ∃ x, r'.control = .returned (.error x) := by
  cases hread : (r.geometry.read10 n e.error).isOk with
  | true => exact .inl (Option.filter_eq_some_iff.2 ⟨hreq, hread⟩)
  | false =>
    obtain ⟨x, rfl⟩ := step_not_sent hreq hread hs
    exact .inr ⟨_, rfl⟩

/-- The thread goes on towards the request for the block, if it is neither in flight nor
    stored, until it sends the request; or an exception ends the call. -/
theorem InFlight.requesting (h : InFlight N M r s) (hn : n < N) (hreq : Requesting n r.control)
    (hmem : n ∉ r.requestsInFlight) (hbit : n ∉ s.store.bitmap)
    (hs : r.advance s e = some (r', s')) :
    (Requesting n r'.control ∧ n ∉ r'.requestsInFlight ∧ n ∉ s'.store.bitmap) ∨
      r.issued (.advance e) = some n ∨ ∃ x, r'.control = .returned (.error x) := by
  have hcourse := h.course
  rcases hreq with hc | hc | hc
  · have harg : argIndex "blockNumber" (n : ℤ) r.geometry.totalBlockCount = .ok (n : ℤ) :=
      argIndex_eq_ok.2 ⟨⟨by omega, by rw [h.totalBlockCount]; omega⟩, rfl⟩
    rw [IScsiBlockReader.advance, hc] at hs
    dsimp only at hs
    rw [harg] at hs
    dsimp only at hs
    rw [Int.toNat_natCast, if_neg (mt containsBlock_iff.1 hbit)] at hs
    cases hs
    exact .inl ⟨.inr (.inl rfl), hmem, hbit⟩
  · have hnot : ¬r.hasBlockBeenRequested s n = true := by
      simp [hasBlockBeenRequested, containsBlock, hmem, hbit]
    rw [IScsiBlockReader.advance, hc] at hs
    dsimp only at hs
    rw [if_neg hnot] at hs
    cases hs
    exact .inl ⟨.inr (.inr rfl), hmem, hbit⟩
  · have hstay : ∀ control : Control, control.target = some n →
        Requesting n (r.goto control).control ∧ n ∉ (r.goto control).requestsInFlight ∧
          n ∉ s.store.bitmap := fun control ht => ⟨.inr (.inr ht), hmem, hbit⟩
    have hstep := advances hs
    generalize hctrl : r.control = c at hc hcourse hstep
    cases hstep with
    | noSlot | freeSlot | slotSynced => exact .inl (hstay _ hc)
    | slotSyncFails => exact .inr (.inr ⟨_, rfl⟩)
    | @allCompleted caller =>
      cases caller with
      | waitForFreeSlot m => exact .inl (hstay _ hc)
      | _ => cases hc
    | @completes caller rest hkey =>
      cases caller with
      | waitForFreeSlot m =>
        obtain rfl : m = n := Option.some.inj hc
        obtain ⟨q, hq⟩ := Finmap.mem_iff.1 (Finmap.mem_keys.1 (hcourse.1 hkey))
        -- the request that is completed is for another block, so it does not store this one
        have hne : m ≠ e.key := fun heq => hmem (heq ▸ mem_of_lookup hq)
        rcases completeRequest_cases hq s e.io
          (.completeRequests (.waitForFreeSlot m) (rest.erase e.key)) with ⟨-, he⟩ |
          ⟨-, x, -, he⟩ | ⟨-, -, x, -, -, he⟩ | ⟨-, -, -, hb, he⟩ <;> rw [he]
        · exact .inl (hstay _ rfl)
        · exact .inr (.inr ⟨_, rfl⟩)
        · exact .inr (.inr ⟨_, rfl⟩)
        · refine .inl ⟨.inr (.inr rfl), fun hm => hmem (Finmap.mem_erase.1 hm).2, ?_⟩
          rw [hb]
          exact fun hm => (Finset.mem_insert.1 hm).elim hne hbit
      | _ => cases hc
    | requests | requestsAhead => exact .inr (issued_or_returned (by rw [hctrl]; exact hc) hs)
    | _ => cases hc

theorem result_eq_some {v : Except Exn Block} (h : r.result = some v) :
    r.control = .returned v := by
  rw [result] at h
  cases hc : r.control with
  | returned w =>
    rw [hc] at h
    cases h
    rfl
  | _ =>
    rw [hc] at h
    cases h

end IScsiBlockReader

open IScsiBlockReader

namespace Readers

variable {ι : Type*} [DecidableEq ι] {lastLBA s B : ℕ} {g g' : Readers ι} {i : ι} {a : ι × Action}
  {l : List (ι × Action)} {n : ℤ} {v : Except Exn Block}

/-- A call goes on in a step, or the step ends it. -/
theorem step_call (hc : (g.readers i).control.blockNumber = some n) (ha : ∀ k, a ≠ (i, .call k))
    (hs : step g a = some g') : (g'.readers i).control.blockNumber = some n ∨
      ∃ e v, a = (i, .advance e) ∧ (g'.readers i).control = .returned v := by
  obtain ⟨⟨r, t⟩, hp, rfl⟩ := Option.map_eq_some_iff.1 hs
  obtain ⟨j, a⟩ := a
  dsimp only at hp ⊢
  by_cases hi : i = j
  · subst hi
    have hfollows : ∀ {e control}, (g.readers i).control.Follows control →
        control.blockNumber = some n ∨
          ∃ e' v, (i, Action.advance e) = (i, .advance e') ∧ control = .returned v := by
      rintro e control (hf | ⟨x, hx⟩)
      exacts [.inl (hf.trans hc), .inr ⟨e, _, rfl, hx⟩]
    rw [Function.update_self]
    cases effect_of_step hp with
    | call k _ => exact absurd rfl (ha k)
    | move e control hf _ => exact hfollows hf
    | lookup e m _ => exact .inr ⟨e, _, rfl, rfl⟩
    | request e m command control hf _ _ _ => exact hfollows hf
    | drop e q control hf _ _ _ _ => exact hfollows hf
    | store e q control hf _ _ _ _ => exact hfollows hf
    | finish m q outcome _ _ _ => exact .inl hc
  · rw [Function.update_of_ne hi]
    exact .inl hc

/-- Where a call starts. -/
theorem control_call (hs : step g (i, .call n) = some g') :
    (g'.readers i).control = .retrieveBlock n := by
  obtain ⟨⟨r, t⟩, hp, rfl⟩ := Option.map_eq_some_iff.1 hs
  dsimp only at hp ⊢
  rw [IScsiBlockReader.step] at hp
  split_ifs at hp
  cases hp
  rw [Function.update_self]
  rfl

/-- A reader that is not called stays where its last call ended. -/
theorem step_returned (hc : (g.readers i).control = .returned v) (ha : ∀ k, a ≠ (i, .call k))
    (hs : step g a = some g') : (g'.readers i).control = .returned v := by
  obtain ⟨⟨r, t⟩, hp, rfl⟩ := Option.map_eq_some_iff.1 hs
  obtain ⟨j, a⟩ := a
  dsimp only at hp ⊢
  by_cases hi : i = j
  · subst hi
    rw [Function.update_self]
    cases a with
    | call k => exact absurd rfl (ha k)
    | advance e =>
      rw [IScsiBlockReader.step, advance, hc] at hp
      cases hp
    | finish m outcome =>
      rw [IScsiBlockReader.step] at hp
      cases hq : (g.readers i).requestsInFlight.lookup m with
      | none =>
        rw [hq] at hp
        cases hp
      | some q =>
        rw [hq] at hp
        dsimp only at hp
        split_ifs at hp
        cases hp
        exact hc
  · rw [Function.update_of_ne hi]
    exact hc

theorem runs_returned (hc : (g.readers i).control = .returned v) (hl : ∀ k, (i, .call k) ∉ l)
    (hg : Transition.runs step g l = some g') : (g'.readers i).control = .returned v := by
  induction l generalizing g with
  | nil =>
    cases hg
    exact hc
  | cons a l ih =>
    obtain ⟨t, ht, hg⟩ := Transition.runs_cons.1 hg
    refine ih (step_returned hc (fun k ha => hl k ?_) ht) (fun k hk => hl k ?_) hg
    · rw [ha]
      exact List.mem_cons_self
    · exact List.mem_cons_of_mem a hk

/-- A call that was not ended by the run goes on; what holds of the result of every step
    that may end it holds of the result. -/
theorem call_induction {Q : Except Exn Block → Prop}
    (hQ : ∀ l₁ e l₂ t u v, l = l₁ ++ (i, .advance e) :: l₂ → Transition.runs step g l₁ = some t →
      (t.readers i).control.blockNumber = some n → step t (i, .advance e) = some u →
      (u.readers i).control = .returned v → Q v)
    (hc : (g.readers i).control.blockNumber = some n) (hl : ∀ k, (i, .call k) ∉ l)
    (hg : Transition.runs step g l = some g') : (g'.readers i).control.blockNumber = some n ∨
      ∃ v, (g'.readers i).control = .returned v ∧ Q v := by
  induction l generalizing g with
  | nil =>
    cases hg
    exact .inl hc
  | cons a l ih =>
    obtain ⟨t, ht, hrest⟩ := Transition.runs_cons.1 hg
    have htail : ∀ k, (i, .call k) ∉ l := fun k hk => hl k (List.mem_cons_of_mem a hk)
    have hhead : ∀ k, a ≠ (i, .call k) := fun k ha => hl k (by rw [ha]; exact List.mem_cons_self)
    rcases step_call hc hhead ht with hc' | ⟨e, v, rfl, hv⟩
    · refine ih (fun l₁ e l₂ t' u v heq hrun => hQ (a :: l₁) e l₂ t' u v ?_ ?_) hc' htail hrest
      · rw [heq]
        rfl
      · exact Transition.runs_cons.2 ⟨t, ht, hrun⟩
    · exact .inr ⟨v, runs_returned hv htail hrest, hQ [] e l g t v rfl rfl hc ht hv⟩

/-- The call of the reader `i` for the block `n`, from `g`, was ended in the run `l` by the
    block that the evidence store returned for this number. -/
def Gives (i : ι) (n : ℕ) (g : Readers ι) (l : List (ι × Action)) (b : Block) : Prop :=
  ∃ l₁ e l₂ t, l = l₁ ++ (i, .advance e) :: l₂ ∧ Transition.runs step g l₁ = some t ∧
    (t.readers i).control = .lookup n ∧
    (t.session.store.retrieveBlock e.io n t.session.files).value = .ok b

/-- A call that ended with a block ended with the one that it was for. -/
theorem gives_of_ok {n : ℕ} {b : Block} (h : Working lastLBA s B g)
    (hu : Transition.AllSteps step NoWrap g l)
    (hc : (g.readers i).control.blockNumber = some (n : ℤ))
    (hl : ∀ k, (i, .call k) ∉ l) (hg : Transition.runs step g l = some g')
    (hv : (g'.readers i).control = .returned (.ok b)) : Gives i n g l b := by
  have hstep : ∀ l₁ e l₂ t u v, l = l₁ ++ (i, .advance e) :: l₂ →
      Transition.runs step g l₁ = some t → (t.readers i).control.blockNumber = some (n : ℤ) →
      step t (i, .advance e) = some u → (u.readers i).control = .returned v →
      ∀ b, v = .ok b → Gives i n g l b := by
    intro l₁ e l₂ t u v heq hrun hc hstep hv b hb
    have hw : Working lastLBA s B t := h.runs (by rw [heq] at hu; exact hu.left) hrun
    obtain ⟨m, hlookup, hvalue⟩ := (hw.ends hstep hv).eq_ok hb
    rw [hlookup] at hc
    obtain rfl : m = n := Int.ofNat_inj.1 (Option.some.inj hc)
    exact ⟨l₁, e, l₂, t, heq, hrun, hlookup, hvalue⟩
  rcases call_induction hstep hc hl hg with hc' | ⟨v, hv', hgives⟩
  · rw [hv] at hc'
    cases hc'
  · rw [hv] at hv'
    cases hv'
    exact hgives b rfl

/-- `1` if the reader `i` sends the `READ10` command for the block `n` in the step. -/
def issues (i : ι) (n : ℕ) (g : Readers ι) (a : ι × Action) : ℕ :=
  if a.1 = i ∧ (g.readers i).issued a.2 = some n then 1 else 0

/-- A block whose request failed is requested anew: while no other reader stores it, a call
    is on its way to request it, or has done so, or was ended by an exception. -/
theorem requesting_runs {n : ℕ} (h : Working lastLBA s B g)
    (hu : Transition.AllSteps step NoWrap g l)
    (hn : n < blocks ((lastLBA + 1) * s) B) (hreq : Requesting n (g.readers i).control)
    (hmem : n ∉ (g.readers i).requestsInFlight) (hbit : n ∉ g.session.store.bitmap)
    (hl : ∀ k, (i, .call k) ∉ l) (hother : ∀ j ≠ i, Transition.cost step (storesDone j n) g l = 0)
    (hg : Transition.runs step g l = some g') :
    Requesting n (g'.readers i).control ∨ 1 ≤ Transition.cost step (issues i n) g l ∨
      ∃ x, (g'.readers i).control = .returned (.error x) := by
  induction l generalizing g with
  | nil =>
    cases hg
    exact .inl hreq
  | cons a l ih =>
    obtain ⟨t, ht, hrest⟩ := Transition.runs_cons.1 hg
    have htail : ∀ k, (i, .call k) ∉ l := fun k hk => hl k (List.mem_cons_of_mem a hk)
    have hcost : ∀ w : Readers ι → ι × Action → ℕ, Transition.cost step w g (a :: l) =
        w g a + Transition.cost step w t l := fun w => by rw [Transition.cost, ht, Option.elim_some]
    -- The step keeps all of it, or sends the request, or throws.
    have hnext : (Requesting n (t.readers i).control ∧ n ∉ (t.readers i).requestsInFlight ∧
        n ∉ t.session.store.bitmap) ∨ (a.1 = i ∧ (g.readers i).issued a.2 = some n) ∨
          ∃ x, (t.readers i).control = .returned (.error x) := by
      obtain ⟨⟨r, u⟩, hp, rfl⟩ := Option.map_eq_some_iff.1 ht
      obtain ⟨j, a⟩ := a
      dsimp only at hp ⊢
      by_cases hi : i = j
      · subst hi
        rw [Function.update_self]
        cases a with
        | call k => exact absurd List.mem_cons_self (hl k)
        | advance e =>
          rcases (h.inFlight i).requesting hn hreq hmem hbit hp with hr | hr | hr
          exacts [.inl hr, .inr (.inl ⟨rfl, hr⟩), .inr (.inr hr)]
        | finish m outcome =>
          rcases effect_of_step hp with _ | _ | _ | _ | _ | _ | ⟨_, q, _, hq, _, _⟩
          refine .inl ⟨hreq, fun hm => ?_, hbit⟩
          rcases Finmap.mem_insert.1 hm with rfl | hm
          exacts [hmem (mem_of_lookup hq), hmem hm]
      · rw [Function.update_of_ne hi]
        -- only a reader that stores the block could set its bit, and no other one does
        refine .inl ⟨hreq, hmem, fun hbit' => ?_⟩
        have hzero := hother j (Ne.symm hi)
        rw [hcost, storesDone, if_pos ⟨rfl, _, storeCall_of_mem hp hbit hbit', rfl, rfl⟩] at hzero
        omega
    rcases hnext with ⟨hreq, hmem, hbit⟩ | hissued | ⟨x, hx⟩
    · have hother' : ∀ j ≠ i, Transition.cost step (storesDone j n) t l = 0 := by
        intro j hj
        have := hother j hj
        rw [hcost] at this
        omega
      rcases ih (h.step hu.1 ht) (hu.2 t ht) hreq hmem hbit htail hother' hrest with hr | hr | hr
      · exact .inl hr
      · rw [hcost]
        exact .inr (.inl (hr.trans (Nat.le_add_left _ _)))
      · exact .inr (.inr hr)
    · refine .inr (.inl ?_)
      rw [hcost, issues, if_pos hissued]
      exact Nat.le_add_right _ _
    · exact .inr (.inr ⟨x, runs_returned hx htail hrest⟩)

omit [DecidableEq ι] in
/-- The disk has no more blocks than sectors, and a store of `2 ^ 31` blocks is not opened. -/
theorem Opened.accepted (h : Opened lastLBA s B g) (hd : ReadGeometry.ValidDisk lastLBA s B)
    (hlba : lastLBA < 2 ^ 31) : ReadGeometry.Accepted lastLBA s B := by
  obtain ⟨path, f, hsession⟩ := h.session
  obtain ⟨hopens, -⟩ := Session.start_eq_some.1 hsession
  refine ⟨hd, lt_of_le_of_ne ?_ (hopens.blocks_ne hd.blockSize_lt)⟩
  -- Every block begins with a sector.
  refine not_lt.1 fun hlt => ?_
  have hle := hd.lt_blocks_iff.1 hlt
  have := Nat.le_mul_of_pos_right (2 ^ 31) hd.div_pos
  omega

/-- The call `retrieveBlock(n)` of the reader `i` is in order in the run `l` from `g`, where
    it starts, to `g'`. -/
structure CallInOrder (i : ι) (n : ℕ) (g : Readers ι) (l : List (ι × Action)) (g' : Readers ι) :
    Prop where
  /-- If it ended, it ended with the block or with an `IOException`. -/
  result : ∀ v, (g'.readers i).control = .returned v →
    (∃ b, v = .ok b ∧ Gives i n g l b) ∨ ∃ x, v = .error x ∧ x.IsIOException
  /-- If the block was neither in flight nor stored, and no other reader stores it, the call
      is on its way to request it, or has requested it, or an exception ended it. -/
  fresh : n ∉ (g.readers i).requestsInFlight → n ∉ g.session.store.bitmap →
    (∀ j ≠ i, Transition.cost step (storesDone j n) g l = 0) →
    Requesting n (g'.readers i).control ∨ 1 ≤ Transition.cost step (issues i n) g l ∨
      ∃ x, (g'.readers i).control = .returned (.error x)

/-- In every run of readers of a disk whose sector numbers are `int`s, in which the read-ahead
    does not overflow, the requests in flight are in order, and so is every call for a block of
    the disk. -/
theorem inFlight_and_outcomes (lastLBA s B : ℕ) (hd : ReadGeometry.ValidDisk lastLBA s B)
    (hlba : lastLBA < 2 ^ 31) (g₀ g : Readers ι) (l : List (ι × Action))
    (h₀ : Opened lastLBA s B g₀) (hu : Transition.AllSteps step NoWrap g₀ l)
    (hg : Transition.runs step g₀ l = some g) :
    (∀ i, Sound (blocks ((lastLBA + 1) * s) B) (g.readers i)) ∧
    (∀ i a g', step g (i, a) = some g' →
      SoundStep (g.readers i) g.session a (g'.readers i)) ∧
    ∀ (i : ι) (n : ℕ) (g₁ g' : Readers ι) (l' : List (ι × Action)),
      n < blocks ((lastLBA + 1) * s) B → step g (i, .call n) = some g₁ →
      (∀ k, (i, .call k) ∉ l') → Transition.AllSteps step NoWrap g₁ l' →
      Transition.runs step g₁ l' = some g' → CallInOrder i n g₁ l' g' := by
  have hd' := h₀.accepted hd hlba
  have h : Working lastLBA s B g := (h₀.working hd').runs hu hg
  refine ⟨fun i => (h.inFlight i).sound, fun i a g' hs => ?_,
    fun i n g₁ g' l' hn hcall hl hu' hg' => ?_⟩
  · obtain ⟨⟨r, t⟩, hp, rfl⟩ := Option.map_eq_some_iff.1 hs
    dsimp only
    rw [Function.update_self]
    exact (h.inFlight i).soundStep (h.exclusive i) hp
  -- the outcome of the call: the step that ends it decides
  · have h₁ : Working lastLBA s B g₁ := h.step (show NoWrap g (i, .call n) from trivial) hcall
    have hcontrol := control_call hcall
    refine ⟨fun v hv => ?_, fun hmem hbit hother =>
      requesting_runs h₁ hu' hn (.inl hcontrol) hmem hbit hl hother hg'⟩
    have hstep : ∀ l₁ e l₂ t u v, l' = l₁ ++ (i, .advance e) :: l₂ →
        Transition.runs step g₁ l₁ = some t → (t.readers i).control.blockNumber = some (n : ℤ) →
        step t (i, .advance e) = some u → (u.readers i).control = .returned v →
        (∃ b, v = .ok b ∧ Gives i n g₁ l' b) ∨ ∃ x, v = .error x ∧ x.IsIOException := by
      intro l₁ e l₂ t u v heq hrun hc hstep hv
      have hw : Working lastLBA s B t := h₁.runs (by rw [heq] at hu'; exact hu'.left) hrun
      have hread : ∀ k < blocks ((lastLBA + 1) * s) B,
          ∃ c, (t.readers i).geometry.read10 k none = .ok c := by
        intro k hk
        rw [hw.geometry i]
        obtain ⟨c, hc⟩ := ReadGeometry.exact_of_lt hd hk ((hd.lt_blocks_iff.1 hk).trans_lt hlba)
        exact ⟨c, hc.1⟩
      rcases (hw.inFlight i).ends_or hd.blockSize_pos hd.blockSize_lt (by rw [hw.geometry i]; rfl)
        hread hw.store (countBlocks_eq hd.blockSize_pos hd.blockSize_lt hd'.blocks_lt) hn hc
        (hw.ends hstep hv) with ⟨b, hb, hlookup, hvalue⟩ | hio
      · exact .inl ⟨b, hb, l₁, e, l₂, t, heq, hrun, hlookup, hvalue⟩
      · exact .inr hio
    rcases call_induction hstep (by rw [hcontrol]; rfl) hl hg' with hc | ⟨v', hv', hQ⟩
    · rw [hv] at hc
      cases hc
    · rw [hv] at hv'
      cases hv'
      exact hQ

/-- The disk of one byte. -/
theorem validDisk_byte : ReadGeometry.ValidDisk 0 1 1 := by constructor <;> decide

theorem opened_byteReaders (ι : Type*) : Opened 0 1 1 (byteReaders ι) where
  readers _ := ⟨byteDisk, rfl, rfl⟩
  session := ⟨"", ⟨.zeros 0, .zeros 0⟩, Session.start_eq_some.2 ⟨by constructor <;> decide, rfl⟩⟩

/-- The request for the block fails, and with it the call. -/
def failsOnce : List (Unit × Action) :=
  (requestBlock ++ [.finish 0 (.failed ""), go]).map fun a => ((), a)

/-- The next call, up to its end. -/
def readsByte : List (Unit × Action) :=
  (List.replicate 6 go ++ .finish 0 (.good (.ofFn 1 fun _ => 7)) :: List.replicate 6 go).map
    fun a => ((), a)

/-- The next call makes a new request, and returns the block that it brings. -/
theorem inFlight_and_outcomes_again : ∃ g g₁ g' b,
    Transition.runs step (byteReaders Unit) failsOnce = some g ∧
    step g ((), .call 0) = some g₁ ∧ Transition.runs step g₁ readsByte = some g' ∧
    Sound 1 (g.readers ()) ∧ (g'.readers ()).control = .returned (.ok b) ∧
    Gives () 0 g₁ readsByte b ∧ 1 ≤ Transition.cost step (issues () 0) g₁ readsByte := by
  have hrun : ((Transition.runs step (byteReaders Unit) failsOnce).bind fun g =>
      (step g ((), .call 0)).bind fun g₁ => (Transition.runs step g₁ readsByte).map fun g' =>
        (decide (0 ∉ (g₁.readers ()).requestsInFlight ∧ 0 ∉ g₁.session.store.bitmap),
          (g.readers ()).result.map Except.isOk, (g'.readers ()).result.map Except.isOk)) =
      some (true, some false, some true) := by decide +kernel
  obtain ⟨g, hg, hrun⟩ := Option.bind_eq_some_iff.1 hrun
  obtain ⟨g₁, hcall, hrun⟩ := Option.bind_eq_some_iff.1 hrun
  obtain ⟨g', hg', hval⟩ := Option.map_eq_some_iff.1 hrun
  simp only [Prod.mk.injEq, decide_eq_true_iff] at hval
  obtain ⟨⟨hmem, hbit⟩, -, hend⟩ := hval
  obtain ⟨v, hv, hok⟩ := Option.map_eq_some_iff.1 hend
  obtain ⟨b, rfl⟩ := isOk_iff.1 hok
  have hcontrol := result_eq_some hv
  have hworking := (opened_byteReaders Unit).working ⟨validDisk_byte, by decide⟩
  have hu := hworking.noWrap (l := failsOnce) (by decide)
  have hworking₁ := (hworking.runs hu hg).step (show NoWrap g ((), .call 0) from trivial) hcall
  obtain ⟨hsound, -, hcalls⟩ := inFlight_and_outcomes 0 1 1 validDisk_byte (by decide) _ g failsOnce
    (opened_byteReaders Unit) hu hg
  have horder := hcalls () 0 g₁ g' readsByte (by decide) hcall (by intro k; simp [readsByte, go])
    (hworking₁.noWrap (by decide)) hg'
  refine ⟨g, g₁, g', b, hg, hcall, hg', hsound (), hcontrol, ?_, ?_⟩
  · rcases horder.result _ hcontrol with ⟨b', hb, hgives⟩ | ⟨x, hx, -⟩
    · cases hb
      exact hgives
    · cases hx
  · rcases horder.fresh hmem hbit (fun j hj => absurd rfl hj) with hreq | hissued | ⟨x, hx⟩
    · rw [hcontrol] at hreq
      rcases hreq with hreq | hreq | hreq <;> cases hreq
    · exact hissued
    · rw [hcontrol] at hx
      cases hx

/-! ## The block whose read-ahead overflows -/

/-- The files of an evidence store that has the seven blocks after the block `2 ^ 31 - 16`. -/
def sevenBlocks : Files :=
  ⟨.zeros 0, .ofFn (2 ^ 28 - 1) fun i => if i = 2 ^ 28 - 2 then 254 else 0⟩

/-- The length of a disk of `2 ^ 31 - 8` sectors of 65536 bytes. -/
def wrappedLength : ℕ := (2 ^ 31 - 9 + 1) * 65536

/-- The evidence store of the disk, opened on these files. -/
def wrappedSession : Session where
  store :=
    { imageLength := wrappedLength
      blockSize := 65536
      blockCount := 2 ^ 31 - 8
      bitmap := Finset.Icc (2 ^ 31 - 15) (2 ^ 31 - 9)
      cachedBlocks := ∅
      evidenceFilePath := ""
      refCount := 0
      evidenceOpen := true
      bitmapOpen := true }
  files := extend wrappedLength 65536 sevenBlocks

theorem mem_sevenBlocks (n : ℕ) : (n < 8 * bitmapBytes wrappedLength 65536 ∧
    BitSet.bit sevenBlocks.bitmap n = true) ↔ n ∈ Finset.Icc (2 ^ 31 - 15) (2 ^ 31 - 9) := by
  have hbytes : bitmapBytes wrappedLength 65536 = 2 ^ 28 - 1 := by decide
  have hbits : ∀ j < 8, (254 : Byte).getLsbD j = true ↔ j ≠ 0 := by decide
  have hget : BitSet.bit sevenBlocks.bitmap n = true ↔ n / 8 = 2 ^ 28 - 2 ∧ n % 8 ≠ 0 := by
    change (if n / 8 < 2 ^ 28 - 1 then if n / 8 = 2 ^ 28 - 2 then (254 : Byte) else 0
      else 0).getLsbD (n % 8) = true ↔ _
    rw [← hbits _ (Nat.mod_lt n (by decide))]
    split_ifs with h₁ h₂
    · exact (and_iff_right h₂).symm
    · exact iff_of_false (by simp) fun h => h₂ h.1
    · exact iff_of_false (by simp) fun h => h₁ (by omega)
  rw [hbytes, hget, Finset.mem_Icc]
  omega

theorem start_wrapped : Session.start "" wrappedLength 65536 sevenBlocks = some wrappedSession := by
  refine Session.start_eq_some.2 ⟨by constructor <;> decide, ?_⟩
  have hbitmap : (opened "" wrappedLength 65536 (extend wrappedLength 65536 sevenBlocks)).bitmap =
      Finset.Icc (2 ^ 31 - 15) (2 ^ 31 - 9) := by
    ext n
    rw [← mem_sevenBlocks, ← bit_extend (L := wrappedLength) (B := 65536)]
    exact mem_bitmap_opened
  rw [wrappedSession, ← hbitmap]
  rfl

/-- A reader of the disk, with this store. -/
def wrappedReader : Readers Unit :=
  ⟨fun _ => .new (.ofDisk (2 ^ 31 - 9) 65536 65536), wrappedSession⟩

/-- The reader requests the block `2 ^ 31 - 16`, and goes on to read ahead. -/
def wrappedRun : List (Unit × Action) :=
  ((), .call (2 ^ 31 - 16)) :: List.replicate 25 ((), .advance ⟨2 ^ 31 - 16, .ok, none⟩)

/-- The reader requests a block that the disk does not have. -/
theorem not_sound_wrapped : ∃ g, Opened (2 ^ 31 - 9) 65536 65536 wrappedReader ∧
    Transition.runs step wrappedReader wrappedRun = some g ∧
    ¬Sound (blocks ((2 ^ 31 - 9 + 1) * 65536) 65536) (g.readers ()) := by
  have hrun : (Transition.runs step wrappedReader wrappedRun).map
      (fun g => decide (2 ^ 31 - 8 ∈ (g.readers ()).requestsInFlight)) = some true := by
    decide +kernel
  obtain ⟨g, hg, hmem⟩ := Option.map_eq_some_iff.1 hrun
  refine ⟨g, ⟨fun _ => ⟨_, ?_, rfl⟩, "", sevenBlocks, start_wrapped⟩, hg, fun h => ?_⟩
  · exact ReadGeometry.create_ok ⟨by constructor <;> decide, by decide⟩
  · obtain ⟨q, hq⟩ := Finmap.mem_iff.1 (of_decide_eq_true hmem)
    exact absurd (h.request _ q hq).1 (by decide)

end Readers

end Raqet
