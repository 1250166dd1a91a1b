import Raqet.IScsi.Outcomes

/-!
# Reading ahead

A call requests blocks that it does not need, and completes whatever requests are
finished, for whatever blocks. If one of these failed, the call fails, although its own
block can be read; this is the only way in which it can (`returns_iff`).

A call does end: it waits in two loops, and each of their turns that finds the answer it
waits for brings it closer to the end (`remaining_advance`).
-/

namespace Raqet

open Java EvidenceStore

namespace IScsiBlockReader

variable {r r' : IScsiBlockReader} {s s' : Session} {a : Action} {e : Env} {N M n k : ℕ} {x : Exn}
  {q : IScsiRead10Callback} {control : Control} {v : Except Exn Block}

/-! ## The steps of a call -/

/-- The request for the block `k` is in flight, and finished. -/
def finished (r : IScsiBlockReader) (k : ℕ) : Bool :=
  (r.requestsInFlight.lookup k).any fun q => q.finished

/-- The thread begins a turn of one of the loops that wait, and what it waits for has not
    come. -/
def WaitsInVain (r : IScsiBlockReader) : Prop :=
  match r.control with
  | .wait n => n ∈ r.requestsInFlight ∧ r.finished n = false
  | .waitForFreeSlot _ =>
    r.hasMaxRequestsInFlight = true ∧ ∀ k ∈ r.requestsInFlight.keys, r.finished k = false
  | _ => False

instance (r : IScsiBlockReader) : Decidable r.WaitsInVain := by
  unfold WaitsInVain
  cases r.control <;> infer_instance

/-- What is left from the head of the loop that waits for a block in flight. -/
def waitBudget : ℕ := maxRequestsInFlight + 4

/-- What is left once the number of blocks to read ahead is known. -/
def aheadBudget : ℕ := maxRequestsInFlight + 2 * maxReadAheadBlocks + 3 + waitBudget

/-- What is left once there is a free slot. -/
def requestBudget : ℕ := (maxReadAheadBlocks + 1) / 2 + 2 + aheadBudget

/-- What is left from the head of the loop that waits for a free slot. -/
def slotBudget : ℕ := maxRequestsInFlight + 3 + requestBudget

/-- A bound on the number of steps until the call ends, from this point, if the thread does
    not wait in vain. -/
def remainingAt (r : IScsiBlockReader) : Control → ℕ
  | .idle => 0
  | .retrieveBlock _ => 2 + slotBudget
  | .hasBlockBeenRequested _ => 1 + slotBudget
  | .waitForFreeSlot _ => if r.hasMaxRequestsInFlight then slotBudget else requestBudget
  | .waitForFreeSlotSync _ => 1 + if r.hasMaxRequestsInFlight then slotBudget else requestBudget
  | .completeRequests (.waitForFreeSlot _) keys => keys.card + 2 +
    if r.hasMaxRequestsInFlight ∧ ∀ k ∈ keys, r.finished k = false then slotBudget
    else requestBudget
  | .requestBlock _ => (maxReadAheadBlocks + 1) / 2 + 1 + aheadBudget
  | .determineReadAheadBlocks _ i => (maxReadAheadBlocks + 1) / 2 - i + aheadBudget
  | .completeRequests (.requestBlocksForReadAhead n last) keys =>
    keys.card + 2 + 2 * (last + 1 - n).toNat + waitBudget
  | .requestBlocksForReadAhead _ i last => 1 + 2 * (last + 1 - i).toNat + waitBudget
  | .requestBlockForReadAhead _ i last => 2 * (last + 1 - i).toNat + waitBudget
  | .completeRequests (.retrieveBlock n) keys => keys.card + 1 +
    if n ∈ r.requestsInFlight ∧ (n ∈ keys → r.finished n = false) then waitBudget else 2
  | .wait n => if n ∈ r.requestsInFlight then waitBudget else 2
  | .lookup _ => 1
  | .returned _ => 0

/-- The same, from where the thread is. -/
def remaining (r : IScsiBlockReader) : ℕ := r.remainingAt r.control

theorem finished_eq (hq : r.requestsInFlight.lookup k = some q) : r.finished k = q.finished := by
  rw [finished, hq]
  rfl

/-- Other requests are finished when they were. -/
theorem finished_forget (h : n ≠ k) : (r.forget k).finished n = r.finished n := by
  rw [finished, forget]
  dsimp only
  rw [Finmap.lookup_erase_ne h]
  rfl

theorem mem_forget (h : n ≠ k) : n ∈ (r.forget k).requestsInFlight ↔ n ∈ r.requestsInFlight :=
  Finmap.mem_erase.trans (and_iff_right h)

/-- There is a free slot without one of the requests. -/
theorem hasMaxRequestsInFlight_forget (hcard : r.requestsInFlight.keys.card ≤ maxRequestsInFlight)
    (hk : k ∈ r.requestsInFlight.keys) : (r.forget k).hasMaxRequestsInFlight = false := by
  refine Bool.eq_false_iff.2 fun h => ?_
  rw [hasMaxRequestsInFlight_iff, keys_forget, Finset.card_erase_of_mem hk] at h
  have := Finset.card_pos.2 ⟨k, hk⟩
  omega

/-- A request that is not finished is passed by. -/
theorem remaining_pass {caller : Caller} {rest : Finset ℕ} (hk : k ∈ rest)
    (hf : r.finished k = false) :
    1 + r.remainingAt (.completeRequests caller (rest.erase k)) ≤
      r.remainingAt (.completeRequests caller rest) := by
  have hcard := Finset.card_erase_add_one hk
  cases caller with
  | waitForFreeSlot n =>
    -- whether a request is finished among the rest is as before
    have hall : (∀ j ∈ rest.erase k, r.finished j = false) ↔ ∀ j ∈ rest, r.finished j = false := by
      refine ⟨fun h j hj => ?_, fun h j hj => h j (Finset.mem_of_mem_erase hj)⟩
      by_cases hjk : j = k
      · rwa [hjk]
      · exact h j (Finset.mem_erase.2 ⟨hjk, hj⟩)
    simp only [remainingAt, hall]
    omega
  | requestBlocksForReadAhead n last =>
    simp only [remainingAt]
    omega
  | retrieveBlock n =>
    have hall : (n ∈ rest.erase k → r.finished n = false) ↔ (n ∈ rest → r.finished n = false) := by
      refine ⟨fun h hn => ?_, fun h hn => h (Finset.mem_of_mem_erase hn)⟩
      by_cases hnk : n = k
      · rwa [hnk]
      · exact h (Finset.mem_erase.2 ⟨hnk, hn⟩)
    simp only [remainingAt, hall]
    omega

/-- A request that is finished is completed, and leaves a free slot. -/
theorem remaining_complete (caller : Caller) {rest : Finset ℕ}
    (hcard : r.requestsInFlight.keys.card ≤ maxRequestsInFlight)
    (hsub : rest ⊆ r.requestsInFlight.keys)
    (hk : k ∈ rest) (hf : r.finished k = true) :
    1 + (r.forget k).remainingAt (.completeRequests caller (rest.erase k)) ≤
      r.remainingAt (.completeRequests caller rest) := by
  have hrest := Finset.card_erase_add_one hk
  cases caller with
  | waitForFreeSlot n =>
    -- a request is finished, so waiting for a slot was not counted
    have hnot : ¬∀ j ∈ rest, r.finished j = false := fun h => by
      rw [h k hk] at hf
      cases hf
    simp only [remainingAt, hasMaxRequestsInFlight_forget hcard (hsub hk), hnot, and_false,
      Bool.false_eq_true, false_and, if_false]
    omega
  | requestBlocksForReadAhead n last =>
    simp only [remainingAt]
    omega
  | retrieveBlock n =>
    by_cases hn : n = k
    · subst hn
      have hnot : ¬(n ∈ rest → r.finished n = false) := fun h => by
        rw [h hk] at hf
        cases hf
      simp only [remainingAt, notMem_forget, hnot, and_false, false_and, if_false]
      omega
    · simp only [remainingAt, finished_forget hn, mem_forget hn, Finset.mem_erase, ne_eq, hn,
        not_false_eq_true, true_and]
      omega

/-- What is left after a request, if it does not depend on the requests in flight. -/
theorem remaining_requestBlock {m : ℕ} (control : Control)
    (h : ∀ r' : IScsiBlockReader, r'.remainingAt control ≤ m) :
    (r.requestBlock n e control).remaining ≤ m := by
  rw [requestBlock]
  cases r.geometry.read10 n e.error with
  | error x => exact Nat.zero_le m
  | ok command => exact h _

/-- Once all requests were looked at, the caller goes on. -/
theorem remaining_returnTo (caller : Caller) :
    1 + (r.returnTo caller).remaining ≤ r.remainingAt (.completeRequests caller ∅) := by
  cases caller with
  | waitForFreeSlot n =>
    change 1 + (1 + if r.hasMaxRequestsInFlight then slotBudget else requestBudget) ≤
      (∅ : Finset ℕ).card + 2 + if r.hasMaxRequestsInFlight ∧
        ∀ k ∈ (∅ : Finset ℕ), r.finished k = false then slotBudget else requestBudget
    simp only [Finset.notMem_empty, false_implies, implies_true, and_true, Finset.card_empty]
    omega
  | requestBlocksForReadAhead n last =>
    change 1 + (1 + 2 * (last + 1 - n).toNat + waitBudget) ≤
      (∅ : Finset ℕ).card + 2 + 2 * (last + 1 - n).toNat + waitBudget
    rw [Finset.card_empty]
    omega
  | retrieveBlock n =>
    change 1 + (if n ∈ r.requestsInFlight then waitBudget else 2) ≤ (∅ : Finset ℕ).card + 1 +
      if n ∈ r.requestsInFlight ∧ (n ∈ (∅ : Finset ℕ) → r.finished n = false) then waitBudget
      else 2
    simp only [Finset.notMem_empty, false_implies, and_true, Finset.card_empty]
    omega

/-- A turn of the loop that waits for a free slot finds a request that is finished, unless it
    is in vain. -/
theorem remaining_noSlot (hc : r.control = .waitForFreeSlot n)
    (hcard : r.requestsInFlight.keys.card ≤ maxRequestsInFlight)
    (hmax : r.hasMaxRequestsInFlight = true) :
    1 + (r.callCompleteRequests (.waitForFreeSlot n)).remaining ≤
      r.remainingAt (.waitForFreeSlot n) +
        if r.WaitsInVain then maxRequestsInFlight + 3 else 0 := by
  change 1 + (r.requestsInFlight.keys.card + 2 + if r.hasMaxRequestsInFlight ∧
    ∀ k ∈ r.requestsInFlight.keys, r.finished k = false then slotBudget else requestBudget) ≤
      (if r.hasMaxRequestsInFlight then slotBudget else requestBudget) + _
  have hslot : slotBudget = maxRequestsInFlight + 3 + requestBudget := rfl
  simp only [WaitsInVain, hc, hmax, true_and, if_true]
  split_ifs <;> omega

/-- A turn of the loop that waits for a block finds that its request is finished, unless it
    is in vain. -/
theorem remaining_waitSynced (hc : r.control = .wait n)
    (hcard : r.requestsInFlight.keys.card ≤ maxRequestsInFlight)
    (hmem : n ∈ r.requestsInFlight) :
    1 + (r.callCompleteRequests (.retrieveBlock n)).remaining ≤
      r.remainingAt (.wait n) + if r.WaitsInVain then maxRequestsInFlight + 3 else 0 := by
  change 1 + (r.requestsInFlight.keys.card + 1 + if n ∈ r.requestsInFlight ∧
    (n ∈ r.requestsInFlight.keys → r.finished n = false) then waitBudget else 2) ≤
      (if n ∈ r.requestsInFlight then waitBudget else 2) + _
  have hwait : waitBudget = maxRequestsInFlight + 4 := rfl
  simp only [WaitsInVain, hc, hmem, Finmap.mem_keys, true_and, if_true, forall_const]
  split_ifs <;> omega

/-- A step of the thread brings the end of the call closer, unless it waits in vain. -/
theorem InFlight.remaining_advance (h : InFlight N M r s) (hr : Room N M) (hu : r.Unwrapped)
    (hs : r.advance s e = some (r', s')) :
    1 + r'.remaining ≤ r.remaining + if r.WaitsInVain then maxRequestsInFlight + 3 else 0 := by
  have hcourse := h.course
  have hcourse' := (h.advance hr hu hs).course
  have hwait : waitBudget = maxRequestsInFlight + 4 := rfl
  have hstep := advances hs
  change _ ≤ r.remainingAt r.control + _
  -- only the steps that call `completeRequests()` to wait may be in vain
  have hclose {c : Control} (hle : 1 + r'.remaining ≤ r.remainingAt c) :
      1 + r'.remaining ≤
        r.remainingAt c + if r.WaitsInVain then maxRequestsInFlight + 3 else 0 :=
    hle.trans (Nat.le_add_right _ _)
  generalize hc : r.control = c at hcourse hstep ⊢
  cases hstep with
  | badNumber =>
    refine hclose ?_
    change 1 + 0 ≤ 2 + slotBudget
    omega
  | isStored =>
    refine hclose ?_
    change 1 + 1 ≤ 2 + slotBudget
    omega
  | notStored =>
    refine hclose ?_
    change 1 + (1 + slotBudget) ≤ 2 + slotBudget
    omega
  | isRequested =>
    refine hclose ?_
    change 1 + ((maxReadAheadBlocks + 1) / 2 - 0 + aheadBudget) ≤ 1 + slotBudget
    simp only [slotBudget, requestBudget]
    omega
  | notRequested =>
    refine hclose ?_
    change 1 + (if r.hasMaxRequestsInFlight then slotBudget else requestBudget) ≤ 1 + slotBudget
    simp only [slotBudget]
    split_ifs <;> omega
  | noSlot hmax => exact remaining_noSlot hc h.card hmax
  | freeSlot hmax =>
    refine hclose ?_
    change 1 + ((maxReadAheadBlocks + 1) / 2 + 1 + aheadBudget) ≤
      if r.hasMaxRequestsInFlight then slotBudget else requestBudget
    rw [hmax, if_neg Bool.false_ne_true]
    simp only [requestBudget]
    omega
  | slotSyncFails => exact hclose (Nat.le_add_right 1 _)
  | slotSynced => exact hclose le_rfl
  | @allCompleted caller => exact hclose (remaining_returnTo caller)
  | @completes caller rest hkey =>
    refine hclose ?_
    obtain ⟨q, hq⟩ := Finmap.mem_iff.1 (Finmap.mem_keys.1 (hcourse.1 hkey))
    have hfin := finished_eq hq
    have hcomplete := fun hf => remaining_complete caller h.card hcourse.1 hkey hf
    rcases completeRequest_cases hq s e.io (.completeRequests caller (rest.erase e.key)) with
      ⟨hf, he⟩ | ⟨hf, x, -, he⟩ | ⟨hf, -, x, -, -, he⟩ | ⟨hf, -, -, -, he⟩ <;> rw [he]
    · exact remaining_pass hkey (hfin.trans hf)
    · exact (Nat.le_add_right 1 _).trans (hcomplete (hfin.trans hf))
    · exact (Nat.le_add_right 1 _).trans (hcomplete (hfin.trans hf))
    · exact hcomplete (hfin.trans hf)
  | @requests n =>
    refine hclose ?_
    have hleft := remaining_requestBlock (r := r) (n := n) (e := e)
      (m := (maxReadAheadBlocks + 1) / 2 + aheadBudget) (.determineReadAheadBlocks n 0)
      fun _ => le_rfl
    change 1 + _ ≤ (maxReadAheadBlocks + 1) / 2 + 1 + aheadBudget
    omega
  | overflows _ hneg =>
    obtain ⟨-, -, -, hle⟩ := hcourse
    rw [hr.toInt_eq hle] at hneg
    omega
  | @seesRequested n i hi =>
    refine hclose ?_
    change 1 + ((maxReadAheadBlocks + 1) / 2 - (i + 1) + aheadBudget) ≤
      (maxReadAheadBlocks + 1) / 2 - i + aheadBudget
    omega
  | @seesNew n i | @seesAll n i =>
    refine hclose ?_
    have hcard := h.card
    obtain ⟨-, -, -, -, hlast⟩ := hcourse'
    change 1 + (r.requestsInFlight.keys.card + 2 + 2 * (_ + 1 - (n : ℤ)).toNat + waitBudget) ≤ _
    simp only [remainingAt, aheadBudget]
    omega
  | @endsAhead n i last =>
    refine hclose ?_
    change 1 + (if n ∈ r.requestsInFlight then waitBudget else 2) ≤
      1 + 2 * (last + 1 - i).toNat + waitBudget
    split_ifs <;> omega
  | @negativeAhead n i last =>
    refine hclose ?_
    change 1 + 0 ≤ 1 + 2 * (last + 1 - i).toNat + waitBudget
    omega
  | @skipsAhead n i last hle =>
    refine hclose ?_
    change 1 + (1 + 2 * (last + 1 - toInt (i + 1)).toNat + waitBudget) ≤
      1 + 2 * (last + 1 - i).toNat + waitBudget
    rw [hr.toInt_succ hcourse.2 hle hcourse.1.2.2.1]
    omega
  | @goesAhead n i last hle =>
    refine hclose ?_
    change 1 + (2 * (last + 1 - i).toNat + waitBudget) ≤
      1 + 2 * (last + 1 - i).toNat + waitBudget
    omega
  | @requestsAhead n i last =>
    refine hclose ?_
    obtain ⟨⟨-, -, hlast, -⟩, hle, hi, -⟩ := hcourse
    have hleft := remaining_requestBlock (r := r) (n := i.toNat) (e := e)
      (m := 1 + 2 * (last + 1 - toInt (i + 1)).toNat + waitBudget)
      (.requestBlocksForReadAhead n (toInt (i + 1)) last) fun _ => le_rfl
    change 1 + _ ≤ 2 * (last + 1 - i).toNat + waitBudget
    rw [hr.toInt_succ hle hi hlast] at hleft ⊢
    omega
  | @waitSyncFails n _ hmem =>
    refine hclose ?_
    change 1 + 0 ≤ if n ∈ r.requestsInFlight then waitBudget else 2
    rw [if_pos hmem]
    omega
  | waitSynced hmem => exact remaining_waitSynced hc h.card hmem
  | @arrived n hmem =>
    refine hclose ?_
    change 1 + 1 ≤ if n ∈ r.requestsInFlight then waitBudget else 2
    rw [if_neg hmem]
  | looksUp => exact hclose le_rfl

/-- The answer to a request brings the end no further away. -/
theorem remainingAt_mono (hkeys : r'.requestsInFlight.keys = r.requestsInFlight.keys)
    (hfin : ∀ k, r'.finished k = false → r.finished k = false) (control : Control) :
    r'.remainingAt control ≤ r.remainingAt control := by
  have hslot : requestBudget ≤ slotBudget := Nat.le_add_left _ _
  have hwait : 2 ≤ waitBudget := by decide
  have hmax : r'.hasMaxRequestsInFlight = r.hasMaxRequestsInFlight := by
    rw [hasMaxRequestsInFlight, hasMaxRequestsInFlight, hkeys]
  have hmem : ∀ n, n ∈ r'.requestsInFlight ↔ n ∈ r.requestsInFlight := fun n => by
    rw [← Finmap.mem_keys, hkeys, Finmap.mem_keys]
  -- a wait costs less if more requests are finished
  have hif : ∀ {p p' : Prop} [Decidable p] [Decidable p'] {b c : ℕ}, c ≤ b → (p' → p) →
      (if p' then b else c) ≤ if p then b else c := by
    intro p p' _ _ b c hle himp
    split_ifs with h₁ h₂
    exacts [le_rfl, absurd (himp h₁) h₂, hle, le_rfl]
  cases control with
  | completeRequests caller keys =>
    cases caller with
    | waitForFreeSlot n =>
      simp only [remainingAt, hmax]
      exact Nat.add_le_add_left (hif hslot (And.imp_right fun h k hk => hfin k (h k hk))) _
    | requestBlocksForReadAhead n last => exact le_rfl
    | retrieveBlock n =>
      simp only [remainingAt, hmem]
      exact Nat.add_le_add_left (hif hwait (And.imp_right fun h hn => hfin n (h hn))) _
  | waitForFreeSlot n => simp only [remainingAt, hmax, le_rfl]
  | waitForFreeSlotSync n => simp only [remainingAt, hmax, le_rfl]
  | wait n => simp only [remainingAt, hmem, le_rfl]
  | _ => exact le_rfl

/-- A step of the reader that is not one of its thread brings the end no further away. -/
theorem remaining_finish {outcome : Read10Outcome}
    (hs : r.step s (.finish n outcome) = some (r', s')) :
    r'.remaining ≤ r.remaining := by
  rcases effect_of_step hs with _ | _ | _ | _ | _ | _ | ⟨_, q, _, hq, _, _⟩
  refine remainingAt_mono (keys_insert_of_mem hq) (fun k hk => ?_) r.control
  by_cases hkn : k = n
  · subst hkn
    rw [finished_eq (Finmap.lookup_insert _)] at hk
    cases outcome <;> cases hk
  · rwa [finished, Finmap.lookup_insert_of_ne _ hkn] at hk

/-! ## What ends a call -/

/-- The block is in the evidence file if it counts as stored. -/
def Held (L B n : ℕ) (s : Session) : Prop :=
  n ∈ s.store.bitmap → n * B + Session.storedLength L B n ≤ s.files.evidence.length

/-- It still is after a step of a reader. -/
theorem Effect.held {L B : ℕ} (heff : Effect r s a r' s') (h : InFlight (blocks L B) M r s)
    (hstore : Session.Geometry L B s.store) (hB : 0 < B) (hB' : B < 2 ^ 31)
    (hsize : r.geometry.readBlockSize = B) (hn : n < blocks L B) (hheld : Held L B n s) :
    Held L B n s' := by
  cases heff with
  | lookup env m _ =>
    intro hmem
    rw [files_retrieveBlock]
    refine hheld ?_
    rcases retrieveBlock_cases s.store env.io m s.files with ⟨x, he⟩ | ⟨b, -, -, he⟩ |
      ⟨k, -, -, -, -, he⟩ <;> rw [he] at hmem <;> exact hmem
  | store env q control _ hq _ _ _ =>
    have hi := h.request _ q hq
    have hlen : q.buffer.length = B := by rw [hi.length, hsize, Int.toNat_natCast]
    rcases hstore.storeBlock_cases hB hB' hi.lt hlen env.io s.files with ⟨x, he⟩ | ⟨x, k, -, he⟩ |
      he <;> rw [he]
    · exact hheld
    · exact fun hmem => (hheld hmem).trans (Java.Buffer.length_le_length_write ..)
    -- the block itself is stored, or another one, which makes the file no shorter
    · intro hmem
      rcases Finset.mem_insert.1 hmem with rfl | hmem
      · change _ ≤ (s.files.evidence.write _ _ _).length
        rw [Java.Buffer.length_write _ _ _ (Session.storedLength_pos hB)]
        exact le_max_right _ _
      · exact (hheld hmem).trans (Java.Buffer.length_le_length_write ..)
  | _ => exact hheld

/-- In the step, no file operation fails, nor does waiting for answers. -/
def Smooth (r : IScsiBlockReader) : Action → Prop
  | .advance e => e.io = .ok ∧ (r.control.requests = none → e.error = none)
  | _ => True

instance (r : IScsiBlockReader) (a : Action) : Decidable (r.Smooth a) := by
  cases a <;> unfold Smooth <;> infer_instance

theorem failed_of_completion {caller : Caller} {keys : Finset ℕ}
    (hc : r.control = .completeRequests caller keys) (hk : e.key ∈ keys)
    (hq : r.requestsInFlight.lookup e.key = some q) (hf : q.finished = true)
    (hx : q.exception ≠ none) : r.failed s (.advance e) = some e.key := by
  rw [failed, hc]
  dsimp only
  rw [if_pos hk, hq, Option.bind_some, if_pos ⟨hf, .inl hx⟩]

theorem failed_of_send (hc : r.control.requests = some n)
    (hread : r.geometry.read10 n e.error = .error x) : r.failed s (.advance e) = some n := by
  have hfilter : (r.control.requests.filter fun n : ℕ => !(r.geometry.read10 n e.error).isOk) =
      some n := Option.filter_eq_some_iff.2 ⟨hc, by rw [hread]; rfl⟩
  rw [failed]
  cases hctrl : r.control with
  | completeRequests caller keys =>
    rw [hctrl] at hc
    cases hc
  | _ =>
    rw [hctrl] at hfilter
    exact hfilter

/-- Nothing fails where nothing is requested or completed. -/
theorem failed_eq_none (hc : r.control.requests = none)
    (hc' : ∀ caller keys, r.control ≠ .completeRequests caller keys) : r.failed s a = none := by
  refine Option.eq_none_iff_forall_ne_some.2 fun k hk => ?_
  obtain ⟨e, -, ⟨caller, keys, -, hctrl, -⟩ | ⟨hreq, -⟩⟩ := failed_eq_some hk
  · exact hc' caller keys hctrl
  · rw [hc] at hreq
    cases hreq

/-- If no file operation fails, nor waiting for answers, what ends a call for a block of the
    disk is the block or a request that failed. -/
theorem InFlight.ends_smooth {L B : ℕ} (h : InFlight (blocks L B) M r s)
    (hB : 0 < B) (hB' : B < 2 ^ 31) (hsize : r.geometry.readBlockSize = B)
    (hstore : Session.Geometry L B s.store) (hcount : countBlocks L B = blocks L B)
    (hn : n < blocks L B) (hheld : Held L B n s) (hc : r.control.blockNumber = some (n : ℤ))
    (hsmooth : r.Smooth (.advance e)) (he : Ends r s e v) :
    (∃ b, v = .ok b ∧ r.control = .lookup n ∧
      (s.store.retrieveBlock e.io n s.files).value = .ok b) ∨
    ∃ x k, v = .error x ∧ r.failed s (.advance e) = some k := by
  obtain ⟨hio, hsync⟩ := hsmooth
  have hcourse := h.course
  cases he with
  | argument blockNumber x control check =>
    rw [control] at hc
    obtain rfl : blockNumber = n := Option.some.inj hc
    rw [h.totalBlockCount, argIndex_eq_ok.2 ⟨⟨by omega, by omega⟩, rfl⟩] at check
    cases check
  | sync message error control =>
    rw [hsync control] at error
    cases error
  | completion caller keys q x control mem lookup finished exception =>
    exact .inr ⟨_, _, rfl, failed_of_completion control mem lookup finished
      (by rw [exception]; exact Option.some_ne_none x)⟩
  | store caller keys q x control mem lookup finished exception value =>
    have hq := h.request _ q lookup
    have hlen : q.buffer.length = B := by rw [hq.length, hsize, Int.toNat_natCast]
    rw [hio, hstore.storeBlock_ok hB hB' hq.lt hlen] at value
    cases value
  | send k x control read10 => exact .inr ⟨_, _, rfl, failed_of_send control read10⟩
  | lookup m control =>
    rw [control] at hc hcourse
    obtain rfl : m = n := by exact_mod_cast Option.some.inj hc
    have hlt : (m : ℤ) < s.store.blockCount := by
      rw [hstore.blockCount, hcount]
      exact_mod_cast hn
    -- the block counts as stored, so it is in the file
    have hvalue := value_retrieveBlock (f := s.files) hlt hcourse.2 hstore.evidenceOpen
      (by rw [hstore.blockSize, hstore.transferLength_eq hB hB' hn])
      (by rw [hstore.position_eq]; exact hheld hcourse.2)
    rw [← hio] at hvalue
    exact .inl ⟨_, hvalue, control, hvalue⟩

/-- A call that has not ended can go on. -/
theorem advance_isSome (hidle : r.Idle = false) :
    ∃ key, ∀ io error, (r.advance s ⟨key, io, error⟩).isSome = true := by
  cases hc : r.control with
  | idle =>
    rw [Idle, hc] at hidle
    cases hidle
  | returned result =>
    rw [Idle, hc] at hidle
    cases hidle
  | completeRequests caller keys =>
    rcases keys.eq_empty_or_nonempty with rfl | ⟨key, hkey⟩
    · refine ⟨0, fun io error => ?_⟩
      rw [IScsiBlockReader.advance, hc]
      rfl
    -- any request of the rest can be looked at next
    · refine ⟨key, fun io error => ?_⟩
      rw [IScsiBlockReader.advance, hc]
      dsimp only
      rw [if_neg (Finset.ne_empty_of_mem hkey), if_pos hkey]
      rfl
  | retrieveBlock blockNumber =>
    refine ⟨0, fun io error => ?_⟩
    rw [IScsiBlockReader.advance, hc]
    dsimp only
    cases argIndex "blockNumber" blockNumber r.geometry.totalBlockCount with
    | error x => rfl
    | ok m =>
      dsimp only
      split_ifs <;> rfl
  | waitForFreeSlotSync n =>
    refine ⟨0, fun io error => ?_⟩
    rw [IScsiBlockReader.advance, hc]
    dsimp only
    split_ifs
    · cases error <;> rfl
    · rfl
  | wait n =>
    refine ⟨0, fun io error => ?_⟩
    rw [IScsiBlockReader.advance, hc]
    dsimp only
    split_ifs
    · cases error <;> rfl
    · rfl
  | _ =>
    refine ⟨0, fun io error => ?_⟩
    rw [IScsiBlockReader.advance, hc]
    dsimp only
    try split_ifs
    all_goals rfl

end IScsiBlockReader

open IScsiBlockReader

namespace Readers

variable {ι : Type*} [DecidableEq ι] {lastLBA s B n : ℕ} {g g' : Readers ι} {i : ι} {a : ι × Action}
  {l : List (ι × Action)} {v : Except Exn Block}

/-- In the step, the reader `i` does not meet a failure of anything but requests for other
    blocks than `n`: its file operations and its waiting for answers succeed, and so does the
    request for the block `n`. -/
def Readable (i : ι) (n : ℕ) (g : Readers ι) (a : ι × Action) : Prop :=
  a.1 = i → (g.readers i).Smooth a.2 ∧ (g.readers i).failed g.session a.2 ≠ some n

/-- In the step, no request of the reader `i` for another block than `n` fails: none is
    completed that failed, and none cannot be sent. -/
def Spared (i : ι) (n : ℕ) (g : Readers ι) (a : ι × Action) : Prop :=
  a.1 = i → ∀ k ∈ (g.readers i).failed g.session a.2, k = n

instance : Decidable (Readable i n g a) := by
  unfold Readable
  infer_instance

instance : Decidable (Spared i n g a) := by
  unfold Spared
  infer_instance

/-- `1` if the step is one of the thread of the reader `i`. -/
def steps (i : ι) (_ : Readers ι) : ι × Action → ℕ
  | (j, .advance _) => if j = i then 1 else 0
  | _ => 0

/-- What a step of the reader `i` adds to the bound on its steps if it waits in vain. -/
def vainSteps (i : ι) (g : Readers ι) : ι × Action → ℕ
  | (j, .advance _) => if j = i ∧ (g.readers i).WaitsInVain then maxRequestsInFlight + 3 else 0
  | _ => 0

/-! ## Whole calls -/

/-- Nothing fails in a reader whose call ended. -/
theorem spared_of_returned (hc : (g.readers i).control = .returned v) (hl : ∀ k, (i, .call k) ∉ l) :
    Transition.AllSteps step (Spared i n) g l := by
  induction l generalizing g with
  | nil => trivial
  | cons a l ih =>
    refine ⟨fun _ k hk => ?_, fun t ht => ih (step_returned hc (fun k ha => hl k ?_) ht)
      fun k hk => hl k (List.mem_cons_of_mem a hk)⟩
    · rw [Option.mem_def, failed_eq_none (by rw [hc]; rfl)
        (by rw [hc]; exact fun _ _ h => by cases h)] at hk
      cases hk
    · rw [ha]
      exact List.mem_cons_self

omit [DecidableEq ι] in
theorem Working.countBlocks_eq (h : Working lastLBA s B g) :
    countBlocks ((lastLBA + 1) * s : ℕ) B = blocks ((lastLBA + 1) * s) B :=
  EvidenceStore.countBlocks_eq h.disk.blockSize_pos h.disk.blockSize_lt h.disk.blocks_lt

/-- A block that is held stays so. -/
theorem Working.held (h : Working lastLBA s B g) (hn : n < blocks ((lastLBA + 1) * s) B)
    (hheld : Held ((lastLBA + 1) * s) B n g.session) (hs : Readers.step g a = some g') :
    Held ((lastLBA + 1) * s) B n g'.session := by
  obtain ⟨r, heff, -⟩ := step_eq_some hs
  exact heff.held (h.inFlight a.1) h.store h.disk.blockSize_pos h.disk.blockSize_lt
    (by rw [h.geometry a.1]; rfl) hn hheld

/-- A step of the call that the failure of another request does not end. -/
theorem spared_of_blockNumber {m : ℤ} (h : Working lastLBA s B g) (hs : step g a = some g')
    (hc : (g'.readers i).control.blockNumber = some m) : Spared i n g a := by
  rintro rfl k hk
  obtain ⟨⟨r, t⟩, hp, rfl⟩ := Option.map_eq_some_iff.1 hs
  obtain ⟨-, x, hx⟩ := step_failed (h.exclusive a.1) hk hp
  dsimp only at hc
  rw [Function.update_self, hx] at hc
  cases hc

/-- A call for a block that can be read returns a block exactly when no request for another
    block fails on the way. -/
theorem isOk_iff (h : Working lastLBA s B g) (hu : Transition.AllSteps step NoWrap g l)
    (hr : Transition.AllSteps step (Readable i n) g l) (hn : n < blocks ((lastLBA + 1) * s) B)
    (hheld : Held ((lastLBA + 1) * s) B n g.session)
    (hc : (g.readers i).control.blockNumber = some (n : ℤ)) (hl : ∀ k, (i, .call k) ∉ l)
    (hg : Transition.runs step g l = some g') (hv : (g'.readers i).control = .returned v) :
    (∃ b, v = .ok b) ↔ Transition.AllSteps step (Spared i n) g l := by
  induction l generalizing g with
  | nil =>
    cases hg
    rw [hv] at hc
    cases hc
  | cons a l ih =>
    obtain ⟨t, ht, hrest⟩ := Transition.runs_cons.1 hg
    have htail : ∀ k, (i, .call k) ∉ l := fun k hk => hl k (List.mem_cons_of_mem a hk)
    have hhead : ∀ k, a ≠ (i, .call k) := fun k ha => hl k (by rw [ha]; exact List.mem_cons_self)
    have hsplit : Transition.AllSteps step (Spared i n) g (a :: l) ↔
        Spared i n g a ∧ Transition.AllSteps step (Spared i n) t l := by
      simp only [Transition.AllSteps, ht, Option.some.injEq, forall_eq']
    rw [hsplit]
    rcases step_call hc hhead ht with hc' | ⟨e, w, rfl, hw⟩
    · rw [ih (h.step hu.1 ht) (hu.2 t ht) (hr.2 t ht) (h.held hn hheld ht) hc' htail hrest]
      exact (and_iff_right (spared_of_blockNumber h ht hc')).symm
    · -- The step ends the call, with what the run leaves as its result.
      obtain rfl : w = v := by
        have hwv := runs_returned hw htail hrest
        rw [hv] at hwv
        cases hwv
        rfl
      obtain ⟨hsmooth, hown⟩ := hr.1 rfl
      rcases (h.inFlight i).ends_smooth h.disk.blockSize_pos h.disk.blockSize_lt
        (by rw [h.geometry i]; rfl) h.store h.countBlocks_eq hn hheld hc hsmooth (h.ends ht hw) with
        ⟨b, rfl, hlookup, -⟩ | ⟨x, k, rfl, hk⟩
      · refine iff_of_true ⟨b, rfl⟩ ⟨fun _ k hk => ?_, spared_of_returned hw htail⟩
        dsimp only at hk
        rw [Option.mem_def, failed_eq_none (by rw [hlookup]; rfl)
          (by rw [hlookup]; exact fun _ _ h => by cases h)] at hk
        cases hk
      · refine iff_of_false ?_ fun hspared => hown (hspared.1 rfl k hk ▸ hk)
        rintro ⟨b, hb⟩
        cases hb

/-- What a step of the run does to the bound on the steps of the call. -/
theorem remaining_step (h : Working lastLBA s B g) (hu : NoWrap g a) (ha : ∀ k, a ≠ (i, .call k))
    (hs : step g a = some g') :
    steps i g a + (g'.readers i).remaining ≤ (g.readers i).remaining + vainSteps i g a := by
  obtain ⟨⟨r, t⟩, hp, rfl⟩ := Option.map_eq_some_iff.1 hs
  obtain ⟨j, a⟩ := a
  dsimp only at hp ⊢
  by_cases hi : i = j
  · subst hi
    rw [Function.update_self]
    cases a with
    | call k => exact absurd rfl (ha k)
    | advance e =>
      have hstep := (h.inFlight i).remaining_advance h.room hu hp
      simpa [steps, vainSteps] using hstep
    | finish m outcome =>
      have hstep := remaining_finish hp
      simpa [steps, vainSteps] using hstep
  · rw [Function.update_of_ne hi]
    cases a <;> simp [steps, vainSteps, Ne.symm hi]

/-- The bound on the steps of a whole call. -/
theorem steps_le (h : Working lastLBA s B g) (hu : Transition.AllSteps step NoWrap g l)
    (hc : (g.readers i).control = .retrieveBlock n) (hl : ∀ k, (i, .call k) ∉ l)
    (hg : Transition.runs step g l = some g') :
    Transition.cost step (steps i) g l + (g'.readers i).remaining ≤
      2 + slotBudget + Transition.cost step (vainSteps i) g l := by
  have hcalls : Transition.AllSteps step (fun _ a => ∀ k, a ≠ (i, .call k)) g l :=
    .of_forall fun _ a ha k hk => hl k (hk ▸ ha)
  have hle : Transition.cost step (steps i) g l + (g'.readers i).remaining ≤
      (g.readers i).remaining + Transition.cost step (vainSteps i) g l :=
    Transition.runs_budget (I := Working lastLBA s B) (fun _ _ _ ha h hs => h.step ha.1 hs)
      (fun _ _ _ ha h hs => remaining_step h ha.1 ha.2 hs) hg (hu.and hcalls) h
  have hstart : (g.readers i).remaining = 2 + slotBudget := by
    rw [remaining, hc]
    rfl
  rwa [hstart] at hle

omit [DecidableEq ι] in
/-- The readers of a disk count its blocks by an `int`, or not at all. -/
theorem Opened.accepted_of_lt (h : Opened lastLBA s B g) (hd : ReadGeometry.ValidDisk lastLBA s B)
    (hn : (n : ℤ) < (g.readers i).geometry.totalBlockCount) :
    ReadGeometry.Accepted lastLBA s B := by
  obtain ⟨geometry, hcreate, hi⟩ := h.readers i
  rw [ReadGeometry.create_eq hd] at hcreate
  cases hcreate
  rw [hi] at hn
  have hL := hd.length_le
  have hB := hd.blockSize_lt
  change (n : ℤ) < countBlocks ((lastLBA + 1) * s : ℕ) B at hn
  rw [countBlocks_eq_toInt (by omega)] at hn
  have hle : blocks ((lastLBA + 1) * s) B ≤ 2 ^ 32 := by
    refine not_lt.1 fun hlt => ?_
    have hfirst := hd.lt_blocks_iff.1 hlt
    have hmul := Nat.le_mul_of_pos_right (2 ^ 32) hd.div_pos
    have hlba := hd.lastLBA_lt
    omega
  rcases toInt_eq_or_le (Int.natCast_nonneg (blocks ((lastLBA + 1) * s) B)) with ⟨hlt, -⟩ |
    ⟨-, hneg⟩
  · exact ⟨hd, by exact_mod_cast hlt⟩
  · omega

/-- A run keeps what the readers know of the disk. -/
theorem geometry_runs (hg : Transition.runs step g l = some g') :
    ∀ i, (g'.readers i).geometry = (g.readers i).geometry := by
  refine Transition.runs_induction
    (P := fun _ t => ∀ i, (t.readers i).geometry = (g.readers i).geometry) (fun _ => rfl) ?_ hg
  intro _ t a u _ ih hs
  obtain ⟨r, heff, hr⟩ := step_eq_some hs
  exact forall_readers (P := fun i r => r.geometry = (g.readers i).geometry) hr ih
    (heff.geometry.trans (ih a.1))

/-- A call of the reader `i` for the block `n` of the disk, in any state of any run of readers
    of this disk, while file operations and waiting for answers succeed, and so does the
    request for `n`: it can go on until it ends; it takes a bounded number of steps, beyond
    those of the waits that are in vain; and it ends with the block exactly when no request
    for another block fails on the way. -/
theorem returns_iff (lastLBA s B n : ℕ) (hd : ReadGeometry.ValidDisk lastLBA s B)
    (g₀ g g₁ g' : Readers ι) (l l' : List (ι × Action)) (i : ι)
    (h₀ : Opened lastLBA s B g₀) (hu : Transition.AllSteps step NoWrap g₀ l)
    (hg : Transition.runs step g₀ l = some g)
    (hn : (n : ℤ) < (g.readers i).geometry.totalBlockCount)
    (hheld : Held ((lastLBA + 1) * s) B n g₀.session)
    (hcall : step g (i, .call n) = some g₁) (hl : ∀ k, (i, .call k) ∉ l')
    (hu' : Transition.AllSteps step NoWrap g₁ l')
    (hr : Transition.AllSteps step (Readable i n) g₁ l')
    (hg' : Transition.runs step g₁ l' = some g') :
    ((g'.readers i).Idle = false →
      ∃ key, ∀ io error, (step g' (i, .advance ⟨key, io, error⟩)).isSome = true) ∧
    Transition.cost step (steps i) g₁ l' ≤
      2 + slotBudget + Transition.cost step (vainSteps i) g₁ l' ∧
    ∀ v, (g'.readers i).control = .returned v →
      ((∃ b, v = .ok b ∧ Gives i n g₁ l' b) ↔ Transition.AllSteps step (Spared i n) g₁ l') := by
  rw [geometry_runs hg i] at hn
  have hd' := h₀.accepted_of_lt hd hn
  have h₀' := h₀.working hd'
  rw [h₀'.geometry i] at hn
  have hn' : n < blocks ((lastLBA + 1) * s) B := Int.ofNat_lt.1 hn
  have h : Working lastLBA s B g := h₀'.runs hu hg
  have h₁ : Working lastLBA s B g₁ := h.step (show NoWrap g (i, .call n) from trivial) hcall
  -- the block was in the file at first if it counts as stored, so it is when the call starts
  have hheld₁ : Held ((lastLBA + 1) * s) B n g₁.session := by
    have hboth : Working lastLBA s B g ∧ Held ((lastLBA + 1) * s) B n g.session :=
      Transition.runs_invariant
        (I := fun g => Working lastLBA s B g ∧ Held ((lastLBA + 1) * s) B n g.session)
        (fun _ _ _ ha h hs => ⟨h.1.step ha hs, h.1.held hn' h.2 hs⟩) hg hu ⟨h₀', hheld⟩
    exact h.held hn' hboth.2 hcall
  have hcontrol := control_call hcall
  have hnumber : (g₁.readers i).control.blockNumber = some (n : ℤ) := by rw [hcontrol]; rfl
  refine ⟨fun hidle => ?_, ?_, fun v hv => ?_⟩
  · obtain ⟨key, hkey⟩ := advance_isSome (s := g'.session) hidle
    refine ⟨key, fun io error => ?_⟩
    rw [step, Option.isSome_map]
    exact hkey io error
  · exact (Nat.le_add_right _ _).trans (steps_le h₁ hu' hcontrol hl hg')
  · rw [← isOk_iff h₁ hu' hr hn' hheld₁ hnumber hl hg' hv]
    constructor
    · rintro ⟨b, hb, -⟩
      exact ⟨b, hb⟩
    · rintro ⟨b, rfl⟩
      exact ⟨b, rfl, gives_of_ok h₁ hu' hnumber hl hg' hv⟩

/-! ## Two blocks -/

/-- A disk of two bytes. -/
def twoBytes : ReadGeometry := .ofDisk 1 1 1

/-- A new reader of this disk, with an empty evidence store. -/
def twoByteReader : Readers Unit :=
  let f := extend 2 1 ⟨.zeros 0, .zeros 0⟩
  ⟨fun _ => .new twoBytes, ⟨opened "" 2 1 f, f⟩⟩

theorem opened_twoByteReader : Opened 1 1 1 twoByteReader where
  readers _ := ⟨twoBytes, rfl, rfl⟩
  session := ⟨"", ⟨.zeros 0, .zeros 0⟩, Session.start_eq_some.2 ⟨by constructor <;> decide, rfl⟩⟩

/-- The reader requests the first byte, and the second one ahead; the first one is read. -/
def readsFirst : List (Unit × Action) :=
  List.replicate 12 ((), go) ++ [((), .finish 0 (.good (.ofFn 1 fun _ => 7))), ((), go), ((), go),
    ((), .advance ⟨1, .ok, none⟩), ((), go), ((), go), ((), go)]

/-- The call returns while the request for the other byte is in flight. -/
theorem returns_iff_first : ∃ g₁ g' b, step twoByteReader ((), .call 0) = some g₁ ∧
    Transition.runs step g₁ readsFirst = some g' ∧ (g'.readers ()).control = .returned (.ok b) ∧
    Gives () 0 g₁ readsFirst b ∧ 1 ∈ (g'.readers ()).requestsInFlight := by
  have hrun : (step twoByteReader ((), .call 0)).map (fun g₁ =>
      (decide (Transition.AllSteps step (Readable () 0) g₁ readsFirst),
        decide (Transition.AllSteps step (Spared () 0) g₁ readsFirst),
        (Transition.runs step g₁ readsFirst).map fun g' =>
          ((g'.readers ()).result.isSome, decide (1 ∈ (g'.readers ()).requestsInFlight)))) =
      some (true, true, some (true, true)) := by decide +kernel
  obtain ⟨g₁, hcall, hval⟩ := Option.map_eq_some_iff.1 hrun
  simp only [Prod.mk.injEq, decide_eq_true_iff] at hval
  obtain ⟨hreadable, hspared, hend⟩ := hval
  obtain ⟨g', hg', hval⟩ := Option.map_eq_some_iff.1 hend
  rw [Prod.mk.injEq, decide_eq_true_iff] at hval
  obtain ⟨v, hv⟩ := Option.isSome_iff_exists.1 hval.1
  have hvalid : ReadGeometry.ValidDisk 1 1 1 := by constructor <;> decide
  have hworking := opened_twoByteReader.working ⟨hvalid, by decide⟩
  have hworking₁ := hworking.step (show NoWrap twoByteReader ((), .call 0) from trivial) hcall
  obtain ⟨b, rfl, hgives⟩ := ((returns_iff 1 1 1 0 hvalid twoByteReader twoByteReader g₁ g' []
    readsFirst () opened_twoByteReader trivial rfl (by decide) (fun h => absurd h (by decide))
    hcall (by intro k; simp [readsFirst, go]) (hworking₁.noWrap (by decide)) hreadable hg').2.2 v
    (result_eq_some hv)).2 hspared
  exact ⟨g₁, g', b, hcall, hg', result_eq_some hv, hgives, hval.2⟩

/-! ## An unreadable neighbour -/

/-- The reader requests the first byte, and the second one ahead; the first one is read, and
    stored; the second one cannot be read. -/
def badNeighbour : List (Unit × Action) :=
  List.replicate 12 ((), go) ++ [((), .finish 0 (.good (.zeros 1))), ((), .finish 1 (.failed "")),
    ((), go), ((), go), ((), .advance ⟨1, .ok, none⟩)]

/-- A call for a byte that was read and stored fails, as the next byte cannot be read. -/
theorem not_returns_neighbour : ∃ g₁ g' x, Opened 1 1 1 twoByteReader ∧
    step twoByteReader ((), .call 0) = some g₁ ∧
    Transition.AllSteps step (Readable () 0) g₁ badNeighbour ∧
    Transition.runs step g₁ badNeighbour = some g' ∧
    g'.session.store.containsBlock 0 = true ∧ (g'.readers ()).control = .returned (.error x) := by
  have hrun : (step twoByteReader ((), .call 0)).map (fun g₁ =>
      (decide (Transition.AllSteps step (Readable () 0) g₁ badNeighbour),
        (Transition.runs step g₁ badNeighbour).map fun g' =>
          (g'.session.store.containsBlock 0, (g'.readers ()).result.map Except.isOk))) =
      some (true, some (true, some false)) := by decide +kernel
  obtain ⟨g₁, hcall, hval⟩ := Option.map_eq_some_iff.1 hrun
  rw [Prod.mk.injEq, decide_eq_true_iff] at hval
  obtain ⟨g', hg', hval'⟩ := Option.map_eq_some_iff.1 hval.2
  rw [Prod.mk.injEq] at hval'
  obtain ⟨v, hv, hok⟩ := Option.map_eq_some_iff.1 hval'.2
  cases v with
  | ok b => cases hok
  | error x =>
    exact ⟨g₁, g', x, opened_twoByteReader, hcall, hval.1, hg', hval'.1, result_eq_some hv⟩

end Readers

end Raqet
