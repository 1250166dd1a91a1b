import Raqet.IScsi.ReadAhead

/-!
# Requests that fail

A request fails if it cannot be sent, if the logical unit cannot read the sectors, or if
what it brought cannot be stored. It ends the call that meets it, whatever block this is
for, and it is forgotten: the block may be requested again.

* `requests_le`: a reader requests a block once, and once more for each request for it that
  failed;
* `exceptions_le`: once nothing fails any more, the calls that still end with an exception
  are no more than the requests that had failed before and were not yet met.
-/

namespace Raqet

open Java EvidenceStore

namespace IScsiBlockReader

variable {r r' : IScsiBlockReader} {s s' : Session} {a : Action} {e : Env} {N M n k : ℕ} {x : Exn}
  {q : IScsiRead10Callback} {v : Except Exn Block}

/-! ## How often a block is requested -/

/-- The reader may request the block without an earlier request having failed: there is none
    in flight; and if it is stored, the thread was about to request it before it was. -/
def MayRequest (r : IScsiBlockReader) (s : Session) (n : ℕ) : Prop :=
  n ∉ r.requestsInFlight ∧ (n ∈ s.store.bitmap → r.control.target = some n)

instance (r : IScsiBlockReader) (s : Session) (n : ℕ) : Decidable (MayRequest r s n) := by
  unfold MayRequest
  infer_instance

/-- The number of requests that it may send. -/
def mayRequest (r : IScsiBlockReader) (s : Session) (n : ℕ) : ℕ := if MayRequest r s n then 1 else 0

theorem mayRequest_le_one : mayRequest r s n ≤ 1 := by
  rw [mayRequest]
  split_ifs <;> omega

theorem mayRequest_mono (h : MayRequest r' s' n → MayRequest r s n) :
    mayRequest r' s' n ≤ mayRequest r s n := by
  rw [mayRequest, mayRequest]
  split_ifs with h' h''
  exacts [le_rfl, absurd (h h') h'', Nat.zero_le _, le_rfl]

theorem mem_requestBlock {command : Read10} {control : Control}
    (h : r.geometry.read10 n e.error = .ok command) :
    n ∈ (r.requestBlock n e control).requestsInFlight := by
  rw [requestBlock, h]
  exact Finmap.mem_insert.2 (.inl rfl)

theorem mem_requestBlock_of_mem {control : Control} (hn : n ∈ r.requestsInFlight) :
    n ∈ (r.requestBlock k e control).requestsInFlight := by
  rw [requestBlock]
  cases r.geometry.read10 k e.error with
  | error x => exact hn
  | ok command => exact Finmap.mem_insert.2 (.inr hn)

/-- A command that is sent is in flight. -/
theorem mem_of_issued (hi : r.issued a = some n) (hs : r.step s a = some (r', s')) :
    n ∈ r'.requestsInFlight := by
  cases a with
  | call | finish => cases hi
  | advance e =>
    obtain ⟨hreq, hok⟩ := Option.filter_eq_some_iff.1 hi
    obtain ⟨command, hcommand⟩ : ∃ command, r.geometry.read10 n e.error = .ok command := by
      cases hread : r.geometry.read10 n e.error with
      | error x =>
        rw [hread] at hok
        cases hok
      | ok command => exact ⟨command, rfl⟩
    rw [step, advance] at hs
    cases hc : r.control with
    | requestBlock m =>
      rw [hc] at hs hreq
      cases hreq
      cases hs
      exact mem_requestBlock hcommand
    | requestBlockForReadAhead m j last =>
      rw [hc] at hs hreq
      cases hreq
      cases hs
      exact mem_requestBlock hcommand
    | _ =>
      rw [hc] at hreq
      cases hreq

/-- A request that fails in a step is not sent in the same step. -/
theorem issued_ne_failed (hf : r.failed s a = some n) : r.issued a ≠ some n := by
  intro hi
  obtain ⟨e, rfl, ⟨caller, keys, q, hc, -⟩ | ⟨hreq, hread⟩⟩ := failed_eq_some hf
  · have hreq := requests_of_issued hi
    rw [hc] at hreq
    cases hreq
  · obtain ⟨-, hok⟩ := Option.filter_eq_some_iff.1 hi
    rw [hread] at hok
    cases hok

/-- A request that is no longer in flight failed, or its block is stored. -/
theorem failed_or_stored (hx : Exclusive r) (hn : n ∈ r.requestsInFlight)
    (hn' : n ∉ r'.requestsInFlight) (hs : r.step s a = some (r', s')) :
    r.failed s a = some n ∨ (n ∈ s'.store.bitmap ∧ r'.control.target ≠ some n) := by
  cases a with
  | call k =>
    cases effect_of_step hs
    exact absurd hn hn'
  | finish k outcome =>
    cases effect_of_step hs
    exact absurd (Finmap.mem_insert.2 (.inr hn)) hn'
  | advance e =>
    have hstep := advances hs
    generalize hc : r.control = c at hstep
    cases hstep with
    | requests | requestsAhead => exact absurd (mem_requestBlock_of_mem hn) hn'
    | @allCompleted caller =>
      cases caller <;> exact absurd hn hn'
    | @completes caller rest hkey =>
      cases hq : r.requestsInFlight.lookup e.key with
      | none =>
        rw [completeRequest, hq] at hn'
        exact absurd hn hn'
      | some q =>
        -- only the request that is completed is taken out
        have hforget : n ∉ (r.forget e.key).requestsInFlight → n = e.key := fun h =>
          not_not.1 fun hne => h ((mem_forget hne).2 hn)
        rcases completeRequest_cases hq s e.io (.completeRequests caller (rest.erase e.key)) with
          ⟨-, he⟩ | ⟨hf, x, hx', he⟩ | ⟨hf, hx', x, hv, -, he⟩ | ⟨-, -, -, hb, he⟩ <;>
          rw [he] at hn' ⊢
        · exact absurd hn hn'
        · obtain rfl := hforget hn'
          exact .inl (failed_of_completion hc hkey hq hf (by rw [hx']; exact Option.some_ne_none x))
        · obtain rfl := hforget hn'
          refine .inl ?_
          rw [failed, hc]
          dsimp only
          rw [if_pos hkey, hq, Option.bind_some, if_pos ⟨hf, .inr (by rw [hv]; rfl)⟩]
        · obtain rfl := hforget hn'
          refine .inr ⟨by rw [hb]; exact Finset.mem_insert_self _ _, fun ht => hx _ ?_ hn⟩
          rw [hc]
          cases caller <;> exact ht
    | _ => exact absurd hn hn'

/-- A request that is sent is paid for: it is the first one, or an earlier one failed. -/
theorem issued_add_mayRequest_le (hx : Exclusive r) (hs : r.step s a = some (r', s')) (n : ℕ) :
    (if r.issued a = some n then 1 else 0) + mayRequest r' s' n ≤
      mayRequest r s n + (if r.failed s a = some n then 1 else 0) := by
  have heff := effect_of_step hs
  by_cases hf : r.failed s a = some n
  · have hle := mayRequest_le_one (r := r') (s := s') (n := n)
    rw [if_neg (issued_ne_failed hf), if_pos hf]
    omega
  · rw [if_neg hf]
    -- nothing fails, so the request uses up the one that may be sent
    by_cases hi : r.issued a = some n
    · have hmay : MayRequest r s n := by
        obtain ⟨e, rfl⟩ : ∃ e, a = .advance e := by
          cases a with
          | advance e => exact ⟨e, rfl⟩
          | call | finish => cases hi
        have ht := target_of_requests (requests_of_issued hi)
        exact ⟨hx n ht, fun _ => ht⟩
      rw [if_pos hi, mayRequest, mayRequest, if_pos hmay,
        if_neg fun h => h.1 (mem_of_issued hi hs)]
    · rw [if_neg hi, Nat.zero_add]
      refine mayRequest_mono ?_
      rintro ⟨hn', ht⟩
      have hn : n ∉ r.requestsInFlight := by
        intro hn
        rcases failed_or_stored hx hn hn' hs with hf' | ⟨hb, ht'⟩
        exacts [hf hf', ht' (ht hb)]
      refine ⟨hn, fun hb => ?_⟩
      exact (heff.pending hb (.inr (ht (heff.bitmap_subset hb)))).resolve_left hn

/-! ## The requests that failed before -/

/-- The requests that failed, and that the thread has not yet met. -/
def failedInFlight (r : IScsiBlockReader) : Finset ℕ :=
  r.requestsInFlight.keys.filter fun k =>
    (r.requestsInFlight.lookup k).any fun q => q.exception.isSome

/-- The step ends the call with an exception. -/
def throws (r : IScsiBlockReader) (s : Session) (a : Action) : Bool :=
  !r.Idle && (r.step s a).any fun p => p.1.result.any fun v => !v.isOk

/-- Nothing fails: the reader is called for one of its `N` blocks; file operations, waiting for
    answers and sending requests succeed; and the answers are good. -/
def Works (N : ℕ) : Action → Prop
  | .call n => 0 ≤ n ∧ n < N
  | .advance e => e.io = .ok ∧ e.error = none
  | .finish _ (.good _) => True
  | .finish _ (.failed _) => False

instance (N : ℕ) (a : Action) : Decidable (Works N a) := by
  rcases a with _ | _ | ⟨_, _ | _⟩ <;> unfold Works <;> infer_instance

theorem mem_failedInFlight : k ∈ r.failedInFlight ↔
    ∃ q, r.requestsInFlight.lookup k = some q ∧ q.exception ≠ none := by
  rw [failedInFlight, Finset.mem_filter, Finmap.mem_keys, Option.any_eq_true]
  constructor
  · rintro ⟨-, q, hq, hx⟩
    exact ⟨q, hq, Option.isSome_iff_ne_none.1 hx⟩
  · rintro ⟨q, hq, hx⟩
    exact ⟨mem_of_lookup hq, q, hq, Option.isSome_iff_ne_none.2 hx⟩

/-- No more requests fail. -/
theorem failedInFlight_subset (hw : Works N a) (heff : Effect r s a r' s') :
    r'.failedInFlight ⊆ r.failedInFlight := by
  intro k hk
  obtain ⟨q, hq, hx⟩ := mem_failedInFlight.1 hk
  rcases heff.lookup_cases hq with hq | ⟨_, _, _, _, rfl⟩ | ⟨outcome, q₀, rfl, hq₀, -, -, rfl⟩
  · exact mem_failedInFlight.2 ⟨q, hq, hx⟩
  · exact absurd rfl hx
  · cases outcome with
    | failed error => exact absurd hw id
    | good data => exact mem_failedInFlight.2 ⟨q₀, hq₀, hx⟩

/-- The block that the thread is about to request is one of the disk. -/
theorem InFlight.lt_of_requests (h : InFlight N M r s) (hreq : r.control.requests = some k) :
    k < N := by
  have hcourse := h.course
  cases hc : r.control with
  | requestBlock n =>
    rw [hc] at hreq hcourse
    cases hreq
    exact hcourse.1
  | requestBlockForReadAhead n i last =>
    rw [hc] at hreq hcourse
    cases hreq
    obtain ⟨⟨-, -, hlast, -⟩, hn, hi, -⟩ := hcourse
    omega
  | _ =>
    rw [hc] at hreq
    cases hreq

/-- What ends a call with an exception is a step of the thread. -/
theorem throws_eq_true (ht : r.throws s a = true) (hs : r.step s a = some (r', s')) :
    r.Idle = false ∧ ∃ e x, a = .advance e ∧ r'.control = .returned (.error x) := by
  rw [throws, hs, Option.any_some, Bool.and_eq_true, Option.any_eq_true] at ht
  obtain ⟨hidle, v, hv, hok⟩ := ht
  rw [Bool.not_eq_true'] at hidle hok
  have hcontrol := result_eq_some hv
  refine ⟨hidle, ?_⟩
  cases a with
  | call n =>
    cases effect_of_step hs
    cases hcontrol
  | finish n outcome =>
    cases effect_of_step hs
    rw [Idle, show r.control = .returned v from hcontrol] at hidle
    cases hidle
  | advance e =>
    cases v with
    | ok b => cases hok
    | error x => exact ⟨e, x, rfl, hcontrol⟩

theorem blockNumber_of_idle (hidle : r.Idle = true) : r.control.blockNumber = none := by
  rw [Idle] at hidle
  cases hc : r.control with
  | idle | returned => rfl
  | _ =>
    rw [hc] at hidle
    cases hidle

theorem exists_blockNumber (hidle : r.Idle = false) : ∃ n, r.control.blockNumber = some n := by
  rw [Idle] at hidle
  cases hc : r.control with
  | idle | returned =>
    rw [hc] at hidle
    cases hidle
  | completeRequests caller keys => cases caller <;> exact ⟨_, rfl⟩
  | _ => exact ⟨_, rfl⟩

/-- A step stays in the call, ends it, or starts one. -/
theorem Effect.blockNumber (heff : Effect r s a r' s') :
    r'.control.blockNumber = r.control.blockNumber ∨ r'.control.blockNumber = none ∨
      ∃ n, a = .call n ∧ r'.control.blockNumber = some n := by
  have hfollows : ∀ {control : Control}, r.control.Follows control →
      control.blockNumber = r.control.blockNumber ∨ control.blockNumber = none ∨
        ∃ n, a = .call n ∧ control.blockNumber = some n := by
    rintro control (hf | ⟨x, rfl⟩)
    exacts [.inl hf, .inr (.inl rfl)]
  cases heff with
  | call n _ => exact .inr (.inr ⟨n, rfl, rfl⟩)
  | move e control hf _ => exact hfollows hf
  | lookup e n _ => exact .inr (.inl rfl)
  | request e n command control hf _ _ _ => exact hfollows hf
  | drop e q control hf _ _ _ _ => exact hfollows hf
  | store e q control hf _ _ _ _ => exact hfollows hf
  | finish n q outcome _ _ _ => exact .inl rfl

/-- The step that ends a call with an exception takes a request that failed before. -/
theorem throws_add_failedInFlight_le {L B : ℕ} (h : InFlight (blocks L B) M r s)
    (hr : Room (blocks L B) M) (hx : Exclusive r) (hB : 0 < B) (hB' : B < 2 ^ 31)
    (hsize : r.geometry.readBlockSize = B)
    (hread : ∀ k < blocks L B, ∃ c, r.geometry.read10 k none = .ok c)
    (hstore : Session.Geometry L B s.store) (hcount : countBlocks L B = blocks L B)
    (hheld : ∀ n < blocks L B, Held L B n s)
    (hcall : ∀ n, r.control.blockNumber = some n → 0 ≤ n ∧ n < blocks L B)
    (hw : Works (blocks L B) a) (hs : r.step s a = some (r', s')) :
    (if r.throws s a = true then 1 else 0) + r'.failedInFlight.card ≤ r.failedInFlight.card := by
  have hsub := failedInFlight_subset hw (effect_of_step hs)
  by_cases ht : r.throws s a = true
  · obtain ⟨hidle, e, x, rfl, hcontrol⟩ := throws_eq_true ht hs
    obtain ⟨m, hm⟩ := exists_blockNumber hidle
    obtain ⟨hpos, hlt⟩ := hcall m hm
    obtain ⟨n, rfl⟩ := Int.eq_ofNat_of_zero_le hpos
    have hn : n < blocks L B := by exact_mod_cast hlt
    obtain ⟨hio, herror⟩ := hw
    rcases h.ends_smooth hB hB' hsize hstore hcount hn (hheld n hn) hm ⟨hio, fun _ => herror⟩
      (h.ends hr hs hcontrol) with ⟨b, hb, -⟩ | ⟨y, k, -, hf⟩
    · cases hb
    · -- Of the ways in which a request can fail, only one is left.
      have hmem : k ∈ r.failedInFlight := by
        obtain ⟨e', he', ⟨caller, keys, q, -, -, hq, -, hfail, rfl⟩ | ⟨hreq, hsend⟩⟩ :=
          failed_eq_some hf
        · cases he'
          refine mem_failedInFlight.2 ⟨q, hq, hfail.resolve_right fun hstored => ?_⟩
          have hissued := h.request _ q hq
          have hlen : q.buffer.length = B := by rw [hissued.length, hsize, Int.toNat_natCast]
          rw [hio, hstore.storeBlock_ok hB hB' hissued.lt hlen] at hstored
          cases hstored
        · cases he'
          obtain ⟨c, hc⟩ := hread k (h.lt_of_requests hreq)
          rw [herror, hc] at hsend
          cases hsend
      have hnot : k ∉ r'.failedInFlight := fun hk => by
        obtain ⟨q, hq, -⟩ := mem_failedInFlight.1 hk
        exact (step_failed hx hf hs).1 (mem_of_lookup hq)
      rw [if_pos ht, Nat.add_comm]
      exact Finset.card_lt_card (Finset.ssubset_iff_subset_ne.2
        ⟨hsub, fun heq => hnot (heq ▸ hmem)⟩)
  · rw [if_neg ht, Nat.zero_add]
    exact Finset.card_le_card hsub

end IScsiBlockReader

open IScsiBlockReader

namespace Readers

variable {ι : Type*} [DecidableEq ι] {lastLBA s B : ℕ} {g₀ g g' : Readers ι} {i : ι}
  {a : ι × Action} {l : List (ι × Action)}

/-- `1` if a request of the reader `i` for the block `n` fails in the step. -/
def failures (i : ι) (n : ℕ) (g : Readers ι) (a : ι × Action) : ℕ :=
  if a.1 = i ∧ (g.readers i).failed g.session a.2 = some n then 1 else 0

/-- In every run of new readers of any disks, and whatever fails in it: a reader sends no more
    requests for a block than the first one, if the block is not stored from the beginning,
    and one for each of its requests for the block that failed. -/
theorem requests_le (h : Fresh g₀) (hg : Transition.runs step g₀ l = some g) (i : ι) (n : ℕ) :
    Transition.cost step (issues i n) g₀ l ≤
      (if g₀.session.store.containsBlock n = true then 0 else 1) +
        Transition.cost step (failures i n) g₀ l := by
  have hstep : ∀ t a u, True → (∀ i, Exclusive (t.readers i)) → step t a = some u →
      issues i n t a + mayRequest (u.readers i) u.session n ≤
        mayRequest (t.readers i) t.session n + failures i n t a := by
    rintro t ⟨j, a⟩ u - hx hs
    have hmono := bitmap_step hs
    obtain ⟨⟨r, v⟩, hp, rfl⟩ := Option.map_eq_some_iff.1 hs
    dsimp only at hp hmono ⊢
    by_cases hij : j = i
    · subst hij
      have hle := issued_add_mayRequest_le (hx j) hp n
      rw [Function.update_self, issues, failures]
      simpa only [true_and] using hle
    · -- another reader may only store the block
      rw [Function.update_of_ne (Ne.symm hij), issues, failures, if_neg fun h => hij h.1,
        if_neg fun h => hij h.1, Nat.zero_add, Nat.add_zero]
      exact mayRequest_mono fun h => ⟨h.1, fun hb => h.2 (hmono hb)⟩
  have hcost : Transition.cost step (issues i n) g₀ l + mayRequest (g.readers i) g.session n ≤
      mayRequest (g₀.readers i) g₀.session n + Transition.cost step (failures i n) g₀ l :=
    Transition.runs_budget (fun _ _ _ _ hx hs => exclusive_step hx hs) hstep hg
      (.of_forall fun _ _ _ => trivial) (exclusive_fresh h)
  have hstart : mayRequest (g₀.readers i) g₀.session n ≤
      if g₀.session.store.containsBlock n = true then 0 else 1 := by
    split_ifs with hb
    · obtain ⟨geometry, hr⟩ := h i
      rw [mayRequest, if_neg]
      intro hmay
      have ht := hmay.2 (containsBlock_iff.1 hb)
      rw [hr] at ht
      cases ht
    · exact mayRequest_le_one
  omega

/-- The block is requested; the request fails, and ends the call; the block is requested in
    the next one. -/
def requestAgain : List (Unit × Action) :=
  (requestBlock ++ [.finish 0 (.failed ""), go] ++ requestBlock).map fun a => ((), a)

theorem requests_le_again : ∃ g, Transition.runs step (byteReaders Unit) requestAgain = some g ∧
    Transition.cost step (issues () 0) (byteReaders Unit) requestAgain = 2 ∧
    Transition.cost step (failures () 0) (byteReaders Unit) requestAgain = 1 ∧
    2 ≤ (if (byteReaders Unit).session.store.containsBlock 0 = true then 0 else 1) + 1 := by
  have hrun : (Transition.runs step (byteReaders Unit) requestAgain).isSome = true := by
    decide +kernel
  obtain ⟨g, hg⟩ := Option.isSome_iff_exists.1 hrun
  have hissues : Transition.cost step (issues () 0) (byteReaders Unit) requestAgain = 2 := by
    decide +kernel
  have hfailures : Transition.cost step (failures () 0) (byteReaders Unit) requestAgain = 1 := by
    decide +kernel
  have hle := requests_le (fresh_byteReaders (ι := Unit)) hg () 0
  rw [hissues, hfailures] at hle
  exact ⟨g, hg, hissues, hfailures, hle⟩

/-- `1` if the step ends a call of the reader `i` with an exception. -/
def exceptions (i : ι) (g : Readers ι) (a : ι × Action) : ℕ :=
  if a.1 = i ∧ (g.readers i).throws g.session a.2 = true then 1 else 0

/-- The reader `i` is called for blocks of the disk, and each that is stored is in the evidence
    file. -/
structure Serviceable (lastLBA s B : ℕ) (i : ι) (g : Readers ι) : Prop where
  working : Working lastLBA s B g
  held : ∀ n < blocks ((lastLBA + 1) * s) B, Held ((lastLBA + 1) * s) B n g.session
  called : ∀ m, (g.readers i).control.blockNumber = some m →
    0 ≤ m ∧ m < blocks ((lastLBA + 1) * s) B

theorem Serviceable.step (h : Serviceable lastLBA s B i g) (hu : NoWrap g a)
    (hw : a.1 = i → Works (blocks ((lastLBA + 1) * s) B) a.2) (hs : step g a = some g') :
    Serviceable lastLBA s B i g' := by
  refine ⟨h.working.step hu hs, fun n hn => h.working.held hn (h.held n hn) hs, ?_⟩
  obtain ⟨⟨r, t⟩, hp, rfl⟩ := Option.map_eq_some_iff.1 hs
  obtain ⟨j, a⟩ := a
  dsimp only at hp hw ⊢
  intro m hm
  by_cases hij : i = j
  · subst hij
    rw [Function.update_self] at hm
    rcases (effect_of_step hp).blockNumber with hsame | hnone | ⟨n, rfl, hcall⟩
    · exact h.called m (hsame ▸ hm)
    · rw [hnone] at hm
      cases hm
    · obtain rfl : n = m := Option.some.inj (hcall.symm.trans hm)
      exact hw rfl
  · rw [Function.update_of_ne hij] at hm
    exact h.called m hm

/-- In every run of readers of a disk whose sector numbers are `int`s, in which the read-ahead
    does not overflow: from any state in which a reader is idle, and while nothing of its own
    fails any more, no more of its calls end with an exception than it has requests in flight
    that failed before; whatever the other readers do. -/
theorem exceptions_le (lastLBA s B : ℕ) (hd : ReadGeometry.ValidDisk lastLBA s B)
    (hlba : lastLBA < 2 ^ 31) (g₀ g g' : Readers ι) (l l' : List (ι × Action))
    (h₀ : Opened lastLBA s B g₀) (hu : Transition.AllSteps step NoWrap g₀ l)
    (hheld : ∀ n < blocks ((lastLBA + 1) * s) B, Held ((lastLBA + 1) * s) B n g₀.session)
    (hg : Transition.runs step g₀ l = some g) (i : ι) (hidle : (g.readers i).Idle = true)
    (hu' : Transition.AllSteps step NoWrap g l')
    (hw : ∀ a ∈ l', a.1 = i → Works (blocks ((lastLBA + 1) * s) B) a.2)
    (hg' : Transition.runs step g l' = some g') :
    Transition.cost step (exceptions i) g l' ≤ (g.readers i).failedInFlight.card ∧
      (g.readers i).failedInFlight.card ≤ maxRequestsInFlight := by
  have hboth : Working lastLBA s B g ∧
      ∀ n < blocks ((lastLBA + 1) * s) B, Held ((lastLBA + 1) * s) B n g.session :=
    Transition.runs_invariant (I := fun g => Working lastLBA s B g ∧
        ∀ n < blocks ((lastLBA + 1) * s) B, Held ((lastLBA + 1) * s) B n g.session)
      (fun _ _ _ ha h hs => ⟨h.1.step ha hs, fun n hn => h.1.held hn (h.2 n hn) hs⟩) hg hu
      ⟨h₀.working (h₀.accepted hd hlba), hheld⟩
  have hstart : Serviceable lastLBA s B i g := by
    refine ⟨hboth.1, hboth.2, fun m hm => ?_⟩
    rw [blockNumber_of_idle hidle] at hm
    cases hm
  -- a call that throws uses up a request that failed before; those that are sent now do not fail
  have hstep : ∀ t a u, (NoWrap t a ∧ (a.1 = i → Works (blocks ((lastLBA + 1) * s) B) a.2)) →
      Serviceable lastLBA s B i t → step t a = some u →
      exceptions i t a + (u.readers i).failedInFlight.card ≤
        (t.readers i).failedInFlight.card + 0 := by
    rintro t ⟨j, a⟩ u ⟨-, hw⟩ h hs
    obtain ⟨⟨r, v⟩, hp, rfl⟩ := Option.map_eq_some_iff.1 hs
    dsimp only at hp hw ⊢
    by_cases hij : i = j
    · subst hij
      have hsize : (t.readers i).geometry.readBlockSize = B := by rw [h.working.geometry i]; rfl
      have hread : ∀ k < blocks ((lastLBA + 1) * s) B,
          ∃ c, (t.readers i).geometry.read10 k none = .ok c := by
        intro k hk
        rw [h.working.geometry i]
        obtain ⟨c, hc⟩ := ReadGeometry.exact_of_lt hd hk ((hd.lt_blocks_iff.1 hk).trans_lt hlba)
        exact ⟨c, hc.1⟩
      have hle := throws_add_failedInFlight_le (h.working.inFlight i) h.working.room
        (h.working.exclusive i) hd.blockSize_pos hd.blockSize_lt hsize hread h.working.store
        h.working.countBlocks_eq h.held h.called (hw rfl) hp
      rw [Function.update_self, exceptions, Nat.add_zero]
      simpa only [true_and] using hle
    · rw [Function.update_of_ne hij, exceptions, if_neg fun h => hij h.1.symm, Nat.zero_add]
      exact le_rfl
  have hcost : Transition.cost step (exceptions i) g l' + (g'.readers i).failedInFlight.card ≤
      (g.readers i).failedInFlight.card + Transition.cost step (fun _ _ => 0) g l' :=
    Transition.runs_budget (fun _ _ _ ha h hs => h.step ha.1 ha.2 hs) hstep hg'
      (hu'.and (.of_forall fun _ a ha => hw a ha)) hstart
  rw [Transition.cost_zero] at hcost
  refine ⟨by omega, (Finset.card_le_card ?_).trans (hboth.1.inFlight i).card⟩
  exact Finset.filter_subset _ _

/-- A call fails to wait for its block; then the request for the block fails. -/
def failedBefore : List (Unit × Action) :=
  (requestBlock ++ go :: go :: go :: go ::
    [.advance ⟨0, .ok, some ""⟩, .finish 0 (.failed "")]).map fun a => ((), a)

/-- The next call meets this request, and the one after it reads the block. -/
def readAgain : List (Unit × Action) :=
  (.call 0 :: List.replicate 5 go ++ requestBlock ++ go :: go :: go :: go ::
    .finish 0 (.good (.zeros 1)) :: List.replicate 5 go).map fun a => ((), a)

theorem exceptions_le_again : ∃ g g',
    Transition.runs step (byteReaders Unit) failedBefore = some g ∧
    Transition.runs step g readAgain = some g' ∧
    Transition.cost step (exceptions ()) g readAgain = 1 ∧
    1 ≤ (g.readers ()).failedInFlight.card := by
  have hrun : (Transition.runs step (byteReaders Unit) failedBefore).map (fun g =>
      ((g.readers ()).Idle, Transition.cost step (exceptions ()) g readAgain,
        (Transition.runs step g readAgain).isSome)) = some (true, 1, true) := by decide +kernel
  obtain ⟨g, hg, hval⟩ := Option.map_eq_some_iff.1 hrun
  simp only [Prod.mk.injEq] at hval
  obtain ⟨hidle, hcost, hend⟩ := hval
  obtain ⟨g', hg'⟩ := Option.isSome_iff_exists.1 hend
  have hopened := opened_byteReaders Unit
  have hw : Working 0 1 1 (byteReaders Unit) :=
    hopened.working (hopened.accepted validDisk_byte (by decide))
  have hworks : ∀ a ∈ readAgain, a.1 = () → Works (blocks ((0 + 1) * 1) 1) a.2 := by decide
  have hheld : ∀ n < blocks ((0 + 1) * 1) 1, Held ((0 + 1) * 1) 1 n (byteReaders Unit).session := by
    intro n _ hn
    cases hn
  have hle := exceptions_le 0 1 1 validDisk_byte (by decide) (byteReaders Unit) g g' failedBefore
    readAgain (opened_byteReaders Unit) (hw.noWrap (by decide)) hheld hg () hidle
    ((hw.runs (hw.noWrap (by decide)) hg).noWrap (by decide)) hworks hg'
  rw [hcost] at hle
  exact ⟨g, g', hg, hg', hcost, hle.1⟩

end Readers

end Raqet
