import Raqet.IScsi.LogicalUnit
import Raqet.Transition

/-!
# The future of a read

An `IScsiRead10Callback` is the callback of a `READ10` command, and the future of its
result (`IScsiReadFuture`). The callback is invoked once, at any time. Meanwhile, the
caller may ask whether the read is done, and call `complete()`, which first rethrows the
exception of the callback, if there is one, and then waits for the callback.

It does not look for an exception again after the wait. So a read that fails while
`complete()` waits is reported as one of `0` bytes (`not_documented_late`).

* `OnTime`: a callback of a read that failed comes before `complete()` looks for the
  exception, and the wait does not fail;
* `documented_iff`: `complete()` does what the documentation says exactly in the runs whose
  steps are on time.
-/

namespace Raqet

open Java Transition

/-- How `sync()` fails. -/
inductive SyncError
  | poll
  | service (error : String)

/-- The exception of `sync()`. -/
def SyncError.exception : SyncError → Exn
  | .poll => .iScsi "Poll failed"
  | .service error => .iScsi ("iscsi_service failed with : " ++ error)

/-- Where the thread that calls `complete()` is. -/
inductive Completing
  /-- It was not called yet. -/
  | idle
  /-- At the beginning of `rethrowSuppressedExceptions()`. -/
  | rethrow
  /-- There, after `_exception` was read. -/
  | clear (e : Option Exn)
  /-- The head of the loop. -/
  | wait
  /-- In the loop, `_connection.sync()`. -/
  | sync
  | ended (result : Except Exn ℕ)

/-- The call has not seen an exception, and has not ended. -/
def Completing.Waits : Completing → Prop
  | .clear (some _) => False
  | .ended _ => False
  | _ => True

/-- The call has not seen an exception, and does not look for one any more. -/
def Completing.LooksNoMore : Completing → Prop
  | .clear none => True
  | .wait => True
  | .sync => True
  | .ended (.ok 0) => True
  | _ => False

/-- A read, and the call of `complete()`. -/
structure ReadFuture where
  request : IScsiRead10Callback
  /-- What the callback was invoked with. -/
  outcome : Option Read10Outcome
  completing : Completing

namespace ReadFuture

/-- What may happen to a read. -/
inductive Action
  /-- `isDone()` is called, and returns this. -/
  | isDone (answer : Bool)
  /-- `complete()` is called. -/
  | complete
  /-- Its thread takes a step; this is how `sync()` fails. -/
  | advance (error : Option SyncError)
  /-- The callback is invoked. -/
  | callback (outcome : Read10Outcome)

/-- A new read. -/
def new (command : Read10) (buffer : Block) : ReadFuture := ⟨.new command buffer, none, .idle⟩

/-- A step of the thread of `complete()`. -/
def advance (s : ReadFuture) (error : Option SyncError) : Option ReadFuture :=
  match s.completing with
  | .idle => none
  | .rethrow => some { s with completing := .clear s.request.exception }
  -- `_exception` is cleared before it is rethrown.
  | .clear e => some { s with
      request := { s.request with exception := none }
      completing := e.elim .wait fun e => .ended (.error e) }
  | .wait => some { s with
      completing := if s.request.finished then .ended (.ok s.request.bytesRead) else .sync }
  | .sync => some { s with completing := error.elim .wait fun e => .ended (.error e.exception) }
  | .ended _ => none

/-- A step. The callback is invoked once, and `complete()` is called once. -/
def step (s : ReadFuture) : Action → Option ReadFuture
  | .isDone answer => if answer = s.request.finished then some s else none
  | .complete =>
    match s.completing with
    | .idle => some { s with completing := .rethrow }
    | _ => none
  | .advance error => s.advance error
  | .callback outcome =>
    match s.outcome with
    | none => some { s with request := s.request.callback outcome, outcome := some outcome }
    | some _ => none

/-- What `complete()` returns or throws, as it is documented. -/
def documented : Read10Outcome → Except Exn ℕ
  | .failed error => .error (libiscsiError "READ10 command failed" error)
  | .good data => .ok data.length

/-- The step is on time. -/
def OnTime (s : ReadFuture) : Action → Prop
  | .callback (.failed _) => s.completing = .idle ∨ s.completing = .rethrow
  | .advance (some _) => s.completing ≠ .sync
  | _ => True

/-! ## In time, and too late -/

/-- So far, all steps were on time. -/
inductive InTime : ReadFuture → Prop
  | pending {q : IScsiRead10Callback} {c : Completing} (finished : q.finished = false)
      (exception : q.exception = none) (bytesRead : q.bytesRead = 0) (waits : c.Waits) :
      InTime ⟨q, none, c⟩
  | good {q : IScsiRead10Callback} {data : Buffer Byte} {c : Completing}
      (finished : q.finished = true) (exception : q.exception = none)
      (bytesRead : q.bytesRead = data.length) (waits : c.Waits ∨ c = .ended (.ok data.length)) :
      InTime ⟨q, some (.good data), c⟩
  | failed {q : IScsiRead10Callback} {error : String} {c : Completing} {e : Exn}
      (finished : q.finished = true) (documented : documented (.failed error) = .error e)
      (seen : ((c = .idle ∨ c = .rethrow) ∧ q.exception = some e) ∨ c = .clear (some e) ∨
        c = .ended (.error e)) :
      InTime ⟨q, some (.failed error), c⟩

/-- A step was too late: the wait failed, or the failure of the read will not be seen. -/
inductive TooLate : ReadFuture → Prop
  | sync {s : ReadFuture} (e : SyncError) (ended : s.completing = .ended (.error e.exception)) :
      TooLate s
  | lost {q : IScsiRead10Callback} {error : String} {c : Completing} (bytesRead : q.bytesRead = 0)
      (looksNoMore : c.LooksNoMore) : TooLate ⟨q, some (.failed error), c⟩

variable {s s' t : ReadFuture} {a : Action} {l : List Action} {command : Read10} {buffer : Block}
  {outcome : Read10Outcome} {x : Except Exn ℕ}

theorem inTime_new : InTime (new command buffer) := .pending rfl rfl rfl trivial

theorem complete_eq_some :
    step s .complete = some s' ↔ s.completing = .idle ∧ s' = { s with completing := .rethrow } := by
  rw [step]
  cases s.completing <;> simp [eq_comm]

theorem callback_eq_some : step s (.callback outcome) = some s' ↔
    s.outcome = none ∧
      s' = { s with request := s.request.callback outcome, outcome := some outcome } := by
  rw [step]
  cases s.outcome <;> simp [eq_comm]

theorem isDone_eq_some {answer : Bool} :
    step s (.isDone answer) = some s' ↔ answer = s.request.finished ∧ s' = s := by
  rw [step]
  split_ifs with h <;> simp [h, eq_comm]

/-- A step of `complete()` from a state in which nothing was too late, unless the wait
    fails. -/
theorem InTime.advance {error : Option SyncError} (h : InTime s) (hs : s.advance error = some s')
    (he : error = none ∨ s.completing ≠ .sync) : InTime s' := by
  cases h with
  | @pending q c hf hx hb hc =>
    cases c with
    | idle => cases hs
    | rethrow =>
      cases hs
      exact .pending hf hx hb (by rw [hx]; trivial)
    | clear e =>
      cases e with
      | none =>
        cases hs
        exact .pending hf rfl hb trivial
      -- it waits as long as there is no answer
      | some e => cases hc
    | wait =>
      cases hs
      exact .pending hf hx hb (by rw [hf]; trivial)
    | sync =>
      obtain rfl := he.resolve_right (fun h => h rfl)
      cases hs
      exact .pending hf hx hb trivial
    | ended x => cases hs
  | @good q data c hf hx hb hc =>
    cases c with
    | idle => cases hs
    | rethrow =>
      cases hs
      exact .good hf hx hb (.inl (by rw [hx]; trivial))
    | clear e =>
      cases e with
      | none =>
        cases hs
        exact .good hf rfl hb (.inl trivial)
      | some e => rcases hc with hc | hc <;> cases hc
    | wait =>
      cases hs
      exact .good hf hx hb (.inr (by rw [hf, hb]; rfl))
    | sync =>
      obtain rfl := he.resolve_right (fun h => h rfl)
      cases hs
      exact .good hf hx hb (.inl trivial)
    | ended x => cases hs
  | failed hf hd hc =>
    rcases hc with ⟨rfl | rfl, hx⟩ | rfl | rfl
    · cases hs
    · cases hs
      exact .failed hf hd (.inr (.inl (congrArg _ hx)))
    · cases hs
      exact .failed hf hd (.inr (.inr rfl))
    · cases hs

/-- The callback, from a state in which nothing was too late. -/
theorem InTime.callback (h : InTime s) (hs : step s (.callback outcome) = some s') :
    (OnTime s (.callback outcome) ∧ InTime s') ∨ (¬OnTime s (.callback outcome) ∧ TooLate s') := by
  obtain ⟨hnone, rfl⟩ := callback_eq_some.1 hs
  cases h with
  | good => cases hnone
  | failed => cases hnone
  | @pending q c hf hx hb hc =>
    cases outcome with
    | good data => exact .inl ⟨trivial, .good rfl hx rfl (.inl hc)⟩
    | failed error =>
      have hexception : (q.callback (.failed error)).exception =
          some (libiscsiError "READ10 command failed" error) := by
        rw [IScsiRead10Callback.callback, hx]
        rfl
      -- after the thread has read the exception, it finds none
      by_cases htime : c = .idle ∨ c = .rethrow
      · exact .inl ⟨htime, .failed rfl rfl (.inl ⟨htime, hexception⟩)⟩
      · refine .inr ⟨htime, .lost hb ?_⟩
        cases c with
        | idle => exact htime (.inl rfl)
        | rethrow => exact htime (.inr rfl)
        | clear e =>
          cases e with
          | none => trivial
          | some e => cases hc
        | wait => trivial
        | sync => trivial
        | ended x => cases hc

/-- A step from a state in which nothing was too late: it is on time exactly when nothing
    is too late after it. -/
theorem InTime.step (h : InTime s) (hs : step s a = some s') :
    (OnTime s a ∧ InTime s') ∨ (¬OnTime s a ∧ TooLate s') := by
  cases a with
  | isDone answer =>
    obtain ⟨-, rfl⟩ := isDone_eq_some.1 hs
    exact .inl ⟨trivial, h⟩
  | complete =>
    obtain ⟨hidle, rfl⟩ := complete_eq_some.1 hs
    refine .inl ⟨trivial, ?_⟩
    cases h with
    | pending hf hx hb hc => exact .pending hf hx hb trivial
    | good hf hx hb hc => exact .good hf hx hb (.inl trivial)
    | failed hf hd hc =>
      rcases hc with ⟨-, hx⟩ | rfl | rfl
      · exact .failed hf hd (.inl ⟨.inr rfl, hx⟩)
      · cases hidle
      · cases hidle
  | callback outcome => exact h.callback hs
  | advance error =>
    cases error with
    | none => exact .inl ⟨trivial, h.advance hs (.inl rfl)⟩
    | some e =>
      by_cases hsync : s.completing = .sync
      · refine .inr ⟨fun hne => hne hsync, .sync e ?_⟩
        change s.advance (some e) = some s' at hs
        rw [ReadFuture.advance, hsync] at hs
        cases hs
        rfl
      · exact .inl ⟨hsync, h.advance hs (.inr hsync)⟩

/-- What was too late remains so. -/
theorem TooLate.step (h : TooLate s) (hs : step s a = some s') : TooLate s' := by
  cases a with
  | isDone answer =>
    obtain ⟨-, rfl⟩ := isDone_eq_some.1 hs
    exact h
  | complete =>
    obtain ⟨hidle, -⟩ := complete_eq_some.1 hs
    cases h with
    | sync e he =>
      rw [he] at hidle
      cases hidle
    | @lost q _ c hb hc =>
      -- a call that looks for no exception was made before
      obtain rfl : c = .idle := hidle
      cases hc
  | callback outcome =>
    obtain ⟨hnone, rfl⟩ := callback_eq_some.1 hs
    cases h with
    | sync e he => exact .sync e he
    | lost hb hc => cases hnone
  | advance error =>
    change s.advance error = some s' at hs
    cases h with
    | sync e he =>
      rw [ReadFuture.advance, he] at hs
      cases hs
    | @lost q _ c hb hc =>
      cases c with
      | idle => cases hc
      | rethrow => cases hc
      | clear e =>
        cases e with
        | none =>
          cases hs
          exact .lost hb trivial
        | some e => cases hc
      | wait =>
        cases hs
        refine .lost hb ?_
        cases q.finished with
        | false => trivial
        | true => rw [if_pos rfl, hb]; trivial
      | sync =>
        cases hs
        cases error with
        | none => exact .lost hb trivial
        | some e => exact .sync e rfl
      | ended x => cases hs

/-! ## The documentation -/

/-- The failure of a wait is not the failure of a read. -/
theorem exception_ne (e : SyncError) (error : String) :
    e.exception ≠ libiscsiError "READ10 command failed" error := by
  -- only the message of the read begins with an `R`
  have hread : ∀ message, .iScsi message = libiscsiError "READ10 command failed" error →
      message.toList.head? = some 'R' := by
    intro message h
    rw [Exn.iScsi.inj h]
    simp [String.toList_append]
  intro h
  cases e with
  | poll => exact absurd (hread _ h) (by decide)
  | service message => exact absurd (hread _ h) (by simp [String.toList_append])

/-- In time, `complete()` does what is documented. -/
theorem InTime.documented (h : InTime s) (ho : s.outcome = some outcome)
    (hx : s.completing = .ended x) : x = documented outcome := by
  cases h with
  | pending => cases ho
  | @good q data c hf hx' hb hc =>
    cases ho
    obtain rfl : c = .ended x := hx
    rcases hc with hc | hc
    · cases hc
    · exact Completing.ended.inj hc
  | @failed q error c e hf hd hc =>
    cases ho
    obtain rfl : c = .ended x := hx
    rcases hc with ⟨hc | hc, -⟩ | hc | hc
    · cases hc
    · cases hc
    · cases hc
    · rw [hd]
      exact Completing.ended.inj hc

/-- Too late, it does not. -/
theorem TooLate.not_documented (h : TooLate s) (ho : s.outcome = some outcome)
    (hx : s.completing = .ended x) : x ≠ ReadFuture.documented outcome := by
  cases h with
  | sync e he =>
    obtain rfl : .error e.exception = x := Completing.ended.inj (he.symm.trans hx)
    cases outcome with
    | good data => rintro ⟨⟩
    | failed error => exact fun h => exception_ne e error (Except.error.inj h)
  | @lost q error c hb hc =>
    cases ho
    obtain rfl : c = .ended x := hx
    cases x with
    | error e => cases hc
    | ok n => rintro ⟨⟩

/-! ## Its end -/

/-- The call of `complete()` ends within `n` steps of its thread. -/
def EndsWithin (n : ℕ) (s : ReadFuture) : Prop :=
  ∃ k ≤ n, ∃ t x, runs step s (List.replicate k (.advance none)) = some t ∧ t.completing = .ended x

theorem EndsWithin.of_step {n : ℕ} (h : EndsWithin n s') (hs : s.advance none = some s') :
    EndsWithin (n + 1) s := by
  obtain ⟨k, hk, t, x, ht, hx⟩ := h
  exact ⟨k + 1, Nat.succ_le_succ hk, t, x, runs_cons.2 ⟨s', hs, ht⟩, hx⟩

theorem EndsWithin.mono {m n : ℕ} (h : EndsWithin m s) (hn : m ≤ n) : EndsWithin n s := by
  obtain ⟨k, hk, hend⟩ := h
  exact ⟨k, hk.trans hn, hend⟩

theorem endsWithin_zero (hx : s.completing = .ended x) : EndsWithin 0 s :=
  ⟨0, le_rfl, s, x, rfl, hx⟩

theorem endsWithin_wait (hf : s.request.finished = true) (hc : s.completing = .wait) :
    EndsWithin 1 s := by
  have hs : s.advance none = some { s with completing := .ended (.ok s.request.bytesRead) } := by
    rw [advance, hc]
    dsimp only
    rw [if_pos hf]
  exact (endsWithin_zero rfl).of_step hs

theorem endsWithin_clear {e : Option Exn} (hf : s.request.finished = true)
    (hc : s.completing = .clear e) : EndsWithin 2 s := by
  cases e with
  | none =>
    have hs : s.advance none = some { s with
        request := { s.request with exception := none }, completing := .wait } := by
      rw [advance, hc]
      rfl
    exact (endsWithin_wait (by exact hf) rfl).of_step hs
  | some e =>
    have hs : s.advance none = some { s with
        request := { s.request with exception := none }, completing := .ended (.error e) } := by
      rw [advance, hc]
      rfl
    exact ((endsWithin_zero rfl).of_step hs).mono (by decide)

/-- Once the callback was invoked, the call is at most three steps from its end, unless
    the wait fails. -/
theorem endsWithin_three (hf : s.request.finished = true) (hc : s.completing ≠ .idle) :
    EndsWithin 3 s := by
  cases h : s.completing with
  | idle => exact absurd h hc
  | rethrow =>
    have hs : s.advance none = some { s with completing := .clear s.request.exception } := by
      rw [advance, h]
    exact (endsWithin_clear (by exact hf) rfl).of_step hs
  | clear e => exact (endsWithin_clear hf h).mono (by decide)
  | wait => exact (endsWithin_wait hf h).mono (by decide)
  | sync =>
    have hs : s.advance none = some { s with completing := .wait } := by
      rw [advance, h]
      rfl
    exact ((endsWithin_wait (by exact hf) rfl).of_step hs).mono (by decide)
  | ended x => exact (endsWithin_zero h).mono (by decide)

/-- The read is done once the callback was invoked. -/
theorem finished_of_runs (h : runs step (new command buffer) l = some s)
    (ho : s.outcome = some outcome) : s.request.finished = true := by
  have hinv : s.outcome.isSome = true → s.request.finished = true := by
    refine runs_invariant (P := fun _ _ => True)
      (I := fun s => s.outcome.isSome = true → s.request.finished = true)
      ?_ h (.of_forall fun _ _ _ => trivial) (by rintro ⟨⟩)
    intro s a s' _ hs ha
    cases a with
    | isDone answer =>
      obtain ⟨-, rfl⟩ := isDone_eq_some.1 ha
      exact hs
    | complete =>
      obtain ⟨-, rfl⟩ := complete_eq_some.1 ha
      exact hs
    | callback outcome =>
      obtain ⟨-, rfl⟩ := callback_eq_some.1 ha
      cases outcome <;> exact fun _ => rfl
    | advance error =>
      change s.advance error = some s' at ha
      rw [advance] at ha
      cases hc : s.completing <;> rw [hc] at ha <;> cases ha <;> exact hs
  exact hinv (by rw [ho]; rfl)

/-- For every read, outcome, and order of steps, once the callback was invoked: a call of
    `complete()` that has ended did what is documented exactly when all steps were on
    time; and a call that has not ended is about to. -/
theorem documented_iff (command : Read10) (buffer : Block) (l : List Action)
    (h : runs step (new command buffer) l = some s) (ho : s.outcome = some outcome) :
    (∀ x, s.completing = .ended x →
      (x = documented outcome ↔ AllSteps step OnTime (new command buffer) l)) ∧
    (s.completing ≠ .idle → EndsWithin 3 s) := by
  refine ⟨fun x hx => ?_, endsWithin_three (finished_of_runs h ho)⟩
  -- a run is in time up to its first step that is not on time, and too late from there on
  rcases runs_dichotomy
    (fun s a t hs ha hP => ((InTime.step hs ha).resolve_right fun hn => hn.1 hP).2)
    (fun s a t hs ha hP => ((InTime.step hs ha).resolve_left fun hn => hP hn.1).2)
    (fun s a t hs ha => TooLate.step hs ha) h inTime_new with ⟨hall, hs⟩ | ⟨hall, hs⟩
  · exact iff_of_true (hs.documented ho hx) hall
  · exact iff_of_false (hs.not_documented ho hx) hall

/-- A read of one sector of one byte. -/
def byteRead : ReadFuture := new ⟨0, 1, 1⟩ (.zeros 1)

/-- It fails, and then `complete()` is called. -/
def earlyRun : List Action :=
  [.isDone false, .callback (.failed "aborted"), .isDone true, .complete, .advance none,
    .advance none]

theorem documented_iff_early :
    ∃ s, runs step byteRead earlyRun = some s ∧
      (∀ x, s.completing = .ended x →
        (x = documented (.failed "aborted") ↔ AllSteps step OnTime byteRead earlyRun)) ∧
      (s.completing ≠ .idle → EndsWithin 3 s) :=
  ⟨_, rfl, documented_iff ⟨0, 1, 1⟩ (.zeros 1) earlyRun rfl rfl⟩

/-- It fails while `complete()` waits. -/
def lateRun : List Action :=
  [.complete, .advance none, .advance none, .advance none, .callback (.failed "aborted"),
    .advance none, .advance none]

/-- The call returns that `0` bytes were read. -/
theorem not_documented_late : ∃ s, runs step byteRead lateRun = some s ∧
    s.outcome = some (.failed "aborted") ∧ s.completing = .ended (.ok 0) ∧
    .ok 0 ≠ documented (.failed "aborted") :=
  ⟨_, rfl, rfl, rfl, by rintro ⟨⟩⟩

end ReadFuture

end Raqet
