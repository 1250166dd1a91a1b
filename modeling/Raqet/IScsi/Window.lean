import Raqet.IScsi.InFlight

/-!
# The window of the read-ahead

`determineReadAheadBlocks(n)` looks for the first block from `n` on that was not yet
requested, and returns twice its distance from `n`. The comments promise that the
window doubles on every sequential read.

A reader that retrieves one block after another (`Scan`), beginning where nothing is
stored or requested, has requested the blocks up to the one after the current one
when it asks for the window (`Course`). So this is `2` in every call: the blocks that it
covers are the current one and the next one, as before (`doubles_iff`).
-/

namespace Raqet

open Java EvidenceStore

namespace IScsiBlockReader

variable {r r' : IScsiBlockReader} {s s' : Session} {a : Action} {e : Env} {m n k u v w : ℕ}
  {q : IScsiRead10Callback} {control : Control}

/-- What `determineReadAheadBlocks` returns in the next step of the thread, if it does. -/
def window (r : IScsiBlockReader) (s : Session) : Option ℕ :=
  match r.control with
  | .determineReadAheadBlocks n i =>
    if i < (maxReadAheadBlocks + 1) / 2 then
      if toInt (n + i) < 0 ∨ r.hasBlockBeenRequested s (toInt (n + i)).toNat then none
      else some (i * 2)
    else some maxReadAheadBlocks
  | _ => none

/-- With the window that is returned, the read-ahead starts. -/
theorem advance_window (hc : r.control = .determineReadAheadBlocks n k)
    (hw : r.window s = some w) (e : Env) : r.advance s e = some (r.startReadAhead n w, s) := by
  rw [window, hc] at hw
  rw [advance, hc]
  dsimp only at hw ⊢
  split_ifs at hw with hk hreq
  · cases hw
    rw [not_or] at hreq
    rw [if_pos hk, if_neg hreq.1, if_neg hreq.2]
  · cases hw
    rw [if_neg hk]

/-! ## The frontier -/

/-- The blocks from `n` on that were requested, or are stored, go no further than `u`. -/
def Frontier (n u : ℕ) (r : IScsiBlockReader) (s : Session) : Prop :=
  ∀ k, n ≤ k → r.hasBlockBeenRequested s k = true → k ≤ u

theorem Frontier.mono (h : Frontier n u r s) (hu : u ≤ v) : Frontier n v r s :=
  fun k hk hreq => (h k hk hreq).trans hu

/-- It depends on what was requested, and is stored. -/
theorem Frontier.of_imp (h : Frontier n u r s)
    (himp : ∀ k, r'.hasBlockBeenRequested s' k = true → r.hasBlockBeenRequested s k = true) :
    Frontier n u r' s' := fun k hk hreq => h k hk (himp k hreq)

/-- A new request goes no further than `u` if its block does not. -/
theorem Frontier.requestBlock (h : Frontier n u r s) (hm : m ≤ u) (e : Env) (control : Control) :
    Frontier n u (r.requestBlock m e control) s := by
  intro k hk hreq
  rw [IScsiBlockReader.requestBlock] at hreq
  cases hread : r.geometry.read10 m e.error with
  | error x =>
    rw [hread] at hreq
    exact h k hk hreq
  | ok command =>
    rw [hread] at hreq
    rw [hasBlockBeenRequested_iff, Finset.mem_union] at hreq
    dsimp only at hreq
    rw [keys_insert, Finset.mem_insert, or_assoc, ← Finset.mem_union] at hreq
    rcases hreq with rfl | hreq
    · exact hm
    · exact h k hk (hasBlockBeenRequested_iff.2 hreq)

/-- Completing a request only moves its block to the store. -/
theorem hasBlockBeenRequested_completeRequest (io : Io)
    (h : (r.completeRequest s io k control).1.hasBlockBeenRequested
      (r.completeRequest s io k control).2 m = true) : r.hasBlockBeenRequested s m = true := by
  by_cases hk : k ∈ r.requestsInFlight
  · obtain ⟨q, hq⟩ := Finmap.mem_iff.1 hk
    have hforget : ∀ j ∈ (r.forget k).requestsInFlight.keys, j ∈ r.requestsInFlight.keys := by
      intro j hj
      rw [keys_forget] at hj
      exact Finset.mem_of_mem_erase hj
    rcases completeRequest_cases hq s io control with ⟨-, he⟩ | ⟨-, x, -, he⟩ |
      ⟨-, -, x, -, hb, he⟩ | ⟨-, -, -, hb, he⟩ <;> rw [he] at h
    · exact h
    all_goals
      rw [hasBlockBeenRequested_iff, Finset.mem_union] at h ⊢
    · exact h.imp_left (hforget m)
    · rw [hb] at h
      exact h.imp_left (hforget m)
    · rw [hb, Finset.mem_insert] at h
      rcases h with h | rfl | h
      · exact .inl (hforget m h)
      · exact .inl (Finmap.mem_keys.2 hk)
      · exact .inr h
  · rw [completeRequest, Finmap.lookup_eq_none.2 hk] at h
    exact h

/-! ## Where the thread is -/

/-- The block `m` is the one that is retrieved, the blocks from `n` on having been
    retrieved before it, and nothing further was requested. -/
structure Retrieving (n next m : ℕ) (r : IScsiBlockReader) (s : Session) : Prop where
  next_eq : next = m + 1
  le : n ≤ m
  lt : (m : ℤ) < r.geometry.totalBlockCount
  frontier : Frontier n m r s

/-- What holds where the thread is, when the blocks from `n` on are retrieved, and `next`
    will be the next one. -/
def Course (n next : ℕ) (r : IScsiBlockReader) (s : Session) : Control → Prop
  | .retrieveBlock b => ∃ m : ℕ, b = m ∧ next = m + 1 ∧ n ≤ m ∧ Frontier n m r s
  | .hasBlockBeenRequested m => Retrieving n next m r s
  | .waitForFreeSlot m => Retrieving n next m r s
  | .waitForFreeSlotSync m => Retrieving n next m r s
  | .completeRequests (.waitForFreeSlot m) _ => Retrieving n next m r s
  | .requestBlock m => Retrieving n next m r s
  | .determineReadAheadBlocks m i =>
    Retrieving n next m r s ∧ (i = 1 ∨ i = 0 ∧ r.hasBlockBeenRequested s m = true)
  | .completeRequests (.requestBlocksForReadAhead _ last) _ => last ≤ next ∧ Frontier n next r s
  | .requestBlocksForReadAhead _ _ last => last ≤ next ∧ Frontier n next r s
  | .requestBlockForReadAhead _ i last => i ≤ last ∧ last ≤ next ∧ Frontier n next r s
  | _ => Frontier n next r s

/-- The blocks from `n` on are retrieved, one after another. -/
structure Scanning (n next : ℕ) (r : IScsiBlockReader) (s : Session) : Prop where
  /-- The number of blocks is an `int`. -/
  totalBlockCount : r.geometry.totalBlockCount < 2 ^ 31
  course : Course n next r s r.control

variable {next : ℕ}

theorem Retrieving.frontier_next (h : Retrieving n next m r s) : Frontier n next r s := by
  refine h.frontier.mono ?_
  have := h.next_eq
  omega

theorem Retrieving.goto (h : Retrieving n next m r s) (control : Control) :
    Retrieving n next m (r.goto control) s := ⟨h.next_eq, h.le, h.lt, h.frontier⟩

/-- The window is `2`. -/
theorem Scanning.window_eq (h : Scanning n next r s) (hw : r.window s = some w) : w = 2 := by
  have hcourse := h.course
  have htotal := h.totalBlockCount
  rw [window] at hw
  cases hc : r.control with
  | determineReadAheadBlocks m i =>
    rw [hc] at hw hcourse
    obtain ⟨hret, hi⟩ := hcourse
    have hlt := hret.lt
    dsimp only at hw
    rcases hi with rfl | ⟨rfl, hreq⟩
    · rw [if_pos (by decide)] at hw
      split_ifs at hw
      exact (Option.some.inj hw).symm
    · have hint : toInt ((m : ℤ) + (0 : ℕ)) = m := by rw [toInt_eq_self] <;> omega
      rw [if_pos (by decide), hint, Int.toNat_natCast, if_pos (.inr hreq)] at hw
      cases hw
  | _ =>
    rw [hc] at hw
    cases hw

/-- The read-ahead goes one block further than the one that is retrieved. -/
theorem last_le {total : ℤ} (hm : m < total) (htotal : total < 2 ^ 31) :
    toInt (min (toInt (m + 2)) total - 1) ≤ m + 1 := by
  by_cases hm' : (m : ℤ) + 2 < 2 ^ 31
  · rw [toInt_eq_self (x := m + 2) (by omega) hm', toInt_eq_self (by omega) (by omega)]
    omega
  · -- The end of the window overflows, and then its last block does.
    have hwrap : (m : ℤ) + 2 = 2 ^ 31 := by omega
    have hmin : toInt (2 ^ 31) = -2 ^ 31 := by decide
    have hlast : toInt (-2 ^ 31 - 1) = 2 ^ 31 - 1 := by decide
    rw [hwrap, hmin, min_eq_left (by omega), hlast]
    omega

/-- A request is sent, or the call ends. -/
theorem requestBlock_cases (r : IScsiBlockReader) (m : ℕ) (e : Env) (control : Control) :
    (∃ x, r.requestBlock m e control = r.throw x) ∨
    ((r.requestBlock m e control).control = control ∧
      (r.requestBlock m e control).geometry = r.geometry ∧
      ∀ s, (r.requestBlock m e control).hasBlockBeenRequested s m = true) := by
  rw [IScsiBlockReader.requestBlock]
  cases hread : r.geometry.read10 m e.error with
  | error x => exact .inl ⟨x, rfl⟩
  | ok command =>
    refine .inr ⟨rfl, rfl, fun s => hasBlockBeenRequested_iff.2 (Finset.mem_union_left _ ?_)⟩
    dsimp only
    rw [keys_insert]
    exact Finset.mem_insert_self _ _

/-- The loop of `completeRequests()` goes on, or the call ends. -/
theorem control_completeRequest (r : IScsiBlockReader) (s : Session) (io : Io) (k : ℕ)
    (control : Control) :
    (r.completeRequest s io k control).1.geometry = r.geometry ∧
    ((r.completeRequest s io k control).1.control = control ∨
      ∃ x, (r.completeRequest s io k control).1.control = .returned x) := by
  cases hq : r.requestsInFlight.lookup k with
  | none =>
    rw [completeRequest, hq]
    exact ⟨rfl, .inr ⟨_, rfl⟩⟩
  | some q =>
    rcases completeRequest_cases hq s io control with ⟨-, he⟩ | ⟨-, x, -, he⟩ |
      ⟨-, -, x, -, -, he⟩ | ⟨-, -, -, -, he⟩ <;> rw [he]
    exacts [⟨rfl, .inl rfl⟩, ⟨rfl, .inr ⟨_, rfl⟩⟩, ⟨rfl, .inr ⟨_, rfl⟩⟩, ⟨rfl, .inl rfl⟩]

/-- The body of the loop of `completeRequests()`. -/
theorem Course.completeRequest {caller : Caller} {rest : Finset ℕ}
    (h : Course n next r s (.completeRequests caller rest)) (io : Io) (k : ℕ) (rest' : Finset ℕ) :
    Course n next (r.completeRequest s io k (.completeRequests caller rest')).1
      (r.completeRequest s io k (.completeRequests caller rest')).2
      (r.completeRequest s io k (.completeRequests caller rest')).1.control := by
  obtain ⟨hgeo, hcontrol⟩ := control_completeRequest r s io k (.completeRequests caller rest')
  have hf : ∀ u, Frontier n u r s → Frontier n u
      (r.completeRequest s io k (.completeRequests caller rest')).1
      (r.completeRequest s io k (.completeRequests caller rest')).2 := fun u hu =>
    hu.of_imp fun _ => hasBlockBeenRequested_completeRequest io
  rcases hcontrol with hc | ⟨x, hc⟩ <;> rw [hc]
  · cases caller with
    | waitForFreeSlot m => exact ⟨h.next_eq, h.le, by rw [hgeo]; exact h.lt, hf m h.frontier⟩
    | requestBlocksForReadAhead m last => exact ⟨h.1, hf next h.2⟩
    | retrieveBlock m => exact hf next h
  · cases caller with
    | waitForFreeSlot m => exact hf next h.frontier_next
    | requestBlocksForReadAhead m last => exact hf next h.2
    | retrieveBlock m => exact hf next h

/-- A step of the thread. -/
theorem Scanning.advance (h : Scanning n next r s) (hs : r.advance s e = some (r', s')) :
    Scanning n next r' s' := by
  have htotal := h.totalBlockCount
  have hcourse := h.course
  have hgeo : r'.geometry = r.geometry := (effect_of_step (a := .advance e) hs).geometry
  refine ⟨by rwa [hgeo], ?_⟩
  have hstep := advances hs
  -- no request goes further than the next block
  generalize hc : r.control = c at hcourse hstep
  cases hstep with
  | badNumber | isStored =>
    obtain ⟨m, -, hnext, -, hf⟩ := hcourse
    exact hf.mono (show m ≤ next by omega)
  | notStored hlt =>
    obtain ⟨m, hm, hnext, hle, hf⟩ := hcourse
    obtain rfl := Int.ofNat_inj.1 hm
    exact ⟨hnext, hle, hlt, hf⟩
  | isRequested hreq => exact ⟨hcourse.goto _, .inr ⟨rfl, hreq⟩⟩
  | notRequested | noSlot | freeSlot | slotSynced => exact hcourse.goto _
  | slotSyncFails => exact hcourse.frontier_next
  | @allCompleted caller =>
    cases caller with
    | waitForFreeSlot m => exact hcourse.goto _
    | requestBlocksForReadAhead m last => exact hcourse
    | retrieveBlock m => exact hcourse
  | completes => exact hcourse.completeRequest e.io e.key _
  | @requests m =>
    have hf := hcourse.frontier.requestBlock le_rfl e (.determineReadAheadBlocks m 0)
    rcases requestBlock_cases r m e (.determineReadAheadBlocks m 0)
      with ⟨x, hx⟩ | ⟨hc', hgeo', hreq⟩
    · rw [hx]
      exact hcourse.frontier_next
    · rw [hc']
      exact ⟨⟨hcourse.next_eq, hcourse.le, by rw [hgeo']; exact hcourse.lt, hf⟩, .inr ⟨rfl, hreq s⟩⟩
  | overflows => exact hcourse.1.frontier_next
  | @seesRequested m i _ _ hreq =>
    obtain ⟨hret, rfl | ⟨rfl, -⟩⟩ := hcourse
    · -- the next block was not requested
      have hlt := hret.lt
      rw [toInt_eq_self (by omega) (by omega)] at hreq
      have hle := hret.frontier (m + 1) (hret.le.trans (Nat.le_succ m)) hreq
      omega
    · exact ⟨hret.goto _, .inl rfl⟩
  | @seesNew m i _ _ hreq =>
    obtain ⟨hret, rfl | ⟨rfl, hreq'⟩⟩ := hcourse
    · refine ⟨?_, hret.frontier_next⟩
      rw [hret.next_eq]
      exact last_le hret.lt htotal
    · have hlt := hret.lt
      rw [Nat.cast_zero, Int.add_zero, toInt_eq_self (by omega) (by omega), Int.toNat_natCast,
        hreq'] at hreq
      cases hreq
  | @seesAll m i hi =>
    obtain ⟨-, rfl | ⟨rfl, -⟩⟩ := hcourse <;> exact absurd hi (by decide)
  | endsAhead | negativeAhead => exact hcourse.2
  | skipsAhead => exact hcourse
  | goesAhead hle => exact ⟨hle, hcourse⟩
  | @requestsAhead m i last =>
    obtain ⟨hi, hlast, hf⟩ := hcourse
    have hf' := hf.requestBlock (show i.toNat ≤ next by omega) e
      (.requestBlocksForReadAhead m (toInt (i + 1)) last)
    rcases requestBlock_cases r i.toNat e (.requestBlocksForReadAhead m (toInt (i + 1)) last) with
      ⟨x, hx⟩ | ⟨hc', -, -⟩
    · rw [hx]
      exact hf
    · rw [hc']
      exact ⟨hlast, hf'⟩
  | waitSyncFails | waitSynced | arrived => exact hcourse
  | @looksUp m =>
    refine Frontier.of_imp hcourse fun k hreq => ?_
    rw [hasBlockBeenRequested_iff] at hreq ⊢
    rcases retrieveBlock_cases s.store e.io m s.files with ⟨x, he⟩ | ⟨b, -, -, he⟩ |
      ⟨j, -, -, -, -, he⟩ <;> rw [he] at hreq <;> exact hreq

/-- It only depends on what was requested, and is stored. -/
theorem Course.congr {c : Control} (h : Course n next r s c) (hgeo : r'.geometry = r.geometry)
    (hreq : ∀ k, r'.hasBlockBeenRequested s' k = r.hasBlockBeenRequested s k) :
    Course n next r' s' c := by
  have hf : ∀ u, Frontier n u r s → Frontier n u r' s' := fun u hu =>
    hu.of_imp fun k hk => by rwa [hreq] at hk
  -- up to the request for its block, a call is at the same place of the sequence
  have hret : ∀ m, Retrieving n next m r s → Retrieving n next m r' s' := fun m hm =>
    ⟨hm.next_eq, hm.le, by rw [hgeo]; exact hm.lt, hf m hm.frontier⟩
  cases c with
  | idle => exact hf next h
  | returned v => exact hf next h
  | retrieveBlock b =>
    obtain ⟨m, hb, hnext, hle, hm⟩ := h
    exact ⟨m, hb, hnext, hle, hf m hm⟩
  | hasBlockBeenRequested m => exact hret m h
  | waitForFreeSlot m => exact hret m h
  | waitForFreeSlotSync m => exact hret m h
  | completeRequests caller rest =>
    cases caller with
    | waitForFreeSlot m => exact hret m h
    | requestBlocksForReadAhead m last => exact ⟨h.1, hf next h.2⟩
    | retrieveBlock m => exact hf next h
  | requestBlock m => exact hret m h
  | determineReadAheadBlocks m i => exact ⟨hret m h.1, by rw [hreq]; exact h.2⟩
  | requestBlocksForReadAhead m i last => exact ⟨h.1, hf next h.2⟩
  | requestBlockForReadAhead m i last => exact ⟨h.1, h.2.1, hf next h.2.2⟩
  | wait m => exact hf next h
  | lookup m => exact hf next h

/-- The answer to a request changes nothing of this. -/
theorem Scanning.finish {outcome : Read10Outcome} (h : Scanning n next r s)
    (hs : r.step s (.finish k outcome) = some (r', s')) : Scanning n next r' s' := by
  rw [IScsiBlockReader.step] at hs
  cases hq : r.requestsInFlight.lookup k with
  | none =>
    rw [hq] at hs
    cases hs
  | some q =>
    rw [hq] at hs
    dsimp only at hs
    split_ifs at hs
    cases hs
    refine ⟨h.totalBlockCount, h.course.congr rfl fun j => ?_⟩
    rw [Bool.eq_iff_iff, hasBlockBeenRequested_iff, hasBlockBeenRequested_iff]
    dsimp only
    rw [keys_insert_of_mem hq]

/-- A call of the next block starts. -/
theorem Scanning.call (h : Scanning n next r s) (hle : n ≤ next)
    (hs : r.step s (.call next) = some (r', s')) : Scanning n (next + 1) r' s' := by
  rw [IScsiBlockReader.step] at hs
  split_ifs at hs with hidle
  cases hs
  have hcourse := h.course
  refine ⟨h.totalBlockCount, next, rfl, rfl, hle, ?_⟩
  rw [Idle] at hidle
  cases hc : r.control with
  | idle =>
    rw [hc] at hcourse
    exact hcourse
  | returned v =>
    rw [hc] at hcourse
    exact hcourse
  | _ =>
    rw [hc] at hidle
    cases hidle

end IScsiBlockReader

/-! ## Retrieving one block after another -/

/-- A reader of which one block after another is retrieved. -/
structure Scan where
  reader : IScsiBlockReader
  session : Session
  /-- The next block. -/
  next : ℕ
  /-- The windows that were returned so far. -/
  windows : List ℕ

namespace Scan

open IScsiBlockReader

/-- A step; only the next block may be called for. -/
def step (g : Scan) : Action → Option Scan
  | .call blockNumber =>
    if blockNumber = g.next then
      (g.reader.step g.session (.call blockNumber)).map fun p =>
        { g with reader := p.1, session := p.2, next := g.next + 1 }
    else none
  | .advance env =>
    (g.reader.step g.session (.advance env)).map fun p =>
      { g with
        reader := p.1
        session := p.2
        windows := g.windows ++ (g.reader.window g.session).toList }
  | .finish n outcome =>
    (g.reader.step g.session (.finish n outcome)).map fun p =>
      { g with reader := p.1, session := p.2 }

/-- The reader is idle, nothing was requested or stored from the next block on, and the
    number of its blocks is an `int`. -/
structure Ready (g : Scan) : Prop where
  idle : g.reader.Idle = true
  totalBlockCount : g.reader.geometry.totalBlockCount < 2 ^ 31
  nothing : ∀ k, g.next ≤ k → g.reader.hasBlockBeenRequested g.session k = false
  windows : g.windows = []

/-- If the window is returned next, the request for the block is still in flight. -/
def StillInFlight (g : Scan) : Prop :=
  (g.reader.window g.session).isNone = true ∨ g.next - 1 ∈ g.reader.requestsInFlight

instance (g : Scan) : Decidable (StillInFlight g) := by unfold StillInFlight; infer_instance

/-- Each window is twice the one before, until it is as large as it can be. -/
def Doubles (windows : List ℕ) : Prop :=
  windows.IsChain fun w w' => w' = min (2 * w) maxReadAheadBlocks

/-- What holds of the reader in every state, and of the windows. -/
structure Invariant (n : ℕ) (g : Scan) : Prop where
  le : n ≤ g.next
  scanning : Scanning n g.next g.reader g.session
  windows : ∀ w ∈ g.windows, w = 2

variable {g₀ g g' : Scan} {a : Action} {l : List Action} {n : ℕ}

theorem Ready.invariant (h : Ready g) : Invariant g.next g where
  le := le_rfl
  scanning := by
    have hf : Frontier g.next g.next g.reader g.session := fun k hk hreq => by
      rw [h.nothing k hk] at hreq
      cases hreq
    refine ⟨h.totalBlockCount, ?_⟩
    have hidle := h.idle
    rw [Idle] at hidle
    cases hc : g.reader.control <;> rw [hc] at hidle
    all_goals first | exact hf | cases hidle
  windows := by
    rw [h.windows]
    exact fun w hw => absurd hw List.not_mem_nil

theorem Invariant.step (h : Invariant n g) (hs : step g a = some g') : Invariant n g' := by
  cases a with
  | call blockNumber =>
    rw [Scan.step] at hs
    split_ifs at hs with hb
    subst hb
    obtain ⟨⟨r, s⟩, hp, rfl⟩ := Option.map_eq_some_iff.1 hs
    exact ⟨h.le.trans (Nat.le_succ _), h.scanning.call h.le hp, h.windows⟩
  | advance env =>
    obtain ⟨⟨r, s⟩, hp, rfl⟩ := Option.map_eq_some_iff.1 hs
    refine ⟨h.le, h.scanning.advance hp, fun w hw => ?_⟩
    rcases List.mem_append.1 hw with hw | hw
    · exact h.windows w hw
    · exact h.scanning.window_eq (Option.mem_toList.1 hw)
  | finish n outcome =>
    obtain ⟨⟨r, s⟩, hp, rfl⟩ := Option.map_eq_some_iff.1 hs
    exact ⟨h.le, h.scanning.finish hp, h.windows⟩

/-- For every block, every disk and every idle reader that has nothing from this block on:
    in every run in which the blocks from there on are retrieved one after another, all
    windows are the same. So they double exactly if there are less than two. -/
theorem doubles_iff (h₀ : Ready g₀) (h : Transition.runs step g₀ l = some g) :
    (∀ w ∈ g.windows, w = 2) ∧ (Doubles g.windows ↔ g.windows.length ≤ 1) := by
  have hinv : Invariant g₀.next g := Transition.runs_invariant (P := fun _ _ => True)
    (fun _ _ _ _ h hs => h.step hs) h (.of_forall fun _ _ _ => trivial) h₀.invariant
  refine ⟨hinv.windows, ?_⟩
  have htwo := hinv.windows
  generalize g.windows = windows at htwo
  rcases windows with _ | ⟨w, _ | ⟨w', ws⟩⟩
  · exact iff_of_true .nil (Nat.zero_le 1)
  · exact iff_of_true (.singleton w) le_rfl
  · refine iff_of_false (fun hd => ?_) (by simp)
    have hw' : w' = min (2 * w) maxReadAheadBlocks := (List.isChain_cons_cons.1 hd).1
    rw [htwo w (by simp), htwo w' (by simp)] at hw'
    exact absurd hw' (by decide)

/-- A disk of `64` bytes. -/
def sixtyFourBytes : ReadGeometry := .ofDisk 63 1 1

/-- A new reader of this disk, with an empty evidence store. -/
def scan : Scan :=
  let f := extend 64 1 ⟨.zeros 0, .zeros 0⟩
  ⟨.new sixtyFourBytes, ⟨opened "" 64 1 f, f⟩, 0, []⟩

/-- The thread takes a step, in which nothing fails. -/
def go : Action := .advance ⟨0, .ok, none⟩

/-- The first byte is retrieved, and then the second one; the answer to the request for
    this one has not arrived when the window is returned again. -/
def twoCalls : List Action :=
  .call 0 :: List.replicate 12 go ++
    [.finish 0 (.good (.zeros 1)), go, go, .advance ⟨1, .ok, none⟩, go, go, go] ++
    .call 1 :: List.replicate 4 go

theorem ready_scan : Ready scan where
  idle := rfl
  totalBlockCount := by decide
  nothing k _ := by
    have hempty : scan.session.store.bitmap = ∅ := by decide +kernel
    rw [Bool.eq_false_iff, ne_eq, hasBlockBeenRequested_iff, hempty]
    exact fun h => absurd h (by simp [scan, IScsiBlockReader.new])
  windows := rfl

theorem runs_twoCalls : ∃ g, Transition.runs step scan twoCalls = some g ∧ g.windows = [2, 2] ∧
    Transition.AllSteps step (fun g _ => StillInFlight g) scan twoCalls := by
  have hrun : (Transition.runs step scan twoCalls).map Scan.windows = some [2, 2] := by
    decide +kernel
  obtain ⟨g, hg, hw⟩ := Option.map_eq_some_iff.1 hrun
  exact ⟨g, hg, hw, by decide +kernel⟩

theorem doubles_iff_twoCalls : ∃ g, Transition.runs step scan twoCalls = some g ∧
    (∀ w ∈ g.windows, w = 2) ∧ (Doubles g.windows ↔ g.windows.length ≤ 1) := by
  obtain ⟨g, hg, -⟩ := runs_twoCalls
  exact ⟨g, hg, doubles_iff ready_scan hg⟩

/-- The window of the second call is not twice that of the first one. -/
theorem not_doubles_twoCalls : Ready scan ∧ ∃ g, Transition.runs step scan twoCalls = some g ∧
    Transition.AllSteps step (fun g _ => StillInFlight g) scan twoCalls ∧ g.windows = [2, 2] ∧
    ¬Doubles g.windows := by
  obtain ⟨g, hg, hw, hstill⟩ := runs_twoCalls
  refine ⟨ready_scan, g, hg, hstill, hw, ?_⟩
  rw [hw]
  intro hd
  exact absurd (List.isChain_cons_cons.1 hd).1 (by decide)

end Scan

end Raqet
