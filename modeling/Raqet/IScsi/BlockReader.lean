import Raqet.Evidence.Session
import Raqet.IScsi.LogicalUnit

/-!
# The block reader

An `IScsiBlockReader` answers `retrieveBlock` from the evidence store, after it
requested the block, and some of the following ones, from the logical unit, and
stored what came back. Several requests are in flight at a time.

The method is a state machine, whose states (`Control`) are the points between
its accesses to the evidence store, which is shared with other readers. A step of
the thread (`advance`) takes the reader from one such point to the next. The
answers of the logical unit (`Action.finish`) may arrive at any time.

* `Effect` and `effect_of_step`: all that a step can do to the requests in flight
  and to the store.
-/

namespace Raqet

open Java EvidenceStore

/-- `MAX_REQUESTS_IN_FLIGHT`. -/
def maxRequestsInFlight : ℕ := 64

/-- `MAX_READ_AHEAD_BLOCKS`. -/
def maxReadAheadBlocks : ℕ := 16

/-- What a reader knows of the disk, and of the size of its requests. -/
structure ReadGeometry where
  readBlockSize : ℤ
  iScsiBlockSize : ℤ
  /-- The number of sectors. -/
  maxLogicalBlockAddress : ℤ
  iScsiBlocksPerReadRequest : ℤ
  totalBlockCount : ℤ

namespace ReadGeometry

/-- The constructor
    `IScsiBlockReader(logicalUnit, capacity, connection, evidenceStore, readBlockSize)`. -/
def create (capacity : IScsiLogicalUnitCapacity) (readBlockSize : ℤ) : Except Exn ReadGeometry := do
  let _ ← argNotNegative "readBlockSize" readBlockSize
  let iScsiBlockSize := capacity.blockSize
  let iScsiBlocksPerReadRequest := readBlockSize.tdiv iScsiBlockSize
  let sizeInBytes := toLong ((capacity.logicalBlockAddress + 1) * iScsiBlockSize)
  if iScsiBlockSize = 0 then .error .arithmetic
  else if toInt (iScsiBlocksPerReadRequest * iScsiBlockSize) ≠ readBlockSize then
    .error (.illegalArgument ("readBlockSize (" ++ toString readBlockSize ++
      ") is not a multiple of the iSCSI block size (" ++ toString iScsiBlockSize ++ ")"))
  else if readBlockSize = 0 then .error .arithmetic
  else .ok {
    readBlockSize
    iScsiBlockSize
    maxLogicalBlockAddress := toLong (capacity.logicalBlockAddress + 1)
    iScsiBlocksPerReadRequest
    totalBlockCount := toInt ((toLong (sizeInBytes + readBlockSize - 1)).tdiv readBlockSize) }

/-- The command that `requestBlock(blockNumber)` sends, unless there is a `sendError`. -/
def read10 (g : ReadGeometry) (blockNumber : ℤ) (sendError : Option String) : Except Exn Read10 :=
  let lba := toInt (blockNumber * g.iScsiBlocksPerReadRequest)
  let blockToRead :=
    toInt (min g.iScsiBlocksPerReadRequest (toLong (g.maxLogicalBlockAddress - lba)))
  IScsiLogicalUnit.read lba blockToRead g.iScsiBlockSize g.readBlockSize 0 sendError

end ReadGeometry

/-- A command that was sent could be sent. -/
theorem ReadGeometry.read10_none {g : ReadGeometry} {n : ℤ} {sendError : Option String} {c : Read10}
    (h : g.read10 n sendError = .ok c) : g.read10 n none = .ok c := by
  unfold ReadGeometry.read10 at h ⊢
  obtain ⟨h₁, h₂, h₃, h₄, h₅, -, h₆⟩ := IScsiLogicalUnit.read_eq_ok.1 h
  exact IScsiLogicalUnit.read_eq_ok.2 ⟨h₁, h₂, h₃, h₄, h₅, rfl, h₆⟩

theorem ReadGeometry.blockSize_of_read10 {g : ReadGeometry} {n : ℤ} {sendError : Option String}
    {c : Read10} (h : g.read10 n sendError = .ok c) : c.blockSize = g.iScsiBlockSize := by
  unfold ReadGeometry.read10 at h
  obtain ⟨-, -, -, -, -, -, rfl⟩ := IScsiLogicalUnit.read_eq_ok.1 h
  rfl

/-- Where `completeRequests()` returns to. -/
inductive Caller
  | waitForFreeSlot (n : ℕ)
  | requestBlocksForReadAhead (n : ℕ) (last : ℤ)
  | retrieveBlock (n : ℕ)
  deriving DecidableEq

/-- Where the thread of a reader is, in `retrieveBlock(n)` or in the method that is
    named, called from there. -/
inductive Control
  | idle
  /-- The method was called. -/
  | retrieveBlock (blockNumber : ℤ)
  | hasBlockBeenRequested (n : ℕ)
  /-- The head of the loop of `waitForFreeSlot()`. -/
  | waitForFreeSlot (n : ℕ)
  /-- In the same loop, after `completeRequests()`. -/
  | waitForFreeSlotSync (n : ℕ)
  /-- The keys that the iterator has not yet reached. -/
  | completeRequests (caller : Caller) (keys : Finset ℕ)
  | requestBlock (n : ℕ)
  | determineReadAheadBlocks (n i : ℕ)
  /-- The head of the loop of `requestBlocksForReadAhead(n, last)`. -/
  | requestBlocksForReadAhead (n : ℕ) (i last : ℤ)
  /-- In the same loop, `requestBlock(i)`. -/
  | requestBlockForReadAhead (n : ℕ) (i last : ℤ)
  /-- The head of the loop that waits for the block. -/
  | wait (n : ℕ)
  /-- `_evidenceStore.retrieveBlock(n)`. -/
  | lookup (n : ℕ)
  | returned (result : Except Exn Block)

/-- An `IScsiBlockReader`, and where its thread is. -/
structure IScsiBlockReader where
  geometry : ReadGeometry
  requestsInFlight : Finmap fun _ : ℕ => IScsiRead10Callback
  control : Control

/-- What the environment decides in a step. -/
structure Env where
  /-- The key that the iterator returns. -/
  key : ℕ
  /-- The outcome of the file operations. -/
  io : Io
  /-- The error of libiscsi, sending a command or waiting for answers. -/
  error : Option String

/-- What may happen to a reader. -/
inductive Action
  /-- `retrieveBlock(blockNumber)` is called. -/
  | call (blockNumber : ℤ)
  /-- The thread takes a step. -/
  | advance (env : Env)
  /-- The answer to the request for the block `n` arrives. -/
  | finish (n : ℕ) (outcome : Read10Outcome)

/-- `catch (IScsiException e) { throw new IOException(e); }` -/
def Exn.wrap : Exn → Exn
  | .iScsi message => .wrapped (.iScsi message)
  | e => e

namespace IScsiBlockReader

/-- A new reader. -/
def new (geometry : ReadGeometry) : IScsiBlockReader := ⟨geometry, ∅, .idle⟩

/-- The reader with its thread elsewhere. -/
def goto (r : IScsiBlockReader) (control : Control) : IScsiBlockReader := { r with control }

/-- The reader once the method threw an exception. -/
def throw (r : IScsiBlockReader) (e : Exn) : IScsiBlockReader := r.goto (.returned (.error e.wrap))

/-- `hasMaxRequestsInFlight()`. -/
def hasMaxRequestsInFlight (r : IScsiBlockReader) : Bool :=
  decide (maxRequestsInFlight ≤ r.requestsInFlight.keys.card)

/-- `hasBlockBeenRequested(n)`, for a number of a block that is not negative. -/
def hasBlockBeenRequested (r : IScsiBlockReader) (s : Session) (n : ℕ) : Bool :=
  decide (n ∈ r.requestsInFlight) || s.store.containsBlock n

/-- `_bitmap.get(i)` for a negative index. -/
def negativeBit (i : ℤ) : Exn := .indexOutOfBounds (some ("bitIndex < 0: " ++ toString i))

/-- `requestBlock(n)`; the thread goes to `control` if it succeeds. -/
def requestBlock (r : IScsiBlockReader) (n : ℕ) (e : Env) (control : Control) : IScsiBlockReader :=
  match r.geometry.read10 n e.error with
  | .error x => r.throw x
  | .ok command =>
    let request := IScsiRead10Callback.new command (.zeros r.geometry.readBlockSize.toNat)
    { r with requestsInFlight := r.requestsInFlight.insert n request, control }

/-- `completeRequests()` is called. -/
def callCompleteRequests (r : IScsiBlockReader) (caller : Caller) : IScsiBlockReader :=
  r.goto (.completeRequests caller r.requestsInFlight.keys)

/-- `completeRequests()` returns. -/
def returnTo (r : IScsiBlockReader) : Caller → IScsiBlockReader
  | .waitForFreeSlot n => r.goto (.waitForFreeSlotSync n)
  | .requestBlocksForReadAhead n last => r.goto (.requestBlocksForReadAhead n n last)
  | .retrieveBlock n => r.goto (.wait n)

/-- `determineReadAheadBlocks(n)` returns, and `requestBlocksForReadAhead(n, last)`
    is called. -/
def startReadAhead (r : IScsiBlockReader) (n readahead : ℕ) : IScsiBlockReader :=
  r.callCompleteRequests (.requestBlocksForReadAhead n
    (toInt (min (toInt (n + readahead)) r.geometry.totalBlockCount - 1)))

/-- The body of the loop of `completeRequests()`, for the key `k`. -/
def completeRequest (r : IScsiBlockReader) (s : Session) (io : Io) (k : ℕ) (control : Control) :
    IScsiBlockReader × Session :=
  match r.requestsInFlight.lookup k with
  | none => (r.throw .nullPointer, s)
  | some request =>
    if request.finished then
      let r₁ := { r with requestsInFlight := r.requestsInFlight.erase k, control }
      match request.complete with
      | .error x => (r₁.throw x, s)
      | .ok _ =>
        let o := s.store.storeBlock io k request.buffer s.files
        match o.value with
        | .error x => (r₁.throw x, ⟨o.store, o.files⟩)
        | .ok () => (r₁, ⟨o.store, o.files⟩)
    else (r.goto control, s)

/-- A step of the thread. -/
def advance (r : IScsiBlockReader) (s : Session) (e : Env) : Option (IScsiBlockReader × Session) :=
  match r.control with
  | .idle => none
  | .returned _ => none
  | .retrieveBlock blockNumber =>
    match argIndex "blockNumber" blockNumber r.geometry.totalBlockCount with
    | .error x => some (r.throw x, s)
    | .ok n =>
      if s.store.containsBlock n.toNat then some (r.goto (.lookup n.toNat), s)
      else some (r.goto (.hasBlockBeenRequested n.toNat), s)
  | .hasBlockBeenRequested n =>
    if r.hasBlockBeenRequested s n then some (r.goto (.determineReadAheadBlocks n 0), s)
    else some (r.goto (.waitForFreeSlot n), s)
  | .waitForFreeSlot n =>
    if r.hasMaxRequestsInFlight then some (r.callCompleteRequests (.waitForFreeSlot n), s)
    else some (r.goto (.requestBlock n), s)
  | .waitForFreeSlotSync n =>
    if r.hasMaxRequestsInFlight then
      match e.error with
      | some message => some (r.throw (.iScsi message), s)
      | none => some (r.goto (.waitForFreeSlot n), s)
    else some (r.goto (.waitForFreeSlot n), s)
  | .completeRequests caller keys =>
    if keys = ∅ then some (r.returnTo caller, s)
    else if e.key ∈ keys then
      some (r.completeRequest s e.io e.key (.completeRequests caller (keys.erase e.key)))
    else none
  | .requestBlock n => some (r.requestBlock n e (.determineReadAheadBlocks n 0), s)
  | .determineReadAheadBlocks n i =>
    if i < (maxReadAheadBlocks + 1) / 2 then
      let j := toInt (n + i)
      if j < 0 then some (r.throw (negativeBit j), s)
      else if r.hasBlockBeenRequested s j.toNat then
        some (r.goto (.determineReadAheadBlocks n (i + 1)), s)
      else some (r.startReadAhead n (i * 2), s)
    else some (r.startReadAhead n maxReadAheadBlocks, s)
  | .requestBlocksForReadAhead n i last =>
    if last < i ∨ r.hasMaxRequestsInFlight then some (r.goto (.wait n), s)
    else if i < 0 then some (r.throw (negativeBit i), s)
    else if r.hasBlockBeenRequested s i.toNat then
      some (r.goto (.requestBlocksForReadAhead n (toInt (i + 1)) last), s)
    else some (r.goto (.requestBlockForReadAhead n i last), s)
  | .requestBlockForReadAhead n i last =>
    some (r.requestBlock i.toNat e (.requestBlocksForReadAhead n (toInt (i + 1)) last), s)
  | .wait n =>
    if n ∈ r.requestsInFlight then
      match e.error with
      | some message => some (r.throw (.iScsi message), s)
      | none => some (r.callCompleteRequests (.retrieveBlock n), s)
    else some (r.goto (.lookup n), s)
  | .lookup n =>
    let o := s.store.retrieveBlock e.io n s.files
    some (r.goto (.returned o.value), ⟨o.store, o.files⟩)

/-- No call is being executed. -/
def Idle (r : IScsiBlockReader) : Bool :=
  match r.control with
  | .idle => true
  | .returned _ => true
  | _ => false

/-- The answers that may arrive to a request: no more data than was asked for. -/
def Answers (q : IScsiRead10Callback) : Read10Outcome → Prop
  | .failed _ => True
  | .good data => (data.length : ℤ) ≤ q.command.dataLength

instance (q : IScsiRead10Callback) (o : Read10Outcome) : Decidable (Answers q o) := by
  cases o <;> unfold Answers <;> infer_instance

/-- What may happen to a reader, and to its evidence store with its files. Every
    request is answered at most once. -/
def step (r : IScsiBlockReader) (s : Session) : Action → Option (IScsiBlockReader × Session)
  | .call blockNumber => if r.Idle then some (r.goto (.retrieveBlock blockNumber), s) else none
  | .advance env => r.advance s env
  | .finish n outcome =>
    match r.requestsInFlight.lookup n with
    | none => none
    | some q =>
      if q.finished = false ∧ Answers q outcome then
        some ({ r with requestsInFlight := r.requestsInFlight.insert n (q.callback outcome) }, s)
      else none

/-! ## What a step can do -/

end IScsiBlockReader

namespace Control

/-- The block that the thread found neither stored nor requested, and is about to
    request. -/
def target : Control → Option ℕ
  | .waitForFreeSlot n => some n
  | .waitForFreeSlotSync n => some n
  | .completeRequests (.waitForFreeSlot n) _ => some n
  | .requestBlock n => some n
  | .requestBlockForReadAhead _ i _ => some i.toNat
  | _ => none

/-- The number of the block of the call. -/
def blockNumber : Control → Option ℤ
  | .idle => none
  | .retrieveBlock blockNumber => some blockNumber
  | .hasBlockBeenRequested n => some n
  | .waitForFreeSlot n => some n
  | .waitForFreeSlotSync n => some n
  | .completeRequests (.waitForFreeSlot n) _ => some n
  | .completeRequests (.requestBlocksForReadAhead n _) _ => some n
  | .completeRequests (.retrieveBlock n) _ => some n
  | .requestBlock n => some n
  | .determineReadAheadBlocks n _ => some n
  | .requestBlocksForReadAhead n _ _ => some n
  | .requestBlockForReadAhead n _ _ => some n
  | .wait n => some n
  | .lookup n => some n
  | .returned _ => none

/-- The call goes on, or has thrown an exception. -/
def Follows (c c' : Control) : Prop :=
  c'.blockNumber = c.blockNumber ∨ ∃ x, c' = .returned (.error x)

end Control

namespace IScsiBlockReader

variable {r r' : IScsiBlockReader} {s s' : Session} {a : Action} {e : Env} {n k : ℕ} {x : Exn}
  {q : IScsiRead10Callback}

theorem lookup_of_erase {m : Finmap fun _ : ℕ => IScsiRead10Callback} {j : ℕ}
    (h : (m.erase j).lookup k = some q) : m.lookup k = some q := by
  by_cases hk : k = j
  · rw [hk, Finmap.lookup_erase] at h
    cases h
  · rwa [Finmap.lookup_erase_ne hk] at h

/-- The steps of the thread from a place, branch by branch. -/
inductive Advances (r : IScsiBlockReader) (s : Session) (e : Env) :
    Control → IScsiBlockReader → Session → Prop
  | badNumber {blockNumber : ℤ} {x : Exn}
    (harg : argIndex "blockNumber" blockNumber r.geometry.totalBlockCount = .error x) :
    Advances r s e (.retrieveBlock blockNumber) (r.throw x) s
  | isStored {n : ℕ} (hlt : (n : ℤ) < r.geometry.totalBlockCount)
    (hstored : s.store.containsBlock n = true) :
    Advances r s e (.retrieveBlock n) (r.goto (.lookup n)) s
  | notStored {n : ℕ} (hlt : (n : ℤ) < r.geometry.totalBlockCount)
    (hstored : s.store.containsBlock n = false) :
    Advances r s e (.retrieveBlock n) (r.goto (.hasBlockBeenRequested n)) s
  | isRequested {n : ℕ} (hreq : r.hasBlockBeenRequested s n = true) :
    Advances r s e (.hasBlockBeenRequested n) (r.goto (.determineReadAheadBlocks n 0)) s
  | notRequested {n : ℕ} (hreq : r.hasBlockBeenRequested s n = false) :
    Advances r s e (.hasBlockBeenRequested n) (r.goto (.waitForFreeSlot n)) s
  | noSlot {n : ℕ} (hmax : r.hasMaxRequestsInFlight = true) :
    Advances r s e (.waitForFreeSlot n) (r.callCompleteRequests (.waitForFreeSlot n)) s
  | freeSlot {n : ℕ} (hmax : r.hasMaxRequestsInFlight = false) :
    Advances r s e (.waitForFreeSlot n) (r.goto (.requestBlock n)) s
  | slotSyncFails {n : ℕ} {message : String} (hmax : r.hasMaxRequestsInFlight = true)
    (herror : e.error = some message) :
    Advances r s e (.waitForFreeSlotSync n) (r.throw (.iScsi message)) s
  | slotSynced {n : ℕ} (herror : r.hasMaxRequestsInFlight = true → e.error = none) :
    Advances r s e (.waitForFreeSlotSync n) (r.goto (.waitForFreeSlot n)) s
  | allCompleted {caller : Caller} :
    Advances r s e (.completeRequests caller ∅) (r.returnTo caller) s
  | completes {caller : Caller} {rest : Finset ℕ} (hkey : e.key ∈ rest) :
    Advances r s e (.completeRequests caller rest)
      (r.completeRequest s e.io e.key (.completeRequests caller (rest.erase e.key))).1
      (r.completeRequest s e.io e.key (.completeRequests caller (rest.erase e.key))).2
  | requests {n : ℕ} : Advances r s e (.requestBlock n)
      (r.requestBlock n e (.determineReadAheadBlocks n 0)) s
  | overflows {n i : ℕ} (hi : i < (maxReadAheadBlocks + 1) / 2) (hneg : toInt (n + i) < 0) :
    Advances r s e (.determineReadAheadBlocks n i) (r.throw (negativeBit (toInt (n + i)))) s
  | seesRequested {n i : ℕ} (hi : i < (maxReadAheadBlocks + 1) / 2) (hpos : 0 ≤ toInt (n + i))
    (hreq : r.hasBlockBeenRequested s (toInt (n + i)).toNat = true) :
    Advances r s e (.determineReadAheadBlocks n i) (r.goto (.determineReadAheadBlocks n (i + 1))) s
  | seesNew {n i : ℕ} (hi : i < (maxReadAheadBlocks + 1) / 2) (hpos : 0 ≤ toInt (n + i))
    (hreq : r.hasBlockBeenRequested s (toInt (n + i)).toNat = false) :
    Advances r s e (.determineReadAheadBlocks n i) (r.startReadAhead n (i * 2)) s
  | seesAll {n i : ℕ} (hi : (maxReadAheadBlocks + 1) / 2 ≤ i) :
    Advances r s e (.determineReadAheadBlocks n i) (r.startReadAhead n maxReadAheadBlocks) s
  | endsAhead {n : ℕ} {i last : ℤ} (hend : last < i ∨ r.hasMaxRequestsInFlight = true) :
    Advances r s e (.requestBlocksForReadAhead n i last) (r.goto (.wait n)) s
  | negativeAhead {n : ℕ} {i last : ℤ} (hle : i ≤ last) (hmax : r.hasMaxRequestsInFlight = false)
    (hneg : i < 0) :
    Advances r s e (.requestBlocksForReadAhead n i last) (r.throw (negativeBit i)) s
  | skipsAhead {n : ℕ} {i last : ℤ} (hle : i ≤ last) (hmax : r.hasMaxRequestsInFlight = false)
    (hpos : 0 ≤ i) (hreq : r.hasBlockBeenRequested s i.toNat = true) :
    Advances r s e (.requestBlocksForReadAhead n i last)
      (r.goto (.requestBlocksForReadAhead n (toInt (i + 1)) last)) s
  | goesAhead {n : ℕ} {i last : ℤ} (hle : i ≤ last) (hmax : r.hasMaxRequestsInFlight = false)
    (hpos : 0 ≤ i) (hreq : r.hasBlockBeenRequested s i.toNat = false) :
    Advances r s e (.requestBlocksForReadAhead n i last)
      (r.goto (.requestBlockForReadAhead n i last)) s
  | requestsAhead {n : ℕ} {i last : ℤ} : Advances r s e (.requestBlockForReadAhead n i last)
      (r.requestBlock i.toNat e (.requestBlocksForReadAhead n (toInt (i + 1)) last)) s
  | waitSyncFails {n : ℕ} {message : String} (hmem : n ∈ r.requestsInFlight)
    (herror : e.error = some message) : Advances r s e (.wait n) (r.throw (.iScsi message)) s
  | waitSynced {n : ℕ} (hmem : n ∈ r.requestsInFlight) (herror : e.error = none) :
    Advances r s e (.wait n) (r.callCompleteRequests (.retrieveBlock n)) s
  | arrived {n : ℕ} (hmem : n ∉ r.requestsInFlight) :
    Advances r s e (.wait n) (r.goto (.lookup n)) s
  | looksUp {n : ℕ} : Advances r s e (.lookup n)
      (r.goto (.returned (s.store.retrieveBlock e.io n s.files).value))
      ⟨(s.store.retrieveBlock e.io n s.files).store, (s.store.retrieveBlock e.io n s.files).files⟩

/-- A step of the thread is one of these. -/
theorem advances (h : r.advance s e = some (r', s')) : Advances r s e r.control r' s' := by
  rw [advance] at h
  cases hc : r.control with
  | idle =>
    rw [hc] at h
    cases h
  | returned result =>
    rw [hc] at h
    cases h
  | retrieveBlock blockNumber =>
    rw [hc] at h
    dsimp only at h
    cases harg : argIndex "blockNumber" blockNumber r.geometry.totalBlockCount with
    | error x =>
      rw [harg] at h
      cases h
      exact .badNumber harg
    | ok m =>
      obtain ⟨⟨hpos, hlt⟩, rfl⟩ := argIndex_eq_ok.1 harg
      -- the number has passed the check, so it is that of a block
      obtain ⟨n, rfl⟩ := Int.eq_ofNat_of_zero_le hpos
      rw [harg] at h
      dsimp only at h
      rw [Int.toNat_natCast] at h
      split_ifs at h with hstored <;> cases h
      · exact .isStored hlt hstored
      · exact .notStored hlt (Bool.eq_false_iff.2 hstored)
  | hasBlockBeenRequested n =>
    rw [hc] at h
    dsimp only at h
    split_ifs at h with hreq <;> cases h
    · exact .isRequested hreq
    · exact .notRequested (Bool.eq_false_iff.2 hreq)
  | waitForFreeSlot n =>
    rw [hc] at h
    dsimp only at h
    split_ifs at h with hmax <;> cases h
    · exact .noSlot hmax
    · exact .freeSlot (Bool.eq_false_iff.2 hmax)
  | waitForFreeSlotSync n =>
    rw [hc] at h
    dsimp only at h
    split_ifs at h with hmax
    · cases he : e.error with
      | some message =>
        rw [he] at h
        cases h
        exact .slotSyncFails hmax he
      | none =>
        rw [he] at h
        cases h
        exact .slotSynced fun _ => he
    · cases h
      exact .slotSynced fun hmax' => absurd hmax' hmax
  | completeRequests caller keys =>
    rw [hc] at h
    dsimp only at h
    split_ifs at h with hempty hkey
    · cases h
      exact hempty ▸ .allCompleted
    · have hstep : Advances r s e (.completeRequests caller keys) _ _ := .completes hkey
      rwa [Option.some.inj h] at hstep
  | requestBlock n =>
    rw [hc] at h
    cases h
    exact .requests
  | determineReadAheadBlocks n i =>
    rw [hc] at h
    dsimp only at h
    split_ifs at h with hi hneg hreq <;> cases h
    · exact .overflows hi hneg
    · exact .seesRequested hi (not_lt.1 hneg) hreq
    · exact .seesNew hi (not_lt.1 hneg) (Bool.eq_false_iff.2 hreq)
    · exact .seesAll (not_lt.1 hi)
  | requestBlocksForReadAhead n i last =>
    rw [hc] at h
    dsimp only at h
    split_ifs at h with hend hneg hreq <;> cases h
    · exact .endsAhead hend
    -- in the other cases, the loop goes on
    all_goals
      obtain ⟨hle, hmax⟩ := not_or.1 hend
      rw [Bool.not_eq_true] at hmax
    · exact .negativeAhead (not_lt.1 hle) hmax hneg
    · exact .skipsAhead (not_lt.1 hle) hmax (not_lt.1 hneg) hreq
    · exact .goesAhead (not_lt.1 hle) hmax (not_lt.1 hneg) (Bool.eq_false_iff.2 hreq)
  | requestBlockForReadAhead n i last =>
    rw [hc] at h
    cases h
    exact .requestsAhead
  | wait n =>
    rw [hc] at h
    dsimp only at h
    split_ifs at h with hmem
    · cases he : e.error with
      | some message =>
        rw [he] at h
        cases h
        exact .waitSyncFails hmem he
      | none =>
        rw [he] at h
        cases h
        exact .waitSynced hmem he
    · cases h
      exact .arrived hmem
  | lookup n =>
    rw [hc] at h
    cases h
    exact .looksUp

/-- All that can happen to a reader `r` and a store `s` in a step. -/
inductive Effect (r : IScsiBlockReader) (s : Session) :
    Action → IScsiBlockReader → Session → Prop
  /-- A call starts. -/
  | call (blockNumber : ℤ) (idle : r.Idle) :
    Effect r s (.call blockNumber) (r.goto (.retrieveBlock blockNumber)) s
  /-- The thread goes on. It only turns to a new block to request if it is neither
      stored nor requested. -/
  | move (env : Env) (control : Control) (follows : r.control.Follows control)
    (target : ∀ n, control.target = some n →
      r.control.target = some n ∨ r.hasBlockBeenRequested s n = false) :
    Effect r s (.advance env) (r.goto control) s
  /-- The call returns what the evidence store returns. -/
  | lookup (env : Env) (n : ℕ) (control : r.control = .lookup n) :
    Effect r s (.advance env)
      (r.goto (.returned (s.store.retrieveBlock env.io n s.files).value))
      ⟨(s.store.retrieveBlock env.io n s.files).store,
        (s.store.retrieveBlock env.io n s.files).files⟩
  /-- A block is requested. -/
  | request (env : Env) (n : ℕ) (command : Read10) (control : Control)
    (follows : r.control.Follows control) (target : r.control.target = some n)
    (read10 : r.geometry.read10 n env.error = .ok command) (target' : control.target = none) :
    Effect r s (.advance env)
      { r with
        requestsInFlight := r.requestsInFlight.insert n
          (.new command (.zeros r.geometry.readBlockSize.toNat))
        control } s
  /-- A request that failed is dropped. -/
  | drop (env : Env) (q : IScsiRead10Callback) (control : Control)
    (follows : r.control.Follows control) (lookup : r.requestsInFlight.lookup env.key = some q)
    (finished : q.finished = true) (exception : q.exception ≠ none)
    (target : control.target = none) : Effect r s (.advance env)
      { r with requestsInFlight := r.requestsInFlight.erase env.key, control } s
  /-- The block of a request that did not fail is stored. -/
  | store (env : Env) (q : IScsiRead10Callback) (control : Control)
    (follows : r.control.Follows control) (lookup : r.requestsInFlight.lookup env.key = some q)
    (finished : q.finished = true) (exception : q.exception = none)
    (target : ∀ n, control.target = some n → r.control.target = some n) :
    Effect r s (.advance env)
      { r with requestsInFlight := r.requestsInFlight.erase env.key, control }
      ⟨(s.store.storeBlock env.io env.key q.buffer s.files).store,
        (s.store.storeBlock env.io env.key q.buffer s.files).files⟩
  /-- The answer to a request arrives. -/
  | finish (n : ℕ) (q : IScsiRead10Callback) (outcome : Read10Outcome)
    (lookup : r.requestsInFlight.lookup n = some q) (finished : q.finished = false)
    (answers : Answers q outcome) :
    Effect r s (.finish n outcome)
      { r with requestsInFlight := r.requestsInFlight.insert n (q.callback outcome) } s

/-- An exception ends the call. -/
theorem effect_throw (r : IScsiBlockReader) (s : Session) (e : Env) (x : Exn) :
    Effect r s (.advance e) (r.throw x) s :=
  .move e _ (.inr ⟨_, rfl⟩) fun n hn => by cases hn

theorem effect_requestBlock {control : Control} (ht : r.control.target = some n)
    (hf : r.control.Follows control) (ht' : control.target = none) :
    Effect r s (.advance e) (r.requestBlock n e control) s := by
  rw [IScsiBlockReader.requestBlock]
  cases hc : r.geometry.read10 n e.error with
  | error x => exact effect_throw r s e x
  | ok command => exact .request e n command control hf ht hc ht'

theorem effect_completeRequest {control : Control} (hf : r.control.Follows control)
    (ht : ∀ n, control.target = some n → r.control.target = some n) :
    Effect r s (.advance e) (r.completeRequest s e.io e.key control).1
      (r.completeRequest s e.io e.key control).2 := by
  rw [completeRequest]
  cases hq : r.requestsInFlight.lookup e.key with
  | none => exact effect_throw r s e .nullPointer
  | some q =>
    by_cases hfin : q.finished = true
    · dsimp only
      rw [if_pos hfin, IScsiRead10Callback.complete]
      cases hx : q.exception with
      | some x =>
        exact .drop e q _ (.inr ⟨_, rfl⟩) hq hfin (by rw [hx]; exact Option.some_ne_none x) rfl
      | none =>
        dsimp only
        cases hv : (s.store.storeBlock e.io e.key q.buffer s.files).value with
        | error x => exact .store e q _ (.inr ⟨_, rfl⟩) hq hfin hx fun n hn => by cases hn
        | ok _ => exact .store e q control hf hq hfin hx ht
    · dsimp only
      rw [if_neg hfin]
      exact .move e control hf fun n hn => .inl (ht n hn)

theorem effect_advance (h : r.advance s e = some (r', s')) : Effect r s (.advance e) r' s' := by
  have hstep := advances h
  generalize hc : r.control = c at hstep
  -- the thread goes on, in the same call
  have hgoto (control : Control) (hb : control.blockNumber = c.blockNumber)
      (ht : ∀ n, control.target = some n →
        c.target = some n ∨ r.hasBlockBeenRequested s n = false) :
      Effect r s (.advance e) (r.goto control) s :=
    .move e control (.inl (hc ▸ hb)) (hc ▸ ht)
  cases hstep with
  | badNumber | slotSyncFails | overflows | negativeAhead | waitSyncFails =>
    exact effect_throw r _ e _
  | isStored | notStored | isRequested | seesRequested | seesNew | seesAll | endsAhead |
      skipsAhead | waitSynced | arrived =>
    exact hgoto _ rfl fun n hn => by cases hn
  | notRequested hreq =>
    refine hgoto _ rfl fun m hm => .inr ?_
    cases hm
    exact hreq
  | goesAhead _ _ _ hreq =>
    refine hgoto _ rfl fun m hm => .inr ?_
    cases hm
    exact hreq
  | noSlot | freeSlot | slotSynced => exact hgoto _ rfl fun m hm => .inl hm
  | @allCompleted caller =>
    cases caller with
    | waitForFreeSlot n => exact hgoto _ rfl fun m hm => .inl hm
    | requestBlocksForReadAhead n last => exact hgoto _ rfl fun m hm => by cases hm
    | retrieveBlock n => exact hgoto _ rfl fun m hm => by cases hm
  | @completes caller =>
    refine effect_completeRequest (.inl ?_) fun m hm => ?_
    · rw [hc]
      cases caller <;> rfl
    · rw [hc]
      cases caller <;> exact hm
  | requests | requestsAhead =>
    exact effect_requestBlock (by rw [hc]; rfl) (.inl (by rw [hc]; rfl)) rfl
  | @looksUp n => exact .lookup e n hc

theorem effect_of_step (h : step r s a = some (r', s')) : Effect r s a r' s' := by
  cases a with
  | call blockNumber =>
    rw [step] at h
    split_ifs at h with hi
    cases h
    exact .call blockNumber hi
  | advance e => exact effect_advance h
  | finish n outcome =>
    rw [step] at h
    cases hq : r.requestsInFlight.lookup n with
    | none =>
      rw [hq] at h
      cases h
    | some q =>
      rw [hq] at h
      dsimp only at h
      split_ifs at h with ha
      cases h
      exact .finish n q outcome hq ha.1 ha.2

/-- A step keeps what the reader knows of the disk. -/
theorem Effect.geometry (h : Effect r s a r' s') : r'.geometry = r.geometry := by
  cases h <;> rfl

/-- A request in flight after a step was there before; or it was just made; or it
    was just answered. -/
theorem Effect.lookup_cases (h : Effect r s a r' s') (hq : r'.requestsInFlight.lookup k = some q) :
    r.requestsInFlight.lookup k = some q ∨
    (∃ env command, a = .advance env ∧ r.geometry.read10 k env.error = .ok command ∧
      q = .new command (.zeros r.geometry.readBlockSize.toNat)) ∨
    ∃ outcome q₀, a = .finish k outcome ∧ r.requestsInFlight.lookup k = some q₀ ∧
      q₀.finished = false ∧ Answers q₀ outcome ∧ q = q₀.callback outcome := by
  cases h with
  | call _ _ => exact .inl hq
  | move env control _ _ => exact .inl hq
  | lookup env n _ => exact .inl hq
  | request env n command control _ _ hc _ =>
    by_cases hk : k = n
    · subst hk
      rw [Finmap.lookup_insert, Option.some.injEq] at hq
      exact .inr (.inl ⟨env, command, rfl, hc, hq.symm⟩)
    · rw [Finmap.lookup_insert_of_ne _ hk] at hq
      exact .inl hq
  | drop env _ control _ _ _ _ _ => exact .inl (lookup_of_erase hq)
  | store env _ control _ _ _ _ _ => exact .inl (lookup_of_erase hq)
  | finish n q₀ outcome hn hf ha =>
    by_cases hk : k = n
    · subst hk
      rw [Finmap.lookup_insert, Option.some.injEq] at hq
      exact .inr (.inr ⟨outcome, q₀, rfl, hn, hf, ha, hq.symm⟩)
    · rw [Finmap.lookup_insert_of_ne _ hk] at hq
      exact .inl hq

/-- A step sets no bit, or the one of a block whose request did not fail. -/
theorem Effect.bitmap_cases (h : Effect r s a r' s') :
    s'.store.bitmap = s.store.bitmap ∨
    ∃ env q, a = .advance env ∧ r.requestsInFlight.lookup env.key = some q ∧
      q.finished = true ∧ q.exception = none ∧
      s'.store.bitmap = insert env.key s.store.bitmap := by
  cases h with
  | lookup env n _ =>
    rcases retrieveBlock_cases s.store env.io n s.files with ⟨e, he⟩ | ⟨b, -, -, he⟩ |
      ⟨k, -, -, -, -, he⟩ <;> rw [he] <;> exact .inl rfl
  | store env q control _ hq hf hx _ =>
    rcases storeBlock_cases s.store env.io env.key q.buffer s.files with ⟨e, he⟩ | ⟨e, k, -, he⟩ |
      ⟨k, -, he⟩ <;> rw [he]
    · exact .inl rfl
    · exact .inl rfl
    · exact .inr ⟨env, q, rfl, hq, hf, hx, rfl⟩
  | _ => exact .inl rfl

end IScsiBlockReader

end Raqet
