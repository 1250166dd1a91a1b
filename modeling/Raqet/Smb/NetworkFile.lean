import Raqet.Remote.DeviceManager

/-!
# Network files

A `RemoteNetworkFile` is a device that a file server presents as a file. It opens the
device when it is first needed, and again after it was closed.

The calls on one file follow each other. A call of `readFile` is a state machine
(`FileControl`), since it waits for answers of the device: `advance` takes its thread
from the head of the loop of `read` into the block reader, through the steps of the
block reader, and back. The answers may arrive at any time.
-/

namespace Raqet

open Java

/-- The arguments of `readFile(buf, len, pos, fileOff)`. -/
structure ReadFile where
  buf : Buffer Byte
  len : ℤ
  pos : ℤ
  fileOff : ℤ

/-- Where the thread of a file is. -/
inductive FileControl
  | idle
  /-- The head of the loop of `read`. -/
  | read (call : ReadFile) (reading : Reading)
  /-- `_blockReader.retrieveBlock((int) blockNumber)`, called in the loop. -/
  | retrieveBlock (call : ReadFile) (reading : Reading)
  /-- The call returned or threw, and left this in its buffer. -/
  | returned (call : ReadFile) (result : Except Exn ℤ) (buffer : Buffer Byte)

/-- A `RemoteNetworkFile`, and where its thread is. -/
structure RemoteNetworkFile where
  inputData : Option IScsiInputData
  control : FileControl

/-- What may happen to a file. -/
inductive FileAction
  | openFile (env : OpenEnv)
  | closeFile (connection : Option String) (io : Io) (closeIo : CloseIo)
  | seekFile (pos typ : ℤ) (env : OpenEnv)
  | readFile (call : ReadFile) (env : OpenEnv)
  /-- The thread takes a step of `readFile`. -/
  | advance (env : Env)
  /-- The answer to the request for the block `n` arrives. -/
  | finish (n : ℕ) (outcome : Read10Outcome)

namespace RemoteNetworkFile

variable (info : RemoteDeviceInfo)

/-- A new file. -/
def new : RemoteNetworkFile := ⟨none, .idle⟩

/-- The file with other input data. -/
def setData (f : RemoteNetworkFile) (d : IScsiInputData) : RemoteNetworkFile :=
  { f with inputData := some d }

/-- `readFile` returns or throws. -/
def answer (f : RemoteNetworkFile) (call : ReadFile) (result : Except Exn ℤ)
    (buffer : Buffer Byte) : RemoteNetworkFile := { f with control := .returned call result buffer }

/-- `openFile(createFlag)`. -/
def openFile (f : RemoteNetworkFile) (env : OpenEnv) (w : EvidenceStoreFactory) :
    Except Exn Unit × RemoteNetworkFile × EvidenceStoreFactory :=
  match f.inputData with
  | some _ => (.ok (), f, w)
  | none =>
    let o := RemoteDeviceManager.openDevice info env w
    match o.value with
    | .error e => (.error e, f, o.factory)
    | .ok d => (.ok (), f.setData d, o.factory)

/-- `closeFile()`. -/
def closeFile (f : RemoteNetworkFile) (connection : Option String) (io : Io) (closeIo : CloseIo)
    (w : EvidenceStoreFactory) : Except Exn Unit × RemoteNetworkFile × EvidenceStoreFactory :=
  match f.inputData with
  | none => (.ok (), f, w)
  | some d =>
    match d.close connection io closeIo w with
    | (.error e, d, w) => (.error e, f.setData d, w)
    | (.ok (), _, w) => (.ok (), { f with inputData := none }, w)

/-- The position that `seekFile(pos, typ)` seeks to, if there is one for this type. -/
def seekPosition (d : IScsiInputData) (pos typ : ℤ) : Option ℤ :=
  if typ = 0 then some pos
  else if typ = 1 then some (toLong (d.position + pos))
  else if typ = 2 then some (toLong (d.size + pos))
  else none

/-- `seekFile(pos, typ)`; it returns the position. -/
def seekFile (f : RemoteNetworkFile) (pos typ : ℤ) (env : OpenEnv) (w : EvidenceStoreFactory) :
    Except Exn ℤ × RemoteNetworkFile × EvidenceStoreFactory :=
  match f.openFile info env w with
  | (.error e, f, w) => (.error e, f, w)
  | (.ok (), f, w) =>
    match f.inputData with
    | none => (.error .nullPointer, f, w)
    | some d =>
      match seekPosition d pos typ with
      | none => (.ok d.position, f, w)
      | some position =>
        match d.seek position with
        | .error e => (.error e, f, w)
        | .ok d => (.ok d.position, f.setData d, w)

/-- `readFile(buf, len, pos, fileOff)`, up to the loop of `read`. -/
def readFile (f : RemoteNetworkFile) (call : ReadFile) (env : OpenEnv) (w : EvidenceStoreFactory) :
    RemoteNetworkFile × EvidenceStoreFactory :=
  match f.openFile info env w with
  | (.error e, f, w) => (f.answer call (.error e) call.buf, w)
  | (.ok (), f, w) =>
    match f.inputData with
    | none => (f.answer call (.error .nullPointer) call.buf, w)
    | some d =>
      if d.size < call.fileOff then (f.answer call (.ok 0) call.buf, w)
      else match d.seek call.fileOff with
      | .error e => (f.answer call (.error e) call.buf, w)
      | .ok d =>
        match d.startRead call.buf call.pos call.len with
        | .error e => ((f.setData d).answer call (.error e) call.buf, w)
        | .ok (.inl count) => ((f.setData d).answer call (.ok count) call.buf, w)
        | .ok (.inr reading) => ({ f.setData d with control := .read call reading }, w)

/-- A step of the block reader of a file. -/
def stepReader (d : IScsiInputData) (a : Action) (control : FileControl)
    (w : EvidenceStoreFactory) : Option (RemoteNetworkFile × EvidenceStoreFactory) :=
  (w.session d.evidenceStore).bind fun s => (d.blockReader.step s a).map fun p =>
    (⟨some { d with blockReader := p.1 }, control⟩, w.setSession d.evidenceStore p.2)

/-- A step of the thread in `readFile`. -/
def advance (f : RemoteNetworkFile) (d : IScsiInputData) (env : Env) (w : EvidenceStoreFactory) :
    Option (RemoteNetworkFile × EvidenceStoreFactory) :=
  match f.control with
  | .read call r =>
    if r.lastBlock < r.blockNumber then some (f.answer call (.ok r.totalBytesRead) r.buffer, w)
    else stepReader d (.call (toInt r.blockNumber)) (.retrieveBlock call r) w
  | .retrieveBlock call r =>
    match d.blockReader.control with
    | .returned (.error e) => some (f.answer call (.error e) r.buffer, w)
    | .returned (.ok block) =>
      match d.copyBlock r block with
      | .error e => some (f.answer call (.error e) r.buffer, w)
      | .ok (d, r) => some (⟨some d, .read call r⟩, w)
    | _ => stepReader d (.advance env) f.control w
  | _ => none

/-- No call of `readFile` is being executed. -/
def Idle (f : RemoteNetworkFile) : Bool :=
  match f.control with
  | .idle => true
  | .returned .. => true
  | _ => false

/-- What may happen to a file, and to the factory of evidence stores. -/
def step (f : RemoteNetworkFile) (w : EvidenceStoreFactory) :
    FileAction → Option (RemoteNetworkFile × EvidenceStoreFactory)
  | .openFile env => if f.Idle then some (f.openFile info env w).2 else none
  | .closeFile connection io closeIo =>
    if f.Idle then some (f.closeFile connection io closeIo w).2 else none
  | .seekFile pos typ env => if f.Idle then some (f.seekFile info pos typ env w).2 else none
  | .readFile call env => if f.Idle then some (f.readFile info call env w) else none
  | .advance env => f.inputData.bind fun d => f.advance d env w
  | .finish n outcome => f.inputData.bind fun d => stepReader d (.finish n outcome) f.control w

/-! ## What the calls do -/

/-- Seeking in a file opens it, and then at most moves the position. -/
theorem seekFile_cases (f : RemoteNetworkFile) (pos typ : ℤ) (env : OpenEnv)
    (w : EvidenceStoreFactory) :
    (f.seekFile info pos typ env w).2.2 = (f.openFile info env w).2.2 ∧
      ((f.seekFile info pos typ env w).2.1 = (f.openFile info env w).2.1 ∨
        ∃ d position d', (f.openFile info env w).2.1.inputData = some d ∧
          d.seek position = .ok d' ∧
          (f.seekFile info pos typ env w).2.1 = (f.openFile info env w).2.1.setData d') := by
  delta seekFile
  rcases f.openFile info env w with ⟨_ | _, f', w'⟩
  · exact ⟨rfl, .inl rfl⟩
  · dsimp only
    cases hdata : f'.inputData with
    | none => exact ⟨rfl, .inl rfl⟩
    | some d =>
      dsimp only
      cases seekPosition d pos typ with
      | none => exact ⟨rfl, .inl rfl⟩
      | some position =>
        dsimp only
        cases hseek : d.seek position with
        | error e => exact ⟨rfl, .inl rfl⟩
        | ok d' => exact ⟨rfl, .inr ⟨d, position, d', rfl, hseek, rfl⟩⟩

/-- A call of `readFile` opens the file, and returns at once with no bytes, or enters the loop
    of `read`. -/
theorem readFile_cases (f : RemoteNetworkFile) (call : ReadFile) (env : OpenEnv)
    (w : EvidenceStoreFactory) :
    (f.readFile info call env w).2 = (f.openFile info env w).2.2 ∧
      ((∃ result, (∀ k, result = .ok k → k ≤ 0) ∧
          ((f.readFile info call env w).1 =
              (f.openFile info env w).2.1.answer call result call.buf ∨
            ∃ d d', (f.openFile info env w).2.1.inputData = some d ∧
              d.seek call.fileOff = .ok d' ∧ (f.readFile info call env w).1 =
                ((f.openFile info env w).2.1.setData d').answer call result call.buf)) ∨
        ∃ d d' r, (f.openFile info env w).2.1.inputData = some d ∧
          d.seek call.fileOff = .ok d' ∧
          d'.startRead call.buf call.pos call.len = .ok (.inr r) ∧
          (f.readFile info call env w).1 = ⟨some d', .read call r⟩) := by
  have herror : ∀ (e : Exn) (k : ℤ), (.error e : Except Exn ℤ) = .ok k → k ≤ 0 :=
    fun e k h => by cases h
  delta readFile
  rcases f.openFile info env w with ⟨e | _, f', w'⟩
  · exact ⟨rfl, .inl ⟨_, herror e, .inl rfl⟩⟩
  · dsimp only
    cases hdata : f'.inputData with
    | none => exact ⟨rfl, .inl ⟨_, herror _, .inl rfl⟩⟩
    | some d =>
      dsimp only
      split_ifs
      · exact ⟨rfl, .inl ⟨_, fun k h => (Except.ok.inj h).ge, .inl rfl⟩⟩
      cases hseek : d.seek call.fileOff with
      | error e => exact ⟨rfl, .inl ⟨_, herror e, .inl rfl⟩⟩
      | ok d' =>
        dsimp only
        cases hstart : d'.startRead call.buf call.pos call.len with
        | error e => exact ⟨rfl, .inl ⟨_, herror e, .inr ⟨d, d', rfl, hseek, rfl⟩⟩⟩
        | ok x =>
          cases x with
          | inl k =>
            refine ⟨rfl, .inl ⟨_, fun _ h => ?_, .inr ⟨d, d', rfl, hseek, rfl⟩⟩⟩
            exact Except.ok.inj h ▸ IScsiInputData.startRead_inl hstart
          | inr r => exact ⟨rfl, .inr ⟨d, d', r, rfl, hseek, hstart, rfl⟩⟩

/-- What a step of the thread in `readFile` does. -/
inductive Advances (d : IScsiInputData) (env : Env) (f : RemoteNetworkFile)
    (w : EvidenceStoreFactory) : RemoteNetworkFile → EvidenceStoreFactory → Prop
  /-- The last block was copied. -/
  | finished (call : ReadFile) (r : Reading) (control : f.control = .read call r)
    (last : r.lastBlock < r.blockNumber) :
    Advances d env f w (f.answer call (.ok r.totalBytesRead) r.buffer) w
  /-- The next block is asked for. -/
  | call {f' : RemoteNetworkFile} {w' : EvidenceStoreFactory} (call : ReadFile) (r : Reading)
    (control : f.control = .read call r) (last : r.blockNumber ≤ r.lastBlock)
    (step : stepReader d (.call (toInt r.blockNumber)) (.retrieveBlock call r) w = some (f', w')) :
    Advances d env f w f' w'
  /-- The block reader takes a step. -/
  | step {f' : RemoteNetworkFile} {w' : EvidenceStoreFactory} (call : ReadFile) (r : Reading)
    (control : f.control = .retrieveBlock call r)
    (busy : ∀ result, d.blockReader.control ≠ .returned result)
    (step : stepReader d (.advance env) (.retrieveBlock call r) w = some (f', w')) :
    Advances d env f w f' w'
  /-- The block reader has returned the block, which is copied. -/
  | copy (call : ReadFile) (r r' : Reading) (block : Block) (d' : IScsiInputData)
    (control : f.control = .retrieveBlock call r)
    (returned : d.blockReader.control = .returned (.ok block))
    (copied : d.copyBlock r block = .ok (d', r')) :
    Advances d env f w ⟨some d', .read call r'⟩ w
  /-- The block reader or the copying fails. -/
  | fails (call : ReadFile) (r : Reading) (result : Except Exn Block) (e : Exn)
    (control : f.control = .retrieveBlock call r)
    (returned : d.blockReader.control = .returned result) :
    Advances d env f w (f.answer call (.error e) r.buffer) w

theorem advances_of_advance {f f' : RemoteNetworkFile} {d : IScsiInputData} {env : Env}
    {w w' : EvidenceStoreFactory} (h : f.advance d env w = some (f', w')) :
    Advances d env f w f' w' := by
  rw [advance] at h
  cases hc : f.control with
  | idle =>
    rw [hc] at h
    cases h
  | returned call result buffer =>
    rw [hc] at h
    cases h
  | read call r =>
    rw [hc] at h
    dsimp only at h
    split_ifs at h with hlast
    · cases h
      exact .finished call r hc hlast
    · exact .call call r hc (not_lt.1 hlast) h
  | retrieveBlock call r =>
    rw [hc] at h
    cases hrc : d.blockReader.control with
    | returned result =>
      rw [hrc] at h
      cases result with
      | error e =>
        cases h
        exact .fails call r _ e hc hrc
      | ok block =>
        dsimp only at h
        cases hcopy : d.copyBlock r block with
        | error e =>
          rw [hcopy] at h
          cases h
          exact .fails call r _ e hc hrc
        | ok p =>
          rw [hcopy] at h
          cases h
          exact .copy call r p.2 block p.1 hc hrc hcopy
    | _ =>
      rw [hrc] at h
      exact .step call r hc (fun result hr => by rw [hrc] at hr; cases hr) h

end RemoteNetworkFile

end Raqet
