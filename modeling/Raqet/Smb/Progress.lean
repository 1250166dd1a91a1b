import Raqet.IScsi.ReadAhead
import Raqet.Remote.OpenDevices
import Raqet.Smb.FileServer

/-!
# Calls of `readFile` end

A call of `readFile` copies its blocks one after the other, and every block takes a call of the
block reader. A call of the block reader ends after a bounded number of steps, not counting the
turns in which it waits for answers that have not come (`InFlight.remaining_advance`). So does a
call of `readFile`, whatever the answers are, whatever fails, and whatever the other files do
(`readFile_ends`); and until then its thread can take a step.
-/

namespace Raqet

open Java EvidenceStore EvidenceStoreFactory IScsiBlockReader ReadGeometry

/-! ## A call of `readFile` -/

namespace RemoteNetworkFile

variable {f : RemoteNetworkFile} {d : IScsiInputData} {r : Reading} {call : ReadFile}

/-- A bound on the number of steps for a block. -/
def blockBudget : ℕ := slotBudget + 4

/-- A bound on the number of steps until the call ends, if the thread does not wait in vain. -/
def remaining (f : RemoteNetworkFile) : ℕ :=
  match f.control with
  | .read _ r => (r.lastBlock + 1 - r.blockNumber).toNat * blockBudget + 1
  | .retrieveBlock _ r => (f.inputData.elim 0 fun d => d.blockReader.remaining) +
    ((r.lastBlock - r.blockNumber).toNat * blockBudget + 2)
  | _ => 0

theorem remaining_of_idle (hidle : f.Idle = true) : f.remaining = 0 := by
  rw [remaining]
  cases hc : f.control with
  | idle | returned => rfl
  | read | retrieveBlock =>
    rw [Idle, hc] at hidle
    cases hidle

theorem remaining_read (hc : f.control = .read call r) :
    f.remaining = (r.lastBlock + 1 - r.blockNumber).toNat * blockBudget + 1 := by
  rw [remaining, hc]

theorem remaining_retrieveBlock (hc : f.control = .retrieveBlock call r)
    (hdata : f.inputData = some d) : f.remaining =
      d.blockReader.remaining + ((r.lastBlock - r.blockNumber).toNat * blockBudget + 2) := by
  rw [remaining, hc, hdata]
  rfl

/-- The thread begins a turn of a loop that waits, in the block reader, and what it waits for
    has not come. -/
def WaitsInVain (f : RemoteNetworkFile) : Prop :=
  match f.inputData with
  | some d => d.blockReader.WaitsInVain
  | none => False

instance (f : RemoteNetworkFile) : Decidable f.WaitsInVain := by
  unfold WaitsInVain
  cases f.inputData <;> infer_instance

/-- `1` if the step is one of the thread. -/
def threadSteps : FileAction → ℕ
  | .advance _ => 1
  | _ => 0

/-- What a step of the thread adds to the bound on its steps if it waits in vain. -/
def vainSteps (f : RemoteNetworkFile) : FileAction → ℕ
  | .advance _ => if f.WaitsInVain then maxRequestsInFlight + 3 else 0
  | _ => 0

end RemoteNetworkFile

/-! ## Devices -/

/-- What the devices at each path report: the last sector, and the size of the sectors. Their
    blocks can be counted by an `int`, with those to read ahead. -/
structure Media where
  lastLBA : String → ℕ
  sectorSize : String → ℕ
  valid : ∀ path, ValidDisk (lastLBA path) (sectorSize path) readBlockSize
  blocks_le : ∀ path,
    blocks ((lastLBA path + 1) * sectorSize path) readBlockSize + maxReadAheadBlocks ≤ 2 ^ 31

/-- The number of the next block, and that of the last one, do not overflow. -/
def Reading.InRange (r : Reading) : Prop := 0 ≤ r.blockNumber ∧ r.lastBlock < 2 ^ 62

namespace Media

section

variable (m : Media) (path : String)

/-- The number of bytes of the devices at the path, of their blocks, and of the bits for them. -/
def length : ℕ := (m.lastLBA path + 1) * m.sectorSize path

def blockCount : ℕ := blocks (m.length path) readBlockSize

def bitCount : ℕ := 8 * bitmapBytes (m.length path) readBlockSize

theorem accepted : Accepted (m.lastLBA path) (m.sectorSize path) readBlockSize := by
  have h := m.blocks_le path
  have hmax : 0 < maxReadAheadBlocks := by decide
  exact ⟨m.valid path, by omega⟩

theorem countBlocks_eq : countBlocks (m.length path) readBlockSize = m.blockCount path :=
  EvidenceStore.countBlocks_eq (m.valid path).blockSize_pos (m.valid path).blockSize_lt
    (m.accepted path).blocks_lt

theorem opens : Opens (m.length path) readBlockSize := by
  refine ⟨(m.valid path).blockSize_pos, ?_⟩
  have h := m.blocks_le path
  have hmax : 7 < maxReadAheadBlocks := by decide
  have hblocks : m.blockCount path = blocks ((m.lastLBA path + 1) * m.sectorSize path)
    readBlockSize := rfl
  rw [bitmapSize, m.countBlocks_eq, toInt_eq_self (by omega) (by omega)]
  exact Int.tdiv_nonneg (by omega) (by omega)

theorem room : Room (m.blockCount path) (m.bitCount path) := by
  have hlt := bitmapBytes_lt (L := m.length path) (B := readBlockSize)
  refine ⟨blocks_le_bitmapBytes (m.opens path) (m.valid path).blockSize_lt
    (m.accepted path).blocks_lt, ?_⟩
  rw [bitCount]
  omega

end

variable {m : Media} {info : RemoteDeviceInfo} {path : String} {w w' : EvidenceStoreFactory}
  {f f' : RemoteNetworkFile} {d d' : IScsiInputData} {r r' : Reading} {call : ReadFile}
  {env : OpenEnv}

/-! ## The stores -/

/-- The bits of every store are for blocks of its device. -/
def Bounded (m : Media) (w : EvidenceStoreFactory) : Prop :=
  ∀ o ∈ w.objects, ∀ n ∈ o.bitmap, n < m.bitCount o.evidenceFilePath

/-- The stores stay, at their paths, and the blocks that they have. -/
def Grows (w w' : EvidenceStoreFactory) : Prop :=
  ∀ (i : ℕ) (o : EvidenceStore), w.objects[i]? = some o → ∃ o' : EvidenceStore,
    w'.objects[i]? = some o' ∧ o'.evidenceFilePath = o.evidenceFilePath ∧ o.bitmap ⊆ o'.bitmap

/-- A step of the factory: the stores stay, and are still those of their devices. -/
structure Follows (m : Media) (w w' : EvidenceStoreFactory) : Prop where
  grows : Grows w w'
  bounded : Bounded m w → Bounded m w'

theorem Follows.refl (m : Media) (w : EvidenceStoreFactory) : Follows m w w :=
  ⟨fun _ o ho => ⟨o, ho, rfl, subset_rfl⟩, id⟩

theorem Follows.of_objects (h : w'.objects = w.objects) : Follows m w w' where
  grows _ o ho := ⟨o, h ▸ ho, rfl, subset_rfl⟩
  bounded hb o ho := hb o (h ▸ ho)

/-- The state of a store is changed. -/
theorem follows_set {i : ℕ} {o o' : EvidenceStore} (ho : w.objects[i]? = some o)
    (hw : w'.objects = w.objects.set i o') (hpath : o'.evidenceFilePath = o.evidenceFilePath)
    (hsub : o.bitmap ⊆ o'.bitmap)
    (hb : (∀ n ∈ o.bitmap, n < m.bitCount o.evidenceFilePath) →
      ∀ n ∈ o'.bitmap, n < m.bitCount o.evidenceFilePath) : Follows m w w' where
  grows j u hu := by
    rw [hw]
    by_cases hij : i = j
    · subst hij
      obtain rfl := Option.some.inj (ho.symm.trans hu)
      exact ⟨o', List.getElem?_set_self (List.getElem?_eq_some_iff.1 ho).1, hpath, hsub⟩
    · exact ⟨u, by rw [List.getElem?_set_ne hij, hu], rfl, subset_rfl⟩
  bounded hbounded u hu := by
    rw [hw] at hu
    rcases List.mem_or_eq_of_mem_set hu with hu | rfl
    · exact hbounded u hu
    · rw [hpath]
      exact hb (hbounded o (List.mem_of_getElem? ho))

/-- A new store is at its path, and its bits are for its blocks. -/
theorem created {L B : ℕ} {io : OpenIo} {o : EvidenceStore} {f f' : Files}
    (h : create io path L B f = (.ok o, f')) :
    o.evidenceFilePath = path ∧ ∀ n ∈ o.bitmap, n < 8 * bitmapBytes L B := by
  obtain ⟨-, rfl, -⟩ := create_eq_ok h
  exact ⟨rfl, fun n hn => (mem_bitmap_opened.1 hn).1⟩

/-- Obtaining a store. -/
theorem follows_getEvidenceStore (w : EvidenceStoreFactory) (io : OpenIo) :
    Follows m w (w.getEvidenceStore io path (m.length path) readBlockSize).2 := by
  rw [getEvidenceStore]
  cases hi : w.evidenceStores path with
  | some i =>
    dsimp only
    cases ho : w.objects[i]? with
    | none =>
      refine .of_objects ?_
      dsimp only
      rw [List.modify_eq_set_getElem?, ho]
      rfl
    | some o =>
      refine follows_set ho (?_ : _ = w.objects.set i o.incRefCount) rfl subset_rfl id
      dsimp only
      rw [List.modify_eq_set_getElem?, ho]
      rfl
  | none =>
    dsimp only
    rcases hc : create io path (m.length path) readBlockSize (w.disk path) with ⟨_ | o, f⟩
    · exact .of_objects rfl
    · obtain ⟨hpath, hbits⟩ := created hc
      refine ⟨fun i u hu => ⟨u, ?_, rfl, subset_rfl⟩, fun hb u hu => ?_⟩
      · exact (List.getElem?_append_left (List.getElem?_eq_some_iff.1 hu).1).trans hu
      · rcases List.mem_append.1 hu with hu | hu
        · exact hb u hu
        · obtain rfl := List.mem_singleton.1 hu
          exact fun n hn => (hbits n hn).trans_eq (congrArg m.bitCount hpath.symm)

/-- Closing a reference. -/
theorem follows_closeEvidenceStore (w : EvidenceStoreFactory) (io : Io) (closeIo : CloseIo)
    (i : ℕ) : Follows m w (w.closeEvidenceStore io closeIo i).2 := by
  rcases OpenDevices.closeEvidenceStore_cases w io closeIo i with
    ⟨-, disk, hw⟩ | ⟨o, disk, ho, -, -, hw⟩ | ⟨o, disk, ho, -, -, hw⟩ <;> rw [hw]
  · exact .of_objects rfl
  · exact follows_set ho rfl rfl subset_rfl id
  · cases closeIo <;> exact follows_set ho rfl rfl subset_rfl id

theorem session_setSession {i : ℕ} {t : Session} (ht : w.session i = some t) (t' : Session) :
    (w.setSession i t').session i = some t' := by
  obtain ⟨o, ho, -⟩ := Option.map_eq_some_iff.1 ht
  have ho' : (w.setSession i t').objects[i]? = some t'.store :=
    List.getElem?_set_self (List.getElem?_eq_some_iff.1 ho).1
  rw [session, ho', Option.map_some, setSession, disk_setFiles]

/-- What a reader does to a store. -/
theorem follows_setSession {i : ℕ} {t t' : Session} (ht : w.session i = some t)
    (hpath : t'.store.evidenceFilePath = t.store.evidenceFilePath)
    (hsub : t.store.bitmap ⊆ t'.store.bitmap)
    (hb : ∀ n ∈ t'.store.bitmap, n < m.bitCount t.store.evidenceFilePath) :
    Follows m w (w.setSession i t') := by
  obtain ⟨o, ho, rfl⟩ := Option.map_eq_some_iff.1 ht
  exact follows_set ho rfl hpath hsub fun _ => hb

/-! ## The files -/

/-- Input data of the device at the path, its reader, and its store. -/
structure Runs (m : Media) (path : String) (w : EvidenceStoreFactory) (d : IScsiInputData) :
    Prop where
  size : d.size = m.length path
  blockSize : d.readBlockSize = readBlockSize
  inFlight : ∃ t, w.session d.evidenceStore = some t ∧ t.store.evidenceFilePath = path ∧
    InFlight (m.blockCount path) (m.bitCount path) d.blockReader t

/-- Input data whose reader no call is being executed on. -/
structure Rests (m : Media) (path : String) (w : EvidenceStoreFactory) (d : IScsiInputData) : Prop
    extends Runs m path w d where
  idle : d.blockReader.Idle = true

/-- The invariant of a file of a device at the path. -/
structure Moves (m : Media) (path : String) (w : EvidenceStoreFactory) (f : RemoteNetworkFile) :
    Prop where
  runs : ∀ d, f.inputData = some d → Runs m path w d
  rests : ∀ d, f.inputData = some d → (∀ call r, f.control ≠ .retrieveBlock call r) →
    d.blockReader.Idle = true
  read : ∀ call r, f.control = .read call r → (∃ d, f.inputData = some d) ∧ r.InRange
  retrieveBlock : ∀ call r, f.control = .retrieveBlock call r →
    (∃ d, f.inputData = some d ∧ d.blockReader.control ≠ .idle) ∧ r.InRange ∧
      r.blockNumber ≤ r.lastBlock

/-- The reader and the store of the input data are what matters. -/
theorem Runs.congr (h : Runs m path w d) (hsize : d'.size = d.size)
    (hblock : d'.readBlockSize = d.readBlockSize) (hreader : d'.blockReader = d.blockReader)
    (hstore : d'.evidenceStore = d.evidenceStore) : Runs m path w d' :=
  ⟨hsize.trans h.size, hblock.trans h.blockSize, hreader ▸ hstore ▸ h.inFlight⟩

theorem Rests.setPosition (h : Rests m path w d) (position : ℤ) :
    Rests m path w { d with position } := ⟨h.toRuns.congr rfl rfl rfl rfl, h.idle⟩

/-- The other stores may do what they do. -/
theorem Runs.follows (h : Runs m path w d) (hb : Bounded m w) (hw : Follows m w w') :
    Runs m path w' d := by
  obtain ⟨t, ht, rfl, hflight⟩ := h.inFlight
  obtain ⟨o, ho, rfl⟩ := Option.map_eq_some_iff.1 ht
  obtain ⟨o', ho', hpath, hsub⟩ := hw.grows _ o ho
  refine ⟨h.size, h.blockSize, ⟨o', w'.disk o'.evidenceFilePath⟩, ?_, hpath, hflight.mono hsub ?_⟩
  · rw [session, ho', Option.map_some]
  · intro n hn
    have hlt := hw.bounded hb o' (List.mem_of_getElem? ho') n hn
    rwa [hpath] at hlt

theorem Rests.follows (h : Rests m path w d) (hb : Bounded m w) (hw : Follows m w w') :
    Rests m path w' d := ⟨h.toRuns.follows hb hw, h.idle⟩

theorem Moves.follows (h : Moves m path w f) (hb : Bounded m w) (hw : Follows m w w') :
    Moves m path w' f := ⟨fun d hd => (h.runs d hd).follows hb hw, h.rests, h.read, h.retrieveBlock⟩

/-- A file on which no call of `readFile` is being executed. -/
theorem moves_of_idle (hidle : f.Idle = true)
    (h : ∀ d, f.inputData = some d → Rests m path w d) : Moves m path w f := by
  rw [RemoteNetworkFile.Idle] at hidle
  refine ⟨fun d hd => (h d hd).toRuns, fun d hd _ => (h d hd).idle, fun call r hc => ?_,
    fun call r hc => ?_⟩ <;> rw [hc] at hidle <;> cases hidle

theorem Moves.rests_of_idle (h : Moves m path w f) (hidle : f.Idle = true) :
    ∀ d, f.inputData = some d → Rests m path w d := by
  refine fun d hd => ⟨h.runs d hd, h.rests d hd fun call r hc => ?_⟩
  rw [RemoteNetworkFile.Idle, hc] at hidle
  cases hidle

/-- A device that is opened is the one that reports its capacity, with a store of its path. -/
theorem openDevice_rests (hb : Bounded m w)
    (hmapped : ∀ i, w.evidenceStores info.evidencePath = some i → w.Owns info.evidencePath i)
    (henv : VirtualDisk.Reports (m.lastLBA info.evidencePath) (m.sectorSize info.evidencePath)
      env) :
    Follows m w (RemoteDeviceManager.openDevice info env w).factory ∧
      ∀ d, (RemoteDeviceManager.openDevice info env w).value = .ok d →
        Rests m info.evidencePath (RemoteDeviceManager.openDevice info env w).factory d := by
  rcases RemoteDeviceManager.openDevice_cases info env w with ⟨hno, hfactory⟩ |
    ⟨capacity, o, hcap, rfl, hfactory, hvalue⟩
  · rw [hfactory]
    exact ⟨.refl m w, fun d hd => absurd hd (hno d)⟩
  · obtain rfl := henv.capacity_eq hcap
    dsimp only at hfactory hvalue
    rw [(m.valid info.evidencePath).toLong_length] at hfactory hvalue
    have hfollows : Follows m w (w.getEvidenceStore env.io info.evidencePath
        (m.length info.evidencePath) readBlockSize).2 := follows_getEvidenceStore w env.io
    rw [hfactory]
    refine ⟨hfollows, fun d hd => ?_⟩
    obtain ⟨i, geometry, hi, hgeo, rfl⟩ := hvalue d hd
    obtain rfl := Except.ok.inj ((create_ok (m.accepted info.evidencePath)).symm.trans hgeo)
    -- the reader is new, and its store is in the map
    obtain ⟨-, -, -, howns⟩ :=
      (Projects.self hmapped).getEvidenceStore env.io (m.length info.evidencePath) readBlockSize
    obtain ⟨o, ho, hpath⟩ := howns i hi
    refine ⟨⟨rfl, rfl, ⟨o, _⟩, congrArg (Option.map _) ho, hpath, rfl, Nat.zero_le _,
      fun k q hq => (by cases hq), fun n hn => ?_, trivial⟩, rfl⟩
    exact hpath ▸ hfollows.bounded hb o (List.mem_of_getElem? ho) n hn

/-- Opening a file. -/
theorem openFile_rests (hb : Bounded m w)
    (hmapped : ∀ i, w.evidenceStores info.evidencePath = some i → w.Owns info.evidencePath i)
    (henv : VirtualDisk.Reports (m.lastLBA info.evidencePath) (m.sectorSize info.evidencePath) env)
    (hf : ∀ d, f.inputData = some d → Rests m info.evidencePath w d) :
    Follows m w (f.openFile info env w).2.2 ∧
      (f.openFile info env w).2.1.control = f.control ∧
      ∀ d, (f.openFile info env w).2.1.inputData = some d →
        Rests m info.evidencePath (f.openFile info env w).2.2 d := by
  obtain ⟨hfollows, hopened⟩ := openDevice_rests hb hmapped henv
  rw [RemoteNetworkFile.openFile]
  cases hdata : f.inputData with
  | some d => exact ⟨.refl m w, rfl, fun d hd => hf d hd⟩
  | none =>
    dsimp only
    cases hvalue : (RemoteDeviceManager.openDevice info env w).value with
    | error e => exact ⟨hfollows, rfl, fun d hd => (hf d hd).follows hb hfollows⟩
    | ok d =>
      refine ⟨hfollows, rfl, fun d' hd' => ?_⟩
      exact Option.some.inj hd' ▸ hopened d hvalue

/-- Closing a file. -/
theorem closeFile_rests (hb : Bounded m w) (hf : ∀ d, f.inputData = some d → Rests m path w d)
    (connection : Option String) (io : Io) (closeIo : CloseIo) :
    Follows m w (f.closeFile connection io closeIo w).2.2 ∧
      (f.closeFile connection io closeIo w).2.1.control = f.control ∧
      ∀ d, (f.closeFile connection io closeIo w).2.1.inputData = some d →
        Rests m path (f.closeFile connection io closeIo w).2.2 d := by
  rw [RemoteNetworkFile.closeFile]
  cases hdata : f.inputData with
  | none => exact ⟨.refl m w, rfl, fun d hd => hf d hd⟩
  | some d =>
    have hclose : Follows m w (d.close connection io closeIo w).2.2 ∧
        Rests m path (d.close connection io closeIo w).2.2
          (d.close connection io closeIo w).2.1 := by
      have hd := hf d hdata
      have hclosed : Rests m path w { d with isOpen := false } :=
        ⟨hd.toRuns.congr rfl rfl rfl rfl, hd.idle⟩
      unfold IScsiInputData.close
      split_ifs
      · cases connection with
        | some message => exact ⟨.refl m w, hclosed⟩
        | none =>
          have hfollows := follows_closeEvidenceStore (m := m) w io closeIo d.evidenceStore
          exact ⟨hfollows, hclosed.follows hb hfollows⟩
      · exact ⟨.refl m w, hd⟩
    dsimp only
    rcases hc : d.close connection io closeIo w with ⟨_ | _, d', w'⟩
    · rw [hc] at hclose
      exact ⟨hclose.1, rfl, fun d hd => Option.some.inj hd ▸ hclose.2⟩
    · rw [hc] at hclose
      exact ⟨hclose.1, rfl, fun d hd => (by cases hd)⟩

/-- Nothing overflows in a reader of such a device. -/
theorem unwrapped {r : IScsiBlockReader} {t : Session}
    (h : InFlight (m.blockCount path) (m.bitCount path) r t) : r.Unwrapped := by
  intro n hn
  have hcourse := h.course
  rw [hn] at hcourse
  have hlt : n < m.blockCount path := hcourse.1
  have hle := m.blocks_le path
  rw [Media.blockCount, Media.length] at hlt
  omega

/-- A step of the block reader of a file. -/
theorem stepReader_runs {a : Action} {control : FileControl} (hd : Runs m path w d)
    (h : RemoteNetworkFile.stepReader d a control w = some (f', w')) :
    ∃ r t t', d.blockReader.step t a = some (r, t') ∧
      InFlight (m.blockCount path) (m.bitCount path) d.blockReader t ∧
      f' = ⟨some { d with blockReader := r }, control⟩ ∧ Follows m w w' ∧
      Runs m path w' { d with blockReader := r } := by
  obtain ⟨t, ht, rfl, hflight⟩ := hd.inFlight
  rw [RemoteNetworkFile.stepReader, ht, Option.bind_some] at h
  obtain ⟨⟨r, t'⟩, hstep, heq⟩ := Option.map_eq_some_iff.1 h
  cases heq
  have hflight' := hflight.step (m.room _) (fun _ _ => unwrapped hflight) hstep
  have hpath := RemoteNetworkFile.evidenceFilePath_step hstep
  have hfollows := follows_setSession (m := m) ht hpath (effect_of_step hstep).bitmap_subset
    hflight'.bits
  exact ⟨r, t, t', hstep, hflight, rfl, hfollows, hd.size, hd.blockSize, t',
    session_setSession ht t', hpath, hflight'⟩

/-- The thread of a reader does not stop before the call ends. -/
theorem control_ne_idle {r r' : IScsiBlockReader} {t t' : Session} {e : Env}
    (hs : r.step t (.advance e) = some (r', t')) (hidle : r.control ≠ .idle)
    (hbusy : ∀ result, r.control ≠ .returned result) : r'.control ≠ .idle := by
  have hnumber : r.control.blockNumber ≠ none := by
    cases hc : r.control with
    | idle => exact absurd hc hidle
    | returned result => exact absurd hc (hbusy result)
    | completeRequests caller keys => cases caller <;> exact Option.some_ne_none _
    | _ => exact Option.some_ne_none _
  have hfollows : ∀ control, r.control.Follows control → control ≠ .idle := by
    rintro control (h | ⟨x, h⟩) rfl
    · exact hnumber h.symm
    · cases h
  cases effect_of_step hs with
  | move _ control hf => exact hfollows control hf
  | lookup => exact fun h => by cases h
  | request _ n command control hf => exact hfollows control hf
  | drop _ q control hf => exact hfollows control hf
  | store _ q control hf => exact hfollows control hf

/-- A step of the thread in `readFile`. -/
theorem Moves.advance (hf : Moves m path w f) {e : Env} (hdata : f.inputData = some d)
    (h : f.advance d e w = some (f', w')) :
    Follows m w w' ∧ Moves m path w' f' := by
  have hd := hf.runs d hdata
  cases RemoteNetworkFile.advances_of_advance h with
  | finished call r hc hlast =>
    refine ⟨.refl m w, moves_of_idle rfl fun d' hd' => ?_⟩
    exact ⟨hf.runs d' hd', hf.rests d' hd' fun _ _ hc' => by rw [hc] at hc'; cases hc'⟩
  | call call r hc hle hstep =>
    obtain ⟨r', t, t', hcall, -, rfl, hfollows, hd'⟩ := stepReader_runs hd hstep
    have hcontrol : r'.control = .retrieveBlock (toInt r.blockNumber) := by
      cases effect_of_step hcall
      rfl
    refine ⟨hfollows, fun d' hd'' => Option.some.inj hd'' ▸ hd', ?_, ?_, ?_⟩
    · intro d' hd'' hno
      exact absurd rfl (hno call r)
    · intro call' r'' hc'
      cases hc'
    · intro call' r'' hc'
      cases hc'
      refine ⟨⟨_, rfl, ?_⟩, (hf.read call r hc).2, hle⟩
      dsimp only
      rw [hcontrol]
      exact fun h => by cases h
  | step call r hc hbusy hstep =>
    obtain ⟨r', t, t', hadvance, -, rfl, hfollows, hd'⟩ := stepReader_runs hd hstep
    obtain ⟨⟨d₀, hd₀, hidle⟩, hrange⟩ := hf.retrieveBlock call r hc
    obtain rfl : d = d₀ := Option.some.inj (hdata.symm.trans hd₀)
    refine ⟨hfollows, fun d' hd'' => Option.some.inj hd'' ▸ hd', ?_, ?_, ?_⟩
    · intro d' hd'' hno
      exact absurd rfl (hno call r)
    · intro call' r'' hc'
      cases hc'
    · intro call' r'' hc'
      cases hc'
      exact ⟨⟨_, rfl, control_ne_idle hadvance hidle hbusy⟩, hrange⟩
  | copy call r r' block d' hc hreturned hcopy =>
    obtain ⟨-, ⟨hlow, hhigh⟩, hle⟩ := hf.retrieveBlock call r hc
    obtain ⟨hnumber, hlast⟩ := IScsiInputData.blockNumber_copyBlock hcopy
    rw [toLong_eq_self (by omega) (by omega)] at hnumber
    have hidle : d'.blockReader.Idle = true := by
      rw [IScsiInputData.copyBlock_eq_ok hcopy, Idle, hreturned]
    refine ⟨.refl m w, fun d'' hd'' => ?_, fun d'' hd'' _ => Option.some.inj hd'' ▸ hidle, ?_, ?_⟩
    · obtain rfl := Option.some.inj hd''
      rw [IScsiInputData.copyBlock_eq_ok hcopy]
      exact hd.congr rfl rfl rfl rfl
    · intro call' r'' hc'
      cases hc'
      exact ⟨⟨d', rfl⟩, by omega, by omega⟩
    · intro call' r'' hc'
      cases hc'
  | fails call r result x hc hreturned =>
    refine ⟨.refl m w, moves_of_idle rfl fun d' hd' => ⟨hf.runs d' hd', ?_⟩⟩
    obtain rfl : d = d' := Option.some.inj (hdata.symm.trans hd')
    rw [Idle, hreturned]

/-- The arguments have their types, and a device that is opened reports the capacity of those
    at its path, unless it fails to. -/
def Reporting (m : Media) (path : String) : FileAction → Prop
  | .openFile env => VirtualDisk.Reports (m.lastLBA path) (m.sectorSize path) env
  | .seekFile _ _ env => VirtualDisk.Reports (m.lastLBA path) (m.sectorSize path) env
  | .readFile call env =>
    VirtualDisk.Typed call ∧ VirtualDisk.Reports (m.lastLBA path) (m.sectorSize path) env
  | _ => True

/-- The number of blocks that some bytes are in. -/
theorem blocks_of_bytes {B start size len : ℕ} (hB : 0 < B) (hle : size ≤ len) :
    (((start + size - 1) / B : ℕ) + 1 - (start / B : ℕ) : ℤ).toNat ≤ len / B + 2 := by
  have hdiv : (start + len) / B ≤ start / B + len / B + 1 := by
    rw [Nat.add_div hB]
    split_ifs <;> omega
  have hmono : (start + size - 1) / B ≤ (start + len) / B := Nat.div_le_div_right (by omega)
  generalize (start + size - 1) / B = last at hmono ⊢
  generalize start / B = first at hdiv ⊢
  generalize len / B = count at hdiv ⊢
  omega

/-- A call of `readFile` that enters its loop has at most the blocks that its bytes are in. -/
theorem inRange_of_startRead (htyped : VirtualDisk.Typed call) (hd : Runs m path w d)
    (hseek : d.seek call.fileOff = .ok d')
    (hstart : d'.startRead call.buf call.pos call.len = .ok (.inr r)) :
    r.InRange ∧ (r.lastBlock + 1 - r.blockNumber).toNat ≤ call.len.toNat / readBlockSize + 2 := by
  obtain ⟨-, hoff, hle, hd'⟩ := IScsiInputData.seek_eq_ok hseek
  have hL : m.length path < 2 ^ 62 := VirtualDisk.length_lt (m.valid path)
  have hposition : d'.position = call.fileOff.toNat := by rw [hd', Int.toNat_of_nonneg hoff]
  have hcases := IScsiInputData.startRead_cases (D := (.zeros 0 : Buffer Byte)) hL
    (by rw [hd']; exact hd.size) (by rw [hd']; exact hd.blockSize) hposition htyped.2.2 htyped.2.1
    hstart
  rcases hcases with ⟨k, -, hk⟩ | ⟨r', hr', hlen, hlt, -, -, hcopied⟩
  · cases hk
  · cases hr'
    have hsize : 0 < min call.len.toNat (m.length path - call.fileOff.toNat) := by omega
    have hnumber := hcopied.blockNumber
    rw [if_pos hsize] at hnumber
    have hlast := hcopied.lastBlock
    rw [Nat.add_zero] at hnumber
    have hself := Nat.div_le_self (call.fileOff.toNat +
      min call.len.toNat (m.length path - call.fileOff.toNat) - 1) readBlockSize
    rw [Reading.InRange, hnumber, hlast]
    refine ⟨⟨Int.natCast_nonneg _, ?_⟩, ?_⟩
    · exact_mod_cast (by omega : (call.fileOff.toNat +
        min call.len.toNat (m.length path - call.fileOff.toNat) - 1) / readBlockSize < 2 ^ 62)
    · exact blocks_of_bytes VirtualDisk.readBlockSize_pos (min_le_left _ _)

/-! ## The number of steps -/

/-- A step of the thread brings the end of the call closer, unless it waits in vain. -/
theorem Moves.remaining_advance (hf : Moves m path w f) {e : Env} (hdata : f.inputData = some d)
    (h : f.advance d e w = some (f', w')) :
    1 + f'.remaining ≤ f.remaining + if f.WaitsInVain then maxRequestsInFlight + 3 else 0 := by
  have hd := hf.runs d hdata
  cases RemoteNetworkFile.advances_of_advance h with
  | finished call r hc hlast =>
    rw [RemoteNetworkFile.remaining_read hc]
    change 1 + 0 ≤ _
    omega
  | call call r hc hle hstep =>
    obtain ⟨r', t, t', hcall, -, rfl, -, -⟩ := stepReader_runs hd hstep
    have hreader : r'.remaining = 2 + slotBudget := by
      cases effect_of_step hcall
      rfl
    -- the block that is asked for is one of those that were left
    have hleft : (r.lastBlock + 1 - r.blockNumber).toNat =
        (r.lastBlock - r.blockNumber).toNat + 1 := by omega
    rw [RemoteNetworkFile.remaining_read hc, hleft,
      RemoteNetworkFile.remaining_retrieveBlock rfl rfl, hreader, Nat.succ_mul,
      RemoteNetworkFile.blockBudget]
    omega
  | step call r hc hbusy hstep =>
    obtain ⟨r', t, t', hadvance, hflight, rfl, -, -⟩ := stepReader_runs hd hstep
    have hle := hflight.remaining_advance (m.room path) (unwrapped hflight) hadvance
    rw [RemoteNetworkFile.remaining_retrieveBlock hc hdata,
      RemoteNetworkFile.remaining_retrieveBlock rfl rfl]
    have hvain : f.WaitsInVain ↔ d.blockReader.WaitsInVain := by
      rw [RemoteNetworkFile.WaitsInVain, hdata]
    rw [if_congr hvain rfl rfl]
    dsimp only
    omega
  | copy call r r' block d' hc hreturned hcopy =>
    obtain ⟨-, ⟨hlow, hhigh⟩, hle⟩ := hf.retrieveBlock call r hc
    obtain ⟨hnumber, hlast⟩ := IScsiInputData.blockNumber_copyBlock hcopy
    rw [toLong_eq_self (by omega) (by omega)] at hnumber
    have hleft : r'.lastBlock + 1 - r'.blockNumber = r.lastBlock - r.blockNumber := by omega
    rw [RemoteNetworkFile.remaining_retrieveBlock hc hdata, RemoteNetworkFile.remaining_read rfl,
      hleft]
    omega
  | fails call r result x hc hreturned =>
    rw [RemoteNetworkFile.remaining_retrieveBlock hc hdata]
    change 1 + 0 ≤ _
    omega

/-- A call of `readFile` starts, with as many blocks as its bytes are in. -/
theorem readFile_moves (hb : Bounded m w)
    (hmapped : ∀ i, w.evidenceStores info.evidencePath = some i → w.Owns info.evidencePath i)
    (henv : Reporting m info.evidencePath (.readFile call env))
    (hf : ∀ d, f.inputData = some d → Rests m info.evidencePath w d) :
    Follows m w (f.readFile info call env w).2 ∧
      Moves m info.evidencePath (f.readFile info call env w).2 (f.readFile info call env w).1 ∧
      (f.readFile info call env w).1.remaining ≤
        (call.len.toNat / readBlockSize + 2) * RemoteNetworkFile.blockBudget + 1 := by
  obtain ⟨hfollows, -, hopened⟩ := openFile_rests hb hmapped henv.2 hf
  obtain ⟨hfactory, hcases⟩ := f.readFile_cases info call env w
  rw [hfactory]
  refine ⟨hfollows, ?_⟩
  rcases hcases with ⟨result, -, hread | ⟨d, d', hdata, hseek, hread⟩⟩ |
    ⟨d, d', r, hdata, hseek, hstart, hread⟩ <;> rw [hread]
  · exact ⟨moves_of_idle rfl hopened, Nat.zero_le _⟩
  · refine ⟨moves_of_idle rfl fun d'' hd'' => ?_, Nat.zero_le _⟩
    obtain rfl := Option.some.inj hd''
    obtain ⟨-, -, -, rfl⟩ := IScsiInputData.seek_eq_ok hseek
    exact (hopened d hdata).setPosition _
  · obtain ⟨hrange, hblocks⟩ := inRange_of_startRead henv.1 (hopened d hdata).toRuns hseek hstart
    obtain ⟨-, -, -, rfl⟩ := IScsiInputData.seek_eq_ok hseek
    have hrests := (hopened d hdata).setPosition call.fileOff
    refine ⟨⟨fun d' hd' => Option.some.inj hd' ▸ hrests.toRuns,
      fun d' hd' _ => Option.some.inj hd' ▸ hrests.idle, fun call' r' hc => ?_, ?_⟩, ?_⟩
    · cases hc
      exact ⟨⟨_, rfl⟩, hrange⟩
    · intro call' r' hc
      cases hc
    · rw [RemoteNetworkFile.remaining_read rfl]
      exact Nat.succ_le_succ (Nat.mul_le_mul_right _ hblocks)

/-- Every step of a file keeps the invariant, and brings the end of the call closer, or at least
    no further away, unless it starts a new call. -/
theorem Moves.step {a : FileAction} (hf : Moves m info.evidencePath w f) (hb : Bounded m w)
    (hmapped : ∀ i, w.evidenceStores info.evidencePath = some i → w.Owns info.evidencePath i)
    (ha : Reporting m info.evidencePath a) (h : f.step info w a = some (f', w')) :
    Follows m w w' ∧ Moves m info.evidencePath w' f' ∧
      ((∀ call env, a ≠ .readFile call env) → RemoteNetworkFile.threadSteps a + f'.remaining ≤
        f.remaining + f.vainSteps a) := by
  -- a call other than `readFile`, on a file on which no call is being executed
  have hcall : ∀ p : RemoteNetworkFile × EvidenceStoreFactory, f.Idle = true →
      (Follows m w p.2 ∧ p.1.control = f.control ∧
        ∀ d, p.1.inputData = some d → Rests m info.evidencePath p.2 d) →
      Follows m w p.2 ∧ Moves m info.evidencePath p.2 p.1 ∧ p.1.remaining = 0 := by
    rintro p hidle ⟨hfollows, hc, hrests⟩
    have hidle' : p.1.Idle = true := by rwa [RemoteNetworkFile.Idle, hc]
    exact ⟨hfollows, moves_of_idle hidle' hrests, RemoteNetworkFile.remaining_of_idle hidle'⟩
  cases a with
  | openFile env =>
    rw [RemoteNetworkFile.step] at h
    split_ifs at h with hidle
    have hopen := hcall _ hidle (openFile_rests hb hmapped ha (hf.rests_of_idle hidle))
    rw [Option.some.inj h] at hopen
    exact ⟨hopen.1, hopen.2.1, fun _ => by rw [hopen.2.2]; exact Nat.zero_le _⟩
  | closeFile connection io closeIo =>
    rw [RemoteNetworkFile.step] at h
    split_ifs at h with hidle
    have hclose :=
      hcall _ hidle (closeFile_rests hb (hf.rests_of_idle hidle) connection io closeIo)
    rw [Option.some.inj h] at hclose
    exact ⟨hclose.1, hclose.2.1, fun _ => by rw [hclose.2.2]; exact Nat.zero_le _⟩
  | seekFile pos typ env =>
    rw [RemoteNetworkFile.step] at h
    split_ifs at h with hidle
    obtain ⟨hfollows, hc, hrests⟩ := openFile_rests hb hmapped ha (hf.rests_of_idle hidle)
    obtain ⟨hfactory, hcases⟩ := f.seekFile_cases info pos typ env w
    have hseek := hcall (f.seekFile info pos typ env w).2 hidle ?_
    · rw [Option.some.inj h] at hseek
      exact ⟨hseek.1, hseek.2.1, fun _ => by rw [hseek.2.2]; exact Nat.zero_le _⟩
    rw [hfactory]
    rcases hcases with hfile | ⟨d, position, d', hdata, hseek, hfile⟩ <;> rw [hfile]
    · exact ⟨hfollows, hc, hrests⟩
    · refine ⟨hfollows, hc, fun d'' hd'' => ?_⟩
      obtain rfl := Option.some.inj hd''
      obtain ⟨-, -, -, rfl⟩ := IScsiInputData.seek_eq_ok hseek
      exact (hrests d hdata).setPosition position
  | readFile call env =>
    rw [RemoteNetworkFile.step] at h
    split_ifs at h with hidle
    obtain ⟨hfollows, hmoves, -⟩ := readFile_moves hb hmapped ha (hf.rests_of_idle hidle)
    rw [Option.some.inj h] at hfollows hmoves
    exact ⟨hfollows, hmoves, fun hno => absurd rfl (hno call env)⟩
  | advance env =>
    obtain ⟨d, hdata, hadvance⟩ := Option.bind_eq_some_iff.1 h
    obtain ⟨hfollows, hmoves⟩ := hf.advance hdata hadvance
    exact ⟨hfollows, hmoves, fun _ => hf.remaining_advance hdata hadvance⟩
  | finish n outcome =>
    obtain ⟨d, hdata, hfinish⟩ := Option.bind_eq_some_iff.1 h
    obtain ⟨r', t, t', hstep, -, rfl, hfollows, hd'⟩ := stepReader_runs (hf.runs d hdata) hfinish
    have hcontrol : r'.control = d.blockReader.control := by
      cases effect_of_step hstep
      rfl
    refine ⟨hfollows, ⟨fun d' hd'' => Option.some.inj hd'' ▸ hd', fun d' hd'' hno => ?_, ?_, ?_⟩,
      fun _ => ?_⟩
    · obtain rfl := Option.some.inj hd''
      rw [Idle, hcontrol]
      exact hf.rests d hdata hno
    · exact fun call r hc => ⟨⟨_, rfl⟩, (hf.read call r hc).2⟩
    · intro call r hc
      obtain ⟨⟨d₀, hd₀, hidle⟩, hrest⟩ := hf.retrieveBlock call r hc
      obtain rfl : d = d₀ := Option.some.inj (hdata.symm.trans hd₀)
      exact ⟨⟨_, rfl, hcontrol ▸ hidle⟩, hrest⟩
    · have hle := remaining_finish hstep
      have hsteps : RemoteNetworkFile.threadSteps (.finish n outcome) = 0 := rfl
      have hvain : f.vainSteps (.finish n outcome) = 0 := rfl
      rw [hsteps, hvain, Nat.zero_add, Nat.add_zero]
      cases hc : f.control with
      | retrieveBlock call r =>
        rw [RemoteNetworkFile.remaining_retrieveBlock hc hdata,
          RemoteNetworkFile.remaining_retrieveBlock rfl rfl]
        exact Nat.add_le_add_right hle _
      | _ =>
        rw [RemoteNetworkFile.remaining, RemoteNetworkFile.remaining, hc]

/-- While the call has not ended, its thread can take a step. -/
theorem Moves.advance_isSome (hf : Moves m path w f) (info : RemoteDeviceInfo)
    (hidle : f.Idle = false) :
    ∃ key, ∀ io error, (f.step info w (.advance ⟨key, io, error⟩)).isSome = true := by
  cases hc : f.control with
  | idle | returned =>
    rw [RemoteNetworkFile.Idle, hc] at hidle
    cases hidle
  | read call r =>
    obtain ⟨⟨d, hdata⟩, -⟩ := hf.read call r hc
    refine ⟨0, fun io error => ?_⟩
    obtain ⟨t, ht, -, hflight⟩ := (hf.runs d hdata).inFlight
    have hrests := hf.rests d hdata fun _ _ hc' => by rw [hc] at hc'; cases hc'
    rw [RemoteNetworkFile.step, hdata, Option.bind_some, RemoteNetworkFile.advance, hc]
    dsimp only
    split_ifs
    · rfl
    · rw [RemoteNetworkFile.stepReader, ht, Option.bind_some, IScsiBlockReader.step, if_pos hrests]
      rfl
  | retrieveBlock call r =>
    obtain ⟨⟨d, hdata, hd⟩, -⟩ := hf.retrieveBlock call r hc
    obtain ⟨t, ht, -, hflight⟩ := (hf.runs d hdata).inFlight
    cases hrc : d.blockReader.control with
    | idle => exact absurd hrc hd
    | returned result =>
      refine ⟨0, fun io error => ?_⟩
      rw [RemoteNetworkFile.step, hdata, Option.bind_some, RemoteNetworkFile.advance, hc]
      dsimp only
      rw [hrc]
      cases result with
      | error x => rfl
      | ok block =>
        dsimp only
        cases d.copyBlock r block <;> rfl
    | _ =>
      have hbusy : d.blockReader.Idle = false := by
        rw [Idle, hrc]
      obtain ⟨key, hkey⟩ := IScsiBlockReader.advance_isSome (s := t) hbusy
      refine ⟨key, fun io error => ?_⟩
      rw [RemoteNetworkFile.step, hdata, Option.bind_some, RemoteNetworkFile.advance, hc]
      dsimp only
      rw [hrc, RemoteNetworkFile.stepReader, ht, Option.bind_some, Option.isSome_map]
      exact hkey io error

end Media

/-! ## Runs -/

namespace FileServer

variable {m : Media} {κ ι : Type*} [DecidableEq κ] [DecidableEq ι] {info : κ → RemoteDeviceInfo}
  {g g' : FileServer κ ι} {a : κ × ι × FileAction} {disk : String → Files} {k : κ} {i : ι}
  {l : List (κ × ι × FileAction)}

/-- The invariant of the server: its stores, and every file. -/
structure Progresses (m : Media) (info : κ → RemoteDeviceInfo) (g : FileServer κ ι) : Prop where
  tidy : Tidy info g
  bounded : m.Bounded g.factory
  moves : ∀ k i, m.Moves (info k).evidencePath g.factory (g.files k i)

omit [DecidableEq κ] [DecidableEq ι] in
theorem progresses_init : Progresses m info (init disk : FileServer κ ι) where
  tidy := tidy_init
  bounded o ho := by cases ho
  moves k i := Media.moves_of_idle rfl fun d hd => by cases hd

/-- The devices that are opened report what those at their path do. -/
def Reporting (m : Media) (info : κ → RemoteDeviceInfo) (a : κ × ι × FileAction) : Prop :=
  m.Reporting (info a.1).evidencePath a.2.2

/-- `1` if the step is one of the thread of this file. -/
def threadSteps (k : κ) (i : ι) (_ : FileServer κ ι) (a : κ × ι × FileAction) : ℕ :=
  if a.1 = k ∧ a.2.1 = i then RemoteNetworkFile.threadSteps a.2.2 else 0

/-- What a step of the thread of this file adds to the bound on its steps if it waits in vain. -/
def vainSteps (k : κ) (i : ι) (g : FileServer κ ι) (a : κ × ι × FileAction) : ℕ :=
  if a.1 = k ∧ a.2.1 = i then (g.files k i).vainSteps a.2.2 else 0

/-- Every step keeps the invariant, and brings the end of the call on a file closer, or at least
    no further away, unless it starts a new call on it. -/
theorem Progresses.step (h : Progresses m info g) (ha : Reporting m info a)
    (hs : FileServer.step info g a = some g') :
    Progresses m info g' ∧ ∀ k i, (∀ call env, a ≠ (k, i, .readFile call env)) →
      threadSteps k i g a + (g'.files k i).remaining ≤
        (g.files k i).remaining + vainSteps k i g a := by
  have htidy := (h.tidy.step hs).1
  obtain ⟨⟨f', w'⟩, hstep, rfl⟩ := Option.map_eq_some_iff.1 hs
  obtain ⟨hfollows, hmoves, hremaining⟩ :=
    (h.moves a.1 a.2.1).step h.bounded (h.tidy.mapped _) ha hstep
  refine ⟨⟨htidy, hfollows.bounded h.bounded, fun k i => ?_⟩, fun k i hno => ?_⟩
  · dsimp only
    rw [files_step]
    split_ifs with hki
    · rw [hki.1]
      exact hmoves
    · exact (h.moves k i).follows h.bounded hfollows
  · rw [threadSteps, vainSteps]
    dsimp only
    rw [files_step]
    by_cases hki : a.1 = k ∧ a.2.1 = i
    · obtain ⟨rfl, rfl⟩ := hki
      rw [if_pos ⟨rfl, rfl⟩, if_pos ⟨rfl, rfl⟩, if_pos ⟨rfl, rfl⟩]
      exact hremaining fun call env hcall => hno call env (hcall ▸ rfl)
    · rw [if_neg hki, if_neg hki, if_neg fun hki' => hki ⟨hki'.1.symm, hki'.2.symm⟩, Nat.zero_add,
        Nat.add_zero]

/-- A call starts with a bounded number of steps to take. -/
theorem Progresses.remaining_readFile {call : ReadFile} {env : OpenEnv}
    (h : Progresses m info g) (ha : Reporting m info (k, i, .readFile call env))
    (hs : FileServer.step info g (k, i, .readFile call env) = some g') :
    (g'.files k i).remaining ≤
      (call.len.toNat / readBlockSize + 2) * RemoteNetworkFile.blockBudget + 1 := by
  obtain ⟨⟨f', w'⟩, hstep, rfl⟩ := Option.map_eq_some_iff.1 hs
  dsimp only at hstep ⊢
  rw [Function.update_self, Function.update_self]
  rw [RemoteNetworkFile.step] at hstep
  split_ifs at hstep with hidle
  obtain ⟨-, -, hremaining⟩ := Media.readFile_moves h.bounded (h.tidy.mapped _) ha
    ((h.moves k i).rests_of_idle hidle)
  rwa [Option.some.inj hstep] at hremaining

/-- In any run, a call of `readFile` takes a bounded number of steps, beyond those that a turn of
    waiting in vain adds, whatever the answers are, whatever fails, and whatever the other files
    do; and until it ends, its thread can take a step. -/
theorem readFile_ends (m : Media) (info : κ → RemoteDeviceInfo) (disk : String → Files)
    (l l' : List (κ × ι × FileAction)) (k : κ) (i : ι) (call : ReadFile) (env : OpenEnv)
    (g g' : FileServer κ ι)
    (hg : Transition.runs (step info) (init disk) (l ++ [(k, i, .readFile call env)]) = some g)
    (hg' : Transition.runs (step info) g l' = some g')
    (hl : ∀ a ∈ l ++ [(k, i, .readFile call env)] ++ l', Reporting m info a)
    (hcalls : ∀ call env, (k, i, .readFile call env) ∉ l') :
    Transition.cost (step info) (threadSteps k i) g l' ≤
      (call.len.toNat / readBlockSize + 2) * RemoteNetworkFile.blockBudget + 1 +
        Transition.cost (step info) (vainSteps k i) g l' ∧
    ((g'.files k i).Idle = false → ∃ key, ∀ io error,
      (step info g' (k, i, .advance ⟨key, io, error⟩)).isSome = true) := by
  have hstep : ∀ (u : FileServer κ ι) a v, Reporting m info a → Progresses m info u →
      step info u a = some v → Progresses m info v := fun u a v ha h hs => (h.step ha hs).1
  obtain ⟨g₀, hg₀, hcall⟩ := Transition.runs_concat.1 hg
  have hg₀' : Progresses m info g₀ := Transition.runs_invariant hstep hg₀
    (.of_forall fun _ a ha => hl a (by simp [ha])) progresses_init
  have hstart := hl (k, i, .readFile call env) (by simp)
  have hg'' : Progresses m info g := hstep _ _ _ hstart hg₀' hcall
  have hreport : Transition.AllSteps (step info) (fun _ a => Reporting m info a ∧
      ∀ call env, a ≠ (k, i, .readFile call env)) g l' :=
    .of_forall fun _ a ha => ⟨hl a (by simp [ha]), fun call env h => hcalls call env (h ▸ ha)⟩
  -- each step of the thread is paid for by what is left of the call
  have hbudget := Transition.runs_budget (I := Progresses m info)
    (φ := fun g => (g.files k i).remaining) (fun u a v ha => hstep u a v ha.1)
    (fun u a v ha h hs => (h.step ha.1 hs).2 k i ha.2) hg' hreport hg''
  have hremaining := hg₀'.remaining_readFile hstart hcall
  have hlast : Progresses m info g' := Transition.runs_invariant
    (fun u a v ha => hstep u a v ha.1) hg' hreport hg''
  refine ⟨by omega, fun hidle => ?_⟩
  obtain ⟨key, hkey⟩ := (hlast.moves k i).advance_isSome (info k) hidle
  refine ⟨key, fun io error => ?_⟩
  rw [step, Option.isSome_map]
  exact hkey io error

/-- Devices of `100` sectors. -/
def smallMedia : Media where
  lastLBA _ := 99
  sectorSize _ := 512
  valid _ := by constructor <;> decide
  blocks_le _ := by decide

/-- The first byte of the other device is read at the same time. -/
def meanwhile : List (Bool × Unit × FileAction) :=
  (true, (), readFirst) :: (both (List.replicate 11 VirtualDisk.go) ++ answers)

theorem mem_meanwhile {a : Bool × Unit × FileAction} (h : a ∈ meanwhile) :
    a = (true, (), readFirst) ∨ a.2.2 = VirtualDisk.go ∨
      a.2.2 = .finish 0 VirtualDisk.answer := by
  rcases List.mem_cons.1 h with rfl | h
  · exact .inl rfl
  rcases List.mem_append.1 h with h | h
  · exact .inr (.inl (List.eq_of_mem_replicate (mem_both h)))
  rcases List.mem_append.1 h with h | h
  · exact .inr (.inr (List.mem_singleton.1 (mem_both h)))
  · exact .inr (.inl (List.eq_of_mem_replicate (mem_both h)))

/-- The call on the first device, for one byte, takes no more steps than for two blocks. -/
theorem readFile_ends_both : ∃ g g',
    Transition.runs (step twoDevices) (init VirtualDisk.emptyDisk) [(false, (), readFirst)] =
      some g ∧
    Transition.runs (step twoDevices) g meanwhile = some g' ∧
    Transition.cost (step twoDevices) (threadSteps false ()) g meanwhile ≤
      (1 / readBlockSize + 2) * RemoteNetworkFile.blockBudget + 1 +
        Transition.cost (step twoDevices) (vainSteps false ()) g meanwhile := by
  have hrun : (Transition.runs (step twoDevices)
      (init VirtualDisk.emptyDisk : FileServer Bool Unit)
      ([(false, (), readFirst)] ++ meanwhile)).isSome := by decide +kernel
  obtain ⟨g', hg'⟩ := Option.isSome_iff_exists.1 hrun
  obtain ⟨g, hg, hg'⟩ := Transition.runs_append.1 hg'
  refine ⟨g, g', hg, hg', (readFile_ends smallMedia twoDevices VirtualDisk.emptyDisk [] meanwhile
    false () _ _ g g' hg hg' (fun a ha => ?_) fun call env hmem => ?_).1⟩
  · have hread : ∀ b, Reporting smallMedia twoDevices (b, (), readFirst) := by
      refine fun b => ⟨⟨by decide, by decide, by decide⟩, fun lba blockSize h => ?_⟩
      cases h
      exact ⟨rfl, rfl⟩
    rcases List.mem_cons.1 ha with rfl | ha
    · exact hread false
    · rcases mem_meanwhile ha with rfl | hgo | hfinish
      · exact hread true
      · rw [Reporting, hgo]
        trivial
      · rw [Reporting, hfinish]
        trivial
  · rcases mem_meanwhile hmem with h | h | h <;> cases h

end FileServer

end Raqet
