import Raqet.Evidence.Stores
import Raqet.IScsi.Delivery
import Raqet.Smb.NetworkFile

/-!
# Virtual disks

Any number of files that present one device, each opened, read and closed again at any
time, while the others are: their steps interleave in any way, and so do the answers of
the device. They share the evidence stores of one path.

What a call of `readFile` returns is right (`Delivers`) if the bytes it asks for are
kept by the evidence store (`readsExactly`). All bytes of the disk are, but some at its
end, where more than half of the last block is in the image (`keptEnd_eq_iff`).
-/

namespace Raqet

open Java Buffer EvidenceStore Session IScsiBlockReader ReadGeometry

/-- Files that present one device, and the factory of evidence stores. -/
structure VirtualDisk (ι : Type*) where
  factory : EvidenceStoreFactory
  files : ι → RemoteNetworkFile

namespace VirtualDisk

variable {ι : Type*} [DecidableEq ι]

/-- A step of one of the files. -/
def step (info : RemoteDeviceInfo) (g : VirtualDisk ι) (a : ι × FileAction) :
    Option (VirtualDisk ι) :=
  ((g.files a.1).step info g.factory a.2).map fun p => ⟨p.2, Function.update g.files a.1 p.1⟩

/-- No file has been opened. -/
def init (disk : String → Files) : VirtualDisk ι := ⟨⟨fun _ => none, [], disk⟩, fun _ => .new⟩

/-- The device reports its capacity, unless it fails to. -/
def Reports (lastLBA s : ℕ) (env : OpenEnv) : Prop :=
  ∀ lba blockSize, env.capacity = .good (lba, blockSize) → lba % 2 ^ 32 = lastLBA ∧ blockSize = s

/-- The arguments have their types: the length of an array is an `int`. -/
def Typed (call : ReadFile) : Prop :=
  call.buf.length < 2 ^ 31 ∧ call.len < 2 ^ 31 ∧ call.pos < 2 ^ 31

/-- The answers are those of a device with this number of the last sector, this size of
    the sectors, and this content; or they are failures. -/
def Faithful (lastLBA s : ℕ) (D : Buffer Byte) (g : VirtualDisk ι) : ι × FileAction → Prop
  | (_, .openFile env) => Reports lastLBA s env
  | (_, .seekFile _ _ env) => Reports lastLBA s env
  | (_, .readFile call env) => Typed call ∧ Reports lastLBA s env
  | (i, .finish n outcome) =>
    ∀ d, (g.files i).inputData = some d → Honest s D d.blockReader (.finish n outcome)
  | _ => True

/-- If the call returned a positive count, it is the number of bytes that were asked for
    and are there, and the buffer has these bytes. -/
def Delivers (L : ℕ) (D : Buffer Byte) (call : ReadFile) (result : Except Exn ℤ)
    (buffer : Buffer Byte) : Prop :=
  ∀ k, result = .ok k → 0 < k → 0 ≤ call.fileOff → call.fileOff ≤ L →
    k = min call.len (L - call.fileOff) ∧ 0 ≤ call.pos ∧ call.pos + k ≤ buffer.length ∧
      ∀ j : ℕ, j < k → buffer.get (call.pos.toNat + j) = D.get (call.fileOff.toNat + j)

/-- In every run on fresh files, what the calls of `readFile` that satisfy `P` return is
    right. -/
def ReadsExactly (ι : Type*) [DecidableEq ι] (lastLBA s : ℕ) (P : ReadFile → Prop) : Prop :=
  ∀ (info : RemoteDeviceInfo) (D : Buffer Byte) (disk : String → Files) (l : List (ι × FileAction))
    (g : VirtualDisk ι), D.length = (lastLBA + 1) * s →
    (disk info.evidencePath).bitmap.length = 0 →
    Transition.AllSteps (step info) (Faithful lastLBA s D) (init disk) l →
    Transition.runs (step info) (init disk) l = some g →
    ∀ i call result buffer, (g.files i).control = .returned call result buffer → P call →
      Delivers ((lastLBA + 1) * s) D call result buffer

/-- The end of what is kept of an image: the part of its last block that is transferred. -/
def keptEnd (L B : ℕ) : ℕ := L / B * B + keptLength L B (L / B)

/-- The call asks for bytes before this end, or past the image. -/
def Within (L B : ℕ) (call : ReadFile) : Prop := min (call.fileOff + call.len) L ≤ keptEnd L B

/-! ## The invariant -/

variable {lastLBA s : ℕ} {D : Buffer Byte} {info : RemoteDeviceInfo} {env : OpenEnv}
  {w w' : EvidenceStoreFactory} {f f' : RemoteNetworkFile} {d d' : IScsiInputData} {r r' : Reading}
  {call : ReadFile} {g g' : VirtualDisk ι} {i : ι} {a : FileAction}

/-- Input data of the device. -/
structure Presents (lastLBA s : ℕ) (D : Buffer Byte) (d : IScsiInputData) : Prop where
  size : d.size = ((lastLBA + 1) * s : ℕ)
  blockSize : d.readBlockSize = readBlockSize
  serving : Serving lastLBA s readBlockSize D d.blockReader

/-- In the loop of `read`, what was copied so far is right. -/
structure InLoop (L B : ℕ) (D : Buffer Byte) (call : ReadFile) (d : IScsiInputData) (r : Reading) :
    Prop where
  fileOff : 0 ≤ call.fileOff ∧ call.fileOff < L
  len : 0 < call.len ∧ call.len < 2 ^ 31
  offset : r.offset = call.pos
  length : r.buffer.length < 2 ^ 31
  copied : ∃ t, IScsiInputData.Copied D B call.fileOff.toNat
    (min call.len.toNat (L - call.fileOff.toNat)) t d r

/-- The invariant of a file. -/
structure Sound (lastLBA s : ℕ) (D : Buffer Byte) (f : RemoteNetworkFile) : Prop where
  presents : ∀ d, f.inputData = some d → Presents lastLBA s D d
  read : ∀ call r d, f.control = .read call r → f.inputData = some d →
    Within ((lastLBA + 1) * s) readBlockSize call →
      InLoop ((lastLBA + 1) * s) readBlockSize D call d r
  retrieveBlock : ∀ call r d, f.control = .retrieveBlock call r → f.inputData = some d →
    Retrieves ((lastLBA + 1) * s) readBlockSize D (toInt r.blockNumber) d.blockReader.control ∧
      (Within ((lastLBA + 1) * s) readBlockSize call →
        InLoop ((lastLBA + 1) * s) readBlockSize D call d r ∧ r.blockNumber ≤ r.lastBlock)
  returned : ∀ call result buffer, f.control = .returned call result buffer →
    Within ((lastLBA + 1) * s) readBlockSize call →
    Delivers ((lastLBA + 1) * s) D call result buffer

theorem readBlockSize_pos : 0 < readBlockSize := by decide

theorem readBlockSize_lt : readBlockSize < 2 ^ 31 := by decide

theorem length_lt (h : ValidDisk lastLBA s readBlockSize) : (lastLBA + 1) * s < 2 ^ 62 :=
  h.length_le.trans_lt (by decide)

/-! ## Opening and closing -/

/-- The capacity that was read is the one that the device reports. -/
theorem Reports.capacity_eq {capacity : IScsiLogicalUnitCapacity} (henv : Reports lastLBA s env)
    (hcap : IScsiLogicalUnit.readCapacity env.capacity = .ok capacity) :
    capacity = ⟨lastLBA, s⟩ := by
  cases hc : env.capacity with
  | good data =>
    obtain ⟨lba, blockSize⟩ := data
    obtain ⟨h₁, h₂⟩ := henv lba blockSize hc
    rw [hc, IScsiLogicalUnit.readCapacity, h₁, h₂] at hcap
    exact (Except.ok.inj hcap).symm
  | _ =>
    rw [hc] at hcap
    cases hcap

/-- A device that is opened is the one that reports its capacity. -/
theorem openDevice_presents (hd : ValidDisk lastLBA s readBlockSize)
    (hw : Stores ((lastLBA + 1) * s) readBlockSize D info.evidencePath w)
    (henv : Reports lastLBA s env) :
    (∀ d, (RemoteDeviceManager.openDevice info env w).value = .ok d → Presents lastLBA s D d) ∧
      Stores ((lastLBA + 1) * s) readBlockSize D info.evidencePath
        (RemoteDeviceManager.openDevice info env w).factory := by
  rcases RemoteDeviceManager.openDevice_cases info env w with ⟨hno, hfactory⟩ |
    ⟨capacity, o, hcap, rfl, hfactory, hvalue⟩
  · rw [hfactory]
    exact ⟨fun d hd => absurd hd (hno d), hw⟩
  · obtain rfl := henv.capacity_eq hcap
    dsimp only at hfactory hvalue
    rw [hd.toLong_length] at hfactory hvalue
    rw [hfactory]
    refine ⟨fun d hval => ?_, hw.getEvidenceStore env.io⟩
    obtain ⟨i, geometry, -, hgeo, rfl⟩ := hvalue d hval
    obtain rfl := Except.ok.inj ((create_eq hd).symm.trans hgeo)
    exact ⟨rfl, rfl, serving_new⟩

/-- Opening a file: its input data is of the device, and so are the stores. -/
theorem openFile_presents (hd : ValidDisk lastLBA s readBlockSize)
    (hf : ∀ d, f.inputData = some d → Presents lastLBA s D d)
    (hw : Stores ((lastLBA + 1) * s) readBlockSize D info.evidencePath w)
    (henv : Reports lastLBA s env) :
    (∀ d, (f.openFile info env w).2.1.inputData = some d → Presents lastLBA s D d) ∧
      Stores ((lastLBA + 1) * s) readBlockSize D info.evidencePath (f.openFile info env w).2.2 ∧
      (f.openFile info env w).2.1.control = f.control := by
  obtain ⟨hpresents, hstores⟩ := openDevice_presents hd hw henv
  rw [RemoteNetworkFile.openFile]
  cases hdata : f.inputData with
  | some d => exact ⟨hf, hw, rfl⟩
  | none =>
    dsimp only
    cases hvalue : (RemoteDeviceManager.openDevice info env w).value with
    | error e => exact ⟨hf, hstores, rfl⟩
    | ok d =>
      refine ⟨fun d' hd' => ?_, hstores, rfl⟩
      exact Option.some.inj hd' ▸ hpresents d hvalue

theorem Presents.congr (h : Presents lastLBA s D d) (hsize : d'.size = d.size)
    (hblock : d'.readBlockSize = d.readBlockSize) (hreader : d'.blockReader = d.blockReader) :
    Presents lastLBA s D d' := ⟨hsize.trans h.size, hblock.trans h.blockSize, hreader ▸ h.serving⟩

/-- A file on which no call of `readFile` is being executed. -/
theorem sound_of_idle (hidle : f.Idle = true)
    (hf : ∀ d, f.inputData = some d → Presents lastLBA s D d)
    (hreturned : ∀ call result buffer, f.control = .returned call result buffer →
      Within ((lastLBA + 1) * s) readBlockSize call →
      Delivers ((lastLBA + 1) * s) D call result buffer) : Sound lastLBA s D f where
  presents := hf
  read call r d hc := by
    rw [RemoteNetworkFile.Idle, hc] at hidle
    cases hidle
  retrieveBlock call r d hc := by
    rw [RemoteNetworkFile.Idle, hc] at hidle
    cases hidle
  returned := hreturned

/-- Closing a file, whatever fails. -/
theorem closeFile_presents (hf : ∀ d, f.inputData = some d → Presents lastLBA s D d)
    (hw : Stores ((lastLBA + 1) * s) readBlockSize D info.evidencePath w)
    (connection : Option String) (io : Io) (closeIo : CloseIo) :
    (∀ d, (f.closeFile connection io closeIo w).2.1.inputData = some d → Presents lastLBA s D d) ∧
      Stores ((lastLBA + 1) * s) readBlockSize D info.evidencePath
        (f.closeFile connection io closeIo w).2.2 ∧
      (f.closeFile connection io closeIo w).2.1.control = f.control := by
  rw [RemoteNetworkFile.closeFile]
  cases hdata : f.inputData with
  | none => exact ⟨hf, hw, rfl⟩
  | some d =>
    have hclose : Presents lastLBA s D (d.close connection io closeIo w).2.1 ∧
        Stores ((lastLBA + 1) * s) readBlockSize D info.evidencePath
          (d.close connection io closeIo w).2.2 := by
      unfold IScsiInputData.close
      split_ifs
      · cases connection with
        | some message => exact ⟨(hf d hdata).congr rfl rfl rfl, hw⟩
        | none => exact ⟨(hf d hdata).congr rfl rfl rfl, hw.closeEvidenceStore io closeIo _⟩
      · exact ⟨hf d hdata, hw⟩
    dsimp only
    match hc : d.close connection io closeIo w with
    | (.error e, d', w') =>
      rw [hc] at hclose
      exact ⟨fun d hd => Option.some.inj hd ▸ hclose.1, hclose.2, rfl⟩
    | (.ok _, d', w') =>
      rw [hc] at hclose
      exact ⟨fun d hd => (by cases hd), hclose.2, rfl⟩

/-- Seeking in a file. -/
theorem seekFile_presents (hd : ValidDisk lastLBA s readBlockSize)
    (hf : ∀ d, f.inputData = some d → Presents lastLBA s D d)
    (hw : Stores ((lastLBA + 1) * s) readBlockSize D info.evidencePath w)
    (henv : Reports lastLBA s env) (pos typ : ℤ) :
    (∀ d, (f.seekFile info pos typ env w).2.1.inputData = some d → Presents lastLBA s D d) ∧
      Stores ((lastLBA + 1) * s) readBlockSize D info.evidencePath
        (f.seekFile info pos typ env w).2.2 ∧
      (f.seekFile info pos typ env w).2.1.control = f.control := by
  have hopen := openFile_presents hd hf hw henv
  rw [RemoteNetworkFile.seekFile]
  match ho : f.openFile info env w with
  | (.error e, f', w') =>
    rw [ho] at hopen
    exact hopen
  | (.ok _, f', w') =>
    rw [ho] at hopen
    obtain ⟨hf', hw', hc⟩ := hopen
    dsimp only at hf' hw' hc ⊢
    cases hdata : f'.inputData with
    | none => exact ⟨hf', hw', hc⟩
    | some d =>
      dsimp only
      cases RemoteNetworkFile.seekPosition d pos typ with
      | none => exact ⟨hf', hw', hc⟩
      | some position =>
        dsimp only
        cases hseek : d.seek position with
        | error e => exact ⟨hf', hw', hc⟩
        | ok d' =>
          obtain ⟨-, -, -, rfl⟩ := IScsiInputData.seek_eq_ok hseek
          refine ⟨fun d' hd' => ?_, hw', hc⟩
          exact Option.some.inj hd' ▸ (hf' d hdata).congr rfl rfl rfl

/-! ## Reading -/

/-- A read returns at once, or enters its loop. -/
theorem inLoop_of_startRead {x : ℤ ⊕ Reading} (hd : ValidDisk lastLBA s readBlockSize)
    (hp : Presents lastLBA s D d) (htyped : Typed call) (hseek : d.seek call.fileOff = .ok d')
    (h : d'.startRead call.buf call.pos call.len = .ok x) :
    (∃ k ≤ 0, x = .inl k) ∨
      ∃ r, x = .inr r ∧ InLoop ((lastLBA + 1) * s) readBlockSize D call d' r := by
  obtain ⟨-, hoff, -, hd'⟩ := IScsiInputData.seek_eq_ok hseek
  have hp' : Presents lastLBA s D d' := hd' ▸ hp.congr rfl rfl rfl
  have hposition : d'.position = call.fileOff.toNat := by
    rw [hd', Int.toNat_of_nonneg hoff]
  have hcases := IScsiInputData.startRead_cases (D := D) (length_lt hd) hp'.size hp'.blockSize
    hposition htyped.2.2 htyped.2.1 h
  rcases hcases with hk | ⟨r, rfl, hlen, hlt, hbuf, hoffset, hcopied⟩
  · exact .inl hk
  · exact .inr ⟨r, rfl, ⟨hoff, by omega⟩, ⟨hlen, htyped.2.1⟩, hoffset, hbuf ▸ htyped.1, 0, hcopied⟩

/-- The bytes that a read of kept bytes asks for are in the kept part of their block. -/
theorem lt_keptLength {L B n i : ℕ} (hi : i < B) (h : n * B + i < keptEnd L B) :
    i < keptLength L B n := by
  rw [keptEnd] at h
  have hkept := keptLength_le (L := L) (B := B) (n := L / B)
  rcases Nat.lt_trichotomy n (L / B) with hn | rfl | hn
  · rw [keptLength_of_le]
    · exact hi
    · exact (Nat.mul_le_mul_right B hn).trans (Nat.div_mul_le_self L B)
  · omega
  · have hmul := Nat.mul_le_mul_right B hn
    rw [Nat.succ_mul] at hmul
    omega

/-- A block of the device is copied. -/
theorem InLoop.copyBlock {L B n : ℕ} {b : Block} (h : InLoop L B D call d r) (hB : 0 < B)
    (hB' : B < 2 ^ 31) (hL : L ≤ 2 ^ 32 * B) (hL' : L < 2 ^ 62) (hwithin : Within L B call)
    (hle : r.blockNumber ≤ r.lastBlock) (hn : (n : ℤ) = toInt r.blockNumber)
    (hlen : b.length = B) (hagree : AgreeOn (keptLength L B n) b (content D B n))
    (hc : d.copyBlock r b = .ok (d', r')) : InLoop L B D call d' r' := by
  obtain ⟨⟨hoff₀, hoff₁⟩, ⟨hlen₀, hlen₁⟩, hoffset, hbuffer, t, hcopied⟩ := h
  set start := call.fileOff.toNat with hstart
  set size := min call.len.toNat (L - start) with hsize
  have ht : t < size := hcopied.lt_iff.2 hle
  -- The cast of the number of the block to `int` did not overflow.
  have hnumber : (start + t) / B = n := by
    have hblock := hcopied.blockNumber
    rw [if_pos ht] at hblock
    have hlt : (start + t) / B < 2 ^ 32 := (Nat.div_lt_iff_lt_mul hB).2 (by omega)
    exact eq_of_natCast_eq_toInt hlt (hblock ▸ hn)
  have hget : ∀ i < B, (start + t) / B * B + i < start + size →
      b.get i = D.get ((start + t) / B * B + i) := by
    intro i hi hend
    rw [Within] at hwithin
    rw [hnumber] at hend ⊢
    rw [hagree i (lt_keptLength hi (by omega)), content, get_slice D hi]
  obtain ⟨u, -, hcopied', hoffset', hbuffer'⟩ :=
    hcopied.copyBlock ht hB hB' (by omega) (by omega) hbuffer hlen hget hc
  exact ⟨⟨hoff₀, hoff₁⟩, ⟨hlen₀, hlen₁⟩, hoffset'.trans hoffset, hbuffer'.symm ▸ hbuffer, u,
    hcopied'⟩

/-- After the loop, the call returns what it should. -/
theorem InLoop.delivers {L B : ℕ} (h : InLoop L B D call d r)
    (hlast : r.lastBlock < r.blockNumber) : Delivers L D call (.ok r.totalBytesRead) r.buffer := by
  obtain ⟨⟨hoff₀, hoff₁⟩, ⟨hlen₀, hlen₁⟩, hoffset, hbuffer, t, hcopied⟩ := h
  obtain ⟨rfl, htotal⟩ := hcopied.finished hlast
  intro k hk hpos _ _
  obtain rfl := Except.ok.inj hk
  have hfits := hcopied.fits (by omega)
  have hoff := hcopied.offset
  rw [hoffset] at hfits hoff
  rw [htotal]
  refine ⟨by omega, hoff.1, hfits, fun j hj => ?_⟩
  have := hcopied.copied j (by omega)
  rwa [hoffset] at this

theorem delivers_error (L : ℕ) (e : Exn) (buffer : Buffer Byte) :
    Delivers L D call (.error e) buffer := fun k hk => by cases hk

theorem delivers_of_le {L : ℕ} {k : ℤ} {buffer : Buffer Byte} (hk : k ≤ 0) :
    Delivers L D call (.ok k) buffer := fun _ hk' hpos =>
  absurd (Except.ok.inj hk' ▸ hk) (not_le.2 hpos)

/-- A call that returns what it should. -/
theorem sound_answer {result : Except Exn ℤ} {buffer : Buffer Byte}
    (hf : ∀ d, f.inputData = some d → Presents lastLBA s D d)
    (h : Within ((lastLBA + 1) * s) readBlockSize call →
      Delivers ((lastLBA + 1) * s) D call result buffer) :
    Sound lastLBA s D (f.answer call result buffer) := by
  refine sound_of_idle rfl hf fun call' result' buffer' hc => ?_
  cases hc
  exact h

/-- Starting to read a file. -/
theorem sound_readFile (hd : ValidDisk lastLBA s readBlockSize)
    (hf : ∀ d, f.inputData = some d → Presents lastLBA s D d)
    (hw : Stores ((lastLBA + 1) * s) readBlockSize D info.evidencePath w)
    (henv : Reports lastLBA s env) (htyped : Typed call) :
    Sound lastLBA s D (f.readFile info call env w).1 ∧
      Stores ((lastLBA + 1) * s) readBlockSize D info.evidencePath
        (f.readFile info call env w).2 := by
  have hopen := openFile_presents hd hf hw henv
  rw [RemoteNetworkFile.readFile]
  match ho : f.openFile info env w with
  | (.error e, f', w') =>
    rw [ho] at hopen
    exact ⟨sound_answer hopen.1 fun _ => delivers_error _ e _, hopen.2.1⟩
  | (.ok _, f', w') =>
    rw [ho] at hopen
    obtain ⟨hf', hw', -⟩ := hopen
    dsimp only at hf' hw' ⊢
    cases hdata : f'.inputData with
    | none => exact ⟨sound_answer hf' fun _ => delivers_error _ _ _, hw'⟩
    | some d =>
      dsimp only
      split_ifs with hpast
      · exact ⟨sound_answer hf' fun _ => delivers_of_le le_rfl, hw'⟩
      cases hseek : d.seek call.fileOff with
      | error e => exact ⟨sound_answer hf' fun _ => delivers_error _ e _, hw'⟩
      | ok d' =>
        have hp : Presents lastLBA s D d' := by
          obtain ⟨-, -, -, rfl⟩ := IScsiInputData.seek_eq_ok hseek
          exact (hf' d hdata).congr rfl rfl rfl
        have hset : ∀ d'', (f'.setData d').inputData = some d'' → Presents lastLBA s D d'' :=
          fun d'' hd'' => Option.some.inj hd'' ▸ hp
        dsimp only
        cases hstart : d'.startRead call.buf call.pos call.len with
        | error e => exact ⟨sound_answer hset fun _ => delivers_error _ e _, hw'⟩
        | ok x =>
          rcases inLoop_of_startRead hd (hf' d hdata) htyped hseek hstart with ⟨k, hk, rfl⟩ |
            ⟨r, rfl, hloop⟩
          · exact ⟨sound_answer hset fun _ => delivers_of_le hk, hw'⟩
          -- nothing is copied yet
          · refine ⟨⟨hset, ?_, ?_, ?_⟩, hw'⟩
            · intro call' r' d'' hc hd'' _
              cases hc
              exact Option.some.inj hd'' ▸ hloop
            · intro call' r' d'' hc
              cases hc
            · intro call' result buffer hc
              cases hc

/-- A step of the block reader of a file. -/
theorem stepReader_some {action : Action} {control : FileControl}
    (h : RemoteNetworkFile.stepReader d action control w = some (f', w'))
    (hd : ValidDisk lastLBA s readBlockSize) (hp : Presents lastLBA s D d)
    (hw : Stores ((lastLBA + 1) * s) readBlockSize D info.evidencePath w)
    (ha : Honest s D d.blockReader action) :
    ∃ r t t', Effect d.blockReader t action r t' ∧
      Safe ((lastLBA + 1) * s) readBlockSize D t.store t.files.evidence ∧
      f' = ⟨some { d with blockReader := r }, control⟩ ∧
      Presents lastLBA s D { d with blockReader := r } ∧
      Stores ((lastLBA + 1) * s) readBlockSize D info.evidencePath w' := by
  obtain ⟨t, ht, h⟩ := Option.bind_eq_some_iff.1 h
  obtain ⟨⟨r, t'⟩, hstep, heq⟩ := Option.map_eq_some_iff.1 h
  have heff := effect_of_step hstep
  obtain ⟨hpath, hfiles, hsafe⟩ := hw.session ht
  have htrusted : Trusted ((lastLBA + 1) * s) readBlockSize D t.files := hfiles ▸ hw.trusted
  obtain ⟨hpath', hkeeps, hsafe', htrusted'⟩ := heff.session hp.serving hd hsafe htrusted
  cases heq
  exact ⟨r, t, t', heff, hsafe, rfl, ⟨hp.size, hp.blockSize, hp.serving.step hd heff ha⟩,
    hw.setSession (hpath'.trans hpath) (hfiles ▸ hkeeps) hsafe' htrusted' _⟩

/-- The loop does not look into the block reader. -/
theorem InLoop.setReader {L B : ℕ} (h : InLoop L B D call d r) (blockReader : IScsiBlockReader) :
    InLoop L B D call { d with blockReader } r := by
  obtain ⟨h₁, h₂, h₃, h₄, t, ht⟩ := h
  exact ⟨h₁, h₂, h₃, h₄, t, { ht with }⟩

/-- In the block reader, during a call of `readFile`. -/
theorem sound_retrieveBlock (hp : Presents lastLBA s D d)
    (hretrieves : Retrieves ((lastLBA + 1) * s) readBlockSize D (toInt r.blockNumber)
      d.blockReader.control)
    (hloop : Within ((lastLBA + 1) * s) readBlockSize call →
      InLoop ((lastLBA + 1) * s) readBlockSize D call d r ∧ r.blockNumber ≤ r.lastBlock) :
    Sound lastLBA s D ⟨some d, .retrieveBlock call r⟩ := by
  refine ⟨fun d' hd' => Option.some.inj hd' ▸ hp, ?_, ?_, ?_⟩
  · intro call' r' d' hc
    cases hc
  · intro call' r' d' hc hd'
    cases hc
    exact Option.some.inj hd' ▸ ⟨hretrieves, hloop⟩
  · intro call' result buffer hc
    cases hc

/-- A step of the thread in `readFile`. -/
theorem sound_advance {e : Env} (hf : Sound lastLBA s D f) (hd : ValidDisk lastLBA s readBlockSize)
    (hw : Stores ((lastLBA + 1) * s) readBlockSize D info.evidencePath w)
    (hdata : f.inputData = some d) (h : f.advance d e w = some (f', w')) :
    Sound lastLBA s D f' ∧ Stores ((lastLBA + 1) * s) readBlockSize D info.evidencePath w' := by
  have hp := hf.presents d hdata
  rw [RemoteNetworkFile.advance] at h
  cases hc : f.control with
  | idle =>
    rw [hc] at h
    cases h
  | returned call result buffer =>
    rw [hc] at h
    cases h
  | read call r =>
    rw [hc] at h
    dsimp only at h
    split_ifs at h with hlast
    -- after the last block, what was copied is the answer
    · cases h
      exact ⟨sound_answer hf.presents fun hwithin =>
        (hf.read call r d hc hdata hwithin).delivers hlast, hw⟩
    · obtain ⟨r', t, t', heff, -, rfl, hp', hw'⟩ := stepReader_some h hd hp hw trivial
      refine ⟨sound_retrieveBlock hp' ?_ fun hwithin => ?_, hw'⟩
      · cases heff
        exact .inl rfl
      · exact ⟨(hf.read call r d hc hdata hwithin).setReader r', not_lt.1 hlast⟩
  | retrieveBlock call r =>
    obtain ⟨hretrieves, hloop⟩ := hf.retrieveBlock call r d hc hdata
    rw [hc] at h
    cases hrc : d.blockReader.control with
    | returned result =>
      rw [hrc] at h hretrieves
      cases result with
      | error x =>
        cases h
        exact ⟨sound_answer hf.presents fun _ => delivers_error _ x _, hw⟩
      | ok block =>
        dsimp only at h
        cases hcopy : d.copyBlock r block with
        | error x =>
          rw [hcopy] at h
          cases h
          exact ⟨sound_answer hf.presents fun _ => delivers_error _ x _, hw⟩
        | ok p =>
          obtain ⟨d', r'⟩ := p
          rw [hcopy] at h
          cases h
          have hd' := IScsiInputData.copyBlock_eq_ok hcopy
          have hp' : Presents lastLBA s D d' := hd' ▸ hp.congr rfl rfl rfl
          refine ⟨⟨fun d'' hd'' => Option.some.inj hd'' ▸ hp', ?_, ?_, ?_⟩, hw⟩
          · intro call' r'' d'' hc' hd'' hwithin
            cases hc'
            -- the reader has returned the block that the loop asked for
            obtain ⟨hin, hle⟩ := hloop hwithin
            rcases hretrieves with hnone | ⟨x, hx⟩ | ⟨b, n, hb, hn, -, hlen, hagree⟩
            · cases hnone
            · cases hx
            · cases hb
              exact Option.some.inj hd'' ▸ hin.copyBlock readBlockSize_pos readBlockSize_lt
                hd.length_le (length_lt hd) hwithin hle hn hlen hagree hcopy
          · intro call' r'' d'' hc'
            cases hc'
          · intro call' result buffer hc'
            cases hc'
    | _ =>
      rw [hrc] at h
      obtain ⟨r', t, t', heff, hsafe, rfl, hp', hw'⟩ := stepReader_some h hd hp hw trivial
      refine ⟨sound_retrieveBlock hp' ?_ fun hwithin => ?_, hw'⟩
      -- the reader goes on, so it still works on that block
      · rcases hretrieves with hk | ⟨x, hx⟩ | ⟨b, n, hb, -⟩
        · exact heff.retrieves readBlockSize_pos readBlockSize_lt hsafe hk
        · rw [hrc] at hx
          cases hx
        · rw [hrc] at hb
          cases hb
      · exact ⟨(hloop hwithin).1.setReader r', (hloop hwithin).2⟩

/-- An answer arrives. -/
theorem sound_finish {n : ℕ} {outcome : Read10Outcome} (hf : Sound lastLBA s D f)
    (hd : ValidDisk lastLBA s readBlockSize)
    (hw : Stores ((lastLBA + 1) * s) readBlockSize D info.evidencePath w)
    (hdata : f.inputData = some d) (ha : Honest s D d.blockReader (.finish n outcome))
    (h : RemoteNetworkFile.stepReader d (.finish n outcome) f.control w = some (f', w')) :
    Sound lastLBA s D f' ∧ Stores ((lastLBA + 1) * s) readBlockSize D info.evidencePath w' := by
  obtain ⟨r', t, t', heff, -, rfl, hp', hw'⟩ := stepReader_some h hd (hf.presents d hdata) hw ha
  have hcontrol : r'.control = d.blockReader.control := by
    cases heff
    rfl
  refine ⟨⟨fun d' hd' => Option.some.inj hd' ▸ hp', ?_, ?_, hf.returned⟩, hw'⟩
  · intro call r d' hc hd' hwithin
    exact Option.some.inj hd' ▸ (hf.read call r d hc hdata hwithin).setReader r'
  · intro call r d' hc hd'
    obtain ⟨hretrieves, hloop⟩ := hf.retrieveBlock call r d hc hdata
    obtain rfl := Option.some.inj hd'
    exact ⟨hcontrol ▸ hretrieves,
      fun hwithin => ⟨(hloop hwithin).1.setReader r', (hloop hwithin).2⟩⟩

/-- A call, other than `readFile`, on a file on which no call is being executed. -/
theorem sound_call {p : RemoteNetworkFile × EvidenceStoreFactory} (hf : Sound lastLBA s D f)
    (hidle : f.Idle = true)
    (h : (∀ d, p.1.inputData = some d → Presents lastLBA s D d) ∧
      Stores ((lastLBA + 1) * s) readBlockSize D info.evidencePath p.2 ∧ p.1.control = f.control) :
    Sound lastLBA s D p.1 ∧ Stores ((lastLBA + 1) * s) readBlockSize D info.evidencePath p.2 := by
  obtain ⟨hp, hw, hc⟩ := h
  refine ⟨sound_of_idle ?_ hp fun call result buffer hr => ?_, hw⟩
  · rwa [RemoteNetworkFile.Idle, hc]
  · exact hf.returned call result buffer (hc ▸ hr)

/-- The invariant of the system: every file, and the stores. -/
structure Invariant (lastLBA s : ℕ) (D : Buffer Byte) (info : RemoteDeviceInfo)
    (g : VirtualDisk ι) : Prop where
  sound : ∀ i, Sound lastLBA s D (g.files i)
  stores : Stores ((lastLBA + 1) * s) readBlockSize D info.evidencePath g.factory

/-- Every step of a file on a faithful device keeps the invariant. -/
theorem Invariant.step (h : Invariant lastLBA s D info g) (hd : ValidDisk lastLBA s readBlockSize)
    (ha : Faithful lastLBA s D g (i, a)) (hs : step info g (i, a) = some g') :
    Invariant lastLBA s D info g' := by
  obtain ⟨⟨f', w'⟩, hstep, rfl⟩ := Option.map_eq_some_iff.1 hs
  dsimp only at hstep
  -- the other files are not touched
  suffices hnew : Sound lastLBA s D f' ∧
      Stores ((lastLBA + 1) * s) readBlockSize D info.evidencePath w' by
    exact ⟨(Function.forall_update_iff g.files fun _ f => Sound lastLBA s D f).2
      ⟨hnew.1, fun j _ => h.sound j⟩, hnew.2⟩
  have hf := h.sound i
  have hw := h.stores
  cases a with
  | openFile env =>
    rw [RemoteNetworkFile.step] at hstep
    split_ifs at hstep with hidle
    have hcall := sound_call hf hidle (openFile_presents hd hf.presents hw ha)
    rwa [Option.some.inj hstep] at hcall
  | closeFile connection io closeIo =>
    rw [RemoteNetworkFile.step] at hstep
    split_ifs at hstep with hidle
    have hcall := sound_call hf hidle (closeFile_presents hf.presents hw connection io closeIo)
    rwa [Option.some.inj hstep] at hcall
  | seekFile pos typ env =>
    rw [RemoteNetworkFile.step] at hstep
    split_ifs at hstep with hidle
    have hcall := sound_call hf hidle (seekFile_presents hd hf.presents hw ha pos typ)
    rwa [Option.some.inj hstep] at hcall
  | readFile call env =>
    rw [RemoteNetworkFile.step] at hstep
    split_ifs at hstep with hidle
    have hread := sound_readFile hd hf.presents hw ha.2 ha.1
    rwa [Option.some.inj hstep] at hread
  | advance env =>
    obtain ⟨d, hdata, hadvance⟩ := Option.bind_eq_some_iff.1 hstep
    exact sound_advance hf hd hw hdata hadvance
  | finish n outcome =>
    obtain ⟨d, hdata, hfinish⟩ := Option.bind_eq_some_iff.1 hstep
    exact sound_finish hf hd hw hdata (ha d hdata) hfinish

omit [DecidableEq ι] in
theorem invariant_init {disk : String → Files} (h : (disk info.evidencePath).bitmap.length = 0) :
    Invariant lastLBA s D info (init disk : VirtualDisk ι) where
  sound i := sound_of_idle rfl (fun d hd => by cases hd) fun call result buffer hc => by cases hc
  stores := .init h

/-! ## The main result -/

/-- Everything of an image is kept exactly if all its bytes are transferred. -/
theorem keptEnd_eq_iff {L B : ℕ} (hB : 0 < B) : keptEnd L B = L ↔ Transfers L B := by
  have hdiv : L / B * B + L % B = L := Nat.div_add_mod' L B
  have hmod := Nat.mod_lt L hB
  by_cases hcomplete : L % B = 0
  · refine iff_of_true ?_ (.inl hcomplete)
    rw [keptEnd, keptLength_of_blocks_le hB (not_lt.1 fun hn => ?_)]
    · omega
    · have := (lt_blocks_iff hB).1 hn
      omega
  · have hmul : (L / B + 1) * B = L / B * B + B := Nat.succ_mul _ B
    have hn : L / B < blocks L B := (lt_blocks_iff hB).2 (by omega)
    obtain ⟨-, hblocks, hrest⟩ := last_block hB hn (by omega)
    rw [keptEnd, Transfers, hblocks, keptLength, inImage, storedLength, hrest]
    split_ifs <;> omega

/-- On a disk with sectors whose size divides that of the blocks, every call of `readFile`
    returns what it should if the bytes it asks for are kept; if all bytes of the image
    are transferred, these are all calls. -/
theorem readsExactly (ι : Type*) [DecidableEq ι] (lastLBA s : ℕ)
    (hd : ValidDisk lastLBA s readBlockSize) :
    ReadsExactly ι lastLBA s (Within ((lastLBA + 1) * s) readBlockSize) ∧
      (Transfers ((lastLBA + 1) * s) readBlockSize → ReadsExactly ι lastLBA s fun _ => True) := by
  have hwithin : ReadsExactly ι lastLBA s (Within ((lastLBA + 1) * s) readBlockSize) := by
    intro info D disk l g _ hdisk hfaithful hg i call result buffer hc hwithin
    have h : Invariant lastLBA s D info g :=
      Transition.runs_invariant (I := fun g => Invariant lastLBA s D info g)
        (fun _ _ _ ha h hs => h.step hd ha hs) hg hfaithful (invariant_init hdisk)
    exact (h.sound i).returned call result buffer hc hwithin
  refine ⟨hwithin, fun ht info D disk l g hD hdisk hfaithful hg i call result buffer hc _ => ?_⟩
  refine hwithin info D disk l g hD hdisk hfaithful hg i call result buffer hc ?_
  rw [Within, (keptEnd_eq_iff readBlockSize_pos).2 ht]
  exact min_le_right _ _

/-- All bytes of a disk of two blocks and a half are kept. -/
theorem readsExactly_half : ReadsExactly Unit 319 512 fun _ => True :=
  (readsExactly Unit 319 512 (by constructor <;> decide)).2 (by decide)

/-- The content of a device of `100` sectors. -/
def ones : Buffer Byte := .ofFn 51200 fun _ => 1

/-- What this device answers to the request for its block. -/
def answer : Read10Outcome := .good (Read10.content 512 ones ⟨0, 51200, 512⟩)

/-- The last byte of the device is read. -/
def readLast : FileAction := .readFile ⟨.zeros 1, 1, 0, 51199⟩ ⟨.ready, .good (99, 512), .ok⟩

/-- A step of the thread for which nothing fails. -/
def go : FileAction := .advance ⟨0, .ok, none⟩

/-- The last byte is read, up to the point where the thread waits for the answer. -/
def request : List (Unit × FileAction) := (readLast :: List.replicate 11 go).map ((), ·)

/-- The call returns, and the byte is read again after the file was closed. -/
def readAgain : List (Unit × FileAction) :=
  (List.replicate 7 go ++ .closeFile none .ok .ok :: readLast :: List.replicate 5 go).map ((), ·)

/-- This device, and its files, which are empty. -/
def smallDevice : RemoteDeviceInfo :=
  ⟨⟨"", "", 0, ⟨99, 512⟩, ⟨"", "", ""⟩⟩, .ofPath "/tmp", "disk.dd"⟩

def emptyDisk : String → Files := fun _ => ⟨.zeros 0, .zeros 0⟩

/-- What a run leaves on the file: where the call was to read from and to, what it
    returned, and the byte. -/
def outcome (l : List (Unit × FileAction)) : Option (ℤ × ℤ × Except Exn ℤ × Byte) :=
  (Transition.runs (step smallDevice) (init emptyDisk) l).bind fun g =>
    match (g.files ()).control with
    | .returned call result buffer => some (call.fileOff, call.pos, result, buffer.get 0)
    | _ => none

example : outcome (request ++ ((), .finish 0 answer) :: List.replicate 7 ((), go)) =
    some (51199, 0, .ok 1, 1) := by decide +kernel

theorem faithful_readLast (g : VirtualDisk Unit) : Faithful 99 512 ones g ((), readLast) := by
  refine ⟨⟨by decide, by decide, by decide⟩, fun lba blockSize h => ?_⟩
  cases h
  decide

/-- More than half of the last block is in the image: its last byte is read as zero
    from the evidence file. -/
theorem not_readsExactly_tail : ¬ReadsExactly Unit 99 512 fun _ => True := by
  intro h
  have hout : outcome (request ++ ((), .finish 0 answer) :: readAgain) =
      some (51199, 0, .ok 1, 0) := by decide +kernel
  have hrequest : (Transition.runs (step smallDevice) (init emptyDisk : VirtualDisk Unit)
      request).map (fun g => (g.files ()).inputData.map fun d =>
        (d.blockReader.requestsInFlight.lookup 0).map fun q => q.command) =
      some (some (some ⟨0, 51200, 512⟩)) := by decide +kernel
  -- The answer is what the device has where the command reads.
  have hfaithful : Transition.AllSteps (step smallDevice) (Faithful 99 512 ones) (init emptyDisk)
      (request ++ ((), .finish 0 answer) :: readAgain) := by
    refine .append (.of_forall fun g a ha => ?_) fun g hg => ⟨fun d hd q hq => ?_, fun _ _ =>
      .of_forall fun g a ha => ?_⟩
    · rcases (by simpa [request] using ha : a = ((), readLast) ∨ a = ((), go)) with rfl | rfl
      exacts [faithful_readLast g, trivial]
    · rw [hg] at hrequest
      have hcommand : q.command = ⟨0, 51200, 512⟩ := by simpa [hd, hq] using hrequest
      rw [hcommand]
    · have hmem : a = ((), go) ∨ a = ((), .closeFile none .ok .ok) ∨ a = ((), readLast) ∨
          a = ((), go) := by simpa [readAgain] using ha
      rcases hmem with rfl | rfl | rfl | rfl
      exacts [trivial, trivial, faithful_readLast g, trivial]
  obtain ⟨g, hg, hout⟩ := Option.bind_eq_some_iff.1 hout
  cases hc : (g.files ()).control with
  | returned call result buffer =>
    simp only [hc, Option.some.injEq, Prod.mk.injEq] at hout
    obtain ⟨hoff, hpos, rfl, hzero⟩ := hout
    have hdelivers :=
      h smallDevice ones emptyDisk _ g rfl rfl hfaithful hg () call _ buffer hc trivial
    have hbyte := (hdelivers 1 rfl (by decide) (by rw [hoff]; decide) (by rw [hoff]; decide)).2.2.2
      0 (by decide)
    rw [hoff, hpos] at hbyte
    exact absurd (hzero.symm.trans hbyte) (by decide)
  | _ =>
    rw [hc] at hout
    cases hout

end VirtualDisk

end Raqet
