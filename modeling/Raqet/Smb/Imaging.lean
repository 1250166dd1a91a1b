import Raqet.Smb.VirtualDisk

/-!
# What is read is kept

The block reader returns a block only after it was stored. So when a call of `readFile` has
copied a block, what is kept of this block is in the evidence file, and it stays there: nothing
that happens to the files of the device takes it away, whatever fails (`keeps_step`).

* `Saving`: at every point of a call, the blocks that it has copied are in the evidence file,
  and after the call the blocks of all bytes that it returned;
* `Imaging.step`: this is part of an invariant.
-/

namespace Raqet

open Java Buffer EvidenceStore Session IScsiBlockReader ReadGeometry

namespace Session

/-- The evidence file `e` has what is kept of the block. -/
def HasBlock (L B : ℕ) (D e : Buffer Byte) (n : ℕ) : Prop :=
  e.HoldsAt (n * B) (content D B n) (keptLength L B n)

theorem Keeps.trans {L B : ℕ} {D e e' e'' : Buffer Byte} (h : Keeps L B D e e')
    (h' : Keeps L B D e' e'') : Keeps L B D e e'' := fun n hn => h' n (h n hn)

end Session

namespace VirtualDisk

variable {ι : Type*} [DecidableEq ι] {lastLBA s L B n : ℕ} {D e e' : Buffer Byte}
  {info : RemoteDeviceInfo} {w w' : EvidenceStoreFactory} {f f' : RemoteNetworkFile}
  {d d' : IScsiInputData} {r r' : Reading} {call : ReadFile} {k : ℤ} {b : Block}
  {g g' : VirtualDisk ι} {i : ι} {a : FileAction} {env : OpenEnv}

/-! ## The evidence file -/

/-- Obtaining a store. -/
theorem keeps_getEvidenceStore (w : EvidenceStoreFactory) (io : OpenIo) (path : String) (l c : ℤ) :
    Keeps L B D (w.disk path).evidence ((w.getEvidenceStore io path l c).2.disk path).evidence := by
  rw [EvidenceStoreFactory.getEvidenceStore]
  cases w.evidenceStores path with
  | some i => exact Keeps.refl _
  | none =>
    have hkeeps := keeps_create (L := L) (B := B) (D := D) (f := w.disk path) io path l c
    dsimp only
    rcases hc : create io path l c (w.disk path) with ⟨_ | _, f⟩ <;>
    · rw [hc] at hkeeps
      dsimp only
      rw [EvidenceStoreFactory.disk_setFiles]
      exact hkeeps

/-- Writing the bitmap of a store leaves the evidence files as they are. -/
theorem evidence_setFiles_synctodisk (w : EvidenceStoreFactory) (s : EvidenceStore) (io : Io)
    (path : String) : ((w.setFiles s.evidenceFilePath (s.synctodisk io
      (w.disk s.evidenceFilePath)).2).disk path).evidence = (w.disk path).evidence := by
  rw [EvidenceStoreFactory.setFiles]
  dsimp only
  by_cases hpath : path = s.evidenceFilePath
  · rw [hpath, Function.update_self, evidence_synctodisk]
  · rw [Function.update_of_ne hpath]

/-- Closing a reference does, too. -/
theorem evidence_closeEvidenceStore (w : EvidenceStoreFactory) (io : Io) (closeIo : CloseIo)
    (i : ℕ) (path : String) :
    ((w.closeEvidenceStore io closeIo i).2.disk path).evidence = (w.disk path).evidence := by
  rw [EvidenceStoreFactory.closeEvidenceStore]
  cases w.objects[i]? with
  | none => rfl
  | some s =>
    have hsync := evidence_setFiles_synctodisk w s io path
    dsimp only
    rcases hs : s.synctodisk io (w.disk s.evidenceFilePath) with ⟨_ | _, f⟩
    · rw [hs] at hsync
      exact hsync
    · rw [hs] at hsync
      dsimp only
      split_ifs
      · cases closeIo <;> exact hsync
      · exact hsync

/-- Opening a device. -/
theorem keeps_openDevice (info : RemoteDeviceInfo) (env : OpenEnv) (w : EvidenceStoreFactory) :
    Keeps L B D (w.disk info.evidencePath).evidence
      ((RemoteDeviceManager.openDevice info env w).factory.disk info.evidencePath).evidence := by
  rcases RemoteDeviceManager.openDevice_cases info env w with ⟨-, hw⟩ | ⟨_, _, -, rfl, hw, -⟩
  · rw [hw]
    exact Keeps.refl _
  · rw [hw]
    exact keeps_getEvidenceStore w _ _ _ _

/-- Opening a file. -/
theorem keeps_openFile (f : RemoteNetworkFile) (info : RemoteDeviceInfo) (env : OpenEnv)
    (w : EvidenceStoreFactory) :
    Keeps L B D (w.disk info.evidencePath).evidence
      ((f.openFile info env w).2.2.disk info.evidencePath).evidence := by
  rw [RemoteNetworkFile.openFile]
  cases f.inputData with
  | some d => exact Keeps.refl _
  | none =>
    have hkeeps := keeps_openDevice (L := L) (B := B) (D := D) info env w
    dsimp only
    cases (RemoteDeviceManager.openDevice info env w).value <;> exact hkeeps

/-- Closing a file. -/
theorem evidence_closeFile (f : RemoteNetworkFile) (connection : Option String) (io : Io)
    (closeIo : CloseIo) (w : EvidenceStoreFactory) (path : String) :
    ((f.closeFile connection io closeIo w).2.2.disk path).evidence = (w.disk path).evidence := by
  rw [RemoteNetworkFile.closeFile]
  cases f.inputData with
  | none => rfl
  | some d =>
    have hclose : ((d.close connection io closeIo w).2.2.disk path).evidence =
        (w.disk path).evidence := by
      unfold IScsiInputData.close
      split_ifs
      · cases connection with
        | some message => rfl
        | none => exact evidence_closeEvidenceStore w io closeIo _ path
      · rfl
    dsimp only
    rcases hc : d.close connection io closeIo w with ⟨_ | _, d', w'⟩ <;>
    · rw [hc] at hclose
      exact hclose

/-- A step of the block reader of a file, with its files. -/
theorem stepReader_files {action : Action} {control : FileControl}
    (h : RemoteNetworkFile.stepReader d action control w = some (f', w'))
    (hd : ValidDisk lastLBA s readBlockSize) (hp : Presents lastLBA s D d)
    (hw : Stores ((lastLBA + 1) * s) readBlockSize D info.evidencePath w) :
    ∃ r t t', Effect d.blockReader t action r t' ∧
      Safe ((lastLBA + 1) * s) readBlockSize D t.store t.files.evidence ∧
      f' = ⟨some { d with blockReader := r }, control⟩ ∧
      t.files = w.disk info.evidencePath ∧ t'.files = w'.disk info.evidencePath ∧
      Keeps ((lastLBA + 1) * s) readBlockSize D (w.disk info.evidencePath).evidence
        (w'.disk info.evidencePath).evidence := by
  obtain ⟨t, ht, h⟩ := Option.bind_eq_some_iff.1 h
  obtain ⟨⟨r, t'⟩, hstep, heq⟩ := Option.map_eq_some_iff.1 h
  have heff := effect_of_step hstep
  obtain ⟨hpath, hfiles, hsafe⟩ := hw.session ht
  obtain ⟨hpath', hkeeps, -, -⟩ := heff.session hp.serving hd hsafe (hfiles ▸ hw.trusted)
  cases heq
  have hfiles' : t'.files = (w.setSession d.evidenceStore t').disk info.evidencePath := by
    rw [EvidenceStoreFactory.setSession, hpath', hpath, EvidenceStoreFactory.disk_setFiles]
  exact ⟨r, t, t', heff, hsafe, rfl, hfiles, hfiles', hfiles ▸ hfiles' ▸ hkeeps⟩

/-- A step of a file keeps what the evidence file has, whatever fails. -/
theorem keeps_stepFile (hd : ValidDisk lastLBA s readBlockSize)
    (hf : ∀ d, f.inputData = some d → Presents lastLBA s D d)
    (hw : Stores ((lastLBA + 1) * s) readBlockSize D info.evidencePath w)
    (h : f.step info w a = some (f', w')) :
    Keeps ((lastLBA + 1) * s) readBlockSize D (w.disk info.evidencePath).evidence
      (w'.disk info.evidencePath).evidence := by
  have hopen : ∀ env, Keeps ((lastLBA + 1) * s) readBlockSize D
      (w.disk info.evidencePath).evidence
      ((f.openFile info env w).2.2.disk info.evidencePath).evidence :=
    fun env => keeps_openFile f info env w
  cases a with
  | openFile env =>
    rw [RemoteNetworkFile.step] at h
    split_ifs at h
    have hkeeps := hopen env
    rwa [Option.some.inj h] at hkeeps
  | closeFile connection io closeIo =>
    rw [RemoteNetworkFile.step] at h
    split_ifs at h
    have hev := evidence_closeFile f connection io closeIo w info.evidencePath
    rw [Option.some.inj h] at hev
    rw [hev]
    exact Keeps.refl _
  | seekFile pos typ env =>
    rw [RemoteNetworkFile.step] at h
    split_ifs at h
    have hkeeps := hopen env
    rwa [← (f.seekFile_cases info pos typ env w).1, Option.some.inj h] at hkeeps
  | readFile call env =>
    rw [RemoteNetworkFile.step] at h
    split_ifs at h
    have hkeeps := hopen env
    rwa [← (f.readFile_cases info call env w).1, Option.some.inj h] at hkeeps
  | advance env =>
    obtain ⟨d, hdata, hadvance⟩ := Option.bind_eq_some_iff.1 h
    cases RemoteNetworkFile.advances_of_advance hadvance with
    | call _ _ _ _ hstep | step _ _ _ _ hstep =>
      obtain ⟨r, t, t', -, -, -, -, -, hkeeps⟩ := stepReader_files hstep hd (hf d hdata) hw
      exact hkeeps
    | _ => exact Keeps.refl _
  | finish n outcome =>
    obtain ⟨d, hdata, hfinish⟩ := Option.bind_eq_some_iff.1 h
    obtain ⟨r, t, t', -, -, -, -, -, hkeeps⟩ := stepReader_files hfinish hd (hf d hdata) hw
    exact hkeeps

/-! ## Blocks that were copied -/

/-- A block that the reader returns is in the evidence file. -/
theorem kept_of_effect {r r' : IScsiBlockReader} {t t' : Session} {env : Env}
    (heff : Effect r t (.advance env) r' t') (ht : Safe L B D t.store t.files.evidence)
    (hk : r.control.blockNumber = some k) (hb : r'.control = .returned (.ok b))
    (hn : (n : ℤ) = k) : HasBlock L B D t'.files.evidence n := by
  -- only a lookup returns a block
  have hfollows : ∀ control, r.control.Follows control → control ≠ .returned (.ok b) := by
    rintro control (h | ⟨x, h⟩) rfl
    · rw [hk] at h
      cases h
    · cases h
  cases heff with
  | lookup _ m hc =>
    rw [hc] at hk
    obtain rfl : m = n := by exact_mod_cast (Option.some.inj hk).trans hn.symm
    have hvalue : (t.store.retrieveBlock env.io m t.files).value = .ok b := by
      simpa [IScsiBlockReader.goto] using hb
    dsimp only
    rw [files_retrieveBlock]
    refine ht.memory m ?_
    rcases retrieveBlock_cases t.store env.io m t.files with ⟨e, he⟩ | ⟨c, hmem, -⟩ | ⟨c, hmem, -⟩
    · rw [he] at hvalue
      cases hvalue
    · exact hmem
    · exact hmem
  | move _ control hf => exact absurd hb (hfollows control hf)
  | request _ m command control hf => exact absurd hb (hfollows control hf)
  | drop _ q control hf => exact absurd hb (hfollows control hf)
  | store _ q control hf => exact absurd hb (hfollows control hf)

/-- The blocks of the call before the block `k` are in the evidence file. -/
def KeptBefore (L B : ℕ) (D e : Buffer Byte) (call : ReadFile) (k : ℤ) : Prop :=
  ∀ n : ℕ, call.fileOff.toNat / B ≤ n → (n : ℤ) < k → HasBlock L B D e n

/-- The evidence file has the blocks that the call of `readFile` on this file has copied. -/
structure Saving (L B : ℕ) (D e : Buffer Byte) (f : RemoteNetworkFile) : Prop where
  read : ∀ call r, f.control = .read call r → Within L B call →
    KeptBefore L B D e call r.blockNumber
  retrieveBlock : ∀ call r d, f.control = .retrieveBlock call r → f.inputData = some d →
    Within L B call → KeptBefore L B D e call r.blockNumber ∧
      ∀ b (n : ℕ), d.blockReader.control = .returned (.ok b) → (n : ℤ) = toInt r.blockNumber →
        HasBlock L B D e n
  returned : ∀ call k buffer, f.control = .returned call (.ok k) buffer → Within L B call → 0 < k →
    0 ≤ call.fileOff ∧ call.fileOff ≤ L ∧
      ∀ j : ℕ, j < k → HasBlock L B D e ((call.fileOff.toNat + j) / B)

theorem KeptBefore.keeps (h : KeptBefore L B D e call k) (he : Keeps L B D e e') :
    KeptBefore L B D e' call k := fun n hn hnk => he n (h n hn hnk)

/-- The evidence file keeps what it has. -/
theorem Saving.keeps (h : Saving L B D e f) (he : Keeps L B D e e') : Saving L B D e' f where
  read call r hc hwithin := (h.read call r hc hwithin).keeps he
  retrieveBlock call r d hc hdata hwithin := by
    obtain ⟨hbefore, hblock⟩ := h.retrieveBlock call r d hc hdata hwithin
    exact ⟨hbefore.keeps he, fun b n hb hn => he n (hblock b n hb hn)⟩
  returned call k buffer hc hwithin hk := by
    obtain ⟨h₀, h₁, hkept⟩ := h.returned call k buffer hc hwithin hk
    exact ⟨h₀, h₁, fun j hj => he _ (hkept j hj)⟩

/-- A call that returns no bytes. -/
theorem saving_of_returned {result : Except Exn ℤ} {buffer : Buffer Byte}
    (hc : f.control = .returned call result buffer) (hresult : ∀ k, result = .ok k → k ≤ 0) :
    Saving L B D e f := by
  refine ⟨fun call' r hc' => ?_, fun call' r d hc' => ?_, fun call' k buffer' hc' _ hk => ?_⟩ <;>
    rw [hc] at hc' <;> cases hc'
  exact absurd (hresult k rfl) (not_le.2 hk)

/-- A call at the head of its loop. -/
theorem saving_of_read (hc : f.control = .read call r)
    (hbefore : Within L B call → KeptBefore L B D e call r.blockNumber) : Saving L B D e f := by
  refine ⟨fun call' r' hc' hwithin => ?_, fun call' r' d hc' => ?_,
    fun call' k buffer' hc' => ?_⟩ <;>
    rw [hc] at hc' <;> cases hc'
  exact hbefore hwithin

/-- A call in the block reader. -/
theorem saving_of_retrieveBlock
    (h : Within L B call → KeptBefore L B D e call r.blockNumber ∧
      ∀ b (n : ℕ), d.blockReader.control = .returned (.ok b) → (n : ℤ) = toInt r.blockNumber →
        HasBlock L B D e n) : Saving L B D e ⟨some d, .retrieveBlock call r⟩ := by
  refine ⟨fun call' r' hc => ?_, fun call' r' d' hc hd' hwithin => ?_, fun call' k buffer hc => ?_⟩
  · cases hc
  · cases hc
    exact Option.some.inj hd' ▸ h hwithin
  · cases hc

/-- The number of the next block is not cut off. -/
theorem InLoop.blockNumber_eq (h : InLoop L B D call d r) (hB : 0 < B) (hL : L ≤ 2 ^ 32 * B)
    (hle : r.blockNumber ≤ r.lastBlock) (hn : (n : ℤ) = toInt r.blockNumber) :
    r.blockNumber = n ∧ n < 2 ^ 32 := by
  obtain ⟨⟨hoff₀, hoff₁⟩, -, -, -, t, hcopied⟩ := h
  have hblock := hcopied.blockNumber
  have ht := hcopied.lt_iff.2 hle
  rw [if_pos ht] at hblock
  have hlt : (call.fileOff.toNat + t) / B < 2 ^ 32 := (Nat.div_lt_iff_lt_mul hB).2 (by omega)
  obtain rfl := eq_of_natCast_eq_toInt hlt (hblock ▸ hn)
  exact ⟨hblock, hlt⟩

/-- A step of the thread in `readFile`. -/
theorem Saving.advance {env : Env} (h : Saving ((lastLBA + 1) * s) readBlockSize D
      (w.disk info.evidencePath).evidence f) (hf : Sound lastLBA s D f)
    (hd : ValidDisk lastLBA s readBlockSize)
    (hw : Stores ((lastLBA + 1) * s) readBlockSize D info.evidencePath w)
    (hdata : f.inputData = some d) (hs : f.advance d env w = some (f', w')) :
    Saving ((lastLBA + 1) * s) readBlockSize D (w'.disk info.evidencePath).evidence f' := by
  have hp := hf.presents d hdata
  cases RemoteNetworkFile.advances_of_advance hs with
  | finished call r hc hlast =>
    refine ⟨fun _ _ hc' => (by cases hc'), fun _ _ _ hc' => (by cases hc'), ?_⟩
    intro call' k buffer hc' hwithin hk
    cases hc'
    -- all blocks up to the last one have been copied
    obtain ⟨hoff, -, -, -, t, hcopied⟩ := hf.read call r d hc hdata hwithin
    obtain ⟨rfl, htotal⟩ := hcopied.finished hlast
    refine ⟨hoff.1, hoff.2.le, fun j hj => h.read call r hc hwithin _ ?_ ?_⟩
    · exact Nat.div_le_div_right (Nat.le_add_right _ j)
    · refine lt_of_le_of_lt ?_ hlast
      rw [hcopied.lastBlock, Int.ofNat_le]
      exact Nat.div_le_div_right (by omega)
  | call call r hc hle hstep =>
    obtain ⟨r', t, t', heff, -, rfl, hfiles, hfiles', hkeeps⟩ := stepReader_files hstep hd hp hw
    refine saving_of_retrieveBlock fun hwithin => ⟨(h.read call r hc hwithin).keeps hkeeps, ?_⟩
    intro b n hb
    cases heff
    cases hb
  | step call r hc hbusy hstep =>
    obtain ⟨r', t, t', heff, hsafe, rfl, hfiles, hfiles', hkeeps⟩ := stepReader_files hstep hd hp hw
    refine saving_of_retrieveBlock fun hwithin => ?_
    refine ⟨(h.retrieveBlock call r d hc hdata hwithin).1.keeps hkeeps, fun b n hb hn => ?_⟩
    rcases (hf.retrieveBlock call r d hc hdata).1 with hk | ⟨x, hx⟩ | ⟨c, m, hm, -⟩
    · exact hfiles' ▸ kept_of_effect heff hsafe hk hb hn
    · exact absurd hx (hbusy _)
    · exact absurd hm (hbusy _)
  | copy call r r' block d' hc hreturned hcopy =>
    refine saving_of_read rfl fun hwithin n hn hlt => ?_
    obtain ⟨hbefore, hblock⟩ := h.retrieveBlock call r d hc hdata hwithin
    obtain ⟨hretrieves, hloop⟩ := hf.retrieveBlock call r d hc hdata
    obtain ⟨hin, hle⟩ := hloop hwithin
    rcases hretrieves with hk | ⟨x, hx⟩ | ⟨c, m, -, hm, -⟩
    · rw [hreturned] at hk
      cases hk
    · rw [hreturned] at hx
      cases hx
    obtain ⟨hnumber, hm'⟩ := hin.blockNumber_eq readBlockSize_pos hd.length_le hle hm
    rw [(IScsiInputData.blockNumber_copyBlock hcopy).1, hnumber,
      toLong_eq_self (by omega) (by omega)] at hlt
    rcases Nat.lt_or_eq_of_le (Int.ofNat_le.1 (Int.lt_add_one_iff.1 hlt)) with hnm | rfl
    · exact hbefore n hn (by omega)
    · exact hblock block n hreturned hm
  | fails call r result x => exact saving_of_returned rfl fun _ hk => by cases hk

/-- A call, other than `readFile`, on a file on which no call is being executed. -/
theorem Saving.of_idle (h : Saving L B D e f) (hidle : f.Idle = true) (he : Keeps L B D e e')
    (hc : f'.control = f.control) : Saving L B D e' f' := by
  rw [RemoteNetworkFile.Idle] at hidle
  refine ⟨fun call r hc' => ?_, fun call r d hc' => ?_, fun call k buffer hc' => ?_⟩
  · rw [← hc, hc'] at hidle
    cases hidle
  · rw [← hc, hc'] at hidle
    cases hidle
  · exact (h.keeps he).returned call k buffer (hc ▸ hc')

/-- An answer arrives. -/
theorem Saving.finish {outcome : Read10Outcome} (h : Saving ((lastLBA + 1) * s) readBlockSize D
      (w.disk info.evidencePath).evidence f) (hf : Sound lastLBA s D f)
    (hd : ValidDisk lastLBA s readBlockSize)
    (hw : Stores ((lastLBA + 1) * s) readBlockSize D info.evidencePath w)
    (hdata : f.inputData = some d)
    (hs : RemoteNetworkFile.stepReader d (.finish n outcome) f.control w = some (f', w')) :
    Saving ((lastLBA + 1) * s) readBlockSize D (w'.disk info.evidencePath).evidence f' := by
  obtain ⟨r', t, t', heff, -, rfl, -, -, hkeeps⟩ :=
    stepReader_files hs hd (hf.presents d hdata) hw
  have hcontrol : r'.control = d.blockReader.control := by
    cases heff
    rfl
  have h' := h.keeps hkeeps
  refine ⟨h'.read, fun call r d' hc hd' hwithin => ?_, h'.returned⟩
  obtain rfl := Option.some.inj hd'
  rw [hcontrol]
  exact h'.retrieveBlock call r d hc hdata hwithin

/-- A call of `readFile` starts. -/
theorem saving_readFile (hf : Sound lastLBA s D (f.readFile info call env w).1) :
    Saving ((lastLBA + 1) * s) readBlockSize D e (f.readFile info call env w).1 := by
  rcases (f.readFile_cases info call env w).2 with ⟨result, hresult, hread | ⟨d, d', -, -, hread⟩⟩ |
    ⟨d₀, d, r, -, hseek, hstart, hread⟩ <;> rw [hread] at hf ⊢
  · exact saving_of_returned rfl hresult
  · exact saving_of_returned rfl hresult
  · refine saving_of_read rfl fun hwithin n hn hlt => ?_
    obtain ⟨-, hoff, -, hd⟩ := IScsiInputData.seek_eq_ok hseek
    -- the first block is that of the first byte
    rw [IScsiInputData.blockNumber_startRead hstart, (hf.presents d rfl).blockSize, hd,
      Int.tdiv_eq_ediv_of_nonneg hoff, ← Int.toNat_of_nonneg hoff, ← Int.natCast_ediv,
      Int.ofNat_lt] at hlt
    exact absurd hn (not_le.2 hlt)

/-- The invariant of the system: what the calls return is right, and in the evidence file. -/
structure Imaging (lastLBA s : ℕ) (D : Buffer Byte) (info : RemoteDeviceInfo)
    (g : VirtualDisk ι) : Prop extends Invariant lastLBA s D info g where
  saving : ∀ i, Saving ((lastLBA + 1) * s) readBlockSize D
    (g.factory.disk info.evidencePath).evidence (g.files i)

/-- A step of a file keeps what the evidence file has. -/
theorem Invariant.keeps (h : Invariant lastLBA s D info g) (hd : ValidDisk lastLBA s readBlockSize)
    (hs : VirtualDisk.step info g (i, a) = some g') :
    Keeps ((lastLBA + 1) * s) readBlockSize D (g.factory.disk info.evidencePath).evidence
      (g'.factory.disk info.evidencePath).evidence := by
  obtain ⟨⟨f', w'⟩, hstep, rfl⟩ := Option.map_eq_some_iff.1 hs
  exact keeps_stepFile hd (h.sound i).presents h.stores hstep

/-- Every step of a file on a faithful device keeps the invariant. -/
theorem Imaging.step (h : Imaging lastLBA s D info g) (hd : ValidDisk lastLBA s readBlockSize)
    (ha : Faithful lastLBA s D g (i, a)) (hs : VirtualDisk.step info g (i, a) = some g') :
    Imaging lastLBA s D info g' := by
  have hinvariant := h.toInvariant.step hd ha hs
  -- what other files have copied stays in the evidence file, whoever steps
  have hkeeps := h.toInvariant.keeps hd hs
  obtain ⟨⟨f', w'⟩, hstep, rfl⟩ := Option.map_eq_some_iff.1 hs
  refine ⟨hinvariant, (Function.forall_update_iff g.files fun _ f => Saving _ _ D _ f).2
    ⟨?_, fun j _ => (h.saving j).keeps hkeeps⟩⟩
  have hf := h.sound i
  have hf' : Sound lastLBA s D f' := by
    have hsound := hinvariant.sound i
    dsimp only at hsound
    rwa [Function.update_self] at hsound
  dsimp only at hstep hkeeps ⊢
  cases a with
  | openFile env =>
    rw [RemoteNetworkFile.step] at hstep
    split_ifs at hstep with hidle
    have hcall := (openFile_presents hd hf.presents h.stores ha).2.2
    rw [Option.some.inj hstep] at hcall
    exact (h.saving i).of_idle hidle hkeeps hcall
  | closeFile connection io closeIo =>
    rw [RemoteNetworkFile.step] at hstep
    split_ifs at hstep with hidle
    have hcall := (closeFile_presents hf.presents h.stores connection io closeIo).2.2
    rw [Option.some.inj hstep] at hcall
    exact (h.saving i).of_idle hidle hkeeps hcall
  | seekFile pos typ env =>
    rw [RemoteNetworkFile.step] at hstep
    split_ifs at hstep with hidle
    have hcall := (seekFile_presents hd hf.presents h.stores ha pos typ).2.2
    rw [Option.some.inj hstep] at hcall
    exact (h.saving i).of_idle hidle hkeeps hcall
  | readFile call env =>
    rw [RemoteNetworkFile.step] at hstep
    split_ifs at hstep with hidle
    have hfile : ((g.files i).readFile info call env g.factory).1 = f' :=
      congrArg Prod.fst (Option.some.inj hstep)
    rw [← hfile] at hf' ⊢
    exact saving_readFile hf'
  | advance env =>
    obtain ⟨d, hdata, hadvance⟩ := Option.bind_eq_some_iff.1 hstep
    exact (h.saving i).advance hf hd h.stores hdata hadvance
  | finish n outcome =>
    obtain ⟨d, hdata, hfinish⟩ := Option.bind_eq_some_iff.1 hstep
    exact (h.saving i).finish hf hd h.stores hdata hfinish

omit [DecidableEq ι] in
/-- No file has been opened, and the bitmap file of the device is right. -/
theorem imaging_init {disk : String → Files}
    (h : Trusted ((lastLBA + 1) * s) readBlockSize D (disk info.evidencePath)) :
    Imaging lastLBA s D info (init disk : VirtualDisk ι) where
  sound i := sound_of_idle rfl (fun d hd => by cases hd) fun call result buffer hc => by cases hc
  stores := ⟨fun o ho => (by cases ho), h⟩
  saving i := ⟨fun _ _ hc => (by cases hc), fun _ _ _ hc => (by cases hc),
    fun _ _ _ hc => (by cases hc)⟩

omit [DecidableEq ι] in
/-- The bytes that a call has returned are in the evidence file. -/
theorem Imaging.bytes {buffer : Buffer Byte} (h : Imaging lastLBA s D info g)
    (hc : (g.files i).control = .returned call (.ok k) buffer)
    (hwithin : Within ((lastLBA + 1) * s) readBlockSize call) (hk : 0 < k)
    (he : Keeps ((lastLBA + 1) * s) readBlockSize D (g.factory.disk info.evidencePath).evidence e) :
    e.HoldsAt call.fileOff.toNat (buffer.slice call.pos.toNat k.toNat) k.toNat := by
  obtain ⟨h₀, h₁, hkept⟩ := (h.saving i).returned call k buffer hc hwithin hk
  obtain ⟨hcount, -, -, hbytes⟩ :=
    (h.sound i).returned call (.ok k) buffer hc hwithin k rfl hk h₀ h₁
  intro j hj
  have hmod : (call.fileOff.toNat + j) % readBlockSize < readBlockSize :=
    Nat.mod_lt _ readBlockSize_pos
  have hdiv : (call.fileOff.toNat + j) / readBlockSize * readBlockSize +
      (call.fileOff.toNat + j) % readBlockSize = call.fileOff.toNat + j := Nat.div_add_mod' _ _
  have hjk : (j : ℤ) < k := by omega
  have hin : (call.fileOff.toNat + j) % readBlockSize <
      keptLength ((lastLBA + 1) * s) readBlockSize ((call.fileOff.toNat + j) / readBlockSize) := by
    refine lt_keptLength hmod ?_
    rw [Within] at hwithin
    omega
  -- the byte is one of a block that was copied, so of one that is in the file
  have hblock := he _ (hkept j hjk)
  obtain ⟨hlength, hget⟩ := hblock _ hin
  rw [hdiv] at hlength hget
  refine ⟨hlength, hget.trans ?_⟩
  rw [content, get_slice D hmod, hdiv, get_slice buffer hj]
  exact (hbytes j hjk).symm

end VirtualDisk

end Raqet
