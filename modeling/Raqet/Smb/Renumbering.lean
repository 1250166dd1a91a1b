import Raqet.Evidence.Isolation
import Raqet.Smb.NetworkFile

/-!
# Files and the numbers of stores

The number of its evidence store is all that a file knows of the factory. If the factory for
the path of the file follows the factory for all paths (`Projects`), the file takes the same
steps with either of them, but for this number (`step_follows`).
-/

namespace Raqet

open Java EvidenceStore EvidenceStoreFactory

/-- The input data, whose store is numbered by `σ`. -/
def IScsiInputData.renumber (σ : ℕ → ℕ) (d : IScsiInputData) : IScsiInputData :=
  { d with evidenceStore := σ d.evidenceStore }

namespace IScsiInputData

variable {σ : ℕ → ℕ} {d : IScsiInputData}

theorem create_renumber (blockReader : IScsiBlockReader) (i : ℕ) (size readBlockSize : ℤ) :
    create blockReader (σ i) size readBlockSize =
      (create blockReader i size readBlockSize).map (renumber σ) := by
  unfold create
  cases argNotNegative "size" size with
  | error e => rfl
  | ok size => cases argNotNegative "readBlockSize" readBlockSize <;> rfl

theorem seek_renumber (position : ℤ) :
    (d.renumber σ).seek position = (d.seek position).map (renumber σ) := by
  unfold seek
  have hsame : (d.renumber σ).validatePosition position = d.validatePosition position := rfl
  rw [hsame]
  cases d.validatePosition position <;> rfl

theorem copyBlock_renumber (r : Reading) (block : Block) :
    (d.renumber σ).copyBlock r block =
      (d.copyBlock r block).map fun p => (p.1.renumber σ, p.2) := by
  unfold copyBlock
  dsimp only [renumber]
  generalize Block.read block _ r.buffer _ r.bytesToRead = x
  cases x <;> rfl

variable {path : String} {w v : EvidenceStoreFactory}

theorem close_mirrors (h : Projects path σ w v) (hd : w.Owns path d.evidenceStore)
    (connection : Option String) (io : Io) (closeIo : CloseIo) :
    Mirrors path σ w (d.close connection io closeIo w).2.2
        ((d.renumber σ).close connection io closeIo v).2.2 σ ∧
      ((d.renumber σ).close connection io closeIo v).1 = (d.close connection io closeIo w).1 ∧
      ((d.renumber σ).close connection io closeIo v).2.1 =
        (d.close connection io closeIo w).2.1.renumber σ ∧
      (d.close connection io closeIo w).2.1.evidenceStore = d.evidenceStore := by
  have hopen : (d.renumber σ).isOpen = d.isOpen := rfl
  unfold close
  rw [hopen]
  split_ifs
  · cases connection with
    | some message => exact ⟨h.mirrors, rfl, rfl, rfl⟩
    | none =>
      obtain ⟨hm, hresult⟩ := h.closeEvidenceStore hd io closeIo
      exact ⟨hm, hresult, rfl, rfl⟩
  · exact ⟨h.mirrors, rfl, rfl, rfl⟩

end IScsiInputData

namespace RemoteNetworkFile

/-- The file, whose store is numbered by `σ`. -/
def renumber (σ : ℕ → ℕ) (f : RemoteNetworkFile) : RemoteNetworkFile :=
  { f with inputData := f.inputData.map (IScsiInputData.renumber σ) }

/-- A step of a file of the path, from the factory `w`, ended with `p`. The same step of the
    file alone ended with `p₁`, the same but for the numbers of the stores. -/
def Follows (path : String) (σ : ℕ → ℕ) (w : EvidenceStoreFactory)
    (p p₁ : RemoteNetworkFile × EvidenceStoreFactory) : Prop :=
  ∃ σ', Mirrors path σ w p.2 p₁.2 σ' ∧ p₁.1 = p.1.renumber σ' ∧
    ∀ d, p.1.inputData = some d → p.2.Owns path d.evidenceStore

variable {info : RemoteDeviceInfo} {env : OpenEnv} {σ σ' : ℕ → ℕ} {path : String}
  {w w' v : EvidenceStoreFactory} {f f' f₁ : RemoteNetworkFile} {d : IScsiInputData}

/-! ## Calls -/

theorem openDevice_mirrors (env : OpenEnv) (h : Projects info.evidencePath σ w v) :
    ∃ σ', Mirrors info.evidencePath σ w (RemoteDeviceManager.openDevice info env w).factory
        (RemoteDeviceManager.openDevice info env v).factory σ' ∧
      (RemoteDeviceManager.openDevice info env v).value =
        (RemoteDeviceManager.openDevice info env w).value.map (IScsiInputData.renumber σ') ∧
      ∀ d, (RemoteDeviceManager.openDevice info env w).value = .ok d →
        (RemoteDeviceManager.openDevice info env w).factory.Owns info.evidencePath
          d.evidenceStore := by
  have hthrow : ∀ {w' v' : EvidenceStoreFactory} {σ' : ℕ → ℕ} (e : Exn),
      Mirrors info.evidencePath σ w w' v' σ' →
      Mirrors info.evidencePath σ w (RemoteDeviceManager.throw w' e).factory
          (RemoteDeviceManager.throw v' e).factory σ' ∧
        (RemoteDeviceManager.throw v' e).value =
          (RemoteDeviceManager.throw w' e).value.map (IScsiInputData.renumber σ') ∧
        ∀ d, (RemoteDeviceManager.throw w' e).value = .ok d →
          (RemoteDeviceManager.throw w' e).factory.Owns info.evidencePath d.evidenceStore := by
    intro w' v' σ' e hm
    rw [RemoteDeviceManager.factory_throw, RemoteDeviceManager.factory_throw]
    refine ⟨hm, by cases e <;> rfl, fun d hd => ?_⟩
    exact absurd hd (RemoteDeviceManager.value_throw_ne_ok e d)
  unfold RemoteDeviceManager.openDevice
  cases env.connecting with
  | contextFails message => exact ⟨σ, h.mirrors, rfl, fun d hd => by cases hd⟩
  | fails e => exact ⟨σ, hthrow e h.mirrors⟩
  | notReady => exact ⟨σ, hthrow _ h.mirrors⟩
  | ready =>
    dsimp only
    cases IScsiLogicalUnit.readCapacity env.capacity with
    | error e => exact ⟨σ, hthrow e h.mirrors⟩
    | ok capacity =>
      dsimp only
      generalize toLong ((capacity.logicalBlockAddress + 1) * capacity.blockSize) = sizeInBytes
      obtain ⟨σ', hm, hvalue, howns⟩ := h.getEvidenceStore env.io sizeInBytes readBlockSize
      refine ⟨σ', ?_⟩
      generalize v.getEvidenceStore env.io info.evidencePath sizeInBytes readBlockSize = o' at *
      generalize w.getEvidenceStore env.io info.evidencePath sizeInBytes readBlockSize = o at *
      obtain ⟨result, w'⟩ := o
      obtain ⟨result', v'⟩ := o'
      dsimp only at hm hvalue howns
      subst hvalue
      cases result with
      | error e => exact hthrow e hm
      | ok i =>
        dsimp only [Except.map]
        cases ReadGeometry.create capacity readBlockSize with
        | error e => exact hthrow e hm
        | ok geometry =>
          dsimp only
          rw [IScsiInputData.create_renumber]
          cases hcreate : IScsiInputData.create (.new geometry) i sizeInBytes readBlockSize with
          | error e => exact hthrow e hm
          | ok d =>
            refine ⟨hm, rfl, fun d' hd' => ?_⟩
            obtain rfl := Except.ok.inj hd'
            rw [IScsiInputData.create_eq_ok hcreate]
            exact howns i rfl

theorem renumber_none (hdata : f.inputData = none) : (f.renumber σ).inputData = none := by
  rw [renumber, hdata]
  rfl

theorem renumber_some (hdata : f.inputData = some d) :
    (f.renumber σ).inputData = some (d.renumber σ) := by
  rw [renumber, hdata]
  rfl

/-- The file has no store, or one of this path. -/
def OwnedBy (path : String) (w : EvidenceStoreFactory) (f : RemoteNetworkFile) : Prop :=
  ∀ d, f.inputData = some d → w.Owns path d.evidenceStore

/-- Nothing was done. -/
theorem follows_self (h : Projects path σ w v) (hf : OwnedBy path w f) :
    Follows path σ w (f, w) (f.renumber σ, v) := ⟨σ, h.mirrors, rfl, hf⟩

theorem openFile_follows (env : OpenEnv) (h : Projects info.evidencePath σ w v)
    (hf : OwnedBy info.evidencePath w f) :
    ((f.renumber σ).openFile info env v).1 = (f.openFile info env w).1 ∧
      Follows info.evidencePath σ w (f.openFile info env w).2
        ((f.renumber σ).openFile info env v).2 := by
  unfold openFile
  cases hdata : f.inputData with
  | some d =>
    rw [renumber_some hdata]
    exact ⟨rfl, follows_self h hf⟩
  | none =>
    rw [renumber_none hdata]
    dsimp only
    obtain ⟨σ', hm, hvalue, howns⟩ := openDevice_mirrors env h
    rw [hvalue]
    cases hopened : (RemoteDeviceManager.openDevice info env w).value with
    | error e =>
      refine ⟨rfl, σ', hm, ?_, fun d hd => ?_⟩
      · rw [renumber, renumber, hdata]
        rfl
      · rw [hdata] at hd
        cases hd
    | ok d =>
      refine ⟨rfl, σ', hm, rfl, fun d' hd' => ?_⟩
      obtain rfl := Option.some.inj hd'
      exact howns d hopened

theorem closeFile_follows (h : Projects path σ w v) (hf : OwnedBy path w f)
    (connection : Option String) (io : Io) (closeIo : CloseIo) :
    Follows path σ w (f.closeFile connection io closeIo w).2
      ((f.renumber σ).closeFile connection io closeIo v).2 := by
  unfold closeFile
  cases hdata : f.inputData with
  | none =>
    rw [renumber_none hdata]
    exact follows_self h hf
  | some d =>
    rw [renumber_some hdata]
    obtain ⟨hm, hresult, hd, hstore⟩ :=
      IScsiInputData.close_mirrors h (hf d hdata) connection io closeIo
    dsimp only
    generalize (d.renumber σ).close connection io closeIo v = o' at *
    generalize d.close connection io closeIo w = o at *
    obtain ⟨result, d', w'⟩ := o
    obtain ⟨result', d₁, v'⟩ := o'
    dsimp only at hm hresult hd hstore
    subst hresult hd
    cases result' with
    | error e =>
      refine ⟨σ, hm, rfl, fun d'' hd'' => ?_⟩
      obtain rfl := Option.some.inj hd''
      rw [hstore]
      exact hm.changes.owns _ (hf d hdata)
    | ok u => exact ⟨σ, hm, rfl, fun d'' hd'' => by cases hd''⟩

theorem seekFile_follows (h : Projects info.evidencePath σ w v)
    (hf : OwnedBy info.evidencePath w f) (pos typ : ℤ) :
    Follows info.evidencePath σ w (f.seekFile info pos typ env w).2
      ((f.renumber σ).seekFile info pos typ env v).2 := by
  obtain ⟨hresult, hfollows⟩ := openFile_follows env h hf
  unfold seekFile
  generalize (f.renumber σ).openFile info env v = o' at *
  generalize f.openFile info env w = o at *
  obtain ⟨result, f', w'⟩ := o
  obtain ⟨result', f₁, v'⟩ := o'
  dsimp only at hresult
  subst hresult
  cases result' with
  | error e => exact hfollows
  | ok u =>
    obtain ⟨σ', hm, hf₁, howns⟩ := hfollows
    dsimp only at hm hf₁ howns ⊢
    subst hf₁
    cases hdata : f'.inputData with
    | none =>
      rw [renumber_none hdata]
      exact ⟨σ', hm, rfl, howns⟩
    | some d =>
      rw [renumber_some hdata]
      have hposition : seekPosition (d.renumber σ') pos typ = seekPosition d pos typ := rfl
      dsimp only
      rw [hposition]
      cases seekPosition d pos typ with
      | none => exact ⟨σ', hm, rfl, howns⟩
      | some position =>
        dsimp only
        rw [IScsiInputData.seek_renumber]
        cases hseek : d.seek position with
        | error e => exact ⟨σ', hm, rfl, howns⟩
        | ok d' =>
          refine ⟨σ', hm, rfl, fun d'' hd'' => ?_⟩
          obtain rfl := Option.some.inj hd''
          obtain ⟨-, -, -, rfl⟩ := IScsiInputData.seek_eq_ok hseek
          exact howns d hdata

/-! ## Reading -/

theorem readFile_follows (h : Projects info.evidencePath σ w v)
    (hf : OwnedBy info.evidencePath w f) (call : ReadFile) :
    Follows info.evidencePath σ w (f.readFile info call env w)
      ((f.renumber σ).readFile info call env v) := by
  obtain ⟨hresult, hfollows⟩ := openFile_follows env h hf
  unfold readFile
  generalize (f.renumber σ).openFile info env v = o' at *
  generalize f.openFile info env w = o at *
  obtain ⟨result, f', w'⟩ := o
  obtain ⟨result', f₁, v'⟩ := o'
  obtain ⟨σ', hm, hf₁, howns⟩ := hfollows
  dsimp only at hresult hm hf₁ howns
  subst hresult hf₁
  cases result' with
  | error e => exact ⟨σ', hm, rfl, howns⟩
  | ok u =>
    dsimp only
    cases hdata : f'.inputData with
    | none =>
      rw [renumber_none hdata]
      exact ⟨σ', hm, rfl, howns⟩
    | some d =>
      rw [renumber_some hdata]
      have hsize : (d.renumber σ').size = d.size := rfl
      dsimp only
      rw [hsize, IScsiInputData.seek_renumber]
      split_ifs
      · exact ⟨σ', hm, rfl, howns⟩
      cases hseek : d.seek call.fileOff with
      | error e => exact ⟨σ', hm, rfl, howns⟩
      | ok d' =>
        have howns' : ∀ d'', some d' = some d'' → w'.Owns info.evidencePath d''.evidenceStore := by
          rintro d'' ⟨⟩
          obtain ⟨-, -, -, rfl⟩ := IScsiInputData.seek_eq_ok hseek
          exact howns d hdata
        have hstart : (d'.renumber σ').startRead call.buf call.pos call.len =
          d'.startRead call.buf call.pos call.len := rfl
        dsimp only [Except.map]
        rw [hstart]
        cases d'.startRead call.buf call.pos call.len with
        | error e => exact ⟨σ', hm, rfl, howns'⟩
        | ok x => cases x <;> exact ⟨σ', hm, rfl, howns'⟩

/-- What a block reader does to a store leaves it at its path. -/
theorem evidenceFilePath_step {r r' : IScsiBlockReader} {t t' : Session} {a : Action}
    (h : r.step t a = some (r', t')) : t'.store.evidenceFilePath = t.store.evidenceFilePath := by
  cases IScsiBlockReader.effect_of_step h with
  | lookup env n =>
    rcases retrieveBlock_cases t.store env.io n t.files with ⟨e, he⟩ | ⟨b, -, -, he⟩ |
      ⟨k, -, -, -, -, he⟩ <;> rw [he] <;> rfl
  | store env q =>
    rcases storeBlock_cases t.store env.io env.key q.buffer t.files with ⟨e, he⟩ |
      ⟨e, k, -, he⟩ | ⟨k, -, he⟩ <;> rw [he] <;> rfl
  | _ => rfl

theorem stepReader_follows {a : Action} {control : FileControl}
    {p : RemoteNetworkFile × EvidenceStoreFactory} (h : Projects path σ w v)
    (hd : w.Owns path d.evidenceStore) (hs : stepReader d a control w = some p) :
    ∃ p₁, stepReader (d.renumber σ) a control v = some p₁ ∧ Follows path σ w p p₁ := by
  obtain ⟨t, ht, hs⟩ := Option.bind_eq_some_iff.1 hs
  obtain ⟨⟨r, t'⟩, hstep, rfl⟩ := Option.map_eq_some_iff.1 hs
  have hpath : t'.store.evidenceFilePath = path := by
    obtain ⟨s, hobject, hpath⟩ := hd
    obtain ⟨s', hobject', rfl⟩ := Option.map_eq_some_iff.1 ht
    obtain rfl : s = s' := Option.some.inj (hobject.symm.trans hobject')
    exact (evidenceFilePath_step hstep).trans hpath
  have hm := h.setSession hd hpath
  refine ⟨(⟨some { d.renumber σ with blockReader := r }, control⟩,
    v.setSession (σ d.evidenceStore) t'), ?_, σ, hm, rfl, fun d' hd' => ?_⟩
  · have ht' : v.session (d.renumber σ).evidenceStore = some t := (h.session hd).trans ht
    have hstep' : (d.renumber σ).blockReader.step t a = some (r, t') := hstep
    rw [stepReader, ht', Option.bind_some, hstep', Option.map_some]
    rfl
  · obtain rfl := Option.some.inj hd'
    exact hm.changes.owns _ hd

theorem advance_follows {e : Env} {p : RemoteNetworkFile × EvidenceStoreFactory}
    (h : Projects path σ w v) (hf : OwnedBy path w f) (hdata : f.inputData = some d)
    (hs : f.advance d e w = some p) :
    ∃ p₁, (f.renumber σ).advance (d.renumber σ) e v = some p₁ ∧ Follows path σ w p p₁ := by
  have hd := hf d hdata
  have hcontrol : (f.renumber σ).control = f.control := rfl
  have hreader : (d.renumber σ).blockReader = d.blockReader := rfl
  unfold advance at hs ⊢
  rw [hcontrol]
  cases hc : f.control with
  | idle | returned =>
    rw [hc] at hs
    cases hs
  | read call r =>
    rw [hc] at hs
    dsimp only at hs ⊢
    split_ifs at hs ⊢
    · cases hs
      exact ⟨_, rfl, σ, h.mirrors, rfl, hf⟩
    · exact stepReader_follows h hd hs
  | retrieveBlock call r =>
    rw [hc] at hs
    dsimp only at hs ⊢
    rw [hreader]
    cases hb : d.blockReader.control with
    | returned result =>
      rw [hb] at hs
      cases result with
      | error e =>
        cases hs
        exact ⟨_, rfl, σ, h.mirrors, rfl, hf⟩
      | ok block =>
        dsimp only at hs ⊢
        rw [IScsiInputData.copyBlock_renumber]
        cases hcopy : d.copyBlock r block with
        | error e =>
          rw [hcopy] at hs
          cases hs
          exact ⟨_, rfl, σ, h.mirrors, rfl, hf⟩
        | ok p' =>
          rw [hcopy] at hs
          obtain ⟨d', r'⟩ := p'
          cases hs
          refine ⟨_, rfl, σ, h.mirrors, rfl, fun d'' hd'' => ?_⟩
          obtain rfl := Option.some.inj hd''
          rw [IScsiInputData.copyBlock_eq_ok hcopy]
          exact hd
    | _ =>
      rw [hb] at hs
      exact stepReader_follows h hd hs

/-- Every step of a file of the path is one of the file alone. -/
theorem step_follows {a : FileAction} {p : RemoteNetworkFile × EvidenceStoreFactory}
    (h : Projects info.evidencePath σ w v) (hf : OwnedBy info.evidencePath w f)
    (hs : f.step info w a = some p) :
    ∃ p₁, (f.renumber σ).step info v a = some p₁ ∧ Follows info.evidencePath σ w p p₁ := by
  have hidle : (f.renumber σ).Idle = f.Idle := rfl
  cases a with
  | openFile env =>
    rw [step] at hs ⊢
    rw [hidle]
    split_ifs at hs ⊢
    cases hs
    exact ⟨_, rfl, (openFile_follows _ h hf).2⟩
  | closeFile connection io closeIo =>
    rw [step] at hs ⊢
    rw [hidle]
    split_ifs at hs ⊢
    cases hs
    exact ⟨_, rfl, closeFile_follows h hf connection io closeIo⟩
  | seekFile pos typ env =>
    rw [step] at hs ⊢
    rw [hidle]
    split_ifs at hs ⊢
    cases hs
    exact ⟨_, rfl, seekFile_follows h hf pos typ⟩
  | readFile call env =>
    rw [step] at hs ⊢
    rw [hidle]
    split_ifs at hs ⊢
    cases hs
    exact ⟨_, rfl, readFile_follows h hf call⟩
  | advance env =>
    obtain ⟨d, hdata, hs⟩ := Option.bind_eq_some_iff.1 hs
    obtain ⟨p₁, hs₁, hp⟩ := advance_follows h hf hdata hs
    exact ⟨p₁, by rw [step, renumber_some hdata, Option.bind_some, hs₁], hp⟩
  | finish n outcome =>
    obtain ⟨d, hdata, hs⟩ := Option.bind_eq_some_iff.1 hs
    obtain ⟨p₁, hs₁, hp⟩ := stepReader_follows h (hf d hdata) hs
    refine ⟨p₁, ?_, hp⟩
    rw [step, renumber_some hdata, Option.bind_some]
    exact hs₁

@[simp] theorem renumber_id (f : RemoteNetworkFile) : f.renumber id = f := by
  obtain ⟨inputData, control⟩ := f
  cases inputData <;> rfl

theorem renumber_congr (h : ∀ d, f.inputData = some d → σ d.evidenceStore = σ' d.evidenceStore) :
    f.renumber σ = f.renumber σ' := by
  obtain ⟨inputData, control⟩ := f
  cases inputData with
  | none => rfl
  | some d =>
    simp only [renumber, Option.map_some, IScsiInputData.renumber, h d rfl]

end RemoteNetworkFile

end Raqet
