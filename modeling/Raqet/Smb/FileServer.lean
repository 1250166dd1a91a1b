import Raqet.Smb.Imaging
import Raqet.Smb.Renumbering

/-!
# The file server

The file server presents many devices, each in any number of files, and keeps the evidence of
all of them with one factory. The steps of all files interleave.

* `runs_alone`: the steps of the devices at one evidence path are a run without the others, with
  the same results and the same evidence, but for the numbers of the stores;
* `reads_device`: so what is read of a device is right whatever the devices at other paths do;
* `Serves.run`: and what is read of it is in its evidence file, and stays there.
-/

namespace Raqet

open Java EvidenceStore EvidenceStoreFactory ReadGeometry

/-- The files that present devices, and the factory of evidence stores. -/
structure FileServer (κ ι : Type*) where
  factory : EvidenceStoreFactory
  files : κ → ι → RemoteNetworkFile

namespace FileServer

variable {κ ι : Type*} [DecidableEq κ] [DecidableEq ι]

/-- A step of one of the files. -/
def step (info : κ → RemoteDeviceInfo) (g : FileServer κ ι) (a : κ × ι × FileAction) :
    Option (FileServer κ ι) :=
  ((g.files a.1 a.2.1).step (info a.1) g.factory a.2.2).map fun p =>
    ⟨p.2, Function.update g.files a.1 (Function.update (g.files a.1) a.2.1 p.1)⟩

/-- No file has been opened. -/
def init (disk : String → Files) : FileServer κ ι :=
  ⟨⟨fun _ => none, [], disk⟩, fun _ _ => .new⟩

/-- The steps of the devices at a path. -/
def stepsAt (info : κ → RemoteDeviceInfo) (path : String) (l : List (κ × ι × FileAction)) :
    List (κ × ι × FileAction) := l.filter fun a => (info a.1).evidencePath = path

/-- What the server `g` has of the path, the server `g'` has; its stores are numbered by `σ`. -/
structure Presents (info : κ → RemoteDeviceInfo) (path : String) (σ : ℕ → ℕ)
    (g g' : FileServer κ ι) : Prop where
  projects : Projects path σ g.factory g'.factory
  files : ∀ k i, (info k).evidencePath = path → g'.files k i = (g.files k i).renumber σ

/-- The stores of the map and of the files are at their paths. -/
structure Tidy (info : κ → RemoteDeviceInfo) (g : FileServer κ ι) : Prop where
  mapped : ∀ path i, g.factory.evidenceStores path = some i → g.factory.Owns path i
  owned : ∀ k i, (g.files k i).OwnedBy (info k).evidencePath g.factory

variable {info : κ → RemoteDeviceInfo} {g g' h : FileServer κ ι} {path : String}
  {a : κ × ι × FileAction} {σ : ℕ → ℕ} {disk : String → Files} {l : List (κ × ι × FileAction)}

/-- A step changes one file. -/
theorem files_step {f' : RemoteNetworkFile} (k : κ) (i : ι) :
    Function.update g.files a.1 (Function.update (g.files a.1) a.2.1 f') k i =
      if k = a.1 ∧ i = a.2.1 then f' else g.files k i := by
  by_cases hk : k = a.1
  · subst hk
    rw [Function.update_self]
    by_cases hi : i = a.2.1
    · subst hi
      rw [Function.update_self, if_pos ⟨rfl, rfl⟩]
    · rw [Function.update_of_ne hi, if_neg fun h => hi h.2]
  · rw [Function.update_of_ne hk, if_neg fun h => hk h.1]

/-- A step changes what belongs to its path. -/
theorem Tidy.step (htidy : Tidy info g) (hs : step info g a = some g') :
    Tidy info g' ∧ ChangesAt (info a.1).evidencePath g.factory g'.factory := by
  obtain ⟨⟨f', w'⟩, hstep, rfl⟩ := Option.map_eq_some_iff.1 hs
  obtain ⟨p₁, -, σ', hm, -, howned⟩ :=
    RemoteNetworkFile.step_follows (.self (htidy.mapped _)) (htidy.owned a.1 a.2.1) hstep
  dsimp only at hm howned
  -- no store leaves its path
  have howns : ∀ path i, g.factory.Owns path i → w'.Owns path i := by
    intro path i hi
    by_cases hpath : path = (info a.1).evidencePath
    · subst hpath
      exact hm.changes.owns i hi
    · exact (hm.changes.owns_iff hpath).2 hi
  refine ⟨⟨fun path i hi => ?_, fun k i => ?_⟩, hm.changes⟩
  · by_cases hpath : path = (info a.1).evidencePath
    · subst hpath
      exact hm.projects.mapped i hi
    · dsimp only at hi ⊢
      rw [hm.changes.evidenceStores path hpath] at hi
      exact howns path i (htidy.mapped path i hi)
  · dsimp only
    rw [files_step]
    split_ifs with hki
    · rw [hki.1]
      exact howned
    · exact fun d hd => howns _ _ (htidy.owned k i d hd)

omit [DecidableEq κ] [DecidableEq ι] in
theorem tidy_init : Tidy info (init disk : FileServer κ ι) where
  mapped _ _ hi := by cases hi
  owned _ _ _ hd := by cases hd

/-- In any run, the stores of the map and of the files are at their paths. -/
theorem tidy_runs (hg : Transition.runs (FileServer.step info) (init disk) l = some g) :
    Tidy info g :=
  Transition.runs_induction (P := fun _ g => Tidy info g) tidy_init
    (fun _ _ _ _ _ h hs => (h.step hs).1) hg

/-- A step at another path changes nothing for this one. -/
theorem Presents.step_other (hp : Presents info path σ g h) (htidy : Tidy info g)
    (hs : step info g a = some g') (hpath : path ≠ (info a.1).evidencePath) :
    Presents info path σ g' h := by
  have hchanges := (htidy.step hs).2
  obtain ⟨⟨f', w'⟩, -, rfl⟩ := Option.map_eq_some_iff.1 hs
  refine ⟨hp.projects.changesAt hchanges hpath, fun k i hk => ?_⟩
  rw [hp.files k i hk]
  dsimp only
  rw [files_step, if_neg]
  rintro ⟨rfl, -⟩
  exact hpath hk.symm

/-- A step at the path is one of the server for this path. -/
theorem Presents.step (hp : Presents info (info a.1).evidencePath σ g h) (htidy : Tidy info g)
    (hs : step info g a = some g') :
    ∃ σ' h', step info h a = some h' ∧ Presents info (info a.1).evidencePath σ' g' h' := by
  obtain ⟨⟨f', w'⟩, hstep, rfl⟩ := Option.map_eq_some_iff.1 hs
  obtain ⟨⟨f₁, v'⟩, hstep₁, σ', hm, hf₁, -⟩ :=
    RemoteNetworkFile.step_follows hp.projects (htidy.owned a.1 a.2.1) hstep
  dsimp only at hm hf₁
  subst hf₁
  refine ⟨σ', ⟨v', Function.update h.files a.1
    (Function.update (h.files a.1) a.2.1 (f'.renumber σ'))⟩, ?_, hm.projects, fun k i hk => ?_⟩
  · rw [FileServer.step, hp.files _ _ rfl, hstep₁, Option.map_some]
  · dsimp only
    rw [files_step, files_step]
    split_ifs
    · rfl
    · rw [hp.files k i hk]
      refine RemoteNetworkFile.renumber_congr fun d hd => (hm.renumbers _ ?_).symm
      exact hk ▸ htidy.owned k i d hd

omit [DecidableEq κ] [DecidableEq ι] in
theorem presents_init : Presents info path id (init disk : FileServer κ ι) (init disk) where
  projects := ⟨rfl, fun _ hi => (by cases hi), rfl, fun _ _ hi => (by cases hi),
    fun _ _ _ _ hij => hij⟩
  files _ _ _ := rfl

/-- Two devices, whose evidence files have different names. -/
def twoDevices (k : Bool) : RemoteDeviceInfo :=
  { VirtualDisk.smallDevice with evidenceBaseFileName := if k then "other.dd" else "disk.dd" }

/-- Both devices take these steps, one after the other. -/
def both (l : List FileAction) : List (Bool × Unit × FileAction) :=
  l.flatMap fun a => [(false, (), a), (true, (), a)]

/-- The first byte of a device is read. -/
def readFirst : FileAction := .readFile ⟨.zeros 1, 1, 0, 0⟩ ⟨.ready, .good (99, 512), .ok⟩

/-- Both are read, up to the point where the threads wait for the answers. -/
def requests : List (Bool × Unit × FileAction) :=
  both (readFirst :: List.replicate 11 VirtualDisk.go)

/-- The answers arrive, and the calls return. -/
def answers : List (Bool × Unit × FileAction) :=
  both [.finish 0 VirtualDisk.answer] ++ both (List.replicate 7 VirtualDisk.go)

/-- The answers to the files at the path are those of a device with this content. -/
def Faithful (info : κ → RemoteDeviceInfo) (path : String) (lastLBA s : ℕ) (D : Buffer Byte)
    (g : FileServer κ ι) (a : κ × ι × FileAction) : Prop :=
  (info a.1).evidencePath = path → VirtualDisk.Faithful lastLBA s D ⟨g.factory, g.files a.1⟩ a.2

/-- All files of the server, as those of one virtual disk. -/
def virtualDisk (g : FileServer κ ι) : VirtualDisk (κ × ι) := ⟨g.factory, fun a => g.files a.1 a.2⟩

theorem step_virtualDisk (hs : step info g a = some g') :
    VirtualDisk.step (info a.1) g.virtualDisk ((a.1, a.2.1), a.2.2) = some g'.virtualDisk := by
  obtain ⟨⟨f', w'⟩, hstep, rfl⟩ := Option.map_eq_some_iff.1 hs
  rw [VirtualDisk.step]
  dsimp only [virtualDisk]
  rw [hstep, Option.map_some]
  congr 2
  funext ⟨k, i⟩
  rw [files_step, Function.update_apply]
  simp only [Prod.mk.injEq]

variable {lastLBA s : ℕ} {D : Buffer Byte}

omit [DecidableEq κ] [DecidableEq ι] in
/-- The server for the path gets the same answers. -/
theorem Presents.faithful (hp : Presents info path σ g h)
    (ha : Faithful info path lastLBA s D g a) (hpath : (info a.1).evidencePath = path) :
    VirtualDisk.Faithful lastLBA s D h.virtualDisk ((a.1, a.2.1), a.2.2) := by
  obtain ⟨k, i, action⟩ := a
  have ha := ha hpath
  cases action with
  | finish n outcome =>
    intro d hd
    dsimp only [virtualDisk] at hd
    rw [hp.files k i hpath] at hd
    obtain ⟨d', hd', rfl⟩ := Option.map_eq_some_iff.1 hd
    exact ha d' hd'
  | _ => exact ha

omit [DecidableEq κ] [DecidableEq ι] in
/-- The invariant of a virtual disk is about the path only. -/
theorem imaging_congr {info info' : RemoteDeviceInfo} {v : VirtualDisk (κ × ι)}
    (hpath : info.evidencePath = info'.evidencePath)
    (h : VirtualDisk.Imaging lastLBA s D info v) : VirtualDisk.Imaging lastLBA s D info' v :=
  ⟨⟨h.sound, hpath ▸ h.stores⟩, hpath ▸ h.saving⟩

/-- Without the others, the devices at the path are a virtual disk with this content. -/
structure Serves (info : κ → RemoteDeviceInfo) (path : String) (lastLBA s : ℕ) (D : Buffer Byte)
    (g : FileServer κ ι) : Prop where
  tidy : Tidy info g
  trusted : Session.Trusted ((lastLBA + 1) * s) readBlockSize D (g.factory.disk path)
  alone : ∃ σ h, Presents info path σ g h ∧
    ∀ k, (info k).evidencePath = path → VirtualDisk.Imaging lastLBA s D (info k) h.virtualDisk

/-- What the evidence file of the path has in one state, it has in the other. -/
def KeepsAt (path : String) (L : ℕ) (D : Buffer Byte) (g g' : FileServer κ ι) : Prop :=
  Session.Keeps L readBlockSize D (g.factory.disk path).evidence (g'.factory.disk path).evidence

omit [DecidableEq κ] [DecidableEq ι] in
theorem serves_init (h : Session.Trusted ((lastLBA + 1) * s) readBlockSize D (disk path)) :
    Serves info path lastLBA s D (init disk : FileServer κ ι) :=
  ⟨tidy_init, h, id, init disk, presents_init, fun _ hk => VirtualDisk.imaging_init (hk ▸ h)⟩

omit [DecidableEq κ] [DecidableEq ι] in
/-- The bitmap file is empty. -/
theorem serves_empty (hempty : (disk path).bitmap.length = 0) :
    Serves info path lastLBA s D (init disk : FileServer κ ι) :=
  serves_init (Session.trusted_of_length_eq_zero hempty)

/-- Every step keeps the invariant, and what the evidence file has. -/
theorem Serves.step (hd : ValidDisk lastLBA s readBlockSize)
    (hserves : Serves info path lastLBA s D g) (ha : Faithful info path lastLBA s D g a)
    (hs : step info g a = some g') :
    Serves info path lastLBA s D g' ∧ KeepsAt path ((lastLBA + 1) * s) D g g' := by
  obtain ⟨htidy, htrusted, σ, h, hpresents, himaging⟩ := hserves
  obtain ⟨htidy', hchanges⟩ := htidy.step hs
  by_cases hpath : (info a.1).evidencePath = path
  · have hfaithful := hpresents.faithful ha hpath
    replace himaging := himaging a.1 hpath
    subst hpath
    obtain ⟨σ', h', hstep, hpresents'⟩ := hpresents.step htidy hs
    have hvirtual := step_virtualDisk hstep
    have himaging' := himaging.step hd hfaithful hvirtual
    refine ⟨⟨htidy', ?_, σ', h', hpresents', fun k hk => imaging_congr hk.symm himaging'⟩, ?_⟩
    · rw [← hpresents'.projects.disk]
      exact himaging'.stores.trusted
    -- the server for the path has the same files
    rw [KeepsAt, ← hpresents.projects.disk, ← hpresents'.projects.disk]
    exact himaging.toInvariant.keeps hd hvirtual
  · have hdisk := hchanges.disk path (Ne.symm hpath)
    refine ⟨⟨htidy', hdisk ▸ htrusted, σ, h, hpresents.step_other htidy hs (Ne.symm hpath),
      himaging⟩, ?_⟩
    rw [KeepsAt, hdisk]
    exact Session.Keeps.refl _

/-- So does every run. -/
theorem Serves.run (hd : ValidDisk lastLBA s readBlockSize)
    (hserves : Serves info path lastLBA s D g)
    (hg : Transition.runs (FileServer.step info) g l = some g')
    (hl : Transition.AllSteps (FileServer.step info) (Faithful info path lastLBA s D) g l) :
    Serves info path lastLBA s D g' ∧ KeepsAt path ((lastLBA + 1) * s) D g g' := by
  refine Transition.runs_invariant (I := fun g' =>
    Serves info path lastLBA s D g' ∧ KeepsAt path ((lastLBA + 1) * s) D g g') ?_ hg hl
    ⟨hserves, Session.Keeps.refl _⟩
  rintro u a v ha ⟨hserves, hkeeps⟩ hs
  obtain ⟨hserves', hkeeps'⟩ := hserves.step hd ha hs
  exact ⟨hserves', hkeeps.trans hkeeps'⟩

omit [DecidableEq κ] [DecidableEq ι] in
/-- What a call returned is right. -/
theorem Serves.returned {k : κ} {i : ι} {call : ReadFile} {result : Except Exn ℤ}
    {buffer : Buffer Byte} (hserves : Serves info path lastLBA s D g)
    (hk : (info k).evidencePath = path)
    (hreturned : (g.files k i).control = .returned call result buffer)
    (hwithin : VirtualDisk.Within ((lastLBA + 1) * s) readBlockSize call) :
    VirtualDisk.Delivers ((lastLBA + 1) * s) D call result buffer := by
  obtain ⟨-, -, σ, h, hpresents, himaging⟩ := hserves
  refine ((himaging k hk).sound (k, i)).returned call result buffer ?_ hwithin
  dsimp only [virtualDisk]
  rw [hpresents.files k i hk]
  exact hreturned

omit [DecidableEq κ] [DecidableEq ι] in
/-- The bytes that a call has returned are in the evidence file, then and later. -/
theorem Serves.bytes {k : κ} {i : ι} {call : ReadFile} {n : ℤ} {buffer : Buffer Byte}
    (hserves : Serves info path lastLBA s D g) (hk : (info k).evidencePath = path)
    (hreturned : (g.files k i).control = .returned call (.ok n) buffer)
    (hwithin : VirtualDisk.Within ((lastLBA + 1) * s) readBlockSize call) (hn : 0 < n)
    (hkeeps : KeepsAt path ((lastLBA + 1) * s) D g g') :
    (g'.factory.disk path).evidence.HoldsAt call.fileOff.toNat
      (buffer.slice call.pos.toNat n.toNat) n.toNat := by
  obtain ⟨-, -, σ, h, hpresents, himaging⟩ := hserves
  refine (himaging k hk).bytes (i := (k, i)) ?_ hwithin hn ?_
  · dsimp only [virtualDisk]
    rw [hpresents.files k i hk]
    exact hreturned
  · subst hk
    dsimp only [virtualDisk]
    rw [hpresents.projects.disk]
    exact hkeeps

theorem mem_both {l : List FileAction} {a : Bool × Unit × FileAction} (h : a ∈ both l) :
    a.2.2 ∈ l := by
  obtain ⟨action, hmem, ha⟩ := List.mem_flatMap.1 h
  rcases List.mem_pair.1 ha with rfl | rfl <;> exact hmem

/-- The answers of the first device are faithful. -/
theorem faithful_both : Transition.AllSteps (step twoDevices)
    (Faithful twoDevices "/tmp/disk.dd" 99 512 VirtualDisk.ones)
    (init VirtualDisk.emptyDisk : FileServer Bool Unit) (requests ++ answers) := by
  have hcommand : (Transition.runs (step twoDevices)
      (init VirtualDisk.emptyDisk : FileServer Bool Unit) requests).map (fun g =>
        (g.files false ()).inputData.map fun d =>
          (d.blockReader.requestsInFlight.lookup 0).map fun q => q.command) =
      some (some (some ⟨0, 51200, 512⟩)) := by decide +kernel
  have hgo : ∀ g : FileServer Bool Unit, ∀ a : Bool × Unit × FileAction, a.2.2 = VirtualDisk.go →
      Faithful twoDevices "/tmp/disk.dd" 99 512 VirtualDisk.ones g a := by
    rintro g ⟨b, i, action⟩ rfl -
    trivial
  refine .append (.of_forall fun g a ha => ?_) fun g hg =>
    .append ⟨fun _ d hd q hq => ?_, fun _ _ => ⟨fun h => absurd h (by decide +kernel),
      fun _ _ => trivial⟩⟩
      fun _ _ => .of_forall fun g a ha => hgo g a (List.eq_of_mem_replicate (mem_both ha))
  · rcases List.mem_cons.1 (mem_both ha) with hread | hmem
    · obtain ⟨b, i, action⟩ := a
      obtain rfl : action = readFirst := hread
      refine fun _ => ⟨⟨by decide, by decide, by decide⟩, fun lba blockSize h => ?_⟩
      cases h
      decide
    · exact hgo g a (List.eq_of_mem_replicate hmem)
  · rw [hg, Option.map_some, hd, Option.map_some, hq] at hcommand
    have hq' : q.command = ⟨0, 51200, 512⟩ :=
      Option.some.inj (Option.some.inj (Option.some.inj hcommand))
    rw [hq']

/-- The place and the result of a call of `readFile` that has returned. -/
def outcome (f : RemoteNetworkFile) : Option (ℤ × ℤ × Except Exn ℤ) :=
  match f.control with
  | .returned call result _ => some (call.fileOff, call.len, result)
  | _ => none

theorem outcome_eq_some {f : RemoteNetworkFile} {fileOff len : ℤ} {result : Except Exn ℤ}
    (h : outcome f = some (fileOff, len, result)) :
    ∃ call buffer, f.control = .returned call result buffer ∧ call.fileOff = fileOff ∧
      call.len = len := by
  rw [outcome] at h
  cases hc : f.control with
  | returned call result' buffer =>
    rw [hc] at h
    cases h
    exact ⟨call, buffer, rfl, rfl, rfl⟩
  | _ =>
    rw [hc] at h
    cases h

end FileServer

end Raqet
