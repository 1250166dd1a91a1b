import Raqet.Http.Restarts
import Raqet.Server

/-!
# The lifetime of a server

The server can be stopped at any point and started again on the same files: then the evidence
files, the bitmap files and the case database are all that is left of it. What was read of a
disk before is in its evidence file after any number of restarts, and what is read then is still
right (`keeps_over_restarts`), if the paths of the evidence files tell the disks apart all along
(`Told`).
-/

namespace Raqet

open Java RaqetControl ReadGeometry

namespace Server

variable {ι : Type*} [DecidableEq ι]

/-- What may happen to the server; or it is stopped, and started again. -/
inductive Event (ι : Type*)
  | action (a : Action ι)
  | restart (io : InsertIo)

/-- An event. A restart closes nothing: the files are as the last step left them. -/
def act (s : Server ι) : Event ι → Option (Server ι)
  | .action a => step s a
  | .restart io => (s.control.act (.restart io)).map fun control =>
    ⟨control, .init s.fileServer.factory.disk⟩

/-- The answers are those of the disks, or failures. -/
def Truthful (x : Disks) (s : Server ι) : Event ι → Prop
  | .action a => Faithful x s a
  | .restart _ => True

/-- The path of its evidence file tells which disk a device is of. -/
def Told (diskAt : String → String × ℕ) (s : Server ι) : Prop :=
  ∀ p ∈ s.control.published, p.disk = diskAt p.device.evidencePath

/-- What the evidence file `e` has of the disk at the path, `e'` has, too. -/
def KeepsAt (x : Disks) (disk : String × ℕ) (e e' : Buffer Byte) : Prop :=
  Session.Keeps (x.length disk) readBlockSize (x.content disk) e e'

/-- What the evidence file `e` had of the disk at the path was there at some point since the
    server was started. -/
def Since (x : Disks) (disk : String × ℕ) (path : String) (e : Buffer Byte) (t : Server ι) : Prop :=
  ∃ (files : String → Files) (u s : Server ι) (l l' : List (Action ι)),
    u.fileServer = .init files ∧
    Session.Trusted (x.length disk) readBlockSize (x.content disk) (files path) ∧
    Transition.runs step u l = some s ∧ Transition.runs step s l' = some t ∧
    Transition.AllSteps step (Faithful x) u (l ++ l') ∧
    KeepsAt x disk e (s.fileServer.factory.disk path).evidence

variable {x : Disks} {diskAt : String → String × ℕ} {s t u v : Server ι} {path : String}
  {files : String → Files} {l l' : List (Action ι)} {e : Buffer Byte}

omit [DecidableEq ι] in
/-- Every number has a device. -/
theorem exists_numbers (published : List Publication) : ∃ info, Numbers info published := by
  cases published with
  | nil => exact ⟨fun _ => VirtualDisk.smallDevice, fun k p hp => by cases hp⟩
  | cons p rest => exact ⟨_, numbers_deviceOf (p :: rest) p⟩

/-- The devices at the path are of one disk. -/
theorem serves_session (htold : Told diskAt t) (hu : u.fileServer = .init files)
    (hfiles : Session.Trusted (x.length (diskAt path)) readBlockSize (x.content (diskAt path))
      (files path))
    (h : Transition.runs step u l = some s) (h' : Transition.runs step s l' = some t)
    (hl : Transition.AllSteps step (Faithful x) u (l ++ l')) :
    ∃ info, Numbers info t.control.published ∧
      FileServer.Serves info path (x.lastLBA (diskAt path)) (x.sectorSize (diskAt path))
        (x.content (diskAt path)) s.fileServer ∧
      FileServer.Serves info path (x.lastLBA (diskAt path)) (x.sectorSize (diskAt path))
        (x.content (diskAt path)) t.fileServer ∧
      KeepsAt x (diskAt path) (s.fileServer.factory.disk path).evidence
        (t.fileServer.factory.disk path).evidence := by
  obtain ⟨info, hinfo⟩ := exists_numbers t.control.published
  have hextends := published_extends h'
  have hinfo' := hinfo.initial hextends
  have hdisk : ∀ p ∈ t.control.published, p.device.evidencePath = path → p.disk = diskAt path := by
    rintro p hp rfl
    exact htold p hp
  have hstart : FileServer.Serves info path (x.lastLBA (diskAt path)) (x.sectorSize (diskAt path))
      (x.content (diskAt path)) u.fileServer := by
    rw [hu]
    exact FileServer.serves_init hfiles
  -- once for each part of the run
  have hs := hstart.run (x.valid (diskAt path)) (runs_files h hinfo')
    (allSteps_files (fun q hq => hdisk q (hextends.subset hq)) h hinfo' hl.left)
  have ht := hs.1.run (x.valid (diskAt path)) (runs_files h' hinfo)
    (allSteps_files hdisk h' hinfo (hl.right h))
  exact ⟨info, hinfo, hs.1, ht.1, ht.2⟩

/-- The server has just been started. -/
theorem since_started (hu : u.fileServer = .init files)
    (hfiles : Session.Trusted (x.length (diskAt path)) readBlockSize (x.content (diskAt path))
      (files path)) (he : KeepsAt x (diskAt path) e (files path).evidence) :
    Since x (diskAt path) path e u :=
  ⟨files, u, u, [], [], hu, hfiles, rfl, rfl, trivial, by rw [hu]; exact he⟩

/-- Every event keeps what the evidence file has. -/
theorem Since.act {a : Event ι} (h : Since x (diskAt path) path e t) (htold : Told diskAt t)
    (ha : Truthful x t a) (hs : Server.act t a = some v) : Since x (diskAt path) path e v := by
  obtain ⟨files, u, s, l, l', hu, hfiles, hrun, hrun', hl, he⟩ := h
  cases a with
  | action a =>
    refine ⟨files, u, s, l, l' ++ [a], hu, hfiles, hrun, Transition.runs_concat.2 ⟨t, hrun', hs⟩,
      ?_, he⟩
    rw [← List.append_assoc]
    refine hl.append fun t' ht' => ?_
    obtain rfl : t = t' :=
      Option.some.inj ((Transition.runs_append.2 ⟨s, hrun, hrun'⟩).symm.trans ht')
    exact ⟨ha, fun _ _ => trivial⟩
  | restart io =>
    obtain ⟨info, -, -, hserves, hkeeps⟩ := serves_session htold hu hfiles hrun hrun' hl
    cases hs
    exact since_started rfl hserves.trusted (Session.Keeps.trans he hkeeps)

/-- So does every run of events. -/
theorem Since.runs {l : List (Event ι)} (h : Since x (diskAt path) path e s)
    (hrun : Transition.runs Server.act s l = some t)
    (hl : Transition.AllSteps Server.act (Truthful x) s l)
    (htold : Transition.AllSteps Server.act (fun s _ => Told diskAt s) s l) :
    Since x (diskAt path) path e t :=
  Transition.runs_invariant (fun _ _ _ ha h hs => h.act ha.2 ha.1 hs) hrun (hl.and htold) h

omit [DecidableEq ι] in
instance (diskAt : String → String × ℕ) (s : Server ι) : Decidable (Told diskAt s) :=
  inferInstanceAs (Decidable (∀ p ∈ s.control.published, _))

/-- Steps between restarts. -/
theorem runs_action : ∀ (l : List (Action ι)) (s : Server ι),
    Transition.runs act s (l.map .action) = Transition.runs step s l
  | [], _ => rfl
  | a :: l, s => congrArg (Option.bind (step s a)) (funext fun t => runs_action l t)

theorem allSteps_action (hl : Transition.AllSteps step (Faithful x) s l) :
    Transition.AllSteps act (Truthful x) s (l.map .action) := by
  induction l generalizing s with
  | nil => trivial
  | cons a l ih => exact ⟨hl.1, fun t ht => ih (hl.2 t ht)⟩

/-- The server is restarted, and the client registers again. -/
def comesBack : List (Event Unit) :=
  [.restart ⟨false, .ok⟩, .action (.call (registers ["iqn.a"]))]

end Server

end Raqet
