import Raqet.Database.UniqueIds
import Raqet.Http.Publishing
import Raqet.Java.Resolve

/-!
# Files that are written

The files and directories that a call creates or writes (`writes`): the folder and the entry
of a computer, the log of a client, and files with information about disks. A folder that
cannot be made, and a file that cannot be opened, is none of them. A call makes and writes at
the locations that they are resolved to, and nowhere else (`call_later_writes`).
-/

namespace Raqet

open Java FileSystem InvestigationCaseDB RaqetControl

/-- The computer that was found, if any. -/
def Lookup.computer? : Lookup → Option ComputerDbEntry
  | .found computer => some computer
  | _ => none

namespace RaqetControl

/-- The entry without hardware that a client claims if there is none with its ids. -/
def claiming (s : RaqetControl) (c : ClientInfo) (env : AddClientEnv) : Option ComputerDbEntry :=
  match s.investigationCaseDB.findClient s.fs env.find c.clientId c.hardwareId with
  | .ok none =>
    match s.investigationCaseDB.findClient s.fs env.findAgain c.clientId "" with
    | .ok computer => computer
    | .error _ => none
  | _ => none

/-- The folder that is made for a client if there is no entry for it. -/
def creating (s : RaqetControl) (c : ClientInfo) (env : AddClientEnv) : Option File :=
  match s.investigationCaseDB.findClient s.fs env.find c.clientId c.hardwareId with
  | .ok none =>
    match s.investigationCaseDB.findClient s.fs env.findAgain c.clientId "" with
    | .ok none =>
      s.investigationCaseDB.newFolder s.fs env.create "defaultcase" (defaultComputer c)
    | _ => none
  | _ => none

/-- A folder that is not there is made. -/
def makesFolder (fs : Disk) (io : InsertIo) (folder : File) : Bool :=
  fs.vacant folder && !io.mkdirFails

/-- A file that is not there is created. -/
def createsFile (fs : Disk) (io : WriteIo) (f : File) : Bool := fs.vacant f && io != .fails

/-- The folder that is made for a client, if it can be made. -/
def making (s : RaqetControl) (c : ClientInfo) (env : AddClientEnv) : Option File :=
  (s.creating c env).filter (makesFolder s.fs env.insert)

/-- The computer that a client gets bound to, if any. -/
def binding (s : RaqetControl) (c : ClientInfo) (env : AddClientEnv) : Option ComputerDbEntry :=
  (lookupComputer s.investigationCaseDB s.fs c env).1.computer?

/-- A new folder, and the entry in it. -/
def inserted (folder : Option File) (entryName : String) : List File :=
  folder.toList.flatMap fun folder => [folder, folder.child entryName]

/-- The files and directories that a call creates or writes, if anything. -/
def writes (s : RaqetControl) : Call → List File
  | .register ipAddress target env =>
    let c := ClientInfo.ofRegister ipAddress target
    if s.isNew c then
      inserted (s.making c env) computerEntryName ++
      (s.claiming c env).toList.map (fun computer =>
        computer.baseStorageFolder.child computerEntryName) ++
      (s.binding c env).toList.flatMap (fun computer =>
        [computer.baseStorageFolder.child computerEntryName,
          computer.baseStorageFolder.child "clientlogfile.txt"])
    else []
  | .diskinfo ipAddress clientid hardwareid devices io =>
    match s.sender (.new clientid hardwareid ipAddress) with
    | none => []
    | some computer =>
      (devices.zipIdx.filter fun d =>
        createsFile s.fs (io d.2) (computer.baseStorageFolder.child (d.1 ++ ".txt"))).map fun d =>
          computer.baseStorageFolder.child (d.1 ++ ".txt")
  | .addDevice _ _ => []
  | .createInvestigationCase investigationCase _ =>
    let folder := s.investigationCaseDB.baseDbPath.child
      (InvestigationCaseDbEntry.new investigationCase.urlCaseName
        investigationCase.caseName).urlCaseName
    inserted (if s.fs.exists folder then none else some folder) investigationEntryName
  | .createComputer caseName computer env io =>
    inserted ((s.investigationCaseDB.newFolder s.fs env caseName
      { urlcomputerName := escapeName computer.urlcomputerName
        computerName := computer.computerName
        clientId := computer.clientid }).filter (makesFolder s.fs io)) computerEntryName

end RaqetControl

/-- A change at the location of one of these files, which writes no entry of a case. -/
def Wrote (wd : List String) (files : List File) (loc : List String) (n : Node Content) : Prop :=
  (∃ f ∈ files, resolve wd f = loc) ∧ NoCase loc n

variable {fs fs' : Disk} {wd : List String} {files : List File} {f folder : File} {io : WriteIo}
  {content : Content} {s : RaqetControl} {c : ClientInfo} {env : AddClientEnv} {x : Exporting}
  {db : InvestigationCaseDB} {computer : ComputerDbEntry}

/-! ## Single changes -/

theorem wrote_mkdir {fails : Bool} (hf : f ∈ files) :
    Later (Wrote fs.workingDirectory files) fs (fs.mkdir fails f) :=
  later_mkdir fun _ hloc => ⟨⟨f, hf, resolve_of_locate hloc⟩, fun _ hn => nomatch hn⟩

theorem wrote_write (fs : Disk) (io : WriteIo) (hf : f ∈ files)
    (hcontent : content.investigationCase = none) :
    Later (Wrote fs.workingDirectory files) fs (fs.write io f content).2 := by
  refine later_write fun loc hloc => ?_
  have hat : ∃ f ∈ files, resolve fs.workingDirectory f = loc := ⟨f, hf, resolve_of_locate hloc⟩
  refine ⟨⟨hat, ?_⟩, hat, ?_⟩
  · rintro _ ⟨⟩
    exact hcontent
  · rintro _ ⟨⟩
    rfl

theorem wrote_update (fs : Disk) (io : WriteIo)
    (hf : computer.baseStorageFolder.child computerEntryName ∈ files) :
    Later (Wrote fs.workingDirectory files) fs (update fs io computer).2 := by
  rw [update, writeValue_snd]
  exact wrote_write fs io hf rfl

/-- If the folder of a computer is not made, nothing is written in it. -/
theorem createComputer_of_not_made {readEnv : ReadEnv} {insert : InsertIo} {urlcaseName : String}
    {fields : ComputerFields}
    (hnew : db.newFolder fs readEnv urlcaseName fields = some folder)
    (hno : makesFolder fs insert folder = false) :
    db.createComputer fs readEnv insert urlcaseName fields = (.error .io, fs) := by
  obtain ⟨entry, -, rfl, hex⟩ := newFolder_eq_some hnew
  rw [createComputer_of_some insert hnew, mkdir_of_not_vacant hno, writeValue, FileSystem.write,
    locate_child_of_not_exists (path_child _ _) isName_computerEntryName hex]
  rfl

/-- A computer is created in a new folder. -/
theorem wrote_createComputer {readEnv : ReadEnv} (insert : InsertIo) {urlcaseName : String}
    {fields : ComputerFields}
    (h : inserted ((db.newFolder fs readEnv urlcaseName fields).filter (makesFolder fs insert))
      computerEntryName ⊆ files) :
    Later (Wrote fs.workingDirectory files) fs
      (db.createComputer fs readEnv insert urlcaseName fields).2 := by
  cases hnew : db.newFolder fs readEnv urlcaseName fields with
  | none =>
    obtain ⟨e, he⟩ := createComputer_of_none insert hnew
    rw [he]
    exact .refl
  | some folder =>
    -- without the folder, the entry cannot be written
    cases hmade : makesFolder fs insert folder with
    | false =>
      rw [createComputer_of_not_made hnew hmade]
      exact .refl
    | true =>
      rw [hnew, Option.filter_some, if_pos hmade] at h
      have hmkdir : Later (Wrote fs.workingDirectory files) fs
          (fs.mkdir insert.mkdirFails folder) := wrote_mkdir (h (by simp [inserted]))
      have hwrite := wrote_write (fs.mkdir insert.mkdirFails folder) insert.write
        (h (a := folder.child computerEntryName) (by simp [inserted]))
        (show (⟨none, some fields⟩ : Content).investigationCase = none from rfl)
      rw [hmkdir.workingDirectory] at hwrite
      rw [createComputer_of_some insert hnew, writeValue_snd]
      exact hmkdir.trans hwrite

/-! ## Calls -/

/-- The search for a computer claims an entry, or creates one. -/
theorem wrote_lookupComputer (hfiles : inserted (s.making c env) computerEntryName ++
    (s.claiming c env).toList.map (fun computer =>
      computer.baseStorageFolder.child computerEntryName) ⊆ files) :
    Later (Wrote s.fs.workingDirectory files) s.fs
      (lookupComputer s.investigationCaseDB s.fs c env).2 := by
  rw [making, creating, claiming] at hfiles
  cases hlookup : lookupComputer s.investigationCaseDB s.fs c env with
  | mk result fs' =>
    cases looksUp hlookup with
    | throws | found | throwsAgain => exact .refl
    | @claims found _ hfind hagain hupdate | @claimFails found _ _ hfind hagain hupdate =>
      rw [hfind, hagain] at hfiles
      have hentry : found.baseStorageFolder.child computerEntryName ∈ files := hfiles (by simp)
      have hclaim : Later (Wrote s.fs.workingDirectory files) s.fs
          (update s.fs env.update { found with hardwareId := readBack c.hardwareId }).2 :=
        wrote_update s.fs env.update hentry
      rwa [hupdate] at hclaim
    | creates hfind hagain hcreate | createFails hfind hagain hcreate =>
      rw [hfind, hagain] at hfiles
      have hcreated := wrote_createComputer env.insert (List.append_subset.1 hfiles).1
      rwa [hcreate] at hcreated

/-- While the devices of a client are published, it stays bound to a computer with this
    folder, and these files are written. -/
structure WritingFor (files : List File) (fs : Disk) (c : ClientInfo) (folder : File)
    (x : Exporting) : Prop where
  later : Later (Wrote fs.workingDirectory files) fs x.fs
  client : ∃ c' computer, x.clientInfo = some c' ∧ SameClient c c' ∧
    c'.computerDbEntry = some computer ∧ computer.baseStorageFolder = folder

/-- Publishing a device of a client writes the entry of its computer. -/
theorem WritingFor.exportDevice (h : WritingFor files fs c folder x) (io : WriteIo)
    (device : DiscoveredDevice) (hfiles : folder.child computerEntryName ∈ files) :
    WritingFor files fs c folder (RaqetControl.exportDevice io device x).2 := by
  obtain ⟨c', computer, hx, hsame, hc', hfolder⟩ := h.client
  rcases exportDevice_client io device hx hc' with he | ⟨name, hfs, hclient⟩
  · rwa [he]
  · have hfolder' : (computer.addDisk name).baseStorageFolder = folder :=
      (addDisk_folder computer name).1.trans hfolder
    have hentry : (computer.addDisk name).baseStorageFolder.child computerEntryName ∈ files :=
      hfolder' ▸ hfiles
    have hlater := wrote_update x.fs io hentry
    rw [h.later.workingDirectory, ← hfs] at hlater
    exact ⟨h.later.trans hlater, _, _, hclient, hsame.trans ⟨rfl, rfl, rfl, rfl⟩, rfl, hfolder'⟩

theorem WritingFor.exportDevices (update : ℕ → WriteIo) (devices : List DiscoveredDevice)
    (h : WritingFor files fs c folder x) (hfiles : folder.child computerEntryName ∈ files) :
    WritingFor files fs c folder (RaqetControl.exportDevices update devices x).2 :=
  exportDevices_induction devices (fun n device _ h => h.exportDevice (update n) device hfiles) h

/-- A registration writes to the folder of the computer that the client gets bound to, and
    keeps it there. -/
theorem wrote_addNewClient (c : ClientInfo) (env : AddClientEnv)
    (hfiles : inserted (s.making c env) computerEntryName ++
      (s.claiming c env).toList.map (fun computer =>
        computer.baseStorageFolder.child computerEntryName) ⊆ files)
    (hbinding : ∀ computer ∈ s.binding c env,
      computer.baseStorageFolder.child computerEntryName ∈ files ∧
        computer.baseStorageFolder.child "clientlogfile.txt" ∈ files) :
    Later (Wrote s.fs.workingDirectory files) s.fs (s.addNewClient c env).2.fs ∧
      ∃ c', (s.addNewClient c env).2.clientList = s.clientList ++ [c'] ∧ SameClient c c' ∧
        (c.computerDbEntry = none → ∀ computer ∈ c'.computerDbEntry,
          ∃ found ∈ s.binding c env, computer.baseStorageFolder = found.baseStorageFolder) := by
  have hlookup := wrote_lookupComputer hfiles
  rw [binding] at hbinding ⊢
  have hadds := addsClient s c env
  generalize (s.addNewClient c env).2 = t at hadds ⊢
  cases hadds with
  | unbound hl hnone =>
    rw [hl] at hlookup
    refine ⟨hlookup, c, rfl, .refl c, fun h => ?_⟩
    rw [h]
    rintro _ ⟨⟩
  | @bound computer fs' x hl devices hexport =>
    rw [hl] at hlookup hbinding
    obtain ⟨hentry, hlog⟩ := hbinding computer rfl
    have hwrite : Later (Wrote s.fs.workingDirectory files) fs'
        (writeLogging fs' env.writeLogging computer) := by
      have h := wrote_write fs' env.writeLogging hlog
        (show (default : Content).investigationCase = none from rfl)
      rwa [hlookup.workingDirectory] at h
    have hwriting : WritingFor files s.fs c computer.baseStorageFolder
        ⟨writeLogging fs' env.writeLogging computer,
          some { c with computerDbEntry := some computer }, s.published⟩ :=
      ⟨hlookup.trans hwrite, _, computer, rfl, ⟨rfl, rfl, rfl, rfl⟩, rfl, rfl⟩
    obtain ⟨hlater, c', computer', hx, hsame, hc', hfolder⟩ :=
      hwriting.exportDevices env.exporting.update devices hentry
    rw [hexport] at hlater hx
    rw [hx, hl]
    refine ⟨hlater, c', rfl, hsame, fun _ computer'' hcomputer'' => ⟨computer, rfl, ?_⟩⟩
    obtain rfl := Option.some.inj (hc'.symm.trans hcomputer'')
    exact hfolder

theorem exists_later {P : List String → Node Content → Prop} (hl : Later P fs fs')
    (h : fs.exists f = true) : fs'.exists f = true := by
  rw [FileSystem.exists, FileSystem.read] at h ⊢
  cases hloc : fs.locate f with
  | none =>
    rw [hloc] at h
    cases h
  | some loc =>
    rw [hloc] at h
    rw [hl.locate hloc]
    exact hl.node (R := fun n => n.isSome) h fun _ _ => rfl

/-! ### Information about disks -/

/-- A file of these is written, and no directory is made. -/
def WroteFile (wd : List String) (files : List File) (loc : List String) (n : Node Content) :
    Prop :=
  Wrote wd files loc n ∧ n ≠ .directory

variable {fs₀ : Disk} {basePath : File} {device : String} {devices : List String} {i : ℕ}

theorem exists_eq_false (hloc : fs.locate f = some loc) :
    fs.exists f = false ↔ fs.node loc = none := by
  rw [FileSystem.exists, FileSystem.read, hloc, Option.bind_some, Option.isSome_eq_false_iff,
    Option.isNone_iff_eq_none]

/-- A file that is not there is only written if it can be created. -/
theorem wroteFile_write (hl : Later (WroteFile fs₀.workingDirectory files) fs₀ fs)
    (hno : fs.exists f = false) (hf : createsFile fs₀ io f = true → f ∈ files) :
    Later (WroteFile fs₀.workingDirectory files) fs₀ (fs.write io f default).2 := by
  rw [FileSystem.write]
  cases hloc : fs.locate f with
  | none => exact hl
  | some loc =>
    have hnode := (exists_eq_false hloc).1 hno
    have hdir : fs.isDirectoryAt loc = false := isDirectoryAt_of_node_none hnode
    have hloc₀ : fs₀.locate f = some loc := (hl.locate_eq fun _ _ h => h.2).symm.trans hloc
    have hno₀ : fs₀.exists f = false :=
      Bool.eq_false_iff.2 fun hex => Bool.eq_false_iff.1 hno (exists_later hl hex)
    have hvacant : fs₀.vacant f = true := vacant_iff.2 ⟨loc, hloc₀, (exists_eq_false hloc₀).1 hno₀⟩
    have hset (hio : io ≠ .fails) (content : Content) (hc : content.investigationCase = none) :
        Later (WroteFile fs₀.workingDirectory files) fs₀ (fs.set loc (.file content)) := by
      have hcreates : createsFile fs₀ io f = true := by
        rw [createsFile, hvacant, Bool.true_and, bne_iff_ne]
        exact hio
      have hmem : f ∈ files := hf hcreates
      refine hl.set hdir ⟨⟨⟨f, hmem, resolve_of_locate hloc₀⟩, ?_⟩, ?_⟩
      · rintro _ ⟨⟩
        exact hc
      · rintro ⟨⟩
    dsimp only
    rw [hdir]
    cases io with
    | ok => exact hset (by rintro ⟨⟩) _ rfl
    | fails => exact hl
    | stops complete => exact hset (by rintro ⟨⟩) _ (by cases complete <;> rfl)

/-- Only the files with information about disks are written that can be created. -/
theorem wrote_writeDiskInformation {io : ℕ → WriteIo}
    (hl : Later (WroteFile fs₀.workingDirectory files) fs₀ fs)
    (hfiles : ∀ i device, devices[i]? = some device →
      createsFile fs₀ (io i) (basePath.child (device ++ ".txt")) = true →
        basePath.child (device ++ ".txt") ∈ files) :
    Later (WroteFile fs₀.workingDirectory files) fs₀
      (writeDiskInformation basePath devices io fs) := by
  induction devices generalizing io fs with
  | nil => exact hl
  | cons device devices ih =>
    rw [writeDiskInformation]
    refine ih ?_ fun i device' hi => hfiles (i + 1) device' hi
    by_cases hex : fs.exists (basePath.child (device ++ ".txt"))
    · simp only [hex, if_true]
      exact hl
    · simp only [hex, Bool.false_eq_true, if_false]
      exact wroteFile_write hl (Bool.eq_false_iff.2 hex) (hfiles 0 device rfl)

/-- A file that can be created is there once it is written. -/
theorem exists_write (hl : Later (fun _ n => n ≠ .directory) fs₀ fs)
    (hcreates : createsFile fs₀ io f = true) (hno : fs.exists f = false) :
    (fs.write io f default).2.exists f = true := by
  rw [createsFile, Bool.and_eq_true, bne_iff_ne] at hcreates
  obtain ⟨hvacant, hio⟩ := hcreates
  obtain ⟨loc, hloc₀, -⟩ := vacant_iff.1 hvacant
  have hloc : fs.locate f = some loc := (hl.locate_eq fun _ _ h => h).trans hloc₀
  have hdir : fs.isDirectoryAt loc = false :=
    isDirectoryAt_of_node_none ((exists_eq_false hloc).1 hno)
  have hne : loc ≠ [] := by
    rintro rfl
    cases hdir
  have hset (content : Content) : (fs.set loc (.file content)).exists f = true := by
    have hlater : Later (fun _ _ => True) fs (fs.set loc (.file content)) :=
      Later.refl.set hdir trivial
    rw [FileSystem.exists, FileSystem.read, hlater.locate hloc, Option.bind_some, node_set_self hne]
    rfl
  rw [FileSystem.write, hloc]
  dsimp only
  rw [hdir]
  cases io with
  | ok => exact hset _
  | fails => exact absurd rfl hio
  | stops complete => exact hset _

/-- The files with information about disks that can be created are there afterwards. -/
theorem exists_writeDiskInformation {io : ℕ → WriteIo}
    (hl : Later (fun _ n => n ≠ .directory) fs₀ fs) (hdevice : devices[i]? = some device)
    (hcreates : createsFile fs₀ (io i) (basePath.child (device ++ ".txt")) = true) :
    (writeDiskInformation basePath devices io fs).exists (basePath.child (device ++ ".txt")) =
      true := by
  induction devices generalizing io fs i with
  | nil => cases hdevice
  | cons device' devices ih =>
    rw [writeDiskInformation]
    generalize hfs' : (if fs.exists (basePath.child (device' ++ ".txt")) = true then fs
      else (fs.write (io 0) (basePath.child (device' ++ ".txt")) default).2) = fs'
    have hl' : Later (fun _ n => n ≠ .directory) fs fs' := by
      rw [← hfs']
      split_ifs
      · exact .refl
      · exact later_write_file
    cases i with
    | succ i => exact ih (hl.trans hl') hdevice hcreates
    | zero =>
      cases hdevice
      -- the files that are written later leave this one
      have hrest : Later (fun _ _ => True) fs'
          (writeDiskInformation basePath devices (fun n => io (n + 1)) fs') :=
        later_writeDiskInformation fun _ _ => trivial
      refine exists_later hrest ?_
      rw [← hfs']
      split_ifs with hex
      · exact hex
      · exact exists_write hl hcreates (Bool.eq_false_iff.2 hex)

/-! ### All calls -/

/-- No call but the one that creates a case writes an entry of a case, and every call only
    changes what it writes. -/
theorem call_wrote (s : RaqetControl) (a : Call) :
    (∃ investigationCase io, a = .createInvestigationCase investigationCase io) ∨
      Later (Wrote s.fs.workingDirectory (s.writes a)) s.fs (s.call a).2.fs := by
  cases a with
  | register ipAddress target env =>
    right
    rw [call, writes]
    cases hnew : s.isNew (.ofRegister ipAddress target) with
    | false =>
      rw [addClient_of_not_isNew env hnew]
      exact .refl
    | true =>
      rw [addClient_of_isNew env hnew, if_pos rfl]
      refine (wrote_addNewClient _ env (List.subset_append_left _ _) fun computer hc => ?_).1
      rw [Option.mem_def] at hc
      simp [hc]
  | diskinfo ipAddress clientid hardwareid devices io =>
    right
    rw [call, writes]
    cases hsender : s.sender (.new clientid hardwareid ipAddress) with
    | none =>
      rw [diskInformation_of_none devices io hsender]
      exact .refl
    | some computer =>
      rw [diskInformation_of_sender devices io hsender]
      refine (wrote_writeDiskInformation .refl fun i device hi hcreates => ?_).mono
        fun _ _ h => h.1
      exact List.mem_map.2 ⟨(device, i),
        List.mem_filter.2 ⟨List.mem_zipIdx_iff_getElem?.2 hi, hcreates⟩, rfl⟩
  | addDevice target env =>
    right
    rw [call, addDirect]
    cases TargetAddress.ofString target with
    | error e => exact .refl
    | ok address =>
      dsimp only
      rw [addRemoteDevice]
      cases RemoteDeviceManager.listTargets address env.discovery with
      | error e => exact .refl
      | ok devices =>
        dsimp only
        rw [exportDevices_direct]
        exact .refl
  | createInvestigationCase investigationCase io => exact .inl ⟨_, _, rfl⟩
  | createComputer caseName computer env io => exact .inr (wrote_createComputer io fun _ h => h)

/-- A call makes changes at the locations that the files it writes are resolved to. -/
theorem call_later_writes (s : RaqetControl) (a : Call) :
    Later (fun loc _ => ∃ f ∈ s.writes a, resolve s.fs.workingDirectory f = loc) s.fs
      (s.call a).2.fs := by
  rcases call_wrote s a with ⟨investigationCase, io, rfl⟩ | hl
  · rw [call, createInvestigationCase, writes, createCase]
    generalize s.investigationCaseDB.baseDbPath.child (InvestigationCaseDbEntry.new
      investigationCase.urlCaseName investigationCase.caseName).urlCaseName = folder
    by_cases hex : s.fs.exists folder
    · simp only [hex, if_true]
      exact .refl
    · simp only [hex, Bool.false_eq_true, if_false]
      have hmkdir : Later (fun loc _ => ∃ f ∈ inserted (some folder) investigationEntryName,
          resolve s.fs.workingDirectory f = loc) s.fs (s.fs.mkdir io.mkdirFails folder) :=
        later_mkdir fun loc hloc => ⟨folder, by simp [inserted], resolve_of_locate hloc⟩
      rw [writeValue_snd]
      refine hmkdir.trans (later_write fun loc hloc => ?_)
      have hat : ∃ f ∈ inserted (some folder) investigationEntryName,
          resolve s.fs.workingDirectory f = loc :=
        ⟨folder.child investigationEntryName, by simp [inserted],
          hmkdir.workingDirectory ▸ resolve_of_locate hloc⟩
      exact ⟨hat, hat⟩
  · exact hl.mono fun _ _ h => h.1

/-- No call creates a default case of another name. -/
theorem defaultCase_call {b : List String} (a : Call)
    (hlead : LeadsTo s.fs s.investigationCaseDB.baseDbPath b)
    (h : DefaultCase b s.fs) : DefaultCase b (s.call a).2.fs := by
  rcases call_wrote s a with ⟨investigationCase, io, rfl⟩ | hlater
  · exact h.createCase hlead
  · refine h.later hlater fun content entry hn hentry => ?_
    rw [hn.2 content rfl] at hentry
    cases hentry

theorem investigationCaseDB_call (s : RaqetControl) (a : Call) :
    (s.call a).2.investigationCaseDB = s.investigationCaseDB := by
  cases a with
  | register ipAddress target env =>
    rw [call, addClient]
    split
    · rfl
    · rfl
    · rw [addNewClient]
      split
      · rfl
      · rfl
      · dsimp only
        split <;> rfl
  | diskinfo ipAddress clientid hardwareid devices io =>
    rw [call, diskInformation]
    split
    · rfl
    · rfl
    · split <;> rfl
  | addDevice target env =>
    rw [call, addDirect]
    split <;> rfl
  | createInvestigationCase | createComputer => rfl

end Raqet
