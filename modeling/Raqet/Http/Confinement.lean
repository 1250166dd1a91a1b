import Raqet.Http.StorageFolders
import Raqet.Http.Writes

/-!
# Confinement

The names in the messages of clients become parts of paths as they are, unlike those of cases
and computers, which are escaped: the client and its hardware name the folder of a new
computer, and the client and its devices name files in the folder. All that is made or
written is below the evidence directory, and the folder is a directory in that of a case, as
long as the names that something is made or written for do not lead out of it (`Harmless`):
this is `confined_iff`. Names without slashes do not (`harmless_of_noSlashes`).
-/

namespace Raqet

open Java FileSystem InvestigationCaseDB RaqetControl

namespace RaqetControl

/-- The call handles a message of a client: a registration, or one about its disks. -/
def Call.isMessage : Call → Bool
  | .register _ _ _ | .diskinfo _ _ _ _ _ => true
  | _ => false

/-- The folders of computers that handling a message makes or writes to. -/
def folders (s : RaqetControl) : Call → List File
  | .register ipAddress target env =>
    let c := ClientInfo.ofRegister ipAddress target
    if s.isNew c then
      (s.making c env).toList ++
        ((s.claiming c env).toList ++ (s.binding c env).toList).map (·.baseStorageFolder)
    else []
  | .diskinfo ipAddress clientid hardwareid _ _ =>
    (s.sender (.new clientid hardwareid ipAddress)).toList.map (·.baseStorageFolder)
  | _ => []

/-- The evidence files that a call assigns to devices. -/
def evidenceFiles (s : RaqetControl) (a : Call) : List File :=
  ((s.call a).2.published.drop s.published.length).map fun p => File.ofPath p.device.evidencePath

end RaqetControl

/-- The folder is a directory in that of a case. -/
def InCase (fs : Disk) (b : List String) (folder : File) : Prop :=
  ∃ caseName computerName,
    resolve fs.workingDirectory folder = b ++ [caseName] ++ [computerName] ∧
      (fs.node (b ++ [caseName] ++ [investigationEntryName])).isSome

/-- Handling a message only concerns files below the evidence directory, and folders of
    computers in cases. -/
structure Confined (b : List String) (s : RaqetControl) (a : Call) : Prop where
  written : ∀ loc ∈ s.fs.writtenSince (s.call a).2.fs, Below b loc
  changed : ∀ loc, (s.call a).2.fs.node loc ≠ s.fs.node loc → Below b loc
  evidence : ∀ f ∈ s.evidenceFiles a, Below b (resolve s.fs.workingDirectory f)
  folders : ∀ folder ∈ s.folders a, InCase s.fs b folder

/-- The path from the default case is a name in it, or leads to a name in another case. -/
def StaysInCase (fs : Disk) (b : List String) (path : String) : Prop :=
  ((route (pathNames path)).1 = 0 ∧ ∃ computerName, (route (pathNames path)).2 = [computerName]) ∨
  (0 < (route (pathNames path)).1 ∧ ∃ caseName computerName, (route (pathNames path)).2 =
      b.drop (b.length - ((route (pathNames path)).1 - 1)) ++ ([caseName] ++ [computerName]) ∧
    (fs.node (b ++ [caseName] ++ [investigationEntryName])).isSome)

/-- The names in the message do not lead out: that of the computer if a folder is made for it,
    those of the devices that are published, and those of the devices that files are created
    for. -/
def Harmless (b : List String) (s : RaqetControl) : Call → Prop
  | .register ipAddress target env =>
    let c := ClientInfo.ofRegister ipAddress target
    s.isNew c = true →
      ((s.making c env).isSome →
        StaysInCase s.fs b (valueOf target.clientid ++ "_" ++ valueOf target.hardwareid)) ∧
      ∀ computer devices, Reaches s c env computer devices →
        ∀ device ∈ exported c env.exporting.update devices,
          StaysBelow b (clientEvidenceFilename device.lun (valueOf target.clientid)
            (nameOf c device))
  | .diskinfo ipAddress clientid hardwareid devices io =>
    ∀ computer ∈ s.sender (.new clientid hardwareid ipAddress), ∀ i device,
      devices[i]? = some device →
        createsFile s.fs (io i) (computer.baseStorageFolder.child (device ++ ".txt")) = true →
          StaysBelow b (device ++ ".txt")
  | _ => True

variable {s t : RaqetControl} {fs fs' : Disk} {b : List String} {f folder base : File}
  {db : InvestigationCaseDB} {env : ReadEnv} {fields : ComputerFields} {c : ClientInfo}
  {clientEnv : AddClientEnv} {computer : ComputerDbEntry} {name path : String} {a : Call}

/-! ## Folders -/

/-- A path in a folder in a case. -/
theorem InCase.below_child_iff (h : InCase fs b folder) (hnames : folder.names ≠ []) :
    Below b (resolve fs.workingDirectory (folder.child path)) ↔ StaysBelow b path := by
  obtain ⟨caseName, computerName, hfolder, -⟩ := h
  rw [resolve_child (.inl hnames), hfolder]
  exact below_follow_iff

theorem InCase.below (h : InCase fs b folder) : Below b (resolve fs.workingDirectory folder) := by
  obtain ⟨caseName, computerName, hfolder, -⟩ := h
  rw [hfolder, List.append_assoc]
  exact below_append (List.cons_ne_nil _ _)

theorem staysInCase_of_isName (hname : File.IsName name) : StaysInCase fs b name :=
  .inl (by rw [route_of_isName hname]; exact ⟨rfl, name, rfl⟩)

theorem InCase.below_child (h : InCase fs b folder) (hnames : folder.names ≠ [])
    (hname : File.IsName name) : Below b (resolve fs.workingDirectory (folder.child name)) :=
  (h.below_child_iff hnames).2 (staysBelow_of_isName hname)

/-- A folder stays in its case. -/
theorem InCase.later {P : List String → Node Content → Prop} (h : InCase fs b folder)
    (hl : Later P fs fs') : InCase fs' b folder := by
  obtain ⟨caseName, computerName, hfolder, hentry⟩ := h
  refine ⟨caseName, computerName, ?_, hl.node (R := fun n => n.isSome) hentry fun _ _ => rfl⟩
  rw [hl.workingDirectory, hfolder]

/-- A computer that is found has its folder in a case. -/
theorem findClient_inCase {clientid hardwareId : Option String} (h : LeadsTo fs db.baseDbPath b)
    (hfind : db.findClient fs env clientid hardwareId = .ok (some computer)) :
    computer.baseStorageFolder.names ≠ [] ∧ InCase fs b computer.baseStorageFolder := by
  obtain ⟨caseName, computerName, hlisted, hfolder⟩ := findClient_listed h hfind
  rw [hfolder]
  have hlead := h.computerFolder hlisted
  exact ⟨File.names_child_ne_nil hlisted.isName_computer.1, caseName, computerName,
    resolve_of_locate hlead.locate, hlisted.caseEntry⟩

/-- The folder of a computer that is created in the default case is in a case if and only if
    its name stays there. -/
theorem newFolder_inCase_iff (fields : ComputerFields) (h : LeadsTo fs db.baseDbPath b)
    (hdefault : DefaultCase b fs)
    (hnew : db.newFolder fs env "defaultcase" fields = some folder) :
    folder.names ≠ [] ∧ (InCase fs b folder ↔ StaysInCase fs b fields.urlcomputerName) := by
  obtain ⟨entry, hget, rfl, -⟩ := newFolder_eq_some hnew
  obtain ⟨hname, -, hentry⟩ := getCase_default h hdefault hget
  rw [hname]
  have hcase : (db.baseDbPath.child "defaultcase").names ≠ [] :=
    File.names_child_ne_nil isName_defaultcase.1
  refine ⟨List.append_ne_nil_of_left_ne_nil hcase _, ?_⟩
  rw [InCase, resolve_child (.inl hcase), resolve_of_locate (h.locate_child isName_defaultcase)]
  simp only [follow_eq_iff, StaysInCase]
  constructor
  · rintro ⟨caseName, computerName, ⟨hups, hdowns, -⟩ | ⟨hups, hdowns⟩, hcaseEntry⟩
    · exact .inl ⟨hups, computerName, hdowns⟩
    · exact .inr ⟨hups, caseName, computerName, hdowns, hcaseEntry⟩
  · rintro (⟨hups, computerName, hdowns⟩ | ⟨hups, caseName, computerName, hdowns, hcaseEntry⟩)
    · exact ⟨"defaultcase", computerName, .inl ⟨hups, hdowns, rfl⟩, hentry⟩
    · exact ⟨caseName, computerName, .inr ⟨hups, hdowns⟩, hcaseEntry⟩

/-- The folder of a computer that is created is the one that is made. -/
theorem createComputer_newFolder {io : InsertIo} {urlcaseName : String}
    (h : db.createComputer fs env io urlcaseName fields = (.ok computer, fs')) :
    (db.newFolder fs env urlcaseName fields).filter (makesFolder fs io) =
      some computer.baseStorageFolder := by
  cases hnew : db.newFolder fs env urlcaseName fields with
  | none =>
    obtain ⟨e, he⟩ := createComputer_of_none io hnew
    rw [he] at h
    cases h
  | some folder =>
    cases hmade : makesFolder fs io folder with
    | false =>
      rw [createComputer_of_not_made hnew hmade] at h
      cases h
    | true =>
      rw [createComputer_of_some io hnew] at h
      obtain ⟨u, -, rfl⟩ := map_eq_ok.1 (congrArg Prod.fst h)
      rw [Option.filter_some, if_pos hmade]

/-- A client gets bound to a computer that is found for its ids, or that it claims, or that is
    created. -/
theorem folder_of_binding (h : computer ∈ s.binding c clientEnv) :
    (∃ env hardwareId found, s.investigationCaseDB.findClient s.fs env c.clientId hardwareId =
        .ok (some found) ∧ computer.baseStorageFolder = found.baseStorageFolder) ∨
      s.making c clientEnv = some computer.baseStorageFolder := by
  rw [binding] at h
  rw [making, creating]
  cases hlookup : lookupComputer s.investigationCaseDB s.fs c clientEnv with
  | mk result fs' =>
    rw [hlookup] at h
    cases looksUp hlookup with
    | throws | throwsAgain | claimFails | createFails => cases h
    | found hfind =>
      cases h
      exact .inl ⟨_, _, computer, hfind, rfl⟩
    | claims _ hagain =>
      cases h
      exact .inl ⟨_, _, _, hagain, rfl⟩
    | creates hfind hagain hcreate =>
      cases h
      rw [hfind, hagain]
      exact .inr (createComputer_newFolder hcreate)

theorem found_of_claiming (h : computer ∈ s.claiming c clientEnv) :
    s.investigationCaseDB.findClient s.fs clientEnv.findAgain c.clientId "" =
      .ok (some computer) := by
  rw [claiming] at h
  cases hfind : s.investigationCaseDB.findClient s.fs clientEnv.find c.clientId c.hardwareId with
  | error e =>
    rw [hfind] at h
    cases h
  | ok found =>
    rw [hfind] at h
    cases found with
    | some found => cases h
    | none =>
      dsimp only at h
      cases hagain : s.investigationCaseDB.findClient s.fs clientEnv.findAgain c.clientId "" with
      | error e =>
        rw [hagain] at h
        cases h
      | ok found =>
        rw [hagain] at h
        cases h
        rfl

/-! ## The invariant -/

/-- The evidence directory is there, and the clients in the list are bound to computers with
    folders in cases. -/
structure Housed (b : List String) (s : RaqetControl) : Prop where
  leadsTo : LeadsTo s.fs s.investigationCaseDB.baseDbPath b
  defaultCase : DefaultCase b s.fs
  bound : ∀ c ∈ s.clientList, ∀ computer ∈ c.computerDbEntry,
    computer.baseStorageFolder.names ≠ [] ∧ InCase s.fs b computer.baseStorageFolder

/-- The folder that is made for a client. -/
theorem Housed.making_iff (h : Housed b s) (hmade : s.making c clientEnv = some folder) :
    folder.names ≠ [] ∧ (InCase s.fs b folder ↔
      StaysInCase s.fs b (valueOf c.clientId ++ "_" ++ valueOf c.hardwareId)) := by
  have hnew := (Option.filter_eq_some_iff.1 hmade).1
  rw [creating] at hnew
  split at hnew
  · split at hnew
    · exact newFolder_inCase_iff (defaultComputer c) h.leadsTo h.defaultCase hnew
    · cases hnew
  · cases hnew

theorem Housed.names_of_binding (h : Housed b s) (hc : computer ∈ s.binding c clientEnv) :
    computer.baseStorageFolder.names ≠ [] := by
  rcases folder_of_binding hc with ⟨env, hardwareId, found, hfind, hfolder⟩ | hnew
  · rw [hfolder]
    exact (findClient_inCase h.leadsTo hfind).1
  · exact (h.making_iff hnew).1

/-- If the name of a computer that is created stays in a case, the folder that a client gets
    bound to is in a case. -/
theorem Housed.binding (h : Housed b s)
    (hstays : (s.making c clientEnv).isSome →
      StaysInCase s.fs b (valueOf c.clientId ++ "_" ++ valueOf c.hardwareId))
    (hc : computer ∈ s.binding c clientEnv) : InCase s.fs b computer.baseStorageFolder := by
  rcases folder_of_binding hc with ⟨env, hardwareId, found, hfind, hfolder⟩ | hnew
  · rw [hfolder]
    exact (findClient_inCase h.leadsTo hfind).2
  · exact (h.making_iff hnew).2.2 (hstays (by rw [hnew]; rfl))

/-- What a registration of a client that is not in the list writes is in folders in cases, if
    the name of a computer that is created stays in a case. -/
theorem Housed.register (h : Housed b s)
    {ipAddress : String} {target : Register}
    (hisNew : s.isNew (.ofRegister ipAddress target) = true)
    (hstays : (s.making (.ofRegister ipAddress target) clientEnv).isSome →
      StaysInCase s.fs b (valueOf target.clientid ++ "_" ++ valueOf target.hardwareid)) :
    (∀ f ∈ s.writes (.register ipAddress target clientEnv),
      Below b (resolve s.fs.workingDirectory f)) ∧
    ∀ folder ∈ s.folders (.register ipAddress target clientEnv), InCase s.fs b folder := by
  have hentry : File.IsName computerEntryName := isName_computerEntryName
  have hlog : File.IsName "clientlogfile.txt" := by decide +kernel
  -- the folder that is made, and those of the entries that are found, are in cases
  have hmaking : ∀ folder, s.making (.ofRegister ipAddress target) clientEnv = some folder →
      folder.names ≠ [] ∧ InCase s.fs b folder := fun folder hnew =>
    have ⟨hnames, hiff⟩ := h.making_iff hnew
    ⟨hnames, hiff.2 (hstays (by rw [hnew]; rfl))⟩
  have hclaiming : ∀ computer, s.claiming (.ofRegister ipAddress target) clientEnv =
      some computer → computer.baseStorageFolder.names ≠ [] ∧
        InCase s.fs b computer.baseStorageFolder := fun computer hc =>
    findClient_inCase h.leadsTo (found_of_claiming hc)
  have hbinding : ∀ computer, s.binding (.ofRegister ipAddress target) clientEnv =
      some computer → computer.baseStorageFolder.names ≠ [] ∧
        InCase s.fs b computer.baseStorageFolder := fun computer hc =>
    ⟨h.names_of_binding hc, h.binding hstays hc⟩
  rw [folders, writes, if_pos hisNew, if_pos hisNew]
  simp only [List.forall_mem_append, List.map_append, List.forall_mem_map, Option.mem_toList,
    inserted, List.forall_mem_flatMap, List.forall_mem_cons]
  refine ⟨⟨⟨fun folder hnew => ?_, fun computer hc => ?_⟩, fun computer hc => ?_⟩,
    fun folder hnew => (hmaking folder hnew).2, fun computer hc => (hclaiming computer hc).2,
    fun computer hc => (hbinding computer hc).2⟩
  · obtain ⟨hnames, hin⟩ := hmaking folder hnew
    exact ⟨hin.below, hin.below_child hnames hentry, List.forall_mem_nil _⟩
  · obtain ⟨hnames, hin⟩ := hclaiming computer hc
    exact hin.below_child hnames hentry
  · obtain ⟨hnames, hin⟩ := hbinding computer hc
    exact ⟨hin.below_child hnames hentry, hin.below_child hnames hlog, List.forall_mem_nil _⟩

/-- Handling a message keeps the clients in the list in folders in cases. -/
theorem Housed.call (h : Housed b s) (ha : Harmless b s a) : Housed b (s.call a).2 := by
  have hlater := call_later s a
  have hdb := investigationCaseDB_call s a
  refine ⟨?_, defaultCase_call a h.leadsTo h.defaultCase, ?_⟩
  · rw [hdb]
    exact h.leadsTo.later hlater
  have hold : ∀ c ∈ s.clientList, ∀ computer ∈ c.computerDbEntry,
      computer.baseStorageFolder.names ≠ [] ∧
        InCase (s.call a).2.fs b computer.baseStorageFolder := fun c hc computer hcomputer =>
    have ⟨hnames, hin⟩ := h.bound c hc computer hcomputer
    ⟨hnames, hin.later hlater⟩
  cases a with
  | register ipAddress target env =>
    by_cases hisNew : s.isNew (.ofRegister ipAddress target) = true
    swap
    · rw [RaqetControl.call, addClient_of_not_isNew env (Bool.eq_false_iff.2 hisNew)] at hold ⊢
      exact hold
    -- the client that is added is bound to a folder in a case
    have hstays := (ha hisNew).1
    obtain ⟨-, c', hlist, -, hfound⟩ := wrote_addNewClient (s := s)
      (ClientInfo.ofRegister ipAddress target) env
      (List.subset_append_left _ (((s.binding (.ofRegister ipAddress target) env).toList.flatMap
        fun computer => [computer.baseStorageFolder.child computerEntryName,
          computer.baseStorageFolder.child "clientlogfile.txt"])))
      fun computer hc => by
        rw [Option.mem_def] at hc
        simp [hc]
    have hcall : s.call (.register ipAddress target env) =
        s.addNewClient (.ofRegister ipAddress target) env := addClient_of_isNew env hisNew
    rw [hcall] at hold hlater ⊢
    rw [hlist, List.forall_mem_append, List.forall_mem_singleton]
    refine ⟨hold, fun computer hcomputer => ?_⟩
    obtain ⟨found, hbinding, hfolder⟩ := hfound rfl computer hcomputer
    rw [hfolder]
    exact ⟨h.names_of_binding hbinding, (h.binding hstays hbinding).later hlater⟩
  | diskinfo ipAddress clientid hardwareid devices io =>
    rw [RaqetControl.call] at hold ⊢
    rw [(diskInformation_eq _ devices io).2]
    exact hold
  | addDevice target env =>
    have hlist : (s.call (.addDevice target env)).2.clientList = s.clientList := by
      rw [RaqetControl.call, addDirect]
      split <;> rfl
    rw [hlist]
    exact hold
  | createInvestigationCase | createComputer => exact hold

/-! ## Messages -/

/-- The evidence file of a device of a client. -/
theorem PublishedFor.evidenceFile {device : DiscoveredDevice} {p : Publication}
    (h : PublishedFor c computer device p) :
    File.ofPath p.device.evidencePath = computer.baseStorageFolder.child
      (clientEvidenceFilename device.lun (valueOf c.clientId) (nameOf c device)) := by
  rw [RemoteDeviceInfo.evidencePath, File.ofPath_getPath, h.device]

/-- The evidence files of the devices of a client are below the evidence directory if and only
    if their names stay there. -/
theorem Housed.evidence_iff (h : Housed b s) {ipAddress : String} {target : Register}
    (hisNew : s.isNew (.ofRegister ipAddress target) = true)
    (hbinding : ∀ computer ∈ s.binding (.ofRegister ipAddress target) clientEnv,
      InCase s.fs b computer.baseStorageFolder) :
    (∀ f ∈ s.evidenceFiles (.register ipAddress target clientEnv),
        Below b (resolve s.fs.workingDirectory f)) ↔
      ∀ computer devices, Reaches s (.ofRegister ipAddress target) clientEnv computer devices →
        ∀ device ∈ exported (.ofRegister ipAddress target) clientEnv.exporting.update devices,
          StaysBelow b (clientEvidenceFilename device.lun (valueOf target.clientid)
            (nameOf (.ofRegister ipAddress target) device)) := by
  obtain ⟨ps, hpublished, hpublishes⟩ := call_published s (.register ipAddress target clientEnv)
  rw [evidenceFiles, hpublished, List.drop_left]
  cases hpublishes with
  | @client _ _ _ computer devices _ hnew hreaches hps =>
    -- one file for each device, in the folder that the client was bound to
    have hfiles : ps.map (fun p => File.ofPath p.device.evidencePath) =
        (exported (.ofRegister ipAddress target) clientEnv.exporting.update devices).map
          fun device => computer.baseStorageFolder.child (clientEvidenceFilename device.lun
            (valueOf target.clientid) (nameOf (.ofRegister ipAddress target) device)) :=
      map_eq_of_published hps fun _ _ hp => hp.evidenceFile
    have hbound : computer ∈ s.binding (.ofRegister ipAddress target) clientEnv := by
      rw [RaqetControl.binding, hreaches.found]
      rfl
    have hnames := h.names_of_binding hbound
    rw [hfiles, List.forall_mem_map]
    simp only [(hbinding computer hbound).below_child_iff hnames]
    constructor
    · intro hstays computer' devices' hreaches'
      obtain ⟨-, rfl⟩ := hreaches.unique hreaches'
      exact hstays
    · exact fun hstays => hstays computer devices hreaches
  | registered hno =>
    refine iff_of_true (List.forall_mem_nil _) fun computer devices hreaches => ?_
    rcases hno with hno | hno
    · rw [hisNew] at hno
      cases hno
    · exact absurd ⟨computer, devices, hreaches⟩ hno

/-- What is written below the evidence directory is all that is written, and that changes. -/
theorem below_of_writes (h : ∀ f ∈ s.writes a, Below b (resolve s.fs.workingDirectory f)) :
    (∀ loc ∈ s.fs.writtenSince (s.call a).2.fs, Below b loc) ∧
      ∀ loc, (s.call a).2.fs.node loc ≠ s.fs.node loc → Below b loc := by
  have hwritten : ∀ loc ∈ s.fs.writtenSince (s.call a).2.fs, Below b loc := by
    intro loc hloc
    obtain ⟨-, f, hf, rfl⟩ := (call_later_writes s a).mem_writtenSince hloc
    exact h f hf
  exact ⟨hwritten, fun loc hne => hwritten loc ((call_later s a).mem_writtenSince_of_ne hne)⟩

theorem Housed.confined_register_iff (h : Housed b s) {ipAddress : String} {target : Register} :
    Confined b s (.register ipAddress target clientEnv) ↔
      Harmless b s (.register ipAddress target clientEnv) := by
  by_cases hisNew : s.isNew (.ofRegister ipAddress target) = true
  swap
  -- a client that is in the list: nothing happens
  · have hno := Bool.eq_false_iff.2 hisNew
    have hcall : (s.call (.register ipAddress target clientEnv)).2 = s :=
      addClient_of_not_isNew clientEnv hno
    have hwrites : s.writes (.register ipAddress target clientEnv) = [] := if_neg hisNew
    obtain ⟨hwritten, hchanged⟩ := below_of_writes (b := b) (s := s)
      (a := .register ipAddress target clientEnv) (by rw [hwrites]; exact List.forall_mem_nil _)
    refine iff_of_true ⟨hwritten, hchanged, ?_, ?_⟩ fun hnew => absurd hnew hisNew
    · rw [evidenceFiles, hcall, List.drop_length]
      exact List.forall_mem_nil _
    · rw [RaqetControl.folders, if_neg hisNew]
      exact List.forall_mem_nil _
  constructor
  · rintro ⟨-, -, hevidence, hfolders⟩ -
    rw [RaqetControl.folders, if_pos hisNew, List.forall_mem_append, List.map_append,
      List.forall_mem_append, List.forall_mem_map, List.forall_mem_map] at hfolders
    obtain ⟨hmaking, -, hbinding⟩ := hfolders
    refine ⟨fun hsome => ?_,
      (h.evidence_iff hisNew fun computer hc => hbinding computer ?_).1 hevidence⟩
    · obtain ⟨folder, hfolder⟩ := Option.isSome_iff_exists.1 hsome
      exact (h.making_iff hfolder).2.1 (hmaking folder (Option.mem_toList.2 hfolder))
    · exact Option.mem_toList.2 hc
  · intro hharmless
    obtain ⟨hstays, hdevices⟩ := hharmless hisNew
    obtain ⟨hwrites, hfolders⟩ := h.register hisNew hstays
    obtain ⟨hwritten, hchanged⟩ := below_of_writes hwrites
    exact ⟨hwritten, hchanged, (h.evidence_iff hisNew fun _ hc => h.binding hstays hc).2 hdevices,
      hfolders⟩

/-- A file with information about a disk that can be created changes. -/
theorem changed_diskInformation {ipAddress device : String} {clientid hardwareid : Option String}
    {devices : List String} {io : ℕ → WriteIo} {i : ℕ}
    (hsender : s.sender (.new clientid hardwareid ipAddress) = some computer)
    (hdevice : devices[i]? = some device)
    (hcreates : createsFile s.fs (io i) (computer.baseStorageFolder.child (device ++ ".txt")) =
      true) :
    (s.call (.diskinfo ipAddress clientid hardwareid devices io)).2.fs.node
        (resolve s.fs.workingDirectory (computer.baseStorageFolder.child (device ++ ".txt"))) ≠
      s.fs.node
        (resolve s.fs.workingDirectory (computer.baseStorageFolder.child (device ++ ".txt"))) := by
  have hlater := call_later s (.diskinfo ipAddress clientid hardwareid devices io)
  have hexists : (writeDiskInformation computer.baseStorageFolder devices io s.fs).exists
      (computer.baseStorageFolder.child (device ++ ".txt")) = true :=
    exists_writeDiskInformation .refl hdevice hcreates
  rw [createsFile, Bool.and_eq_true] at hcreates
  obtain ⟨loc, hloc, hnone⟩ := vacant_iff.1 hcreates.1
  rw [RaqetControl.call, diskInformation_of_sender devices io hsender] at hlater ⊢
  rw [FileSystem.exists, FileSystem.read, hlater.locate hloc, Option.bind_some] at hexists
  rw [resolve_of_locate hloc, hnone]
  exact Option.isSome_iff_ne_none.1 hexists

theorem Housed.confined_diskinfo_iff (h : Housed b s) {ipAddress : String}
    {clientid hardwareid : Option String} {devices : List String} {io : ℕ → WriteIo} :
    Confined b s (.diskinfo ipAddress clientid hardwareid devices io) ↔
      Harmless b s (.diskinfo ipAddress clientid hardwareid devices io) := by
  have hbound : ∀ computer, s.sender (.new clientid hardwareid ipAddress) = some computer →
      computer.baseStorageFolder.names ≠ [] ∧ InCase s.fs b computer.baseStorageFolder := by
    intro computer hsender
    obtain ⟨c, hc, hcomputer⟩ := exists_of_sender hsender
    exact h.bound c hc computer hcomputer
  constructor
  -- a file that is created is a change, so its location is confined
  · intro hconfined computer hsender i device hdevice hcreates
    obtain ⟨hnames, hin⟩ := hbound computer hsender
    exact (hin.below_child_iff hnames).1
      (hconfined.changed _ (changed_diskInformation hsender hdevice hcreates))
  · intro hharmless
    have hwrites : ∀ f ∈ s.writes (.diskinfo ipAddress clientid hardwareid devices io),
        Below b (resolve s.fs.workingDirectory f) := by
      rw [writes]
      cases hsender : s.sender (.new clientid hardwareid ipAddress) with
      | none => exact List.forall_mem_nil _
      | some computer =>
        obtain ⟨hnames, hin⟩ := hbound computer hsender
        refine List.forall_mem_map.2 fun d hd => (hin.below_child_iff hnames).2 ?_
        obtain ⟨hmem, hcreates⟩ := List.mem_filter.1 hd
        exact hharmless computer hsender d.2 d.1 (List.mem_zipIdx_iff_getElem?.1 hmem) hcreates
    obtain ⟨hwritten, hchanged⟩ := below_of_writes hwrites
    refine ⟨hwritten, hchanged, ?_, ?_⟩
    · rw [evidenceFiles, RaqetControl.call, (diskInformation_eq _ devices io).1, List.drop_length]
      exact List.forall_mem_nil _
    · rw [RaqetControl.folders, List.forall_mem_map]
      exact fun computer hc => (hbound computer (Option.mem_toList.1 hc)).2

/-! ## Names without slashes -/

/-- The names in the message have no slashes. -/
def NoSlashes : Call → Prop
  | .register _ target _ =>
    '/' ∉ (valueOf target.clientid).toList ∧ '/' ∉ (valueOf target.hardwareid).toList ∧
      ∀ mapping ∈ target.devicemapping, '/' ∉ mapping.device.toList
  | .diskinfo _ _ _ devices _ => ∀ device ∈ devices, '/' ∉ device.toList
  | _ => True

theorem isName_clientEvidenceFilename {lun : ℕ} {clientid deviceName : String}
    (hid : '/' ∉ clientid.toList) (hdevice : '/' ∉ deviceName.toList) :
    File.IsName (clientEvidenceFilename lun clientid deviceName) := by
  have hlun : '/' ∉ (format04d lun).toList :=
    fun h => absurd (isDigit_of_mem_format04d h) (by decide)
  refine File.isName_of_mem (c := '-') ?_ ?_ (by decide)
  · simp [clientEvidenceFilename, hlun, hid, hdevice]
  · simp [clientEvidenceFilename]

/-- The names of the devices of a client are those in its registration. -/
theorem mem_of_getDeviceMapping {ipAddress : String} {target : Register} {lun : ℤ}
    {mapping : Devicemapping}
    (h : (ClientInfo.ofRegister ipAddress target).getDeviceMapping lun = some mapping) :
    mapping ∈ target.devicemapping := by
  suffices ∀ (devices : List Devicemapping) (m : AList fun _ : ℤ => Devicemapping),
      (devices.foldl (fun m dev => m.insert dev.lun dev) m).lookup lun = some mapping →
        mapping ∈ devices ∨ m.lookup lun = some mapping by
    refine (this _ _ h).resolve_right fun hempty => ?_
    rw [ClientInfo.new, AList.lookup_empty] at hempty
    cases hempty
  intro devices
  induction devices with
  | nil => exact fun m h => .inr h
  | cons dev devices ih =>
    intro m h
    rcases ih _ h with hmem | hlookup
    · exact .inl (List.mem_cons_of_mem _ hmem)
    · by_cases hlun : lun = dev.lun
      · rw [hlun, AList.lookup_insert, Option.some.injEq] at hlookup
        exact .inl (hlookup ▸ List.mem_cons_self)
      · rw [AList.lookup_insert_ne hlun] at hlookup
        exact .inr hlookup

theorem harmless_of_noSlashes (h : NoSlashes a) : Harmless b s a := by
  cases a with
  | register ipAddress target env =>
    obtain ⟨hid, hhardware, hdevices⟩ := h
    refine fun _ => ⟨fun _ => ?_, fun computer devices _ device hdevice => ?_⟩
    · exact staysInCase_of_isName (isName_defaultComputer (.ofRegister ipAddress target)
        hid hhardware)
    · refine staysBelow_of_isName (isName_clientEvidenceFilename hid ?_)
      rw [nameOf]
      cases hm : (ClientInfo.ofRegister ipAddress target).getDeviceMapping device.lun with
      | none => exact List.not_mem_nil
      | some mapping => exact hdevices mapping (mem_of_getDeviceMapping hm)
  | diskinfo ipAddress clientid hardwareid devices io =>
    intro computer _ i device hdevice _
    refine staysBelow_of_isName (File.isName_of_mem (c := 't') ?_ ?_ (by decide))
    · simp [h device (List.mem_of_getElem? hdevice)]
    · simp
  | addDevice | createInvestigationCase | createComputer => trivial

/-! ## Runs -/

/-- In every run, on an evidence directory that is there: handling messages only concerns
    files below the evidence directory, and folders in cases, if and only if no message has
    names that lead out. -/
theorem confined_iff {io : InsertIo} {l : List Call} (hlead : LeadsTo fs base b)
    (hdefault : DefaultCase b fs) :
    Transition.AllSteps step (fun s a => a.isMessage → Confined b s a) (.new base fs io) l ↔
      Transition.AllSteps step (Harmless b) (.new base fs io) l := by
  refine Transition.allSteps_iff (I := Housed b) ?_ ?_ ?_
  · rintro s a t hs hstep ha
    cases hstep
    exact hs.call ha
  · intro s a hs
    cases a with
    | register ipAddress target env =>
      exact (forall_prop_of_true rfl).trans hs.confined_register_iff
    | diskinfo ipAddress clientid hardwareid devices io =>
      exact (forall_prop_of_true rfl).trans hs.confined_diskinfo_iff
    | addDevice | createInvestigationCase | createComputer => exact iff_of_true nofun trivial
  · have hfirst : Housed b ⟨⟨base⟩, fs, [], []⟩ := ⟨hlead, hdefault, List.forall_mem_nil _⟩
    exact hfirst.call (a := .createInvestigationCase (.new "defaultcase" "defaultcase") io) trivial

theorem defaultCase_emptyEvidence : DefaultCase ["var", "raqet"] emptyEvidence :=
  (uniqueIds_of_empty default fun _ => node_emptyEvidence).2

/-- A client registers, and sends information about its disks. -/
theorem confined_client :
    Transition.AllSteps step (fun s a => a.isMessage → Confined ["var", "raqet"] s a)
      (.new (File.ofPath "/var/raqet") emptyEvidence ⟨false, .ok⟩)
      [registers ["iqn.a"], .diskinfo "10.0.0.2" "client" "hardware" ["sda", "sdb"] fun _ => .ok] :=
  (confined_iff leadsTo_emptyEvidence defaultCase_emptyEvidence).2 <| .of_forall fun _ a ha => by
    refine harmless_of_noSlashes ?_
    rcases List.mem_cons.1 ha with rfl | ha
    · simp [registers, NoSlashes, valueOf]
    · rw [List.mem_singleton.1 ha]
      simp [NoSlashes]

/-- The folder of a client whose name leads up is made outside of the evidence directory. -/
theorem not_confined_register :
    ¬∀ (base : File) (b : List String) (fs : Disk) (io : InsertIo) (l : List Call),
      LeadsTo fs base b → DefaultCase b fs →
        Transition.AllSteps step (fun s a => a.isMessage → Confined b s a) (.new base fs io) l := by
  intro h
  have hconfined := (h (File.ofPath "/var/raqet") ["var", "raqet"] emptyEvidence ⟨false, .ok⟩
    [.register "10.0.0.2" ⟨"../../client", "hardware", []⟩ ⟨readable, readable, .ok, readable,
      ⟨false, .ok⟩, .ok, discovers 0 []⟩] leadsTo_emptyEvidence defaultCase_emptyEvidence).1 rfl
  obtain ⟨rest, -, hout⟩ := hconfined.changed ["var", "client_hardware"] fun hsame => by
    have hdir := congrArg (fun n : Option (Node Content) => n.isSome) hsame
    revert hdir
    decide +kernel
  simp at hout

end Raqet
