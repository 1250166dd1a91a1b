import Raqet.Http.EvidenceNames

/-!
# Publishing the devices of a client

The loop that publishes the devices discovered at a client ends at the first one that it
cannot publish: one of a negative size, one that the client has no name for, or one for
which the entry of the computer cannot be written. The devices before it are the ones
published (`exported`), one publication for each (`exportDevices_client`).

The entry of a computer that was found or created for a client can always be written
unless the operation itself fails (`Writable`).

A device that is added directly is published unless its size is negative, which ends the
loop too. `call_published` says what each call publishes.
-/

namespace Raqet

open Java FileSystem InvestigationCaseDB RaqetControl

variable {fs fs' : Disk} {folder : File} {computer : ComputerDbEntry} {io : WriteIo}

/-! ## Writing an entry -/

/-- The folder is there, and nothing is in the way of writing an entry in it. -/
def Writable (fs : Disk) (folder : File) : Prop :=
  folder.names ≠ [] ∧ ∃ dir, fs.locate folder = some dir ∧ fs.isDirectoryAt dir = true ∧
    fs.isDirectoryAt (dir ++ [computerEntryName]) = false

theorem Stored.writable (h : Stored fs computer) : Writable fs computer.baseStorageFolder := by
  obtain ⟨dir, content, hloc, hdir, hnode, -⟩ := h.entry
  refine ⟨h.names, dir, hloc, hdir, ?_⟩
  rw [isDirectoryAt, hnode]

/-- Making no directories keeps a folder writable. -/
theorem Writable.later (h : Writable fs folder)
    (hl : Later (fun _ n => n ≠ .directory) fs fs') : Writable fs' folder := by
  obtain ⟨hnames, dir, hloc, hdir, hno⟩ := h
  refine ⟨hnames, dir, hl.locate hloc, hl.isDirectoryAt hdir, ?_⟩
  rw [Bool.eq_false_iff, Ne, isDirectoryAt_iff] at hno ⊢
  exact hl.node (R := fun n => n ≠ some .directory) hno fun n hn h => hn (Option.some.inj h)

/-- Writing a file makes no directory. -/
theorem later_write_file {f : File} {content : Content} :
    Later (fun _ n => n ≠ .directory) fs (fs.write io f content).2 :=
  later_write fun _ _ => ⟨nofun, nofun⟩

theorem Writable.update (h : Writable fs folder) (io : WriteIo) (computer : ComputerDbEntry) :
    Writable (update fs io computer).2 folder := by
  rw [InvestigationCaseDB.update, writeValue_snd]
  exact h.later later_write_file

/-- An entry is written unless the operation fails. -/
theorem Writable.update_cases (h : Writable fs computer.baseStorageFolder) (io : WriteIo) :
    (io = .ok ∧ (InvestigationCaseDB.update fs io computer).1 = .ok ()) ∨
    (io ≠ .ok ∧ (InvestigationCaseDB.update fs io computer).1 = .error .io) := by
  obtain ⟨hnames, dir, hloc, hdir, hno⟩ := h
  have hchild : fs.locate (computer.baseStorageFolder.child computerEntryName) =
      some (dir ++ [computerEntryName]) := by
    rw [locate_child hnames isName_computerEntryName, hloc, Option.bind_some, if_pos hdir]
  rw [InvestigationCaseDB.update, writeValue, FileSystem.write, hchild]
  simp only [hno, Bool.false_eq_true, if_false]
  cases io with
  | ok => exact .inl ⟨rfl, rfl⟩
  | fails => exact .inr ⟨by rintro ⟨⟩, rfl⟩
  | stops complete => exact .inr ⟨by rintro ⟨⟩, rfl⟩

/-! ## The devices that are published -/

/-- The device is published: its size is not negative, and the client has a name for it. -/
def Exportable (c : ClientInfo) (device : DiscoveredDevice) : Prop :=
  0 ≤ device.capacity.sizeInBytes ∧ (c.getDeviceMapping device.lun).isSome

instance (c : ClientInfo) (device : DiscoveredDevice) : Decidable (Exportable c device) :=
  inferInstanceAs (Decidable (_ ∧ _))

/-- The devices of a client that are published, of those that were discovered. -/
def exported (c : ClientInfo) (update : ℕ → WriteIo) : List DiscoveredDevice → List DiscoveredDevice
  | [] => []
  | device :: devices =>
    if Exportable c device ∧ update 0 = .ok then
      device :: exported c (fun n => update (n + 1)) devices
    else []

/-- There is a first device, which is published. -/
def ExportsFirst (c : ClientInfo) (update : ℕ → WriteIo) (devices : List DiscoveredDevice) : Prop :=
  ∃ device ∈ devices.head?, Exportable c device ∧ update 0 = .ok

/-- It is the same client, with the same names for its devices. -/
structure SameClient (c c' : ClientInfo) : Prop where
  clientId : c'.clientId = c.clientId
  hardwareId : c'.hardwareId = c.hardwareId
  ipAddress : c'.ipAddress = c.ipAddress
  devicemapping : c'.devicemapping = c.devicemapping

/-- The folder of a computer in the file server. -/
def smbFolder (computer : ComputerDbEntry) : String := "\\" ++ computer.caseAndComputer ++ "\\"

/-- The name that the client has for the device. -/
def nameOf (c : ClientInfo) (device : DiscoveredDevice) : String :=
  ((c.getDeviceMapping device.lun).map (·.device)).getD ""

/-- The publication of a device of a client that is bound to the computer. -/
structure PublishedFor (c : ClientInfo) (computer : ComputerDbEntry) (device : DiscoveredDevice)
    (p : Publication) : Prop where
  client : ∃ c', p.clientInfo = some c' ∧ SameClient c c'
  smbMountPath : p.smbMountPath = smbFolder computer
  device : p.device = ⟨device, computer.baseStorageFolder,
    clientEvidenceFilename device.lun (valueOf c.clientId) (nameOf c device)⟩

theorem SameClient.refl (c : ClientInfo) : SameClient c c := ⟨rfl, rfl, rfl, rfl⟩

theorem SameClient.trans {c c' c'' : ClientInfo} (h : SameClient c c') (h' : SameClient c' c'') :
    SameClient c c'' :=
  ⟨h'.1.trans h.1, h'.2.trans h.2, h'.3.trans h.3, h'.4.trans h.4⟩

variable {c c' : ClientInfo} {update : ℕ → WriteIo} {device : DiscoveredDevice}
  {devices : List DiscoveredDevice} {published : List Publication} {p : Publication}

theorem exportable_congr (h : SameClient c c') : Exportable c' device ↔ Exportable c device := by
  unfold Exportable ClientInfo.getDeviceMapping
  rw [h.devicemapping]

theorem exported_congr (h : SameClient c c') :
    exported c' update devices = exported c update devices := by
  induction devices generalizing update with
  | nil => rfl
  | cons device devices ih => simp only [exported, ih, exportable_congr h]

/-- What every publication has of its device. -/
theorem map_eq_of_published {γ : Type} {computer : ComputerDbEntry} {ps : List Publication}
    {f : Publication → γ} {g : DiscoveredDevice → γ}
    (h : List.Forall₂ (PublishedFor c computer) devices ps)
    (hfg : ∀ device p, PublishedFor c computer device p → f p = g device) :
    ps.map f = devices.map g := by
  rw [eq_comm, ← List.forall₂_eq_eq_eq, List.forall₂_map_left_iff, List.forall₂_map_right_iff]
  exact h.imp fun device p hp => (hfg device p hp).symm

theorem exported_eq_nil_iff : exported c update devices = [] ↔ ¬ExportsFirst c update devices := by
  cases devices with
  | nil => simp [exported, ExportsFirst]
  | cons device devices =>
    rw [exported, ExportsFirst]
    split_ifs with hok
    · simp [hok]
    · simpa using hok

theorem PublishedFor.congr {computer' : ComputerDbEntry} (h : SameClient c c')
    (hfolder : computer'.baseStorageFolder = computer.baseStorageFolder)
    (hcase : computer'.caseAndComputer = computer.caseAndComputer)
    (hp : PublishedFor c' computer' device p) : PublishedFor c computer device p := by
  obtain ⟨⟨c'', hc'', h'⟩, hpath, hdevice⟩ := hp
  have hname : nameOf c' device = nameOf c device := by
    rw [nameOf, nameOf, ClientInfo.getDeviceMapping, ClientInfo.getDeviceMapping, h.devicemapping]
  refine ⟨⟨c'', hc'', h.trans h'⟩, ?_, ?_⟩
  · rw [hpath, smbFolder, smbFolder, hcase]
  · rw [hdevice, hfolder, h.clientId, hname]

theorem addDisk_folder (computer : ComputerDbEntry) (name : String) :
    (computer.addDisk name).baseStorageFolder = computer.baseStorageFolder ∧
      (computer.addDisk name).caseAndComputer = computer.caseAndComputer := by
  rw [ComputerDbEntry.addDisk]
  split_ifs <;> exact ⟨rfl, rfl⟩

/-- A device of a client that cannot be published, or whose entry is not written, ends the
    loop. -/
theorem exportDevice_stops (published : List Publication) (hc : c.computerDbEntry = some computer)
    (hw : Writable fs computer.baseStorageFolder) (hno : ¬(Exportable c device ∧ io = .ok)) :
    (exportDevice io device ⟨fs, some c, published⟩).1 ≠ .next ∧
      ∃ fs' c' computer', (exportDevice io device ⟨fs, some c, published⟩).2 =
        ⟨fs', some c', published⟩ ∧ SameClient c c' ∧ c'.computerDbEntry = some computer' := by
  rw [exportDevice]
  by_cases hsize : device.capacity.sizeInBytes < 0
  · rw [argNotNegative, if_pos (show toLong _ < 0 from hsize)]
    exact ⟨by rintro ⟨⟩, _, _, _, rfl, .refl c, hc⟩
  rw [argNotNegative_ok (show 0 ≤ toLong _ from not_lt.1 hsize)]
  dsimp only
  rw [hc]
  cases hm : c.getDeviceMapping device.lun with
  | none => exact ⟨by rintro ⟨⟩, _, _, _, rfl, .refl c, hc⟩
  | some mapping =>
    dsimp only
    obtain ⟨hfolder, -⟩ := addDisk_folder computer mapping.device
    have hw' : Writable fs (computer.addDisk mapping.device).baseStorageFolder := hfolder ▸ hw
    -- the size and the name are fine, so it is the update that fails
    rcases hw'.update_cases io with ⟨rfl, -⟩ | ⟨-, hu⟩
    · exact absurd ⟨⟨not_lt.1 hsize, by rw [hm]; rfl⟩, rfl⟩ hno
    · obtain ⟨fs', hu'⟩ : ∃ fs', InvestigationCaseDB.update fs io
          (computer.addDisk mapping.device) =
        (.error .io, fs') := ⟨_, Prod.ext hu rfl⟩
      rw [hu']
      exact ⟨by rintro ⟨⟩, _, _, _, rfl, ⟨rfl, rfl, rfl, rfl⟩, rfl⟩

/-- A device of a client that can be published is. -/
theorem exportDevice_next (published : List Publication) (hc : c.computerDbEntry = some computer)
    (hw : Writable fs computer.baseStorageFolder) (he : Exportable c device) :
    ∃ fs' c' computer' p, exportDevice .ok device ⟨fs, some c, published⟩ =
        (.next, ⟨fs', some c', published ++ [p]⟩) ∧ SameClient c c' ∧
      c'.computerDbEntry = some computer' ∧
      computer'.baseStorageFolder = computer.baseStorageFolder ∧
      computer'.caseAndComputer = computer.caseAndComputer ∧
      Writable fs' computer'.baseStorageFolder ∧ PublishedFor c computer device p := by
  obtain ⟨hsize, hmap⟩ := he
  obtain ⟨mapping, hm⟩ := Option.isSome_iff_exists.1 hmap
  obtain ⟨hfolder, hcase⟩ := addDisk_folder computer mapping.device
  have hw' : Writable fs (computer.addDisk mapping.device).baseStorageFolder := hfolder ▸ hw
  rcases hw'.update_cases .ok with ⟨-, hu⟩ | ⟨hne, -⟩
  swap
  · exact absurd rfl hne
  have hw'' := hw'.update .ok (computer.addDisk mapping.device)
  obtain ⟨fs', hu'⟩ : ∃ fs', InvestigationCaseDB.update fs .ok (computer.addDisk mapping.device) =
    (.ok (), fs') := ⟨_, Prod.ext hu rfl⟩
  rw [hu'] at hw''
  rw [exportDevice, argNotNegative_ok (show 0 ≤ toLong _ from hsize)]
  dsimp only
  rw [hc, hm]
  dsimp only
  rw [hu']
  refine ⟨fs', _, _, _, rfl, ⟨rfl, rfl, rfl, rfl⟩, rfl, hfolder, hcase, hw'', ?_⟩
  have hname : nameOf c device = mapping.device := by rw [nameOf, hm]; rfl
  exact ⟨⟨_, rfl, ⟨rfl, rfl, rfl, rfl⟩⟩, rfl, by rw [hname, hfolder]⟩

/-- The loop publishes the devices before the first one that it cannot publish, and the
    client stays bound. -/
theorem exportDevices_client (update : ℕ → WriteIo) (devices : List DiscoveredDevice)
    (published : List Publication) (hc : c.computerDbEntry = some computer)
    (hw : Writable fs computer.baseStorageFolder) :
    ∃ fs' c' computer' ps, (exportDevices update devices ⟨fs, some c, published⟩).2 =
        ⟨fs', some c', published ++ ps⟩ ∧ SameClient c c' ∧ c'.computerDbEntry = some computer' ∧
      List.Forall₂ (PublishedFor c computer) (exported c update devices) ps := by
  induction devices generalizing update fs c computer published with
  | nil => exact ⟨fs, c, computer, [], by rw [List.append_nil]; rfl, .refl c, hc, .nil⟩
  | cons device devices ih =>
    by_cases hok : Exportable c device ∧ update 0 = .ok
    -- the rest is published for the client with the disk in its entry
    · obtain ⟨fs', c', computer', p, hnext, hsame, hc', hfolder, hcase, hw', hp⟩ :=
        exportDevice_next published hc hw hok.1
      obtain ⟨fs'', c'', computer'', ps, hrest, hsame', hc'', hps⟩ :=
        ih (fun n => update (n + 1)) (published ++ [p]) hc' hw'
      refine ⟨fs'', c'', computer'', p :: ps, ?_, hsame.trans hsame', hc'', ?_⟩
      · rw [exportDevices, hok.2, hnext]
        dsimp only
        rw [hrest, List.append_assoc, List.singleton_append]
      · rw [exported, if_pos hok, ← exported_congr hsame]
        exact .cons hp (hps.imp fun _ _ h => h.congr hsame hfolder hcase)
    -- the loop ends, and the rest is not looked at
    · obtain ⟨hexit, fs', c', computer', hx, hsame, hc'⟩ :=
        exportDevice_stops published hc hw hok
      refine ⟨fs', c', computer', [], ?_, hsame, hc', ?_⟩
      · rw [List.append_nil, ← hx, exportDevices]
        cases hexit' : exportDevice (update 0) device ⟨fs, some c, published⟩ with
        | mk exit x =>
          rw [hexit'] at hexit
          cases exit with
          | next => exact absurd rfl hexit
          | «return» => rfl
          | throws e => rfl
      · rw [exported, if_neg hok]
        exact .nil

/-! ## Registrations -/

variable {s : RaqetControl} {target : ClientInfo} {env : AddClientEnv}

/-- The entry of the computer that is found for a client can be written. -/
theorem lookupComputer_writable {db : InvestigationCaseDB}
    (h : lookupComputer db fs target env = (.found computer, fs')) :
    Writable fs' computer.baseStorageFolder := by
  cases looksUp h with
  | found hfind => exact (findClient_found hfind).stored.writable
  | @claims found _ _ hagain hupdate =>
    have hw := (findClient_found hagain).stored.writable.update env.update
      { found with hardwareId := readBack target.hardwareId }
    rwa [hupdate] at hw
  | creates _ _ hcreate =>
    have hcreated := (createComputer_later db env.create env.insert "defaultcase"
      (defaultComputer target) (show Tracks (fun _ => none) fs from fun _ _ h => by cases h)).2
    rw [hcreate] at hcreated
    exact (hcreated computer rfl).2.1.writable

/-- A registration gets as far as publishing these devices, for a client that is bound to
    this computer. -/
structure Reaches (s : RaqetControl) (target : ClientInfo) (env : AddClientEnv)
    (computer : ComputerDbEntry) (devices : List DiscoveredDevice) : Prop where
  found : (lookupComputer s.investigationCaseDB s.fs target env).1 = .found computer
  discovered : ∃ address, TargetAddress.ofString (target.ipAddress ++ ":3260") = .ok address ∧
    RemoteDeviceManager.listTargets address env.exporting.discovery = .ok devices

theorem Reaches.unique {computer' : ComputerDbEntry} {devices' : List DiscoveredDevice}
    (h : Reaches s target env computer devices) (h' : Reaches s target env computer' devices') :
    computer = computer' ∧ devices = devices' := by
  obtain ⟨hf, address, ha, hd⟩ := h
  obtain ⟨hf', address', ha', hd'⟩ := h'
  rw [hf, Lookup.found.injEq] at hf'
  rw [ha, Except.ok.injEq] at ha'
  subst ha'
  rw [hd, Except.ok.injEq] at hd'
  exact ⟨hf', hd'⟩

/-- A registration that does not get as far adds the client, and publishes nothing. -/
theorem addNewClient_unreached
    (h : ¬∃ computer devices, Reaches s target env computer devices) :
    ∃ c', SameClient target c' ∧ (s.addNewClient target env).2.clientList = s.clientList ++ [c'] ∧
      (s.addNewClient target env).2.published = s.published := by
  rw [addNewClient]
  split
  next e fs' hlookup => exact ⟨target, .refl _, rfl, rfl⟩
  next fs' hlookup => exact ⟨target, .refl _, rfl, rfl⟩
  next computer fs' hlookup =>
    have hsame : SameClient target { target with computerDbEntry := some computer } :=
      ⟨rfl, rfl, rfl, rfl⟩
    dsimp only
    split
    next e ha => exact ⟨_, hsame, rfl, rfl⟩
    next address ha =>
      rw [addRemoteDevice]
      split
      next e hd => exact ⟨_, hsame, rfl, rfl⟩
      next devices hd =>
        exact absurd ⟨computer, devices, congrArg Prod.fst hlookup, address, ha, hd⟩ h

/-- A registration that does publishes the devices before the first one that it cannot
    publish, and adds the client, bound to a computer. -/
theorem addNewClient_reaches {devices : List DiscoveredDevice}
    (h : Reaches s target env computer devices) :
    ∃ c' computer' ps, SameClient target c' ∧ c'.computerDbEntry = some computer' ∧
      (s.addNewClient target env).2.clientList = s.clientList ++ [c'] ∧
      (s.addNewClient target env).2.published = s.published ++ ps ∧
      List.Forall₂ (PublishedFor target computer)
        (exported target env.exporting.update devices) ps := by
  obtain ⟨hfound, address, ha, hd⟩ := h
  obtain ⟨fs', hlookup⟩ : ∃ fs', lookupComputer s.investigationCaseDB s.fs target env =
    (.found computer, fs') := ⟨_, Prod.ext hfound rfl⟩
  have hw := (lookupComputer_writable hlookup).later (show Later (fun _ n => n ≠ .directory) fs'
    (writeLogging fs' env.writeLogging computer) from later_write_file)
  obtain ⟨fs'', c', computer', ps, hx, hsame, hc', hps⟩ :=
    exportDevices_client (c := { target with computerDbEntry := some computer })
      env.exporting.update devices s.published rfl hw
  have hself : SameClient target { target with computerDbEntry := some computer } :=
    ⟨rfl, rfl, rfl, rfl⟩
  rw [exported_congr hself] at hps
  refine ⟨c', computer', ps, hself.trans hsame, hc', ?_, ?_,
    hps.imp fun _ _ hp => hp.congr hself rfl rfl⟩
  all_goals
    rw [addNewClient, hlookup]
    dsimp only
    rw [ha]
    dsimp only
    rw [addRemoteDevice, hd]
    dsimp only
    rw [hx]
  rfl

/-! ## Direct targets -/

/-- The devices of a direct target that are published, of those that were discovered. -/
def exportedDirectly (devices : List DiscoveredDevice) : List DiscoveredDevice :=
  devices.takeWhile fun device => 0 ≤ device.capacity.sizeInBytes

/-- The publication of a device of a direct target. -/
def publishedDirectly (device : DiscoveredDevice) : Publication :=
  ⟨none, "\\", ⟨device, tmp, generateEvidenceFilename device.targetName device.lun⟩⟩

/-- The loop publishes the devices of a direct target before the first one of a negative
    size. -/
theorem exportDevices_direct : (exportDevices update devices ⟨fs, none, published⟩).2 =
    ⟨fs, none, published ++ (exportedDirectly devices).map publishedDirectly⟩ := by
  induction devices generalizing update published with
  | nil => exact congrArg _ (List.append_nil _).symm
  | cons device devices ih =>
    rw [exportDevices, exportDevice]
    by_cases hsize : device.capacity.sizeInBytes < 0
    · rw [argNotNegative, if_pos (show toLong _ < 0 from hsize), exportedDirectly,
        List.takeWhile_cons_of_neg (by simpa using hsize), List.map_nil, List.append_nil]
    · have hsize' := not_lt.1 hsize
      rw [argNotNegative_ok (show 0 ≤ toLong _ from hsize'), exportedDirectly,
        List.takeWhile_cons_of_pos (by simpa using hsize'), List.map_cons]
      dsimp only
      rw [ih, List.append_assoc]
      rfl

/-! ## Calls -/

/-- What a call publishes. -/
inductive Publishes (s : RaqetControl) : Call → List Publication → Prop
  /-- A client registers that is not in the list. -/
  | client {ipAddress : String} {target : Register} {env : AddClientEnv}
      {computer : ComputerDbEntry} {devices : List DiscoveredDevice} {ps : List Publication}
      (hnew : s.isNew (.ofRegister ipAddress target) = true)
      (hreaches : Reaches s (.ofRegister ipAddress target) env computer devices)
      (hps : List.Forall₂ (PublishedFor (.ofRegister ipAddress target) computer)
        (exported (.ofRegister ipAddress target) env.exporting.update devices) ps) :
      Publishes s (.register ipAddress target env) ps
  | registered {ipAddress : String} {target : Register} {env : AddClientEnv}
      (h : s.isNew (.ofRegister ipAddress target) = false ∨
        ¬∃ computer devices, Reaches s (.ofRegister ipAddress target) env computer devices) :
      Publishes s (.register ipAddress target env) []
  | direct {target : String} {env : ExportEnv} {address : TargetAddress}
      {devices : List DiscoveredDevice} (haddress : TargetAddress.ofString target = .ok address)
      (hdevices : RemoteDeviceManager.listTargets address env.discovery = .ok devices) :
      Publishes s (.addDevice target env) ((exportedDirectly devices).map publishedDirectly)
  | nothing {target : String} {env : ExportEnv}
      (h : ∀ address devices, TargetAddress.ofString target = .ok address →
        RemoteDeviceManager.listTargets address env.discovery ≠ .ok devices) :
      Publishes s (.addDevice target env) []
  | diskinfo {ipAddress : String} {clientid hardwareid : Option String} {devices : List String}
      {io : ℕ → WriteIo} : Publishes s (.diskinfo ipAddress clientid hardwareid devices io) []
  | createInvestigationCase {investigationCase : InvestigationCase} {io : InsertIo} :
      Publishes s (.createInvestigationCase investigationCase io) []
  | createComputer {caseName : String} {computer : Computer} {env : ReadEnv} {io : InsertIo} :
      Publishes s (.createComputer caseName computer env io) []

theorem diskInformation_eq (clientInfo : ClientInfo) (devices : List String) (io : ℕ → WriteIo) :
    (s.diskInformation clientInfo devices io).2.published = s.published ∧
      (s.diskInformation clientInfo devices io).2.clientList = s.clientList := by
  rw [diskInformation]
  split
  · exact ⟨rfl, rfl⟩
  · exact ⟨rfl, rfl⟩
  · split <;> exact ⟨rfl, rfl⟩

/-- A call adds what it publishes to what was published. -/
theorem call_published (s : RaqetControl) (c : Call) :
    ∃ ps, (s.call c).2.published = s.published ++ ps ∧ Publishes s c ps := by
  cases c with
  | register ipAddress target env =>
    rw [call]
    cases hnew : s.isNew (.ofRegister ipAddress target) with
    | false =>
      rw [addClient_of_not_isNew env hnew]
      exact ⟨[], (List.append_nil _).symm, .registered (.inl hnew)⟩
    | true =>
      rw [addClient_of_isNew env hnew]
      by_cases hreach : ∃ computer devices, Reaches s (.ofRegister ipAddress target) env computer
          devices
      · obtain ⟨computer, devices, hreaches⟩ := hreach
        obtain ⟨-, -, ps, -, -, -, hpublished, hps⟩ := addNewClient_reaches hreaches
        exact ⟨ps, hpublished, .client hnew hreaches hps⟩
      · obtain ⟨-, -, -, hpublished⟩ := addNewClient_unreached hreach
        exact ⟨[], by rw [hpublished, List.append_nil], .registered (.inr hreach)⟩
  | addDevice target env =>
    rw [call, addDirect]
    cases ha : TargetAddress.ofString target with
    | error e =>
      refine ⟨[], (List.append_nil _).symm, .nothing fun address devices h => ?_⟩
      rw [ha] at h
      cases h
    | ok address =>
      dsimp only
      rw [addRemoteDevice]
      cases hd : RemoteDeviceManager.listTargets address env.discovery with
      | error e =>
        refine ⟨[], (List.append_nil _).symm, .nothing fun address' devices h => ?_⟩
        rw [ha, Except.ok.injEq] at h
        rw [← h, hd]
        rintro ⟨⟩
      | ok devices =>
        dsimp only
        rw [exportDevices_direct]
        exact ⟨_, rfl, .direct ha hd⟩
  | diskinfo ipAddress clientid hardwareid devices io =>
    refine ⟨[], ?_, .diskinfo⟩
    rw [List.append_nil]
    exact (diskInformation_eq _ devices io).1
  | createInvestigationCase investigationCase io =>
    exact ⟨[], (List.append_nil _).symm, .createInvestigationCase⟩
  | createComputer caseName computer env io =>
    exact ⟨[], (List.append_nil _).symm, .createComputer⟩

end Raqet
