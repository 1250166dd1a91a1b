import Raqet.Database.Ownership
import Raqet.Http.RaqetControl
import Raqet.Transition

/-!
# The names of evidence files

A device that is published gets an evidence directory and an evidence base file name: from
the name of its target if the target was added directly, and from the folder of the
computer, the client and the name of the device there if a client registered. Both also
have the logical unit. The path of the evidence file, by which evidence stores are shared,
is that of the base file name in the directory.

Two devices get the same path if and only if they are `Alike`: direct targets whose names are
escaped to the same text, or devices of one name in the folder of one computer, up to
slashes, or devices of which one has a name that leads into the folder of the other
(`evidencePath_eq_iff`). This rests on the folders: a folder is that of one client, whatever
the database does.
-/

namespace Raqet

open Java FileSystem InvestigationCaseDB RaqetControl

namespace Publication

/-- The disk that a device is. -/
def disk (p : Publication) : String × ℕ := (p.device.targetName, p.device.lun)

/-- The names that a device is given. -/
def evidence (p : Publication) : File × String :=
  (p.device.evidenceDirectory, p.device.evidenceBaseFileName)

/-- The folder of the computer of the client; that of direct targets without a client. -/
def folder (p : Publication) : File :=
  ((p.clientInfo.bind (·.computerDbEntry)).map (·.baseStorageFolder)).getD tmp

/-- The name that the client has for the device. -/
def deviceName (p : Publication) : String :=
  ((p.clientInfo.bind (·.getDeviceMapping p.device.lun)).map (·.device)).getD ""

/-- The base file name that the device gets. -/
def fileName (p : Publication) : String :=
  match p.clientInfo with
  | none => generateEvidenceFilename p.device.targetName p.device.lun
  | some c => clientEvidenceFilename p.device.lun (valueOf c.clientId) p.deviceName

/-- The devices have one logical unit, and nothing else in their names tells them apart: they
    are of direct targets with names that only differ in colons and underscores, or have the
    same name in the folder of one computer, up to slashes. -/
def SameName (p q : Publication) : Prop :=
  match p.clientInfo, q.clientInfo with
  | none, none => p.device.lun = q.device.lun ∧
      pathNames (escapeTargetName p.device.targetName ++ "_") =
        pathNames (escapeTargetName q.device.targetName ++ "_")
  | some c, some c' => p.folder = q.folder ∧ p.device.lun = q.device.lun ∧
      c.clientId = c'.clientId ∧
        pathNames ("_" ++ p.deviceName ++ ".dd") = pathNames ("_" ++ q.deviceName ++ ".dd")
  | _, _ => False

/-- The evidence files of the devices have one path: the names are the same, or the name of
    one device leads into the folder of the other one. -/
def Alike (p q : Publication) : Prop :=
  p.SameName q ∨ p.folder.Enters q.folder p.fileName q.fileName ∨
    q.folder.Enters p.folder q.fileName p.fileName

instance (p q : Publication) : Decidable (p.SameName q) := by
  unfold SameName
  split <;> infer_instance

instance (p q : Publication) : Decidable (p.Alike q) := inferInstanceAs (Decidable (_ ∨ _ ∨ _))

end Publication

/-- Devices that are alike are one disk. -/
def Unambiguous (published : List Publication) : Prop :=
  ∀ p ∈ published, ∀ q ∈ published, p.Alike q → p.disk = q.disk

instance (published : List Publication) : Decidable (Unambiguous published) :=
  inferInstanceAs (Decidable (∀ p ∈ published, ∀ q ∈ published, _ → _))

/-! ## Names -/

variable {targetName targetName' deviceName deviceName' : String} {lun lun' : ℕ}
  {clientid clientid' : Option String}

theorem slash_notMem_format04d : '/' ∉ (format04d lun).toList :=
  fun h => absurd (isDigit_of_mem_format04d h) (by decide)

/-- The path of a direct target's evidence file tells the logical unit, and the name of the
    target up to slashes. -/
theorem pathNames_generateEvidenceFilename_inj :
    pathNames (generateEvidenceFilename targetName lun) =
        pathNames (generateEvidenceFilename targetName' lun') ↔
      lun = lun' ∧ pathNames (escapeTargetName targetName ++ "_") =
        pathNames (escapeTargetName targetName' ++ "_") := by
  have hfile (targetName : String) (lun : ℕ) : generateEvidenceFilename targetName lun =
      escapeTargetName targetName ++ ("_" ++ format04d lun ++ ".dd") := by
    simp only [generateEvidenceFilename, String.append_assoc]
  have hsegment (lun : ℕ) : IsSegment ("_" ++ format04d lun ++ ".dd") := by
    refine ⟨fun he => ?_, by simp [slash_notMem_format04d]⟩
    exact absurd (String.append_eq_empty_iff.1 he).2 (by decide)
  obtain ⟨names, name, h⟩ := pathNames_append (escapeTargetName targetName)
  obtain ⟨names', name', h'⟩ := pathNames_append (escapeTargetName targetName')
  have hend : name ++ ("_" ++ format04d lun ++ ".dd") = name' ++ ("_" ++ format04d lun' ++ ".dd") ↔
      name = name' ∧ lun = lun' := by
    rw [← String.append_assoc, ← String.append_assoc, ← String.append_assoc, ← String.append_assoc,
      String.append_left_inj]
    exact append_format04d_inj (c := '_') rfl
  rw [hfile, hfile, h _ (hsegment lun), h' _ (hsegment lun'), h "_" (by decide),
    h' "_" (by decide), List.append_singleton_inj, List.append_singleton_inj,
    String.append_left_inj, hend, and_comm (a := lun = lun'), and_assoc]

/-- The file name begins with the logical unit and a hyphen. -/
theorem clientEvidenceFilename_eq (lun : ℕ) (clientid deviceName : String) :
    clientEvidenceFilename lun clientid deviceName =
      format04d lun ++ "-" ++ (clientid ++ ("_" ++ deviceName ++ ".dd")) := by
  simp only [clientEvidenceFilename, String.append_assoc]

theorem isSegment_format04d (lun : ℕ) : IsSegment (format04d lun ++ "-") := by
  refine ⟨fun he => ?_, by simp [slash_notMem_format04d]⟩
  exact absurd (String.append_eq_empty_iff.1 he).2 (by decide)

/-- The path of the evidence file of a client's device tells the logical unit. -/
theorem lun_eq_of_pathNames {clientid clientid' : String}
    (h : pathNames (clientEvidenceFilename lun clientid deviceName) =
      pathNames (clientEvidenceFilename lun' clientid' deviceName')) : lun = lun' := by
  obtain ⟨name, names, hnames⟩ := exists_pathNames_append (isSegment_format04d lun)
    (clientid ++ ("_" ++ deviceName ++ ".dd"))
  obtain ⟨name', names', hnames'⟩ := exists_pathNames_append (isSegment_format04d lun')
    (clientid' ++ ("_" ++ deviceName' ++ ".dd"))
  rw [clientEvidenceFilename_eq, clientEvidenceFilename_eq, hnames, hnames', List.cons.injEq] at h
  exact ((format04d_append_inj (c := '-') rfl).1 h.1).1

/-- For one client, it tells the name of the device up to slashes. -/
theorem pathNames_clientEvidenceFilename_iff (lun : ℕ) (clientid : String) :
    pathNames (clientEvidenceFilename lun clientid deviceName) =
        pathNames (clientEvidenceFilename lun clientid deviceName') ↔
      pathNames ("_" ++ deviceName ++ ".dd") = pathNames ("_" ++ deviceName' ++ ".dd") := by
  have h := @pathNames_append_inj (format04d lun ++ "-" ++ clientid) "_" "_"
    (deviceName ++ ".dd") (deviceName' ++ ".dd") (by decide) (by decide)
  simp only [clientEvidenceFilename, String.append_assoc] at h ⊢
  exact h

/-- After the logical unit, the path of a client without an id goes on with `null`, and that of
    the client with the empty id with an underscore. -/
theorem pathNames_null_ne (lun : ℕ) (deviceName deviceName' : String) :
    pathNames (clientEvidenceFilename lun "null" deviceName) ≠
      pathNames (clientEvidenceFilename lun "" deviceName') := by
  have hassoc : "_" ++ deviceName' ++ ".dd" = "_" ++ (deviceName' ++ ".dd") := String.append_assoc
  rw [clientEvidenceFilename_eq, clientEvidenceFilename_eq, String.empty_append, hassoc, Ne,
    pathNames_append_inj (by decide) (by decide)]
  obtain ⟨name, names, hnames⟩ := exists_pathNames_append (s := "null") (by decide)
    ("_" ++ deviceName ++ ".dd")
  obtain ⟨name', names', hnames'⟩ := exists_pathNames_append (s := "_") (by decide)
    (deviceName' ++ ".dd")
  rw [hnames, hnames', List.cons.injEq]
  intro h
  have hhead := congrArg (fun s : String => s.toList.head?) h.1
  simp at hhead

/-- The path of the evidence file of a client's device tells the logical unit, and the name of
    the device up to slashes, among those of clients with the same id in the database. -/
theorem pathNames_clientEvidenceFilename_inj (hid : readBack clientid = readBack clientid') :
    pathNames (clientEvidenceFilename lun (valueOf clientid) deviceName) =
        pathNames (clientEvidenceFilename lun' (valueOf clientid') deviceName') ↔
      lun = lun' ∧ clientid = clientid' ∧
        pathNames ("_" ++ deviceName ++ ".dd") = pathNames ("_" ++ deviceName' ++ ".dd") := by
  constructor
  · intro h
    obtain rfl := lun_eq_of_pathNames h
    cases clientid with
    | some clientid =>
      cases clientid' with
      | some clientid' =>
        obtain rfl : clientid = clientid' := hid
        exact ⟨rfl, rfl, (pathNames_clientEvidenceFilename_iff lun clientid).1 h⟩
      -- no id is read back as the empty one
      | none =>
        obtain rfl : clientid = "" := hid
        exact absurd h.symm (pathNames_null_ne lun _ _)
    | none =>
      cases clientid' with
      | some clientid' =>
        obtain rfl : "" = clientid' := hid
        exact absurd h (pathNames_null_ne lun _ _)
      | none => exact ⟨rfl, rfl, (pathNames_clientEvidenceFilename_iff lun _).1 h⟩
  · rintro ⟨rfl, rfl, h⟩
    exact (pathNames_clientEvidenceFilename_iff lun _).2 h

/-! ## The invariant -/

variable {owners owners' : Owners} {fs fs' : Disk} {computer : ComputerDbEntry}
  {p q : Publication} {x : Exporting} {s s' : RaqetControl}
  {P : List String → Node Content → Prop} {target : ClientInfo}

/-- A client can be bound to the computer: it is of this client, and so is its folder. -/
structure Bound (owners : Owners) (fs : Disk) (clientid : String) (computer : ComputerDbEntry) :
    Prop where
  clientId : computer.clientId = clientid
  ne_tmp : computer.baseStorageFolder ≠ tmp
  belongs : Belongs owners fs clientid computer.baseStorageFolder

/-- The device has its names, and the client that it was published for is bound to a
    computer. -/
structure Named (owners : Owners) (fs : Disk) (p : Publication) : Prop where
  evidence : p.evidence = (p.folder, p.fileName)
  bound : ∀ c, p.clientInfo = some c → ∃ computer, c.computerDbEntry = some computer ∧
    Bound owners fs (readBack c.clientId) computer

theorem Bound.later {clientid : String} (h : Bound owners fs clientid computer)
    (he : Extends owners owners') (hl : Later P fs fs') : Bound owners' fs' clientid computer :=
  ⟨h.clientId, h.ne_tmp, h.belongs.later he hl⟩

theorem Named.later (h : Named owners fs p) (he : Extends owners owners') (hl : Later P fs fs') :
    Named owners' fs' p := by
  refine ⟨h.evidence, fun c hc => ?_⟩
  obtain ⟨computer, hcomputer, hb⟩ := h.bound c hc
  exact ⟨computer, hcomputer, hb.later he hl⟩

theorem folder_of_none (hc : p.clientInfo = none) : p.folder = tmp := by
  rw [Publication.folder, hc]
  rfl

theorem folder_of_some {c : ClientInfo} (hc : p.clientInfo = some c)
    (hcomputer : c.computerDbEntry = some computer) : p.folder = computer.baseStorageFolder := by
  rw [Publication.folder, hc, Option.bind_some, hcomputer]
  rfl

/-- A device of a client that is bound to a computer, with its names. -/
theorem named_client {c : ClientInfo} {device : DiscoveredDevice} {mapping : Devicemapping}
    {smbMountPath : String} (hc : c.computerDbEntry = some computer)
    (hm : c.getDeviceMapping device.lun = some mapping)
    (hb : Bound owners fs (readBack c.clientId) computer) :
    Named owners fs ⟨some c, smbMountPath, device, computer.baseStorageFolder,
      clientEvidenceFilename device.lun (valueOf c.clientId) mapping.device⟩ := by
  refine ⟨?_, fun c' hc' => ⟨computer, Option.some.inj hc' ▸ hc, Option.some.inj hc' ▸ hb⟩⟩
  rw [Publication.evidence, folder_of_some rfl hc, Publication.fileName, Publication.deviceName]
  dsimp only
  rw [Option.bind_some, hm]
  rfl

/-- The folder has a name. -/
theorem Named.names (h : Named owners fs p) : p.folder.names ≠ [] := by
  cases hc : p.clientInfo with
  | none =>
    rw [folder_of_none hc]
    decide +kernel
  | some c =>
    obtain ⟨computer, hcomputer, hb⟩ := h.bound c hc
    rw [folder_of_some hc hcomputer]
    exact hb.belongs.names

/-- In one folder, devices have files of one path if and only if they have the same name. -/
theorem sameName_iff (hp : Named owners fs p) (hq : Named owners fs q) :
    p.SameName q ↔ p.folder = q.folder ∧ pathNames p.fileName = pathNames q.fileName := by
  rw [Publication.SameName, Publication.fileName, Publication.fileName]
  cases hc : p.clientInfo with
  | none =>
    cases hc' : q.clientInfo with
    | none =>
      rw [folder_of_none hc, folder_of_none hc', and_iff_right rfl]
      exact pathNames_generateEvidenceFilename_inj.symm
    | some c' =>
      obtain ⟨computer, hcomputer, hb⟩ := hq.bound c' hc'
      rw [folder_of_none hc, folder_of_some hc' hcomputer]
      exact ⟨False.elim, fun h => hb.ne_tmp h.1.symm⟩
  | some c =>
    obtain ⟨computer, hcomputer, hb⟩ := hp.bound c hc
    cases hc' : q.clientInfo with
    | none =>
      rw [folder_of_none hc', folder_of_some hc hcomputer]
      exact ⟨False.elim, fun h => hb.ne_tmp h.1⟩
    | some c' =>
      obtain ⟨computer', hcomputer', hb'⟩ := hq.bound c' hc'
      rw [folder_of_some hc hcomputer, folder_of_some hc' hcomputer']
      refine and_congr_right fun hfolder => ?_
      -- in one folder, the ids in the database are the same
      exact (pathNames_clientEvidenceFilename_inj
        (hb.belongs.unique (hfolder ▸ hb'.belongs))).symm

/-- Two devices have evidence files of one path if and only if they are alike. -/
theorem evidencePath_eq_iff (hp : Named owners fs p) (hq : Named owners fs q) :
    p.device.evidencePath = q.device.evidencePath ↔ p.Alike q := by
  have hpath {p : Publication} (hp : Named owners fs p) :
      p.device.evidencePath = (p.folder.child p.fileName).getPath := by
    obtain ⟨hdir, hbase⟩ := Prod.ext_iff.1 hp.evidence
    exact congrArg File.getPath (congrArg₂ File.child hdir hbase)
  rw [hpath hp, hpath hq, File.getPath_child_eq_iff hp.names hq.names, ← sameName_iff hp hq,
    Publication.Alike]

/-- The invariant of the loop that publishes devices. -/
structure Exporting.Invariant (owners : Owners) (x : Exporting) : Prop where
  tracks : Tracks owners x.fs
  bound : ∀ c computer, x.clientInfo = some c → c.computerDbEntry = some computer →
    Bound owners x.fs (readBack c.clientId) computer
  named : ∀ p ∈ x.published, Named owners x.fs p

theorem Bound.addDisk {clientid name : String} (h : Bound owners fs clientid computer) :
    Bound owners fs clientid (computer.addDisk name) := by
  rw [ComputerDbEntry.addDisk]
  split_ifs
  · exact h
  · exact ⟨h.clientId, h.ne_tmp, h.belongs⟩

theorem exportDevice_invariant (io : WriteIo) (device : DiscoveredDevice) (h : x.Invariant owners) :
    (exportDevice io device x).2.Invariant owners := by
  rw [exportDevice]
  split
  · exact h
  · split
    next hx =>
      refine ⟨h.tracks, h.bound, fun p hp => ?_⟩
      rcases List.mem_append.1 hp with hp | hp
      · exact h.named p hp
      · obtain rfl := List.mem_singleton.1 hp
        exact ⟨rfl, fun c hc => absurd hc.symm (Option.some_ne_none c)⟩
    next c hx =>
      split
      next mapping computer hm hc =>
        -- the entry is still that of the client, and its folder is the same
        have hb : Bound owners x.fs (readBack c.clientId) (computer.addDisk mapping.device) :=
          (h.bound c computer hx hc).addDisk
        have hl := later_update io hb.clientId hb.belongs
        have htracks := h.tracks.later hl
        have hnamed : ∀ p ∈ x.published, Named owners _ p := fun p hp =>
          (h.named p hp).later .refl hl
        have hb' := hb.later .refl hl
        dsimp only
        split
        next fs hu =>
          rw [hu] at htracks hnamed hb'
          refine ⟨htracks, ?_, hnamed⟩
          rintro _ _ ⟨⟩ ⟨⟩
          exact hb'
        next fs hu =>
          rw [hu] at htracks hnamed hb'
          refine ⟨htracks, ?_, fun p hp => ?_⟩
          · rintro _ _ ⟨⟩ ⟨⟩
            exact hb'
          · rcases List.mem_append.1 hp with hp | hp
            · exact hnamed p hp
            · obtain rfl := List.mem_singleton.1 hp
              exact named_client rfl hm hb'
      next => exact h

theorem exportDevices_invariant (update : ℕ → WriteIo) (devices : List DiscoveredDevice)
    (h : x.Invariant owners) : (exportDevices update devices x).2.Invariant owners :=
  exportDevices_induction devices (fun n device _ h => exportDevice_invariant (update n) device h) h

theorem addRemoteDevice_invariant (targetAddress : TargetAddress) (env : ExportEnv)
    (h : x.Invariant owners) : (addRemoteDevice targetAddress env x).2.Invariant owners := by
  rw [addRemoteDevice]
  split
  · exact h
  · exact exportDevices_invariant _ _ h

/-- Directories have owners that the file system agrees with, and all devices that were
    published are named. -/
def RaqetControl.Invariant (s : RaqetControl) : Prop :=
  ∃ owners, Tracks owners s.fs ∧ ∀ p ∈ s.published, Named owners s.fs p

/-- A change of the file system that respects the owners. -/
theorem invariant_later (h : Tracks owners fs ∧ ∀ p ∈ s.published, Named owners fs p)
    (hl : Later (Respects owners) fs fs') :
    Tracks owners fs' ∧ ∀ p ∈ s.published, Named owners fs' p :=
  ⟨h.1.later hl, fun p hp => (h.2 p hp).later .refl hl⟩

/-- A name with this extension is none that ends otherwise. -/
theorem append_txt_ne {name t : String} (ht : t.toList.getLast? ≠ some 't') :
    name ++ ".txt" ≠ t := by
  rintro rfl
  refine ht ?_
  rw [String.toList_append]
  exact List.getLast?_append_of_ne_nil _ (by decide)

/-- The files with information about disks have the extension of a text. -/
theorem later_writeDiskInformation {basePath : File} {devices : List String} {io : ℕ → WriteIo}
    (hP : ∀ dir name, P (dir ++ [name ++ ".txt"]) (.file default)) :
    Later P fs (writeDiskInformation basePath devices io fs) := by
  induction devices generalizing io fs with
  | nil => exact .refl
  | cons device devices ih =>
    rw [writeDiskInformation]
    refine Later.trans ?_ ih
    split_ifs
    · exact .refl
    · obtain ⟨names, name, h⟩ := pathNames_append device
      have h := h ".txt" (by decide)
      refine later_write fun loc hloc => ?_
      obtain ⟨dir, rfl⟩ := locate_last ((File.names_child.trans (congrArg _ h)).trans
        (List.append_assoc basePath.names names [name ++ ".txt"]).symm)
        ⟨append_txt_ne (by decide +kernel), append_txt_ne (by decide +kernel)⟩ hloc
      exact ⟨hP dir name, hP dir name⟩

/-- They have other names than the entries. -/
theorem respects_txt {dir : List String} {name : String} {n : Node Content} :
    Respects owners (dir ++ [name ++ ".txt"]) n := fun d _ _ _ _ he =>
  absurd (List.singleton_inj.1 (List.append_inj_right' he rfl)) (append_txt_ne (by decide +kernel))

/-- A computer that was found can be bound to the client. -/
theorem FoundFor.bound (h : FoundFor fs clientid computer) (ht : Tracks owners fs) :
    ∃ owners', Extends owners owners' ∧ Tracks owners' fs ∧
      Bound owners' fs (readBack clientid) computer := by
  obtain ⟨owners', hext, ht', hb⟩ := h.stored.claim ht
  obtain rfl := h.clientId
  refine ⟨owners', hext, ht', rfl, fun he => ?_, hb⟩
  have hlen := h.length
  rw [he] at hlen
  exact absurd hlen (by decide +kernel)

/-- A computer that was created for a client can be bound to it: its folder is not the
    evidence directory of direct targets, as its name has an underscore. -/
theorem Stored.bound (h : Stored fs computer) (ht : Tracks owners fs)
    (hfields : computer.toComputerFields = defaultComputer target)
    (hnames : ∃ names, computer.baseStorageFolder.names =
      names ++ pathNames (defaultComputer target).urlcomputerName) :
    ∃ owners', Extends owners owners' ∧ Tracks owners' fs ∧
      Bound owners' fs (readBack target.clientId) computer := by
  obtain ⟨owners', hext, ht', hb⟩ := h.claim ht
  have hid : computer.clientId = readBack target.clientId :=
    congrArg ComputerFields.clientId hfields
  refine ⟨owners', hext, ht', hid, fun he => ?_, hid ▸ hb⟩
  obtain ⟨names, hnames⟩ := hnames
  have hmem : '_' ∈ (defaultComputer target).urlcomputerName.toList := by
    simp [defaultComputer]
  obtain ⟨name, hname, hunderscore⟩ := mem_pathNames hmem (by decide)
  have htmp : name ∈ tmp.names := by
    rw [← he, hnames]
    exact List.mem_append_right _ hname
  have : tmp.names = ["tmp"] := by decide +kernel
  rw [this, List.mem_singleton] at htmp
  rw [htmp] at hunderscore
  exact absurd hunderscore (by decide)

/-- An entry that gets the hardware of a client stays one of this client. -/
theorem bound_claimed {db : InvestigationCaseDB} {env : AddClientEnv} {computer : ComputerDbEntry}
    {result : Except Exn Unit} {fs' : Disk} (ht : Tracks owners fs)
    (hagain : db.findClient fs env.findAgain target.clientId "" = .ok (some computer))
    {hardwareId : String}
    (hupdate : update fs env.update { computer with hardwareId := hardwareId } = (result, fs')) :
    ∃ owners', Extends owners owners' ∧ Tracks owners' fs' ∧
      Bound owners' fs' (readBack target.clientId) { computer with hardwareId := hardwareId } ∧
      Later (fun _ _ => True) fs fs' := by
  obtain ⟨owners', hext, ht', hb⟩ := (findClient_found hagain).bound ht
  have hb' : Bound owners' fs (readBack target.clientId)
      { computer with hardwareId := hardwareId } := ⟨hb.clientId, hb.ne_tmp, hb.belongs⟩
  have hl := later_update env.update hb'.clientId hb'.belongs
  rw [hupdate] at hl
  exact ⟨owners', hext, ht'.later hl, hb'.later .refl hl, hl.mono fun _ _ _ => trivial⟩

/-- The search for the computer of a client keeps track of the owners; a computer that it
    ends with can be bound to the client. -/
theorem lookupComputer_bound (db : InvestigationCaseDB) (target : ClientInfo) (env : AddClientEnv)
    (ht : Tracks owners fs) :
    ∃ owners', Extends owners owners' ∧ Tracks owners' (lookupComputer db fs target env).2 ∧
      Later (fun _ _ => True) fs (lookupComputer db fs target env).2 ∧
      ∀ computer, (lookupComputer db fs target env).1 = .found computer →
        Bound owners' (lookupComputer db fs target env).2 (readBack target.clientId) computer := by
  cases hlookup : lookupComputer db fs target env with
  | mk result fs' =>
    cases looksUp hlookup with
    | throws | throwsAgain =>
      refine ⟨owners, .refl, ht, .refl, ?_⟩
      rintro _ ⟨⟩
    | found hfind =>
      obtain ⟨owners', hext, ht', hb⟩ := (findClient_found hfind).bound ht
      refine ⟨owners', hext, ht', .refl, ?_⟩
      rintro _ ⟨⟩
      exact hb
    -- the entry that is claimed has the id of the client, and so has its folder
    | claims _ hagain hupdate =>
      obtain ⟨owners', hext, ht', hb, hl⟩ := bound_claimed ht hagain hupdate
      refine ⟨owners', hext, ht', hl, ?_⟩
      rintro _ ⟨⟩
      exact hb
    | claimFails _ hagain hupdate =>
      obtain ⟨owners', hext, ht', -, hl⟩ := bound_claimed ht hagain hupdate
      refine ⟨owners', hext, ht', hl, ?_⟩
      rintro _ ⟨⟩
    | creates _ _ hcreate =>
      obtain ⟨hl, hcreated⟩ := createComputer_later db env.create env.insert "defaultcase"
        (defaultComputer target) ht
      rw [hcreate] at hl hcreated
      obtain ⟨hfields, hstored, hnames⟩ := hcreated _ rfl
      obtain ⟨owners', hext, ht', hb⟩ := hstored.bound (ht.later hl) hfields hnames
      refine ⟨owners', hext, ht', hl.mono fun _ _ _ => trivial, ?_⟩
      rintro _ ⟨⟩
      exact hb
    | createFails _ _ hcreate =>
      obtain ⟨hl, -⟩ := createComputer_later db env.create env.insert "defaultcase"
        (defaultComputer target) ht
      rw [hcreate] at hl
      refine ⟨owners, .refl, ht.later hl, hl.mono fun _ _ _ => trivial, ?_⟩
      rintro _ ⟨⟩

theorem addNewClient_invariant {env : AddClientEnv} (h : s.Invariant) :
    (s.addNewClient target env).2.Invariant := by
  obtain ⟨owners, ht, hn⟩ := h
  obtain ⟨owners', hext, ht', hl, hfound⟩ :=
    lookupComputer_bound s.investigationCaseDB target env ht
  have hn' : ∀ p ∈ s.published, Named owners' _ p := fun p hp => (hn p hp).later hext hl
  have hadds := addsClient s target env
  generalize (s.addNewClient target env).2 = t at hadds ⊢
  cases hadds with
  | unbound hlookup hnone =>
    rw [hlookup] at ht' hn'
    exact ⟨owners', ht', hn'⟩
  | @bound computer fs x hlookup devices hexport =>
    rw [hlookup] at ht' hn' hfound
    have hlog : Later (Respects owners') fs (writeLogging fs env.writeLogging computer) :=
      later_write_child (by decide +kernel) (by decide +kernel)
    have hb := (hfound computer rfl).later .refl hlog
    obtain ⟨ht'', hn''⟩ := invariant_later ⟨ht', hn'⟩ hlog
    have hx := exportDevices_invariant env.exporting.update devices
      (x := ⟨writeLogging fs env.writeLogging computer,
        some { target with computerDbEntry := some computer }, s.published⟩)
      ⟨ht'', by rintro _ _ ⟨⟩ ⟨⟩; exact hb, hn''⟩
    rw [hexport] at hx
    exact ⟨owners', hx.tracks, hx.named⟩

theorem call_invariant {c : Call} (h : s.Invariant) : (s.call c).2.Invariant := by
  obtain ⟨owners, ht, hn⟩ := h
  cases c with
  | register ipAddress target env =>
    rw [call]
    cases hnew : s.isNew (.ofRegister ipAddress target) with
    | false =>
      rw [addClient_of_not_isNew env hnew]
      exact ⟨owners, ht, hn⟩
    | true =>
      rw [addClient_of_isNew env hnew]
      exact addNewClient_invariant ⟨owners, ht, hn⟩
  | diskinfo ipAddress clientid hardwareid devices io =>
    rw [call, diskInformation]
    split
    · exact ⟨owners, ht, hn⟩
    · exact ⟨owners, ht, hn⟩
    · split
      · exact ⟨owners, ht, hn⟩
      · exact ⟨owners, invariant_later ⟨ht, hn⟩
          (later_writeDiskInformation fun _ _ => respects_txt)⟩
  | addDevice target env =>
    rw [call, addDirect]
    split
    · exact ⟨owners, ht, hn⟩
    next targetAddress _ =>
      -- there is no client
      have hbound : ∀ (c : ClientInfo) computer, none = some c →
          c.computerDbEntry = some computer →
            Bound owners s.fs (readBack c.clientId) computer := by
        rintro c computer ⟨⟩
      have hx := addRemoteDevice_invariant targetAddress env
        (x := ⟨s.fs, none, s.published⟩) ⟨ht, hbound, hn⟩
      exact ⟨owners, hx.tracks, hx.named⟩
  | createInvestigationCase investigationCase io =>
    exact ⟨owners, invariant_later ⟨ht, hn⟩ later_createCase⟩
  | createComputer caseName computer env io =>
    exact ⟨owners, invariant_later ⟨ht, hn⟩ (createComputer_later _ _ _ _ _ ht).1⟩

/-- The invariant holds in every state of a run. -/
theorem invariant_runs {evidenceDirectory : File} {io : InsertIo} {l : List Call}
    (h : Transition.runs step (.new evidenceDirectory fs io) l = some s) : s.Invariant := by
  refine Transition.runs_induction (P := fun _ t => t.Invariant) ?_ ?_ h
  · refine ⟨fun _ => none, (fun dir clientid hd => nomatch hd), fun p hp => ?_⟩
    cases hp
  · rintro _ t c _ - ht ⟨⟩
    exact call_invariant ht

/-! ## Different disks -/

/-- In every state of a run, devices have evidence files of one path if and only if they are
    alike. -/
theorem evidencePath_runs {evidenceDirectory : File} {io : InsertIo} {l : List Call}
    (h : Transition.runs step (.new evidenceDirectory fs io) l = some s) :
    ∀ p ∈ s.published, ∀ q ∈ s.published,
      (p.device.evidencePath = q.device.evidencePath ↔ p.Alike q) := by
  obtain ⟨owners, -, hn⟩ := invariant_runs h
  exact fun p hp q hq => evidencePath_eq_iff (hn p hp) (hn q hq)

/-! ## Small runs -/

/-- A file system with an empty evidence directory. -/
def emptyEvidence : Disk :=
  ⟨((∅ : AList fun _ : List String => Node Content).insert ["var"] .directory).insert
    ["var", "raqet"] .directory, [], []⟩

/-- Directories are listed, and files are read. -/
def readable : ReadEnv := ⟨fun _ => some ⟨id, fun _ => .refl _⟩, fun _ => false⟩

/-- Targets with one logical unit each, of this number, on a portal of a client. -/
def discovers (lun : ℕ) (targetNames : List String) : ExportEnv :=
  ⟨.ok (targetNames.map fun targetName =>
    ⟨targetName, none, [("10.0.0.2:3260,1", .luns [⟨lun, none, .good (99, 512)⟩] none)], none⟩),
    fun _ => .ok⟩

/-- A client that has a name for its first logical unit registers, with these targets. -/
def registers (targetNames : List String) : Call :=
  .register "10.0.0.2" ⟨"client", "hardware", [⟨"sda", 0⟩]⟩
    ⟨readable, readable, .ok, readable, ⟨false, .ok⟩, .ok, discovers 0 targetNames⟩

/-- The server after these calls. -/
def serverAfter (l : List Call) : RaqetControl :=
  l.foldl (fun s c => (s.call c).2) (.new (File.ofPath "/var/raqet") emptyEvidence ⟨false, .ok⟩)

end Raqet
