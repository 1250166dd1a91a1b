import Raqet.Http.Publishing
import Raqet.Smb.DiskDriver

/-!
# Duplicates in the file server

The driver appends every device that is published to the files of a folder. The name of
the file has the logical unit, and the name of the target or those of the client and the
device (`Placed`). A file is looked up by its name without regard to letter case.

No call publishes a device again (`ExportsOnce`): no folder gets two files of one name, a name
is that of at most one file, and a computer that registers again gets no more files. This
holds of all calls of a run if and only if every call is `Novel`: a client that is not in the
list yet, or a direct target, has no two devices that the name does not tell apart, and none
that was published in its folder before, and none at all is published for a computer that is
in the list with another address (`noDuplicates_iff`). A client that registers again from
another address breaks this (`duplicated_address`), and so does a target with two portals.
-/

namespace Raqet

open Java FileSystem InvestigationCaseDB RaqetControl

/-- The file of a remote device. -/
def PseudoFile.isRemote : PseudoFile → Bool
  | .memory _ => false
  | .remote _ => true

/-- The files of the remote devices in a folder have different names, and at most one of them is
    looked up by a name. -/
structure RaqetDiskDriver.NoDuplicates (u : CaseMapping) (d : RaqetDiskDriver) : Prop where
  names : ∀ folder files, d.pseudoFileLists folder = some files →
    ((files.filter PseudoFile.isRemote).map PseudoFile.getFileName).Nodup
  resolves : ∀ folder files, d.pseudoFileLists folder = some files →
    (files.filter PseudoFile.isRemote).Pairwise fun file file' => ∀ filename,
      ¬(u.equalsIgnoreCase file.getFileName filename = true ∧
        u.equalsIgnoreCase file'.getFileName filename = true)

/-- The driver of the server. -/
def RaqetControl.diskInterface (s : RaqetControl) : RaqetDiskDriver :=
  .after (s.published.map fun p => (p.smbMountPath, p.device))

/-- After the call, the files in every folder have different names, and one that registers a
    computer that is in the list publishes nothing. -/
structure ExportsOnce (u : CaseMapping) (s : RaqetControl) (a : Call) : Prop where
  noDuplicates : (s.call a).2.diskInterface.NoDuplicates u
  again : ∀ ipAddress target env, a = .register ipAddress target env →
    (∃ c ∈ s.clientList, c.ids = (target.clientid, target.hardwareid)) →
      (s.call a).2.published = s.published

/-- The folder and the name of a device that was published. -/
def Publication.place (p : Publication) : String × String :=
  (p.smbMountPath, p.device.evidenceBaseFileName)

/-- A folder, and a name in it without regard to letter case. -/
def foldPlace (u : CaseMapping) (place : String × String) : String × String :=
  (place.1, u.fold place.2)

/-- All devices that were published are in different places. -/
def AllPlaced (u : CaseMapping) (published : List Publication) : Prop :=
  (published.map fun p => foldPlace u p.place).Nodup

instance (published : List Publication) : Decidable (AllPlaced u published) :=
  inferInstanceAs (Decidable (List.Nodup _))

/-- What the name of a file says of a device of the client, besides the logical unit. -/
def clientDisk (c : ClientInfo) (device : DiscoveredDevice) : String :=
  valueOf c.clientId ++ "_" ++ nameOf c device

variable {u : CaseMapping} {s t : RaqetControl} {p : Publication} {ps : List Publication}
  {c c' : ClientInfo} {computer : ComputerDbEntry} {device device' : DiscoveredDevice}
  {devices : List DiscoveredDevice} {a : Call}

/-! ## Names of files -/

theorem map_getFileName_added (calls : List (String × RemoteDeviceInfo)) (f : String) :
    ((RaqetDiskDriver.added calls f).filter PseudoFile.isRemote).map PseudoFile.getFileName =
      (calls.filter fun call => call.1 = f).map fun call =>
        "virtualevidence-" ++ call.2.evidenceBaseFileName := by
  rw [List.filter_eq_self.2, RaqetDiskDriver.added, List.map_map]
  · rfl
  · intro file hfile
    obtain ⟨device, rfl⟩ := RaqetDiskDriver.exists_of_mem_added hfile
    rfl

/-- The names of the files in a folder, which are those of the devices published there. -/
theorem map_getFileName_files {f : String} {files : List PseudoFile}
    (hfiles : s.diskInterface.pseudoFileLists f = some files) :
    (files.filter PseudoFile.isRemote).map PseudoFile.getFileName =
      (s.published.filter fun p => p.smbMountPath = f).map fun p =>
        "virtualevidence-" ++ p.device.evidenceBaseFileName := by
  rw [RaqetControl.diskInterface, RaqetDiskDriver.pseudoFileLists_after] at hfiles
  split_ifs at hfiles
  cases hfiles
  rw [List.filter_cons_of_neg (by exact nofun), map_getFileName_added, List.filter_map,
    List.map_map]
  rfl

theorem exists_files (h : p ∈ s.published) :
    ∃ files, s.diskInterface.pseudoFileLists p.smbMountPath = some files := by
  refine ⟨_, (RaqetDiskDriver.pseudoFileLists_after ..).trans (if_pos (.inr ?_))⟩
  refine List.ne_nil_of_mem (a := .remote p.device) (List.mem_map.2 ⟨(p.smbMountPath, p.device),
    List.mem_filter.2
      ⟨List.mem_map_of_mem (f := fun p => (p.smbMountPath, p.device)) h, ?_⟩, rfl⟩)
  exact decide_eq_true rfl

/-- No name is that of two files without regard to letter case. -/
theorem resolves_iff_nodup {l : List PseudoFile} :
    (l.Pairwise fun file file' => ∀ filename,
      ¬(u.equalsIgnoreCase file.getFileName filename = true ∧
        u.equalsIgnoreCase file'.getFileName filename = true)) ↔
      ((l.map PseudoFile.getFileName).map u.fold).Nodup := by
  rw [List.map_map, List.Nodup, List.pairwise_map]
  refine List.pairwise_iff_forall_sublist.trans (Iff.trans ?_ List.pairwise_iff_forall_sublist.symm)
  refine forall_congr' fun file => forall_congr' fun file' => imp_congr_right fun _ => ?_
  simp only [CaseMapping.equalsIgnoreCase_iff, Function.comp_apply]
  constructor
  · exact fun h he => h file'.getFileName ⟨he, rfl⟩
  · rintro h filename ⟨he, he'⟩
    exact h (he.trans he'.symm)

/-- The files of every folder have different names if and only if all devices that were
    published are in different places. -/
theorem noDuplicates_iff_nodup : s.diskInterface.NoDuplicates u ↔ AllPlaced u s.published := by
  -- names that differ without regard to case differ, so the second condition implies the first
  have hfolds : s.diskInterface.NoDuplicates u ↔ ∀ folder files,
      s.diskInterface.pseudoFileLists folder = some files →
        ((s.published.filter fun p => p.smbMountPath = folder).map fun p =>
          u.fold ("virtualevidence-" ++ p.device.evidenceBaseFileName)).Nodup := by
    have hnodup {folder : String} {files : List PseudoFile}
        (hfiles : s.diskInterface.pseudoFileLists folder = some files) :
        (((files.filter PseudoFile.isRemote).map PseudoFile.getFileName).map u.fold).Nodup ↔
          ((s.published.filter fun p => p.smbMountPath = folder).map fun p =>
            u.fold ("virtualevidence-" ++ p.device.evidenceBaseFileName)).Nodup := by
      rw [map_getFileName_files hfiles, List.map_map]
      rfl
    constructor
    · exact fun h folder files hfiles =>
        (hnodup hfiles).1 (resolves_iff_nodup.1 (h.resolves folder files hfiles))
    · intro h
      constructor
      · exact fun folder files hfiles => ((hnodup hfiles).2 (h folder files hfiles)).of_map _
      · exact fun folder files hfiles =>
          resolves_iff_nodup.2 ((hnodup hfiles).2 (h folder files hfiles))
  rw [hfolds]
  simp only [AllPlaced, List.Nodup, List.pairwise_map, CaseMapping.fold_append]
  constructor
  -- two devices in one place are in one folder, and have one name there
  · intro h
    rw [List.pairwise_iff_forall_sublist]
    intro p q hpq hplace
    obtain ⟨hpath, hname⟩ := Prod.ext_iff.1 hplace
    obtain ⟨files, hf⟩ := exists_files (hpq.subset List.mem_cons_self)
    have hnodup := h _ files hf
    rw [List.pairwise_filter, List.pairwise_iff_forall_sublist] at hnodup
    exact hnodup hpq (decide_eq_true rfl) (decide_eq_true hpath.symm) (congrArg _ hname)
  · intro h f files hf
    rw [List.pairwise_filter]
    refine h.imp fun {p q} hne hp hq he => hne (Prod.ext ?_ ?_)
    · exact (of_decide_eq_true hp).trans (of_decide_eq_true hq).symm
    · exact (String.append_right_inj _).1 he

/-! ## Calls that publish no device again -/

/-- The devices of a client that are published, of those that were discovered, are new in the folder
    of the computer: no two are of one logical unit, and none was published there with the same
    name. If the computer is in the list, with another address, there are none. -/
structure NovelDevices (u : CaseMapping) (s : RaqetControl) (c : ClientInfo)
    (computer : ComputerDbEntry) (update : ℕ → WriteIo) (devices : List DiscoveredDevice) :
    Prop where
  distinct : ((exported c update devices).map (·.lun)).Nodup
  before : ∀ device ∈ exported c update devices, ∀ p ∈ s.published, ∀ c', p.clientInfo = some c' →
    p.smbMountPath = smbFolder computer → p.device.lun = device.lun →
    u.equalsIgnoreCase (clientDisk c' p.device.toDiscoveredDevice) (clientDisk c device) = false
  again : (∃ c' ∈ s.clientList, c'.ids = c.ids) → ¬ExportsFirst c update devices

/-- These devices of a direct target can be published: the logical units are different, or
    the names of the targets are, and none was published before. -/
structure NovelTargets (u : CaseMapping) (s : RaqetControl) (devices : List DiscoveredDevice) :
    Prop where
  distinct : devices.Pairwise fun device device' => device.lun = device'.lun →
    u.equalsIgnoreCase (escapeTargetName device.targetName) (escapeTargetName device'.targetName) =
      false
  before : ∀ device ∈ devices, ∀ p ∈ s.published, p.clientInfo = none →
    p.device.lun = device.lun →
    u.equalsIgnoreCase (escapeTargetName p.device.targetName)
      (escapeTargetName device.targetName) = false

/-- The call publishes no device again. -/
def Novel (u : CaseMapping) (s : RaqetControl) : Call → Prop
  | .register ipAddress target env =>
    s.isNew (.ofRegister ipAddress target) = true →
    ∀ computer devices, Reaches s (.ofRegister ipAddress target) env computer devices →
      NovelDevices u s (.ofRegister ipAddress target) computer env.exporting.update devices
  | .addDevice target env =>
    ∀ address devices, TargetAddress.ofString target = .ok address →
      RemoteDeviceManager.listTargets address env.discovery = .ok devices →
      NovelTargets u s (exportedDirectly devices)
  | _ => True

/-- A device was published as one of a direct target, or as one of a client. -/
def Placed (p : Publication) : Prop :=
  match p.clientInfo with
  | none => p.place = ("\\", generateEvidenceFilename p.device.targetName p.device.lun)
  | some c => ∃ computer, p.place = (smbFolder computer, clientEvidenceFilename p.device.lun
      (valueOf c.clientId) (nameOf c p.device.toDiscoveredDevice))

/-- The number of a logical unit has no letters. -/
theorem fold_format04d (hu : u.KeepsDigits) (lun : ℕ) : u.fold (format04d lun) = format04d lun := by
  rw [← String.toList_inj, CaseMapping.fold, String.toList_map]
  refine (List.map_congr_left fun c hc => ?_).trans (List.map_id _)
  exact hu.foldChar (isDigit_of_mem_format04d hc)

theorem fold_clientEvidenceFilename_eq_iff (hu : u.KeepsDigits) :
    u.fold (clientEvidenceFilename device.lun (valueOf c.clientId) (nameOf c device)) =
      u.fold (clientEvidenceFilename device'.lun (valueOf c'.clientId) (nameOf c' device')) ↔
        device.lun = device'.lun ∧
          u.fold (clientDisk c device) = u.fold (clientDisk c' device') := by
  have hfold (lun : ℕ) (clientid deviceName : String) :
      u.fold (clientEvidenceFilename lun clientid deviceName) =
        format04d lun ++ String.singleton (u.foldChar '-') ++
          u.fold (clientid ++ "_" ++ deviceName) ++ u.fold ".dd" := by
    rw [← fold_format04d hu lun, ← CaseMapping.fold_singleton]
    simp only [clientEvidenceFilename, CaseMapping.fold_append, String.append_assoc]
    rfl
  rw [hfold, hfold, String.append_left_inj, format04d_append_inj (hu.isDigit_foldChar rfl)]
  rfl

theorem fold_generateEvidenceFilename_eq_iff (hu : u.KeepsDigits) :
    u.fold (generateEvidenceFilename device.targetName device.lun) =
        u.fold (generateEvidenceFilename device'.targetName device'.lun) ↔
      device.lun = device'.lun ∧ u.fold (escapeTargetName device.targetName) =
        u.fold (escapeTargetName device'.targetName) := by
  have hfold (targetName : String) (lun : ℕ) :
      u.fold (generateEvidenceFilename targetName lun) =
        u.fold (escapeTargetName targetName) ++ String.singleton (u.foldChar '_') ++
          format04d lun ++ u.fold ".dd" := by
    rw [← fold_format04d hu lun, ← CaseMapping.fold_singleton]
    simp only [generateEvidenceFilename, CaseMapping.fold_append, String.append_assoc]
    rfl
  rw [hfold, hfold, String.append_left_inj, append_format04d_inj (hu.isDigit_foldChar rfl),
    and_comm]

/-- The folder of a computer is not the root folder. -/
theorem smbFolder_ne (computer : ComputerDbEntry) : smbFolder computer ≠ "\\" := by
  intro h
  have := congrArg (fun x => x.toList.length) h
  simp [smbFolder] at this

theorem PublishedFor.place (h : PublishedFor c computer device p) :
    p.place = (smbFolder computer,
      clientEvidenceFilename device.lun (valueOf c.clientId) (nameOf c device)) :=
  Prod.ext h.smbMountPath (congrArg RemoteDeviceInfo.evidenceBaseFileName h.device)

theorem SameClient.nameOf (h : SameClient c c') : nameOf c' device = nameOf c device := by
  rw [Raqet.nameOf, Raqet.nameOf, ClientInfo.getDeviceMapping, ClientInfo.getDeviceMapping,
    h.devicemapping]

theorem PublishedFor.placed (h : PublishedFor c computer device p) : Placed p := by
  obtain ⟨c', hc', hsame⟩ := h.client
  rw [Placed, hc']
  refine ⟨computer, h.place.trans ?_⟩
  rw [h.device, hsame.clientId, hsame.nameOf]

/-- A call places what it publishes. -/
theorem Publishes.placed (h : Publishes s a ps) : ∀ p ∈ ps, Placed p := by
  intro p hp
  cases h with
  | client hnew hreaches hps =>
    have hps' : List.Forall₂ (fun p device => Placed p ∧ PublishedFor _ _ device p) ps _ :=
      (hps.imp fun _ _ h => ⟨h.placed, h⟩).flip
    exact ((List.forall₂_and_left _ _).1 hps').1 p hp
  | direct haddress hdevices =>
    obtain ⟨device, -, rfl⟩ := List.mem_map.1 hp
    rfl
  | registered | nothing | diskinfo | createInvestigationCase | createComputer => cases hp

/-- The place of a device of a client. -/
def clientPlace (c : ClientInfo) (computer : ComputerDbEntry) (device : DiscoveredDevice) :
    String × String :=
  (smbFolder computer, clientEvidenceFilename device.lun (valueOf c.clientId) (nameOf c device))

theorem clientPlace_inj (hu : u.KeepsDigits) :
    foldPlace u (clientPlace c computer device) = foldPlace u (clientPlace c computer device') ↔
      device.lun = device'.lun := by
  rw [foldPlace, foldPlace, clientPlace, clientPlace, Prod.mk.injEq, and_iff_right rfl,
    fold_clientEvidenceFilename_eq_iff hu, and_iff_left_iff_imp]
  intro h
  rw [clientDisk, clientDisk, nameOf, nameOf, h]

/-- A device that was published is in another place than one of a client, unless it is of a
    client too. -/
theorem Placed.place_ne_iff (h : Placed p) (hu : u.KeepsDigits) :
    foldPlace u p.place ≠ foldPlace u (clientPlace c computer device) ↔
      ∀ c', p.clientInfo = some c' → p.smbMountPath = smbFolder computer →
        p.device.lun = device.lun →
        u.equalsIgnoreCase (clientDisk c' p.device.toDiscoveredDevice) (clientDisk c device) =
          false := by
  rw [Placed] at h
  cases hp : p.clientInfo with
  | none =>
    rw [hp] at h
    refine iff_of_true (fun he => smbFolder_ne computer ?_) fun c' hc' => nomatch hc'
    exact (congrArg Prod.fst he).symm.trans (congrArg Prod.fst h)
  | some c' =>
    rw [hp] at h
    obtain ⟨computer', h⟩ := h
    have hname : p.place.2 = _ := congrArg Prod.snd h
    rw [Ne, foldPlace, foldPlace, Prod.mk.injEq, hname, clientPlace,
      fold_clientEvidenceFilename_eq_iff hu]
    simp only [Option.some.injEq, forall_eq', CaseMapping.equalsIgnoreCase_eq_false, not_and, Ne]
    rfl

/-- A device that was published is in another place than one of a direct target, unless it
    is of a direct target too. -/
theorem Placed.place_ne_direct_iff (h : Placed p) (hu : u.KeepsDigits) :
    foldPlace u p.place ≠ foldPlace u (publishedDirectly device).place ↔
      (p.clientInfo = none → p.device.lun = device.lun →
        u.equalsIgnoreCase (escapeTargetName p.device.targetName)
          (escapeTargetName device.targetName) = false) := by
  rw [Placed] at h
  cases hp : p.clientInfo with
  | none =>
    rw [hp] at h
    change p.place = _ at h
    have hsplit : foldPlace u p.place = foldPlace u (publishedDirectly device).place ↔
        p.device.lun = device.lun ∧ u.fold (escapeTargetName p.device.targetName) =
          u.fold (escapeTargetName device.targetName) := by
      rw [h, ← fold_generateEvidenceFilename_eq_iff hu]
      exact Prod.mk_right_inj
    rw [Ne, hsplit]
    simp only [forall_const, not_and, CaseMapping.equalsIgnoreCase_eq_false, Ne]
  | some c' =>
    rw [hp] at h
    obtain ⟨computer', h⟩ := h
    refine iff_of_true (fun he => smbFolder_ne computer' ?_) fun hnone => nomatch hnone
    exact (congrArg Prod.fst h).symm.trans (congrArg Prod.fst he)

/-- The places of the devices of a client that were published. -/
theorem map_foldPlace_eq (h : List.Forall₂ (PublishedFor c computer) devices ps) :
    ps.map (fun p => foldPlace u p.place) =
      devices.map fun device => foldPlace u (clientPlace c computer device) :=
  map_eq_of_published h fun _ _ hp => congrArg (foldPlace u) hp.place

theorem nodup_clientPlace_iff (hu : u.KeepsDigits) :
    (devices.map fun device => foldPlace u (clientPlace c computer device)).Nodup ↔
      (devices.map (·.lun)).Nodup := by
  simp only [List.Nodup, List.pairwise_map, Ne, clientPlace_inj hu]

theorem nodup_directPlace_iff (hu : u.KeepsDigits) :
    (devices.map fun device => foldPlace u (publishedDirectly device).place).Nodup ↔
      devices.Pairwise fun device device' => device.lun = device'.lun →
        u.equalsIgnoreCase (escapeTargetName device.targetName)
          (escapeTargetName device'.targetName) = false := by
  rw [List.Nodup, List.pairwise_map]
  refine List.Pairwise.iff fun device device' => ?_
  -- all direct targets are in the root folder
  have hroot : foldPlace u (publishedDirectly device).place =
      foldPlace u (publishedDirectly device').place ↔
        u.fold (generateEvidenceFilename device.targetName device.lun) =
          u.fold (generateEvidenceFilename device'.targetName device'.lun) := Prod.mk_right_inj
  rw [Ne, hroot, fold_generateEvidenceFilename_eq_iff hu, not_and,
    CaseMapping.equalsIgnoreCase_eq_false]

theorem novel_register_iff {ipAddress : String} {target : Register} {env : AddClientEnv}
    (hnew : s.isNew (.ofRegister ipAddress target) = true)
    (hreaches : Reaches s (.ofRegister ipAddress target) env computer devices) :
    Novel u s (.register ipAddress target env) ↔
      NovelDevices u s (.ofRegister ipAddress target) computer env.exporting.update devices := by
  refine ⟨fun h => h hnew computer devices hreaches, fun h _ computer' devices' h' => ?_⟩
  obtain ⟨rfl, rfl⟩ := hreaches.unique h'
  exact h

theorem novel_addDevice_iff {target : String} {env : ExportEnv} {address : TargetAddress}
    (haddress : TargetAddress.ofString target = .ok address)
    (hdevices : RemoteDeviceManager.listTargets address env.discovery = .ok devices) :
    Novel u s (.addDevice target env) ↔ NovelTargets u s (exportedDirectly devices) := by
  refine ⟨fun h => h address devices haddress hdevices, fun h address' devices' ha hd => ?_⟩
  rw [haddress, Except.ok.injEq] at ha
  rw [← ha, hdevices, Except.ok.injEq] at hd
  exact hd ▸ h

/-- What a call publishes is in new places, and nothing is published again, if and only if the
    call is novel. -/
theorem Publishes.novel_iff (h : Publishes s a ps) (hu : u.KeepsDigits)
    (hplaced : ∀ p ∈ s.published, Placed p) (hnodup : AllPlaced u s.published) :
    (AllPlaced u (s.published ++ ps) ∧ ∀ ipAddress target env,
      a = .register ipAddress target env →
      (∃ c ∈ s.clientList, c.ids = (target.clientid, target.hardwareid)) → ps = []) ↔
      Novel u s a := by
  rw [AllPlaced] at hnodup ⊢
  rw [List.map_append, List.nodup_append, and_iff_right hnodup]
  cases h with
  | @client ipAddress target env computer devices _ hnew hreaches hps =>
    have hempty : ps = [] ↔
        ¬ExportsFirst (.ofRegister ipAddress target) env.exporting.update devices := by
      rw [← exported_eq_nil_iff, ← List.length_eq_zero_iff, ← hps.length_eq,
        List.length_eq_zero_iff]
    rw [novel_register_iff hnew hreaches, map_foldPlace_eq hps, nodup_clientPlace_iff hu]
    simp only [List.forall_mem_map]
    constructor
    · rintro ⟨⟨hdistinct, hne⟩, hagain⟩
      exact ⟨hdistinct, fun device hdevice p hp =>
        ((hplaced p hp).place_ne_iff hu).1 (hne p hp device hdevice),
        fun hc => hempty.1 (hagain ipAddress target env rfl hc)⟩
    · rintro ⟨hdistinct, hbefore, hagain⟩
      refine ⟨⟨hdistinct, fun p hp device hdevice =>
        ((hplaced p hp).place_ne_iff hu).2 (hbefore device hdevice p hp)⟩, ?_⟩
      rintro _ _ _ ⟨⟩ hc
      exact hempty.2 (hagain hc)
  | @direct target env address devices haddress hdevices =>
    rw [novel_addDevice_iff haddress hdevices, List.map_map,
      show ((fun p => foldPlace u p.place) ∘ publishedDirectly) =
        fun device => foldPlace u (publishedDirectly device).place from rfl,
      nodup_directPlace_iff hu]
    simp only [List.forall_mem_map]
    constructor
    · rintro ⟨⟨hdistinct, hne⟩, -⟩
      exact ⟨hdistinct, fun device hdevice p hp =>
        ((hplaced p hp).place_ne_direct_iff hu).1 (hne p hp device hdevice)⟩
    · rintro ⟨hdistinct, hbefore⟩
      exact ⟨⟨hdistinct, fun p hp device hdevice =>
        ((hplaced p hp).place_ne_direct_iff hu).2 (hbefore device hdevice p hp)⟩, nofun⟩
  -- nothing is published
  | registered h =>
    refine iff_of_true ⟨⟨List.nodup_nil, fun _ _ _ h => nomatch h⟩, fun _ _ _ _ _ => rfl⟩
      fun hnew computer devices hr => ?_
    rcases h with h | h
    · rw [hnew] at h
      cases h
    · exact absurd ⟨computer, devices, hr⟩ h
  | nothing h =>
    exact iff_of_true ⟨⟨List.nodup_nil, fun _ _ _ h => nomatch h⟩, nofun⟩
      fun address devices ha hd => absurd hd (h address devices ha)
  | diskinfo | createInvestigationCase | createComputer =>
    exact iff_of_true ⟨⟨List.nodup_nil, fun _ _ _ h => nomatch h⟩, nofun⟩ trivial

/-! ## Runs -/

theorem placed_call (hplaced : ∀ p ∈ s.published, Placed p) (a : Call) :
    ∀ p ∈ (s.call a).2.published, Placed p := by
  obtain ⟨ps, hpublished, hps⟩ := call_published s a
  rw [hpublished]
  exact List.forall_mem_append.2 ⟨hplaced, hps.placed⟩

theorem exportsOnce_iff (hu : u.KeepsDigits) (hplaced : ∀ p ∈ s.published, Placed p)
    (hnodup : AllPlaced u s.published) : ExportsOnce u s a ↔ Novel u s a := by
  obtain ⟨ps, hpublished, hps⟩ := call_published s a
  rw [← hps.novel_iff hu hplaced hnodup, ← hpublished, ← noDuplicates_iff_nodup]
  have hnil : (s.call a).2.published = s.published ↔ ps = [] := by
    rw [hpublished, List.append_right_eq_self]
  constructor
  · rintro ⟨hno, hagain⟩
    exact ⟨hno, fun ipAddress target env ha hc => hnil.1 (hagain ipAddress target env ha hc)⟩
  · rintro ⟨hno, hagain⟩
    exact ⟨hno, fun ipAddress target env ha hc => hnil.2 (hagain ipAddress target env ha hc)⟩

/-- No call of a run publishes a device again, if and only if every call is novel. -/
theorem noDuplicates_iff {evidenceDirectory : File} {fs : Disk} {io : InsertIo} {l : List Call}
    (hu : u.KeepsDigits) :
    Transition.AllSteps step (ExportsOnce u) (.new evidenceDirectory fs io) l ↔
      Transition.AllSteps step (Novel u) (.new evidenceDirectory fs io) l := by
  refine Transition.allSteps_iff (I := fun s => (∀ p ∈ s.published, Placed p) ∧
    AllPlaced u s.published) ?_ ?_ ⟨List.forall_mem_nil _, List.nodup_nil⟩
  · rintro s a t ⟨hplaced, hnodup⟩ hstep hnovel
    cases hstep
    exact ⟨placed_call hplaced a, noDuplicates_iff_nodup.1
      ((exportsOnce_iff hu hplaced hnodup).2 hnovel).noDuplicates⟩
  · exact fun s a hs => exportsOnce_iff hu hs.1 hs.2

/-- A client registers from this address, with its first logical unit at a portal there. -/
def registersFrom (ipAddress : String) : Call :=
  .register ipAddress ⟨"client", "hardware", [⟨"sda", 0⟩]⟩
    ⟨readable, readable, .ok, readable, ⟨false, .ok⟩, .ok, discovers 0 ["iqn.a"]⟩

/-- A client that registers twice from one address, and a direct target. -/
theorem noDuplicates_once : Transition.AllSteps step (ExportsOnce .ascii)
    (.new (File.ofPath "/var/raqet") emptyEvidence ⟨false, .ok⟩)
    [registersFrom "10.0.0.2", registersFrom "10.0.0.2",
      .addDevice "10.0.0.3:3260" (discovers 0 ["iqn.b"])] := by
  have hu := CaseMapping.keepsDigits_ascii
  have hplaced : ∀ p ∈ (serverAfter []).published, Placed p := List.forall_mem_nil _
  have hplaced' := placed_call (placed_call hplaced (registersFrom "10.0.0.2"))
    (registersFrom "10.0.0.2")
  refine (noDuplicates_iff hu).2 ⟨?_, fun t ht => ⟨?_, fun t' ht' => ⟨?_, fun _ _ => trivial⟩⟩⟩
  · refine (exportsOnce_iff hu hplaced List.nodup_nil).1 ⟨noDuplicates_iff_nodup.2 ?_, ?_⟩
    · decide +kernel
    · rintro _ _ _ - ⟨c, hc, -⟩
      cases hc
  · -- the client is in the list
    cases ht
    have hlisted : (serverAfter [registersFrom "10.0.0.2"]).isNew (.ofRegister "10.0.0.2"
        ⟨"client", "hardware", [⟨"sda", 0⟩]⟩) = false := by
      decide +kernel
    exact fun hnew => absurd (hlisted.symm.trans hnew) Bool.false_ne_true
  · cases ht
    cases ht'
    refine (exportsOnce_iff hu hplaced' ?_).1 ⟨noDuplicates_iff_nodup.2 ?_, nofun⟩
    · decide +kernel
    · decide +kernel

/-- A client that registers again from another address has its device published again. -/
theorem duplicated_address :
    ¬∀ (u : CaseMapping) (evidenceDirectory : File) (fs : Disk) (io : InsertIo) (l : List Call),
      u.KeepsDigits → (∀ a ∈ l, ∃ ipAddress target env, a = .register ipAddress target env) →
        Transition.AllSteps step (ExportsOnce u) (.new evidenceDirectory fs io) l := by
  intro h
  obtain ⟨-, hsecond⟩ := h .ascii (File.ofPath "/var/raqet") emptyEvidence ⟨false, .ok⟩
    [registersFrom "10.0.0.2", registersFrom "10.0.0.3"] CaseMapping.keepsDigits_ascii
    (by simp [registersFrom])
  refine absurd (noDuplicates_iff_nodup.1 (hsecond _ rfl).1.noDuplicates) ?_
  decide +kernel

end Raqet
