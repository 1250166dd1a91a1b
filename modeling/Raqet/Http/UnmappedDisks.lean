import Raqet.Http.Publishing

/-!
# Disks without a name

A client sends names for some of its logical units. The loop that publishes the devices that
are discovered at the client looks each of them up, and a device that the client has no name
for ends it with a `NullPointerException`: the devices after it are not published, and their
names do not get into the list of disks of the computer. A negative size ends it too.

If neither occurs, every device is published once in the folder of the computer, and the
names that are new are added to the list, each once and in order (`exportDevices_all`). So
what is expected of the loop holds exactly when every device has a name and no size is
negative (`exportsNamed_iff`).
-/

namespace Raqet

open Java FileSystem InvestigationCaseDB RaqetControl

/-- The disks in the entry of a computer, as they are stored in its folder. -/
def storedDisks (fs : Disk) (folder : File) : Option (List String) :=
  match fs.read (folder.child computerEntryName) with
  | some (.file content) => content.computer.map (·.disks)
  | _ => none

/-- The names that are not in the list, in the order in which they first occur. -/
def newNames (disks names : List String) : List String :=
  (names.filter fun name => decide (name ∉ disks)).eraseDups

/-- The devices that the client has a name for. -/
def named (c : ClientInfo) (devices : List DiscoveredDevice) : List DiscoveredDevice :=
  devices.filter fun device => (c.getDeviceMapping device.lun).isSome

/-- The devices that the client has a name for are published once in the folder of its
    computer, after those that were `published`, and the computer has got their names. -/
structure ExportsNamed (c : ClientInfo) (computer : ComputerDbEntry)
    (devices : List DiscoveredDevice) (published : List Publication)
    (result : Except Exn Unit × Exporting) : Prop where
  ends : result.1 = .ok ()
  published : ∃ ps, result.2.published = published ++ ps ∧
    List.Forall₂ (PublishedFor c computer) (named c devices) ps
  disks : storedDisks result.2.fs computer.baseStorageFolder =
    some (computer.disks ++ newNames computer.disks ((named c devices).map (nameOf c)))

variable {fs : Disk} {c c' : ClientInfo} {computer : ComputerDbEntry} {device : DiscoveredDevice}
  {devices : List DiscoveredDevice} {published : List Publication} {update : ℕ → WriteIo}
  {io : WriteIo}

/-! ## The list of disks -/

theorem Stored.disks (h : Stored fs computer) :
    storedDisks fs computer.baseStorageFolder = some computer.disks := by
  obtain ⟨dir, content, hlocate, hdir, hnode, hcontent⟩ := h.entry
  rw [storedDisks, FileSystem.read, locate_child h.names isName_computerEntryName, hlocate,
    Option.bind_some, if_pos hdir, Option.bind_some, hnode]
  dsimp only
  rw [hcontent]
  rfl

theorem newNames_nil (disks : List String) : newNames disks [] = [] := rfl

theorem newNames_cons_of_mem {disks names : List String} {name : String} (h : name ∈ disks) :
    newNames disks (name :: names) = newNames disks names := by
  rw [newNames, List.filter_cons_of_neg (by simpa using h), newNames]

theorem newNames_cons_of_notMem {disks names : List String} {name : String} (h : name ∉ disks) :
    newNames disks (name :: names) = name :: newNames (disks ++ [name]) names := by
  rw [newNames, List.filter_cons_of_pos (by simpa using h), List.eraseDups_cons, newNames,
    List.filter_filter]
  congr 2
  refine List.filter_congr fun other _ => ?_
  rw [Bool.eq_iff_iff]
  simp [and_comm]

theorem notMem_of_mem_newNames {disks names : List String} {name : String}
    (h : name ∈ newNames disks names) : name ∉ disks :=
  of_decide_eq_true (List.mem_filter.1 (List.mem_eraseDups.1 h)).2

/-- No new name is there twice. -/
theorem nodup_newNames (disks names : List String) : (newNames disks names).Nodup := by
  induction names generalizing disks with
  | nil => exact List.nodup_nil
  | cons name names ih =>
    by_cases h : name ∈ disks
    · rw [newNames_cons_of_mem h]
      exact ih disks
    · rw [newNames_cons_of_notMem h, List.nodup_cons]
      exact ⟨fun hmem => notMem_of_mem_newNames hmem (by simp), ih _⟩

/-- Adding names to a computer. -/
theorem disks_foldl_addDisk (names : List String) (computer : ComputerDbEntry) :
    (names.foldl ComputerDbEntry.addDisk computer).disks =
      computer.disks ++ newNames computer.disks names := by
  induction names generalizing computer with
  | nil => rw [newNames_nil, List.append_nil, List.foldl_nil]
  | cons name names ih =>
    rw [List.foldl_cons, ih, ComputerDbEntry.addDisk]
    by_cases h : name ∈ computer.disks
    · rw [if_pos h, newNames_cons_of_mem h]
    · rw [if_neg h, newNames_cons_of_notMem h, List.append_assoc, List.singleton_append]

/-! ## Publishing -/

/-- An entry is stored by an update that does not fail. -/
theorem Writable.update_stored (h : Writable fs computer.baseStorageFolder) :
    ∃ fs', InvestigationCaseDB.update fs .ok computer = (.ok (), fs') ∧ Stored fs' computer := by
  rcases h.update_cases .ok with ⟨-, hu⟩ | ⟨hne, -⟩
  · have hupdate : InvestigationCaseDB.update fs .ok computer =
        (.ok (), (InvestigationCaseDB.update fs .ok computer).2) := Prod.ext hu rfl
    exact ⟨_, hupdate, stored_insert h.1 hupdate⟩
  · exact absurd rfl hne

/-- A device that can be published is, and its name is stored. -/
theorem exportDevice_stored (published : List Publication)
    (hc : c.computerDbEntry = some computer) (hstored : Stored fs computer)
    (he : Exportable c device) :
    ∃ fs' c' p, exportDevice .ok device ⟨fs, some c, published⟩ =
        (.next, ⟨fs', some c', published ++ [p]⟩) ∧ SameClient c c' ∧
      c'.computerDbEntry = some (computer.addDisk (nameOf c device)) ∧
      Stored fs' (computer.addDisk (nameOf c device)) ∧ PublishedFor c computer device p := by
  obtain ⟨hsize, hmap⟩ := he
  obtain ⟨mapping, hm⟩ := Option.isSome_iff_exists.1 hmap
  have hname : nameOf c device = mapping.device := by rw [nameOf, hm]; rfl
  obtain ⟨hfolder, -⟩ := addDisk_folder computer mapping.device
  have hw : Writable fs (computer.addDisk mapping.device).baseStorageFolder :=
    hfolder ▸ hstored.writable
  obtain ⟨fs', hupdate, hstored'⟩ := hw.update_stored
  rw [exportDevice, argNotNegative_ok (show 0 ≤ toLong _ from hsize)]
  dsimp only
  rw [hc, hm]
  dsimp only
  rw [hupdate, hname]
  refine ⟨fs', _, _, rfl, ⟨rfl, rfl, rfl, rfl⟩, rfl, hstored', ?_⟩
  exact ⟨⟨_, rfl, ⟨rfl, rfl, rfl, rfl⟩⟩, rfl, by rw [hname, hfolder]⟩

/-- One that cannot be published ends the loop with an exception. -/
theorem exportDevice_throws (published : List Publication) (hno : ¬Exportable c device) :
    ∃ e x, exportDevice io device ⟨fs, some c, published⟩ = (.throws e, x) := by
  rw [exportDevice]
  by_cases hsize : device.capacity.sizeInBytes < 0
  · rw [argNotNegative, if_pos (show toLong _ < 0 from hsize)]
    exact ⟨_, _, rfl⟩
  rw [argNotNegative_ok (show 0 ≤ toLong _ from not_lt.1 hsize)]
  have hm : c.getDeviceMapping device.lun = none := by
    rw [← Option.not_isSome_iff_eq_none]
    exact fun hmap => hno ⟨not_lt.1 hsize, hmap⟩
  dsimp only
  rw [hm]
  exact ⟨_, _, rfl⟩

/-- The client and its computer stay the same, but for the names of disks. -/
theorem nameOf_congr (h : SameClient c c') : nameOf c' = nameOf c := by
  funext device
  rw [nameOf, nameOf, ClientInfo.getDeviceMapping, ClientInfo.getDeviceMapping, h.devicemapping]

/-- If all devices can be published, all of them are, and their names are stored. -/
theorem exportDevices_all (devices : List DiscoveredDevice) (published : List Publication)
    (hupdate : ∀ n, update n = .ok) (hc : c.computerDbEntry = some computer)
    (hstored : Stored fs computer) (hall : ∀ device ∈ devices, Exportable c device) :
    ∃ fs' c' ps, exportDevices update devices ⟨fs, some c, published⟩ =
        (.ok (), ⟨fs', some c', published ++ ps⟩) ∧
      List.Forall₂ (PublishedFor c computer) devices ps ∧
      Stored fs' ((devices.map (nameOf c)).foldl ComputerDbEntry.addDisk computer) := by
  induction devices generalizing update fs c computer published with
  | nil => exact ⟨fs, c, [], by rw [List.append_nil]; rfl, .nil, hstored⟩
  | cons device devices ih =>
    rw [List.forall_mem_cons] at hall
    obtain ⟨fs', c', p, hnext, hsame, hc', hstored', hp⟩ :=
      exportDevice_stored published hc hstored hall.1
    obtain ⟨fs'', c'', ps, hrest, hps, hstored''⟩ :=
      ih (published ++ [p]) (fun n => hupdate (n + 1)) hc' hstored'
        fun device hdevice => (exportable_congr hsame).2 (hall.2 device hdevice)
    obtain ⟨hfolder, hcase⟩ := addDisk_folder computer (nameOf c device)
    refine ⟨fs'', c'', p :: ps, ?_, .cons hp (hps.imp fun _ _ h => h.congr hsame hfolder hcase), ?_⟩
    · rw [exportDevices, hupdate, hnext]
      dsimp only
      rw [hrest, List.append_assoc, List.singleton_append]
    · rw [List.map_cons, List.foldl_cons, ← nameOf_congr hsame]
      exact nameOf_congr hsame ▸ hstored''

/-- If the loop ends normally, all devices could be published. -/
theorem exportable_of_ok (published : List Publication) (hupdate : ∀ n, update n = .ok)
    (hc : c.computerDbEntry = some computer) (hstored : Stored fs computer)
    (h : (exportDevices update devices ⟨fs, some c, published⟩).1 = .ok ()) :
    ∀ device ∈ devices, Exportable c device := by
  induction devices generalizing update fs c computer published with
  | nil => exact List.forall_mem_nil _
  | cons device devices ih =>
    rw [exportDevices, hupdate] at h
    by_cases he : Exportable c device
    · obtain ⟨fs', c', p, hnext, hsame, hc', hstored', -⟩ :=
        exportDevice_stored published hc hstored he
      rw [hnext] at h
      have hrest := ih (published ++ [p]) (fun n => hupdate (n + 1)) hc' hstored' h
      exact List.forall_mem_cons.2
        ⟨he, fun device hdevice => (exportable_congr hsame).1 (hrest device hdevice)⟩
    · obtain ⟨e, x, hthrows⟩ : ∃ e x, exportDevice .ok device ⟨fs, some c, published⟩ =
          (.throws e, x) := exportDevice_throws published he
      rw [hthrows] at h
      cases h

/-- The folder of a computer that gets disks. -/
theorem foldl_addDisk_folder (names : List String) (computer : ComputerDbEntry) :
    (names.foldl ComputerDbEntry.addDisk computer).baseStorageFolder =
      computer.baseStorageFolder := by
  induction names generalizing computer with
  | nil => rfl
  | cons name names ih => rw [List.foldl_cons, ih, (addDisk_folder computer name).1]

/-- For every client that is bound to a computer that is stored, and every list of devices
    discovered at an address, without failing updates: the devices that the client has a name
    for are published, and their names stored, and the call ends normally, if and only if
    the client has a name for every device, and no size is negative. -/
theorem exportsNamed_iff (targetAddress : TargetAddress) (env : ExportEnv)
    (published : List Publication) (hc : c.computerDbEntry = some computer)
    (hstored : Stored fs computer) (hupdate : ∀ n, env.update n = .ok)
    (hdevices : RemoteDeviceManager.listTargets targetAddress env.discovery = .ok devices) :
    ExportsNamed c computer devices published
        (addRemoteDevice targetAddress env ⟨fs, some c, published⟩) ↔
      ∀ device ∈ devices, Exportable c device := by
  rw [addRemoteDevice, hdevices]
  dsimp only
  constructor
  · exact fun h => exportable_of_ok published hupdate hc hstored h.ends
  · intro hall
    obtain ⟨fs', c', ps, hall', hps, hstored'⟩ :=
      exportDevices_all devices published hupdate hc hstored hall
    have hnamed : named c devices = devices := List.filter_eq_self.2 fun d hd => (hall d hd).2
    rw [hall']
    refine ⟨rfl, ⟨ps, rfl, by rwa [hnamed]⟩, ?_⟩
    rw [hnamed, ← disks_foldl_addDisk, ← foldl_addDisk_folder ((devices.map (nameOf c))) computer]
    exact hstored'.disks

/-! ## A client with two disks -/

/-- A computer that has the disk `sda`. -/
def computerWithDisk : ComputerDbEntry :=
  ⟨{ disks := ["sda"] }, File.ofPath "/var/raqet/case/computer", "case\\computer"⟩

/-- Its entry is in its folder. -/
def diskWithComputer : Disk :=
  ((emptyEvidence.set ["var", "raqet", "case"] .directory).set
    ["var", "raqet", "case", "computer"] .directory).set
      ["var", "raqet", "case", "computer", computerEntryName]
      (.file ⟨none, some computerWithDisk.toComputerFields⟩)

/-- A client that is bound to the computer, with names for these logical units. -/
def clientWithNames (devicemapping : List Devicemapping) : ClientInfo :=
  { (ClientInfo.new "client" "hardware" "10.0.0.2").setDevicemapping devicemapping with
    computerDbEntry := some computerWithDisk }

/-- Two logical units are discovered. -/
def discoversTwo : ExportEnv :=
  ⟨.ok [⟨"iqn.a", none, [("10.0.0.2:3260,1",
    .luns [⟨0, none, .good (99, 512)⟩, ⟨1, none, .good (99, 512)⟩] none)], none⟩], fun _ => .ok⟩

/-- The devices at these logical units. -/
def twoDevices : List DiscoveredDevice :=
  [⟨"10.0.0.2:3260,1", "iqn.a", 0, ⟨99, 512⟩, ⟨"10.0.0.2:3260", "", ""⟩⟩,
    ⟨"10.0.0.2:3260,1", "iqn.a", 1, ⟨99, 512⟩, ⟨"10.0.0.2:3260", "", ""⟩⟩]

theorem stored_computerWithDisk : Stored diskWithComputer computerWithDisk := by
  refine ⟨by decide +kernel, ["var", "raqet", "case", "computer"],
    ⟨none, some computerWithDisk.toComputerFields⟩, ?_⟩
  exact ⟨by decide +kernel, by decide +kernel, rfl, rfl⟩

/-- The client has a name for both. -/
theorem exportsNamed_two : ExportsNamed (clientWithNames [⟨"sda", 0⟩, ⟨"sdb", 1⟩])
    computerWithDisk twoDevices [] (addRemoteDevice ⟨"10.0.0.2:3260", "", ""⟩ discoversTwo
      ⟨diskWithComputer, some (clientWithNames [⟨"sda", 0⟩, ⟨"sdb", 1⟩]), []⟩) :=
  (exportsNamed_iff ⟨"10.0.0.2:3260", "", ""⟩ discoversTwo [] rfl stored_computerWithDisk
    (fun _ => rfl) rfl).2 (by decide +kernel)

/-- The client has no name for the first: the call throws, and the second is not published,
    nor its name stored. -/
theorem not_exportsNamed_second :
    (addRemoteDevice ⟨"10.0.0.2:3260", "", ""⟩ discoversTwo
        ⟨diskWithComputer, some (clientWithNames [⟨"sdb", 1⟩]), []⟩).1 = .error .nullPointer ∧
      ¬ExportsNamed (clientWithNames [⟨"sdb", 1⟩]) computerWithDisk twoDevices []
        (addRemoteDevice ⟨"10.0.0.2:3260", "", ""⟩ discoversTwo
          ⟨diskWithComputer, some (clientWithNames [⟨"sdb", 1⟩]), []⟩) := by
  have hthrows : (addRemoteDevice ⟨"10.0.0.2:3260", "", ""⟩ discoversTwo
      ⟨diskWithComputer, some (clientWithNames [⟨"sdb", 1⟩]), []⟩).1 = .error .nullPointer := by
    decide +kernel
  refine ⟨hthrows, fun h => ?_⟩
  have hends := h.ends
  rw [hthrows] at hends
  cases hends

end Raqet
