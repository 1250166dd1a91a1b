import Raqet.Http.Restarts
import Raqet.Http.UnmappedDisks

/-!
# The records of disks

The entry of a computer lists the disks that were published for its client. A registration
reads the entry again before it writes it, and writes to no other one. So an entry stays what
it is: it keeps its names and its client, gets hardware at most once, and only gets more
disks, each once (`Becomes`).

This holds in every run, restarts included, whatever fails in it, as long as no update of an
entry stops in the middle; and every disk that was published for a client is listed
(`keeps_disks`).
-/

namespace Raqet

open Java FileSystem InvestigationCaseDB RaqetControl

/-- `getDisks(caseName, computerName)`. -/
def RaqetControl.getDisks (s : RaqetControl) (env : ReadEnv) (caseName computerName : String) :
    Except Exn (List String) :=
  (s.investigationCaseDB.getComputer s.fs env caseName computerName).map fun entry => entry.disks

/-- The entry of a computer in a directory. -/
structure EntryAt (fs : Disk) (dir : List String) (fields : ComputerFields) : Prop where
  isDirectory : fs.isDirectoryAt dir = true
  entry : ∃ content, fs.node (dir ++ [computerEntryName]) = some (.file content) ∧
    content.computer = some fields

/-- What may become of an entry: it gets hardware if it has none, and more disks. -/
structure Becomes (fields fields' : ComputerFields) : Prop where
  urlcomputerName : fields'.urlcomputerName = fields.urlcomputerName
  computerName : fields'.computerName = fields.computerName
  clientId : fields'.clientId = fields.clientId
  hardwareId : fields.hardwareId ≠ "" → fields'.hardwareId = fields.hardwareId
  disks : fields.disks <+: fields'.disks
  nodup : fields.disks.Nodup → fields'.disks.Nodup

/-- Every entry stays, or becomes another one. -/
def EntriesGrow (fs fs' : Disk) : Prop :=
  ∀ dir fields, EntryAt fs dir fields → ∃ fields', EntryAt fs' dir fields' ∧ Becomes fields fields'

/-- No update of an entry stops in the middle. -/
def RaqetControl.Call.UpdatesWhole : Call → Prop
  | .register _ _ env => env.update ≠ .stops false ∧ ∀ n, env.exporting.update n ≠ .stops false
  | _ => True

/-- No update of an entry stops in the middle. -/
def Operation.UpdatesWhole : Operation → Prop
  | .call c => c.UpdatesWhole
  | .restart _ => True

/-- If the device was published for a client, the entry in the directory of its evidence
    lists it. -/
def Recorded (fs : Disk) (p : Publication) : Prop :=
  ∀ c ∈ p.clientInfo, ∃ dir fields, fs.locate p.device.evidenceDirectory = some dir ∧
    EntryAt fs dir fields ∧ nameOf c p.device.toDiscoveredDevice ∈ fields.disks

variable {fs fs' fs'' : Disk} {dir dir' loc : List String} {n : Node Content} {f folder : File}
  {fields fields' fields'' : ComputerFields} {computer computer' : ComputerDbEntry} {io : WriteIo}
  {content : Content} {p : Publication} {P : List String → Node Content → Prop}
  {db : InvestigationCaseDB} {env env' : ReadEnv} {caseName computerName : String}
  {c : ClientInfo} {x : Exporting} {s t : RaqetControl}

/-! ## Entries -/

@[refl] theorem Becomes.refl (fields : ComputerFields) : Becomes fields fields :=
  ⟨rfl, rfl, rfl, fun _ => rfl, List.prefix_rfl, id⟩

theorem Becomes.trans (h : Becomes fields fields') (h' : Becomes fields' fields'') :
    Becomes fields fields'' where
  urlcomputerName := h'.urlcomputerName.trans h.urlcomputerName
  computerName := h'.computerName.trans h.computerName
  clientId := h'.clientId.trans h.clientId
  hardwareId hne := by
    have heq := h.hardwareId hne
    exact (h'.hardwareId (heq ▸ hne)).trans heq
  disks := h.disks.trans h'.disks
  nodup hnodup := h'.nodup (h.nodup hnodup)

/-- An entry without hardware gets that of a client. -/
theorem becomes_claimed (h : fields.hardwareId = "") (hardwareId : String) :
    Becomes fields { fields with hardwareId } :=
  ⟨rfl, rfl, rfl, fun hne => absurd h hne, List.prefix_rfl, id⟩

/-- An entry gets a disk. -/
theorem becomes_addDisk (computer : ComputerDbEntry) (name : String) :
    Becomes computer.toComputerFields (computer.addDisk name).toComputerFields := by
  rw [ComputerDbEntry.addDisk]
  split_ifs with hmem
  · rfl
  · refine ⟨rfl, rfl, rfl, fun _ => rfl, List.prefix_append _ _, fun hnodup => ?_⟩
    exact List.Nodup.append hnodup (List.nodup_singleton name)
      (List.disjoint_singleton.2 hmem)

theorem mem_addDisk (computer : ComputerDbEntry) (name : String) :
    name ∈ (computer.addDisk name).disks := by
  rw [ComputerDbEntry.addDisk]
  split_ifs with hmem
  · exact hmem
  · exact List.mem_append_right _ (List.mem_singleton_self name)

/-- There is one entry in a directory. -/
theorem EntryAt.unique (h : EntryAt fs dir fields) (h' : EntryAt fs dir fields') :
    fields = fields' := by
  obtain ⟨content, hnode, hfields⟩ := h.entry
  obtain ⟨content', hnode', hfields'⟩ := h'.entry
  obtain rfl : content = content' := by
    rw [hnode, Option.some.injEq, Node.file.injEq] at hnode'
    exact hnode'
  exact Option.some.inj (hfields.symm.trans hfields')

theorem Stored.entryAt (h : Stored fs computer) :
    ∃ dir, fs.locate computer.baseStorageFolder = some dir ∧
      EntryAt fs dir computer.toComputerFields := by
  obtain ⟨dir, content, hlocate, hdir, hnode, hcontent⟩ := h.entry
  exact ⟨dir, hlocate, hdir, content, hnode, hcontent⟩

/-! ## Reading -/

theorem EntryAt.of_getComputer (h : db.getComputer fs env caseName computerName = .ok computer) :
    ∃ dir, fs.locate ((db.baseDbPath.child caseName).child computerName) = some dir ∧
      EntryAt fs dir computer.toComputerFields := by
  rw [InvestigationCaseDB.getComputer] at h
  obtain ⟨fields, hfields, rfl⟩ := map_eq_ok.1 h
  obtain ⟨content, hread, hcontent⟩ := readValue_eq_ok hfields
  rw [FileSystem.read, locate_child_of_path (path_child _ _) isName_computerEntryName] at hread
  obtain ⟨loc, hloc, hnode⟩ := Option.bind_eq_some_iff.1 hread
  obtain ⟨dir, hlocate, hif⟩ := Option.bind_eq_some_iff.1 hloc
  split_ifs at hif with hdir
  cases hif
  exact ⟨dir, hlocate, hdir, content, hnode, hcontent⟩

theorem EntryAt.getComputer (h : EntryAt fs dir fields) (henv : env.Works)
    (hlocate : fs.locate ((db.baseDbPath.child caseName).child computerName) = some dir) :
    ∃ computer, db.getComputer fs env caseName computerName = .ok computer ∧
      computer.toComputerFields = fields := by
  obtain ⟨content, hnode, hcontent⟩ := h.entry
  have hread : fs.read (((db.baseDbPath.child caseName).child computerName).child
      computerEntryName) = some (.file content) := by
    rw [FileSystem.read, locate_child_of_path (path_child _ _) isName_computerEntryName, hlocate,
      Option.bind_some, if_pos h.isDirectory, Option.bind_some, hnode]
  refine ⟨⟨fields, (db.baseDbPath.child caseName).child computerName,
    caseName ++ "\\" ++ fields.urlcomputerName⟩, ?_, rfl⟩
  rw [InvestigationCaseDB.getComputer, readValue, hread]
  dsimp only
  rw [hcontent]
  dsimp only
  rw [henv.readable, if_neg Bool.false_ne_true]
  rfl

/-! ## Changes -/

/-- Nothing is written over the entry. -/
theorem EntryAt.later (h : EntryAt fs dir fields)
    (hl : Later (fun loc _ => loc ≠ dir ++ [computerEntryName]) fs fs') :
    EntryAt fs' dir fields := by
  refine ⟨hl.isDirectoryAt h.isDirectory, ?_⟩
  exact hl.node (R := fun n => ∃ content, n = some (.file content) ∧ content.computer = some fields)
    h.entry fun _ hne => absurd rfl hne

/-- Files of other names are written. -/
theorem EntryAt.later_other (h : EntryAt fs dir fields)
    (hl : Later (fun loc _ => loc.getLast? ≠ some computerEntryName) fs fs') :
    EntryAt fs' dir fields := by
  refine h.later (hl.mono fun loc _ hlast => ?_)
  rintro rfl
  exact hlast List.getLast?_concat

/-- A directory is made where nothing is. -/
theorem EntryAt.mkdir {fails : Bool} (h : EntryAt fs dir fields) :
    EntryAt (fs.mkdir fails f) dir fields := by
  rw [FileSystem.mkdir]
  split
  next loc _ =>
    split_ifs with hif
    · exact h
    · have hnone : fs.node loc = none := by
        simpa using (not_or.1 (mt Bool.or_eq_true_iff.2 hif)).2
      refine h.later (Later.refl.set ?_ ?_)
      · rw [isDirectoryAt, hnone]
      · rintro rfl
        obtain ⟨content, hnode, -⟩ := h.entry
        rw [hnone] at hnode
        cases hnode
  next => exact h

theorem EntriesGrow.refl (fs : Disk) : EntriesGrow fs fs := fun _ fields h => ⟨fields, h, .refl _⟩

theorem EntriesGrow.trans (h : EntriesGrow fs fs') (h' : EntriesGrow fs' fs'') :
    EntriesGrow fs fs'' := by
  intro dir fields hentry
  obtain ⟨fields', hentry', hbecomes⟩ := h dir fields hentry
  obtain ⟨fields'', hentry'', hbecomes'⟩ := h' dir fields' hentry'
  exact ⟨fields'', hentry'', hbecomes.trans hbecomes'⟩

theorem entriesGrow_later
    (h : Later (fun loc _ => loc.getLast? ≠ some computerEntryName) fs fs') :
    EntriesGrow fs fs' := fun _ fields hentry => ⟨fields, hentry.later_other h, .refl _⟩

theorem later_write_name {name : String} (hname : File.IsName name)
    (hne : name ≠ computerEntryName) :
    Later (fun loc _ => loc.getLast? ≠ some computerEntryName) fs
      (fs.write io (f.child name) content).2 := by
  refine later_write fun loc hloc => ?_
  obtain ⟨dir, rfl⟩ := locate_last (File.names_child_of_isSegment hname.1) hname.2 hloc
  rw [List.getLast?_concat]
  exact ⟨fun h => hne (Option.some.inj h), fun h => hne (Option.some.inj h)⟩

theorem entriesGrow_mkdir {fails : Bool} : EntriesGrow fs (fs.mkdir fails f) :=
  fun _ fields h => ⟨fields, h.mkdir, .refl _⟩

/-- A computer is created in a directory that was not there. -/
theorem entriesGrow_createComputer (db : InvestigationCaseDB) (fs : Disk) (env : ReadEnv)
    (insert : InsertIo) (caseName : String) (fields : ComputerFields) :
    EntriesGrow fs (db.createComputer fs env insert caseName fields).2 := by
  cases hnew : db.newFolder fs env caseName fields with
  | none =>
    obtain ⟨e, he⟩ := createComputer_of_none insert hnew
    rw [he]
    exact .refl fs
  | some folder =>
    obtain ⟨entry, -, rfl, hex⟩ := newFolder_eq_some hnew
    have hnames := names_ne_nil hex
    rw [createComputer_of_some insert hnew, writeValue_snd]
    intro dir fields' h
    refine ⟨fields', h.mkdir.later (later_write fun loc hloc => ?_), .refl _⟩
    rw [locate_child hnames isName_computerEntryName, locate_mkdir] at hloc
    obtain ⟨dir', hlocate, hif⟩ := Option.bind_eq_some_iff.1 hloc
    split_ifs at hif
    cases hif
    -- the entries that there are are in other directories
    suffices hne : dir' ≠ dir by
      have hne' : dir' ++ [computerEntryName] ≠ dir ++ [computerEntryName] :=
        fun he => hne (List.append_cancel_right he)
      exact ⟨hne', hne'⟩
    rintro rfl
    rw [FileSystem.exists, FileSystem.read, hlocate, Option.bind_some,
      isDirectoryAt_iff.1 h.isDirectory] at hex
    cases hex

theorem entriesGrow_createCase (insert : InsertIo) (entry : InvestigationCaseDbEntry) :
    EntriesGrow fs (db.createCase fs insert entry).2 := by
  rw [createCase]
  split_ifs
  · exact .refl fs
  · rw [writeValue_snd]
    exact entriesGrow_mkdir.trans
      (entriesGrow_later (later_write_name (by decide +kernel) (by decide +kernel)))

/-- An entry is updated. -/
theorem Stored.update_grows (h : Stored fs computer)
    (hfolder : computer'.baseStorageFolder = computer.baseStorageFolder)
    (hbecomes : Becomes computer.toComputerFields computer'.toComputerFields)
    (hio : io ≠ .stops false) : EntriesGrow fs (update fs io computer').2 := by
  obtain ⟨dir, hlocate, hentry⟩ := h.entryAt
  obtain ⟨content, hnode, -⟩ := hentry.entry
  have hno : fs.isDirectoryAt (dir ++ [computerEntryName]) = false := by
    rw [isDirectoryAt, hnode]
  have hset : EntriesGrow fs
      (fs.set (dir ++ [computerEntryName]) (.file ⟨none, some computer'.toComputerFields⟩)) := by
    intro dir' fields h'
    by_cases hdir : dir' = dir
    -- the entry itself
    · subst hdir
      refine ⟨computer'.toComputerFields, ⟨?_, _, node_set_self (by simp), rfl⟩, ?_⟩
      · exact (Later.refl.set (P := fun _ _ => True) hno trivial).isDirectoryAt h'.isDirectory
      · exact h'.unique hentry ▸ hbecomes
    · refine ⟨fields, h'.later (Later.refl.set hno fun he => hdir ?_), .refl _⟩
      exact (List.append_cancel_right he).symm
  rw [update, writeValue_snd, FileSystem.write, locate_child (hfolder ▸ h.names)
    isName_computerEntryName, hfolder, hlocate, Option.bind_some, if_pos hentry.isDirectory]
  dsimp only
  rw [hno, if_neg Bool.false_ne_true]
  cases io with
  | ok => exact hset
  | fails => exact .refl fs
  | stops complete =>
    cases complete with
    | false => exact absurd rfl hio
    | true => exact hset

theorem Stored.later (h : Stored fs computer)
    (hl : Later (fun loc _ => loc.getLast? ≠ some computerEntryName) fs fs') :
    Stored fs' computer := by
  obtain ⟨dir, content, hlocate, hdir, hnode, hcontent⟩ := h.entry
  have hentry : EntryAt fs dir computer.toComputerFields := ⟨hdir, content, hnode, hcontent⟩
  obtain ⟨hdir', content', hnode', hcontent'⟩ := hentry.later_other hl
  exact ⟨h.names, dir, content', hl.locate hlocate, hdir', hnode', hcontent'⟩

theorem Stored.update_stored (h : Stored fs computer)
    (hfolder : computer'.baseStorageFolder = computer.baseStorageFolder)
    (hupdate : update fs io computer' = (.ok (), fs')) : Stored fs' computer' :=
  stored_insert (hfolder ▸ h.names) hupdate

theorem Recorded.later (h : Recorded fs p) (hgrow : EntriesGrow fs fs') (hl : Later P fs fs') :
    Recorded fs' p := by
  intro c hc
  obtain ⟨dir, fields, hlocate, hentry, hmem⟩ := h c hc
  obtain ⟨fields', hentry', hbecomes⟩ := hgrow dir fields hentry
  exact ⟨dir, fields', hl.locate hlocate, hentry', hbecomes.disks.subset hmem⟩

/-! ## Registrations -/

variable {target : ClientInfo} {addEnv : AddClientEnv}

/-- What the search for the computer of a client does: if it finds one, its entry is stored. -/
theorem lookupComputer_grows (db : InvestigationCaseDB) (fs : Disk) (target : ClientInfo)
    (hio : addEnv.update ≠ .stops false) :
    EntriesGrow fs (lookupComputer db fs target addEnv).2 ∧
      ∀ computer, (lookupComputer db fs target addEnv).1 = .found computer →
        Stored (lookupComputer db fs target addEnv).2 computer := by
  cases hlookup : lookupComputer db fs target addEnv with
  | mk result fs' =>
    cases looksUp hlookup with
    | throws | throwsAgain => exact ⟨.refl fs, by rintro _ ⟨⟩⟩
    | found hfind =>
      refine ⟨.refl fs, ?_⟩
      rintro _ ⟨⟩
      exact (findClient_found hfind).stored
    -- the entry has no hardware, so the ids that are written fill a gap
    | @claims computer _ hfind hagain hupdate | @claimFails computer _ _ hfind hagain hupdate =>
      have hstored := (findClient_found hagain).stored
      have hhardware : computer.hardwareId = "" :=
        Option.some.inj (findClient_heldAt hagain).2.2
      have hgrow : EntriesGrow fs (update fs addEnv.update
          { computer with hardwareId := readBack target.hardwareId }).2 :=
        hstored.update_grows rfl (becomes_claimed hhardware (readBack target.hardwareId)) hio
      rw [hupdate] at hgrow
      refine ⟨hgrow, ?_⟩
      rintro _ ⟨⟩
      all_goals exact hstored.update_stored rfl hupdate
    | creates hfind hagain hcreate | createFails hfind hagain hcreate =>
      have hgrow := entriesGrow_createComputer db fs addEnv.create addEnv.insert "defaultcase"
        (defaultComputer target)
      have hnobody : Tracks (fun _ => none) fs := fun _ _ h => by cases h
      have hstored := (createComputer_later db addEnv.create addEnv.insert "defaultcase"
        (defaultComputer target) hnobody).2
      rw [hcreate] at hgrow hstored
      refine ⟨hgrow, ?_⟩
      rintro _ ⟨⟩
      all_goals exact (hstored _ rfl).2.1

/-- A device is published for a computer that is stored, and has got the name of the disk. -/
theorem recorded_of_stored (h : Stored fs computer)
    (hfolder : p.device.evidenceDirectory = computer.baseStorageFolder)
    (hname : ∀ c ∈ p.clientInfo, nameOf c p.device.toDiscoveredDevice ∈ computer.disks) :
    Recorded fs p := by
  intro c hc
  obtain ⟨dir, hlocate, hentry⟩ := h.entryAt
  exact ⟨dir, _, hfolder ▸ hlocate, hentry, hname c hc⟩

/-- The devices of a client are published: its computer is stored, and all disks recorded. -/
structure Recording (x : Exporting) (c : ClientInfo) (computer : ComputerDbEntry) : Prop where
  client : x.clientInfo = some c
  bound : c.computerDbEntry = some computer
  stored : Stored x.fs computer
  published : ∀ p ∈ x.published, Recorded x.fs p

/-- A device is published. -/
theorem Recording.exportDevice (h : Recording x c computer) (hio : io ≠ .stops false)
    (device : DiscoveredDevice) :
    EntriesGrow x.fs (exportDevice io device x).2.fs ∧
      (∀ p ∈ (exportDevice io device x).2.published,
        Recorded (exportDevice io device x).2.fs p) ∧
      ((exportDevice io device x).1 = .next →
        ∃ c' computer', Recording (exportDevice io device x).2 c' computer') := by
  obtain ⟨hx, hc, hstored, hpublished⟩ := h
  rw [RaqetControl.exportDevice]
  cases argNotNegative "bytes"
      (toLong ((device.capacity.logicalBlockAddress + 1) * device.capacity.blockSize)) with
  | error e => exact ⟨.refl _, hpublished, by rintro ⟨⟩⟩
  | ok size =>
    dsimp only
    rw [hx]
    dsimp only
    rw [hc]
    cases hmapping : c.getDeviceMapping device.lun with
    | none => exact ⟨.refl _, hpublished, by rintro ⟨⟩⟩
    | some mapping =>
      dsimp only
      obtain ⟨hfolder, -⟩ := addDisk_folder computer mapping.device
      have hgrow := hstored.update_grows hfolder (becomes_addDisk computer mapping.device) hio
      have hlater : Later (fun _ _ => True) x.fs
          (update x.fs io (computer.addDisk mapping.device)).2 := by
        rw [update, writeValue_snd]
        exact later_write fun _ _ => ⟨trivial, trivial⟩
      have hold : ∀ p ∈ x.published,
          Recorded (update x.fs io (computer.addDisk mapping.device)).2 p :=
        fun p hp => (hpublished p hp).later hgrow hlater
      cases hupdate : update x.fs io (computer.addDisk mapping.device) with
      | mk result fs' =>
        rw [hupdate] at hgrow hold
        cases result with
        | error e => exact ⟨hgrow, hold, by rintro ⟨⟩⟩
        | ok u =>
          -- the name of the disk is written before the device is published
          have hstored' := hstored.update_stored hfolder hupdate
          refine ⟨hgrow, ?hall, fun _ => ⟨_, _, rfl, rfl, hstored', ?hall⟩⟩
          refine List.forall_mem_append.2 ⟨hold, List.forall_mem_singleton.2 ?_⟩
          refine recorded_of_stored hstored' rfl ?_
          rintro _ ⟨⟩
          change nameOf c device ∈ _
          rw [nameOf, hmapping]
          exact mem_addDisk computer mapping.device

/-- All devices of a client are published, or those up to some device. -/
theorem Recording.exportDevices {update : ℕ → WriteIo} (h : Recording x c computer)
    (hio : ∀ n, update n ≠ .stops false) (devices : List DiscoveredDevice) :
    EntriesGrow x.fs (exportDevices update devices x).2.fs ∧
      ∀ p ∈ (exportDevices update devices x).2.published,
        Recorded (exportDevices update devices x).2.fs p := by
  induction devices generalizing update x c computer with
  | nil => exact ⟨.refl _, h.published⟩
  | cons device devices ih =>
    obtain ⟨hgrow, hpublished, hnext⟩ := h.exportDevice (hio 0) device
    rw [RaqetControl.exportDevices]
    cases hexit : RaqetControl.exportDevice (update 0) device x with
    | mk exit x' =>
      rw [hexit] at hgrow hpublished hnext
      cases exit with
      | next =>
        obtain ⟨c', computer', h'⟩ := hnext rfl
        obtain ⟨hgrow', hpublished'⟩ := ih h' fun n => hio (n + 1)
        exact ⟨hgrow.trans hgrow', hpublished'⟩
      | «return» => exact ⟨hgrow, hpublished⟩
      | throws e => exact ⟨hgrow, hpublished⟩

/-- A registration of a new client. -/
theorem grows_addNewClient (hio : addEnv.update ≠ .stops false)
    (hexporting : ∀ n, addEnv.exporting.update n ≠ .stops false)
    (hs : ∀ p ∈ s.published, Recorded s.fs p) :
    EntriesGrow s.fs (s.addNewClient target addEnv).2.fs ∧
      ∀ p ∈ (s.addNewClient target addEnv).2.published,
        Recorded (s.addNewClient target addEnv).2.fs p := by
  obtain ⟨hgrow, hfound⟩ := lookupComputer_grows s.investigationCaseDB s.fs target hio
  have hlater : Later (fun _ _ => True) s.fs
      (lookupComputer s.investigationCaseDB s.fs target addEnv).2 :=
    (wrote_lookupComputer (List.Subset.refl _)).mono fun _ _ _ => trivial
  have hadds := addsClient s target addEnv
  generalize (s.addNewClient target addEnv).2 = t at hadds ⊢
  cases hadds with
  | unbound hlookup _ =>
    rw [hlookup] at hgrow hlater
    exact ⟨hgrow, fun p hp => (hs p hp).later hgrow hlater⟩
  | @bound computer fs' x hlookup devices hexport =>
    rw [hlookup] at hgrow hlater hfound
    have hlog : Later (fun loc _ => loc.getLast? ≠ some computerEntryName) fs'
        (writeLogging fs' addEnv.writeLogging computer) :=
      later_write_name (by decide +kernel) (by decide +kernel)
    have hrecording : Recording ⟨writeLogging fs' addEnv.writeLogging computer,
        some { target with computerDbEntry := some computer }, s.published⟩
        { target with computerDbEntry := some computer } computer :=
      ⟨rfl, rfl, (hfound computer rfl).later hlog, fun p hp =>
        ((hs p hp).later hgrow hlater).later (entriesGrow_later hlog) hlog⟩
    obtain ⟨hgrow', hpublished⟩ := hrecording.exportDevices hexporting devices
    rw [hexport] at hgrow' hpublished
    exact ⟨(hgrow.trans (entriesGrow_later hlog)).trans hgrow', hpublished⟩

/-! ## Runs -/

/-- A call. -/
theorem grows_call {a : Call} (ha : a.UpdatesWhole) (hs : ∀ p ∈ s.published, Recorded s.fs p) :
    EntriesGrow s.fs (s.call a).2.fs ∧
      ∀ p ∈ (s.call a).2.published, Recorded (s.call a).2.fs p := by
  -- only a registration and a direct target publish something
  have hkeep (hgrow : EntriesGrow s.fs (s.call a).2.fs)
      (hpublished : (s.call a).2.published = s.published) :
      EntriesGrow s.fs (s.call a).2.fs ∧
        ∀ p ∈ (s.call a).2.published, Recorded (s.call a).2.fs p := by
    refine ⟨hgrow, fun p hp => ?_⟩
    rw [hpublished] at hp
    exact (hs p hp).later hgrow (call_later s a)
  cases a with
  | register ipAddress target env =>
    rw [call, addClient]
    split
    · exact ⟨.refl _, hs⟩
    · exact ⟨.refl _, hs⟩
    · exact grows_addNewClient ha.1 ha.2 hs
  | diskinfo ipAddress clientid hardwareid devices io =>
    refine hkeep ?_ (diskInformation_eq _ devices io).1
    rw [call]
    cases hsender : s.sender (.new clientid hardwareid ipAddress) with
    | none =>
      rw [diskInformation_of_none devices io hsender]
      exact .refl _
    | some computer =>
      rw [diskInformation_of_sender devices io hsender]
      refine entriesGrow_later (later_writeDiskInformation fun dir name => ?_)
      rw [List.getLast?_concat]
      exact fun he => append_txt_ne (by decide +kernel) (Option.some.inj he)
  | addDevice target env =>
    rw [call, addDirect]
    cases TargetAddress.ofString target with
    | error e => exact ⟨.refl _, hs⟩
    | ok address =>
      dsimp only
      rw [addRemoteDevice]
      cases RemoteDeviceManager.listTargets address env.discovery with
      | error e => exact ⟨.refl _, hs⟩
      | ok devices =>
        dsimp only
        rw [exportDevices_direct]
        refine ⟨.refl _, List.forall_mem_append.2 ⟨hs, fun p hp => ?_⟩⟩
        obtain ⟨device, -, rfl⟩ := List.mem_map.1 hp
        rintro _ ⟨⟩
  | createInvestigationCase investigationCase io =>
    exact hkeep (entriesGrow_createCase io _) rfl
  | createComputer caseName computer env io =>
    exact hkeep (entriesGrow_createComputer _ _ env io caseName _) rfl

/-- A step: a call, or a restart, after which nothing is published. -/
theorem grows_act {a : Operation} (ha : a.UpdatesWhole) (hstep : s.act a = some t)
    (hs : ∀ p ∈ s.published, Recorded s.fs p) :
    EntriesGrow s.fs t.fs ∧ Later (fun _ _ => True) s.fs t.fs ∧
      t.investigationCaseDB = s.investigationCaseDB ∧ ∀ p ∈ t.published, Recorded t.fs p := by
  cases a with
  | call a =>
    cases hstep
    obtain ⟨hgrow, hpublished⟩ := grows_call ha hs
    exact ⟨hgrow, call_later s a, investigationCaseDB_call s a, hpublished⟩
  | restart io =>
    cases hstep
    exact ⟨entriesGrow_createCase io _, call_later ⟨s.investigationCaseDB, s.fs, [], []⟩
      (.createInvestigationCase (.new "defaultcase" "defaultcase") io), rfl, List.forall_mem_nil _⟩

theorem grows_runs {l : List Operation} (hl : ∀ a ∈ l, a.UpdatesWhole)
    (h : Transition.runs act s l = some t) (hs : ∀ p ∈ s.published, Recorded s.fs p) :
    EntriesGrow s.fs t.fs ∧ Later (fun _ _ => True) s.fs t.fs ∧
      t.investigationCaseDB = s.investigationCaseDB ∧ ∀ p ∈ t.published, Recorded t.fs p := by
  refine Transition.runs_invariant (P := fun _ a => Operation.UpdatesWhole a)
    (I := fun t => EntriesGrow s.fs t.fs ∧ Later (fun _ _ => True) s.fs t.fs ∧
      t.investigationCaseDB = s.investigationCaseDB ∧ ∀ p ∈ t.published, Recorded t.fs p)
    ?_ h (.of_forall fun _ => hl) ⟨.refl _, .refl, rfl, hs⟩
  rintro t a u ha ⟨hgrow, hlater, hdb, hpublished⟩ hstep
  obtain ⟨hgrow', hlater', hdb', hpublished'⟩ := grows_act ha hstep hpublished
  exact ⟨hgrow.trans hgrow', hlater.trans hlater', hdb'.trans hdb, hpublished'⟩

/-- In every run, restarts included, whatever fails in it, in which no update of an entry stops
    in the middle: an entry of a computer that can be read stays readable, and only becomes one
    with hardware and with more disks; and every disk that was published for a client is
    listed in the directory of its evidence. -/
theorem keeps_disks {base : File} {insert : InsertIo} {l l' : List Operation}
    (hl : ∀ a ∈ l, a.UpdatesWhole) (hl' : ∀ a ∈ l', a.UpdatesWhole)
    (h : Transition.runs act (.new base fs insert) l = some s)
    (h' : Transition.runs act s l' = some t) :
    (∀ env caseName computerName entry,
      s.investigationCaseDB.getComputer s.fs env caseName computerName = .ok entry →
      ∀ env' : ReadEnv, env'.Works → ∃ entry',
        t.investigationCaseDB.getComputer t.fs env' caseName computerName = .ok entry' ∧
        t.getDisks env' caseName computerName = .ok entry'.disks ∧
        Becomes entry.toComputerFields entry'.toComputerFields) ∧
      ∀ p ∈ t.published, Recorded t.fs p := by
  obtain ⟨-, -, -, hpublished⟩ := grows_runs hl h (List.forall_mem_nil _)
  obtain ⟨hgrow, hlater, hdb, hpublished'⟩ := grows_runs hl' h' hpublished
  refine ⟨fun env caseName computerName entry hget env' henv => ?_, hpublished'⟩
  obtain ⟨dir, hlocate, hentry⟩ := EntryAt.of_getComputer hget
  obtain ⟨fields', hentry', hbecomes⟩ := hgrow dir _ hentry
  obtain ⟨entry', hget', rfl⟩ := hentry'.getComputer henv (hlater.locate hlocate)
  rw [← hdb] at hget'
  exact ⟨entry', hget', by rw [getDisks, hget']; rfl, hbecomes⟩

/-- A client registers, and registers again after a restart. -/
theorem keeps_disks_restart : ∃ (t : RaqetControl) (disks : List String),
    Transition.runs act (serverAfter [registers ["iqn.a"]])
      [.restart ⟨false, .ok⟩, .call (registers ["iqn.a"])] = some t ∧
    t.getDisks readable "defaultcase" "client_hardware" = .ok disks ∧ ["sda"] <+: disks ∧
    ∀ p ∈ t.published, Recorded t.fs p := by
  have hdisks : ((serverAfter [registers ["iqn.a"]]).investigationCaseDB.getComputer
      (serverAfter [registers ["iqn.a"]]).fs readable "defaultcase" "client_hardware").toOption.map
        (fun entry => entry.disks) = some ["sda"] := by decide +kernel
  obtain ⟨entry, hentry, hsda⟩ := Option.map_eq_some_iff.1 hdisks
  have hwhole : Operation.UpdatesWhole (.call (registers ["iqn.a"])) := by
    refine ⟨?_, fun _ => ?_⟩ <;> rintro ⟨⟩
  have hrestart : Operation.UpdatesWhole (.restart ⟨false, .ok⟩) := trivial
  obtain ⟨hkeeps, hpublished⟩ := keeps_disks (s := serverAfter [registers ["iqn.a"]])
    (l := [.call (registers ["iqn.a"])]) (List.forall_mem_singleton.2 hwhole)
    (List.forall_mem_cons.2 ⟨hrestart, List.forall_mem_singleton.2 hwhole⟩) rfl rfl
  obtain ⟨entry', -, hgetDisks, hbecomes⟩ := hkeeps readable "defaultcase" "client_hardware" entry
    (toOption_eq_some.1 hentry) readable works_readable
  exact ⟨_, entry'.disks, rfl, hgetDisks, hsda ▸ hbecomes.disks, hpublished⟩

end Raqet
