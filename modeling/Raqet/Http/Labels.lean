import Raqet.Http.Binding

/-!
# Names in entries

The directories of cases and computers have their names in the entries that are in them
(`Labelled`): this holds of an empty evidence directory, and every call keeps it, as long as
no file operation fails and the ids of clients have no slashes (`later_labels`).

It is proved together with a property of the names of computers, which the names of those
that are created have to satisfy.
-/

namespace Raqet

open Java FileSystem InvestigationCaseDB RaqetControl

/-- An entry in the directory of a case or of a computer has the name of the directory. -/
structure Labels (b : List String) (E : String → Prop) (loc : List String) (n : Node Content) :
    Prop where
  caseEntry : ∀ caseName, loc = b ++ [caseName] ++ [investigationEntryName] →
    ∃ content entry, n = .file content ∧ content.investigationCase = some entry ∧
      entry.urlCaseName = caseName
  computerEntry : ∀ caseName computerName,
    loc = b ++ [caseName] ++ [computerName] ++ [computerEntryName] →
      E computerName ∧ ∃ content fields, n = .file content ∧ content.computer = some fields ∧
        fields.urlcomputerName = computerName

/-- All entries do, and the names of the computers satisfy `E`. -/
def Labelled (b : List String) (E : String → Prop) (fs : Disk) : Prop :=
  ∀ loc n, fs.node loc = some n → Labels b E loc n

/-- The folder of the entry leads to a directory of its name, if to one of a computer. -/
structure Fits (b : List String) (E : String → Prop) (fs : Disk) (computer : ComputerDbEntry) :
    Prop where
  names : computer.baseStorageFolder.names ≠ []
  locate : ∃ dir, fs.locate computer.baseStorageFolder = some dir ∧ ∀ caseName computerName,
    dir = b ++ [caseName] ++ [computerName] →
      computer.urlcomputerName = computerName ∧ E computerName

variable {b dir loc : List String} {E : String → Prop} {fs fs' : Disk} {n : Node Content}
  {name : String} {f base folder : File} {db : InvestigationCaseDB} {env : ReadEnv}
  {computer computer' : ComputerDbEntry} {content : Content}

/-! ## Places -/

/-- What is no entry has no name. -/
theorem labels_of_length (h : loc.length ≤ b.length + 1) : Labels b E loc n := by
  constructor
  · rintro caseName rfl
    simp at h
  · rintro caseName computerName rfl
    simp at h

theorem labels_of_last (hcase : name ≠ investigationEntryName)
    (hcomputer : name ≠ computerEntryName) : Labels b E (dir ++ [name]) n := by
  constructor
  · intro caseName h
    exact absurd (List.singleton_inj.1 (List.append_inj_right' h rfl)) hcase
  · intro caseName computerName h
    exact absurd (List.singleton_inj.1 (List.append_inj_right' h rfl)) hcomputer

theorem Labelled.later (h : Labelled b E fs) (hl : Later (Labels b E) fs fs') :
    Labelled b E fs' := by
  intro loc n hn
  exact hl.node (R := fun o => ∀ n, o = some n → Labels b E loc n) (h loc)
    (fun m hm n hn => Option.some.inj hn ▸ hm) n hn

theorem Labelled.mono {E' : String → Prop} (h : Labelled b E fs) (hE : ∀ name, E name → E' name) :
    Labelled b E' fs := fun loc n hn =>
  ⟨(h loc n hn).caseEntry, fun caseName computerName hloc =>
    ((h loc n hn).computerEntry caseName computerName hloc).imp_left (hE computerName)⟩

/-- Nothing is in an empty directory. -/
theorem labelled_of_empty (h : ∀ names, names ≠ [] → fs.node (b ++ names) = none) :
    Labelled b E fs := by
  intro loc n hn
  constructor
  · rintro caseName rfl
    rw [List.append_assoc, h _ (by simp)] at hn
    cases hn
  · rintro caseName computerName rfl
    rw [List.append_assoc, List.append_assoc, h _ (by simp)] at hn
    cases hn

theorem later_write_ok {P : List String → Node Content → Prop}
    (hP : ∀ loc, fs.locate f = some loc → P loc (.file content)) :
    Later P fs (fs.write .ok f content).2 := by
  rw [FileSystem.write]
  split
  next => exact .refl
  next loc hloc =>
    split_ifs with hdir
    · exact .refl
    · exact Later.refl.set (Bool.not_eq_true _ ▸ hdir) (hP loc hloc)

/-- The folder of a computer, which is not deeper than one in a case. -/
theorem LeadsTo.computerFolder_cases {caseName : String} (h : LeadsTo fs base b)
    (hcase : '/' ∉ caseName.toList) (hslash : '/' ∉ name.toList)
    (hloc : fs.locate ((base.child caseName).child name) = some loc) :
    loc.length ≤ b.length + 1 ∨ ∃ dir, dir.length ≤ b.length + 1 ∧ loc = dir ++ [name] := by
  obtain ⟨dir, hdir, hcases⟩ := locate_child_cases (path_child _ _) hslash hloc
  have hlength : dir.length ≤ b.length + 1 := by
    rcases h.caseFolder_cases hcase hdir with hle | rfl
    · exact Nat.le_succ_of_le hle
    · simp
  exact hcases.imp (fun hle => hle.trans hlength) fun heq => ⟨dir, hlength, heq⟩

/-! ## Creating entries -/

theorem later_labels_createCase (h : LeadsTo fs db.baseDbPath b) {io : InsertIo} (hio : io.Works)
    (entry : InvestigationCaseDbEntry) :
    Later (Labels b E) fs (db.createCase fs io entry).2 := by
  have hslash : '/' ∉ entry.urlCaseName.toList := entry.escaped ▸ slash_notMem_escapeName _
  rw [InvestigationCaseDB.createCase]
  split_ifs
  · exact .refl
  have hmkdir : Later (Labels b E) fs
      (fs.mkdir io.mkdirFails (db.baseDbPath.child entry.urlCaseName)) := by
    refine later_mkdir fun loc hloc => labels_of_length ?_
    rcases h.caseFolder_cases hslash hloc with hle | rfl
    · exact Nat.le_succ_of_le hle
    · simp
  rw [writeValue_snd, hio.write]
  refine hmkdir.trans (later_write_ok fun loc hloc => ?_)
  rw [locate_child_of_path (path_child _ _) (by decide +kernel)] at hloc
  obtain ⟨dir, hdir, hif⟩ := Option.bind_eq_some_iff.1 hloc
  split_ifs at hif
  cases hif
  constructor
  -- the folder has the name in the entry, as it has no slash
  · intro caseName heq
    rw [List.append_cancel_right_eq] at heq
    refine ⟨_, entry, rfl, rfl, ?_⟩
    rcases (h.later hmkdir).caseFolder_cases hslash hdir with hle | heq'
    · rw [heq, List.length_append, List.length_singleton] at hle
      omega
    · rw [heq, List.append_cancel_left_eq] at heq'
      exact (List.singleton_inj.1 heq').symm
  · intro caseName computerName heq
    have hnames : [investigationEntryName] = [computerEntryName] := List.append_inj_right' heq rfl
    exact absurd hnames (by decide +kernel)

/-- A directory that a folder of a computer leads to has the name of the computer. -/
theorem LeadsTo.computerName_eq {caseName caseName' computerName : String} (h : LeadsTo fs base b)
    (hcase : '/' ∉ caseName.toList) (hslash : '/' ∉ name.toList)
    (hloc : fs.locate ((base.child caseName).child name) =
      some (b ++ [caseName'] ++ [computerName])) : name = computerName := by
  rcases h.computerFolder_cases hcase hslash hloc with hle | ⟨dir, -, heq⟩
  · simp at hle
  · exact (List.singleton_inj.1 (List.append_inj_right' heq rfl)).symm

/-- A directory for a computer is not an entry. -/
theorem later_labels_mkdir {caseName : String} {fails : Bool} (h : LeadsTo fs base b)
    (hcase : '/' ∉ caseName.toList) (hslash : '/' ∉ name.toList)
    (hname : name ≠ investigationEntryName) :
    Later (Labels b E) fs (fs.mkdir fails ((base.child caseName).child name)) := by
  refine later_mkdir fun loc hloc => ?_
  rcases h.computerFolder_cases hcase hslash hloc with hle | ⟨dir, hdir, rfl⟩
  · exact labels_of_length hle
  constructor
  · intro caseName heq
    exact absurd (List.singleton_inj.1 (List.append_inj_right' heq rfl)) hname
  · intro caseName computerName heq
    have hlength := congrArg List.length heq
    simp only [List.length_append, List.length_singleton] at hlength
    omega

/-- A file that is written for a computer is not the entry of a case. -/
theorem labels_computerEntry
    (h : ∀ caseName computerName, dir = b ++ [caseName] ++ [computerName] →
      E computerName ∧ ∃ content fields, n = .file content ∧ content.computer = some fields ∧
        fields.urlcomputerName = computerName) :
    Labels b E (dir ++ [computerEntryName]) n := by
  constructor
  · intro caseName heq
    have hnames : [computerEntryName] = [investigationEntryName] := List.append_inj_right' heq rfl
    exact absurd hnames (by decide +kernel)
  · intro caseName computerName heq
    exact h caseName computerName (List.append_cancel_right heq)

theorem later_labels_createComputer (h : LeadsTo fs db.baseDbPath b) {io : InsertIo}
    (hio : io.Works) (env : ReadEnv) (urlcaseName : String) (fields : ComputerFields)
    (hslash : '/' ∉ fields.urlcomputerName.toList)
    (hname : fields.urlcomputerName ≠ investigationEntryName)
    (hE : (db.newFolder fs env urlcaseName fields).isSome → E fields.urlcomputerName) :
    Later (Labels b E) fs (db.createComputer fs env io urlcaseName fields).2 := by
  cases hnew : db.newFolder fs env urlcaseName fields with
  | none =>
    obtain ⟨e, he⟩ := createComputer_of_none io hnew
    rw [he]
    exact .refl
  | some folder =>
    obtain ⟨entry, -, rfl, -⟩ := newFolder_eq_some hnew
    have hcase : '/' ∉ entry.urlCaseName.toList := entry.escaped ▸ slash_notMem_escapeName _
    have hmkdir : Later (Labels b E) fs (fs.mkdir io.mkdirFails
        ((db.baseDbPath.child entry.urlCaseName).child fields.urlcomputerName)) :=
      later_labels_mkdir h hcase hslash hname
    rw [createComputer_of_some io hnew, writeValue_snd, hio.write]
    -- the entry is in the folder, if that is there after the directory was made
    refine hmkdir.trans (later_write_ok fun loc hloc => ?_)
    rw [locate_child_of_path (path_child _ _) isName_computerEntryName] at hloc
    obtain ⟨dir, hdir, hif⟩ := Option.bind_eq_some_iff.1 hloc
    split_ifs at hif
    cases hif
    refine labels_computerEntry fun caseName computerName heq => ?_
    rw [heq] at hdir
    obtain rfl := (h.later hmkdir).computerName_eq hcase hslash hdir
    exact ⟨hE (by rw [hnew]; rfl), _, fields, rfl, rfl, rfl⟩

/-- A computer that is created fits. -/
theorem fits_createComputer (h : LeadsTo fs db.baseDbPath b) {io : InsertIo} (hio : io.Works)
    {urlcaseName : String} {fields : ComputerFields}
    (hslash : '/' ∉ fields.urlcomputerName.toList)
    (hE : (db.newFolder fs env urlcaseName fields).isSome → E fields.urlcomputerName)
    (hok : (db.createComputer fs env io urlcaseName fields).1 = .ok computer) :
    Fits b E (db.createComputer fs env io urlcaseName fields).2 computer := by
  cases hnew : db.newFolder fs env urlcaseName fields with
  | none =>
    obtain ⟨e, he⟩ := createComputer_of_none io hnew
    rw [he] at hok
    cases hok
  | some folder =>
    obtain ⟨entry, -, rfl, -⟩ := newFolder_eq_some hnew
    have hcase : '/' ∉ entry.urlCaseName.toList := entry.escaped ▸ slash_notMem_escapeName _
    have hlater : Later (fun _ _ => True) fs
        (db.createComputer fs env io urlcaseName fields).2 := by
      rw [createComputer_of_some io hnew, writeValue_snd]
      exact (later_mkdir fun _ _ => trivial).trans (later_write fun _ _ => ⟨trivial, trivial⟩)
    rcases createComputer_cases db fs env io hio.write urlcaseName fields with
      ⟨hno, -⟩ | ⟨computer', dir, hok', hcreated⟩
    · exact absurd hok (hno computer)
    rw [hok, Except.ok.injEq] at hok'
    subst hok'
    rw [createComputer_of_some io hnew] at hok
    obtain ⟨u, -, rfl⟩ := map_eq_ok.1 hok
    refine ⟨hcreated.held.names, dir, hcreated.held.locate, fun caseName computerName heq => ?_⟩
    have hloc := hcreated.held.locate
    rw [heq] at hloc
    -- the directory has the name of the computer
    obtain rfl := (h.later hlater).computerName_eq hcase hslash hloc
    exact ⟨rfl, hE (by rw [hnew]; rfl)⟩

/-! ## Entries that are found -/

theorem Fits.later {P : List String → Node Content → Prop} (h : Fits b E fs computer)
    (hl : Later P fs fs') : Fits b E fs' computer := by
  obtain ⟨dir, hdir, hname⟩ := h.locate
  exact ⟨h.names, dir, hl.locate hdir, hname⟩

/-- The same computer, with other fields. -/
theorem Fits.congr (h : Fits b E fs computer)
    (hfolder : computer'.baseStorageFolder = computer.baseStorageFolder)
    (hname : computer'.urlcomputerName = computer.urlcomputerName) : Fits b E fs computer' := by
  obtain ⟨hnames, hlocate⟩ := h
  rw [← hfolder] at hnames hlocate
  rw [← hname] at hlocate
  exact ⟨hnames, hlocate⟩

/-- The case in a directory that is listed is read with its name. -/
theorem getCase_label (h : LeadsTo fs db.baseDbPath b) (hl : Labelled b E fs)
    (hname : File.IsName name) {entry : InvestigationCaseDbEntry}
    (hget : db.getCase fs env name = .ok entry) : entry.urlCaseName = name := by
  obtain ⟨content, hread, hentry⟩ := readValue_eq_ok hget
  obtain ⟨dir, hlocate, -, hnode⟩ := read_child (File.names_child_ne_nil hname.1)
    isName_investigationEntryName hread
  rw [h.locate_child hname, Option.some.injEq] at hlocate
  subst hlocate
  obtain ⟨content', entry', hcontent, hentry', heq⟩ := (hl _ _ hnode).caseEntry name rfl
  cases hcontent
  rw [hentry, Option.some.injEq] at hentry'
  rw [hentry', heq]

/-- So is the computer in one that is listed there, and its name satisfies `E`. -/
theorem getComputer_label {caseName computerName : String} (h : LeadsTo fs db.baseDbPath b)
    (hl : Labelled b E fs) (hlisted : Listed fs b caseName computerName)
    (hget : db.getComputer fs env caseName computerName = .ok computer) :
    computer.urlcomputerName = computerName ∧ E computerName := by
  obtain ⟨fields, hfields, rfl⟩ := map_eq_ok.1 hget
  obtain ⟨content, hread, hcomputer⟩ := readValue_eq_ok hfields
  have hfolder := h.computerFolder hlisted
  rw [FileSystem.read, hfolder.locate_child isName_computerEntryName, Option.bind_some] at hread
  obtain ⟨hE, content', fields', hcontent, hfields', heq⟩ :=
    (hl _ _ hread).computerEntry caseName computerName rfl
  cases hcontent
  rw [hcomputer, Option.some.injEq] at hfields'
  subst hfields'
  exact ⟨heq, hE⟩

/-- An entry that is found is in the directory of its name. -/
theorem findClient_fits {clientid hardwareId : Option String} (h : LeadsTo fs db.baseDbPath b)
    (hl : Labelled b E fs)
    (hfind : db.findClient fs env clientid hardwareId = .ok (some computer)) :
    Fits b E fs computer := by
  obtain ⟨cases, caseName, computerName, hcases, hfound⟩ := findClient_ok_some hfind
  obtain ⟨computers, hcomputers, hmem⟩ := hfound.computers
  -- both names were listed, so they are those of directories
  obtain ⟨hcase, hcaseDir, hcaseEntry⟩ :=
    (h.mem_foldersWith isName_investigationEntryName hcases).1 hfound.mem_cases
  obtain ⟨hcomputer, hdir, -⟩ :=
    ((h.child hcase hcaseDir).mem_foldersWith isName_computerEntryName hcomputers).1 hmem
  have hlisted : Listed fs b caseName computerName :=
    ⟨hcase, hcomputer, hcaseDir, hcaseEntry, hdir⟩
  obtain ⟨hname, hE⟩ := getComputer_label h hl hlisted hfound.getComputer
  have hfolder := (getComputer_stored hcomputer hfound.getComputer).2
  refine ⟨(getComputer_stored hcomputer hfound.getComputer).1.names, _,
    hfolder ▸ (h.computerFolder hlisted).locate, fun caseName' computerName' heq => ?_⟩
  obtain rfl := List.singleton_inj.1 (List.append_inj_right' heq rfl)
  exact ⟨hname, hE⟩

/-- The entry of a computer can be updated. -/
theorem Fits.later_update (h : Fits b E fs computer) :
    Later (Labels b E) fs (InvestigationCaseDB.update fs .ok computer).2 := by
  obtain ⟨dir, hdir, hname⟩ := h.locate
  rw [InvestigationCaseDB.update, writeValue_snd]
  refine later_write_ok fun loc hloc => ?_
  rw [locate_child h.names isName_computerEntryName, hdir, Option.bind_some] at hloc
  split_ifs at hloc
  cases hloc
  refine labels_computerEntry fun caseName computerName heq => ?_
  obtain ⟨hurl, hE⟩ := hname caseName computerName heq
  exact ⟨hE, _, _, rfl, rfl, hurl⟩

/-! ## Calls -/

variable {s : RaqetControl} {target c : ClientInfo} {clientEnv : AddClientEnv} {x : Exporting}

/-- The name of a computer that is created for a client is not that of an entry. -/
theorem defaultName_ne (clientid hardwareid : String) :
    clientid ++ "_" ++ hardwareid ≠ investigationEntryName := by
  intro h
  have hmem : '_' ∈ investigationEntryName.toList := by
    rw [← h]
    simp
  exact absurd hmem (by decide +kernel)

/-- An entry that gets the hardware of a client still fits. -/
theorem fits_claimed {result : Except Exn Unit} (h : LeadsTo fs db.baseDbPath b)
    (hl : Labelled b E fs) (henv : clientEnv.Works)
    (hagain : db.findClient fs env target.clientId "" = .ok (some computer))
    (hupdate : InvestigationCaseDB.update fs clientEnv.update
      { computer with hardwareId := readBack target.hardwareId } = (result, fs')) :
    Later (Labels b E) fs fs' ∧
      Fits b E fs' { computer with hardwareId := readBack target.hardwareId } := by
  have hfits : Fits b E fs { computer with hardwareId := readBack target.hardwareId } :=
    (findClient_fits h hl hagain).congr rfl rfl
  have hlater := hfits.later_update
  rw [← henv.update, hupdate] at hlater
  exact ⟨hlater, hfits.later hlater⟩

/-- The search for the computer of a client. -/
theorem later_labels_lookupComputer (h : LeadsTo s.fs s.investigationCaseDB.baseDbPath b)
    (hl : Labelled b E s.fs) (henv : clientEnv.Works) (target : ClientInfo)
    (hid : '/' ∉ (valueOf target.clientId).toList)
    (hhardware : '/' ∉ (valueOf target.hardwareId).toList)
    (hE : (s.creating target clientEnv).isSome →
      E (valueOf target.clientId ++ "_" ++ valueOf target.hardwareId)) :
    Later (Labels b E) s.fs (lookupComputer s.investigationCaseDB s.fs target clientEnv).2 ∧
      ∀ computer, (lookupComputer s.investigationCaseDB s.fs target clientEnv).1 =
          .found computer →
        Fits b E (lookupComputer s.investigationCaseDB s.fs target clientEnv).2 computer := by
  have hslash : '/' ∉ (defaultComputer target).urlcomputerName.toList := by
    simp [defaultComputer, hid, hhardware]
  rw [creating] at hE
  cases hlookup : lookupComputer s.investigationCaseDB s.fs target clientEnv with
  | mk result fs' =>
    cases looksUp hlookup with
    | throws | throwsAgain =>
      refine ⟨.refl, ?_⟩
      rintro _ ⟨⟩
    | found hfind =>
      refine ⟨.refl, ?_⟩
      rintro _ ⟨⟩
      exact findClient_fits h hl hfind
    | claims _ hagain hupdate =>
      obtain ⟨hlater, hfits⟩ := fits_claimed h hl henv hagain hupdate
      refine ⟨hlater, ?_⟩
      rintro _ ⟨⟩
      exact hfits
    | claimFails _ hagain hupdate =>
      refine ⟨(fits_claimed h hl henv hagain hupdate).1, ?_⟩
      rintro _ ⟨⟩
    -- only here, a computer gets a name that is not escaped
    | creates hfind hagain hcreate =>
      rw [hfind, hagain] at hE
      have hlater := later_labels_createComputer h henv.insert clientEnv.create "defaultcase"
        (defaultComputer target) hslash (defaultName_ne _ _) hE
      have hfits := fits_createComputer h henv.insert hslash hE (congrArg Prod.fst hcreate)
      rw [hcreate] at hlater hfits
      refine ⟨hlater, ?_⟩
      rintro _ ⟨⟩
      exact hfits
    | createFails hfind hagain hcreate =>
      rw [hfind, hagain] at hE
      have hlater := later_labels_createComputer h henv.insert clientEnv.create "defaultcase"
        (defaultComputer target) hslash (defaultName_ne _ _) hE
      rw [hcreate] at hlater
      refine ⟨hlater, ?_⟩
      rintro _ ⟨⟩

/-- While the devices of a client are published, it is bound to a computer that fits. -/
structure FittingFor (b : List String) (E : String → Prop) (fs : Disk) (x : Exporting) :
    Prop where
  later : Later (Labels b E) fs x.fs
  client : ∃ c computer, x.clientInfo = some c ∧ c.computerDbEntry = some computer ∧
    Fits b E x.fs computer

theorem FittingFor.exportDevice (h : FittingFor b E fs x) (device : DiscoveredDevice) :
    FittingFor b E fs (RaqetControl.exportDevice .ok device x).2 := by
  obtain ⟨c, computer, hx, hc, hfits⟩ := h.client
  rcases exportDevice_client .ok device hx hc with he | ⟨name, hfs, hclient⟩
  · rwa [he]
  · have hname : (computer.addDisk name).urlcomputerName = computer.urlcomputerName := by
      rw [ComputerDbEntry.addDisk]
      split_ifs <;> rfl
    have hfits' : Fits b E x.fs (computer.addDisk name) :=
      hfits.congr (addDisk_folder computer name).1 hname
    have hlater := hfits'.later_update
    rw [← hfs] at hlater
    exact ⟨h.later.trans hlater, _, _, hclient, rfl, hfits'.later hlater⟩

theorem FittingFor.exportDevices {update : ℕ → WriteIo} (devices : List DiscoveredDevice)
    (hupdate : ∀ n, update n = .ok) (h : FittingFor b E fs x) :
    FittingFor b E fs (RaqetControl.exportDevices update devices x).2 :=
  exportDevices_induction devices (fun n device _ h => hupdate n ▸ h.exportDevice device) h

/-- What a registration does once the computer of the client was searched for. -/
theorem later_labels_addNewClient (henv : clientEnv.Works)
    (hfits : ∀ computer, (lookupComputer s.investigationCaseDB s.fs target clientEnv).1 =
        .found computer →
      Fits b E (lookupComputer s.investigationCaseDB s.fs target clientEnv).2 computer) :
    Later (Labels b E) (lookupComputer s.investigationCaseDB s.fs target clientEnv).2
      (s.addNewClient target clientEnv).2.fs := by
  have hadds := addsClient s target clientEnv
  generalize (s.addNewClient target clientEnv).2 = t at hadds ⊢
  cases hadds with
  | unbound hlookup hnone =>
    rw [hlookup]
    exact .refl
  | @bound computer fs' x hlookup devices hexport =>
    rw [hlookup] at hfits ⊢
    -- the log is not an entry
    have hlog : Later (Labels b E) fs' (writeLogging fs' clientEnv.writeLogging computer) := by
      refine later_write fun loc hloc => ?_
      obtain ⟨dir, rfl⟩ := locate_last
        (File.names_child_of_isSegment (by decide +kernel)) (by decide +kernel) hloc
      have hlabels : ∀ n, Labels b E (dir ++ ["clientlogfile.txt"]) n := fun n =>
        labels_of_last (by decide +kernel) (by decide +kernel)
      exact ⟨hlabels _, hlabels _⟩
    have hbound : FittingFor b E fs' ⟨writeLogging fs' clientEnv.writeLogging computer,
        some { target with computerDbEntry := some computer }, s.published⟩ :=
      ⟨hlog, _, computer, rfl, rfl, (hfits computer rfl).later hlog⟩
    rw [← hexport]
    exact (hbound.exportDevices devices henv.exporting).later

/-- The ids in a registration have no slashes. -/
def PlainIds : Call → Prop
  | .register _ target _ =>
    '/' ∉ (valueOf target.clientid).toList ∧ '/' ∉ (valueOf target.hardwareid).toList
  | _ => True

/-- If a computer is created for a client, its name satisfies `E`. -/
def Creates (E : String → Prop) (s : RaqetControl) : Call → Prop
  | .register ipAddress target env =>
    s.isNew (.ofRegister ipAddress target) = true →
      (s.creating (.ofRegister ipAddress target) env).isSome →
        E (valueOf target.clientid ++ "_" ++ valueOf target.hardwareid)
  | _ => True

/-- Every call keeps the names in entries, and the names of computers, if those that are
    created satisfy `E`, as those that are escaped do. -/
theorem later_labels (hescape : ∀ name, E (escapeName name))
    (h : LeadsTo s.fs s.investigationCaseDB.baseDbPath b) (hl : Labelled b E s.fs) {a : Call}
    (ha : a.Works) (hids : PlainIds a) (hcreates : Creates E s a) :
    Later (Labels b E) s.fs (s.call a).2.fs := by
  cases a with
  | register ipAddress target env =>
    rw [call]
    cases hnew : s.isNew (.ofRegister ipAddress target) with
    | false =>
      rw [addClient_of_not_isNew env hnew]
      exact .refl
    | true =>
      rw [addClient_of_isNew env hnew]
      obtain ⟨hlookup, hfits⟩ := later_labels_lookupComputer h hl ha
        (.ofRegister ipAddress target) hids.1 hids.2 (hcreates hnew)
      exact hlookup.trans (later_labels_addNewClient ha hfits)
  | diskinfo ipAddress clientid hardwareid devices io =>
    rw [call]
    cases hsender : s.sender (.new clientid hardwareid ipAddress) with
    | none =>
      rw [diskInformation_of_none devices io hsender]
      exact .refl
    | some computer =>
      rw [diskInformation_of_sender devices io hsender]
      exact later_writeDiskInformation fun dir name =>
        labels_of_last (append_txt_ne (by decide +kernel)) (append_txt_ne (by decide +kernel))
  | addDevice target env =>
    rw [call, addDirect]
    cases TargetAddress.ofString target with
    | error e => exact .refl
    | ok address =>
      dsimp only
      rw [addRemoteDevice]
      cases RemoteDeviceManager.listTargets address env.discovery with
      | error e => exact .refl
      | ok devices =>
        dsimp only
        rw [exportDevices_direct]
        exact .refl
  | createInvestigationCase investigationCase io => exact later_labels_createCase h ha _
  | createComputer caseName computer env io =>
    -- the name of the entry of a case is not in lower case, as escaped names are
    have hname : escapeName computer.urlcomputerName ≠ investigationEntryName := by
      intro heq
      have hescaped := escapeName_escapeName computer.urlcomputerName
      rw [heq] at hescaped
      exact absurd hescaped (by decide +kernel)
    have hE : E (escapeName computer.urlcomputerName) := hescape _
    rw [call, RaqetControl.createComputer]
    exact later_labels_createComputer h ha.2 env caseName
      { urlcomputerName := escapeName computer.urlcomputerName
        computerName := computer.computerName
        clientId := computer.clientid } (slash_notMem_escapeName _) hname fun _ => hE

end Raqet
