import Raqet.Http.Labels
import Raqet.Http.StorageFolders
import Raqet.Database.Atomicity

/-!
# Names as keys

The names in a listing are to be keys: the computer that is returned for one is the one that
was listed, and its name is a key for the same computer (`NamesAreKeys`). The name in a
listing is that of the directory, and the name in an answer is escaped, so this holds if the
names of the directories are escaped.

Those of the computers that an investigator creates are, and those of the computers that are
created for clients are not: the names are keys throughout a run exactly when those that are
created for clients are what `escapeName` leaves of them (`namesAreKeys_iff`).
-/

namespace Raqet

open Java FileSystem InvestigationCaseDB RaqetControl

/-- The name of a computer in the listing of a case is a key: it leads to the computer, and
    so does the name in the answer. -/
def RaqetControl.IsKey (s : RaqetControl) (env : ReadEnv) (caseName : String) (k : ListedComputer) :
    Prop :=
  ∃ answer, s.getComputer env caseName k.urlcomputerName = .ok answer ∧
    answer.computerName = k.computerName ∧
    s.investigationCaseDB.getComputer s.fs env caseName answer.urlcomputerName =
      s.investigationCaseDB.getComputer s.fs env caseName k.urlcomputerName

/-- The names in all listings are keys, if no file operation fails. -/
def RaqetControl.NamesAreKeys (s : RaqetControl) : Prop :=
  ∀ env : ℕ → ReadEnv, (∀ n, (env n).Works) →
    ∀ cases computers, s.getInvestigationCases (env 0) = .ok cases → ∀ c ∈ cases,
      s.getComputers (env 1) c.urlCaseName = .ok computers → ∀ k ∈ computers,
        s.IsKey (env 2) c.urlCaseName k

/-- The name is what `escapeName` leaves of it. -/
def Escaped (name : String) : Prop := escapeName name = name

instance (name : String) : Decidable (Escaped name) := inferInstanceAs (Decidable (_ = _))

variable {b : List String} {E : String → Prop} {fs : Disk} {base folder : File}
  {db : InvestigationCaseDB} {env env' : ReadEnv} {caseName computerName entryName name : String}
  {s t : RaqetControl} {fields : ComputerFields} {clientEnv : AddClientEnv}

/-! ## Listings -/

theorem LeadsTo.foldersWith_ok (h : LeadsTo fs base b) (henv : env.Works) (entryName : String) :
    ∃ names, foldersWith fs env entryName base = .ok names := by
  obtain ⟨listing, hlisting⟩ := Option.ne_none_iff_exists'.1 (henv.listing base)
  rw [foldersWith, listFiles, h.locate, Option.bind_some, if_pos h.isDirectory, hlisting]
  exact ⟨_, rfl⟩

theorem Labelled.defaultCase (h : Labelled b E fs) : DefaultCase b fs := by
  intro content entry hnode hentry
  obtain ⟨content', entry', hcontent, hentry', hname⟩ :=
    (h _ _ hnode).caseEntry "defaultcase" rfl
  cases hcontent
  rw [hentry, Option.some.injEq] at hentry'
  rw [hentry', hname]

/-- An entry of a computer is no directory. -/
theorem Labelled.isDirectoryAt_entry (h : Labelled b E fs) (caseName computerName : String) :
    fs.isDirectoryAt (b ++ [caseName] ++ [computerName] ++ [computerEntryName]) = false := by
  rw [Bool.eq_false_iff]
  intro hdir
  obtain ⟨-, content, -, hfile, -⟩ :=
    (h _ _ (isDirectoryAt_iff.1 hdir)).computerEntry caseName computerName rfl
  cases hfile

/-- The entry of a case that is listed is read. -/
theorem Labelled.getCase_ok (hl : Labelled b E fs) (h : LeadsTo fs db.baseDbPath b)
    (henv : env.Works) (hlisted : Listed fs b caseName computerName) :
    ∃ entry, db.getCase fs env caseName = .ok entry ∧ entry.urlCaseName = caseName := by
  obtain ⟨n, hnode⟩ := Option.isSome_iff_exists.1 hlisted.caseEntry
  obtain ⟨content, entry, rfl, hentry, hname⟩ := (hl _ _ hnode).caseEntry caseName rfl
  have hcase := h.child hlisted.isName_case hlisted.caseDirectory
  refine ⟨entry, ?_, hname⟩
  rw [getCase, readValue, FileSystem.read, hcase.locate_child isName_investigationEntryName,
    Option.bind_some, hnode]
  simp only [hentry, henv.readable, Bool.false_eq_true, if_false]

/-- So is that of a computer. -/
theorem Labelled.getComputer_ok (hl : Labelled b E fs) (h : LeadsTo fs db.baseDbPath b)
    (henv : env.Works) (hlisted : Listed fs b caseName computerName)
    (hentry : (fs.node (b ++ [caseName] ++ [computerName] ++ [computerEntryName])).isSome) :
    ∃ computer, db.getComputer fs env caseName computerName = .ok computer ∧
      computer.urlcomputerName = computerName := by
  obtain ⟨n, hnode⟩ := Option.isSome_iff_exists.1 hentry
  obtain ⟨-, content, fields, rfl, hfields, hname⟩ :=
    (hl _ _ hnode).computerEntry caseName computerName rfl
  obtain ⟨computer, hget, -⟩ := getComputer_listed h henv hlisted
    (idsAt_eq_some.2 ⟨content, fields, hnode, hfields, rfl⟩)
  exact ⟨computer, hget, (getComputer_label h hl hlisted hget).1⟩

/-- What is read does not depend on how directories are listed. -/
theorem getComputer_congr (henv : env.Works) (henv' : env'.Works) :
    db.getComputer fs env caseName computerName = db.getComputer fs env' caseName computerName := by
  rw [InvestigationCaseDB.getComputer, InvestigationCaseDB.getComputer, readValue, readValue]
  simp only [henv.readable, henv'.readable]

/-- If the names of all computers are escaped, they are keys. -/
theorem Labelled.namesAreKeys (h : LeadsTo s.fs s.investigationCaseDB.baseDbPath b)
    (hl : Labelled b Escaped s.fs) : s.NamesAreKeys := by
  intro env henv cases computers hcases c hc hcomputers k hk
  obtain ⟨caseNames, hnames, rfl⟩ := map_eq_ok.1 hcases
  obtain ⟨caseName, hmem, hcase⟩ := List.mem_filterMap.1 hc
  obtain ⟨entry, hget, rfl⟩ := Option.map_eq_some_iff.1 hcase
  obtain ⟨hisName, hdir, hentry⟩ :=
    (h.mem_foldersWith isName_investigationEntryName hnames).1 hmem
  -- the name of a case is escaped once more in the answer
  have hurl : escapeName entry.urlCaseName = caseName := by
    rw [entry.escaped]
    exact getCase_label h hl hisName (toOption_eq_some.1 hget)
  dsimp only [InvestigationCase.new] at hcomputers ⊢
  rw [hurl] at hcomputers ⊢
  obtain ⟨computerNames, hnames', rfl⟩ := map_eq_ok.1 hcomputers
  obtain ⟨computerName, hmem', hcomputer⟩ := List.mem_filterMap.1 hk
  obtain ⟨computer, hget', rfl⟩ := Option.map_eq_some_iff.1 hcomputer
  obtain ⟨hisName', hdir', -⟩ :=
    ((h.child hisName hdir).mem_foldersWith isName_computerEntryName hnames').1 hmem'
  have hget' := toOption_eq_some.1 hget'
  obtain ⟨hurl', hescaped⟩ :=
    getComputer_label h hl ⟨hisName, hisName', hdir, hentry, hdir'⟩ hget'
  rw [getComputer_congr (henv 1) (henv 2)] at hget'
  refine ⟨⟨escapeName computer.urlcomputerName, computer.computerName, computer.clientId⟩, ?_, rfl,
    ?_⟩
  · dsimp only
    rw [RaqetControl.getComputer, hurl', hget', ← hurl']
    rfl
  · dsimp only
    rw [hurl', hescaped]

/-- A case that is listed in the directory is returned. -/
theorem Labelled.mem_getInvestigationCases (hl : Labelled b E s.fs)
    (h : LeadsTo s.fs s.investigationCaseDB.baseDbPath b) (henv : env.Works)
    (hlisted : Listed s.fs b caseName computerName) :
    ∃ cases, s.getInvestigationCases env = .ok cases ∧ ∃ c ∈ cases, c.urlCaseName = caseName := by
  obtain ⟨names, hnames⟩ := h.foldersWith_ok henv investigationEntryName
  obtain ⟨entry, hget, hname⟩ := hl.getCase_ok h henv hlisted
  have hmem := (h.mem_foldersWith isName_investigationEntryName hnames).2
    ⟨hlisted.isName_case, hlisted.caseDirectory, hlisted.caseEntry⟩
  refine ⟨_, map_eq_ok.2 ⟨names, hnames, rfl⟩, .new entry.urlCaseName entry.caseName,
    List.mem_filterMap.2 ⟨caseName, hmem, ?_⟩, ?_⟩
  · rw [toOption_eq_some.2 hget]
    rfl
  · rw [InvestigationCase.new, entry.escaped, hname]

/-- So is a computer in it. -/
theorem Labelled.mem_getComputers (hl : Labelled b E s.fs)
    (h : LeadsTo s.fs s.investigationCaseDB.baseDbPath b) (henv : env.Works)
    (hlisted : Listed s.fs b caseName computerName)
    (hentry : (s.fs.node (b ++ [caseName] ++ [computerName] ++ [computerEntryName])).isSome) :
    ∃ computers, s.getComputers env caseName = .ok computers ∧
      ∃ k ∈ computers, k.urlcomputerName = computerName := by
  have hcase := h.child hlisted.isName_case hlisted.caseDirectory
  obtain ⟨names, hnames⟩ := hcase.foldersWith_ok henv computerEntryName
  obtain ⟨computer, hget, hname⟩ := hl.getComputer_ok h henv hlisted hentry
  have hmem := (hcase.mem_foldersWith isName_computerEntryName hnames).2
    ⟨hlisted.isName_computer, hlisted.computerDirectory, hentry⟩
  refine ⟨_, map_eq_ok.2 ⟨names, hnames, rfl⟩, ⟨computer.urlcomputerName, computer.computerName⟩,
    List.mem_filterMap.2 ⟨computerName, hmem, ?_⟩, hname⟩
  rw [toOption_eq_some.2 hget]
  rfl

/-- If the name of a computer that is listed is a key, it is escaped. -/
theorem RaqetControl.NamesAreKeys.escaped (h : s.NamesAreKeys) (henv : env.Works)
    (hlead : LeadsTo s.fs s.investigationCaseDB.baseDbPath b) (hl : Labelled b E s.fs)
    (hlisted : Listed s.fs b caseName computerName)
    (hentry : (s.fs.node (b ++ [caseName] ++ [computerName] ++ [computerEntryName])).isSome)
    (hsegment : IsSegment (escapeName computerName)) : Escaped computerName := by
  obtain ⟨cases, hcases, c, hc, rfl⟩ := hl.mem_getInvestigationCases hlead henv hlisted
  obtain ⟨computers, hcomputers, k, hk, hname⟩ := hl.mem_getComputers hlead henv hlisted hentry
  obtain ⟨computer, hget, hurl⟩ := hl.getComputer_ok hlead henv hlisted hentry
  obtain ⟨answer, hanswer, -, hagain⟩ :=
    h (fun _ => env) (fun _ => henv) cases computers hcases c hc hcomputers k hk
  rw [hname, RaqetControl.getComputer, hget] at hanswer
  cases hanswer
  dsimp only at hagain
  rw [hurl, hname, hget] at hagain
  -- the entry is read in the folder of its name
  obtain ⟨_, -, hfolder⟩ := map_eq_ok.1 hagain
  obtain ⟨_, -, hfolder'⟩ := map_eq_ok.1 hget
  have hsame := congrArg ComputerDbEntry.baseStorageFolder (hfolder.trans hfolder'.symm)
  have hnames : (s.investigationCaseDB.baseDbPath.child c.urlCaseName).names ≠ [] :=
    File.names_child_ne_nil hlisted.isName_case.1
  exact ((File.child_inj hnames hnames hsegment hlisted.isName_computer.1).1 hsame).2

/-! ## Creating computers for clients -/

/-- A computer that is created in the default case is listed. -/
theorem Labelled.createComputer_listed (hl : Labelled b E fs) (h : LeadsTo fs db.baseDbPath b)
    {io : InsertIo} (hio : io.Works) (hname : File.IsName fields.urlcomputerName)
    (hnew : db.newFolder fs env "defaultcase" fields = some folder) :
    Listed (db.createComputer fs env io "defaultcase" fields).2 b "defaultcase"
        fields.urlcomputerName ∧
      ((db.createComputer fs env io "defaultcase" fields).2.node (b ++ ["defaultcase"] ++
        [fields.urlcomputerName] ++ [computerEntryName])).isSome := by
  obtain ⟨entry, hget, hfolder, hno⟩ := newFolder_eq_some hnew
  obtain ⟨hurl, hcaseDir, hcaseEntry⟩ := getCase_default h hl.defaultCase hget
  rw [hurl] at hfolder
  generalize hdir : b ++ ["defaultcase"] ++ [fields.urlcomputerName] = dir
  have hne : dir ≠ [] := hdir ▸ List.append_ne_nil_of_right_ne_nil _ (List.cons_ne_nil _ _)
  have hnames : folder.names ≠ [] := hfolder ▸ File.names_child_ne_nil hname.1
  have hloc : fs.locate folder = some dir := by
    rw [hfolder, ← hdir]
    exact (h.child isName_defaultcase hcaseDir).locate_child hname
  have hmkdir := mkdir_new hloc (node_of_not_exists hno hloc)
  -- the directory is made, and then the entry in it
  have hmade : Later (fun _ _ => True) fs (fs.set dir .directory) := by
    rw [← hmkdir]
    exact later_mkdir fun _ _ => trivial
  have hisDir : (fs.set dir .directory).isDirectoryAt dir = true := by
    rw [isDirectoryAt_iff, node_set_self hne]
  have hfree : (fs.set dir .directory).isDirectoryAt (dir ++ [computerEntryName]) = false := by
    rw [isDirectoryAt, node_set_of_ne (by simp), ← hdir]
    exact hl.isDirectoryAt_entry "defaultcase" fields.urlcomputerName
  have hfs : (db.createComputer fs env io "defaultcase" fields).2 =
      (fs.set dir .directory).set (dir ++ [computerEntryName]) (.file ⟨none, some fields⟩) := by
    rw [createComputer_of_some io hnew, hio.mkdir, hio.write, hmkdir,
      write_entry _ hnames (hmade.locate hloc) hisDir hfree]
  have hset : Later (fun _ _ => True) (fs.set dir .directory)
      ((fs.set dir .directory).set (dir ++ [computerEntryName]) (.file ⟨none, some fields⟩)) :=
    Later.refl.set hfree trivial
  have hlater := hmade.trans hset
  rw [hfs, node_set_self (by simp)]
  refine ⟨⟨isName_defaultcase, hname, hlater.isDirectoryAt hcaseDir,
    hlater.node (R := fun n => n.isSome) hcaseEntry fun _ _ => rfl, ?_⟩, rfl⟩
  rw [hdir]
  exact hset.isDirectoryAt hisDir

/-- So it is after the client was added. -/
theorem Labelled.register_listed {target : ClientInfo}
    (hl : Labelled b E s.fs) (h : LeadsTo s.fs s.investigationCaseDB.baseDbPath b)
    (henv : clientEnv.Works) (hid : '/' ∉ (valueOf target.clientId).toList)
    (hhardware : '/' ∉ (valueOf target.hardwareId).toList)
    (hnew : s.creating target clientEnv = some folder) :
    Listed (s.addNewClient target clientEnv).2.fs b "defaultcase"
        (valueOf target.clientId ++ "_" ++ valueOf target.hardwareId) ∧
      ((s.addNewClient target clientEnv).2.fs.node (b ++ ["defaultcase"] ++
        [valueOf target.clientId ++ "_" ++ valueOf target.hardwareId] ++
          [computerEntryName])).isSome := by
  have htrue : Labelled b (fun _ => True) s.fs := hl.mono fun _ _ => trivial
  have hlookup := (later_labels_lookupComputer h htrue henv target hid hhardware
    fun _ => trivial).2
  have hlater := later_labels_addNewClient henv hlookup
  rw [creating] at hnew
  have hcreated : Listed (lookupComputer s.investigationCaseDB s.fs target clientEnv).2 b
        "defaultcase" (valueOf target.clientId ++ "_" ++ valueOf target.hardwareId) ∧
      ((lookupComputer s.investigationCaseDB s.fs target clientEnv).2.node (b ++ ["defaultcase"] ++
        [valueOf target.clientId ++ "_" ++ valueOf target.hardwareId] ++
          [computerEntryName])).isSome := by
    cases hlookup : lookupComputer s.investigationCaseDB s.fs target clientEnv with
    | mk result fs' =>
      -- a computer is only created when both searches found none
      cases looksUp hlookup with
      | throws hfind | found hfind =>
        rw [hfind] at hnew
        cases hnew
      | throwsAgain hfind hagain | claims hfind hagain | claimFails hfind hagain =>
        rw [hfind, hagain] at hnew
        cases hnew
      | creates hfind hagain hcreate | createFails hfind hagain hcreate =>
        rw [hfind, hagain] at hnew
        have hcreated := hl.createComputer_listed h henv.insert
          (isName_defaultComputer target hid hhardware) hnew
        rwa [hcreate] at hcreated
  exact ⟨hcreated.1.later hlater, hlater.node (R := fun n => n.isSome) hcreated.2 fun _ _ => rfl⟩

/-- The name of a computer that is created for a client keeps its underscore. -/
theorem isSegment_escapeName_default (clientid hardwareid : String) :
    IsSegment (escapeName (clientid ++ "_" ++ hardwareid)) := by
  refine ⟨fun hempty => ?_, slash_notMem_escapeName _⟩
  have hmem : '_' ∈ (escapeName (clientid ++ "_" ++ hardwareid)).toList := by
    rw [escapeName, String.toList_ofList]
    exact List.mem_map.2 ⟨'_', List.mem_filter.2 ⟨by simp, by decide⟩, by decide⟩
  rw [hempty] at hmem
  exact absurd hmem (by decide)

/-! ## Runs -/

/-- What holds in every state of a run in which the names that are created are escaped. -/
structure Keyed (base : File) (b : List String) (s : RaqetControl) : Prop where
  investigationCaseDB : s.investigationCaseDB = ⟨base⟩
  leadsTo : LeadsTo s.fs base b
  labelled : Labelled b Escaped s.fs

theorem keyed_call {a : Call} (ha : a.Works) (hids : PlainIds a) (h : Keyed base b s)
    (hcreates : Creates Escaped s a) : Keyed base b (s.call a).2 := by
  obtain ⟨hdb, hlead, hl⟩ := h
  refine ⟨(investigationCaseDB_call s a).trans hdb, hlead.later (call_later s a), hl.later ?_⟩
  exact later_labels escapeName_escapeName (hdb ▸ hlead) hl ha hids hcreates

/-- A name that is created and is not escaped is not a key. -/
theorem RaqetControl.NamesAreKeys.creates {a : Call} (ha : a.Works) (hids : PlainIds a)
    (h : Keyed base b s)
    (hkeys : (s.call a).2.NamesAreKeys) : Creates Escaped s a := by
  obtain ⟨hdb, hlead, hl⟩ := h
  cases a with
  | register ipAddress target env =>
    intro hisNew hsome
    obtain ⟨folder, hnew⟩ := Option.isSome_iff_exists.1 hsome
    have hlead' : LeadsTo s.fs s.investigationCaseDB.baseDbPath b := hdb ▸ hlead
    obtain ⟨hcreated, hentry⟩ := hl.register_listed hlead' ha hids.1 hids.2 hnew
    have hcall : (s.call (.register ipAddress target env)).2 =
        (s.addNewClient (.ofRegister ipAddress target) env).2 :=
      congrArg Prod.snd (addClient_of_isNew env hisNew)
    -- without a condition on names, the call keeps the labels
    have htrue : Labelled b (fun _ => True) s.fs := hl.mono fun _ _ => trivial
    have hl' := htrue.later (later_labels (fun _ => trivial) hlead' htrue ha hids
      fun _ _ => trivial)
    rw [← hcall] at hcreated hentry
    refine hkeys.escaped ha.find (b := b) ?_ hl' hcreated hentry (isSegment_escapeName_default _ _)
    rw [investigationCaseDB_call]
    exact hlead'.later (call_later s _)
  | diskinfo => trivial
  | addDevice => trivial
  | createInvestigationCase => trivial
  | createComputer => trivial

/-- In a run without failing file operations, on an evidence directory that was empty at
    first, whose clients have no slashes in their ids: the names in all listings are keys in
    every state exactly when the names of the computers that are created for clients are what
    `escapeName` leaves of them. -/
theorem namesAreKeys_iff {io : InsertIo} {l : List Call} (hlead : LeadsTo fs base b)
    (hempty : ∀ names, names ≠ [] → fs.node (b ++ names) = none) (hio : io.Works)
    (hl : ∀ a ∈ l, a.Works ∧ PlainIds a)
    (h : Transition.runs step (.new base fs io) l = some t) :
    Transition.Throughout step NamesAreKeys (.new base fs io) l ↔
      Transition.AllSteps step (Creates Escaped) (.new base fs io) l := by
  have hnew : Keyed base b (.new base fs io) :=
    keyed_call (s := ⟨⟨base⟩, fs, [], []⟩)
      (a := .createInvestigationCase (.new "defaultcase" "defaultcase") io) hio trivial
      ⟨rfl, hlead, labelled_of_empty hempty⟩ trivial
  refine Transition.throughout_iff_of (R := fun _ a => a.Works ∧ PlainIds a)
    (fun s hs => hs.labelled.namesAreKeys (hs.investigationCaseDB ▸ hs.leadsTo)) ?_ ?_ h
    (.of_forall fun _ => hl) hnew
  all_goals
    rintro s a t ⟨ha, hids⟩ hs hstep
    cases hstep
  · exact keyed_call ha hids hs
  · exact fun hkeys => RaqetControl.NamesAreKeys.creates ha hids hs hkeys

/-- A client with this id registers, and no devices are discovered. -/
def registersId (clientid : String) : Call := registersIds clientid "one"

theorem works_registersId {clientid : String} (hid : '/' ∉ clientid.toList) :
    (registersId clientid).Works ∧ PlainIds (registersId clientid) := by
  have hone : '/' ∉ "one".toList := by decide +kernel
  exact ⟨works_registersIds _ _, hid, hone⟩

/-- The names of a client in lower case. -/
theorem namesAreKeys_iff_lower : Transition.Throughout step NamesAreKeys
    (.new (File.ofPath "/var/raqet") emptyEvidence ⟨false, .ok⟩) [registersId "client"] := by
  have hworks : ∀ a ∈ [registersId "client"], a.Works ∧ PlainIds a :=
    List.forall_mem_singleton.2 (works_registersId (by decide +kernel))
  refine (namesAreKeys_iff (t := serverAfter [registersId "client"]) leadsTo_emptyEvidence
    (fun _ => node_emptyEvidence) ⟨rfl, rfl⟩ hworks rfl).2 ⟨?_, fun _ _ => trivial⟩
  have hescaped : Escaped ("client" ++ "_" ++ "one") := by decide +kernel
  exact fun _ _ => hescaped

/-- The computer of a client in upper case is listed and returned, but not for the name in
    the answer. -/
theorem not_namesAreKeys_upper :
    ¬∀ (base : File) (b : List String) (fs : Disk) (io : InsertIo) (l : List Call)
      (t : RaqetControl), LeadsTo fs base b →
      (∀ names, names ≠ [] → fs.node (b ++ names) = none) → io.Works →
      (∀ a ∈ l, a.Works ∧ PlainIds a) → Transition.runs step (.new base fs io) l = some t →
        t.NamesAreKeys := by
  intro h
  have hworks : ∀ a ∈ [registersId "Client"], a.Works ∧ PlainIds a :=
    List.forall_mem_singleton.2 (works_registersId (by decide +kernel))
  have hkeys := h (File.ofPath "/var/raqet") ["var", "raqet"] emptyEvidence ⟨false, .ok⟩
    [registersId "Client"] (serverAfter [registersId "Client"]) leadsTo_emptyEvidence
    (fun _ => node_emptyEvidence) ⟨rfl, rfl⟩ hworks rfl
  obtain ⟨answer, hanswer, -, hagain⟩ := hkeys (fun _ => readable) (fun _ => works_readable)
    [⟨"defaultcase", "defaultcase"⟩] [⟨"Client_one", "Client_one"⟩] rfl _
    (List.mem_singleton_self _) rfl _ (List.mem_singleton_self _)
  have hname : answer.urlcomputerName = "client_one" := by
    cases hanswer
    decide +kernel
  rw [hname] at hagain
  revert hagain
  decide +kernel

end Raqet
