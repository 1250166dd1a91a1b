import Raqet.Database.Entries

/-!
# Unique ids

A client with hardware has at most one entry in the evidence directory, and it is listed
(`UniqueIds`): this holds of an empty evidence directory (`uniqueIds_of_empty`), and is kept
when ids that are not there are claimed or created. A search without failures finds an
entry that is listed (`findClient_complete`).
-/

namespace Raqet

open Java FileSystem InvestigationCaseDB

/-- The path leads to this directory. -/
structure LeadsTo (fs : Disk) (base : File) (b : List String) : Prop where
  path : base.names ≠ [] ∨ base.absolute = true
  locate : fs.locate base = some b
  isDirectory : fs.isDirectoryAt b = true

/-- The computer is listed in a case that is listed. -/
structure Listed (fs : Disk) (b : List String) (caseName computerName : String) : Prop where
  isName_case : File.IsName caseName
  isName_computer : File.IsName computerName
  caseDirectory : fs.isDirectoryAt (b ++ [caseName]) = true
  caseEntry : (fs.node (b ++ [caseName] ++ [investigationEntryName])).isSome
  computerDirectory : fs.isDirectoryAt (b ++ [caseName] ++ [computerName]) = true

/-- At most one computer has the ids, and it is listed. -/
structure UniqueIds (fs : Disk) (b : List String) (ids : String × String) : Prop where
  listed : ∀ caseName computerName, idsAt fs (b ++ [caseName] ++ [computerName]) = some ids →
    Listed fs b caseName computerName
  unique : ∀ caseName computerName caseName' computerName',
    idsAt fs (b ++ [caseName] ++ [computerName]) = some ids →
    idsAt fs (b ++ [caseName'] ++ [computerName']) = some ids →
    caseName = caseName' ∧ computerName = computerName'

/-- The default case has its own name in its entry. -/
def DefaultCase (b : List String) (fs : Disk) : Prop :=
  ∀ content entry, fs.node (b ++ ["defaultcase"] ++ [investigationEntryName]) =
      some (.file content) →
    content.investigationCase = some entry → entry.urlCaseName = "defaultcase"

variable {fs fs' : Disk} {base f : File} {b dir loc : List String} {ids : String × String}
  {caseName computerName name entryName : String} {env : ReadEnv} {db : InvestigationCaseDB}
  {P : List String → Node Content → Prop} {clientid hardwareId : Option String}
  {computer : ComputerDbEntry}

/-- Nothing has ids in an empty directory. -/
theorem uniqueIds_of_empty (ids : String × String)
    (h : ∀ names, names ≠ [] → fs.node (b ++ names) = none) :
    UniqueIds fs b ids ∧ DefaultCase b fs := by
  have hno (caseName computerName : String) :
      idsAt fs (b ++ [caseName] ++ [computerName]) = none := by
    rw [idsAt, List.append_assoc, List.append_assoc, h _ (by simp)]
  refine ⟨⟨fun caseName computerName hids => ?_, fun caseName computerName _ _ hids => ?_⟩,
    fun content entry hnode => ?_⟩
  · rw [hno] at hids
    cases hids
  · rw [hno] at hids
    cases hids
  · rw [List.append_assoc, h _ (by simp)] at hnode
    cases hnode

/-! ## Later file systems -/

theorem LeadsTo.later (h : LeadsTo fs base b) (hl : Later P fs fs') : LeadsTo fs' base b :=
  ⟨h.path, hl.locate h.locate, hl.isDirectoryAt h.isDirectory⟩

theorem Listed.later (h : Listed fs b caseName computerName) (hl : Later P fs fs') :
    Listed fs' b caseName computerName :=
  ⟨h.isName_case, h.isName_computer, hl.isDirectoryAt h.caseDirectory,
    hl.node (R := fun n => n.isSome) h.caseEntry fun _ _ => rfl,
    hl.isDirectoryAt h.computerDirectory⟩

/-- An entry of a case is written in no change, or it is that of the default case. -/
theorem DefaultCase.later (h : DefaultCase b fs) (hl : Later P fs fs')
    (hP : ∀ content entry, P (b ++ ["defaultcase"] ++ [investigationEntryName]) (.file content) →
      content.investigationCase = some entry → entry.urlCaseName = "defaultcase") :
    DefaultCase b fs' := by
  refine hl.node (R := fun n : Option (Node Content) => ∀ content entry, n = some (.file content) →
    content.investigationCase = some entry → entry.urlCaseName = "defaultcase") h ?_
  rintro _ hn content entry ⟨⟩ hentry
  exact hP content entry hn hentry

/-- No computer gets the ids. -/
theorem UniqueIds.later (h : UniqueIds fs b ids) (hl : Later P fs fs')
    (hids : ∀ dir, idsAt fs' dir = some ids → idsAt fs dir = some ids) : UniqueIds fs' b ids where
  listed _ _ h' := (h.listed _ _ (hids _ h')).later hl
  unique _ _ _ _ h₁ h₂ := h.unique _ _ _ _ (hids _ h₁) (hids _ h₂)

/-- One computer that is listed gets the ids, which no other has. -/
theorem UniqueIds.single (hlisted : Listed fs b caseName computerName)
    (h : ∀ dir, idsAt fs dir = some ids →
      (∃ caseName computerName, dir = b ++ [caseName] ++ [computerName]) →
      dir = b ++ [caseName] ++ [computerName]) : UniqueIds fs b ids := by
  have heq (caseName' computerName' : String)
      (hids : idsAt fs (b ++ [caseName'] ++ [computerName']) = some ids) :
      caseName' = caseName ∧ computerName' = computerName := by
    have he := h _ hids ⟨_, _, rfl⟩
    obtain ⟨he, hcomputer⟩ := List.append_inj' he rfl
    exact ⟨List.singleton_inj.1 (List.append_cancel_left he), List.singleton_inj.1 hcomputer⟩
  constructor
  · intro caseName' computerName' hids
    obtain ⟨rfl, rfl⟩ := heq _ _ hids
    exact hlisted
  · intro _ _ _ _ h₁ h₂
    obtain ⟨rfl, rfl⟩ := heq _ _ h₁
    obtain ⟨rfl, rfl⟩ := heq _ _ h₂
    exact ⟨rfl, rfl⟩

/-! ## Places -/

theorem path_child (f : File) (name : String) :
    (f.child name).names ≠ [] ∨ (f.child name).absolute = true := by
  by_cases hnames : f.names = []
  · right
    rw [File.absolute_child, hnames, List.isEmpty_nil, Bool.or_true]
  · exact .inl (List.append_ne_nil_of_left_ne_nil hnames _)

/-- A name without a slash leads to it in the directory, or upwards. -/
theorem locate_child_cases (hpath : f.names ≠ [] ∨ f.absolute = true) (hslash : '/' ∉ name.toList)
    (hloc : fs.locate (f.child name) = some loc) : ∃ dir, fs.locate f = some dir ∧
      (loc.length ≤ dir.length ∨ loc = dir ++ [name]) := by
  rw [locate_child_walk hpath] at hloc
  obtain ⟨dir, hdir, hwalk⟩ := Option.bind_eq_some_iff.1 hloc
  refine ⟨dir, hdir, ?_⟩
  by_cases hempty : name = ""
  · subst hempty
    exact .inl (Option.some.inj hwalk ▸ le_rfl)
  have hname : IsSegment name := ⟨hempty, hslash⟩
  rw [hname.pathNames, FileSystem.walk] at hwalk
  split_ifs at hwalk
  rw [FileSystem.walk, Option.some.injEq, FileSystem.enter] at hwalk
  split_ifs at hwalk
  · exact .inl (hwalk ▸ le_rfl)
  · exact .inl (hwalk ▸ by simp)
  · exact .inr hwalk.symm

theorem slash_notMem_escapeName (name : String) : '/' ∉ (escapeName name).toList := by
  rw [escapeName, String.toList_ofList, List.mem_map]
  rintro ⟨c, hc, hlower⟩
  have hname := (toLower_isNameChar (List.mem_filter.1 hc).2).1
  rw [hlower] at hname
  exact absurd hname (by decide)

/-- The folder of a case. -/
theorem LeadsTo.caseFolder_cases (h : LeadsTo fs base b) (hslash : '/' ∉ name.toList)
    (hloc : fs.locate (base.child name) = some loc) :
    loc.length ≤ b.length ∨ loc = b ++ [name] := by
  obtain ⟨dir, hdir, hcases⟩ := locate_child_cases h.path hslash hloc
  rw [h.locate, Option.some.injEq] at hdir
  exact hdir ▸ hcases

/-! ## Listings -/

theorem LeadsTo.locate_child (h : LeadsTo fs base b) (hname : File.IsName name) :
    fs.locate (base.child name) = some (b ++ [name]) := by
  rw [locate_child_of_path h.path hname, h.locate, Option.bind_some, if_pos h.isDirectory]

theorem LeadsTo.child (h : LeadsTo fs base b) (hname : File.IsName name)
    (hdir : fs.isDirectoryAt (b ++ [name]) = true) :
    LeadsTo fs (base.child name) (b ++ [name]) :=
  ⟨.inl (File.names_child_ne_nil hname.1), h.locate_child hname, hdir⟩

/-- The directories that are listed are those with an entry. -/
theorem LeadsTo.mem_foldersWith (h : LeadsTo fs base b) (hentry : File.IsName entryName)
    {names : List String} (hnames : foldersWith fs env entryName base = .ok names) :
    name ∈ names ↔ File.IsName name ∧ fs.isDirectoryAt (b ++ [name]) = true ∧
      (fs.node (b ++ [name] ++ [entryName])).isSome := by
  rw [foldersWith, listFiles, h.locate, Option.bind_some, if_pos h.isDirectory] at hnames
  cases hlisting : env.listing base with
  | none =>
    rw [hlisting] at hnames
    cases hnames
  | some listing =>
    rw [hlisting] at hnames
    cases hnames
    rw [List.mem_filter, (listing.perm _).mem_iff, mem_children, and_assoc]
    refine and_congr_right fun hname => ?_
    have hdir : fs.isDirectory (base.child name) = fs.isDirectoryAt (b ++ [name]) := by
      rw [FileSystem.isDirectory, h.locate_child hname]
      rfl
    rw [Bool.and_eq_true, hdir]
    constructor
    · rintro ⟨-, hisDir, hexists⟩
      have hchild := h.child hname hisDir
      rw [FileSystem.exists, FileSystem.read, hchild.locate_child hentry, Option.bind_some]
        at hexists
      exact ⟨hisDir, hexists⟩
    · rintro ⟨hisDir, hexists⟩
      have hchild := h.child hname hisDir
      rw [FileSystem.exists, FileSystem.read, hchild.locate_child hentry, Option.bind_some]
      exact ⟨by rw [isDirectoryAt_iff.1 hisDir]; rfl, hisDir, hexists⟩

theorem isName_investigationEntryName : File.IsName investigationEntryName := by decide +kernel

/-! ## Searches -/

/-- The folder of a computer leads to its directory. -/
theorem LeadsTo.computerFolder (h : LeadsTo fs base b)
    (hlisted : Listed fs b caseName computerName) :
    LeadsTo fs ((base.child caseName).child computerName) (b ++ [caseName] ++ [computerName]) :=
  (h.child hlisted.isName_case hlisted.caseDirectory).child hlisted.isName_computer
    hlisted.computerDirectory

/-- An entry that is found is that of a computer that is listed. -/
theorem findClient_listed (h : LeadsTo fs db.baseDbPath b)
    (hfind : db.findClient fs env clientid hardwareId = .ok (some computer)) :
    ∃ caseName computerName, Listed fs b caseName computerName ∧
      computer.baseStorageFolder = (db.baseDbPath.child caseName).child computerName := by
  obtain ⟨cases, caseName, computerName, hcases, hfound⟩ := findClient_ok_some hfind
  obtain ⟨computers, hcomputers, hmem⟩ := hfound.computers
  obtain ⟨hcase, hcaseDir, hcaseEntry⟩ :=
    (h.mem_foldersWith isName_investigationEntryName hcases).1 hfound.mem_cases
  obtain ⟨hcomputer, hdir, -⟩ :=
    ((h.child hcase hcaseDir).mem_foldersWith isName_computerEntryName hcomputers).1 hmem
  exact ⟨caseName, computerName, ⟨hcase, hcomputer, hcaseDir, hcaseEntry, hdir⟩,
    (getComputer_stored hcomputer hfound.getComputer).2⟩

/-- The computer in a directory that is listed is read with its ids. -/
theorem getComputer_listed (h : LeadsTo fs db.baseDbPath b) (henv : env.Works)
    (hlisted : Listed fs b caseName computerName)
    (hids : idsAt fs (b ++ [caseName] ++ [computerName]) = some ids) :
    ∃ computer, db.getComputer fs env caseName computerName = .ok computer ∧
      computer.ids = ids := by
  obtain ⟨content, fields, hnode, hcontent, hfields⟩ := idsAt_eq_some.1 hids
  have hread : fs.read (((db.baseDbPath.child caseName).child computerName).child
      computerEntryName) =
      some (.file content) := by
    rw [FileSystem.read, (h.computerFolder hlisted).locate_child isName_computerEntryName,
      Option.bind_some, hnode]
  have hvalue : readValue fs env Content.computer
      (((db.baseDbPath.child caseName).child computerName).child computerEntryName) =
        .ok fields := by
    rw [readValue, hread]
    simp only [hcontent, henv.readable, Bool.false_eq_true, if_false]
  exact ⟨_, map_eq_ok.2 ⟨fields, hvalue, rfl⟩, hfields⟩

/-- If none is found, no entry has the ids. -/
theorem findClient_complete (h : LeadsTo fs db.baseDbPath b) (henv : env.Works)
    (hunique : UniqueIds fs b ids) (hfind : db.findClient fs env ids.1 ids.2 = .ok none)
    (caseName computerName : String) :
    idsAt fs (b ++ [caseName] ++ [computerName]) ≠ some ids := by
  intro hids
  have hlisted := hunique.listed caseName computerName hids
  obtain ⟨cases, hcases, hnone⟩ := findClient_ok_none hfind
  obtain ⟨computers, hcomputers, hnone⟩ := hnone caseName
    ((h.mem_foldersWith isName_investigationEntryName hcases).2
      ⟨hlisted.isName_case, hlisted.caseDirectory, hlisted.caseEntry⟩)
  have hcase := h.child hlisted.isName_case hlisted.caseDirectory
  have hentry : (fs.node (b ++ [caseName] ++ [computerName] ++ [computerEntryName])).isSome := by
    obtain ⟨content, fields, hnode, -⟩ := idsAt_eq_some.1 hids
    rw [hnode]
    rfl
  obtain ⟨computer, hget, hcomputer⟩ := getComputer_listed h henv hlisted hids
  exact hnone computerName ((hcase.mem_foldersWith isName_computerEntryName hcomputers).2
    ⟨hlisted.isName_computer, hlisted.computerDirectory, hentry⟩) computer hget
      (ComputerFields.matches_some.2 hcomputer)

/-! ## The default case -/

theorem isName_defaultcase : File.IsName "defaultcase" := by decide +kernel

/-- The default case that is read is listed under its name. -/
theorem getCase_default (h : LeadsTo fs db.baseDbPath b) (hdefault : DefaultCase b fs)
    {entry : InvestigationCaseDbEntry} (hget : db.getCase fs env "defaultcase" = .ok entry) :
    entry.urlCaseName = "defaultcase" ∧ fs.isDirectoryAt (b ++ ["defaultcase"]) = true ∧
      (fs.node (b ++ ["defaultcase"] ++ [investigationEntryName])).isSome := by
  obtain ⟨content, hread, hentry⟩ := readValue_eq_ok hget
  obtain ⟨loc, hlocate, hdir, hnode⟩ := read_child
    (File.names_child_ne_nil isName_defaultcase.1) isName_investigationEntryName hread
  rw [h.locate_child isName_defaultcase, Option.some.injEq] at hlocate
  subst hlocate
  exact ⟨hdefault content entry hnode hentry, hdir, by rw [hnode]; rfl⟩

/-- The directory of the default case is made for no other case. -/
theorem urlCaseName_of_locate (h : LeadsTo fs base b) (hslash : '/' ∉ name.toList)
    (hlocate : fs.locate (base.child name) = some (b ++ ["defaultcase"])) :
    name = "defaultcase" := by
  rcases h.caseFolder_cases hslash hlocate with hle | heq
  · rw [List.length_append, List.length_singleton] at hle
    omega
  · exact (List.singleton_inj.1 (List.append_cancel_left heq)).symm

/-- A case that is created keeps the default case. -/
theorem DefaultCase.createCase (h : LeadsTo fs db.baseDbPath b) (hdefault : DefaultCase b fs)
    {io : InsertIo} {entry : InvestigationCaseDbEntry} :
    DefaultCase b (db.createCase fs io entry).2 := by
  have hslash : '/' ∉ entry.urlCaseName.toList := entry.escaped ▸ slash_notMem_escapeName _
  rw [InvestigationCaseDB.createCase]
  split_ifs
  · exact hdefault
  rw [writeValue_snd]
  have hmkdir : Later NoCase fs (fs.mkdir io.mkdirFails (db.baseDbPath.child entry.urlCaseName)) :=
    later_noCase_mkdir
  have hdefault' : DefaultCase b (fs.mkdir io.mkdirFails (db.baseDbPath.child entry.urlCaseName)) :=
    hdefault.later hmkdir fun content entry' hn hentry => by
      rw [hn content rfl] at hentry
      cases hentry
  refine hdefault'.later (P := fun loc n => loc = b ++ ["defaultcase"] ++ [investigationEntryName] →
    ∀ content entry', n = .file content → content.investigationCase = some entry' →
      entry'.urlCaseName = "defaultcase") (later_write fun loc hloc => ?_)
    fun content entry' hn => hn rfl content entry' rfl
  rw [locate_child_of_path (path_child _ _) isName_investigationEntryName] at hloc
  obtain ⟨dir, hdir, hif⟩ := Option.bind_eq_some_iff.1 hloc
  split_ifs at hif
  cases hif
  -- a whole entry has the name of its directory, half an entry has none
  refine ⟨fun he content entry' hn hentry => ?_, fun _ content entry' hn hentry => ?_⟩
  · cases hn
    cases hentry
    rw [List.append_cancel_right_eq] at he
    exact urlCaseName_of_locate (h.later hmkdir) hslash (he ▸ hdir)
  · cases hn
    cases hentry

end Raqet
