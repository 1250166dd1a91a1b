import Raqet.Database.InvestigationCaseDB

/-!
# Whose folders they are

A folder that an entry of a computer was found or created in belongs to the client of the
entry: whatever the database does afterwards, an entry in it is of this client. The
bookkeeping is a partial function from directories to clients (`Owners`), which the file
system has to agree with (`Tracks`), and which grows when an entry is claimed
(`Stored.claim`).

The functions that write to the database only make changes that respect the owners
(`Respects`).
-/

namespace Raqet

open Java FileSystem InvestigationCaseDB

/-- The clients that directories belong to. -/
abbrev Owners := List String → Option String

/-- The entry in a directory, if it is there, is of this client. -/
structure Owned (fs : Disk) (clientid : String) (dir : List String) : Prop where
  isDirectory : fs.isDirectoryAt dir = true
  entry : ∀ content computer, fs.node (dir ++ [computerEntryName]) = some (.file content) →
    content.computer = some computer → computer.clientId = clientid

/-- The directories of the file system belong to their owners. -/
def Tracks (owners : Owners) (fs : Disk) : Prop :=
  ∀ dir clientid, owners dir = some clientid → Owned fs clientid dir

/-- A change that no owner of a directory objects to. -/
def Respects (owners : Owners) (loc : List String) (n : Node Content) : Prop :=
  ∀ dir clientid content computer, owners dir = some clientid → loc = dir ++ [computerEntryName] →
    n = .file content → content.computer = some computer → computer.clientId = clientid

/-- Directories get owners, and keep those that they have. -/
def Extends (owners owners' : Owners) : Prop :=
  ∀ dir clientid, owners dir = some clientid → owners' dir = some clientid

/-- A folder that leads to a directory of this client. -/
structure Belongs (owners : Owners) (fs : Disk) (clientid : String) (folder : File) : Prop where
  names : folder.names ≠ []
  directory : ∃ dir, fs.locate folder = some dir ∧ owners dir = some clientid

/-- The entry is in its folder. -/
structure Stored (fs : Disk) (computer : ComputerDbEntry) : Prop where
  names : computer.baseStorageFolder.names ≠ []
  entry : ∃ dir content, fs.locate computer.baseStorageFolder = some dir ∧
    fs.isDirectoryAt dir = true ∧ fs.node (dir ++ [computerEntryName]) = some (.file content) ∧
    content.computer = some computer.toComputerFields

variable {owners owners' owners'' : Owners} {fs fs' fs'' : Disk} {clientid : String}
  {folder f : File} {computer : ComputerDbEntry} {P : List String → Node Content → Prop}
  {loc : List String} {db : InvestigationCaseDB} {env : ReadEnv}

/-! ## Keeping track -/

theorem Extends.refl : Extends owners owners := fun _ _ h => h

theorem Extends.trans (h : Extends owners owners') (h' : Extends owners' owners'') :
    Extends owners owners'' := fun dir clientid hdir => h' dir clientid (h dir clientid hdir)

theorem Tracks.later (h : Tracks owners fs) (hl : Later (Respects owners) fs fs') :
    Tracks owners fs' := by
  intro dir clientid hdir
  obtain ⟨hd, he⟩ := h dir clientid hdir
  refine ⟨hl.isDirectoryAt hd, ?_⟩
  -- the entry is the old one, or one that was written and respects the owner
  refine hl.node (R := fun o => ∀ content computer, o = some (.file content) →
    content.computer = some computer → computer.clientId = clientid) he
    fun n hn content computer hc => ?_
  exact hn dir clientid content computer hdir rfl (Option.some.inj hc)

theorem Belongs.later (h : Belongs owners fs clientid folder) (he : Extends owners owners')
    (hl : Later P fs fs') : Belongs owners' fs' clientid folder := by
  obtain ⟨dir, hloc, hdir⟩ := h.directory
  exact ⟨h.names, dir, hl.locate hloc, he dir clientid hdir⟩

/-- A folder belongs to one client. -/
theorem Belongs.unique {clientid' : String} (h : Belongs owners fs clientid folder)
    (h' : Belongs owners fs clientid' folder) : clientid = clientid' := by
  obtain ⟨dir, hloc, hdir⟩ := h.directory
  obtain ⟨dir', hloc', hdir'⟩ := h'.directory
  rw [hloc, Option.some.injEq] at hloc'
  rw [← hloc', hdir, Option.some.injEq] at hdir'
  exact hdir'

/-- The folder of an entry belongs to the client of the entry, or can be given to it. -/
theorem Stored.claim (h : Stored fs computer) (ht : Tracks owners fs) :
    ∃ owners', Extends owners owners' ∧ Tracks owners' fs ∧
      Belongs owners' fs computer.clientId computer.baseStorageFolder := by
  obtain ⟨dir, content, hloc, hdir, hnode, hc⟩ := h.entry
  -- a folder that nobody owns is given to the client of its entry
  cases ho : owners dir with
  | some clientid =>
    have := (ht dir clientid ho).entry content computer.toComputerFields hnode hc
    exact ⟨owners, .refl, ht, h.names, dir, hloc, by rw [ho, this]⟩
  | none =>
    refine ⟨Function.update owners dir (some computer.clientId), ?_, ?_, h.names, dir, hloc,
      Function.update_self ..⟩
    · intro d clientid hd
      rw [Function.update_of_ne]
      · exact hd
      · rintro rfl
        rw [ho] at hd
        cases hd
    · intro d clientid hd
      by_cases he : d = dir
      · subst he
        rw [Function.update_self, Option.some.injEq] at hd
        subst hd
        refine ⟨hdir, fun content' computer' hnode' hc' => ?_⟩
        rw [hnode, Option.some.injEq, Node.file.injEq] at hnode'
        rw [← hnode', hc, Option.some.injEq] at hc'
        rw [← hc']
      · rw [Function.update_of_ne he] at hd
        exact ht d clientid hd

/-! ## Finding an entry -/

theorem readValue_eq_ok {T : Type} {parsed : Content → Option T} {value : T}
    (h : readValue fs env parsed f = .ok value) :
    ∃ content, fs.read f = some (.file content) ∧ parsed content = some value := by
  rw [readValue] at h
  split at h
  next content hcontent =>
    split at h
    next v hv =>
      split_ifs at h
      cases h
      exact ⟨content, hcontent, hv⟩
    next => cases h
  next => cases h

theorem isName_computerEntryName : File.IsName computerEntryName := by decide +kernel

/-- A computer is read from its folder. -/
theorem getComputer_stored {urlcaseName urlcomputerName : String}
    (hname : File.IsName urlcomputerName)
    (h : db.getComputer fs env urlcaseName urlcomputerName = .ok computer) :
    Stored fs computer ∧
      computer.baseStorageFolder = (db.baseDbPath.child urlcaseName).child urlcomputerName := by
  rw [getComputer] at h
  obtain ⟨fields, hfields, rfl⟩ := map_eq_ok.1 h
  have hnames : ((db.baseDbPath.child urlcaseName).child urlcomputerName).names ≠ [] :=
    File.names_child_ne_nil hname.1
  obtain ⟨content, hread, hc⟩ := readValue_eq_ok hfields
  obtain ⟨dir, hloc, hdir, hnode⟩ := read_child hnames isName_computerEntryName hread
  exact ⟨⟨hnames, dir, content, hloc, hdir, hnode, hc⟩, rfl⟩

theorem isName_of_foldersWith {entryName name : String} {directory : File} {names : List String}
    (h : foldersWith fs env entryName directory = .ok names) (hname : name ∈ names) :
    File.IsName name := by
  rw [foldersWith] at h
  split at h
  · cases h
  next l hl =>
    cases h
    exact isName_of_mem_listFiles hl (List.mem_of_mem_filter hname)

/-- An entry that was found for a client, in the folder of a case. -/
structure FoundFor (fs : Disk) (clientid : Option String) (computer : ComputerDbEntry) :
    Prop where
  stored : Stored fs computer
  clientId : some computer.clientId = clientid
  length : 2 ≤ computer.baseStorageFolder.names.length

theorem findInCases_found {clientid hardwareId : Option String} {cases : List String}
    (hcases : ∀ caseName ∈ cases, File.IsName caseName)
    (h : db.findInCases fs env clientid hardwareId cases = .ok (some computer)) :
    FoundFor fs clientid computer := by
  induction cases with
  | nil => cases h
  | cons caseName cases ih =>
    rw [findInCases] at h
    split at h
    · cases h
    next computers hcomputers =>
      split at h
      next c hc =>
        cases h
        obtain ⟨computerName, hmem, hget⟩ := List.exists_of_findSome?_eq_some hc
        have hname := isName_of_foldersWith hcomputers hmem
        split at hget
        next c' hc' =>
          split_ifs at hget with hid
          cases hget
          obtain ⟨hstored, hfolder⟩ := getComputer_stored hname hc'
          refine ⟨hstored, hid.1, ?_⟩
          rw [hfolder, File.names_child_of_isSegment hname.1,
            File.names_child_of_isSegment (hcases caseName List.mem_cons_self).1]
          simp only [List.length_append, List.length_singleton]
          omega
        next => cases hget
      next => exact ih (fun c hc => hcases c (List.mem_cons_of_mem _ hc)) h

theorem findClient_found {clientid hardwareId : Option String}
    (h : db.findClient fs env clientid hardwareId = .ok (some computer)) :
    FoundFor fs clientid computer := by
  rw [findClient] at h
  split at h
  · cases h
  next cases hcases => exact findInCases_found (fun c hc => isName_of_foldersWith hcases hc) h

/-! ## Writing to the database -/

/-- The location of a path ends in its last name. -/
theorem locate_last {names : List String} {name : String} (hf : f.names = names ++ [name])
    (hname : name ≠ "." ∧ name ≠ "..") (h : fs.locate f = some loc) :
    ∃ dir, loc = dir ++ [name] := by
  rw [FileSystem.locate, hf, walk_append] at h
  obtain ⟨dir, -, hdir⟩ := Option.bind_eq_some_iff.1 h
  rw [FileSystem.walk] at hdir
  split_ifs at hdir
  rw [FileSystem.walk, FileSystem.enter, if_neg hname.1, if_neg hname.2, Option.some.injEq] at hdir
  exact ⟨dir, hdir.symm⟩

/-- A file of another name than that of the entries can be written. -/
theorem later_write_other (names : List String) (name : String) {io : WriteIo} {content : Content}
    (hf : f.names = names ++ [name]) (hname : name ≠ "." ∧ name ≠ "..")
    (hne : name ≠ computerEntryName) :
    Later (Respects owners) fs (fs.write io f content).2 := by
  refine later_write fun loc hloc => ?_
  obtain ⟨dir, rfl⟩ := locate_last hf hname hloc
  have hno : ∀ n, Respects owners (dir ++ [name]) n := fun n d _ _ _ _ he =>
    absurd (List.append_inj_right' he rfl) (by simpa using hne)
  exact ⟨hno _, hno _⟩

theorem later_write_child {name : String} {io : WriteIo} {content : Content}
    (hname : File.IsName name) (hne : name ≠ computerEntryName) :
    Later (Respects owners) fs (fs.write io (f.child name) content).2 :=
  later_write_other f.names name (File.names_child_of_isSegment hname.1) hname.2 hne

theorem writeValue_snd {io : WriteIo} {content : Content} :
    (writeValue fs io f content).2 = (fs.write io f content).2 := by
  rw [writeValue]
  split
  next h => rw [h]
  next h => rw [h]

theorem later_mkdir_respects {fails : Bool} : Later (Respects owners) fs (fs.mkdir fails f) :=
  later_mkdir fun _ _ _ _ _ _ _ _ hn => nomatch hn

theorem later_createCase {io : InsertIo} {entry : InvestigationCaseDbEntry} :
    Later (Respects owners) fs (db.createCase fs io entry).2 := by
  rw [createCase]
  split_ifs
  · exact .refl
  · rw [writeValue_snd]
    exact later_mkdir_respects.trans (later_write_child (by decide +kernel) (by decide +kernel))

/-- The entry in a folder can be written for its client. -/
theorem later_update (io : WriteIo) (hid : computer.clientId = clientid)
    (h : Belongs owners fs clientid computer.baseStorageFolder) :
    Later (Respects owners) fs (update fs io computer).2 := by
  subst hid
  obtain ⟨dir, hloc, hdir⟩ := h.directory
  rw [update, writeValue_snd]
  refine later_write fun loc hl => ?_
  rw [locate_child h.names isName_computerEntryName, hloc, Option.bind_some] at hl
  split_ifs at hl
  cases hl
  have hself : ∀ d clientid, owners d = some clientid →
      dir ++ [computerEntryName] = d ++ [computerEntryName] → computer.clientId = clientid := by
    intro d clientid hd he
    rw [List.append_cancel_right_eq] at he
    rw [← he, hdir] at hd
    exact Option.some.inj hd
  refine ⟨fun d clientid content c hd he hn hc => ?_, fun d clientid content c hd he hn hc => ?_⟩
  · cases hn
    cases hc
    exact hself d clientid hd he
  · cases hn
    cases hc

/-- An entry can be written in a folder that was not there, for any client. -/
theorem later_insert {io : InsertIo} {fields : ComputerFields} (ht : Tracks owners fs)
    (hnames : folder.names ≠ []) (hno : fs.exists folder = false) :
    Later (Respects owners) (fs.mkdir io.mkdirFails folder)
      ((fs.mkdir io.mkdirFails folder).write io.write (folder.child computerEntryName)
        ⟨none, some fields⟩).2 := by
  refine later_write fun loc hl => ?_
  rw [locate_child hnames isName_computerEntryName, locate_mkdir] at hl
  obtain ⟨dir, hloc, hif⟩ := Option.bind_eq_some_iff.1 hl
  split_ifs at hif
  cases hif
  have hfree : ∀ n, Respects owners (dir ++ [computerEntryName]) n := by
    intro n d clientid _ _ hd he
    rw [List.append_cancel_right_eq] at he
    subst he
    have hnode := isDirectoryAt_iff.1 (ht dir clientid hd).isDirectory
    rw [FileSystem.exists, FileSystem.read, hloc, Option.bind_some, hnode] at hno
    cases hno
  exact ⟨hfree _, hfree _⟩

theorem stored_insert {io : WriteIo} {fs₁ : Disk} (hnames : computer.baseStorageFolder.names ≠ [])
    (h : writeValue fs₁ io (computer.baseStorageFolder.child computerEntryName)
      ⟨none, some computer.toComputerFields⟩ = (.ok (), fs')) : Stored fs' computer := by
  rw [writeValue] at h
  split at h
  next fs₂ hw =>
    cases h
    obtain ⟨loc, hl, hdir, rfl⟩ := write_eq_true hw
    have hlater : Later (fun _ _ => True) fs₁
        (fs₁.set loc (.file ⟨none, some computer.toComputerFields⟩)) :=
      Later.refl.set hdir trivial
    rw [locate_child hnames isName_computerEntryName] at hl
    obtain ⟨dir, hloc, hif⟩ := Option.bind_eq_some_iff.1 hl
    split_ifs at hif with hd
    cases hif
    exact ⟨hnames, dir, _, hlater.locate hloc, hlater.isDirectoryAt hd,
      node_set_self (List.append_ne_nil_of_right_ne_nil _ (List.cons_ne_nil _ _)), rfl⟩
  next => cases h

/-- A folder without a name is the root directory. -/
theorem names_ne_nil {name : String} (h : fs.exists (folder.child name) = false) :
    (folder.child name).names ≠ [] := by
  intro hn
  have hf : folder.names = [] := (List.append_eq_nil_iff.1 hn).1
  have habs : (folder.child name).absolute = true := by
    rw [File.absolute_child, hf, List.isEmpty_nil, Bool.or_true]
  rw [FileSystem.exists, FileSystem.read, FileSystem.locate, hn, habs] at h
  cases h

/-- A computer is created in a folder that was not there. -/
theorem createComputer_later (db : InvestigationCaseDB) (env : ReadEnv) (io : InsertIo)
    (urlcaseName : String) (fields : ComputerFields) (ht : Tracks owners fs) :
    Later (Respects owners) fs (db.createComputer fs env io urlcaseName fields).2 ∧
      ∀ computer, (db.createComputer fs env io urlcaseName fields).1 = .ok computer →
        computer.toComputerFields = fields ∧
        Stored (db.createComputer fs env io urlcaseName fields).2 computer ∧
        ∃ names, computer.baseStorageFolder.names = names ++ pathNames fields.urlcomputerName := by
  cases hnew : db.newFolder fs env urlcaseName fields with
  | none =>
    obtain ⟨e, he⟩ := createComputer_of_none io hnew
    rw [he]
    refine ⟨.refl, ?_⟩
    rintro _ ⟨⟩
  | some folder =>
    obtain ⟨entry, -, rfl, hex⟩ := newFolder_eq_some hnew
    have hnames := names_ne_nil hex
    rw [createComputer_of_some io hnew]
    refine ⟨?_, fun computer hc => ?_⟩
    · dsimp only
      rw [writeValue_snd]
      exact later_mkdir_respects.trans (later_insert ht hnames hex)
    · obtain ⟨u, hu, rfl⟩ := map_eq_ok.1 hc
      exact ⟨rfl, stored_insert hnames (Prod.ext hu rfl), _, rfl⟩

end Raqet
