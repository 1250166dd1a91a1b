import Raqet.Database.Ownership

/-!
# The ids of entries

The entry of a computer says which client and which hardware it is of (`idsAt`). As long as
no file operation fails (`Works`), an update writes the ids of an entry to its folder, a
creation writes them to a directory that was not there, and nothing else changes ids. An
entry that was found has the ids that were searched for, and if none is found, no entry of a
computer that is listed has them (`findClient_ok_none`).
-/

namespace Raqet

open Java FileSystem InvestigationCaseDB

/-- Directories are listed and files are read without failures. -/
structure ReadEnv.Works (env : ReadEnv) : Prop where
  listing : ∀ f, env.listing f ≠ none
  readable : ∀ f, env.unreadable f = false

/-- An entry is inserted without failures. -/
structure InsertIo.Works (io : InsertIo) : Prop where
  mkdir : io.mkdirFails = false
  write : io.write = .ok

/-- The client and the hardware of an entry. -/
def ComputerFields.ids (c : ComputerFields) : String × String := (c.clientId, c.hardwareId)

/-- They are the ids that are searched for; none is if one of those is `null`. -/
def ComputerFields.Matches (c : ComputerFields) (clientid hardwareId : Option String) : Prop :=
  some c.clientId = clientid ∧ some c.hardwareId = hardwareId

theorem ComputerFields.matches_some {c : ComputerFields} {ids : String × String} :
    c.Matches ids.1 ids.2 ↔ c.ids = ids := by
  rw [Matches, Option.some.injEq, Option.some.injEq, Prod.ext_iff]
  exact Iff.rfl

/-- The ids of the entry in a directory, if it is there. -/
def idsAt (fs : Disk) (dir : List String) : Option (String × String) :=
  match fs.node (dir ++ [computerEntryName]) with
  | some (.file content) => content.computer.map ComputerFields.ids
  | _ => none

/-- The entry of the computer is in this directory, to which its folder leads. -/
structure HeldAt (fs : Disk) (dir : List String) (computer : ComputerDbEntry) : Prop where
  names : computer.baseStorageFolder.names ≠ []
  locate : fs.locate computer.baseStorageFolder = some dir
  isDirectory : fs.isDirectoryAt dir = true
  ids : idsAt fs dir = some computer.ids

/-- A change that writes no entry of a case. -/
def NoCase (_ : List String) (n : Node Content) : Prop :=
  ∀ content, n = .file content → content.investigationCase = none

variable {fs fs' : Disk} {dir dir' loc : List String} {computer : ComputerDbEntry} {f : File}
  {n : Node Content} {io : WriteIo} {content : Content} {ids : String × String}

/-! ## Changes -/

theorem idsAt_eq_some : idsAt fs dir = some ids ↔ ∃ content fields,
    fs.node (dir ++ [computerEntryName]) = some (.file content) ∧
      content.computer = some fields ∧ fields.ids = ids := by
  rw [idsAt]
  split
  next content h => simp [h]
  next h =>
    refine iff_of_false nofun ?_
    rintro ⟨content, -, hnode, -⟩
    exact h content hnode

theorem idsAt_set_of_ne (h : loc ≠ dir ++ [computerEntryName]) :
    idsAt (fs.set loc n) dir = idsAt fs dir := by
  rw [idsAt, idsAt, node_set_of_ne h.symm]

theorem idsAt_set : idsAt (fs.set (dir ++ [computerEntryName]) (.file content)) =
    Function.update (idsAt fs) dir (content.computer.map ComputerFields.ids) := by
  funext dir'
  by_cases h : dir' = dir
  · subst h
    rw [Function.update_self, idsAt, node_set_self (by simp)]
  · rw [Function.update_of_ne h, idsAt_set_of_ne]
    intro he
    exact h (List.append_cancel_right he).symm

/-- Files of other names are not entries. -/
theorem idsAt_later (h : Later (fun loc _ => loc.getLast? ≠ some computerEntryName) fs fs') :
    idsAt fs' = idsAt fs := by
  induction h with
  | refl => rfl
  | set _ _ hlast ih =>
    rw [← ih]
    funext dir
    refine idsAt_set_of_ne fun he => hlast ?_
    rw [he, List.getLast?_concat]

theorem idsAt_mkdir {fails : Bool} : idsAt (fs.mkdir fails f) = idsAt fs := by
  rw [FileSystem.mkdir]
  split
  next loc _ =>
    split_ifs with hif
    · rfl
    · funext dir
      by_cases he : loc = dir ++ [computerEntryName]
      · subst he
        have hnone : fs.node (dir ++ [computerEntryName]) = none := by
          simpa using (not_or.1 (mt Bool.or_eq_true_iff.2 hif)).2
        rw [idsAt, idsAt, node_set_self (by simp), hnone]
      · exact idsAt_set_of_ne he
  next => rfl

theorem later_noCase_mkdir {fails : Bool} : Later NoCase fs (fs.mkdir fails f) :=
  later_mkdir fun _ _ _ hn => nomatch hn

/-- A file of another name than that of the entries can be written. -/
theorem idsAt_write_other (names : List String) (name : String) (hf : f.names = names ++ [name])
    (hname : name ≠ "." ∧ name ≠ "..") (hne : name ≠ computerEntryName) :
    idsAt (fs.write io f content).2 = idsAt fs := by
  refine idsAt_later (later_write fun loc hloc => ?_)
  obtain ⟨dir, rfl⟩ := locate_last hf hname hloc
  rw [List.getLast?_concat]
  exact ⟨fun h => hne (Option.some.inj h), fun h => hne (Option.some.inj h)⟩

/-! ## Writing an entry -/

theorem HeldAt.later {P : List String → Node Content → Prop} (h : HeldAt fs dir computer)
    (hl : Later P fs fs') (hids : idsAt fs' dir = idsAt fs dir) : HeldAt fs' dir computer :=
  ⟨h.names, hl.locate h.locate, hl.isDirectoryAt h.isDirectory, hids.trans h.ids⟩

/-- An entry is written in its folder. -/
theorem write_entry (content : Content) (hnames : f.names ≠ []) (hlocate : fs.locate f = some dir)
    (hdir : fs.isDirectoryAt dir = true)
    (hno : fs.isDirectoryAt (dir ++ [computerEntryName]) = false) :
    writeValue fs .ok (f.child computerEntryName) content =
      (.ok (), fs.set (dir ++ [computerEntryName]) (.file content)) := by
  rw [writeValue, FileSystem.write, locate_child hnames isName_computerEntryName, hlocate,
    Option.bind_some, if_pos hdir]
  simp only [hno, Bool.false_eq_true, if_false]

/-- The entry of a computer can be updated with other fields. -/
theorem HeldAt.update (h : HeldAt fs dir computer) (computer' : ComputerDbEntry)
    (hfolder : computer'.baseStorageFolder = computer.baseStorageFolder) :
    ∃ fs', InvestigationCaseDB.update fs .ok computer' = (.ok (), fs') ∧
      idsAt fs' = Function.update (idsAt fs) dir (some computer'.ids) ∧
      HeldAt fs' dir computer' := by
  obtain ⟨content, fields, hnode, -, -⟩ := idsAt_eq_some.1 h.ids
  have hno : fs.isDirectoryAt (dir ++ [computerEntryName]) = false := by
    rw [isDirectoryAt, hnode]
  have hw := write_entry ⟨none, some computer'.toComputerFields⟩ (hfolder ▸ h.names)
    (hfolder ▸ h.locate) h.isDirectory hno
  have hl : Later (fun _ _ => True) fs (fs.set (dir ++ [computerEntryName])
      (.file ⟨none, some computer'.toComputerFields⟩)) := Later.refl.set hno trivial
  refine ⟨_, hw, idsAt_set, hfolder ▸ h.names, hl.locate (hfolder ▸ h.locate),
    hl.isDirectoryAt h.isDirectory, ?_⟩
  rw [idsAt_set, Function.update_self]
  rfl

/-- An entry is not written, and no ids change, or it is written in a directory, to which
    its folder leads. -/
theorem write_cases (fs : Disk) (content : Content) (hnames : f.names ≠ []) :
    ((writeValue fs .ok (f.child computerEntryName) content).1 ≠ .ok () ∧
      (writeValue fs .ok (f.child computerEntryName) content).2 = fs) ∨
    ∃ dir, fs.locate f = some dir ∧ fs.isDirectoryAt dir = true ∧
      fs.isDirectoryAt (dir ++ [computerEntryName]) = false := by
  by_cases h : ∃ dir, fs.locate f = some dir ∧ fs.isDirectoryAt dir = true ∧
    fs.isDirectoryAt (dir ++ [computerEntryName]) = false
  · exact .inr h
  left
  rw [writeValue, FileSystem.write, locate_child hnames isName_computerEntryName]
  cases hlocate : fs.locate f with
  | none => exact ⟨by rintro ⟨⟩, rfl⟩
  | some dir =>
    rw [Option.bind_some]
    by_cases hdir : fs.isDirectoryAt dir
    · rw [if_pos hdir]
      have hentry : fs.isDirectoryAt (dir ++ [computerEntryName]) = true := by
        by_contra hno
        exact h ⟨dir, hlocate, hdir, Bool.eq_false_iff.2 hno⟩
      simp only [hentry, if_true]
      exact ⟨by rintro ⟨⟩, trivial⟩
    · rw [if_neg hdir]
      exact ⟨by rintro ⟨⟩, rfl⟩

/-- What creating a computer does, if writing its entry does not fail: it ends with an
    exception and changes no ids, or the computer is in a directory that was not there. -/
structure Created (db : InvestigationCaseDB) (fs : Disk) (env : ReadEnv) (urlcaseName : String)
    (fields : ComputerFields) (computer : ComputerDbEntry) (fs' : Disk) (dir : List String) :
    Prop where
  fields_eq : computer.toComputerFields = fields
  new : fs.isDirectoryAt dir = false
  held : HeldAt fs' dir computer
  ids : idsAt fs' = Function.update (idsAt fs) dir (some fields.ids)
  folder : db.newFolder fs env urlcaseName fields = some computer.baseStorageFolder

theorem createComputer_cases (db : InvestigationCaseDB) (fs : Disk) (env : ReadEnv)
    (insert : InsertIo) (hio : insert.write = .ok) (urlcaseName : String)
    (fields : ComputerFields) :
    ((∀ computer, (db.createComputer fs env insert urlcaseName fields).1 ≠ .ok computer) ∧
      idsAt (db.createComputer fs env insert urlcaseName fields).2 = idsAt fs) ∨
    ∃ computer dir, (db.createComputer fs env insert urlcaseName fields).1 = .ok computer ∧
      Created db fs env urlcaseName fields computer
        (db.createComputer fs env insert urlcaseName fields).2 dir := by
  cases hnew : db.newFolder fs env urlcaseName fields with
  | none =>
    obtain ⟨e, he⟩ := createComputer_of_none insert hnew
    rw [he]
    exact .inl ⟨fun _ => by rintro ⟨⟩, rfl⟩
  | some folder =>
    obtain ⟨entry, hcase, hfolder, hex⟩ := newFolder_eq_some hnew
    have hnames : folder.names ≠ [] := by
      rw [hfolder] at hex ⊢
      exact names_ne_nil hex
    rw [createComputer_of_some insert hnew, hio]
    rcases write_cases (fs.mkdir insert.mkdirFails folder) ⟨none, some fields⟩ hnames with
      ⟨hne, hfs⟩ | ⟨dir, hlocate, hdir, hno⟩
    · refine .inl ⟨fun computer hc => hne ?_, ?_⟩
      · obtain ⟨u, hu, -⟩ := map_eq_ok.1 hc
        exact hu
      · rw [hfs, idsAt_mkdir]
    -- there was nothing at the location of the folder before it was made
    · have hnone : fs.isDirectoryAt dir = false := by
        rw [locate_mkdir] at hlocate
        rw [FileSystem.exists, FileSystem.read, hlocate, Option.bind_some,
          Option.isSome_eq_false_iff, Option.isNone_iff_eq_none] at hex
        rw [isDirectoryAt, hex]
      have hset : Later (fun _ _ => True) (fs.mkdir insert.mkdirFails folder)
          ((fs.mkdir insert.mkdirFails folder).set (dir ++ [computerEntryName])
            (.file ⟨none, some fields⟩)) := Later.refl.set hno trivial
      rw [write_entry ⟨none, some fields⟩ hnames hlocate hdir hno]
      refine .inr ⟨_, dir, rfl, rfl, hnone,
        ⟨hnames, hset.locate hlocate, hset.isDirectoryAt hdir, ?_⟩, ?_, hnew⟩
      · rw [idsAt_set, Function.update_self]
        rfl
      · rw [idsAt_set, idsAt_mkdir]
        rfl

/-! ## Searching for ids -/

variable {db : InvestigationCaseDB} {env : ReadEnv} {clientid hardwareId : Option String}

/-- An entry that was found is that of a computer that is listed in a case that is listed,
    and has the ids. -/
structure FoundIn (db : InvestigationCaseDB) (fs : Disk) (env : ReadEnv)
    (clientid hardwareId : Option String) (cases : List String) (computer : ComputerDbEntry)
    (caseName computerName : String) : Prop where
  mem_cases : caseName ∈ cases
  computers : ∃ computers, db.getComputers fs env caseName = .ok computers ∧
    computerName ∈ computers
  getComputer : db.getComputer fs env caseName computerName = .ok computer
  ids : computer.Matches clientid hardwareId

theorem findInCases_ok_some {cases : List String}
    (h : db.findInCases fs env clientid hardwareId cases = .ok (some computer)) :
    ∃ caseName computerName,
      FoundIn db fs env clientid hardwareId cases computer caseName computerName := by
  induction cases with
  | nil => cases h
  | cons caseName cases ih =>
    rw [findInCases] at h
    cases hcomputers : db.getComputers fs env caseName with
    | error e =>
      rw [hcomputers] at h
      cases h
    | ok computers =>
      rw [hcomputers] at h
      dsimp only at h
      cases hfind : db.findComputer fs env clientid hardwareId caseName computers with
      | none =>
        rw [hfind] at h
        obtain ⟨caseName', computerName, hfound⟩ := ih h
        exact ⟨caseName', computerName, { hfound with
          mem_cases := List.mem_cons_of_mem _ hfound.mem_cases }⟩
      | some computer' =>
        rw [hfind] at h
        cases h
        obtain ⟨computerName, hmem, hget⟩ := List.exists_of_findSome?_eq_some hfind
        cases hc : db.getComputer fs env caseName computerName with
        | error e =>
          rw [hc] at hget
          cases hget
        | ok computer' =>
          rw [hc] at hget
          dsimp only at hget
          split_ifs at hget with hid
          cases hget
          exact ⟨caseName, computerName, List.mem_cons_self, ⟨computers, hcomputers, hmem⟩, hc,
            hid⟩

/-- An entry that is found. -/
theorem findClient_ok_some (h : db.findClient fs env clientid hardwareId = .ok (some computer)) :
    ∃ cases caseName computerName, db.getCases fs env = .ok cases ∧
      FoundIn db fs env clientid hardwareId cases computer caseName computerName := by
  rw [findClient] at h
  cases hcases : db.getCases fs env with
  | error e =>
    rw [hcases] at h
    cases h
  | ok cases =>
    rw [hcases] at h
    obtain ⟨caseName, computerName, hfound⟩ := findInCases_ok_some h
    exact ⟨cases, caseName, computerName, rfl, hfound⟩

theorem findComputer_none {caseName : String} {computers : List String}
    (h : db.findComputer fs env clientid hardwareId caseName computers = none) :
    ∀ computerName ∈ computers, ∀ computer,
      db.getComputer fs env caseName computerName = .ok computer →
        ¬computer.Matches clientid hardwareId := by
  intro computerName hmem computer hc hids
  have hnone := List.findSome?_eq_none_iff.1 h computerName hmem
  rw [hc] at hnone
  dsimp only at hnone
  rw [if_pos (And.intro hids.1 hids.2)] at hnone
  cases hnone

theorem findInCases_ok_none {cases : List String}
    (h : db.findInCases fs env clientid hardwareId cases = .ok none) :
    ∀ caseName ∈ cases, ∃ computers, db.getComputers fs env caseName = .ok computers ∧
      ∀ computerName ∈ computers, ∀ computer,
        db.getComputer fs env caseName computerName = .ok computer →
          ¬computer.Matches clientid hardwareId := by
  induction cases with
  | nil => exact List.forall_mem_nil _
  | cons caseName cases ih =>
    rw [findInCases] at h
    cases hcomputers : db.getComputers fs env caseName with
    | error e =>
      rw [hcomputers] at h
      cases h
    | ok computers =>
      rw [hcomputers] at h
      dsimp only at h
      cases hfind : db.findComputer fs env clientid hardwareId caseName computers with
      | some computer =>
        rw [hfind] at h
        cases h
      | none =>
        rw [hfind] at h
        exact List.forall_mem_cons.2 ⟨⟨computers, hcomputers, findComputer_none hfind⟩, ih h⟩

/-- If no entry is found, the search got through all cases and computers, and none that can
    be read has the ids. -/
theorem findClient_ok_none (h : db.findClient fs env clientid hardwareId = .ok none) :
    ∃ cases, db.getCases fs env = .ok cases ∧ ∀ caseName ∈ cases, ∃ computers,
      db.getComputers fs env caseName = .ok computers ∧ ∀ computerName ∈ computers, ∀ computer,
        db.getComputer fs env caseName computerName = .ok computer →
          ¬computer.Matches clientid hardwareId := by
  rw [findClient] at h
  cases hcases : db.getCases fs env with
  | error e =>
    rw [hcases] at h
    cases h
  | ok cases =>
    rw [hcases] at h
    exact ⟨cases, rfl, findInCases_ok_none h⟩

theorem Stored.heldAt (h : Stored fs computer) : ∃ dir, HeldAt fs dir computer := by
  obtain ⟨dir, content, hlocate, hdir, hnode, hc⟩ := h.entry
  exact ⟨dir, h.names, hlocate, hdir, idsAt_eq_some.2 ⟨content, _, hnode, hc, rfl⟩⟩

/-- An entry that is found is held in a directory, and has the ids. -/
theorem findClient_heldAt (h : db.findClient fs env clientid hardwareId = .ok (some computer)) :
    (∃ dir, HeldAt fs dir computer) ∧ computer.Matches clientid hardwareId := by
  obtain ⟨cases, caseName, computerName, hcases, hfound⟩ := findClient_ok_some h
  obtain ⟨computers, hcomputers, hmem⟩ := hfound.computers
  have hname := isName_of_foldersWith hcomputers hmem
  exact ⟨(getComputer_stored hname hfound.getComputer).1.heldAt, hfound.ids⟩

end Raqet
