import Raqet.Database.Entries
import Raqet.Java.Tree
import Raqet.Transition

/-!
# Calls that fail

A case and a computer are created in two steps, the directory and then the file with the
entry, and an entry is updated in place. If writing the file fails, the directory stays: the
listings do not show it, but the call cannot be repeated, as the directory is taken for a
duplicate. An update that fails once the file is opened has replaced the entry.

* `Atomic`: if the call fails because a file could not be written, the database answers as
  before, and the call can be repeated;
* `Clean`: nothing is left behind: no directory is made, or the file has the entry that it
  had before.

In every run, the calls satisfy the first exactly when they satisfy the second
(`atomicCalls_iff`).
-/

namespace Raqet

open Java FileSystem InvestigationCaseDB

/-- A call that writes to the database. -/
inductive DbOperation
  | createCase (io : InsertIo) (investigationCaseDbEntry : InvestigationCaseDbEntry)
  | createComputer (env : ReadEnv) (io : InsertIo) (urlcaseName : String)
      (computerDbEntry : ComputerFields)
  | update (io : WriteIo) (computerDbEntry : ComputerDbEntry)

namespace DbOperation

/-- What the call returns or throws, and the file system after it. -/
def perform (db : InvestigationCaseDB) (fs : Disk) : DbOperation → Except Exn Unit × Disk
  | .createCase io entry => db.createCase fs io entry
  | .createComputer env io urlcaseName fields =>
    let (result, fs) := db.createComputer fs env io urlcaseName fields
    (result.map fun _ => (), fs)
  | .update io computer => InvestigationCaseDB.update fs io computer

def step (db : InvestigationCaseDB) (fs : Disk) (op : DbOperation) : Option Disk :=
  some (perform db fs op).2

/-- The same call, with a file system that works. -/
def working : DbOperation → DbOperation
  | .createCase _ entry => .createCase ⟨false, .ok⟩ entry
  | .createComputer env _ urlcaseName fields => .createComputer env ⟨false, .ok⟩ urlcaseName fields
  | .update _ computer => .update .ok computer

/-- The directory that the call makes, if it gets that far. -/
def newDirectory (db : InvestigationCaseDB) (fs : Disk) : DbOperation → Option File
  | .createCase _ entry =>
    let folder := db.baseDbPath.child entry.urlCaseName
    if fs.exists folder then none else some folder
  | .createComputer env _ urlcaseName fields => db.newFolder fs env urlcaseName fields
  | .update _ _ => none

/-- The call gets as far as writing a file. -/
def GetsToWrite (db : InvestigationCaseDB) (fs : Disk) : DbOperation → Prop
  | .createCase io entry => (newDirectory db fs (.createCase io entry)).isSome
  | .createComputer env io urlcaseName fields =>
    (newDirectory db fs (.createComputer env io urlcaseName fields)).isSome
  | .update _ _ => True

/-- The call ends with an exception because creating or writing a file failed. -/
def FailsToWrite (db : InvestigationCaseDB) (fs : Disk) (op : DbOperation) : Prop :=
  (∃ e, (perform db fs op).1 = .error e) ∧ GetsToWrite db fs op

/-- The same names are listed, in any order, or the same exception is thrown. -/
inductive SameNames : Except Exn (List String) → Except Exn (List String) → Prop
  | error (e : Exn) : SameNames (.error e) (.error e)
  | ok {names names' : List String} : names.Perm names' → SameNames (.ok names) (.ok names')

/-- The database gives the same answers. -/
structure SameAnswers (db : InvestigationCaseDB) (fs fs' : Disk) : Prop where
  getCases : ∀ env, SameNames (db.getCases fs env) (db.getCases fs' env)
  getComputers : ∀ env urlcaseName,
    SameNames (db.getComputers fs env urlcaseName) (db.getComputers fs' env urlcaseName)
  getCase : ∀ env urlcaseName, db.getCase fs' env urlcaseName = db.getCase fs env urlcaseName
  getComputer : ∀ env urlcaseName urlcomputerName,
    db.getComputer fs' env urlcaseName urlcomputerName =
      db.getComputer fs env urlcaseName urlcomputerName

/-- If the call fails to write a file, the database answers as before, and the call succeeds
    when it is repeated with a file system that works, if it would have succeeded before. -/
def Atomic (db : InvestigationCaseDB) (fs : Disk) (op : DbOperation) : Prop :=
  FailsToWrite db fs op →
    SameAnswers db fs (perform db fs op).2 ∧
      ((perform db fs op.working).1 = .ok () →
        (perform db (perform db fs op).2 op.working).1 = .ok ())

/-- The entry that is stored in the folder of a computer, if it can be read. -/
def storedEntry (fs : Disk) (folder : File) : Option ComputerFields :=
  match fs.read (folder.child computerEntryName) with
  | some (.file content) => content.computer
  | _ => none

/-- The call leaves nothing behind: no directory is made, or its entry is written; or the
    file that is opened for an update has the entry already that is left in it. -/
def Clean (db : InvestigationCaseDB) (fs : Disk) : DbOperation → Prop
  | .createCase io entry => ∀ folder ∈ newDirectory db fs (.createCase io entry),
      io.mkdirFails = true ∨ fs.locate folder = none ∨ io.write = .ok
  | .createComputer env io urlcaseName fields =>
    ∀ folder ∈ newDirectory db fs (.createComputer env io urlcaseName fields),
      io.mkdirFails = true ∨ fs.locate folder = none ∨ io.write = .ok
  | .update io computer => ∀ complete, io = .stops complete →
      storedEntry fs computer.baseStorageFolder =
        if complete then some computer.toComputerFields else none

/-- An entry that came from the database: its folder is one that a computer is read from,
    and there is a file in it. -/
def InDatabase (db : InvestigationCaseDB) (fs : Disk) (computer : ComputerDbEntry) : Prop :=
  (∃ urlcaseName urlcomputerName, computer.baseStorageFolder =
    (db.baseDbPath.child urlcaseName).child urlcomputerName) ∧
  ∃ content, fs.read (computer.baseStorageFolder.child computerEntryName) = some (.file content)

/-- An entry that is updated came from the database. -/
def Valid (db : InvestigationCaseDB) (fs : Disk) : DbOperation → Prop
  | .update _ computer => InDatabase db fs computer
  | _ => True

variable {db : InvestigationCaseDB} {fs fs' : Disk} {env : ReadEnv} {io : InsertIo}
  {folder : File} {entryName : String} {content : Content} {loc : List String} {op : DbOperation}
  {computer : ComputerDbEntry}

theorem SameNames.refl (r : Except Exn (List String)) : SameNames r r := by
  cases r with
  | error e => exact .error e
  | ok names => exact .ok (.refl names)

theorem SameAnswers.refl (db : InvestigationCaseDB) (fs : Disk) : SameAnswers db fs fs :=
  ⟨fun _ => .refl _, fun _ _ => .refl _, fun _ _ => rfl, fun _ _ _ => rfl⟩

/-! ## Insertions -/

/-- Making a directory, and writing a file in it. -/
def insertEntry (fs : Disk) (io : InsertIo) (folder : File) (entryName : String)
    (content : Content) :
    Except Exn Unit × Disk :=
  writeValue (fs.mkdir io.mkdirFails folder) io.write (folder.child entryName) content

/-- An insertion that makes no directory changes nothing, and fails. -/
theorem insert_unmade (hnames : folder.names ≠ []) (hentry : File.IsName entryName)
    (hno : fs.exists folder = false) (h : io.mkdirFails = true ∨ fs.locate folder = none) :
    insertEntry fs io folder entryName content = (.error .io, fs) := by
  have hmkdir : fs.mkdir io.mkdirFails folder = fs := by
    rcases h with h | h
    · rw [h, mkdir_fails]
    · exact mkdir_unlocated h
  have hlocate : fs.locate (folder.child entryName) = none := by
    rw [locate_child hnames hentry]
    cases hloc : fs.locate folder with
    | none => rfl
    | some loc =>
      rw [Option.bind_some, isDirectoryAt_of_node_none (node_of_not_exists hno hloc)]
      rfl
  rw [insertEntry, hmkdir, writeValue, FileSystem.write, hlocate]

/-- One that makes the directory leaves it there. -/
theorem insert_made (hno : fs.exists folder = false) (hmkdir : io.mkdirFails = false)
    (hloc : fs.locate folder = some loc) :
    (insertEntry fs io folder entryName content).2.exists folder = true := by
  have hnone := node_of_not_exists hno hloc
  have hne : loc ≠ [] := by
    rintro rfl
    cases hnone
  have hmade : (fs.mkdir io.mkdirFails folder).locate folder = some loc ∧
      (fs.mkdir io.mkdirFails folder).isDirectoryAt loc = true := by
    rw [locate_mkdir, hmkdir, mkdir_new hloc hnone, isDirectoryAt_iff, node_set_self hne]
    exact ⟨hloc, rfl⟩
  have hlater : Later (fun _ _ => True) (fs.mkdir io.mkdirFails folder)
      (insertEntry fs io folder entryName content).2 := by
    rw [insertEntry, writeValue_snd]
    exact later_write fun _ _ => ⟨trivial, trivial⟩
  rw [FileSystem.exists, FileSystem.read, hlater.locate hmade.1, Option.bind_some,
    isDirectoryAt_iff.1 (hlater.isDirectoryAt hmade.2)]
  rfl

/-- One that is not disturbed succeeds. -/
theorem insert_ok (htree : fs.IsTree) (hnames : folder.names ≠ []) (hentry : File.IsName entryName)
    (hno : fs.exists folder = false) (hloc : fs.locate folder = some loc) :
    (insertEntry fs ⟨false, .ok⟩ folder entryName content).1 = .ok () := by
  have hnone := node_of_not_exists hno hloc
  have hne : loc ≠ [] := by
    rintro rfl
    cases hnone
  have hlocate : (fs.mkdir false folder).locate folder = some loc := locate_mkdir.trans hloc
  have hdir : (fs.mkdir false folder).isDirectoryAt loc = true := by
    rw [mkdir_new hloc hnone, isDirectoryAt_iff, node_set_self hne]
  -- nothing is in a directory that was not there
  have hfree : (fs.mkdir false folder).isDirectoryAt (loc ++ [entryName]) = false := by
    rw [mkdir_new hloc hnone]
    refine isDirectoryAt_of_node_none ?_
    rw [node_set_of_ne (by simp)]
    by_contra hsome
    have hisDir := htree loc entryName (Option.isSome_iff_ne_none.2 hsome)
    rw [isDirectoryAt_of_node_none hnone] at hisDir
    cases hisDir
  rw [insertEntry, writeValue, FileSystem.write, locate_child hnames hentry, hlocate,
    Option.bind_some,
    if_pos hdir]
  dsimp only
  rw [if_neg (by rw [hfree]; exact Bool.false_ne_true)]

theorem createCase_insert {entry : InvestigationCaseDbEntry}
    (hno : fs.exists (db.baseDbPath.child entry.urlCaseName) = false) :
    db.createCase fs io entry = insertEntry fs io (db.baseDbPath.child entry.urlCaseName)
      investigationEntryName ⟨some entry, none⟩ := by
  rw [InvestigationCaseDB.createCase, if_neg (by rw [hno]; exact Bool.false_ne_true), insertEntry]

theorem perform_createComputer {urlcaseName : String} {fields : ComputerFields}
    (h : db.newFolder fs env urlcaseName fields = some folder) :
    perform db fs (.createComputer env io urlcaseName fields) =
      insertEntry fs io folder computerEntryName ⟨none, some fields⟩ := by
  rw [perform, createComputer_of_some io h, ← insertEntry]
  cases hinsert : insertEntry fs io folder computerEntryName ⟨none, some fields⟩ with
  | mk result fs' =>
    dsimp only
    cases result <;> rfl

theorem insert_error (hwrite : io.write ≠ .ok) :
    (insertEntry fs io folder entryName content).1 = .error .io := by
  rw [insertEntry, writeValue, FileSystem.write]
  split
  next h =>
    split at h
    · cases h
    · split_ifs at h
      · cases h
      · cases hio : io.write with
        | ok => exact absurd hio hwrite
        | fails =>
          rw [hio] at h
          cases h
        | stops complete =>
          rw [hio] at h
          cases h
  next => rfl

/-- The call inserts an entry in a directory that it makes. -/
structure Inserts (db : InvestigationCaseDB) (fs : Disk) (op : DbOperation) (io : InsertIo)
    (folder : File) (entryName : String) (content : Content) : Prop where
  names : folder.names ≠ []
  isName : File.IsName entryName
  new : fs.exists folder = false
  performs : perform db fs op = insertEntry fs io folder entryName content
  works : perform db fs op.working = insertEntry fs ⟨false, .ok⟩ folder entryName content

theorem inserts_createCase {entry : InvestigationCaseDbEntry}
    (h : newDirectory db fs (.createCase io entry) = some folder) :
    Inserts db fs (.createCase io entry) io folder investigationEntryName ⟨some entry, none⟩ := by
  rw [newDirectory] at h
  split_ifs at h with hex
  cases h
  rw [Bool.not_eq_true] at hex
  exact ⟨names_ne_nil hex, by decide +kernel, hex, createCase_insert hex, createCase_insert hex⟩

theorem inserts_createComputer {urlcaseName : String} {fields : ComputerFields}
    (h : newDirectory db fs (.createComputer env io urlcaseName fields) = some folder) :
    Inserts db fs (.createComputer env io urlcaseName fields) io folder computerEntryName
      ⟨none, some fields⟩ := by
  obtain ⟨entry, -, hfolder, hno⟩ := newFolder_eq_some h
  refine ⟨?_, isName_computerEntryName, hno, perform_createComputer h, perform_createComputer h⟩
  rw [hfolder] at hno ⊢
  exact names_ne_nil hno

/-- An insertion that can only be repeated if its directory is not there is atomic exactly
    when it makes no directory, or writes the entry. -/
theorem Inserts.atomic_iff_unmade (h : Inserts db fs op io folder entryName content)
    (htree : fs.IsTree)
    (hretry : ∀ fs', SameAnswers db fs fs' → fs'.exists folder = true →
      (perform db fs' op.working).1 ≠ .ok ()) :
    ((∃ e, (perform db fs op).1 = .error e) →
      SameAnswers db fs (perform db fs op).2 ∧
        ((perform db fs op.working).1 = .ok () →
          (perform db (perform db fs op).2 op.working).1 = .ok ())) ↔
      io.mkdirFails = true ∨ fs.locate folder = none ∨ io.write = .ok := by
  rw [h.performs, h.works]
  constructor
  · intro hatomic
    by_contra hunclean
    rw [not_or, not_or, Bool.not_eq_true] at hunclean
    obtain ⟨hmkdir, hlocate, hwrite⟩ := hunclean
    obtain ⟨loc, hloc⟩ := Option.ne_none_iff_exists'.1 hlocate
    obtain ⟨hsame, hrepeat⟩ := hatomic ⟨_, insert_error hwrite⟩
    -- the directory was made and has no entry, so it is in the way of the next call
    exact hretry _ hsame (insert_made h.new hmkdir hloc)
      (hrepeat (insert_ok htree h.names h.isName h.new hloc))
  · rintro hclean ⟨e, he⟩
    -- without a directory nothing changes; with one, the entry is written and nothing fails
    by_cases hunmade : io.mkdirFails = true ∨ fs.locate folder = none
    · rw [insert_unmade h.names h.isName h.new hunmade]
      exact ⟨.refl db fs, fun hok => by rw [h.works]; exact hok⟩
    · have hwrite := (or_assoc.2 hclean).resolve_left hunmade
      rw [not_or, Bool.not_eq_true] at hunmade
      obtain ⟨loc, hloc⟩ := Option.ne_none_iff_exists'.1 hunmade.2
      have hio : io = ⟨false, .ok⟩ := by
        obtain ⟨mkdirFails, write⟩ := io
        rw [show mkdirFails = false from hunmade.1, show write = .ok from hwrite]
      rw [hio, insert_ok htree h.names h.isName h.new hloc] at he
      cases he

/-- A creation in a directory that is there fails. -/
theorem createCase_duplicate {entry : InvestigationCaseDbEntry}
    (h : fs.exists (db.baseDbPath.child entry.urlCaseName) = true) :
    (db.createCase fs io entry).1 ≠ .ok () := by
  rw [InvestigationCaseDB.createCase, if_pos h]
  rintro ⟨⟩

theorem createComputer_duplicate {urlcaseName : String} {fields : ComputerFields}
    {entry : InvestigationCaseDbEntry} (hcase : db.getCase fs env urlcaseName = .ok entry)
    (h : fs.exists ((db.baseDbPath.child entry.urlCaseName).child fields.urlcomputerName) = true) :
    (perform db fs (.createComputer env io urlcaseName fields)).1 ≠ .ok () := by
  rw [perform, InvestigationCaseDB.createComputer, hcase]
  dsimp only
  rw [if_pos h]
  rintro ⟨⟩

theorem atomic_createCase_iff (htree : fs.IsTree) {entry : InvestigationCaseDbEntry} :
    Atomic db fs (.createCase io entry) ↔ Clean db fs (.createCase io entry) := by
  rw [Clean, Atomic, FailsToWrite, GetsToWrite]
  cases hnew : newDirectory db fs (.createCase io entry) with
  | none =>
    refine iff_of_true ?_ ?_
    · rintro ⟨-, ⟨⟩⟩
    · rintro _ ⟨⟩
  | some folder =>
    have hinserts := inserts_createCase hnew
    have hfolder : folder = db.baseDbPath.child entry.urlCaseName := by
      rw [newDirectory] at hnew
      split_ifs at hnew
      exact (Option.some.inj hnew).symm
    have hiff := hinserts.atomic_iff_unmade htree fun fs' _ hex =>
      createCase_duplicate (hfolder ▸ hex)
    simp only [Option.mem_some_iff, forall_eq', Option.isSome_some, and_true]
    exact hiff

theorem atomic_createComputer_iff (htree : fs.IsTree) {urlcaseName : String}
    {fields : ComputerFields} :
    Atomic db fs (.createComputer env io urlcaseName fields) ↔
      Clean db fs (.createComputer env io urlcaseName fields) := by
  rw [Clean, Atomic, FailsToWrite, GetsToWrite]
  cases hnew : newDirectory db fs (.createComputer env io urlcaseName fields) with
  | none =>
    refine iff_of_true ?_ ?_
    · rintro ⟨-, ⟨⟩⟩
    · rintro _ ⟨⟩
  | some folder =>
    obtain ⟨entry, hcase, hfolder, -⟩ := newFolder_eq_some hnew
    have hiff := (inserts_createComputer hnew).atomic_iff_unmade htree fun fs' hsame hex =>
      createComputer_duplicate ((hsame.getCase env urlcaseName).trans hcase) (hfolder ▸ hex)
    simp only [Option.mem_some_iff, forall_eq', Option.isSome_some, and_true]
    exact hiff

/-! ## Updates -/

/-- The file of an entry from the database. -/
theorem InDatabase.file (h : InDatabase db fs computer) : ∃ dir content,
    fs.locate (computer.baseStorageFolder.child computerEntryName) =
        some (dir ++ [computerEntryName]) ∧
      fs.node (dir ++ [computerEntryName]) = some (.file content) ∧
      storedEntry fs computer.baseStorageFolder = content.computer := by
  obtain ⟨-, content, hread⟩ := h
  obtain ⟨loc, hloc, hnode⟩ := Option.bind_eq_some_iff.1 hread
  obtain ⟨dir, rfl⟩ := locate_last (File.names_child_of_isSegment isName_computerEntryName.1)
    isName_computerEntryName.2 hloc
  refine ⟨dir, content, hloc, hnode, ?_⟩
  rw [storedEntry, hread]

/-- An update of a file that is there. -/
theorem update_file {dir : List String} {content : Content} (io : WriteIo)
    (hloc : fs.locate (computer.baseStorageFolder.child computerEntryName) =
      some (dir ++ [computerEntryName]))
    (hnode : fs.node (dir ++ [computerEntryName]) = some (.file content)) :
    InvestigationCaseDB.update fs io computer =
      match io with
      | .ok => (.ok (), fs.set (dir ++ [computerEntryName])
          (.file ⟨none, some computer.toComputerFields⟩))
      | .fails => (.error .io, fs)
      | .stops complete => (.error .io, fs.set (dir ++ [computerEntryName])
          (.file (if complete then ⟨none, some computer.toComputerFields⟩ else default))) := by
  have hno : fs.isDirectoryAt (dir ++ [computerEntryName]) = false := by
    rw [isDirectoryAt, hnode]
  rw [InvestigationCaseDB.update, writeValue, FileSystem.write, hloc]
  dsimp only
  rw [if_neg (by rw [hno]; exact Bool.false_ne_true)]
  cases io <;> rfl

/-- Reading the value of a file, if another file is overwritten, or its value is kept. -/
theorem readValue_set {T : Type} {parsed : Content → Option T} {content content' : Content}
    (f : File) (hnode : fs.node loc = some (.file content))
    (h : fs.locate f = some loc → parsed content' = parsed content) :
    readValue (fs.set loc (.file content')) env parsed f = readValue fs env parsed f := by
  have hne : loc ≠ [] := by
    rintro rfl
    cases hnode
  rw [readValue, readValue, FileSystem.read, FileSystem.read, locate_set_file hnode]
  cases hloc : fs.locate f with
  | none => rfl
  | some other =>
    rw [Option.bind_some, Option.bind_some]
    by_cases heq : other = loc
    · subst heq
      rw [node_set_self hne, hnode]
      dsimp only
      rw [h hloc]
    · rw [node_set_of_ne heq]

/-- The directories that are listed, if a file is overwritten. -/
theorem sameNames_foldersWith {content content' : Content} (entryName : String) (directory : File)
    (hnode : fs.node loc = some (.file content)) :
    SameNames (foldersWith fs env entryName directory)
      (foldersWith (fs.set loc (.file content')) env entryName directory) := by
  have hne : loc ≠ [] := by
    rintro rfl
    cases hnode
  have hsome : (fs.node loc).isSome := by rw [hnode]; rfl
  -- what is a directory, and what is there, stays so
  have hfilter : (fun name : String =>
      (fs.set loc (.file content')).isDirectory (directory.child name) &&
        (fs.set loc (.file content')).exists ((directory.child name).child entryName)) =
      fun name => fs.isDirectory (directory.child name) &&
        fs.exists ((directory.child name).child entryName) := by
    funext name
    rw [FileSystem.isDirectory, FileSystem.isDirectory, FileSystem.exists, FileSystem.exists,
      FileSystem.read, FileSystem.read, locate_set_file hnode, isDirectoryAt_set_file hnode]
    congr 1
    cases fs.locate ((directory.child name).child entryName) with
    | none => rfl
    | some other => exact isSome_node_set hsome other
  rw [foldersWith, foldersWith, FileSystem.listFiles, FileSystem.listFiles, locate_set_file hnode,
    isDirectoryAt_set_file hnode, hfilter]
  cases fs.locate directory with
  | none => exact .error _
  | some dir =>
    rw [Option.bind_some, Option.bind_some]
    by_cases hdir : fs.isDirectoryAt dir
    · rw [if_pos hdir, if_pos hdir]
      cases env.listing directory with
      | none => exact .error _
      | some listing =>
        refine .ok (List.Perm.filter _ ?_)
        exact (listing.perm _).trans
          ((children_set_perm hne hsome).symm.trans (listing.perm _).symm)
    · rw [if_neg hdir, if_neg hdir]
      exact .error _

/-- What a file is read as. -/
theorem readValue_file {T : Type} {parsed : Content → Option T} {f : File}
    (henv : env.unreadable f = false) (hread : fs.read f = some (.file content)) :
    readValue fs env parsed f = (parsed content).elim (.error .io) .ok := by
  rw [readValue, hread]
  dsimp only
  cases parsed content with
  | none => rfl
  | some value =>
    dsimp only
    rw [henv]
    rfl

/-- The database answers as before when the entry of a computer is overwritten, exactly if
    the entry is the one that was stored. -/
theorem InDatabase.sameAnswers_iff (h : InDatabase db fs computer) {dir : List String}
    {content : Content} (content' : Content)
    (hloc : fs.locate (computer.baseStorageFolder.child computerEntryName) =
      some (dir ++ [computerEntryName]))
    (hnode : fs.node (dir ++ [computerEntryName]) = some (.file content)) :
    SameAnswers db fs (fs.set (dir ++ [computerEntryName]) (.file content')) ↔
      content.computer = content'.computer := by
  constructor
  · intro hsame
    obtain ⟨⟨caseName, computerName, hfolder⟩, -⟩ := h
    have hread : fs.read (computer.baseStorageFolder.child computerEntryName) =
        some (.file content) := by
      rw [FileSystem.read, hloc, Option.bind_some, hnode]
    have hread' : (fs.set (dir ++ [computerEntryName]) (.file content')).read
        (computer.baseStorageFolder.child computerEntryName) = some (.file content') := by
      rw [FileSystem.read, locate_set_file hnode, hloc, Option.bind_some, node_set_self (by simp)]
    rw [hfolder] at hread hread'
    -- the computer is read in both file systems, so that the answers tell the contents apart
    have hget := hsame.getComputer ⟨fun _ => none, fun _ => false⟩ caseName computerName
    rw [getComputer, getComputer, readValue_file rfl hread, readValue_file rfl hread'] at hget
    cases hc : content.computer with
    | none =>
      cases hc' : content'.computer with
      | none => rfl
      | some fields' =>
        rw [hc, hc'] at hget
        cases hget
    | some fields =>
      cases hc' : content'.computer with
      | none =>
        rw [hc, hc'] at hget
        cases hget
      | some fields' =>
        rw [hc, hc'] at hget
        exact congrArg some (congrArg ComputerDbEntry.toComputerFields (Except.ok.inj hget)).symm
  · intro heq
    refine ⟨fun env => sameNames_foldersWith _ _ hnode,
      fun env urlcaseName => sameNames_foldersWith _ _ hnode, fun env urlcaseName => ?_,
      fun env urlcaseName urlcomputerName => ?_⟩
    · refine readValue_set _ hnode fun hcase => ?_
      -- the file with the entry of a case has another name
      obtain ⟨dir', hdir⟩ := locate_last
        (File.names_child_of_isSegment (by decide +kernel)) (by decide +kernel) hcase
      have hnames : [computerEntryName] = [investigationEntryName] :=
        List.append_inj_right' hdir rfl
      exact absurd hnames (by decide +kernel)
    · rw [getComputer, getComputer, readValue_set _ hnode fun _ => heq.symm]

theorem atomic_update_iff (h : InDatabase db fs computer) (io : WriteIo) :
    Atomic db fs (.update io computer) ↔ Clean db fs (.update io computer) := by
  obtain ⟨dir, content, hloc, hnode, hstored⟩ := h.file
  have hperform : perform db fs (.update io computer) = InvestigationCaseDB.update fs io computer :=
    rfl
  rw [Atomic, FailsToWrite, GetsToWrite, Clean, and_true, hperform, update_file io hloc hnode,
    hstored]
  cases io with
  | ok =>
    refine iff_of_true ?_ ?_
    · rintro ⟨e, ⟨⟩⟩
    · rintro _ ⟨⟩
  | fails =>
    refine iff_of_true (fun _ => ⟨.refl db fs, id⟩) ?_
    rintro _ ⟨⟩
  | stops complete =>
    -- the file is there, so the update can be repeated
    have hagain (fs' : Disk) (content' : Content) (hfs' : fs' = fs.set (dir ++ [computerEntryName])
        (.file content')) : (InvestigationCaseDB.update fs' .ok computer).1 = .ok () := by
      have hloc' : fs'.locate (computer.baseStorageFolder.child computerEntryName) =
          some (dir ++ [computerEntryName]) := by
        rw [hfs', locate_set_file hnode, hloc]
      have hnode' : fs'.node (dir ++ [computerEntryName]) = some (.file content') := by
        rw [hfs', node_set_self (by simp)]
      rw [update_file .ok hloc' hnode']
    have hsame := h.sameAnswers_iff
      (if complete then ⟨none, some computer.toComputerFields⟩ else default) hloc hnode
    have hcomputer : (if complete then (⟨none, some computer.toComputerFields⟩ : Content)
        else default).computer = if complete then some computer.toComputerFields else none := by
      cases complete <;> rfl
    rw [hcomputer] at hsame
    constructor
    · rintro hatomic _ ⟨⟩
      exact hsame.1 (hatomic ⟨_, rfl⟩).1
    · intro hclean _
      exact ⟨hsame.2 (hclean complete rfl), fun _ => hagain _ _ rfl⟩

/-! ## Runs -/

theorem isTree_insert (htree : fs.IsTree) (hnames : folder.names ≠ [])
    (hentry : File.IsName entryName) : (insertEntry fs io folder entryName content).2.IsTree := by
  rw [insertEntry, writeValue_snd]
  exact (htree.mkdir hnames).write hnames hentry

/-- A creation that makes no directory changes nothing. -/
theorem perform_of_newDirectory_none (hcreate : (∃ io entry, op = .createCase io entry) ∨
    ∃ env io urlcaseName fields, op = .createComputer env io urlcaseName fields)
    (hnew : newDirectory db fs op = none) : (perform db fs op).2 = fs := by
  rcases hcreate with ⟨io, entry, rfl⟩ | ⟨env, io, urlcaseName, fields, rfl⟩
  · rw [newDirectory] at hnew
    split_ifs at hnew with hex
    rw [perform, InvestigationCaseDB.createCase, if_pos hex]
  · obtain ⟨e, he⟩ := createComputer_of_none io hnew
    rw [perform, he]

/-- Every call leaves a tree. -/
theorem isTree_perform (htree : fs.IsTree) (hvalid : op.Valid db fs) :
    (perform db fs op).2.IsTree := by
  cases op with
  | createCase io entry =>
    cases hnew : newDirectory db fs (.createCase io entry) with
    | some folder =>
      have h := inserts_createCase hnew
      rw [h.performs]
      exact isTree_insert htree h.names h.isName
    | none =>
      rw [perform_of_newDirectory_none (.inl ⟨_, _, rfl⟩) hnew]
      exact htree
  | createComputer env io urlcaseName fields =>
    cases hnew : newDirectory db fs (.createComputer env io urlcaseName fields) with
    | some folder =>
      have h := inserts_createComputer hnew
      rw [h.performs]
      exact isTree_insert htree h.names h.isName
    | none =>
      rw [perform_of_newDirectory_none (.inr ⟨_, _, _, _, rfl⟩) hnew]
      exact htree
  | update io computer =>
    obtain ⟨dir, content, hloc, hnode, -⟩ := InDatabase.file hvalid
    have hdir : fs.isDirectoryAt dir = true := htree dir computerEntryName (by rw [hnode]; rfl)
    have hno : fs.isDirectoryAt (dir ++ [computerEntryName]) = false := by
      rw [isDirectoryAt, hnode]
    rw [perform, update_file io hloc hnode]
    cases io with
    | ok => exact htree.set hdir hno
    | fails => exact htree
    | stops complete => exact htree.set hdir hno

/-- No call removes a file, or puts something else in its place. -/
theorem later_perform (db : InvestigationCaseDB) (fs : Disk) (op : DbOperation) :
    Later (fun loc n => fs.node loc = none ∨ ∃ content, n = .file content) fs
      (perform db fs op).2 := by
  -- what is inserted goes where nothing is
  have hinsert {io : InsertIo} {folder : File} {entryName : String} {content : Content}
      (hno : fs.exists folder = false) :
      Later (fun loc n => fs.node loc = none ∨ ∃ content, n = .file content) fs
        (insertEntry fs io folder entryName content).2 := by
    rw [insertEntry, writeValue_snd]
    exact (later_mkdir fun loc hloc => .inl (node_of_not_exists hno hloc)).trans
      (later_write fun _ _ => ⟨.inr ⟨_, rfl⟩, .inr ⟨_, rfl⟩⟩)
  cases op with
  | createCase io entry =>
    cases hnew : newDirectory db fs (.createCase io entry) with
    | some folder =>
      have h := inserts_createCase hnew
      rw [h.performs]
      exact hinsert h.new
    | none =>
      rw [perform_of_newDirectory_none (.inl ⟨_, _, rfl⟩) hnew]
      exact .refl
  | createComputer env io urlcaseName fields =>
    cases hnew : newDirectory db fs (.createComputer env io urlcaseName fields) with
    | some folder =>
      have h := inserts_createComputer hnew
      rw [h.performs]
      exact hinsert h.new
    | none =>
      rw [perform_of_newDirectory_none (.inr ⟨_, _, _, _, rfl⟩) hnew]
      exact .refl
  | update io computer =>
    rw [perform, InvestigationCaseDB.update, writeValue_snd]
    exact later_write fun _ _ => ⟨.inr ⟨_, rfl⟩, .inr ⟨_, rfl⟩⟩

/-- An entry that came from the database once can always be updated. -/
theorem InDatabase.perform (h : InDatabase db fs computer) :
    InDatabase db (DbOperation.perform db fs op).2 computer := by
  obtain ⟨hfolder, content, hread⟩ := h
  obtain ⟨loc, hloc, hnode⟩ := Option.bind_eq_some_iff.1 hread
  have hl := later_perform db fs op
  obtain ⟨content', hnode'⟩ := hl.node (R := fun o => ∃ content, o = some (.file content))
    ⟨content, hnode⟩ fun n hn => by
      rcases hn with hnone | ⟨content', rfl⟩
      · rw [hnone] at hnode
        cases hnode
      · exact ⟨content', rfl⟩
  exact ⟨hfolder, content', by rw [FileSystem.read, hl.locate hloc, Option.bind_some, hnode']⟩

/-- A call is atomic exactly when it is clean. -/
theorem atomic_iff_clean (htree : fs.IsTree) (hvalid : op.Valid db fs) :
    Atomic db fs op ↔ Clean db fs op := by
  cases op with
  | createCase io entry => exact atomic_createCase_iff htree
  | createComputer env io urlcaseName fields => exact atomic_createComputer_iff htree
  | update io computer => exact atomic_update_iff hvalid io

/-- In every run on a tree of directories, with updates of entries that came from the
    database: all calls are atomic if and only if all of them are clean. -/
theorem atomicCalls_iff (db : InvestigationCaseDB) {l : List DbOperation} (htree : fs.IsTree)
    (hvalid : Transition.AllSteps (step db) (fun fs op => op.Valid db fs) fs l) :
    Transition.AllSteps (step db) (Atomic db) fs l ↔
      Transition.AllSteps (step db) (Clean db) fs l := by
  induction l generalizing fs with
  | nil => exact Iff.rfl
  | cons op l ih =>
    rw [Transition.AllSteps, Transition.AllSteps, atomic_iff_clean htree hvalid.1]
    refine and_congr_right fun _ => forall_congr' fun fs' => imp_congr_right fun hstep => ?_
    have hvalid' := hvalid.2 fs' hstep
    cases hstep
    exact ih (isTree_perform htree hvalid.1) hvalid'

/-- An empty file system. -/
def emptyDisk : Disk := ⟨∅, [], []⟩

theorem isTree_emptyDisk : emptyDisk.IsTree := by
  intro loc name hsome
  rw [node, if_neg (by simp), emptyDisk, AList.lookup_empty] at hsome
  cases hsome

/-- A database in the root directory. -/
def rootDB : InvestigationCaseDB := ⟨File.ofPath "/"⟩

/-- A case is created once its directory can be made. -/
theorem atomicCalls_iff_mkdir : Transition.AllSteps (step rootDB) (Atomic rootDB) emptyDisk
    [.createCase ⟨true, .ok⟩ (.new "case" "A case"),
      .createCase ⟨false, .ok⟩ (.new "case" "A case")] := by
  refine (atomicCalls_iff rootDB isTree_emptyDisk ?_).2 ?_
  · exact ⟨trivial, fun _ _ => ⟨trivial, fun _ _ => trivial⟩⟩
  · exact ⟨fun _ _ => .inl rfl, fun _ _ => ⟨fun _ _ => .inr (.inr rfl), fun _ _ => trivial⟩⟩

/-- The entry of a case is not written: the case is not listed, and cannot be created. -/
theorem not_atomicCalls_write :
    FailsToWrite rootDB emptyDisk (.createCase ⟨false, .fails⟩ (.new "case" "A case")) ∧
      (perform rootDB emptyDisk (.createCase ⟨false, .ok⟩ (.new "case" "A case"))).1 = .ok () ∧
      (perform rootDB (perform rootDB emptyDisk
          (.createCase ⟨false, .fails⟩ (.new "case" "A case"))).2
        (.createCase ⟨false, .ok⟩ (.new "case" "A case"))).1 =
          .error (.exception "Duplicate key, insert failed to create Case") ∧
      ¬Atomic rootDB emptyDisk (.createCase ⟨false, .fails⟩ (.new "case" "A case")) := by
  have hfails : FailsToWrite rootDB emptyDisk
      (.createCase ⟨false, .fails⟩ (.new "case" "A case")) :=
    ⟨⟨.io, by decide +kernel⟩, by rw [GetsToWrite]; decide +kernel⟩
  have hfirst : (perform rootDB emptyDisk
      (.createCase ⟨false, .ok⟩ (.new "case" "A case"))).1 = .ok () := by
    decide +kernel
  have hagain : (perform rootDB (perform rootDB emptyDisk
        (.createCase ⟨false, .fails⟩ (.new "case" "A case"))).2
      (.createCase ⟨false, .ok⟩ (.new "case" "A case"))).1 =
        .error (.exception "Duplicate key, insert failed to create Case") := by
    decide +kernel
  refine ⟨hfails, hfirst, hagain, fun hatomic => ?_⟩
  have hok := (hatomic hfails).2 hfirst
  rw [working, hagain] at hok
  cases hok

end DbOperation

end Raqet
