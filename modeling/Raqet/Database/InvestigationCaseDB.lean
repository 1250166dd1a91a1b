import Raqet.Check
import Raqet.Java.FileSystem

/-!
# The database of investigation cases

A mapping of cases and computers to directories: a case is a directory in the base
directory, a computer is a directory in that of its case, and each has its entry in a file
in its directory. The functions act on the file system without a cache
(`InvestigationCaseDB`).
-/

namespace Raqet

open Java

/-- The characters that a name keeps: those of `[a-zA-Z0-9_\.]`. -/
def isNameChar (c : Char) : Bool :=
  ('a' ≤ c && c ≤ 'z') || ('A' ≤ c && c ≤ 'Z') || ('0' ≤ c && c ≤ '9') || c == '_' || c == '.'

/-- `escapeName(name)`. -/
def escapeName (name : String) : String :=
  String.ofList ((name.toList.filter isNameChar).map Char.toLower)

/-- An `InvestigationCaseDbEntry`. Its setter escapes the name of the directory. -/
structure InvestigationCaseDbEntry where
  urlCaseName : String
  caseName : String
  escaped : escapeName urlCaseName = urlCaseName
  deriving DecidableEq

/-- The fields of a `ComputerDbEntry` that are stored. An id that is `null` is not written, and
    nothing looks at it before it is read back, as what the constructor made of it: it is the
    empty one here (`readBack`). -/
structure ComputerFields where
  urlcomputerName : String := "unknowncomputer"
  computerName : String := "Unknown computer"
  clientId : String := ""
  hardwareId : String := ""
  disks : List String := []
  deriving DecidableEq

/-- What an id that may be `null` is read back as. -/
def readBack (id : Option String) : String := id.getD ""

/-- A `ComputerDbEntry` of the database. -/
structure ComputerDbEntry extends ComputerFields where
  baseStorageFolder : File
  caseAndComputer : String
  deriving DecidableEq

/-- What a file is read as. -/
structure Content where
  investigationCase : Option InvestigationCaseDbEntry
  computer : Option ComputerFields

/-- A file that is neither. -/
instance : Inhabited Content := ⟨⟨none, none⟩⟩

/-- The file system. -/
abbrev Disk := FileSystem Content

/-- What the environment decides when directories are listed and files are read. -/
structure ReadEnv where
  listing : File → Option Listing
  unreadable : File → Bool

/-- What the environment decides when a directory is made for an entry, and the entry is
    written. -/
structure InsertIo where
  mkdirFails : Bool
  write : WriteIo

/-- A name only keeps characters of ASCII. -/
theorem isNameChar_lt {c : Char} (h : isNameChar c = true) : c.toNat < 128 := by
  simp only [isNameChar, Bool.or_eq_true, Bool.and_eq_true, decide_eq_true_eq, beq_iff_eq] at h
  rcases h with (((h | h) | h) | rfl) | rfl
  · exact Nat.lt_of_le_of_lt (UInt32.le_iff_toNat_le.1 h.2) (by decide)
  · exact Nat.lt_of_le_of_lt (UInt32.le_iff_toNat_le.1 h.2) (by decide)
  · exact Nat.lt_of_le_of_lt (UInt32.le_iff_toNat_le.1 h.2) (by decide)
  · decide
  · decide

theorem toLower_isNameChar {c : Char} (h : isNameChar c = true) :
    isNameChar c.toLower = true ∧ c.toLower.toLower = c.toLower := by
  have ascii : ∀ n : Fin 128, isNameChar (Char.ofNat n) = true →
      isNameChar (Char.ofNat n).toLower = true ∧
        (Char.ofNat n).toLower.toLower = (Char.ofNat n).toLower := by
    decide +kernel
  have := ascii ⟨c.toNat, isNameChar_lt h⟩
  rw [Char.ofNat_toNat] at this
  exact this h

theorem escapeName_escapeName (name : String) : escapeName (escapeName name) = escapeName name := by
  rw [escapeName, escapeName, String.toList_ofList, List.filter_eq_self.2, List.map_map]
  · congr 1
    refine List.map_congr_left fun c hc => (toLower_isNameChar (List.mem_filter.1 hc).2).2
  · intro c hc
    obtain ⟨b, hb, rfl⟩ := List.mem_map.1 hc
    exact (toLower_isNameChar (List.mem_filter.1 hb).2).1

/-- `setUrlCaseName(urlCaseName)` and `setCaseName(caseName)`. -/
def InvestigationCaseDbEntry.new (urlCaseName caseName : String) : InvestigationCaseDbEntry :=
  ⟨escapeName urlCaseName, caseName, escapeName_escapeName urlCaseName⟩

/-- An `InvestigationCaseDB`. -/
structure InvestigationCaseDB where
  baseDbPath : File

namespace InvestigationCaseDB

/-- `INVESTIGATIONENTRYNAME`. -/
def investigationEntryName : String := "InvestigationCaseDbEntry.json"

/-- `COMPUTERENTRYNAME`. -/
def computerEntryName : String := "ComputerDbEntry.json"

/-- `mapper.writeValue(f, value)`. -/
def writeValue (fs : Disk) (io : WriteIo) (f : File) (value : Content) : Except Exn Unit × Disk :=
  match fs.write io f value with
  | (true, fs) => (.ok (), fs)
  | (false, fs) => (.error .io, fs)

/-- `mapper.readValue(f, T.class)`, for the type `T` that the content is `parsed` as. Every
    exception that it throws is an `IOException`. -/
def readValue {T : Type} (fs : Disk) (env : ReadEnv) (parsed : Content → Option T) (f : File) :
    Except Exn T :=
  match fs.read f with
  | some (.file content) =>
    match parsed content with
    | some value => if env.unreadable f then .error .io else .ok value
    | none => .error .io
  | _ => .error .io

/-- The names of the directories in a directory that have a file with this name. -/
def foldersWith (fs : Disk) (env : ReadEnv) (entryName : String) (directory : File) :
    Except Exn (List String) :=
  match fs.listFiles (env.listing directory) directory with
  | none => .error .nullPointer
  | some names => .ok (names.filter fun name =>
      fs.isDirectory (directory.child name) && fs.exists ((directory.child name).child entryName))

variable (db : InvestigationCaseDB) (fs : Disk) (env : ReadEnv)

/-- `createCase(investigationCaseDbEntry)`. -/
def createCase (io : InsertIo) (investigationCaseDbEntry : InvestigationCaseDbEntry) :
    Except Exn Unit × Disk :=
  let caseDirectory := db.baseDbPath.child investigationCaseDbEntry.urlCaseName
  if fs.exists caseDirectory then
    (.error (.exception "Duplicate key, insert failed to create Case"), fs)
  else
    writeValue (fs.mkdir io.mkdirFails caseDirectory) io.write
      (caseDirectory.child investigationEntryName) ⟨some investigationCaseDbEntry, none⟩

/-- `getCase(urlcaseName)`. -/
def getCase (urlcaseName : String) : Except Exn InvestigationCaseDbEntry :=
  readValue fs env Content.investigationCase
    ((db.baseDbPath.child urlcaseName).child investigationEntryName)

/-- `getCases()`. -/
def getCases : Except Exn (List String) := foldersWith fs env investigationEntryName db.baseDbPath

/-- `createComputer(urlcaseName, computerDbEntry)`: the entry with its folder. -/
def createComputer (io : InsertIo) (urlcaseName : String) (computerDbEntry : ComputerFields) :
    Except Exn ComputerDbEntry × Disk :=
  match db.getCase fs env urlcaseName with
  | .error e => (.error e, fs)
  | .ok investigationCaseDbEntry =>
    let caseDirectory := db.baseDbPath.child investigationCaseDbEntry.urlCaseName
    let computerDirectory := caseDirectory.child computerDbEntry.urlcomputerName
    if fs.exists computerDirectory then
      (.error (.exception "Duplicate key, insert failed to create Computer"), fs)
    else
      let (result, fs) := writeValue (fs.mkdir io.mkdirFails computerDirectory) io.write
        (computerDirectory.child computerEntryName) ⟨none, some computerDbEntry⟩
      (result.map fun _ => ⟨computerDbEntry, computerDirectory,
        urlcaseName ++ "\\" ++ computerDbEntry.urlcomputerName⟩, fs)

/-- The folder that is made for a computer in a case, unless there is something already. -/
def newFolder (urlcaseName : String) (fields : ComputerFields) : Option File :=
  match db.getCase fs env urlcaseName with
  | .error _ => none
  | .ok entry =>
    let folder := (db.baseDbPath.child entry.urlCaseName).child fields.urlcomputerName
    if fs.exists folder then none else some folder

/-- `getComputers(urlcaseName)`. -/
def getComputers (urlcaseName : String) : Except Exn (List String) :=
  foldersWith fs env computerEntryName (db.baseDbPath.child urlcaseName)

/-- `getComputer(urlcaseName, urlcomputerName)`. -/
def getComputer (urlcaseName urlcomputerName : String) : Except Exn ComputerDbEntry :=
  let computerDirectory := (db.baseDbPath.child urlcaseName).child urlcomputerName
  (readValue fs env Content.computer (computerDirectory.child computerEntryName)).map
    fun computerDbEntry => ⟨computerDbEntry, computerDirectory,
      urlcaseName ++ "\\" ++ computerDbEntry.urlcomputerName⟩

/-- The first of these computers with this client and hardware; none has an id that is `null`.
    One that cannot be read is skipped. -/
def findComputer (clientid hardwareId : Option String) (caseName : String)
    (computers : List String) : Option ComputerDbEntry :=
  computers.findSome? fun computerName =>
    match db.getComputer fs env caseName computerName with
    | .ok computer =>
      if some computer.clientId = clientid ∧ some computer.hardwareId = hardwareId then
        some computer
      else none
    | .error _ => none

/-- The loop of `findClient` over the cases. -/
def findInCases (clientid hardwareId : Option String) :
    List String → Except Exn (Option ComputerDbEntry)
  | [] => .ok none
  | caseName :: cases =>
    match db.getComputers fs env caseName with
    | .error e => .error e
    | .ok computers =>
      match db.findComputer fs env clientid hardwareId caseName computers with
      | some computer => .ok (some computer)
      | none => findInCases clientid hardwareId cases

/-- `findClient(clientid, hardwareId)`. -/
def findClient (clientid hardwareId : Option String) : Except Exn (Option ComputerDbEntry) :=
  match db.getCases fs env with
  | .error e => .error e
  | .ok cases => db.findInCases fs env clientid hardwareId cases

/-- `update(computerDbEntry)`. -/
def update (fs : Disk) (io : WriteIo) (computerDbEntry : ComputerDbEntry) :
    Except Exn Unit × Disk :=
  writeValue fs io (computerDbEntry.baseStorageFolder.child computerEntryName)
    ⟨none, some computerDbEntry.toComputerFields⟩

/-! ## Creating computers -/

variable {db fs env} {urlcaseName : String} {fields : ComputerFields} {folder : File}

/-- A computer only gets a new folder in a case that is read. -/
theorem newFolder_eq_some (h : db.newFolder fs env urlcaseName fields = some folder) :
    ∃ entry, db.getCase fs env urlcaseName = .ok entry ∧
      folder = (db.baseDbPath.child entry.urlCaseName).child fields.urlcomputerName ∧
      fs.exists folder = false := by
  rw [newFolder] at h
  cases hcase : db.getCase fs env urlcaseName with
  | error e =>
    rw [hcase] at h
    cases h
  | ok entry =>
    rw [hcase] at h
    dsimp only at h
    split_ifs at h with hex
    cases h
    exact ⟨entry, rfl, rfl, Bool.not_eq_true _ ▸ hex⟩

/-- Without one, it is not created. -/
theorem createComputer_of_none (io : InsertIo)
    (h : db.newFolder fs env urlcaseName fields = none) :
    ∃ e, db.createComputer fs env io urlcaseName fields = (.error e, fs) := by
  rw [newFolder] at h
  rw [createComputer]
  cases hcase : db.getCase fs env urlcaseName with
  | error e => exact ⟨e, rfl⟩
  | ok entry =>
    rw [hcase] at h
    dsimp only at h ⊢
    split_ifs at h with hex
    rw [if_pos hex]
    exact ⟨_, rfl⟩

/-- Its entry is written in the new folder. -/
theorem createComputer_of_some (io : InsertIo)
    (h : db.newFolder fs env urlcaseName fields = some folder) :
    db.createComputer fs env io urlcaseName fields =
      ((writeValue (fs.mkdir io.mkdirFails folder) io.write (folder.child computerEntryName)
        ⟨none, some fields⟩).1.map fun _ =>
          ⟨fields, folder, urlcaseName ++ "\\" ++ fields.urlcomputerName⟩,
      (writeValue (fs.mkdir io.mkdirFails folder) io.write (folder.child computerEntryName)
        ⟨none, some fields⟩).2) := by
  obtain ⟨entry, hcase, rfl, hno⟩ := newFolder_eq_some h
  rw [createComputer, hcase]
  dsimp only
  rw [if_neg (by rw [hno]; exact Bool.false_ne_true)]

end InvestigationCaseDB

end Raqet
