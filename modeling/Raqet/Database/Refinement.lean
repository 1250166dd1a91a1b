import Raqet.Database.Atomicity
import Raqet.Database.UniqueIds

/-!
# The database as a map

What the database is for: a map from the names of cases to cases, which map the names of
computers to entries (`CaseMap`). The directories of the base directory hold such a map
(`Represents`).

* `Represents.perform`: a call with plain names, whose file operations do not fail, answers
  as the map does, and leaves what the map becomes;
* `Represents.answers`: a listing has every key once, a lookup returns what is stored under
  its keys, and a search finds an entry with the ids if there is one.

Hence in every run from an empty directory the database is this map
(`database_refines`).
-/

namespace Raqet

open Java FileSystem InvestigationCaseDB DbOperation

/-- A case, without its key. -/
structure CaseRecord where
  caseName : String
  computers : String → Option ComputerFields

/-- The case with the entry of a computer. -/
def CaseRecord.put (c : CaseRecord) (computerName : String) (fields : ComputerFields) :
    CaseRecord :=
  { c with computers := Function.update c.computers computerName (some fields) }

/-- The cases by the names of their directories, and their computers by those of theirs. -/
abbrev CaseMap := String → Option CaseRecord

namespace CaseMap

/-- No cases. -/
def empty : CaseMap := fun _ => none

/-- The entry of a computer. -/
def computer (A : CaseMap) (caseName computerName : String) : Option ComputerFields :=
  (A caseName).bind fun c => c.computers computerName

/-- The map with the entry of a computer in a case that is there. -/
def put (A : CaseMap) (caseName computerName : String) (fields : ComputerFields) : CaseMap :=
  Function.update A caseName ((A caseName).map fun c => c.put computerName fields)

def createCase (A : CaseMap) (entry : InvestigationCaseDbEntry) : Except Exn Unit × CaseMap :=
  match A entry.urlCaseName with
  | some _ => (.error (.exception "Duplicate key, insert failed to create Case"), A)
  | none =>
    (.ok (), Function.update A entry.urlCaseName (some ⟨entry.caseName, fun _ => none⟩))

def createComputer (A : CaseMap) (caseName : String) (fields : ComputerFields) :
    Except Exn Unit × CaseMap :=
  match A caseName with
  | none => (.error .io, A)
  | some c =>
    match c.computers fields.urlcomputerName with
    | some _ => (.error (.exception "Duplicate key, insert failed to create Computer"), A)
    | none => (.ok (), A.put caseName fields.urlcomputerName fields)

/-- The folder of an entry tells its keys. -/
def update (A : CaseMap) (computer : ComputerDbEntry) : Except Exn Unit × CaseMap :=
  match computer.baseStorageFolder.names.reverse with
  | computerName :: caseName :: _ =>
    (.ok (), A.put caseName computerName computer.toComputerFields)
  | _ => (.error .io, A)

/-- What a call returns or throws, and the map after it. -/
def perform (A : CaseMap) : DbOperation → Except Exn Unit × CaseMap
  | .createCase _ entry => A.createCase entry
  | .createComputer _ _ caseName fields => A.createComputer caseName fields
  | .update _ computer => A.update computer

end CaseMap

/-- The entry of a computer is stored in the directory `d`. -/
structure HoldsComputer (fs : Disk) (d : List String) (fields : ComputerFields) : Prop where
  isDirectory : fs.isDirectoryAt d = true
  entry : ∃ content, fs.node (d ++ [computerEntryName]) = some (.file content) ∧
    content.computer = some fields

/-- Nothing is stored at the location `d` or below it. -/
def Vacant (fs : Disk) (d : List String) : Prop := ∀ rest, fs.node (d ++ rest) = none

/-- The case and its computers are stored in the directory `d`, whose name is `name`. -/
structure HoldsCase (fs : Disk) (d : List String) (name : String) (c : CaseRecord) : Prop where
  isDirectory : fs.isDirectoryAt d = true
  entry : ∃ content entry, fs.node (d ++ [investigationEntryName]) = some (.file content) ∧
    content.investigationCase = some entry ∧ entry.urlCaseName = name ∧
    entry.caseName = c.caseName
  isName : ∀ computerName, (c.computers computerName).isSome → File.IsName computerName ∧
    computerName ≠ investigationEntryName
  vacant : ∀ computerName, File.IsName computerName → computerName ≠ investigationEntryName →
    c.computers computerName = none → Vacant fs (d ++ [computerName])
  holds : ∀ computerName fields, c.computers computerName = some fields →
    HoldsComputer fs (d ++ [computerName]) fields

/-- The base directory holds the map. -/
structure Represents (db : InvestigationCaseDB) (fs : Disk) (b : List String) (A : CaseMap) :
    Prop where
  leadsTo : LeadsTo fs db.baseDbPath b
  isName : ∀ name, (A name).isSome → File.IsName name
  vacant : ∀ name, File.IsName name → A name = none → Vacant fs (b ++ [name])
  holds : ∀ name c, A name = some c → HoldsCase fs (b ++ [name]) name c

/-- A call with plain names, whose file operations do not fail. The entry that is updated is
    that of a computer that was read or created. -/
def DbOperation.Plain (db : InvestigationCaseDB) (fs : Disk) : DbOperation → Prop
  | .createCase io entry => io.Works ∧ File.IsName entry.urlCaseName
  | .createComputer env io urlcaseName fields =>
    env.Works ∧ io.Works ∧ File.IsName urlcaseName ∧ File.IsName fields.urlcomputerName ∧
      fields.urlcomputerName ≠ investigationEntryName
  | .update io computer => io = .ok ∧ ∃ env urlcaseName urlcomputerName stored,
      File.IsName urlcaseName ∧ File.IsName urlcomputerName ∧
      db.getComputer fs env urlcaseName urlcomputerName = .ok stored ∧
      stored.baseStorageFolder = computer.baseStorageFolder

variable {db : InvestigationCaseDB} {fs fs' : Disk} {b d loc rest : List String} {A : CaseMap}
  {env : ReadEnv} {io : InsertIo} {base folder : File} {content : Content} {n : Node Content}
  {name entryName caseName computerName : String} {c : CaseRecord} {fields : ComputerFields}
  {op : DbOperation}

@[simp] theorem CaseRecord.computers_put_self :
    (c.put computerName fields).computers computerName = some fields :=
  Function.update_self _ _ _

theorem CaseRecord.computers_put_of_ne (h : name ≠ computerName) :
    (c.put computerName fields).computers name = c.computers name :=
  Function.update_of_ne h _ _

/-! ## Places in a directory -/

theorem LeadsTo.read_child (h : LeadsTo fs base b) (hname : File.IsName name) :
    fs.read (base.child name) = fs.node (b ++ [name]) := by
  rw [FileSystem.read, h.locate_child hname, Option.bind_some]

theorem LeadsTo.exists_child (h : LeadsTo fs base b) (hname : File.IsName name) :
    fs.exists (base.child name) = (fs.node (b ++ [name])).isSome := by
  rw [FileSystem.exists, h.read_child hname]

/-- A path below a place that is no directory leads nowhere. -/
theorem LeadsTo.locate_below (h : LeadsTo fs base b) (hname : File.IsName name)
    (hentry : File.IsName entryName) :
    fs.locate ((base.child name).child entryName) =
      if fs.isDirectoryAt (b ++ [name]) then some (b ++ [name] ++ [entryName]) else none := by
  rw [locate_child_of_path (path_child base name) hentry, h.locate_child hname, Option.bind_some]

theorem LeadsTo.read_below (h : LeadsTo fs base b) (hname : File.IsName name)
    (hentry : File.IsName entryName) (hno : fs.isDirectoryAt (b ++ [name]) = false) :
    fs.read ((base.child name).child entryName) = none := by
  rw [FileSystem.read, h.locate_below hname hentry, hno]
  rfl

theorem readValue_none {T : Type} {parsed : Content → Option T} {f : File}
    (h : fs.read f = none) : readValue fs env parsed f = .error .io := by
  rw [readValue, h]

/-- Putting something at a place that is no directory keeps where a path leads. -/
theorem LeadsTo.set (h : LeadsTo fs base b) (hno : fs.isDirectoryAt loc = false) :
    LeadsTo (fs.set loc n) base b :=
  h.later (Later.set (P := fun _ _ => True) .refl hno trivial)

theorem Vacant.node (h : Vacant fs d) : fs.node d = none := by
  have := h []
  rwa [List.append_nil] at this

/-- The file system with a new directory, and an entry in it. -/
def withEntry (fs : Disk) (d : List String) (entryName : String) (content : Content) : Disk :=
  (fs.set d .directory).set (d ++ [entryName]) (.file content)

theorem node_withEntry (hd : d ≠ []) :
    (withEntry fs d entryName content).node d = some .directory := by
  rw [withEntry, node_set_of_ne (by simp), node_set_self hd]

@[simp] theorem node_withEntry_entry :
    (withEntry fs d entryName content).node (d ++ [entryName]) = some (.file content) :=
  node_set_self (List.append_ne_nil_of_right_ne_nil d (List.cons_ne_nil _ _))

theorem node_withEntry_of_ne (h : loc ≠ d) (h' : loc ≠ d ++ [entryName]) :
    (withEntry fs d entryName content).node loc = fs.node loc := by
  rw [withEntry, node_set_of_ne h', node_set_of_ne h]

theorem isDirectoryAt_below (hvacant : Vacant fs d) :
    (fs.set d .directory).isDirectoryAt (d ++ [entryName]) = false := by
  refine isDirectoryAt_of_node_none ?_
  rw [node_set_of_ne (by simp)]
  exact hvacant [entryName]

theorem LeadsTo.later_withEntry (h : LeadsTo fs base b) (hvacant : Vacant fs d) :
    LeadsTo (withEntry fs d entryName content) base b :=
  (h.set (isDirectoryAt_of_node_none hvacant.node)).set (isDirectoryAt_below hvacant)

/-- An entry is inserted in a new directory at a vacant place. -/
theorem LeadsTo.insertEntry (h : LeadsTo fs base b) (hio : io.Works) (hname : File.IsName name)
    (hentry : File.IsName entryName) (hvacant : Vacant fs (b ++ [name])) :
    insertEntry fs io (base.child name) entryName content =
      (.ok (), withEntry fs (b ++ [name]) entryName content) := by
  have hno : fs.isDirectoryAt (b ++ [name]) = false := isDirectoryAt_of_node_none hvacant.node
  have hne : b ++ [name] ≠ [] := List.append_ne_nil_of_right_ne_nil b (List.cons_ne_nil _ _)
  have hlead : LeadsTo (fs.set (b ++ [name]) .directory) (base.child name) (b ++ [name]) :=
    (h.set hno).child hname (isDirectoryAt_iff.2 (node_set_self hne))
  rw [DbOperation.insertEntry, hio.mkdir, hio.write, mkdir_new (h.locate_child hname) hvacant.node,
    writeValue, FileSystem.write, hlead.locate_child hentry]
  simp only [isDirectoryAt_below hvacant]
  rfl

/-! ## What a change keeps -/

theorem HoldsComputer.congr (h : HoldsComputer fs d fields)
    (hsame : ∀ rest, fs'.node (d ++ rest) = fs.node (d ++ rest)) : HoldsComputer fs' d fields where
  isDirectory := by
    have hd := isDirectoryAt_iff.1 h.isDirectory
    rw [isDirectoryAt_iff, ← List.append_nil d, hsame, List.append_nil, hd]
  entry := by
    rw [hsame]
    exact h.entry

theorem Vacant.congr (h : Vacant fs d)
    (hsame : ∀ rest, fs'.node (d ++ rest) = fs.node (d ++ rest)) : Vacant fs' d := fun rest => by
  rw [hsame, h rest]

theorem HoldsCase.congr (h : HoldsCase fs d name c)
    (hsame : ∀ rest, fs'.node (d ++ rest) = fs.node (d ++ rest)) : HoldsCase fs' d name c where
  isDirectory := by
    have hd := isDirectoryAt_iff.1 h.isDirectory
    rw [isDirectoryAt_iff, ← List.append_nil d, hsame, List.append_nil, hd]
  entry := by
    rw [hsame]
    exact h.entry
  isName := h.isName
  vacant _ hname hne hnone := (h.vacant _ hname hne hnone).congr fun rest => by
    rw [List.append_assoc, hsame]
  holds _ _ hfields := (h.holds _ _ hfields).congr fun rest => by rw [List.append_assoc, hsame]

/-- A computer gets another entry, or a first one; only its directory changes. -/
theorem HoldsCase.put (h : HoldsCase fs d name c) (hname : File.IsName computerName)
    (hne : computerName ≠ investigationEntryName)
    (hsame : ∀ rest, (∀ r, rest ≠ computerName :: r) → fs'.node (d ++ rest) = fs.node (d ++ rest))
    (hholds : HoldsComputer fs' (d ++ [computerName]) fields) :
    HoldsCase fs' d name (c.put computerName fields) where
  isDirectory := by
    have hd := isDirectoryAt_iff.1 h.isDirectory
    rw [isDirectoryAt_iff, ← List.append_nil d, hsame [] (by simp), List.append_nil, hd]
  entry := by
    rw [hsame _ (by simpa using hne.symm)]
    exact h.entry
  isName x hx := by
    by_cases hxc : x = computerName
    · exact hxc ▸ ⟨hname, hne⟩
    · rw [CaseRecord.computers_put_of_ne hxc] at hx
      exact h.isName x hx
  -- only the directory of the computer is not as before
  vacant x hx hxe hnone := by
    by_cases hxc : x = computerName
    · rw [hxc, CaseRecord.computers_put_self] at hnone
      exact absurd hnone (Option.some_ne_none _)
    · rw [CaseRecord.computers_put_of_ne hxc] at hnone
      refine (h.vacant x hx hxe hnone).congr fun rest => ?_
      rw [List.append_assoc, hsame _ (by simp [hxc])]
  holds x entry hentry := by
    by_cases hxc : x = computerName
    · rw [hxc, CaseRecord.computers_put_self] at hentry
      rw [hxc, ← Option.some.inj hentry]
      exact hholds
    · rw [CaseRecord.computers_put_of_ne hxc] at hentry
      refine (h.holds x entry hentry).congr fun rest => ?_
      rw [List.append_assoc, hsame _ (by simp [hxc])]

/-- A case is replaced, or added; only its directory changes. -/
theorem Represents.update (h : Represents db fs b A) (hlead : LeadsTo fs' db.baseDbPath b)
    (hname : File.IsName name)
    (hsame : ∀ rest, (∀ r, rest ≠ name :: r) → fs'.node (b ++ rest) = fs.node (b ++ rest))
    (hholds : HoldsCase fs' (b ++ [name]) name c) :
    Represents db fs' b (Function.update A name (some c)) where
  leadsTo := hlead
  isName x hx := by
    by_cases hxn : x = name
    · exact hxn ▸ hname
    · rw [Function.update_of_ne hxn] at hx
      exact h.isName x hx
  vacant x hx hnone := by
    by_cases hxn : x = name
    · rw [hxn, Function.update_self] at hnone
      exact absurd hnone (Option.some_ne_none _)
    · rw [Function.update_of_ne hxn] at hnone
      refine (h.vacant x hx hnone).congr fun rest => ?_
      rw [List.append_assoc, hsame _ (by simp [hxn])]
  holds x c' hc' := by
    by_cases hxn : x = name
    · rw [hxn, Function.update_self] at hc'
      rw [hxn, ← Option.some.inj hc']
      exact hholds
    · rw [Function.update_of_ne hxn] at hc'
      refine (h.holds x c' hc').congr fun rest => ?_
      rw [List.append_assoc, hsame _ (by simp [hxn])]

/-- A computer gets an entry in a case that is there; only its directory changes. -/
theorem Represents.put (h : Represents db fs b A) (hlead : LeadsTo fs' db.baseDbPath b)
    (hcase : A caseName = some c) (hname : File.IsName computerName)
    (hne : computerName ≠ investigationEntryName)
    (hsame : ∀ rest, (∀ r, rest ≠ caseName :: computerName :: r) →
      fs'.node (b ++ rest) = fs.node (b ++ rest))
    (hholds : HoldsComputer fs' (b ++ [caseName] ++ [computerName]) fields) :
    Represents db fs' b (A.put caseName computerName fields) := by
  rw [CaseMap.put, hcase, Option.map_some]
  refine h.update hlead (h.isName caseName (Option.isSome_iff_exists.2 ⟨c, hcase⟩))
    (fun rest hrest => hsame rest fun r => hrest _) ?_
  refine (h.holds caseName c hcase).put hname hne (fun rest hrest => ?_) hholds
  rw [List.append_assoc, hsame _ (by simpa using hrest)]

/-! ## Calls -/

theorem Represents.exists_case (h : Represents db fs b A) (hname : File.IsName name) :
    fs.exists (db.baseDbPath.child name) = (A name).isSome := by
  rw [h.leadsTo.exists_child hname]
  cases hA : A name with
  | none => rw [(h.vacant name hname hA).node]; rfl
  | some c => rw [isDirectoryAt_iff.1 (h.holds name c hA).isDirectory]; rfl

theorem Represents.createCase (h : Represents db fs b A) (hio : io.Works)
    {entry : InvestigationCaseDbEntry} (hname : File.IsName entry.urlCaseName) :
    (db.createCase fs io entry).1 = (A.createCase entry).1 ∧
      Represents db (db.createCase fs io entry).2 b (A.createCase entry).2 := by
  have hexists := h.exists_case hname
  rw [CaseMap.createCase]
  cases hA : A entry.urlCaseName with
  | some c =>
    rw [hA, Option.isSome_some] at hexists
    rw [InvestigationCaseDB.createCase, if_pos hexists]
    exact ⟨rfl, h⟩
  | none =>
    rw [hA, Option.isSome_none] at hexists
    have hvacant := h.vacant _ hname hA
    have hne : b ++ [entry.urlCaseName] ≠ [] :=
      List.append_ne_nil_of_right_ne_nil b (List.cons_ne_nil _ _)
    rw [createCase_insert hexists,
      h.leadsTo.insertEntry hio hname isName_investigationEntryName hvacant]
    refine ⟨rfl, h.update (h.leadsTo.later_withEntry hvacant) hname
      (fun rest hrest => node_withEntry_of_ne ?_ ?_) ?_⟩
    · simpa using hrest []
    · simpa using hrest [investigationEntryName]
    · -- The new case has no computers.
      refine ⟨isDirectoryAt_iff.2 (node_withEntry hne),
        ⟨_, entry, node_withEntry_entry, rfl, rfl, rfl⟩, fun _ hx => absurd hx (by simp),
        fun y _ hye _ rest => ?_, fun y fields hy => absurd hy (by simp)⟩
      rw [node_withEntry_of_ne (by simp) (by simp [hye]), List.append_assoc]
      exact hvacant _

theorem Represents.leadsTo_case (h : Represents db fs b A) (hcase : A name = some c) :
    LeadsTo fs (db.baseDbPath.child name) (b ++ [name]) :=
  h.leadsTo.child (h.isName name (Option.isSome_iff_exists.2 ⟨c, hcase⟩))
    (h.holds name c hcase).isDirectory

theorem Represents.isDirectoryAt_none (h : Represents db fs b A) (hname : File.IsName name)
    (hnone : A name = none) : fs.isDirectoryAt (b ++ [name]) = false :=
  isDirectoryAt_of_node_none (h.vacant name hname hnone).node

/-- A case that is there is read. -/
theorem Represents.getCase_some (h : Represents db fs b A) (henv : env.Works)
    (hcase : A name = some c) :
    ∃ entry, db.getCase fs env name = .ok entry ∧ entry.urlCaseName = name ∧
      entry.caseName = c.caseName := by
  obtain ⟨content, entry, hnode, hentry, hurl, hcaseName⟩ := (h.holds name c hcase).entry
  refine ⟨entry, ?_, hurl, hcaseName⟩
  have hread := (h.leadsTo_case hcase).read_child isName_investigationEntryName
  rw [InvestigationCaseDB.getCase, readValue_file (henv.readable _) (hread.trans hnode), hentry]
  rfl

/-- No other is. -/
theorem Represents.getCase_none (h : Represents db fs b A) (hname : File.IsName name)
    (hnone : A name = none) : db.getCase fs env name = .error .io :=
  readValue_none (h.leadsTo.read_below hname isName_investigationEntryName
    (h.isDirectoryAt_none hname hnone))

theorem HoldsCase.exists_computer (h : HoldsCase fs d name c) (hlead : LeadsTo fs folder d)
    (hname : File.IsName computerName) (hne : computerName ≠ investigationEntryName) :
    fs.exists (folder.child computerName) = (c.computers computerName).isSome := by
  rw [hlead.exists_child hname]
  cases hc : c.computers computerName with
  | none => rw [(h.vacant computerName hname hne hc).node]; rfl
  | some fields => rw [isDirectoryAt_iff.1 (h.holds computerName fields hc).isDirectory]; rfl

theorem Represents.createComputer (h : Represents db fs b A) (henv : env.Works) (hio : io.Works)
    (hcaseName : File.IsName caseName) (hname : File.IsName fields.urlcomputerName)
    (hne : fields.urlcomputerName ≠ investigationEntryName) :
    (perform db fs (.createComputer env io caseName fields)).1 =
        (A.createComputer caseName fields).1 ∧
      Represents db (perform db fs (.createComputer env io caseName fields)).2 b
        (A.createComputer caseName fields).2 := by
  rw [CaseMap.createComputer]
  cases hA : A caseName with
  | none =>
    rw [perform, InvestigationCaseDB.createComputer, h.getCase_none hcaseName hA]
    exact ⟨rfl, h⟩
  | some c =>
    obtain ⟨entry, hget, hurl, -⟩ := h.getCase_some henv hA
    have hlead := h.leadsTo_case hA
    have hexists := (h.holds caseName c hA).exists_computer hlead hname hne
    cases hc : c.computers fields.urlcomputerName with
    -- the name is taken
    | some stored =>
      rw [hc, Option.isSome_some] at hexists
      rw [perform, InvestigationCaseDB.createComputer, hget]
      simp only [hurl, hexists, hc, if_true]
      exact ⟨rfl, h⟩
    | none =>
      rw [hc, Option.isSome_none] at hexists
      have hvacant := (h.holds caseName c hA).vacant _ hname hne hc
      have hnew : db.newFolder fs env caseName fields =
          some ((db.baseDbPath.child caseName).child fields.urlcomputerName) := by
        rw [newFolder, hget]
        simp only [hurl, hexists]
        rfl
      have hd : b ++ [caseName] ++ [fields.urlcomputerName] ≠ [] :=
        List.append_ne_nil_of_right_ne_nil _ (List.cons_ne_nil _ _)
      rw [perform_createComputer hnew,
        hlead.insertEntry hio hname isName_computerEntryName hvacant]
      simp only [hc]
      refine ⟨trivial, h.put (h.leadsTo.later_withEntry hvacant) hA hname hne
        (fun rest hrest => node_withEntry_of_ne ?_ ?_)
        ⟨isDirectoryAt_iff.2 (node_withEntry hd), _, node_withEntry_entry, rfl⟩⟩
      · simpa using hrest []
      · simpa using hrest [computerEntryName]

theorem CaseMap.computer_eq_some :
    A.computer caseName computerName = some fields ↔
      ∃ c, A caseName = some c ∧ c.computers computerName = some fields :=
  Option.bind_eq_some_iff

/-- A computer that is there is read. -/
theorem Represents.getComputer_some (h : Represents db fs b A) (henv : env.Works)
    (hfields : A.computer caseName computerName = some fields) :
    db.getComputer fs env caseName computerName =
      .ok ⟨fields, (db.baseDbPath.child caseName).child computerName,
        caseName ++ "\\" ++ fields.urlcomputerName⟩ := by
  obtain ⟨c, hA, hc⟩ := CaseMap.computer_eq_some.1 hfields
  have hcase := h.holds caseName c hA
  have hname := (hcase.isName computerName (Option.isSome_iff_exists.2 ⟨fields, hc⟩)).1
  obtain ⟨hdir, content, hnode, hcontent⟩ := hcase.holds computerName fields hc
  have hread := ((h.leadsTo_case hA).child hname hdir).read_child isName_computerEntryName
  rw [InvestigationCaseDB.getComputer, readValue_file (henv.readable _) (hread.trans hnode),
    hcontent]
  rfl

/-- No other is. -/
theorem Represents.getComputer_none (h : Represents db fs b A) (hcaseName : File.IsName caseName)
    (hname : File.IsName computerName) (hnone : A.computer caseName computerName = none) :
    db.getComputer fs env caseName computerName = .error .io := by
  have hread : fs.read (((db.baseDbPath.child caseName).child computerName).child
      computerEntryName) = none := by
    cases hA : A caseName with
    | none =>
      have hloc := h.leadsTo.locate_below hcaseName hname
      rw [h.isDirectoryAt_none hcaseName hA] at hloc
      rw [FileSystem.read, locate_child_of_path (path_child _ _) isName_computerEntryName, hloc]
      rfl
    | some c =>
      refine (h.leadsTo_case hA).read_below hname isName_computerEntryName ?_
      have hcase := h.holds caseName c hA
      rw [CaseMap.computer, hA, Option.bind_some] at hnone
      by_cases hne : computerName = investigationEntryName
      · obtain ⟨content, entry, hnode, -⟩ := hcase.entry
        rw [hne, isDirectoryAt, hnode]
      · exact isDirectoryAt_of_node_none (hcase.vacant computerName hname hne hnone).node
  rw [InvestigationCaseDB.getComputer, readValue_none hread]
  rfl

theorem Represents.update_computer (h : Represents db fs b A)
    {computer stored : ComputerDbEntry} (hcaseName : File.IsName caseName)
    (hname : File.IsName computerName)
    (hget : db.getComputer fs env caseName computerName = .ok stored)
    (hfolder : stored.baseStorageFolder = computer.baseStorageFolder) :
    (InvestigationCaseDB.update fs .ok computer).1 = (A.update computer).1 ∧
      Represents db (InvestigationCaseDB.update fs .ok computer).2 b (A.update computer).2 := by
  cases hfields : A.computer caseName computerName with
  | none =>
    rw [h.getComputer_none hcaseName hname hfields] at hget
    exact absurd hget nofun
  | some fields =>
    obtain ⟨c, hA, hc⟩ := CaseMap.computer_eq_some.1 hfields
    have hcase := h.holds caseName c hA
    have hne := (hcase.isName computerName (Option.isSome_iff_exists.2 ⟨fields, hc⟩)).2
    obtain ⟨hdir, content, hnode, -⟩ := hcase.holds computerName fields hc
    rw [(getComputer_stored hname hget).2] at hfolder
    -- the keys are the last two names of the folder
    have hkeys : A.update computer =
        (.ok (), A.put caseName computerName computer.toComputerFields) := by
      rw [CaseMap.update, ← hfolder, File.names_child_of_isSegment hname.1,
        File.names_child_of_isSegment hcaseName.1]
      simp
    have hloc := ((h.leadsTo_case hA).child hname hdir).locate_child isName_computerEntryName
    have hno : fs.isDirectoryAt (b ++ [caseName] ++ [computerName] ++ [computerEntryName]) =
        false := by
      rw [isDirectoryAt, hnode]
    rw [hkeys, update_file .ok (hfolder ▸ hloc) hnode]
    refine ⟨rfl, h.put (h.leadsTo.set hno) hA hname hne (fun rest hrest => node_set_of_ne ?_)
      ⟨?_, _, node_set_self ?_, rfl⟩⟩
    · simpa using hrest [computerEntryName]
    · rw [isDirectoryAt_iff, node_set_of_ne (by simp), isDirectoryAt_iff.1 hdir]
    · simp

/-- Every call answers as the map does, and leaves what the map becomes. -/
theorem Represents.perform (h : Represents db fs b A) (hop : op.Plain db fs) :
    (DbOperation.perform db fs op).1 = (A.perform op).1 ∧
      Represents db (DbOperation.perform db fs op).2 b (A.perform op).2 := by
  cases op with
  | createCase io entry => exact h.createCase hop.1 hop.2
  | createComputer env io urlcaseName fields =>
    obtain ⟨henv, hio, hcaseName, hname, hne⟩ := hop
    exact h.createComputer henv hio hcaseName hname hne
  | update io computer =>
    obtain ⟨rfl, env, caseName, computerName, stored, hcaseName, hname, hget, hfolder⟩ := hop
    exact h.update_computer hcaseName hname hget hfolder

/-! ## Answers -/

/-- The directories in a directory that have an entry are listed once. -/
theorem LeadsTo.listing (h : LeadsTo fs base b) (henv : env.Works)
    (hentry : File.IsName entryName) :
    ∃ names, foldersWith fs env entryName base = .ok names ∧ names.Nodup ∧
      ∀ name, name ∈ names ↔ File.IsName name ∧ fs.isDirectoryAt (b ++ [name]) = true ∧
        (fs.node (b ++ [name] ++ [entryName])).isSome := by
  obtain ⟨listing, hlisting⟩ := Option.ne_none_iff_exists'.1 (henv.listing base)
  have hfolders : ∃ names, foldersWith fs env entryName base = .ok names ∧ names.Nodup := by
    rw [foldersWith, listFiles, h.locate, Option.bind_some, if_pos h.isDirectory, hlisting]
    exact ⟨_, rfl, ((listing.perm _).nodup_iff.2 nodup_children).filter _⟩
  obtain ⟨names, hnames, hnodup⟩ := hfolders
  exact ⟨names, hnames, hnodup, fun name => h.mem_foldersWith hentry hnames⟩

theorem Represents.getCases (h : Represents db fs b A) (henv : env.Works) :
    ∃ names, db.getCases fs env = .ok names ∧ names.Nodup ∧
      ∀ name, name ∈ names ↔ (A name).isSome := by
  obtain ⟨names, hnames, hnodup, hmem⟩ := h.leadsTo.listing henv isName_investigationEntryName
  refine ⟨names, hnames, hnodup, fun name => (hmem name).trans ⟨fun hname => ?_, fun hname => ?_⟩⟩
  · cases hA : A name with
    | none =>
      rw [h.isDirectoryAt_none hname.1 hA] at hname
      exact absurd hname.2.1 Bool.false_ne_true
    | some c => rfl
  · obtain ⟨c, hA⟩ := Option.isSome_iff_exists.1 hname
    obtain ⟨content, entry, hnode, -⟩ := (h.holds name c hA).entry
    exact ⟨h.isName name hname, (h.holds name c hA).isDirectory,
      Option.isSome_iff_exists.2 ⟨_, hnode⟩⟩

theorem Represents.getComputers_none (h : Represents db fs b A) (hname : File.IsName name)
    (hnone : A name = none) : db.getComputers fs env name = .error .nullPointer := by
  rw [getComputers, foldersWith, listFiles, h.leadsTo.locate_child hname, Option.bind_some,
    h.isDirectoryAt_none hname hnone]
  rfl

theorem Represents.getComputers_some (h : Represents db fs b A) (henv : env.Works)
    (hcase : A caseName = some c) :
    ∃ names, db.getComputers fs env caseName = .ok names ∧ names.Nodup ∧
      ∀ name, name ∈ names ↔ (c.computers name).isSome := by
  have hheld := h.holds caseName c hcase
  obtain ⟨names, hnames, hnodup, hmem⟩ :=
    (h.leadsTo_case hcase).listing henv isName_computerEntryName
  refine ⟨names, hnames, hnodup, fun name => (hmem name).trans ⟨fun hname => ?_, fun hname => ?_⟩⟩
  · cases hc : c.computers name with
    | none =>
      by_cases hne : name = investigationEntryName
      · -- The entry of the case is no directory.
        obtain ⟨content, entry, hnode, -⟩ := hheld.entry
        rw [hne, isDirectoryAt, hnode] at hname
        exact absurd hname.2.1 Bool.false_ne_true
      · rw [isDirectoryAt_of_node_none (hheld.vacant name hname.1 hne hc).node] at hname
        exact absurd hname.2.1 Bool.false_ne_true
    | some fields => rfl
  · obtain ⟨fields, hc⟩ := Option.isSome_iff_exists.1 hname
    obtain ⟨hdir, content, hnode, -⟩ := hheld.holds name fields hc
    exact ⟨(hheld.isName name hname).1, hdir, Option.isSome_iff_exists.2 ⟨_, hnode⟩⟩

theorem findInCases_ok {clientid hardwareId : Option String} {cases : List String}
    (h : ∀ caseName ∈ cases, ∃ computers, db.getComputers fs env caseName = .ok computers) :
    ∃ found, db.findInCases fs env clientid hardwareId cases = .ok found := by
  induction cases with
  | nil => exact ⟨none, rfl⟩
  | cons caseName cases ih =>
    obtain ⟨computers, hcomputers⟩ := h caseName List.mem_cons_self
    rw [findInCases, hcomputers]
    dsimp only
    split
    · exact ⟨_, rfl⟩
    · exact ih fun x hx => h x (List.mem_cons_of_mem _ hx)

/-- A search finds an entry with the ids, if there is one. -/
theorem Represents.findClient (h : Represents db fs b A) (henv : env.Works)
    (clientid hardwareId : Option String) :
    (db.findClient fs env clientid hardwareId = .ok none ∧
      ∀ caseName computerName fields, A.computer caseName computerName = some fields →
        ¬fields.Matches clientid hardwareId) ∨
    ∃ caseName computerName fields, A.computer caseName computerName = some fields ∧
      fields.Matches clientid hardwareId ∧
      db.findClient fs env clientid hardwareId =
        .ok (some ⟨fields, (db.baseDbPath.child caseName).child computerName,
          caseName ++ "\\" ++ fields.urlcomputerName⟩) := by
  obtain ⟨cases, hcases, -, hmem⟩ := h.getCases henv
  have hcomputers : ∀ caseName ∈ cases, ∃ c names, A caseName = some c ∧
      db.getComputers fs env caseName = .ok names ∧
      ∀ name, name ∈ names ↔ (c.computers name).isSome := by
    intro caseName hcaseName
    obtain ⟨c, hA⟩ := Option.isSome_iff_exists.1 ((hmem caseName).1 hcaseName)
    obtain ⟨names, hnames, -, hmem⟩ := h.getComputers_some henv hA
    exact ⟨c, names, hA, hnames, hmem⟩
  -- all that is listed can be read
  obtain ⟨found, hfound⟩ : ∃ found, db.findClient fs env clientid hardwareId = .ok found := by
    rw [InvestigationCaseDB.findClient, hcases]
    refine findInCases_ok fun caseName hcaseName => ?_
    obtain ⟨c, names, -, hnames, -⟩ := hcomputers caseName hcaseName
    exact ⟨names, hnames⟩
  cases found with
  | none =>
    -- every entry of the map is looked at
    refine .inl ⟨hfound, fun caseName computerName fields hfields => ?_⟩
    obtain ⟨cases', hcases', hnone⟩ := findClient_ok_none hfound
    rw [hcases, Except.ok.injEq] at hcases'
    obtain ⟨c, hA, hc⟩ := CaseMap.computer_eq_some.1 hfields
    have hcaseName : caseName ∈ cases :=
      (hmem caseName).2 (Option.isSome_iff_exists.2 ⟨c, hA⟩)
    obtain ⟨names, hnames, hids⟩ := hnone caseName (hcases' ▸ hcaseName)
    obtain ⟨c', names', hA', hnames', hmem'⟩ := hcomputers caseName hcaseName
    rw [hnames, Except.ok.injEq] at hnames'
    rw [hA, Option.some.injEq] at hA'
    exact hids computerName
      (hnames' ▸ (hmem' computerName).2 (hA' ▸ Option.isSome_iff_exists.2 ⟨fields, hc⟩)) _
      (h.getComputer_some henv hfields)
  | some computer =>
    obtain ⟨cases', caseName, computerName, hcases', hin⟩ := findClient_ok_some hfound
    rw [hcases, Except.ok.injEq] at hcases'
    obtain ⟨c, names, hA, hnames, hmem'⟩ := hcomputers caseName (hcases' ▸ hin.mem_cases)
    obtain ⟨names', hnames', hcomputerName⟩ := hin.computers
    rw [hnames, Except.ok.injEq] at hnames'
    obtain ⟨fields, hc⟩ :=
      Option.isSome_iff_exists.1 ((hmem' computerName).1 (hnames' ▸ hcomputerName))
    have hfields : A.computer caseName computerName = some fields :=
      CaseMap.computer_eq_some.2 ⟨c, hA, hc⟩
    have hget := hin.getComputer
    rw [h.getComputer_some henv hfields, Except.ok.injEq] at hget
    refine .inr ⟨caseName, computerName, fields, hfields, ?_, hget ▸ hfound⟩
    have hids := hin.ids
    rw [← hget] at hids
    exact hids

/-! ## Runs -/

/-- The database answers as the map does, if no file operation fails. -/
structure Answers (db : InvestigationCaseDB) (fs : Disk) (A : CaseMap) : Prop where
  getCases : ∀ env : ReadEnv, env.Works → ∃ names, db.getCases fs env = .ok names ∧
    names.Nodup ∧ ∀ name, name ∈ names ↔ (A name).isSome
  getCase_none : ∀ (env : ReadEnv) name, File.IsName name → A name = none →
    db.getCase fs env name = .error .io
  getCase_some : ∀ (env : ReadEnv) name c, env.Works → A name = some c →
    ∃ entry, db.getCase fs env name = .ok entry ∧ entry.urlCaseName = name ∧
      entry.caseName = c.caseName
  getComputers_none : ∀ (env : ReadEnv) name, File.IsName name → A name = none →
    db.getComputers fs env name = .error .nullPointer
  getComputers_some : ∀ (env : ReadEnv) caseName c, env.Works → A caseName = some c →
    ∃ names, db.getComputers fs env caseName = .ok names ∧ names.Nodup ∧
      ∀ name, name ∈ names ↔ (c.computers name).isSome
  getComputer_none : ∀ (env : ReadEnv) caseName computerName, File.IsName caseName →
    File.IsName computerName → A.computer caseName computerName = none →
    db.getComputer fs env caseName computerName = .error .io
  getComputer_some : ∀ (env : ReadEnv) caseName computerName fields, env.Works →
    A.computer caseName computerName = some fields →
    db.getComputer fs env caseName computerName =
      .ok ⟨fields, (db.baseDbPath.child caseName).child computerName,
        caseName ++ "\\" ++ fields.urlcomputerName⟩
  findClient : ∀ (env : ReadEnv) clientid hardwareId, env.Works →
    (db.findClient fs env clientid hardwareId = .ok none ∧
      ∀ caseName computerName fields, A.computer caseName computerName = some fields →
        ¬fields.Matches clientid hardwareId) ∨
    ∃ caseName computerName fields, A.computer caseName computerName = some fields ∧
      fields.Matches clientid hardwareId ∧
      db.findClient fs env clientid hardwareId =
        .ok (some ⟨fields, (db.baseDbPath.child caseName).child computerName,
          caseName ++ "\\" ++ fields.urlcomputerName⟩)

theorem Represents.answers (h : Represents db fs b A) : Answers db fs A where
  getCases _ henv := h.getCases henv
  getCase_none _ _ hname hnone := h.getCase_none hname hnone
  getCase_some _ _ _ henv hcase := h.getCase_some henv hcase
  getComputers_none _ _ hname hnone := h.getComputers_none hname hnone
  getComputers_some _ _ _ henv hcase := h.getComputers_some henv hcase
  getComputer_none _ _ _ hcaseName hname hnone := h.getComputer_none hcaseName hname hnone
  getComputer_some _ _ _ _ henv hfields := h.getComputer_some henv hfields
  findClient _ clientid hardwareId henv := h.findClient henv clientid hardwareId

/-- An empty directory holds the empty map. -/
theorem represents_empty (hlead : LeadsTo fs db.baseDbPath b)
    (hempty : ∀ names, names ≠ [] → fs.node (b ++ names) = none) :
    Represents db fs b CaseMap.empty where
  leadsTo := hlead
  isName _ hsome := absurd hsome Bool.false_ne_true
  vacant name _ _ rest := by
    rw [List.append_assoc]
    exact hempty _ (List.cons_ne_nil _ _)
  holds _ _ hsome := absurd hsome.symm (Option.some_ne_none _)

/-- The map after the calls of a run. -/
def CaseMap.after (l : List DbOperation) : CaseMap :=
  l.foldl (fun A op => (A.perform op).2) .empty

/-- In every run of calls with plain names, whose file operations do not fail, from an empty
    directory: the database answers as the map of the cases and computers that were created
    and updated does, and so does the next call. -/
theorem database_refines {l : List DbOperation} (hlead : LeadsTo fs db.baseDbPath b)
    (hempty : ∀ names, names ≠ [] → fs.node (b ++ names) = none)
    (hl : Transition.AllSteps (step db) (fun fs op => op.Plain db fs) fs l)
    (hr : Transition.runs (step db) fs l = some fs') :
    Answers db fs' (.after l) ∧ ∀ op, op.Plain db fs' →
      (perform db fs' op).1 = ((CaseMap.after l).perform op).1 := by
  have h : Represents db fs' b (.after l) := by
    refine Transition.runs_simulation (R := fun fs A => Represents db fs b A) ?_ hr hl
      (represents_empty hlead hempty)
    intro fs A op fs' hop h hstep
    rw [← Option.some.inj hstep]
    exact (h.perform hop).2
  exact ⟨h.answers, fun op hop => (h.perform hop).1⟩

/-- A case with a computer is created. -/
def createsBoth : List DbOperation :=
  [.createCase ⟨false, .ok⟩ (.new "case" "A case"),
    .createComputer ⟨fun _ => some ⟨List.reverse, List.reverse_perm⟩, fun _ => false⟩ ⟨false, .ok⟩
      "case" { urlcomputerName := "pc" }]

/-- The database in the root directory, after it. -/
theorem database_refines_root :
    ∃ fs', Transition.runs (step rootDB) emptyDisk createsBoth = some fs' ∧
      Answers rootDB fs' (.after createsBoth) := by
  have hnames : File.IsName (escapeName "case") ∧ File.IsName "case" ∧ File.IsName "pc" ∧
      "pc" ≠ investigationEntryName := by decide +kernel
  refine ⟨_, rfl, (database_refines (l := createsBoth) (b := []) ⟨.inr (by decide), rfl, rfl⟩
    (fun names hne => ?_) ⟨⟨⟨rfl, rfl⟩, hnames.1⟩, fun _ _ => ⟨⟨⟨fun _ => ?_, fun _ => rfl⟩,
      ⟨rfl, rfl⟩, hnames.2⟩, fun _ _ => trivial⟩⟩ rfl).1⟩
  · rw [List.nil_append, node, if_neg hne, emptyDisk, AList.lookup_empty]
  · exact Option.some_ne_none _

end Raqet
