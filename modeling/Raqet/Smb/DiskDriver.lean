import Raqet.Java.Text
import Raqet.Remote.DeviceManager

/-!
# The file server's driver

`RaqetDiskDriver` shows the devices that were published as files in the folders of a real
file system (`JavaFileDiskDriver`, a parameter). A file is looked up by its path
(`findPseudoFile`), without regard to letter case. A folder is searched by a path that ends
in a pattern (`startSearch`), which gives a context that enumerates files: first those of
a list of the driver, then those of the real file system (`RaqetSearchContext`).

The first file of every list is a dummy, since the context skips it.

* `Search.enumerates_raqet`: the context enumerates the files of its list but the dummy;
* `findPseudoFile_after`, `enumerates_star` and `enumerates_name`: what is found by its
  name, and what is enumerated;
* `finds_and_lists_iff`: where these agree. They do not in the root folder, nor for a name in
  another letter case.
-/

namespace Raqet

open Java

/-- A file of the driver. -/
inductive PseudoFile
  /-- A `MemoryPseudoFile`. -/
  | memory (name : String)
  /-- A `RemotePseudoFile`. -/
  | remote (device : RemoteDeviceInfo)

/-- `getFileName()`. -/
def PseudoFile.getFileName : PseudoFile → String
  | .memory name => name
  | .remote device => "virtualevidence-" ++ device.evidenceBaseFileName

/-- What a path is resolved to, or a search enumerates: a file of the driver or a real one. -/
inductive Found (ρ : Type)
  | pseudo (file : PseudoFile)
  | real (file : ρ)

/-- The codes of `FileStatus`. -/
inductive FileStatus
  | notExist
  | fileExists
  | directoryExists

/-- The real file system: its files, and its search contexts with their methods. A method
    that throws gives none. -/
structure JavaFileDiskDriver (ρ σ : Type) where
  fileExists : String → FileStatus
  getFileInformation : String → Option ρ
  openFile : String → Option ρ
  startSearch : String → Option σ
  hasMoreFiles : σ → Bool
  nextFileInfo : σ → Option ρ × σ
  nextFileName : σ → Option String × σ

/-- A `RaqetSearchContext`. -/
structure RaqetSearchContext (σ : Type) where
  searchContext : Option σ
  pseudoList : List PseudoFile
  index : ℤ
  donePseudoFiles : Bool

namespace RaqetSearchContext

variable {ρ σ : Type} (real : JavaFileDiskDriver ρ σ) (c : RaqetSearchContext σ)

/-- A new context with this list. -/
def new (searchContext : Option σ) (pseudoList : List PseudoFile) : RaqetSearchContext σ :=
  ⟨searchContext, pseudoList, 0, false⟩

/-- `hasMorePseudoFiles()`. -/
def hasMorePseudoFiles : Bool :=
  !c.donePseudoFiles && decide (c.index < (c.pseudoList.length : ℤ) - 1)

/-- `nextPseudoFileInfo(info)`. -/
def nextPseudoFileInfo : Option PseudoFile × RaqetSearchContext σ :=
  if c.hasMorePseudoFiles then
    let index := c.index + 1
    match c.pseudoList[index.toNat]? with
    | some file =>
      if index = (c.pseudoList.length : ℤ) - 1 then
        (some file, { c with index := -1, donePseudoFiles := true })
      else (some file, { c with index })
    | none => (none, { c with index })
  else (none, c)

/-- `nextPseudoFileName()`. -/
def nextPseudoFileName : Option String × RaqetSearchContext σ :=
  if c.hasMorePseudoFiles then
    let index := c.index + 1
    match c.pseudoList[index.toNat]? with
    | some file => (some file.getFileName, { c with index })
    | none => (none, { c with index := -1, donePseudoFiles := true })
  else (none, c)

/-- `hasMoreFiles()`. -/
def hasMoreFiles : Bool :=
  if c.hasMorePseudoFiles then true
  else match c.searchContext with
    | none => false
    | some s => real.hasMoreFiles s

/-- `nextFileInfo(info)`. -/
def nextFileInfo : Option (Found ρ) × RaqetSearchContext σ :=
  if c.hasMorePseudoFiles then
    let o := c.nextPseudoFileInfo
    (o.1.map .pseudo, o.2)
  else match c.searchContext with
    | none => (none, c)
    | some s =>
      let o := real.nextFileInfo s
      (o.1.map .real, { c with searchContext := some o.2 })

/-- `nextFileName()`. -/
def nextFileName : Option String × RaqetSearchContext σ :=
  if c.hasMorePseudoFiles then c.nextPseudoFileName
  else match c.searchContext with
    | none => (none, c)
    | some s =>
      let o := real.nextFileName s
      (o.1, { c with searchContext := some o.2 })

end RaqetSearchContext

/-- How `startSearch` ends. -/
inductive Search (σ : Type)
  /-- A `FileNotFoundException` is thrown. -/
  | fileNotFound
  /-- The context of the real file system, or null. -/
  | real (searchContext : Option σ)
  | raqet (context : RaqetSearchContext σ)

/-- A `RaqetDiskDriver`: the lists of files of the folders. -/
structure RaqetDiskDriver where
  pseudoFileLists : String → Option (List PseudoFile)

namespace RaqetDiskDriver

/-- `new MemoryPseudoFile("123.txt", new byte[]{1, 2, 3})`, which the contexts skip. -/
def dummy : PseudoFile := .memory "123.txt"

/-- `existingPseudoFileList(path)`. -/
def existingPseudoFileList (d : RaqetDiskDriver) (path : String) :
    List PseudoFile × RaqetDiskDriver :=
  match d.pseudoFileLists path with
  | some pseudoFileList => (pseudoFileList, d)
  | none => ([dummy], ⟨Function.update d.pseudoFileLists path (some [dummy])⟩)

/-- The constructor. -/
def new : RaqetDiskDriver := (existingPseudoFileList ⟨fun _ => none⟩ "\\").2

/-- `addRemoteDevice(remoteDeviceManager, folder, remoteDevice)`. -/
def addRemoteDevice (d : RaqetDiskDriver) (folder : String) (remoteDevice : RemoteDeviceInfo) :
    RaqetDiskDriver :=
  let (pseudoFileList, d) := d.existingPseudoFileList folder
  ⟨Function.update d.pseudoFileLists folder (some (pseudoFileList ++ [.remote remoteDevice]))⟩

variable {ρ σ : Type} (u : CaseMapping) (real : JavaFileDiskDriver ρ σ) (d : RaqetDiskDriver)

/-- `findPseudoFile(path)`. Without a backslash, the name is cut as if the path started with
    one: `substring` throws if the path is empty. -/
def findPseudoFile (path : String) : Except Exn (Option PseudoFile) :=
  let folderpart := lastIndexOf path '\\'
  let folder := if 0 ≤ folderpart then substringTo path (folderpart + 1).toNat else "\\"
  match d.pseudoFileLists folder with
  | none => .ok none
  | some pseudoFileList =>
    if path.toList.length < folder.toList.length then .error (.indexOutOfBounds none)
    else
      let filename := substringFrom path folder.toList.length
      .ok (pseudoFileList.find? fun file => u.equalsIgnoreCase file.getFileName filename)

/-- `fileExists(sess, tree, name)`. -/
def fileExists (name : String) : Except Exn FileStatus :=
  match d.findPseudoFile u name with
  | .error e => .error e
  | .ok (some _) => .ok .fileExists
  | .ok none => .ok (real.fileExists name)

/-- `getFileInformation(sess, tree, name)`. -/
def getFileInformation (name : String) : Except Exn (Option (Found ρ)) :=
  match d.findPseudoFile u name with
  | .error e => .error e
  | .ok (some file) => .ok (some (.pseudo file))
  | .ok none => .ok ((real.getFileInformation name).map .real)

/-- `openFile(sess, tree, params)`, for parameters with this path. -/
def openFile (path : String) : Except Exn (Option (Found ρ)) :=
  match d.findPseudoFile u path with
  | .error e => .error e
  | .ok (some file) => .ok (some (.pseudo file))
  | .ok none => .ok ((real.openFile path).map .real)

/-- `startSearch(sess, tree, searchPath, attrib)`. -/
def startSearch (searchPath : String) : Search σ :=
  let searchContext := real.startSearch searchPath
  let lastSlash := lastIndexOf searchPath '\\'
  if lastSlash < 1 then .real searchContext
  else
    let path := substringTo searchPath (lastSlash + 1).toNat
    let pattern := substringFrom searchPath (lastSlash + 1).toNat
    match d.pseudoFileLists path with
    | none => .real searchContext
    | some pseudoFileList =>
      if pattern = "*" then .raqet (.new searchContext pseudoFileList)
      else
        let newPseudoFileList :=
          dummy :: pseudoFileList.filter fun file => decide (file.getFileName = pattern)
        if searchContext.isNone ∧ newPseudoFileList.length = 1 then .fileNotFound
        else .raqet (.new searchContext newPseudoFileList)

end RaqetDiskDriver

/-! ## Enumerations -/

/-- What the loop over a context gives in its first `k` rounds. -/
def enumerate {γ α : Type} (hasMore : γ → Bool) (next : γ → Option α × γ) : ℕ → γ → List α
  | 0, _ => []
  | k + 1, c =>
    if hasMore c then (next c).1.toList ++ enumerate hasMore next k (next c).2 else []

namespace RaqetSearchContext

variable {ρ σ : Type} {real : JavaFileDiskDriver ρ σ} {c : RaqetSearchContext σ}
  {l : List PseudoFile} {file : PseudoFile} {k : ℕ}

/-- The files `l` of the list are still to come. -/
def Remains (l : List PseudoFile) (c : RaqetSearchContext σ) : Prop :=
  (c.donePseudoFiles = true ∧ l = []) ∨
  (c.donePseudoFiles = false ∧ ∃ past, c.pseudoList = past ++ l ∧ past ≠ [] ∧
    c.index + 1 = past.length)

/-- The first file of the list is skipped. -/
theorem remains_new {searchContext : Option σ} :
    Remains l (.new searchContext (file :: l)) :=
  .inr ⟨rfl, [file], rfl, List.cons_ne_nil _ _, rfl⟩

theorem Remains.setSearchContext (h : Remains l c) (s : Option σ) :
    Remains l { c with searchContext := s } := h

theorem Remains.hasMorePseudoFiles (h : Remains l c) : c.hasMorePseudoFiles = !l.isEmpty := by
  rw [RaqetSearchContext.hasMorePseudoFiles]
  rcases h with ⟨hd, rfl⟩ | ⟨hd, past, hl, -, hi⟩
  · rw [hd]
    rfl
  · rw [hd, hl, List.length_append]
    cases l with
    | nil => simp; omega
    | cons file l => simp; omega

theorem Remains.nextPseudoFileInfo (h : Remains (file :: l) c) :
    ∃ c', c.nextPseudoFileInfo = (some file, c') ∧ Remains l c' := by
  rw [RaqetSearchContext.nextPseudoFileInfo, h.hasMorePseudoFiles]
  rcases h with ⟨-, h⟩ | ⟨hd, past, hl, hne, hi⟩
  · cases h
  have hget : c.pseudoList[(c.index + 1).toNat]? = some file := by
    rw [hi, Int.toNat_natCast, hl, List.getElem?_append_right le_rfl, Nat.sub_self]
    rfl
  simp only [List.isEmpty_cons, Bool.not_false, if_true, hget]
  split_ifs with hlast
  · refine ⟨_, rfl, .inl ⟨rfl, ?_⟩⟩
    rw [hl, List.length_append, List.length_cons] at hlast
    exact List.eq_nil_of_length_eq_zero (by omega)
  · refine ⟨_, rfl, .inr ⟨hd, past ++ [file], ?_, List.concat_ne_nil _ _, ?_⟩⟩
    · rw [hl, List.append_assoc]
      rfl
    · rw [List.length_append, List.length_singleton]
      dsimp only
      omega

theorem Remains.nextPseudoFileName (h : Remains (file :: l) c) :
    ∃ c', c.nextPseudoFileName = (some file.getFileName, c') ∧ Remains l c' := by
  rw [RaqetSearchContext.nextPseudoFileName, h.hasMorePseudoFiles]
  rcases h with ⟨-, h⟩ | ⟨hd, past, hl, hne, hi⟩
  · cases h
  have hget : c.pseudoList[(c.index + 1).toNat]? = some file := by
    rw [hi, Int.toNat_natCast, hl, List.getElem?_append_right le_rfl, Nat.sub_self]
    rfl
  simp only [List.isEmpty_cons, Bool.not_false, if_true, hget]
  refine ⟨_, rfl, .inr ⟨hd, past ++ [file], ?_, List.concat_ne_nil _ _, ?_⟩⟩
  · rw [hl, List.append_assoc]
    rfl
  · rw [List.length_append, List.length_singleton]
    dsimp only
    omega

/-- All files of the list are enumerated, in order. -/
theorem Remains.enumerate_infos (h : Remains l c) :
    enumerate (hasMoreFiles real) (nextFileInfo real) l.length c = l.map .pseudo := by
  induction l generalizing c with
  | nil => rfl
  | cons file l ih =>
    obtain ⟨c', hc', h'⟩ := h.nextPseudoFileInfo
    have hmore := h.hasMorePseudoFiles
    rw [List.isEmpty_cons, Bool.not_false] at hmore
    have hnext : nextFileInfo real c = (some (.pseudo file), c') := by
      rw [nextFileInfo, if_pos hmore, hc']
      rfl
    rw [List.length_cons, enumerate, hasMoreFiles, if_pos hmore, if_pos rfl, hnext, List.map_cons,
      ih h']
    rfl

/-- And so are their names. -/
theorem Remains.enumerate_names (h : Remains l c) :
    enumerate (hasMoreFiles real) (nextFileName real) l.length c =
      l.map PseudoFile.getFileName := by
  induction l generalizing c with
  | nil => rfl
  | cons file l ih =>
    obtain ⟨c', hc', h'⟩ := h.nextPseudoFileName
    have hmore := h.hasMorePseudoFiles
    rw [List.isEmpty_cons, Bool.not_false] at hmore
    have hnext : nextFileName real c = (some file.getFileName, c') := by
      rw [nextFileName, if_pos hmore, hc']
    rw [List.length_cons, enumerate, hasMoreFiles, if_pos hmore, if_pos rfl, hnext, List.map_cons,
      ih h']
    rfl

/-- No other files of the driver are enumerated. -/
theorem Remains.mem_of_mem_enumerate (h : Remains l c)
    (hmem : .pseudo file ∈ enumerate (hasMoreFiles real) (nextFileInfo real) k c) : file ∈ l := by
  induction k generalizing l c with
  | zero => exact absurd hmem List.not_mem_nil
  | succ k ih =>
    rw [enumerate] at hmem
    split_ifs at hmem with hmore
    swap
    · exact absurd hmem List.not_mem_nil
    rw [List.mem_append] at hmem
    cases l with
    -- the real files are enumerated now
    | nil =>
      have hno : ¬c.hasMorePseudoFiles = true := by rw [h.hasMorePseudoFiles]; exact nofun
      rw [nextFileInfo, if_neg hno] at hmem
      cases hs : c.searchContext with
      | none =>
        rw [hs] at hmem
        rcases hmem with hmem | hmem
        · cases hmem
        · exact ih h hmem
      | some s =>
        rw [hs] at hmem
        rcases hmem with hmem | hmem
        · simp at hmem
        · exact ih (h.setSearchContext _) hmem
    | cons first l =>
      obtain ⟨c', hc', h'⟩ := h.nextPseudoFileInfo
      have hpseudo : c.hasMorePseudoFiles = true := by rw [h.hasMorePseudoFiles]; rfl
      rw [nextFileInfo, if_pos hpseudo, hc'] at hmem
      rcases hmem with hmem | hmem
      · simp at hmem
        exact hmem ▸ List.mem_cons_self
      · exact List.mem_cons_of_mem _ (ih h' hmem)

end RaqetSearchContext

namespace Search

variable {ρ σ : Type} (real : JavaFileDiskDriver ρ σ)

/-- What `nextFileInfo` gives in the first `k` rounds. -/
def infos (k : ℕ) : Search σ → List (Found ρ)
  | .real (some s) => enumerate real.hasMoreFiles
      (fun s => ((real.nextFileInfo s).1.map .real, (real.nextFileInfo s).2)) k s
  | .raqet c => enumerate (RaqetSearchContext.hasMoreFiles real)
      (RaqetSearchContext.nextFileInfo real) k c
  | _ => []

/-- What `nextFileName` gives in the first `k` rounds. -/
def names (k : ℕ) : Search σ → List String
  | .real (some s) => enumerate real.hasMoreFiles real.nextFileName k s
  | .raqet c => enumerate (RaqetSearchContext.hasMoreFiles real)
      (RaqetSearchContext.nextFileName real) k c
  | _ => []

/-- The search enumerates the file, by both methods. -/
def Enumerates (s : Search σ) (file : PseudoFile) : Prop :=
  (∃ k, .pseudo file ∈ s.infos real k) ∧ ∃ k, file.getFileName ∈ s.names real k

variable {real} {file first : PseudoFile} {l : List PseudoFile} {searchContext : Option σ}

theorem enumerates_raqet :
    (raqet (.new searchContext (first :: l))).Enumerates real file ↔ file ∈ l := by
  have h : RaqetSearchContext.Remains l (.new searchContext (first :: l)) :=
    RaqetSearchContext.remains_new
  constructor
  · rintro ⟨⟨k, hk⟩, -⟩
    exact h.mem_of_mem_enumerate hk
  · intro hmem
    refine ⟨⟨l.length, ?_⟩, l.length, ?_⟩
    · rw [infos, h.enumerate_infos]
      exact List.mem_map_of_mem hmem
    · rw [names, h.enumerate_names]
      exact List.mem_map_of_mem hmem

/-- A search of the real file system enumerates no file of the driver. -/
theorem not_enumerates_real : ¬(Search.real searchContext).Enumerates real file := by
  rintro ⟨⟨k, hk⟩, -⟩
  cases searchContext with
  | none => exact absurd hk List.not_mem_nil
  | some s =>
    rw [infos] at hk
    induction k generalizing s with
    | zero => exact absurd hk List.not_mem_nil
    | succ k ih =>
      rw [enumerate] at hk
      split_ifs at hk
      · rcases List.mem_append.1 hk with hk | hk
        · simp at hk
        · exact ih _ hk
      · exact absurd hk List.not_mem_nil

end Search

/-! ## Published devices -/

namespace RaqetDiskDriver

variable {ρ σ : Type} {u : CaseMapping} {real : JavaFileDiskDriver ρ σ}
  {calls : List (String × RemoteDeviceInfo)} {f g x : String} {file : PseudoFile}

/-- The driver after these calls of `addRemoteDevice`, each with a folder and a device. -/
def after (calls : List (String × RemoteDeviceInfo)) : RaqetDiskDriver :=
  calls.foldl (fun d call => d.addRemoteDevice call.1 call.2) new

/-- The files that were added to the folder. -/
def added (calls : List (String × RemoteDeviceInfo)) (f : String) : List PseudoFile :=
  (calls.filter fun call => call.1 = f).map fun call => .remote call.2

theorem pseudoFileLists_addRemoteDevice (d : RaqetDiskDriver) (folder : String)
    (device : RemoteDeviceInfo) :
    (d.addRemoteDevice folder device).pseudoFileLists = Function.update d.pseudoFileLists folder
      (some ((d.pseudoFileLists folder).getD [dummy] ++ [.remote device])) := by
  rw [addRemoteDevice, existingPseudoFileList]
  cases h : d.pseudoFileLists folder with
  | some l => rfl
  | none => exact Function.update_idem _ _ _

theorem added_append (call : String × RemoteDeviceInfo) :
    added (calls ++ [call]) f = added calls f ++ if call.1 = f then [.remote call.2] else [] := by
  rw [added, List.filter_append, List.map_append]
  congr 1
  by_cases h : call.1 = f <;> simp [h]

/-- A list has the dummy, and then what was added to the folder. -/
theorem pseudoFileLists_after (calls : List (String × RemoteDeviceInfo)) (f : String) :
    (after calls).pseudoFileLists f =
      if f = "\\" ∨ added calls f ≠ [] then some (dummy :: added calls f) else none := by
  induction calls using List.reverseRecOn generalizing f with
  | nil =>
    by_cases hf : f = "\\"
    · subst hf
      rfl
    · rw [if_neg (by simp [hf, added])]
      exact Function.update_of_ne hf _ _
  | append_singleton calls call ih =>
    rw [after, List.foldl_append, List.foldl_cons, List.foldl_nil, ← after,
      pseudoFileLists_addRemoteDevice, added_append]
    by_cases hf : call.1 = f
    · subst hf
      have hne : added calls call.1 ++ [PseudoFile.remote call.2] ≠ [] :=
        List.append_ne_nil_of_right_ne_nil _ (List.cons_ne_nil _ _)
      rw [Function.update_self, ih, if_pos rfl, eq_comm, if_pos (.inr hne)]
      -- the list is there already, or it is made now
      by_cases h : call.1 = "\\" ∨ added calls call.1 ≠ []
      · rw [if_pos h]
        rfl
      · rw [if_neg h]
        rw [not_or, not_not] at h
        rw [h.2]
        rfl
    · rw [Function.update_of_ne (Ne.symm hf), ih, if_neg hf, List.append_nil]

/-- A path in the folder `g\`. -/
theorem path_parts (hx : '\\' ∉ x.toList) :
    lastIndexOf (g ++ "\\" ++ x) '\\' = g.toList.length ∧
      substringTo (g ++ "\\" ++ x) ((g.toList.length : ℤ) + 1).toNat = g ++ "\\" ∧
      substringFrom (g ++ "\\" ++ x) ((g.toList.length : ℤ) + 1).toNat = x := by
  have hlen : ((g.toList.length : ℤ) + 1).toNat = (g ++ "\\").toList.length := by
    rw [String.toList_append, List.length_append]
    rfl
  rw [hlen, substringTo_append, substringFrom_append, show "\\" = String.singleton '\\' from rfl,
    lastIndexOf_append hx]
  exact ⟨rfl, rfl, rfl⟩

/-- A file is looked up in the list of its folder. -/
theorem findPseudoFile_path (d : RaqetDiskDriver) (hx : '\\' ∉ x.toList) :
    d.findPseudoFile u (g ++ "\\" ++ x) = .ok ((d.pseudoFileLists (g ++ "\\")).bind fun l =>
      l.find? fun file => u.equalsIgnoreCase file.getFileName x) := by
  obtain ⟨h₁, h₂, -⟩ := path_parts (g := g) hx
  have h₃ : substringFrom (g ++ "\\" ++ x) (g ++ "\\").toList.length = x := substringFrom_append
  have hlength : ¬(g ++ "\\" ++ x).toList.length < (g ++ "\\").toList.length := by
    simp
  rw [findPseudoFile, h₁, if_pos (Int.natCast_nonneg _), h₂, h₃]
  cases d.pseudoFileLists (g ++ "\\") with
  | none => rfl
  | some l => exact if_neg hlength

/-- A remote file does not have the name of the dummy, in any letter case. -/
theorem not_equalsIgnoreCase_dummy {device : RemoteDeviceInfo}
    (h : u.equalsIgnoreCase (PseudoFile.remote device).getFileName x = true) :
    u.equalsIgnoreCase dummy.getFileName x = false := by
  have hfirst : (PseudoFile.remote device).getFileName.toList =
      'v' :: ("irtualevidence-".toList ++ device.evidenceBaseFileName.toList) := by
    change ("virtualevidence-" ++ device.evidenceBaseFileName).toList = _
    rw [String.toList_append]
    rfl
  exact CaseMapping.not_equalsIgnoreCase_of_one h hfirst (by decide) rfl

/-- All files in a folder but the dummy are remote files. -/
theorem exists_of_mem_added (h : file ∈ added calls f) : ∃ device, file = .remote device := by
  obtain ⟨call, -, rfl⟩ := List.mem_map.1 h
  exact ⟨call.2, rfl⟩

/-- A path resolves to a remote file exactly when one was added with the name, in any letter
    case. -/
theorem findPseudoFile_after (hx : '\\' ∉ x.toList) :
    (∃ device, (after calls).findPseudoFile u (g ++ "\\" ++ x) = .ok (some (.remote device))) ↔
      ∃ file ∈ added calls (g ++ "\\"), u.equalsIgnoreCase file.getFileName x = true := by
  simp only [findPseudoFile_path _ hx, pseudoFileLists_after, Except.ok.injEq]
  constructor
  · rintro ⟨device, h⟩
    split_ifs at h with hf
    swap
    · cases h
    rw [Option.bind_some] at h
    have hname := List.find?_some h
    rcases List.mem_cons.1 (List.mem_of_find?_eq_some h) with hd | hmem
    · cases hd
    · exact ⟨_, hmem, hname⟩
  · rintro ⟨file, hmem, hname⟩
    rw [if_pos (.inr (List.ne_nil_of_mem hmem)), Option.bind_some]
    obtain ⟨device, rfl⟩ := exists_of_mem_added hmem
    rw [List.find?_cons, not_equalsIgnoreCase_dummy hname]
    cases hfind : (added calls (g ++ "\\")).find?
        fun file => u.equalsIgnoreCase file.getFileName x with
    | none => exact absurd hname (List.find?_eq_none.1 hfind _ hmem)
    | some first =>
      obtain ⟨device', rfl⟩ := exists_of_mem_added (List.mem_of_find?_eq_some hfind)
      exact ⟨device', rfl⟩

/-- A search of the root folder is left to the real file system. -/
theorem startSearch_root (d : RaqetDiskDriver) (hx : '\\' ∉ x.toList) :
    d.startSearch real ("" ++ "\\" ++ x) = .real (real.startSearch ("" ++ "\\" ++ x)) := by
  obtain ⟨h₁, -, -⟩ := path_parts (g := "") hx
  rw [startSearch, h₁]
  rfl

/-- A search of another folder is one of its list. -/
theorem startSearch_path (d : RaqetDiskDriver) (hg : g ≠ "") (hx : '\\' ∉ x.toList)
    {l : List PseudoFile} (hl : d.pseudoFileLists (g ++ "\\") = some l) :
    d.startSearch real (g ++ "\\" ++ x) =
      if x = "*" then .raqet (.new (real.startSearch (g ++ "\\" ++ x)) l)
      else if (real.startSearch (g ++ "\\" ++ x)).isNone ∧
          (dummy :: l.filter fun file => decide (file.getFileName = x)).length = 1 then
        .fileNotFound
      else .raqet (.new (real.startSearch (g ++ "\\" ++ x))
        (dummy :: l.filter fun file => decide (file.getFileName = x))) := by
  obtain ⟨h₁, h₂, h₃⟩ := path_parts (g := g) hx
  have hpos : 0 < g.toList.length := List.length_pos_iff.2 (mt String.toList_eq_nil_iff.1 hg)
  rw [startSearch, h₁, if_neg (by omega), h₂, h₃]
  dsimp only
  rw [hl]

theorem startSearch_path_none (d : RaqetDiskDriver) (hx : '\\' ∉ x.toList)
    (hl : d.pseudoFileLists (g ++ "\\") = none) :
    d.startSearch real (g ++ "\\" ++ x) = .real (real.startSearch (g ++ "\\" ++ x)) := by
  obtain ⟨h₁, h₂, -⟩ := path_parts (g := g) hx
  rw [startSearch, h₁, h₂]
  dsimp only
  rw [hl, ite_self]

/-- A search for all files enumerates those that were added to the folder. -/
theorem enumerates_star (hg : g ≠ "") :
    ((after calls).startSearch real (g ++ "\\" ++ "*")).Enumerates real file ↔
      file ∈ added calls (g ++ "\\") := by
  have hx : '\\' ∉ "*".toList := by decide
  have hl := pseudoFileLists_after calls (g ++ "\\")
  split_ifs at hl with hf
  · rw [startSearch_path _ hg hx hl, if_pos rfl, Search.enumerates_raqet]
  · rw [startSearch_path_none _ hx hl]
    rw [not_or, not_not] at hf
    rw [hf.2]
    exact iff_of_false Search.not_enumerates_real List.not_mem_nil

/-- A search for a name enumerates the remote files with exactly this name. -/
theorem enumerates_name {device : RemoteDeviceInfo} (hg : g ≠ "") (hx : '\\' ∉ x.toList)
    (hstar : x ≠ "*") (hreal : real.startSearch (g ++ "\\" ++ x) = none) :
    ((after calls).startSearch real (g ++ "\\" ++ x)).Enumerates real (.remote device) ↔
      .remote device ∈ added calls (g ++ "\\") ∧ (PseudoFile.remote device).getFileName = x := by
  have hl := pseudoFileLists_after calls (g ++ "\\")
  split_ifs at hl with hf
  · have hmem : (PseudoFile.remote device ∈ (dummy :: added calls (g ++ "\\")).filter
        fun file => decide (file.getFileName = x)) ↔
        .remote device ∈ added calls (g ++ "\\") ∧
          (PseudoFile.remote device).getFileName = x := by
      rw [List.mem_filter, List.mem_cons, decide_eq_true_eq, or_iff_right nofun]
    rw [startSearch_path _ hg hx hl, if_neg hstar, hreal, ← hmem]
    split_ifs with hone
    · -- only the dummy is left
      rw [List.length_cons, Nat.add_eq_right, List.length_eq_zero_iff] at hone
      rw [hone.2]
      exact iff_of_false (fun h => absurd h.1.choose_spec List.not_mem_nil) List.not_mem_nil
    · exact Search.enumerates_raqet
  · rw [startSearch_path_none _ hx hl]
    rw [not_or, not_not] at hf
    rw [hf.2]
    exact iff_of_false Search.not_enumerates_real fun h => List.not_mem_nil h.1

/-! ## Finding and listing -/

variable (u real calls)

/-- A search for all files of the folder enumerates all that were added to it. -/
def Lists (f : String) : Prop :=
  ∀ file ∈ added calls f, ((after calls).startSearch real (f ++ "*")).Enumerates real file

/-- A search for the path enumerates a remote file of this name. -/
def Searches (f x : String) : Prop :=
  ∃ device, u.equalsIgnoreCase (PseudoFile.remote device).getFileName x = true ∧
    ((after calls).startSearch real (f ++ x)).Enumerates real (.remote device)

/-- The path resolves to a remote file. -/
def Resolves (path : String) : Prop :=
  ∃ device, (after calls).fileExists u real path = .ok .fileExists ∧
    (after calls).getFileInformation u real path = .ok (some (.pseudo (.remote device))) ∧
    (after calls).openFile u real path = .ok (some (.pseudo (.remote device)))

/-- The real file system has no file at the path. -/
structure Absent (path : String) : Prop where
  fileExists : real.fileExists path = .notExist
  getFileInformation : real.getFileInformation path = none
  openFile : real.openFile path = none
  startSearch : real.startSearch path = none

/-- A name without separators and wildcard characters. -/
def IsPlainName (x : String) : Prop := ∀ c ∈ x.toList, c ≠ '\\' ∧ c ≠ '*' ∧ c ≠ '?'

instance (x : String) : Decidable (IsPlainName x) :=
  inferInstanceAs (Decidable (∀ c ∈ x.toList, _ ∧ _ ∧ _))

variable {u real calls}

theorem resolves_iff (path : String) :
    Resolves u real calls path ↔
      ∃ device, (after calls).findPseudoFile u path = .ok (some (.remote device)) := by
  constructor
  · rintro ⟨device, -, hinfo, -⟩
    rw [getFileInformation] at hinfo
    cases hfind : (after calls).findPseudoFile u path with
    | error e =>
      rw [hfind] at hinfo
      cases hinfo
    | ok found =>
      rw [hfind] at hinfo
      cases found with
      | some file =>
        cases hinfo
        exact ⟨device, rfl⟩
      | none => simp at hinfo
  · rintro ⟨device, h⟩
    refine ⟨device, ?_, ?_, ?_⟩
    · rw [fileExists, h]
    · rw [getFileInformation, h]
    · rw [openFile, h]

theorem IsPlainName.notMem (h : IsPlainName x) : '\\' ∉ x.toList := fun hc => (h _ hc).1 rfl

theorem IsPlainName.ne_star (h : IsPlainName x) : x ≠ "*" := by
  rintro rfl
  exact (h '*' (by decide)).2.1 rfl

theorem lists_iff : Lists real calls (g ++ "\\") ↔ g ≠ "" ∨ added calls (g ++ "\\") = [] := by
  constructor
  · intro h
    by_contra hc
    rw [not_or, not_not] at hc
    obtain ⟨rfl, hne⟩ := hc
    obtain ⟨file, hfile⟩ := List.exists_mem_of_ne_nil _ hne
    have := h file hfile
    rw [startSearch_root _ (by decide)] at this
    exact Search.not_enumerates_real this
  · rintro (hg | hnil) file hfile
    · exact (enumerates_star hg).2 hfile
    · rw [hnil] at hfile
      exact absurd hfile List.not_mem_nil

/-- A name is searched for successfully exactly in another folder than the root, and if a file
    was added with exactly this name. -/
theorem searches_iff (hx : IsPlainName x) (hreal : real.startSearch (g ++ "\\" ++ x) = none) :
    Searches u real calls (g ++ "\\") x ↔
      g ≠ "" ∧ ∃ file ∈ added calls (g ++ "\\"), file.getFileName = x := by
  by_cases hg : g = ""
  · subst hg
    refine iff_of_false ?_ fun h => h.1 rfl
    rintro ⟨device, -, h⟩
    rw [startSearch_root _ hx.notMem] at h
    exact Search.not_enumerates_real h
  · rw [and_iff_right hg]
    constructor
    · rintro ⟨device, -, h⟩
      obtain ⟨hmem, hname⟩ := (enumerates_name hg hx.notMem hx.ne_star hreal).1 h
      exact ⟨_, hmem, hname⟩
    · rintro ⟨file, hmem, hname⟩
      obtain ⟨device, rfl⟩ := exists_of_mem_added hmem
      exact ⟨device, by rw [hname, CaseMapping.equalsIgnoreCase_self],
        (enumerates_name hg hx.notMem hx.ne_star hreal).2 ⟨hmem, hname⟩⟩

/-- A folder lists its files exactly if it is not the root folder or empty; and searching for
    a name and resolving it agree exactly if no file was added with this name in any letter
    case, or one with exactly this name in another folder than the root. -/
theorem finds_and_lists_iff (u : CaseMapping) (real : JavaFileDiskDriver ρ σ)
    (calls : List (String × RemoteDeviceInfo)) (g x : String) (hx : IsPlainName x)
    (hreal : Absent real (g ++ "\\" ++ x)) :
    (Lists real calls (g ++ "\\") ↔ g ≠ "" ∨ added calls (g ++ "\\") = []) ∧
    ((Searches u real calls (g ++ "\\") x ↔ Resolves u real calls (g ++ "\\" ++ x)) ↔
      (∀ file ∈ added calls (g ++ "\\"), u.equalsIgnoreCase file.getFileName x = false) ∨
      (g ≠ "" ∧ ∃ file ∈ added calls (g ++ "\\"), file.getFileName = x)) := by
  refine ⟨lists_iff, ?_⟩
  rw [searches_iff hx hreal.startSearch, resolves_iff, findPseudoFile_after hx.notMem]
  constructor
  · intro h
    by_cases hfound : ∃ file ∈ added calls (g ++ "\\"), u.equalsIgnoreCase file.getFileName x = true
    · exact .inr (h.2 hfound)
    · left
      simpa using hfound
  · rintro (hnone | ⟨hg, file, hmem, hname⟩)
    · refine iff_of_false ?_ ?_
      · rintro ⟨-, file, hmem, hname⟩
        rw [← hname] at hnone
        simpa using hnone file hmem
      · rintro ⟨file, hmem, hname⟩
        rw [hnone file hmem] at hname
        cases hname
    · exact iff_of_true ⟨hg, file, hmem, hname⟩
        ⟨file, hmem, by rw [hname, CaseMapping.equalsIgnoreCase_self]⟩

/-! ## A direct target -/

/-- A real file system without files. -/
def noFiles : JavaFileDiskDriver Empty Empty where
  fileExists _ := .notExist
  getFileInformation _ := none
  openFile _ := none
  startSearch _ := none
  hasMoreFiles s := nomatch s
  nextFileInfo s := nomatch s
  nextFileName s := nomatch s

/-- A disk of a direct target. -/
def target : RemoteDeviceInfo :=
  ⟨⟨"10.0.0.1:3260", "iqn.disk", 0, ⟨127, 512⟩, ⟨"10.0.0.1:3260", "", ""⟩⟩,
    .ofPath "/tmp/", "iqn.disk_0000.dd"⟩

theorem absent_noFiles (path : String) : Absent noFiles path := ⟨rfl, rfl, rfl, rfl⟩

theorem added_single : added [(f, target)] f = [.remote target] := by
  simp [added]

theorem isPlainName_target : IsPlainName "virtualevidence-iqn.disk_0000.dd" := by
  have h : ("virtualevidence-iqn.disk_0000.dd".toList.all fun c =>
      decide (c ≠ '\\' ∧ c ≠ '*' ∧ c ≠ '?')) = true := by
    decide +kernel
  exact fun c hc => of_decide_eq_true (List.all_eq_true.1 h c hc)

/-- A device published in the root folder is not listed there. -/
theorem not_listed_root :
    ¬∀ (u : CaseMapping) (ρ σ : Type) (real : JavaFileDiskDriver ρ σ)
      (calls : List (String × RemoteDeviceInfo)) (g x : String), IsPlainName x →
      Absent real (g ++ "\\" ++ x) → Lists real calls (g ++ "\\") ∧
        (Searches u real calls (g ++ "\\") x ↔ Resolves u real calls (g ++ "\\" ++ x)) := by
  intro h
  obtain ⟨hlists, -⟩ := h .ascii Empty Empty noFiles [("" ++ "\\", target)] ""
    "virtualevidence-iqn.disk_0000.dd" isPlainName_target (absent_noFiles _)
  rcases lists_iff.1 hlists with hg | hnil
  · exact hg rfl
  · rw [added_single] at hnil
    cases hnil

/-- A device published in the folder of a computer is found by its name. -/
theorem finds_and_lists_client :
    Lists noFiles [("\\case\\computer\\", target)] "\\case\\computer\\" ∧
      (Searches .ascii noFiles [("\\case\\computer\\", target)] "\\case\\computer\\"
          "virtualevidence-iqn.disk_0000.dd" ↔
        Resolves .ascii noFiles [("\\case\\computer\\", target)]
          "\\case\\computer\\virtualevidence-iqn.disk_0000.dd") := by
  have h := finds_and_lists_iff .ascii noFiles [("\\case\\computer\\", target)] "\\case\\computer"
    "virtualevidence-iqn.disk_0000.dd" isPlainName_target (absent_noFiles _)
  refine ⟨h.1.2 (.inl (by decide)), h.2.2 (.inr ⟨by decide, .remote target, ?_, by decide +kernel⟩)⟩
  rw [show "\\case\\computer" ++ "\\" = "\\case\\computer\\" from rfl, added_single]
  exact List.mem_singleton_self _

end RaqetDiskDriver

end Raqet
