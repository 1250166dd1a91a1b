import Mathlib.Data.List.AList
import Raqet.Java.File

/-!
# File systems

A tree of directories and files, by *location*: the names on the way from the root. A
path is resolved from the root or from the working directory (`locate`), which fails
unless it only leads through directories.

A file system is `Later` than another if it results from changes made at locations
without a directory. What is a directory stays one, and a path that leads somewhere keeps
leading there (`Later.locate`).
-/

namespace Java

/-- What is at a location. -/
inductive Node (α : Type)
  | directory
  | file (content : α)

/-- The outcome of writing a file. -/
inductive WriteIo
  | ok
  /-- The file is not opened. -/
  | fails
  /-- The file is opened, but an operation on it fails, before or after all of its
      content is written. -/
  | stops (complete : Bool)
  deriving DecidableEq

/-- The order in which the names in a directory are listed. -/
structure Listing where
  order : List String → List String
  perm : ∀ l, (order l).Perm l

structure FileSystem (α : Type) where
  nodes : AList fun _ : List String => Node α
  workingDirectory : List String
  /-- The locations at which something was made or written, in this order. -/
  written : List (List String)

namespace FileSystem

variable {α : Type}

/-- What is at a location; the root is a directory. -/
def node (fs : FileSystem α) (loc : List String) : Option (Node α) :=
  if loc = [] then some .directory else fs.nodes.lookup loc

def isDirectoryAt (fs : FileSystem α) (loc : List String) : Bool :=
  match fs.node loc with
  | some .directory => true
  | _ => false

/-- The location that a name leads to. -/
def enter (loc : List String) (name : String) : List String :=
  if name = "." then loc else if name = ".." then loc.dropLast else loc ++ [name]

/-- The location that the names lead to, from a location. -/
def walk (fs : FileSystem α) (loc : List String) : List String → Option (List String)
  | [] => some loc
  | name :: names => if fs.isDirectoryAt loc then walk fs (enter loc name) names else none

/-- The location of a file, whether it exists or not. -/
def locate (fs : FileSystem α) (f : File) : Option (List String) :=
  fs.walk (if f.absolute then [] else fs.workingDirectory) f.names

/-- What a path leads to. -/
def read (fs : FileSystem α) (f : File) : Option (Node α) := (fs.locate f).bind fs.node

/-- `f.exists()`. -/
def «exists» (fs : FileSystem α) (f : File) : Bool := (fs.read f).isSome

/-- `f.isDirectory()`. -/
def isDirectory (fs : FileSystem α) (f : File) : Bool := (fs.locate f).any fs.isDirectoryAt

/-- There is nothing at the path, but the directory that it is in is there. -/
def vacant (fs : FileSystem α) (f : File) : Bool :=
  (fs.locate f).any fun loc => (fs.node loc).isNone

/-- The file system with a node at this location. -/
def set (fs : FileSystem α) (loc : List String) (n : Node α) : FileSystem α :=
  { fs with nodes := fs.nodes.insert loc n, written := fs.written ++ [loc] }

/-- The locations at which something was made or written since the file system was `fs`. -/
def writtenSince (fs fs' : FileSystem α) : List (List String) :=
  fs'.written.drop fs.written.length

/-- `f.mkdir()`. -/
def mkdir (fs : FileSystem α) (fails : Bool) (f : File) : FileSystem α :=
  match fs.locate f with
  | some loc => if fails || (fs.node loc).isSome then fs else fs.set loc .directory
  | none => fs

/-- Writing a file; whether it succeeds. A file that is not written completely holds the
    default content. -/
def write [Inhabited α] (fs : FileSystem α) (io : WriteIo) (f : File) (content : α) :
    Bool × FileSystem α :=
  match fs.locate f with
  | none => (false, fs)
  | some loc =>
    if fs.isDirectoryAt loc then (false, fs)
    else match io with
      | .ok => (true, fs.set loc (.file content))
      | .fails => (false, fs)
      | .stops complete => (false, fs.set loc (.file (if complete then content else default)))

/-- The names in a directory. -/
def children (fs : FileSystem α) (loc : List String) : List String :=
  fs.nodes.keys.filterMap fun l =>
    match l.getLast? with
    | some name => if l.dropLast = loc ∧ File.IsName name then some name else none
    | none => none

/-- The names of `f.listFiles()`; none if it is not a directory, or listing it fails. -/
def listFiles (fs : FileSystem α) (listing : Option Listing) (f : File) : Option (List String) :=
  (fs.locate f).bind fun loc =>
    if fs.isDirectoryAt loc then listing.map fun l => l.order (fs.children loc) else none

/-! ## Names in a directory -/

variable {fs fs' fs'' : FileSystem α} {loc loc' : List String} {n : Node α} {f : File}
  {name : String}

theorem isDirectoryAt_iff : fs.isDirectoryAt loc = true ↔ fs.node loc = some .directory := by
  rw [isDirectoryAt]
  split
  next h => simp only [h]
  next h => simp only [Bool.false_eq_true, false_iff]; exact h

theorem isDirectoryAt_of_node_none (h : fs.node loc = none) : fs.isDirectoryAt loc = false := by
  rw [isDirectoryAt, h]

theorem walk_append {names names' : List String} :
    fs.walk loc (names ++ names') = (fs.walk loc names).bind fun l => fs.walk l names' := by
  induction names generalizing loc with
  | nil => rfl
  | cons name names ih =>
    rw [List.cons_append, walk, walk]
    split_ifs
    · exact ih
    · rfl

/-- A path in the directory that a path leads to; one in the empty path is one in the root
    directory. -/
theorem locate_child_walk (hf : f.names ≠ [] ∨ f.absolute = true) :
    fs.locate (f.child name) = (fs.locate f).bind fun loc => fs.walk loc (pathNames name) := by
  have habs : (f.child name).absolute = f.absolute := by
    rw [File.absolute_child]
    rcases hf with hf | hf
    · rw [List.isEmpty_eq_false_iff.2 hf, Bool.or_false]
    · rw [hf, Bool.true_or]
  rw [locate, habs, File.names_child, walk_append, locate]

/-- A name in the directory that a path leads to. -/
theorem locate_child_of_path (hf : f.names ≠ [] ∨ f.absolute = true) (hname : File.IsName name) :
    fs.locate (f.child name) =
      (fs.locate f).bind fun loc =>
        if fs.isDirectoryAt loc then some (loc ++ [name]) else none := by
  rw [locate_child_walk hf, hname.1.pathNames]
  simp only [walk, enter, if_neg hname.2.1, if_neg hname.2.2]

theorem locate_child (hf : f.names ≠ []) (hname : File.IsName name) :
    fs.locate (f.child name) =
      (fs.locate f).bind fun loc =>
        if fs.isDirectoryAt loc then some (loc ++ [name]) else none :=
  locate_child_of_path (.inl hf) hname

/-- What is read in a directory is there. -/
theorem read_child (hf : f.names ≠ []) (hname : File.IsName name)
    (h : fs.read (f.child name) = some n) :
    ∃ loc, fs.locate f = some loc ∧ fs.isDirectoryAt loc = true ∧
      fs.node (loc ++ [name]) = some n := by
  rw [read, locate_child hf hname] at h
  obtain ⟨loc', hloc', hn⟩ := Option.bind_eq_some_iff.1 h
  obtain ⟨loc, hloc, hif⟩ := Option.bind_eq_some_iff.1 hloc'
  split_ifs at hif with hdir
  cases hif
  exact ⟨loc, hloc, hdir, hn⟩

/-- The names in a directory are names. -/
theorem isName_of_mem_listFiles {listing : Option Listing} {names : List String}
    (h : fs.listFiles listing f = some names) (hname : name ∈ names) : File.IsName name := by
  obtain ⟨loc, -, hif⟩ := Option.bind_eq_some_iff.1 h
  split_ifs at hif
  obtain ⟨l, -, rfl⟩ := Option.map_eq_some_iff.1 hif
  obtain ⟨key, -, hkey⟩ := List.mem_filterMap.1 ((l.perm _).mem_iff.1 hname)
  split at hkey
  · split_ifs at hkey with hk
    cases hkey
    exact hk.2
  · cases hkey

/-- The names in a directory are those of what is there. -/
theorem mem_children :
    name ∈ fs.children loc ↔ File.IsName name ∧ (fs.node (loc ++ [name])).isSome := by
  have hkeys : (fs.node (loc ++ [name])).isSome ↔ loc ++ [name] ∈ fs.nodes.keys := by
    rw [node, if_neg (by simp), AList.lookup_isSome, AList.mem_keys]
  rw [children, List.mem_filterMap, hkeys]
  constructor
  · rintro ⟨key, hkey, h⟩
    split at h
    next last hlast =>
      split_ifs at h with hif
      cases h
      obtain ⟨rfl, hname⟩ := hif
      obtain ⟨dir, rfl⟩ := List.getLast?_eq_some_iff.1 hlast
      rw [List.dropLast_concat]
      exact ⟨hname, hkey⟩
    next => cases h
  · rintro ⟨hname, hkey⟩
    refine ⟨_, hkey, ?_⟩
    simp only [List.getLast?_concat, List.dropLast_concat, hname, and_self, if_true]

/-- Every name in a directory is there once. -/
theorem nodup_children : (fs.children loc).Nodup := by
  refine List.Nodup.filterMap (fun key key' name hname hname' => ?_) fs.nodes.keys_nodup
  have hkey : ∀ l : List String, (match l.getLast? with
      | some name => if l.dropLast = loc ∧ File.IsName name then some name else none
      | none => none) = some name → l = loc ++ [name] := by
    intro l h
    split at h
    next last hlast =>
      split_ifs at h with hif
      cases h
      obtain ⟨dir, rfl⟩ := List.getLast?_eq_some_iff.1 hlast
      rw [← hif.1, List.dropLast_concat]
    next => cases h
  rw [hkey key hname, hkey key' hname']

/-! ## Later file systems -/

theorem node_set_self (hloc : loc ≠ []) : (fs.set loc n).node loc = some n := by
  rw [node, if_neg hloc, set, AList.lookup_insert]

theorem node_set_of_ne (h : loc' ≠ loc) : (fs.set loc n).node loc' = fs.node loc' := by
  rw [node, node, set, AList.lookup_insert_ne h]

/-- A file system that results from changes that satisfy `P`, each made at a location
    without a directory. -/
inductive Later (P : List String → Node α → Prop) (fs : FileSystem α) : FileSystem α → Prop
  | refl : Later P fs fs
  | set {later : FileSystem α} {l : List String} {m : Node α} : Later P fs later →
      later.isDirectoryAt l = false → P l m → Later P fs (later.set l m)

namespace Later

variable {P Q : List String → Node α → Prop}

theorem trans (h : Later P fs fs') (h' : Later P fs' fs'') : Later P fs fs'' := by
  induction h' with
  | refl => exact h
  | set _ hdir hP ih => exact ih.set hdir hP

theorem mono (hPQ : ∀ loc n, P loc n → Q loc n) (h : Later P fs fs') : Later Q fs fs' := by
  induction h with
  | refl => exact .refl
  | set _ hdir hP ih => exact ih.set hdir (hPQ _ _ hP)

theorem workingDirectory (h : Later P fs fs') : fs'.workingDirectory = fs.workingDirectory := by
  induction h with
  | refl => rfl
  | set _ _ _ ih => exact ih

theorem isDirectoryAt (h : Later P fs fs') (hdir : fs.isDirectoryAt loc = true) :
    fs'.isDirectoryAt loc = true := by
  induction h with
  | refl => exact hdir
  | @set fs' loc' n _ hno _ ih =>
    have hne : loc ≠ loc' := by
      rintro rfl
      rw [hno] at ih
      cases ih
    rw [isDirectoryAt_iff, node_set_of_ne hne, ← isDirectoryAt_iff]
    exact ih

theorem walk (h : Later P fs fs') {names : List String} (hw : fs.walk loc names = some loc') :
    fs'.walk loc names = some loc' := by
  induction names generalizing loc with
  | nil => exact hw
  | cons name names ih =>
    rw [FileSystem.walk] at hw ⊢
    split_ifs at hw with hdir
    rw [if_pos (h.isDirectoryAt hdir)]
    exact ih hw

/-- A path that leads somewhere keeps leading there. -/
theorem locate (h : Later P fs fs') (hloc : fs.locate f = some loc) : fs'.locate f = some loc := by
  rw [FileSystem.locate, h.workingDirectory]
  exact h.walk hloc

/-- Everything that is made or written satisfies `P`, and nothing else changes. -/
theorem written (h : Later P fs fs') : ∃ locs, fs'.written = fs.written ++ locs ∧
    (∀ loc ∈ locs, ∃ n, P loc n) ∧ ∀ loc, fs'.node loc ≠ fs.node loc → loc ∈ locs := by
  induction h with
  | refl => exact ⟨[], (List.append_nil _).symm, List.forall_mem_nil _, fun _ h => absurd rfl h⟩
  | @set fs' loc' n _ _ hP ih =>
    obtain ⟨locs, heq, hlocs, hchanged⟩ := ih
    refine ⟨locs ++ [loc'], ?_, ?_, fun loc hne => ?_⟩
    · rw [FileSystem.set, heq, List.append_assoc]
    · exact List.forall_mem_append.2 ⟨hlocs, List.forall_mem_singleton.2 ⟨n, hP⟩⟩
    · by_cases he : loc = loc'
      · exact List.mem_append_right _ (List.mem_singleton.2 he)
      · rw [node_set_of_ne he] at hne
        exact List.mem_append_left _ (hchanged loc hne)

theorem mem_writtenSince (h : Later P fs fs') (hloc : loc ∈ fs.writtenSince fs') :
    ∃ n, P loc n := by
  obtain ⟨locs, heq, hlocs, -⟩ := h.written
  rw [writtenSince, heq, List.drop_left] at hloc
  exact hlocs loc hloc

/-- What changes is made or written. -/
theorem mem_writtenSince_of_ne (h : Later P fs fs') (hne : fs'.node loc ≠ fs.node loc) :
    loc ∈ fs.writtenSince fs' := by
  obtain ⟨locs, heq, -, hchanged⟩ := h.written
  rw [writtenSince, heq, List.drop_left]
  exact hchanged loc hne

/-- A property of what is at a location that all changes keep. -/
theorem node {R : Option (Node α) → Prop} (h : Later P fs fs') (hR : R (fs.node loc))
    (hP : ∀ n, P loc n → R (some n)) : R (fs'.node loc) := by
  induction h with
  | refl => exact hR
  | @set fs' loc' n _ hno hn ih =>
    by_cases he : loc = loc'
    · subst he
      have hloc : loc ≠ [] := by
        rintro rfl
        cases hno
      rw [node_set_self hloc]
      exact hP n hn
    · rw [node_set_of_ne he]
      exact ih

end Later

/-- If only files are written, every path leads where it led. -/
theorem Later.locate_eq {P : List String → Node α → Prop} (h : Later P fs fs')
    (hP : ∀ loc n, P loc n → n ≠ .directory) : fs'.locate f = fs.locate f := by
  have hdir (loc : List String) : fs'.isDirectoryAt loc = fs.isDirectoryAt loc := by
    cases hdir : fs.isDirectoryAt loc with
    | true => exact h.isDirectoryAt hdir
    | false =>
      rw [Bool.eq_false_iff, Ne, isDirectoryAt_iff] at hdir ⊢
      exact h.node (R := fun n => n ≠ some .directory) hdir fun n hn he =>
        hP loc n hn (Option.some.inj he)
  have hwalk (loc names : List String) : fs'.walk loc names = fs.walk loc names := by
    induction names generalizing loc with
    | nil => rfl
    | cons name names ih => rw [FileSystem.walk, FileSystem.walk, hdir, ih]
  rw [FileSystem.locate, FileSystem.locate, h.workingDirectory, hwalk]

theorem vacant_iff : fs.vacant f = true ↔ ∃ loc, fs.locate f = some loc ∧ fs.node loc = none := by
  rw [vacant, Option.any_eq_true]
  simp only [Option.isNone_iff_eq_none]

/-- Nothing can be read in what is not there. -/
theorem locate_child_of_not_exists (hf : f.names ≠ [] ∨ f.absolute = true)
    (hname : File.IsName name) (h : fs.exists f = false) : fs.locate (f.child name) = none := by
  rw [locate_child_of_path hf hname]
  cases hloc : fs.locate f with
  | none => rfl
  | some loc =>
    rw [FileSystem.exists, FileSystem.read, hloc, Option.bind_some, Option.isSome_eq_false_iff,
      Option.isNone_iff_eq_none] at h
    rw [Option.bind_some, isDirectoryAt, h]
    rfl

/-- `mkdir` makes a directory at the location of the file, or nothing. -/
theorem later_mkdir {P : List String → Node α → Prop} {fails : Bool}
    (hP : ∀ loc, fs.locate f = some loc → P loc .directory) : Later P fs (fs.mkdir fails f) := by
  rw [mkdir]
  split
  next loc hloc =>
    split_ifs with h
    · exact .refl
    · refine Later.refl.set ?_ (hP loc hloc)
      rw [Bool.or_eq_true, not_or, Bool.not_eq_true, Bool.not_eq_true, Option.isSome_eq_false_iff,
        Option.isNone_iff_eq_none] at h
      rw [isDirectoryAt, h.2]
  next => exact .refl

theorem mkdir_of_not_vacant {fails : Bool} (h : (fs.vacant f && !fails) = false) :
    fs.mkdir fails f = fs := by
  rw [mkdir]
  split
  next loc hloc =>
    refine if_pos ?_
    rw [vacant, hloc, Option.any_some, Bool.and_eq_false_iff, Bool.not_eq_false',
      Option.isNone_eq_false_iff] at h
    rw [Bool.or_eq_true]
    exact h.symm
  next => rfl

/-- Making a directory does not change where it is to be. -/
theorem locate_mkdir {fails : Bool} : (fs.mkdir fails f).locate f = fs.locate f := by
  cases hloc : fs.locate f with
  | some loc => exact (later_mkdir (P := fun _ _ => True) fun _ _ => trivial).locate hloc
  | none =>
    rw [mkdir, hloc]
    exact hloc

/-- Writing a file changes it to the content or to the default content, or does nothing. -/
theorem later_write [Inhabited α] {P : List String → Node α → Prop} {io : WriteIo} {content : α}
    (hP : ∀ loc, fs.locate f = some loc → P loc (.file content) ∧ P loc (.file default)) :
    Later P fs (fs.write io f content).2 := by
  rw [write]
  split
  next => exact .refl
  next loc hloc =>
    split_ifs with hdir
    · exact .refl
    · obtain ⟨h₁, h₂⟩ := hP loc hloc
      cases io with
      | ok => exact Later.refl.set (Bool.not_eq_true _ ▸ hdir) h₁
      | fails => exact .refl
      | stops complete =>
        refine Later.refl.set (Bool.not_eq_true _ ▸ hdir) ?_
        cases complete
        · exact h₂
        · exact h₁

/-- A file that is written successfully has its content, at its location. -/
theorem write_eq_true [Inhabited α] {io : WriteIo} {content : α}
    (h : fs.write io f content = (true, fs')) :
    ∃ loc, fs.locate f = some loc ∧ fs.isDirectoryAt loc = false ∧
      fs' = fs.set loc (.file content) := by
  rw [write] at h
  split at h
  · cases h
  next loc hloc =>
    split_ifs at h with hdir
    · cases h
    · cases io with
      | ok =>
        cases h
        exact ⟨loc, hloc, Bool.not_eq_true _ ▸ hdir, rfl⟩
      | fails => cases h
      | stops complete => cases h

end FileSystem

end Java
