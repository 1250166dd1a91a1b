import Mathlib.Data.List.Induction
import Raqet.Java.FileSystem

/-!
# Trees of directories

A file system is a tree if whatever is there is in a directory (`IsTree`). Putting something
into a directory keeps it a tree, and so do making a directory and writing a file
(`IsTree.mkdir`, `IsTree.write`).
-/

namespace Java

namespace FileSystem

variable {α : Type}

/-- Whatever is there is in a directory. -/
def IsTree (fs : FileSystem α) : Prop :=
  ∀ loc name, (fs.node (loc ++ [name])).isSome → fs.isDirectoryAt loc = true

variable {fs fs' : FileSystem α} {loc dir : List String} {n : Node α} {f : File} {name : String}

/-- Something can be put into a directory, but in the place of a directory. -/
theorem IsTree.set (h : fs.IsTree) (hdir : fs.isDirectoryAt dir = true)
    (hno : fs.isDirectoryAt (dir ++ [name]) = false) : (fs.set (dir ++ [name]) n).IsTree := by
  intro loc other hsome
  have hlater : Later (fun _ _ => True) fs (fs.set (dir ++ [name]) n) :=
    Later.refl.set hno trivial
  by_cases heq : loc ++ [other] = dir ++ [name]
  · obtain ⟨rfl, -⟩ := List.append_inj' heq rfl
    exact hlater.isDirectoryAt hdir
  · rw [node_set_of_ne heq] at hsome
    exact hlater.isDirectoryAt (h loc other hsome)

/-- A path to a place with nothing leads to a name in a directory. -/
theorem IsTree.locate_new (h : fs.IsTree) (hnames : f.names ≠ []) (hloc : fs.locate f = some loc)
    (hnone : fs.node loc = none) :
    ∃ dir name, loc = dir ++ [name] ∧ fs.isDirectoryAt dir = true := by
  obtain ⟨names, last, hlast⟩ := (List.eq_nil_or_concat' f.names).resolve_left hnames
  rw [locate, hlast, walk_append] at hloc
  obtain ⟨dir, -, hdir⟩ := Option.bind_eq_some_iff.1 hloc
  rw [walk] at hdir
  split_ifs at hdir with hisDir
  rw [walk, Option.some.injEq, enter] at hdir
  split_ifs at hdir with hdot hdots
  · subst hdir
    rw [isDirectoryAt_of_node_none hnone] at hisDir
    cases hisDir
  · -- what is above a directory is a directory
    have hparent : fs.isDirectoryAt dir.dropLast = true := by
      rcases List.eq_nil_or_concat' dir with rfl | ⟨above, x, rfl⟩
      · exact hisDir
      · rw [List.dropLast_concat]
        refine h above x ?_
        rw [isDirectoryAt_iff.1 hisDir]
        rfl
    rw [hdir, isDirectoryAt_of_node_none hnone] at hparent
    cases hparent
  · exact ⟨dir, last, hdir.symm, hisDir⟩

/-- A directory is made, unless it fails. -/
theorem mkdir_new (hloc : fs.locate f = some loc) (hnone : fs.node loc = none) :
    fs.mkdir false f = fs.set loc .directory := by
  rw [mkdir, hloc]
  simp [hnone]

theorem IsTree.mkdir {fails : Bool} (h : fs.IsTree) (hnames : f.names ≠ []) :
    (fs.mkdir fails f).IsTree := by
  cases hloc : fs.locate f with
  | none =>
    rw [FileSystem.mkdir, hloc]
    exact h
  | some loc =>
    rw [FileSystem.mkdir, hloc]
    dsimp only
    split_ifs with hif
    · exact h
    · have hnone : fs.node loc = none := by
        rw [Bool.or_eq_true, not_or, Bool.not_eq_true, Bool.not_eq_true] at hif
        exact Option.isNone_iff_eq_none.1 (Option.isSome_eq_false_iff.1 hif.2)
      obtain ⟨dir, name, rfl, hdir⟩ := h.locate_new hnames hloc hnone
      exact h.set hdir (isDirectoryAt_of_node_none hnone)

theorem IsTree.write [Inhabited α] {io : WriteIo} {content : α} (h : fs.IsTree)
    (hnames : f.names ≠ []) (hname : File.IsName name) :
    (fs.write io (f.child name) content).2.IsTree := by
  rw [FileSystem.write, locate_child hnames hname]
  cases fs.locate f with
  | none => exact h
  | some dir =>
    rw [Option.bind_some]
    by_cases hdir : fs.isDirectoryAt dir
    · rw [if_pos hdir]
      dsimp only
      split_ifs with hno
      · exact h
      · rw [Bool.not_eq_true] at hno
        cases io with
        | ok => exact h.set hdir hno
        | fails => exact h
        | stops complete => exact h.set hdir hno
    · rw [if_neg hdir]
      exact h

theorem mkdir_fails : fs.mkdir true f = fs := by
  rw [mkdir]
  split <;> simp

theorem mkdir_unlocated {fails : Bool} (hloc : fs.locate f = none) : fs.mkdir fails f = fs := by
  rw [mkdir, hloc]

/-- Nothing is at a place that a path to nothing leads to. -/
theorem node_of_not_exists (hno : fs.exists f = false) (hloc : fs.locate f = some loc) :
    fs.node loc = none := by
  rw [FileSystem.exists, FileSystem.read, hloc] at hno
  exact Option.isNone_iff_eq_none.1 (Option.isSome_eq_false_iff.1 hno)

/-! ## Overwriting a file -/

variable {content content' : α}

theorem isDirectoryAt_set_file (hnode : fs.node loc = some (.file content)) :
    (fs.set loc (.file content')).isDirectoryAt = fs.isDirectoryAt := by
  funext other
  by_cases heq : other = loc
  · subst heq
    have hne : other ≠ [] := by
      rintro rfl
      cases hnode
    rw [isDirectoryAt, isDirectoryAt, node_set_self hne, hnode]
  · rw [isDirectoryAt, isDirectoryAt, node_set_of_ne heq]

theorem isSome_node_set (hsome : (fs.node loc).isSome) (other : List String) :
    ((fs.set loc n).node other).isSome = (fs.node other).isSome := by
  by_cases heq : other = loc
  · subst heq
    by_cases hne : other = []
    · subst hne
      rfl
    · rw [node_set_self hne, hsome]
      rfl
  · rw [node_set_of_ne heq]

/-- Paths lead where they led. -/
theorem locate_set_file (hnode : fs.node loc = some (.file content)) :
    (fs.set loc (.file content')).locate = fs.locate := by
  funext f
  have hwalk (names : List String) (start : List String) :
      (fs.set loc (.file content')).walk start names = fs.walk start names := by
    induction names generalizing start with
    | nil => rfl
    | cons name names ih => rw [walk, walk, ih, isDirectoryAt_set_file hnode]
  exact hwalk _ _

/-- A directory has the same names in it, maybe in another order. -/
theorem children_set_perm (hne : loc ≠ []) (hsome : (fs.node loc).isSome) :
    ((fs.set loc n).children dir).Perm (fs.children dir) := by
  have hmem : loc ∈ fs.nodes.keys := by
    rw [node, if_neg hne, AList.lookup_isSome] at hsome
    exact AList.mem_keys.1 hsome
  refine List.Perm.filterMap _ ?_
  rw [FileSystem.set, AList.keys_insert]
  exact (@List.perm_cons_erase _ instBEqOfDecidableEq _ _ _ hmem).symm

end FileSystem

end Java
