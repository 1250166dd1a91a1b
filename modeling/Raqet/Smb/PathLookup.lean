import Raqet.Smb.DiskDriver

/-!
# Looking up paths

A path consists of a folder, up to its last backslash, and a name after it; without a
backslash, it is a name in the root folder. The driver cuts the name at the length of the
folder, which is only right if the folder is a part of the path.

* `FindsNamed`: the path leads to the file with its name in its folder;
* `findPseudoFile_name`: a path without a backslash loses its first character, and the empty
  path throws;
* `findsNamed_iff`: where that makes no difference.
-/

namespace Raqet

open Java

namespace RaqetDiskDriver

/-- The first file with this name, in any letter case. -/
def fileNamed (u : CaseMapping) (pseudoFileList : Option (List PseudoFile)) (name : String) :
    Option PseudoFile :=
  pseudoFileList.bind fun l => l.find? fun file => u.equalsIgnoreCase file.getFileName name

/-- The file with the name is looked up in the folder, and nothing is thrown. -/
structure FindsNamed (u : CaseMapping) (d : RaqetDiskDriver) (path : String) : Prop where
  inFolder : ∀ g x, path = g ++ "\\" ++ x → '\\' ∉ x.toList →
    d.findPseudoFile u path = .ok (fileNamed u (d.pseudoFileLists (g ++ "\\")) x)
  inRoot : '\\' ∉ path.toList →
    d.findPseudoFile u path = .ok (fileNamed u (d.pseudoFileLists "\\") path)

variable {u : CaseMapping} {path : String}

/-- A name is cut as if there were a backslash before it. -/
theorem findPseudoFile_name (d : RaqetDiskDriver) (h : '\\' ∉ path.toList) {l : List PseudoFile}
    (hl : d.pseudoFileLists "\\" = some l) :
    d.findPseudoFile u path =
      if path = "" then .error (.indexOutOfBounds none)
      else .ok (l.find? fun file =>
        u.equalsIgnoreCase file.getFileName (substringFrom path 1)) := by
  have hlength : path.toList.length < "\\".toList.length ↔ path = "" := by
    rw [← String.toList_eq_nil_iff, ← List.length_eq_zero_iff]
    exact Nat.lt_one_iff
  rw [findPseudoFile, lastIndexOf_of_notMem h, if_neg (by decide)]
  dsimp only
  rw [hl]
  simp only [hlength]
  rfl

/-- Searches for elements that cannot be the same agree exactly if both find nothing. -/
theorem find?_eq_find?_iff {α : Type*} {p q : α → Bool} (hpq : ∀ a, p a = true → q a = false)
    {l : List α} : l.find? p = l.find? q ↔ ∀ a ∈ l, p a = false ∧ q a = false := by
  constructor
  · intro h
    have hnone : l.find? p = none := by
      by_contra hsome
      obtain ⟨a, ha⟩ := Option.ne_none_iff_exists'.1 hsome
      have hq := List.find?_some (h.symm.trans ha)
      rw [hpq a (List.find?_some ha)] at hq
      cases hq
    intro a ha
    exact ⟨Bool.eq_false_iff.2 (List.find?_eq_none.1 hnone a ha),
      Bool.eq_false_iff.2 (List.find?_eq_none.1 (h.symm.trans hnone) a ha)⟩
  · intro h
    rw [List.find?_eq_none.2 fun a ha => Bool.eq_false_iff.1 (h a ha).1,
      List.find?_eq_none.2 fun a ha => Bool.eq_false_iff.1 (h a ha).2]

/-- No file has both a name and that name without its first character. -/
theorem not_equalsIgnoreCase_tail (hne : path ≠ "") {name : String}
    (h : u.equalsIgnoreCase name (substringFrom path 1) = true) :
    u.equalsIgnoreCase name path = false := by
  rw [Bool.eq_false_iff]
  intro h'
  have hlength := (CaseMapping.length_eq_of_sameText h).symm.trans
    (CaseMapping.length_eq_of_sameText h')
  have hpos : 0 < path.toList.length := List.length_pos_iff.2 (mt String.toList_eq_nil_iff.1 hne)
  rw [substringFrom, String.toList_ofList, List.length_drop] at hlength
  omega

/-- For every list of published devices and every path: the path leads to the file with its
    name in its folder exactly if it has a backslash, or it is not empty and no file in the
    root folder has its name, or its name without the first character. -/
theorem findsNamed_iff (u : CaseMapping) (calls : List (String × RemoteDeviceInfo))
    (path : String) :
    FindsNamed u (after calls) path ↔
      '\\' ∈ path.toList ∨ path ≠ "" ∧ ∀ file ∈ dummy :: added calls "\\",
        u.equalsIgnoreCase file.getFileName path = false ∧
          u.equalsIgnoreCase file.getFileName (substringFrom path 1) = false := by
  have hroot : (after calls).pseudoFileLists "\\" = some (dummy :: added calls "\\") :=
    (pseudoFileLists_after calls "\\").trans (if_pos (.inl rfl))
  have hfolder : ∀ g x, path = g ++ "\\" ++ x → '\\' ∉ x.toList →
      (after calls).findPseudoFile u path =
        .ok (fileNamed u ((after calls).pseudoFileLists (g ++ "\\")) x) := by
    rintro g x rfl hx
    exact findPseudoFile_path _ hx
  by_cases hmem : '\\' ∈ path.toList
  · exact iff_of_true ⟨hfolder, fun hnot => absurd hmem hnot⟩ (.inl hmem)
  · -- The driver looks for the tail of the name instead, which no file has that has the name.
    rw [or_iff_right hmem]
    constructor
    · intro h
      have hfind := h.inRoot hmem
      rw [findPseudoFile_name _ hmem hroot, hroot] at hfind
      split_ifs at hfind with hempty
      refine ⟨hempty, fun file hfile => And.symm ?_⟩
      exact (find?_eq_find?_iff fun _ => not_equalsIgnoreCase_tail hempty).1
        (Except.ok.inj hfind) file hfile
    · rintro ⟨hne, hnone⟩
      refine ⟨hfolder, fun _ => ?_⟩
      rw [findPseudoFile_name _ hmem hroot, hroot, if_neg hne]
      exact congrArg _ ((find?_eq_find?_iff fun _ => not_equalsIgnoreCase_tail hne).2
        fun file hfile => (hnone file hfile).symm)

/-- The empty path throws, and a device in the root folder is not found by its name alone. -/
theorem not_findsNamed :
    (after []).findPseudoFile .ascii "" = .error (.indexOutOfBounds none) ∧
      ¬FindsNamed .ascii (after []) "" ∧
      (after [("\\", target)]).findPseudoFile .ascii "virtualevidence-iqn.disk_0000.dd" =
        .ok none ∧
      ¬FindsNamed .ascii (after [("\\", target)]) "virtualevidence-iqn.disk_0000.dd" := by
  have hempty : (after []).findPseudoFile .ascii "" = .error (.indexOutOfBounds none) := rfl
  have hnone : (after [("\\", target)]).findPseudoFile .ascii "virtualevidence-iqn.disk_0000.dd" =
      .ok none := by
    rw [findPseudoFile_name _ isPlainName_target.notMem rfl, if_neg (by decide)]
    exact congrArg _ (List.find?_eq_none.2 (by decide +kernel))
  refine ⟨hempty, fun h => ?_, hnone, fun h => ?_⟩
  · have hfind := h.inRoot (by decide)
    rw [hempty] at hfind
    cases hfind
  · have hfind := h.inRoot isPlainName_target.notMem
    have hfile : fileNamed .ascii ((after [("\\", target)]).pseudoFileLists "\\")
        "virtualevidence-iqn.disk_0000.dd" = some (.remote target) := by
      rw [fileNamed, pseudoFileLists_after, if_pos (.inl rfl), added_single, Option.bind_some,
        List.find?_cons_of_neg (by decide +kernel), List.find?_cons_of_pos (by decide +kernel)]
    rw [hnone, hfile] at hfind
    cases hfind

end RaqetDiskDriver

end Raqet
