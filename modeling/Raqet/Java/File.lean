import Mathlib.Data.List.Basic

/-!
# File names and numbers in them

A `java.io.File` is a path: a sequence of names, relative or absolute. The constructors
split a path at each slash and drop the empty names, so that two paths that differ in
slashes only are the same; the names `.` and `..` are kept.

Numbers are padded with zeros to four digits (`format04d`). Such a number can be read back
from a text that it starts or ends, next to a character that is not a digit
(`format04d_append_inj`, `append_format04d_inj`).
-/

namespace Java

/-- A text without a slash, which is not empty. -/
def IsSegment (name : String) : Prop := name ≠ "" ∧ '/' ∉ name.toList

instance (name : String) : Decidable (IsSegment name) := inferInstanceAs (Decidable (_ ∧ _))

/-- The names that a path consists of. -/
def pathNames (path : String) : List String :=
  ((path.toList.splitOn '/').map String.ofList).filter (· ≠ "")

/-- A part between separators has none. -/
private theorem not_mem_of_mem_splitOn {a : Char} {x : List Char} :
    ∀ {l : List Char}, x ∈ l.splitOn a → a ∉ x
  | [], h => by
    rw [List.splitOn_nil, List.mem_singleton] at h
    rw [h]
    exact List.not_mem_nil
  | c :: l, h => by
    rw [List.splitOn_cons_eq_if_modifyHead] at h
    split_ifs at h with hc
    · rcases List.mem_cons.1 h with rfl | h
      · exact List.not_mem_nil
      · exact not_mem_of_mem_splitOn h
    · obtain ⟨y, ys, hy⟩ := List.exists_cons_of_ne_nil (List.splitOn_ne_nil a l)
      rw [hy, List.modifyHead_cons] at h
      rcases List.mem_cons.1 h with rfl | h
      · have hy' : y ∈ l.splitOn a := by
          rw [hy]
          exact List.mem_cons_self
        exact fun hm => (List.mem_cons.1 hm).elim (fun he => hc (beq_iff_eq.2 he.symm))
          (not_mem_of_mem_splitOn hy')
      · refine not_mem_of_mem_splitOn (l := l) ?_
        rw [hy]
        exact List.mem_cons_of_mem _ h

theorem isSegment_of_mem_pathNames {path name : String} (h : name ∈ pathNames path) :
    IsSegment name := by
  obtain ⟨hmem, hne⟩ := List.mem_filter.1 h
  obtain ⟨x, hx, rfl⟩ := List.mem_map.1 hmem
  refine ⟨of_decide_eq_true hne, ?_⟩
  rw [String.toList_ofList]
  exact not_mem_of_mem_splitOn hx

theorem IsSegment.pathNames {name : String} (h : IsSegment name) : pathNames name = [name] := by
  rw [Java.pathNames, List.splitOn_eq_singleton h.2, List.map_singleton, String.ofList_toList,
    List.filter_singleton, decide_eq_true h.1]
  rfl

/-- A `java.io.File`. -/
structure File where
  absolute : Bool
  names : List String
  segments : ∀ name ∈ names, IsSegment name
  deriving DecidableEq

namespace File

/-- A name in a directory. -/
def IsName (name : String) : Prop := IsSegment name ∧ name ≠ "." ∧ name ≠ ".."

instance (name : String) : Decidable (IsName name) := inferInstanceAs (Decidable (_ ∧ _ ∧ _))

/-- `new File(path)`. -/
def ofPath (path : String) : File :=
  ⟨path.toList.head? == some '/', pathNames path, fun _ => isSegment_of_mem_pathNames⟩

/-- `new File(parent, name)`. A parent without a name is taken for the root directory. -/
def child (parent : File) (name : String) : File where
  absolute := parent.absolute || parent.names.isEmpty
  names := parent.names ++ pathNames name
  segments _ h := (List.mem_append.1 h).elim (parent.segments _) isSegment_of_mem_pathNames

/-- `getPath()`. -/
def getPath (f : File) : String := (if f.absolute then "/" else "") ++ "/".intercalate f.names

example : ((ofPath "/tmp/").child "a//b.dd").getPath = "/tmp/a/b.dd" := by decide +kernel

@[simp] theorem names_child {f : File} {name : String} :
    (f.child name).names = f.names ++ pathNames name := rfl

theorem absolute_child {f : File} {name : String} :
    (f.child name).absolute = (f.absolute || f.names.isEmpty) := rfl

theorem names_child_of_isSegment {f : File} {name : String} (h : IsSegment name) :
    (f.child name).names = f.names ++ [name] := by
  rw [names_child, h.pathNames]

theorem names_child_ne_nil {f : File} {name : String} (h : IsSegment name) :
    (f.child name).names ≠ [] := by
  rw [names_child_of_isSegment h]
  exact List.append_ne_nil_of_right_ne_nil _ (List.cons_ne_nil _ _)

/-- The names of a path that is put together from them. -/
private theorem pathNames_intercalate {names : List String} (h : ∀ name ∈ names, IsSegment name) :
    pathNames ("/".intercalate names) = names := by
  cases names with
  | nil => rfl
  | cons name names =>
    have hid : ((name :: names).map String.toList).map String.ofList = name :: names := by
      simp [List.map_map]
    have hslash : ∀ l ∈ (name :: names).map String.toList, '/' ∉ l := by
      intro l hl
      obtain ⟨x, hx, rfl⟩ := List.mem_map.1 hl
      exact (h x hx).2
    rw [pathNames, String.toList_intercalate, show "/".toList = ['/'] from rfl,
      List.splitOn_intercalate '/' hslash (List.cons_ne_nil _ _), hid, List.filter_eq_self]
    exact fun x hx => decide_eq_true (h x hx).1

private theorem pathNames_slash_append {path : String} :
    pathNames ("/" ++ path) = pathNames path := by
  rw [pathNames, String.toList_append, show "/".toList = ['/'] from rfl, List.singleton_append,
    List.splitOn_cons_eq_if_modifyHead]
  rfl

/-- Names without an absolute path before them do not start with a slash. -/
private theorem head?_intercalate {names : List String} (h : ∀ name ∈ names, IsSegment name) :
    ("/".intercalate names).toList.head? ≠ some '/' := by
  rw [String.toList_intercalate]
  cases names with
  | nil => exact nofun
  | cons name names =>
    obtain ⟨hne, hslash⟩ := h name List.mem_cons_self
    obtain ⟨c, l, hl⟩ := List.exists_cons_of_ne_nil (mt String.toList_eq_nil_iff.1 hne)
    have hc : c ≠ '/' := by
      rintro rfl
      rw [hl] at hslash
      exact hslash List.mem_cons_self
    rw [List.map_cons, hl]
    cases names with
    | nil => simpa using hc
    | cons name' names => simpa using hc

/-- A file is determined by its path. -/
theorem ofPath_getPath (f : File) : ofPath f.getPath = f := by
  obtain ⟨absolute, names, h⟩ := f
  cases absolute with
  | true =>
    have hhead : ("/" ++ "/".intercalate names).toList.head? = some '/' := by
      rw [String.toList_append]
      rfl
    simp only [getPath, ofPath, if_true, pathNames_slash_append, pathNames_intercalate h, hhead,
      beq_self_eq_true]
  | false =>
    have hhead := head?_intercalate h
    simp only [getPath, ofPath, Bool.false_eq_true, if_false, String.empty_append,
      pathNames_intercalate h, beq_eq_false_iff_ne.2 hhead]

theorem getPath_injective : Function.Injective getPath :=
  Function.LeftInverse.injective ofPath_getPath

/-- A text without a slash is a name if it does not consist of dots. -/
theorem isName_of_mem {name : String} {c : Char} (hslash : '/' ∉ name.toList)
    (hmem : c ∈ name.toList) (hc : c ≠ '.') : IsName name := by
  refine ⟨⟨?_, hslash⟩, ?_, ?_⟩
  · rintro rfl
    exact List.not_mem_nil hmem
  · rintro rfl
    exact hc (List.mem_singleton.1 hmem)
  · rintro rfl
    exact hc ((List.mem_cons.1 hmem).elim id List.mem_singleton.1)

/-- A file in a directory tells the directory and its name. -/
theorem child_inj {f g : File} {name name' : String} (hf : f.names ≠ []) (hg : g.names ≠ [])
    (hname : IsSegment name) (hname' : IsSegment name') :
    f.child name = g.child name' ↔ f = g ∧ name = name' := by
  refine ⟨fun h => ?_, fun ⟨hfg, hn⟩ => by rw [hfg, hn]⟩
  have habs := congrArg absolute h
  have hnames := congrArg names h
  rw [absolute_child, absolute_child, List.isEmpty_eq_false_iff.2 hf,
    List.isEmpty_eq_false_iff.2 hg, Bool.or_false, Bool.or_false] at habs
  rw [names_child_of_isSegment hname, names_child_of_isSegment hname'] at hnames
  obtain ⟨hfg, hn⟩ := List.append_inj' hnames rfl
  refine ⟨?_, List.singleton_inj.1 hn⟩
  cases f
  cases g
  simp only [mk.injEq]
  exact ⟨habs, hfg⟩

/-- The path leads from the directory `f` down into the directory `g`, and on to the names of
    the other path. -/
def Enters (f g : File) (path path' : String) : Prop :=
  f.absolute = g.absolute ∧ ∃ rest, rest ≠ [] ∧ g.names = f.names ++ rest ∧
    pathNames path = rest ++ pathNames path'

instance (f g : File) (path path' : String) : Decidable (f.Enters g path path') :=
  decidable_of_iff (f.absolute = g.absolute ∧ g.names.drop f.names.length ≠ [] ∧
    g.names = f.names ++ g.names.drop f.names.length ∧
    pathNames path = g.names.drop f.names.length ++ pathNames path') <| by
      refine and_congr_right fun _ => ⟨fun h => ⟨_, h⟩, ?_⟩
      rintro ⟨rest, hne, hg, hpath⟩
      rw [hg, List.drop_left]
      exact ⟨hne, rfl, hpath⟩

/-- Two paths in directories are the same file if and only if the directories are the same, and
    the names of the paths, or if one path leads into the directory of the other. -/
theorem getPath_child_eq_iff {f g : File} {path path' : String} (hf : f.names ≠ [])
    (hg : g.names ≠ []) :
    (f.child path).getPath = (g.child path').getPath ↔
      f = g ∧ pathNames path = pathNames path' ∨
        f.Enters g path path' ∨ g.Enters f path' path := by
  have hfile : f.child path = g.child path' ↔ f.absolute = g.absolute ∧
      f.names ++ pathNames path = g.names ++ pathNames path' := by
    rw [child, child, mk.injEq, List.isEmpty_eq_false_iff.2 hf, List.isEmpty_eq_false_iff.2 hg,
      Bool.or_false, Bool.or_false]
  have hself : f = g ↔ f.absolute = g.absolute ∧ f.names = g.names := by
    cases f
    cases g
    exact mk.injEq .. ▸ Iff.rfl
  rw [getPath_injective.eq_iff, hfile, hself, Enters, Enters, eq_comm (a := g.absolute),
    List.append_eq_append_iff, and_assoc, ← and_or_left, ← and_or_left]
  -- one list of names of a directory is the beginning of the other one
  refine and_congr_right fun _ => ⟨?_, ?_⟩
  · rintro (⟨rest, hrest, hpath⟩ | ⟨rest, hrest, hpath⟩)
    · by_cases hne : rest = []
      · subst hne
        exact .inl ⟨by rw [hrest, List.append_nil], hpath⟩
      · exact .inr (.inl ⟨rest, hne, hrest, hpath⟩)
    · by_cases hne : rest = []
      · subst hne
        exact .inl ⟨by rw [hrest, List.append_nil], hpath.symm⟩
      · exact .inr (.inr ⟨rest, hne, hrest, hpath⟩)
  · rintro (⟨hnames, hpath⟩ | ⟨rest, -, hrest, hpath⟩ | ⟨rest, -, hrest, hpath⟩)
    · exact .inl ⟨[], by rw [hnames, List.append_nil], hpath⟩
    · exact .inl ⟨rest, hrest, hpath⟩
    · exact .inr ⟨rest, hrest, hpath⟩

end File

/-- `String.format("%04d", n)`, for a number that is not negative. -/
def format04d (n : Nat) : String := String.ofList (List.leftpad 4 '0' (Nat.toDigits 10 n))

example : format04d 7 = "0007" ∧ format04d 65535 = "65535" := by decide +kernel

/-! ## The names of a path -/

/-- Every character of a path but the slashes is one of its names. -/
theorem mem_pathNames {path : String} {c : Char} (h : c ∈ path.toList) (hc : c ≠ '/') :
    ∃ name ∈ pathNames path, c ∈ name.toList := by
  suffices ∀ l : List Char, c ∈ l → ∃ name ∈ l.splitOn '/', c ∈ name by
    obtain ⟨name, hname, hmem⟩ := this _ h
    refine ⟨String.ofList name, ?_, by rwa [String.toList_ofList]⟩
    refine List.mem_filter.2 ⟨List.mem_map_of_mem hname, decide_eq_true fun he => ?_⟩
    rw [← String.toList_inj, String.toList_ofList, String.toList_empty] at he
    rw [he] at hmem
    exact List.not_mem_nil hmem
  intro l
  induction l with
  | nil => exact fun h => absurd h List.not_mem_nil
  | cons a l ih =>
    intro h
    obtain ⟨x, xs, hx⟩ := List.exists_cons_of_ne_nil (List.splitOn_ne_nil '/' l)
    rw [List.splitOn_cons_eq_if_modifyHead]
    split_ifs with ha
    · obtain ⟨name, hname, hmem⟩ :=
        ih ((List.mem_cons.1 h).resolve_left fun he => hc (he.trans (eq_of_beq ha)))
      exact ⟨name, List.mem_cons_of_mem _ hname, hmem⟩
    -- the character is put in front of the first part
    · rw [hx, List.modifyHead_cons]
      rw [hx] at ih
      rcases List.mem_cons.1 h with rfl | h
      · exact ⟨_, List.mem_cons_self, List.mem_cons_self⟩
      · obtain ⟨name, hname, hmem⟩ := ih h
        rcases List.mem_cons.1 hname with rfl | hname
        · exact ⟨_, List.mem_cons_self, List.mem_cons_of_mem _ hmem⟩
        · exact ⟨name, List.mem_cons_of_mem _ hname, hmem⟩

private theorem filter_cons_of_ne {name : String} (h : name ≠ "") (names : List String) :
    (name :: names).filter (· ≠ "") = name :: names.filter (· ≠ "") :=
  List.filter_cons_of_pos (decide_eq_true h)

/-- A text without a slash is at the beginning of the first part. -/
private theorem splitOn_append_of_notMem {s t first : List Char} {rest : List (List Char)}
    (hs : '/' ∉ s) (ht : t.splitOn '/' = first :: rest) :
    (s ++ t).splitOn '/' = (s ++ first) :: rest := by
  induction s with
  | nil => exact ht
  | cons c s ih =>
    obtain ⟨hc, hs⟩ := not_or.1 (mt List.mem_cons.2 hs)
    rw [List.cons_append, List.splitOn_cons_eq_if_modifyHead,
      if_neg (mt beq_iff_eq.1 (Ne.symm hc)), ih hs]
    rfl

/-- What is appended to a text continues its last part. -/
private theorem exists_splitOn_append (s : List Char) :
    ∃ (parts : List (List Char)) (last : List Char), ∀ t first rest,
      t.splitOn '/' = first :: rest → (s ++ t).splitOn '/' = parts ++ (last ++ first) :: rest := by
  induction s with
  | nil => exact ⟨[], [], fun _ _ _ h => h⟩
  | cons c s ih =>
    obtain ⟨parts, last, h⟩ := ih
    by_cases hc : c = '/'
    · refine ⟨[] :: parts, last, fun t first rest ht => ?_⟩
      rw [List.cons_append, List.splitOn_cons_eq_if_modifyHead, if_pos (beq_iff_eq.2 hc),
        h t first rest ht, List.cons_append]
    · cases parts with
      | nil =>
        refine ⟨[], c :: last, fun t first rest ht => ?_⟩
        rw [List.cons_append, List.splitOn_cons_eq_if_modifyHead, if_neg (mt beq_iff_eq.1 hc),
          h t first rest ht]
        rfl
      | cons part parts =>
        refine ⟨(c :: part) :: parts, last, fun t first rest ht => ?_⟩
        rw [List.cons_append, List.splitOn_cons_eq_if_modifyHead, if_neg (mt beq_iff_eq.1 hc),
          h t first rest ht]
        rfl

/-- The first name of a path that starts with a text without a slash starts with it. -/
theorem exists_pathNames_append {s : String} (hs : IsSegment s) (path : String) :
    ∃ name names, pathNames (s ++ path) = (s ++ name) :: names := by
  obtain ⟨first, rest, hpath⟩ := List.exists_cons_of_ne_nil (List.splitOn_ne_nil '/' path.toList)
  refine ⟨String.ofList first, (rest.map String.ofList).filter (· ≠ ""), ?_⟩
  rw [pathNames, String.toList_append, splitOn_append_of_notMem hs.2 hpath, List.map_cons,
    String.ofList_append, String.ofList_toList]
  exact filter_cons_of_ne (fun he => hs.1 (String.append_eq_empty_iff.1 he).1) _

/-- The last name of a path continues with a text without a slash that is appended. -/
theorem pathNames_append (path : String) : ∃ names name, ∀ s, IsSegment s →
    pathNames (path ++ s) = names ++ [name ++ s] := by
  obtain ⟨parts, last, h⟩ := exists_splitOn_append path.toList
  refine ⟨(parts.map String.ofList).filter (· ≠ ""), String.ofList last, fun s hs => ?_⟩
  rw [pathNames, String.toList_append, h _ _ _ (List.splitOn_eq_singleton hs.2), List.map_append,
    List.filter_append, List.map_singleton, String.ofList_append, String.ofList_toList,
    filter_cons_of_ne fun he => hs.1 (String.append_eq_empty_iff.1 he).2]
  rfl

/-- Paths that start alike and go on without a slash have the same names if and only if what
    they go on with does. -/
theorem pathNames_append_inj {path s s' x x' : String} (hs : IsSegment s) (hs' : IsSegment s') :
    pathNames (path ++ (s ++ x)) = pathNames (path ++ (s' ++ x')) ↔
      pathNames (s ++ x) = pathNames (s' ++ x') := by
  obtain ⟨parts, last, h⟩ := exists_splitOn_append path.toList
  have hsplit {s : String} (hs : IsSegment s) (x : String) : ∃ name names,
      pathNames (s ++ x) = name :: names ∧ pathNames (path ++ (s ++ x)) =
        (parts.map String.ofList).filter (· ≠ "") ++ (String.ofList last ++ name) :: names := by
    obtain ⟨first, rest, hx⟩ := List.exists_cons_of_ne_nil (List.splitOn_ne_nil '/' x.toList)
    have hsx := splitOn_append_of_notMem hs.2 hx
    have hne : String.ofList (s.toList ++ first) ≠ "" := fun he => by
      rw [String.ofList_append, String.ofList_toList] at he
      exact hs.1 (String.append_eq_empty_iff.1 he).1
    refine ⟨String.ofList (s.toList ++ first), (rest.map String.ofList).filter (· ≠ ""), ?_, ?_⟩
    · rw [pathNames, String.toList_append, hsx, List.map_cons, filter_cons_of_ne hne]
    · have hlast : String.ofList (last ++ (s.toList ++ first)) =
          String.ofList last ++ String.ofList (s.toList ++ first) := String.ofList_append
      rw [pathNames, String.toList_append, String.toList_append, h _ _ _ hsx, List.map_append,
        List.filter_append, List.map_cons, hlast,
        filter_cons_of_ne fun he => hne (String.append_eq_empty_iff.1 he).2]
  obtain ⟨name, names, hx, hpath⟩ := hsplit hs x
  obtain ⟨name', names', hx', hpath'⟩ := hsplit hs' x'
  rw [hx, hx', hpath, hpath', List.append_cancel_left_eq, List.cons.injEq, List.cons.injEq,
    String.append_right_inj]

/-! ## Numbers -/

theorem isDigit_of_mem_format04d {n : Nat} {c : Char} (h : c ∈ (format04d n).toList) :
    c.isDigit := by
  rw [format04d, String.toList_ofList, List.leftpad, List.mem_append] at h
  rcases h with h | h
  · rw [List.eq_of_mem_replicate h]
    rfl
  · exact Nat.isDigit_of_mem_toDigits (by decide) (by decide) h

theorem format04d_injective : Function.Injective format04d := by
  intro m n h
  have hm (n : Nat) : Nat.ofDigitChars 10 (format04d n).toList 0 = n := by
    rw [format04d, String.toList_ofList, List.leftpad, Nat.ofDigitChars_append,
      Nat.ofDigitChars_replicate_zero, Nat.mul_zero, Nat.ofDigitChars_ten_toDigits]
  rw [← hm m, h, hm]

variable {m n : Nat} {s t : String} {c : Char}

private theorem not_mem_format04d (hc : c.isDigit = false) : c ∉ (format04d n).toList := fun h => by
  rw [isDigit_of_mem_format04d h] at hc
  cases hc

/-- The first occurrence of a character splits a text in one way. -/
private theorem append_cons_inj {x y s t : List Char} (hx : c ∉ x) (hy : c ∉ y) :
    x ++ c :: s = y ++ c :: t ↔ x = y ∧ s = t := by
  refine ⟨fun h => ?_, fun ⟨hxy, hst⟩ => by rw [hxy, hst]⟩
  rcases List.append_eq_append_iff.1 h with ⟨z, rfl, hz⟩ | ⟨z, rfl, hz⟩
  · cases z with
    | nil => exact ⟨(List.append_nil x).symm, List.tail_eq_of_cons_eq hz⟩
    | cons a z =>
      obtain ⟨rfl, -⟩ := List.cons.inj hz
      exact absurd (List.mem_append_right x List.mem_cons_self) hy
  · cases z with
    | nil => exact ⟨List.append_nil y, (List.tail_eq_of_cons_eq hz).symm⟩
    | cons a z =>
      obtain ⟨rfl, -⟩ := List.cons.inj hz
      exact absurd (List.mem_append_right y List.mem_cons_self) hx

/-- A number at the beginning, followed by a character that is not a digit. -/
theorem format04d_append_inj (hc : c.isDigit = false) :
    format04d m ++ String.singleton c ++ s = format04d n ++ String.singleton c ++ t ↔
      m = n ∧ s = t := by
  rw [← String.toList_inj]
  simp only [String.toList_append, String.toList_singleton, List.append_assoc,
    List.singleton_append]
  rw [append_cons_inj (not_mem_format04d hc) (not_mem_format04d hc), String.toList_inj,
    String.toList_inj, format04d_injective.eq_iff]

/-- A number at the end, after a character that is not a digit. -/
theorem append_format04d_inj (hc : c.isDigit = false) :
    s ++ String.singleton c ++ format04d m = t ++ String.singleton c ++ format04d n ↔
      s = t ∧ m = n := by
  rw [← String.toList_inj, ← List.reverse_inj]
  simp only [String.toList_append, String.toList_singleton, List.append_assoc, List.reverse_append,
    List.singleton_append, List.reverse_cons]
  rw [append_cons_inj (List.mem_reverse.not.2 (not_mem_format04d hc))
    (List.mem_reverse.not.2 (not_mem_format04d hc)), List.reverse_inj, List.reverse_inj,
    String.toList_inj, String.toList_inj, format04d_injective.eq_iff, and_comm]

end Java
