import Mathlib.Data.List.Induction
import Raqet.Java.FileSystem

/-!
# Resolving paths

The names of a path lead from a location to a location, whatever is there (`follow`): they go
up some levels, and then down some names (`route`). Where a path can be located, it is at the
location that it is resolved to (`resolve_of_locate`).

A path from a directory that is two levels below a location stays below it unless it goes up
two levels and does not come back (`below_follow_iff`).
-/

namespace Java

namespace FileSystem

/-- The location that the names lead to, from a location. -/
def follow (loc : List String) (names : List String) : List String := names.foldl enter loc

/-- The location that a file is resolved to. -/
def resolve (workingDirectory : List String) (f : File) : List String :=
  follow (if f.absolute then [] else workingDirectory) f.names

/-- The location is below the other. -/
def Below (b loc : List String) : Prop := ∃ rest, rest ≠ [] ∧ loc = b ++ rest

/-- A name on a route that goes up some levels, and then down some names. -/
def turn (route : ℕ × List String) (name : String) : ℕ × List String :=
  if name = "." then route
  else if name = ".." then
    if route.2 = [] then (route.1 + 1, []) else (route.1, route.2.dropLast)
  else (route.1, route.2 ++ [name])

/-- How many levels the names go up, and the names that they then go down. -/
def route (names : List String) : ℕ × List String := names.foldl turn (0, [])

example : route ["a", "..", "..", "b", ".", "c"] = (1, ["b", "c"]) := by decide

variable {α : Type} {fs : FileSystem α} {b loc loc' names d : List String} {f : File}
  {x y c : String} {n : ℕ}

theorem follow_append {names' : List String} :
    follow loc (names ++ names') = follow (follow loc names) names' := List.foldl_append

/-- The names go up and down their route. -/
theorem follow_eq : follow loc names =
    loc.take (loc.length - (route names).1) ++ (route names).2 := by
  induction names using List.reverseRecOn with
  | nil => simp [follow, route]
  | append_singleton names name ih =>
    have hroute : route (names ++ [name]) = turn (route names) name := by
      rw [route, List.foldl_append]
      rfl
    rw [follow_append, ih, hroute, follow, List.foldl_cons, List.foldl_nil, enter, turn]
    by_cases hdot : name = "."
    · rw [if_pos hdot, if_pos hdot]
    rw [if_neg hdot, if_neg hdot]
    by_cases hdots : name = ".."
    · rw [if_pos hdots, if_pos hdots]
      by_cases hdown : (route names).2 = []
      · rw [if_pos hdown, hdown, List.append_nil, List.append_nil, List.dropLast_eq_take,
          List.take_take, List.length_take]
        congr 1
        omega
      · rw [if_neg hdown, List.dropLast_append_of_ne_nil hdown]
    · rw [if_neg hdots, if_neg hdots, List.append_assoc]

/-- Where a path is located, it leads. -/
theorem follow_of_walk (h : fs.walk loc names = some loc') : follow loc names = loc' := by
  induction names generalizing loc with
  | nil => exact Option.some.inj h
  | cons name names ih =>
    rw [walk] at h
    split_ifs at h
    exact ih h

theorem resolve_of_locate (h : fs.locate f = some loc) : resolve fs.workingDirectory f = loc :=
  follow_of_walk h

/-- A path in a file that has a name. -/
theorem resolve_child {workingDirectory : List String} {path : String}
    (hf : f.names ≠ [] ∨ f.absolute = true) :
    resolve workingDirectory (f.child path) =
      follow (resolve workingDirectory f) (pathNames path) := by
  have habs : (f.child path).absolute = f.absolute := by
    rw [File.absolute_child]
    rcases hf with hf | hf
    · rw [List.isEmpty_eq_false_iff.2 hf, Bool.or_false]
    · rw [hf, Bool.true_or]
  rw [resolve, habs, File.names_child, follow_append, resolve]

/-- A name goes down to it. -/
theorem route_of_isName (hname : File.IsName x) : route (pathNames x) = (0, [x]) := by
  rw [hname.1.pathNames, route, List.foldl_cons, List.foldl_nil, turn, if_neg hname.2.1,
    if_neg hname.2.2]
  rfl

/-! ## Staying below a location -/

theorem Below.append (h : Below b loc) : Below b (loc ++ d) := by
  obtain ⟨rest, hrest, rfl⟩ := h
  exact ⟨rest ++ d, List.append_ne_nil_of_left_ne_nil hrest _, List.append_assoc _ _ _⟩

theorem below_append (hd : d ≠ []) : Below b (b ++ d) := ⟨d, hd, rfl⟩

/-- Going down from a location above comes back. -/
theorem take_append_eq_iff : b.take n ++ d = b ++ names ↔ d = b.drop n ++ names := by
  have hb : b ++ names = b.take n ++ (b.drop n ++ names) := by
    rw [← List.append_assoc, List.take_append_drop]
  rw [hb, List.append_cancel_left_eq]

/-- The path stays below the location: it goes up less than two levels, or comes back. -/
def StaysBelow (b : List String) (path : String) : Prop :=
  (route (pathNames path)).1 < 2 ∨ ∃ rest, rest ≠ [] ∧ (route (pathNames path)).2 =
    b.drop (b.length - ((route (pathNames path)).1 - 2)) ++ rest

theorem staysBelow_of_isName (hname : File.IsName x) : StaysBelow b x :=
  .inl (by rw [route_of_isName hname]; exact Nat.two_pos)

theorem below_follow_iff {path : String} :
    Below b (follow (b ++ [x] ++ [y]) (pathNames path)) ↔ StaysBelow b path := by
  rw [StaysBelow, follow_eq]
  generalize route (pathNames path) = r
  obtain ⟨ups, downs⟩ := r
  simp only [List.length_append, List.length_singleton]
  rcases ups with _ | _ | ups
  · refine iff_of_true ?_ (.inl (by decide))
    rw [Nat.sub_zero, List.take_of_length_le (by simp), List.append_assoc, List.append_assoc]
    exact below_append (by simp)
  · refine iff_of_true ?_ (.inl (by decide))
    rw [show b.length + 1 + 1 - (0 + 1) = (b ++ [x]).length by simp, List.take_left,
      List.append_assoc]
    exact below_append (by simp)
  · rw [or_iff_right (by omega), show b.length + 1 + 1 - (ups + 1 + 1) = b.length - ups by omega,
      List.append_assoc, List.take_append_of_le_length (by omega)]
    simp only [Below, take_append_eq_iff]
    rfl

/-- A path from a directory that is one level below a location leads to the name in it, or
    it goes up and comes back to the name in another directory there. -/
theorem follow_eq_iff : follow (b ++ [x]) names = b ++ [c] ++ [y] ↔
    ((route names).1 = 0 ∧ (route names).2 = [y] ∧ x = c) ∨
    (0 < (route names).1 ∧
      (route names).2 = b.drop (b.length - ((route names).1 - 1)) ++ ([c] ++ [y])) := by
  rw [follow_eq]
  generalize route names = r
  obtain ⟨ups, downs⟩ := r
  rw [List.append_assoc b [c] [y]]
  rcases ups with _ | ups
  · rw [or_iff_left (fun h => absurd h.1 (lt_irrefl 0)), and_iff_right rfl, Nat.sub_zero,
      List.take_length, List.append_assoc, List.append_cancel_left_eq, List.singleton_append,
      List.singleton_append, List.cons.injEq, and_comm]
  · rw [or_iff_right (fun h => absurd h.1 (Nat.succ_ne_zero _)), and_iff_right (Nat.succ_pos _),
      List.length_append, List.length_singleton,
      show b.length + 1 - (ups + 1) = b.length - ups by omega,
      List.take_append_of_le_length (by omega), take_append_eq_iff]
    rfl

end FileSystem

end Java
