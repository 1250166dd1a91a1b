import Raqet.Smb.DiskDriver

/-!
# Search contexts

A search context gives the files of a list one after the other, and can be put back to a
position in the list. Its methods are a parameter (`SearchContext`); what is assumed of them
is that the context is a cursor over the list (`SearchContext.IsCursor`).

* `enumerate_eq_take`: an enumeration gives what is still to come, if every step gives the
  first of it, and leaves the rest;
* `Yields`: what an enumeration gives in the end;
* `listCursor`: a cursor over a list.
-/

namespace Raqet

/-- The methods of a search context for files of `ρ`. A file is also found by an information
    about it, of `φ`. -/
structure SearchContext (ρ φ σ : Type) where
  hasMoreFiles : σ → Bool
  nextFileInfo : σ → Option ρ × σ
  nextFileName : σ → Option String × σ
  getResumeId : σ → ℤ
  restartAt : σ → ℤ → Bool × σ
  /-- `restartAt(info)`. -/
  restartAtFile : σ → φ → Bool × σ

namespace SearchContext

variable {ρ φ σ : Type}

/-- The context is a cursor over these files, at `cursor`. -/
structure IsCursor (m : SearchContext ρ φ σ) (fileName : ρ → String) (files : List ρ)
    (cursor : σ → ℕ) : Prop where
  /-- The number of files is an `int`. -/
  length_lt : files.length < 2 ^ 31
  le : ∀ s, cursor s ≤ files.length
  hasMoreFiles : ∀ s, m.hasMoreFiles s = decide (cursor s < files.length)
  nextFileInfo : ∀ s, (m.nextFileInfo s).1 = files[cursor s]? ∧
    cursor (m.nextFileInfo s).2 = min (cursor s + 1) files.length
  nextFileName : ∀ s, (m.nextFileName s).1 = files[cursor s]?.map fileName ∧
    cursor (m.nextFileName s).2 = min (cursor s + 1) files.length
  getResumeId : ∀ s, m.getResumeId s = cursor s
  restartAt : ∀ s (id : ℤ), 0 ≤ id → id < files.length →
    (m.restartAt s id).1 = true ∧ cursor (m.restartAt s id).2 = id
  restartAt_out : ∀ s (id : ℤ), ¬(0 ≤ id ∧ id < files.length) →
    (m.restartAt s id).1 = false ∧ cursor (m.restartAt s id).2 = cursor s

variable {m : SearchContext ρ φ σ} {fileName : ρ → String} {files : List ρ} {cursor : σ → ℕ}
  {s : σ} {id : ℤ}

theorem IsCursor.restartAt_iff (h : m.IsCursor fileName files cursor) :
    (m.restartAt s id).1 = true ↔ 0 ≤ id ∧ id < files.length := by
  constructor
  · intro htrue
    by_contra hout
    rw [(h.restartAt_out s id hout).1] at htrue
    cases htrue
  · rintro ⟨h₀, hlt⟩
    exact (h.restartAt s id h₀ hlt).1

/-- The methods of a cursor over a list. -/
def listCursor (fileName : ρ → String) (files : List ρ) :
    SearchContext ρ String (Fin (files.length + 1)) where
  hasMoreFiles i := decide ((i : ℕ) < files.length)
  nextFileInfo i := (files[(i : ℕ)]?, ⟨min (i + 1) files.length, by omega⟩)
  nextFileName i := (files[(i : ℕ)]?.map fileName, ⟨min (i + 1) files.length, by omega⟩)
  getResumeId i := (i : ℕ)
  restartAt i id :=
    if h : 0 ≤ id ∧ id < files.length then (true, ⟨id.toNat, by omega⟩) else (false, i)
  restartAtFile i info :=
    if files.findIdx (fun file => fileName file = info) < files.length then
      (true, ⟨files.findIdx fun file => fileName file = info,
        Nat.lt_succ_of_le List.findIdx_le_length⟩)
    else (false, i)

theorem isCursor_listCursor (fileName : ρ → String) (files : List ρ)
    (hlength : files.length < 2 ^ 31) :
    (listCursor fileName files).IsCursor fileName files Fin.val where
  length_lt := hlength
  le s := Nat.le_of_lt_succ s.isLt
  hasMoreFiles _ := rfl
  nextFileInfo _ := ⟨rfl, rfl⟩
  nextFileName _ := ⟨rfl, rfl⟩
  getResumeId _ := rfl
  restartAt s id h₀ hlt := by
    rw [listCursor]
    dsimp only
    rw [dif_pos ⟨h₀, hlt⟩]
    exact ⟨rfl, Int.toNat_of_nonneg h₀⟩
  restartAt_out s id h := by
    rw [listCursor]
    dsimp only
    rw [dif_neg h]
    exact ⟨rfl, rfl⟩

end SearchContext

/-! ## Enumerating to the end -/

variable {γ γ' α β : Type} {hasMore : γ → Bool} {next : γ → Option α × γ} {rest : γ → List β}
  {f : β → α} {c : γ} {l : List α}

/-- If `g` keeps what the methods answer, it keeps what is enumerated. -/
theorem enumerate_comp {hasMore' : γ' → Bool} {next' : γ' → Option α × γ'} (g : γ → γ')
    (hmore : ∀ c, hasMore' (g c) = hasMore c)
    (hnext : ∀ c, next' (g c) = ((next c).1, g (next c).2)) (k : ℕ) (c : γ) :
    enumerate hasMore' next' k (g c) = enumerate hasMore next k c := by
  induction k generalizing c with
  | zero => rfl
  | succ k ih => rw [enumerate, enumerate, hmore, hnext, ih]

/-- Every step gives the first of what is still to come, and leaves the rest of it. -/
structure StepsThrough (hasMore : γ → Bool) (next : γ → Option α × γ) (f : β → α)
    (rest : γ → List β) : Prop where
  hasMore_eq : ∀ c, hasMore c = !(rest c).isEmpty
  next_fst : ∀ c, (next c).1 = (rest c).head?.map f
  rest_next : ∀ c, rest (next c).2 = (rest c).tail

theorem StepsThrough.enumerate_eq_take (h : StepsThrough hasMore next f rest) (k : ℕ) (c : γ) :
    enumerate hasMore next k c = ((rest c).take k).map f := by
  induction k generalizing c with
  | zero => rfl
  | succ k ih =>
    rw [enumerate, h.hasMore_eq, h.next_fst, ih, h.rest_next]
    cases rest c with
    | nil => rfl
    | cons a l => rfl

/-- A cursor steps through the files from its position on. -/
theorem SearchContext.IsCursor.stepsThrough {ρ φ σ : Type} {m : SearchContext ρ φ σ}
    {fileName : ρ → String} {files : List ρ} {cursor : σ → ℕ}
    (h : m.IsCursor fileName files cursor) {next : σ → Option α × σ} {f : ρ → α}
    (hnext : ∀ s, (next s).1 = files[cursor s]?.map f ∧
      cursor (next s).2 = min (cursor s + 1) files.length) :
    StepsThrough m.hasMoreFiles next f fun s => files.drop (cursor s) where
  hasMore_eq s := by
    rw [h.hasMoreFiles, Bool.eq_iff_iff]
    simp
  next_fst s := by rw [(hnext s).1, List.head?_drop]
  rest_next s := by
    rw [(hnext s).2, List.tail_drop]
    rcases le_total (cursor s + 1) files.length with hle | hle
    · rw [min_eq_left hle]
    · rw [min_eq_right hle, List.drop_length, List.drop_eq_nil_of_le hle]

/-- In the end, the enumeration has given `l`. -/
def Yields (hasMore : γ → Bool) (next : γ → Option α × γ) (c : γ) (l : List α) : Prop :=
  ∃ n, ∀ k, n ≤ k → enumerate hasMore next k c = l

theorem StepsThrough.yields_iff (h : StepsThrough hasMore next f rest) :
    Yields hasMore next c l ↔ (rest c).map f = l := by
  constructor
  · rintro ⟨n, hn⟩
    have hl := hn (max n (rest c).length) (le_max_left _ _)
    rwa [h.enumerate_eq_take, List.take_of_length_le (le_max_right _ _)] at hl
  · rintro rfl
    refine ⟨(rest c).length, fun k hk => ?_⟩
    rw [h.enumerate_eq_take, List.take_of_length_le hk]

end Raqet
