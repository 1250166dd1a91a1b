import Raqet.Smb.ResumableContext
import Raqet.Transition

/-!
# Resuming a search

A restart moves only one of the positions of a search: that in the list of the driver, if the
number is a position there, and else that of the wrapped context, to where it is if the first
one does not move.

* `SamePlace`: the other position is where it was;
* `Orderly`: a restart among the files of the driver while no real files were given, or
  behind them while all of them were;
* `resumes_iff`: a restart resumes the search exactly if the other position is where it was,
  and in a run of orderly restarts exactly if it is orderly.
-/

namespace Raqet

open Java Transition

namespace ResumableContext

variable {ρ φ π σ α : Type} {P : SearchContext PseudoFile φ π} {S : SearchContext ρ φ σ}
  {c c₀ c₁ : ResumableContext π σ} {fileName : ρ → String} {pseudoFiles : List PseudoFile}
  {realFiles : List ρ} {i : π → ℕ} {j : σ → ℕ}

/-! ## Positions -/

/-- The file of the driver that was found, if it is one. -/
def pseudo? : Found ρ → Option PseudoFile
  | .pseudo file => some file
  | .real _ => none

/-- The real file that was found, if it is one. -/
def real? : Found ρ → Option ρ
  | .pseudo _ => none
  | .real file => some file

/-- The files of the driver, and the real ones, can be told apart. -/
theorem map_append_map_inj {l l' : List PseudoFile} {m m' : List ρ} :
    l.map Found.pseudo ++ m.map Found.real = l'.map Found.pseudo ++ m'.map Found.real ↔
      l = l' ∧ m = m' := by
  constructor
  · intro h
    have hpseudo := congrArg (List.filterMap pseudo?) h
    have hreal := congrArg (List.filterMap real?) h
    simp only [List.filterMap_append, List.filterMap_map, Function.comp_def, pseudo?, real?,
      List.filterMap_some, List.filterMap_none, List.append_nil, List.nil_append] at hpseudo hreal
    exact ⟨hpseudo, hreal⟩
  · rintro ⟨rfl, rfl⟩
    rfl

theorem drop_inj {β : Type} {l : List β} {m n : ℕ} (hm : m ≤ l.length) (hn : n ≤ l.length) :
    l.drop m = l.drop n ↔ m = n := by
  constructor
  · intro h
    have hlength := congrArg List.length h
    rw [List.length_drop, List.length_drop] at hlength
    omega
  · rintro rfl
    rfl

/-- A restart among the files of the driver. -/
theorem restartAt_pseudo (hP : P.IsCursor PseudoFile.getFileName pseudoFiles i) {id : ℤ}
    (hid : 0 ≤ id ∧ id < pseudoFiles.length) :
    (c.restartAt P S id).1 = true ∧ i (c.restartAt P S id).2.pseudo = id ∧
      (c.restartAt P S id).2.searchContext = c.searchContext := by
  obtain ⟨htrue, hcursor⟩ := hP.restartAt c.pseudo id hid.1 hid.2
  rw [restartAt]
  dsimp only
  rw [if_pos htrue]
  exact ⟨rfl, hcursor, rfl⟩

/-- A restart behind them. -/
theorem restartAt_real (hP : P.IsCursor PseudoFile.getFileName pseudoFiles i) {id : ℤ}
    (hid : ¬(0 ≤ id ∧ id < pseudoFiles.length)) :
    i (c.restartAt P S id).2.pseudo = i c.pseudo ∧
      ((c.searchContext = none ∧ (c.restartAt P S id).2.searchContext = none ∧
          (c.restartAt P S id).1 = false) ∨
        ∃ s, c.searchContext = some s ∧
          (c.restartAt P S id).2.searchContext =
            some (S.restartAt s (toInt (id - i c.pseudo))).2 ∧
          (c.restartAt P S id).1 = (S.restartAt s (toInt (id - i c.pseudo))).1) := by
  obtain ⟨hfalse, hcursor⟩ := hP.restartAt_out c.pseudo id hid
  rw [restartAt]
  dsimp only
  rw [if_neg (by rw [hfalse]; exact Bool.false_ne_true), hP.getResumeId, hcursor]
  cases c.searchContext with
  | none => exact ⟨hcursor, .inl ⟨rfl, rfl, rfl⟩⟩
  | some s => exact ⟨hcursor, .inr ⟨s, rfl, rfl, rfl⟩⟩

/-- The other position is where it was: no real files were given, if the restart is among the
    files of the driver, and otherwise as many of these as before. -/
def SamePlace (pseudoFiles : List PseudoFile) (i : π → ℕ) (j : σ → ℕ)
    (c₀ c : ResumableContext π σ) : Prop :=
  ∀ s₀ ∈ c₀.searchContext, ∀ s ∈ c.searchContext,
    if i c₀.pseudo + j s₀ < pseudoFiles.length then j s₀ = 0 ∧ j s = 0
    else i c.pseudo = i c₀.pseudo

theorem samePlace_some_iff {s₀ s : σ} (hs₀ : c₀.searchContext = some s₀)
    (hs : c.searchContext = some s) : SamePlace pseudoFiles i j c₀ c ↔
      if i c₀.pseudo + j s₀ < pseudoFiles.length then j s₀ = 0 ∧ j s = 0
      else i c.pseudo = i c₀.pseudo := by
  rw [SamePlace, hs₀, hs]
  simp only [Option.mem_some_iff, forall_eq']

section cursors

variable (hP : P.IsCursor PseudoFile.getFileName pseudoFiles i)
  (hS : S.IsCursor fileName realFiles j)

include hP

theorem filesLeft_eq_iff_none (hs₀ : c₀.searchContext = none) (hs : c.searchContext = none) :
    filesLeft pseudoFiles realFiles i j c₀ = filesLeft pseudoFiles realFiles i j c ↔
      i c₀.pseudo = i c.pseudo := by
  rw [filesLeft, rest, rest, hs₀, hs, Option.elim_none, List.append_nil, List.append_nil,
    List.map_inj_right fun _ _ => Found.pseudo.inj, drop_inj (hP.le _) (hP.le _)]

include hS

theorem filesLeft_eq_iff_some {s₀ s : σ} (hs₀ : c₀.searchContext = some s₀)
    (hs : c.searchContext = some s) :
    filesLeft pseudoFiles realFiles i j c₀ = filesLeft pseudoFiles realFiles i j c ↔
      i c₀.pseudo = i c.pseudo ∧ j s₀ = j s := by
  rw [filesLeft, rest, rest, hs₀, hs, Option.elim_some, Option.elim_some, map_append_map_inj,
    drop_inj (hP.le _) (hP.le _), drop_inj (hS.le _) (hS.le _)]

theorem getResumeId_some {s : σ} (hs : c.searchContext = some s) :
    c.getResumeId P S = toInt (i c.pseudo + j s) := by
  rw [getResumeId, hs]
  dsimp only
  rw [hP.getResumeId, hS.getResumeId]

/-- The sum of the positions, as an `int`, is a position among the files of the driver exactly
    if it is one as it is. -/
theorem toInt_add_lt_iff {s : σ} :
    (0 ≤ toInt (i c.pseudo + j s) ∧ toInt (i c.pseudo + j s) < pseudoFiles.length) ↔
      i c.pseudo + j s < pseudoFiles.length := by
  have hle := hP.le c.pseudo
  have hle' := hS.le s
  have hlt := hP.length_lt
  have hlt' := hS.length_lt
  rcases toInt_eq_or_le (x := (i c.pseudo : ℤ) + j s) (by omega) with ⟨-, heq⟩ | ⟨hge, heq⟩
  · rw [heq]
    omega
  · omega

/-- Back among the files of the driver, the same files are left exactly if no real file was given
    then, nor now. -/
theorem filesLeft_restartAt_pseudo {s₀ s : σ} (hs₀ : c₀.searchContext = some s₀)
    (hs : c.searchContext = some s) (hlt : i c₀.pseudo + j s₀ < pseudoFiles.length) :
    filesLeft pseudoFiles realFiles i j c₀ =
        filesLeft pseudoFiles realFiles i j (c.restartAt P S (c₀.getResumeId P S)).2 ↔
      j s₀ = 0 ∧ j s = 0 := by
  have hlength := hP.length_lt
  have hid : c₀.getResumeId P S = i c₀.pseudo + j s₀ := by
    rw [getResumeId_some hP hS hs₀, toInt_eq_self (by omega) (by omega)]
  have hin : 0 ≤ (i c₀.pseudo + j s₀ : ℤ) ∧ (i c₀.pseudo + j s₀ : ℤ) < pseudoFiles.length := by
    omega
  rw [hid]
  obtain ⟨-, hpseudo, hcontext⟩ := restartAt_pseudo (S := S) (c := c) hP hin
  rw [filesLeft_eq_iff_some hP hS hs₀ (hcontext.trans hs)]
  omega

/-- Back behind them, the same files are left exactly if as many files of the driver were given
    then as now. -/
theorem filesLeft_restartAt_real {s₀ s : σ} (hs₀ : c₀.searchContext = some s₀)
    (hs : c.searchContext = some s) (hlt : ¬i c₀.pseudo + j s₀ < pseudoFiles.length)
    (htrue : (c.restartAt P S (c₀.getResumeId P S)).1 = true) :
    filesLeft pseudoFiles realFiles i j c₀ =
        filesLeft pseudoFiles realFiles i j (c.restartAt P S (c₀.getResumeId P S)).2 ↔
      i c.pseudo = i c₀.pseudo := by
  rw [getResumeId_some hP hS hs₀] at htrue ⊢
  obtain ⟨hpseudo, hreal⟩ := restartAt_real (S := S) (c := c) hP
    (mt (toInt_add_lt_iff hP hS).1 hlt)
  rcases hreal with ⟨hnone, -⟩ | ⟨s', hs', hcontext, hresult⟩
  · rw [hs] at hnone
    cases hnone
  obtain rfl : s = s' := Option.some.inj (hs.symm.trans hs')
  rw [hresult, hS.restartAt_iff] at htrue
  have hcursor := (hS.restartAt s _ htrue.1 htrue.2).2
  rw [filesLeft_eq_iff_some hP hS hs₀ hcontext, hpseudo]
  refine ⟨fun h => h.1.symm, fun h => ⟨h.symm, ?_⟩⟩
  -- The position of the driver cancels out of the difference.
  have hle := hS.le s₀
  have hlength := hS.length_lt
  have hdiff : toInt (toInt (i c₀.pseudo + j s₀) - i c.pseudo) = j s₀ := by
    rw [h, toInt_toInt_sub, add_sub_cancel_left, toInt_eq_self (by omega) (by omega)]
  exact (Int.natCast_inj.1 (hcursor.trans hdiff)).symm

omit hS in
/-- Without a wrapped context, the same files are left. -/
theorem filesLeft_restartAt_none (hs₀ : c₀.searchContext = none) (hs : c.searchContext = none)
    (htrue : (c.restartAt P S (c₀.getResumeId P S)).1 = true) :
    filesLeft pseudoFiles realFiles i j c₀ =
      filesLeft pseudoFiles realFiles i j (c.restartAt P S (c₀.getResumeId P S)).2 := by
  have hid : c₀.getResumeId P S = i c₀.pseudo := by
    rw [getResumeId, hs₀]
    exact hP.getResumeId _
  rw [hid] at htrue ⊢
  have hlt : 0 ≤ (i c₀.pseudo : ℤ) ∧ (i c₀.pseudo : ℤ) < pseudoFiles.length := by
    by_contra hout
    rcases (restartAt_real (S := S) (c := c) hP hout).2 with ⟨-, -, hfalse⟩ | ⟨s, hs', -⟩
    · rw [hfalse] at htrue
      cases htrue
    · rw [hs] at hs'
      cases hs'
  obtain ⟨-, hpseudo, hcontext⟩ := restartAt_pseudo (S := S) (c := c) hP hlt
  rw [filesLeft_eq_iff_none hP hs₀ (hcontext.trans hs)]
  omega

/-- A restart that succeeds resumes the search exactly if the other position is where it
    was. -/
theorem resumes_iff_samePlace (hsome : c.searchContext.isSome = c₀.searchContext.isSome)
    (htrue : (c.restartAt P S (c₀.getResumeId P S)).1 = true) :
    Resumes P S c₀ (c.restartAt P S (c₀.getResumeId P S)).2 ↔
      SamePlace pseudoFiles i j c₀ c := by
  rw [resumes_iff_filesLeft hP hS]
  cases hs₀ : c₀.searchContext with
  | none =>
    have hs : c.searchContext = none := by
      rw [hs₀] at hsome
      exact Option.not_isSome_iff_eq_none.1 (by rw [hsome]; exact Bool.false_ne_true)
    refine iff_of_true (filesLeft_restartAt_none hP hs₀ hs htrue) fun s hs' => ?_
    rw [hs₀] at hs'
    cases hs'
  | some s₀ =>
    obtain ⟨s, hs⟩ : ∃ s, c.searchContext = some s := by
      rw [hs₀] at hsome
      exact Option.isSome_iff_exists.1 hsome
    rw [samePlace_some_iff hs₀ hs]
    by_cases hlt : i c₀.pseudo + j s₀ < pseudoFiles.length
    · rw [if_pos hlt]
      exact filesLeft_restartAt_pseudo hP hS hs₀ hs hlt
    · rw [if_neg hlt]
      exact filesLeft_restartAt_real hP hS hs₀ hs hlt htrue

end cursors

/-! ## Orderly restarts -/

/-- A restart among the files of the driver while no real file was given, or behind them while
    all of them were. -/
def Orderly (P : SearchContext PseudoFile φ π) (pseudoFiles : List PseudoFile) (i : π → ℕ)
    (j : σ → ℕ) (c : ResumableContext π σ) : Action φ → Prop
  | .nextFileInfo | .nextFileName => True
  | .restartAt resumeId => ∀ s ∈ c.searchContext,
    if 0 ≤ resumeId ∧ resumeId < pseudoFiles.length then j s = 0
    else i c.pseudo = pseudoFiles.length
  | .restartAtFile info => ∀ s ∈ c.searchContext,
    if (P.restartAtFile c.pseudo info).1 then j s = 0
    else i (P.restartAtFile c.pseudo info).2 = pseudoFiles.length

instance Orderly.decidable :
    ∀ (c : ResumableContext π σ) (a : Action φ), Decidable (Orderly P pseudoFiles i j c a)
  | _, .nextFileInfo => inferInstanceAs (Decidable True)
  | _, .nextFileName => inferInstanceAs (Decidable True)
  | c, .restartAt resumeId => inferInstanceAs (Decidable (∀ s ∈ c.searchContext,
    if 0 ≤ resumeId ∧ resumeId < pseudoFiles.length then j s = 0
    else i c.pseudo = pseudoFiles.length))
  | c, .restartAtFile info => inferInstanceAs (Decidable (∀ s ∈ c.searchContext,
    if (P.restartAtFile c.pseudo info).1 then j s = 0
    else i (P.restartAtFile c.pseudo info).2 = pseudoFiles.length))

/-- No real file is given before all files of the driver were. -/
def InOrder (pseudoFiles : List PseudoFile) (i : π → ℕ) (j : σ → ℕ)
    (c : ResumableContext π σ) : Prop :=
  ∀ s ∈ c.searchContext, j s = 0 ∨ i c.pseudo = pseudoFiles.length

/-- A restart of the inherited context, or else of the wrapped one. -/
def restartOf (restartPseudo : π → Bool × π) (restartReal : π → σ → Bool × σ)
    (c : ResumableContext π σ) : Bool × ResumableContext π σ :=
  let o := restartPseudo c.pseudo
  let c := { c with pseudo := o.2 }
  if o.1 then (true, c)
  else match c.searchContext with
    | none => (false, c)
    | some s =>
      let o := restartReal c.pseudo s
      (o.1, { c with searchContext := some o.2 })

theorem restartAt_eq {id : ℤ} : c.restartAt P S id =
    restartOf (fun p => P.restartAt p id)
      (fun p s => S.restartAt s (toInt (id - P.getResumeId p))) c :=
  rfl

theorem restartAtFile_eq {info : φ} : c.restartAtFile P S info =
    restartOf (fun p => P.restartAtFile p info) (fun _ s => S.restartAtFile s info) c :=
  rfl

section steps

variable {hasMore : π → Bool} {nextPseudo : π → Option α × π} {nextReal : σ → Option α × σ}
  {restartPseudo : π → Bool × π} {restartReal : π → σ → Bool × σ}

theorem isSome_nextOf :
    (nextOf hasMore nextPseudo nextReal c).2.searchContext.isSome = c.searchContext.isSome := by
  rw [nextOf]
  split_ifs
  · rfl
  · cases hs : c.searchContext with
    | none => simp [hs]
    | some s => rfl

theorem isSome_restartOf :
    (restartOf restartPseudo restartReal c).2.searchContext.isSome = c.searchContext.isSome := by
  rw [restartOf]
  dsimp only
  split_ifs
  · rfl
  · cases hs : c.searchContext with
    | none => rfl
    | some s => rfl

/-- After the next file, no real file was given before all files of the driver, if this was so
    before. -/
theorem InOrder.nextOf (hP : P.IsCursor PseudoFile.getFileName pseudoFiles i)
    (hc : InOrder pseudoFiles i j c) :
    InOrder pseudoFiles i j (nextOf P.hasMoreFiles nextPseudo nextReal c).2 := by
  rw [ResumableContext.nextOf, hP.hasMoreFiles]
  have hle := hP.le c.pseudo
  by_cases hlt : i c.pseudo < pseudoFiles.length
  · rw [if_pos (decide_eq_true hlt)]
    -- The inherited context is not at its end: no real file was given.
    intro s hs
    exact .inl ((hc s hs).resolve_right hlt.ne)
  · rw [if_neg (by simpa using hlt)]
    have heq : i c.pseudo = pseudoFiles.length := le_antisymm hle (not_lt.1 hlt)
    cases c.searchContext with
    | none => exact fun s hs => .inr heq
    | some s => exact fun s hs => .inr heq

/-- After a restart, no real file was given before all files of the driver, if the inherited
    context was restarted before any, or else is at its end. -/
theorem inOrder_restartOf (h : ∀ s ∈ c.searchContext,
      if (restartPseudo c.pseudo).1 then j s = 0
      else i (restartPseudo c.pseudo).2 = pseudoFiles.length) :
    InOrder pseudoFiles i j (restartOf restartPseudo restartReal c).2 := by
  rw [restartOf]
  dsimp only
  split_ifs at h ⊢ with hrestart
  · exact fun s hs => .inl (h s hs)
  · cases hs : c.searchContext with
    | none => exact fun s hs => by cases hs
    | some s => exact fun s' _ => .inr (h s hs)

end steps

/-- A context wraps another one for good. -/
theorem isSome_step {a : Action φ} (h : step P S c a = some c₁) :
    c₁.searchContext.isSome = c.searchContext.isSome := by
  cases a with
  | nextFileInfo =>
    cases h
    rw [nextFileInfo_eq]
    exact isSome_nextOf
  | nextFileName =>
    cases h
    rw [nextFileName_eq]
    exact isSome_nextOf
  | restartAt resumeId =>
    cases h
    rw [restartAt_eq]
    exact isSome_restartOf
  | restartAtFile info =>
    cases h
    rw [restartAtFile_eq]
    exact isSome_restartOf

/-- An orderly call keeps the order. -/
theorem inOrder_step (hP : P.IsCursor PseudoFile.getFileName pseudoFiles i) {a : Action φ}
    (ha : Orderly P pseudoFiles i j c a) (hc : InOrder pseudoFiles i j c)
    (h : step P S c a = some c₁) : InOrder pseudoFiles i j c₁ := by
  cases a with
  | nextFileInfo =>
    cases h
    rw [nextFileInfo_eq]
    exact hc.nextOf hP
  | nextFileName =>
    cases h
    rw [nextFileName_eq]
    exact hc.nextOf hP
  | restartAt resumeId =>
    cases h
    rw [restartAt_eq]
    refine inOrder_restartOf fun s hs => ?_
    have hs := ha s hs
    by_cases hid : 0 ≤ resumeId ∧ resumeId < pseudoFiles.length
    · rw [if_pos hid] at hs
      rwa [if_pos (hP.restartAt_iff.2 hid)]
    · rw [if_neg hid] at hs
      rwa [if_neg (mt hP.restartAt_iff.1 hid), (hP.restartAt_out _ _ hid).2]
  | restartAtFile info =>
    cases h
    rw [restartAtFile_eq]
    exact inOrder_restartOf ha

section runs

variable {l : List (Action φ)}

theorem isSome_runs (h : runs (step P S) c l = some c₁) :
    c₁.searchContext.isSome = c.searchContext.isSome :=
  runs_invariant (P := fun _ _ => True)
    (I := fun c₁ => c₁.searchContext.isSome = c.searchContext.isSome)
    (fun _ _ _ _ hc h => (isSome_step h).trans hc) h (.of_forall fun _ _ _ => trivial) rfl

/-- In a run of orderly calls, no real file is given before all files of the driver were. -/
theorem inOrder_runs (hP : P.IsCursor PseudoFile.getFileName pseudoFiles i)
    (hc : InOrder pseudoFiles i j c) (hl : AllSteps (step P S) (Orderly P pseudoFiles i j) c l)
    (h : runs (step P S) c l = some c₁) : InOrder pseudoFiles i j c₁ :=
  runs_invariant (fun _ _ _ ha hc h => inOrder_step hP ha hc h) h hl hc

end runs

section cursors

variable (hP : P.IsCursor PseudoFile.getFileName pseudoFiles i)
  (hS : S.IsCursor fileName realFiles j)

include hP hS

/-- If no real file was given before all files of the driver, the other position is where it was
    exactly if the restart is orderly. -/
theorem samePlace_iff_orderly (hsome : c.searchContext.isSome = c₀.searchContext.isSome)
    (h₀ : InOrder pseudoFiles i j c₀) : SamePlace pseudoFiles i j c₀ c ↔
      Orderly P pseudoFiles i j c (.restartAt (c₀.getResumeId P S) : Action φ) := by
  cases hs : c.searchContext with
  | none =>
    refine iff_of_true (fun _ _ s hs' => ?_) (fun s hs' => ?_)
    · rw [hs] at hs'
      cases hs'
    · rw [hs] at hs'
      cases hs'
  | some s =>
    obtain ⟨s₀, hs₀⟩ : ∃ s₀, c₀.searchContext = some s₀ := by
      rw [hs] at hsome
      exact Option.isSome_iff_exists.1 hsome.symm
    have hle := hP.le c₀.pseudo
    have hin := toInt_add_lt_iff (c := c₀) (s := s₀) hP hS
    rw [samePlace_some_iff hs₀ hs, getResumeId_some hP hS hs₀, Orderly, hs]
    simp only [Option.mem_some_iff, forall_eq']
    rcases h₀ s₀ hs₀ with hzero | hend
    -- If no real file was given then, the sum is the position in the list of the driver.
    · by_cases hlt : i c₀.pseudo + j s₀ < pseudoFiles.length
      · rw [if_pos hlt, if_pos (hin.2 hlt)]
        exact and_iff_right hzero
      · rw [if_neg hlt, if_neg (mt hin.1 hlt)]
        omega
    · have hlt : ¬i c₀.pseudo + j s₀ < pseudoFiles.length := by omega
      rw [if_neg hlt, if_neg (mt hin.1 hlt), hend]

/-- A restart at a place where the search was before, that succeeds, resumes the search exactly
    if the other position is where it was then. If the search started with a new context, and all
    restarts so far were orderly, this is so exactly if the restart is orderly, too. -/
theorem resumes_iff {l₁ l₂ : List (Action φ)} (h₁ : runs (step P S) c₁ l₁ = some c₀)
    (h₂ : runs (step P S) c₀ l₂ = some c)
    (htrue : (c.restartAt P S (c₀.getResumeId P S)).1 = true) :
    (Resumes P S c₀ (c.restartAt P S (c₀.getResumeId P S)).2 ↔ SamePlace pseudoFiles i j c₀ c) ∧
      ((∀ s ∈ c₁.searchContext, j s = 0) →
        AllSteps (step P S) (Orderly P pseudoFiles i j) c₁ (l₁ ++ l₂) →
          (Resumes P S c₀ (c.restartAt P S (c₀.getResumeId P S)).2 ↔
            Orderly P pseudoFiles i j c (.restartAt (c₀.getResumeId P S) : Action φ))) := by
  have hiff := resumes_iff_samePlace hP hS (isSome_runs h₂) htrue
  refine ⟨hiff, fun hnew hall => hiff.trans ?_⟩
  exact samePlace_iff_orderly hP hS (isSome_runs h₂)
    (inOrder_runs hP (fun s hs => .inl (hnew s hs)) hall.left h₁)

end cursors

/-- In a folder with two files of the driver and two real files, a search that gave three files,
    and was put back to the first real one, can be put back to where it was. -/
theorem resumes_iff_example :
    let P := SearchContext.listCursor PseudoFile.getFileName [.memory "a.txt", .memory "b.txt"]
    let S := SearchContext.listCursor id ["c.txt", "d.txt"]
    let c₀ : ResumableContext (Fin 3) (Fin 3) := ⟨2, some 1⟩
    let c : ResumableContext (Fin 3) (Fin 3) := ⟨2, some 0⟩
    Resumes P S c₀ (c.restartAt P S (c₀.getResumeId P S)).2 := by
  intro P S c₀ c
  have h₁ : runs (step P S) ⟨0, some 0⟩ [.nextFileInfo, .nextFileName, .nextFileInfo] =
    some c₀ := rfl
  have h₂ : runs (step P S) c₀ [.restartAt 2] = some c := rfl
  exact ((resumes_iff (SearchContext.isCursor_listCursor _ _ (by decide))
    (SearchContext.isCursor_listCursor _ _ (by decide)) h₁ h₂ (by decide)).2
      (by decide) (by decide)).2 (by decide)

/-- In a folder with a file of the driver and three real files, a search that gave two files, and
    is put back to the beginning, does not give the real file again that it gave. Put back to
    where it was after these two, it gives the file of the driver again, and skips a real one. -/
theorem not_resumes :
    let P := SearchContext.listCursor PseudoFile.getFileName [.memory "a.txt"]
    let S := SearchContext.listCursor id ["b.txt", "c.txt", "d.txt"]
    let c₀ : ResumableContext (Fin 2) (Fin 4) := ⟨0, some 0⟩
    let c₁ : ResumableContext (Fin 2) (Fin 4) := ⟨1, some 1⟩
    let c₂ := (c₁.restartAt P S (c₀.getResumeId P S)).2
    let c₃ := (c₂.restartAt P S (c₁.getResumeId P S)).2
    runs (step P S) c₀ [.nextFileInfo, .nextFileInfo] = some c₁ ∧
      (c₁.restartAt P S (c₀.getResumeId P S)).1 = true ∧ ¬Resumes P S c₀ c₂ ∧
      enumerate (hasMoreFiles P S) (nextFileName P S) 4 c₀ = ["a.txt", "b.txt", "c.txt", "d.txt"] ∧
      enumerate (hasMoreFiles P S) (nextFileName P S) 4 c₂ = ["a.txt", "c.txt", "d.txt"] ∧
      (c₂.restartAt P S (c₁.getResumeId P S)).1 = true ∧ ¬Resumes P S c₁ c₃ ∧
      enumerate (hasMoreFiles P S) (nextFileName P S) 4 c₁ = ["c.txt", "d.txt"] ∧
      enumerate (hasMoreFiles P S) (nextFileName P S) 4 c₃ = ["a.txt", "d.txt"] := by
  intro P S c₀ c₁ c₂ c₃
  have hP := SearchContext.isCursor_listCursor PseudoFile.getFileName [.memory "a.txt"] (by decide)
  have hS := SearchContext.isCursor_listCursor id ["b.txt", "c.txt", "d.txt"] (by decide)
  refine ⟨rfl, by decide, ?_, by decide, by decide, by decide, ?_, by decide, by decide⟩
  · intro h
    have hfiles := (resumes_iff_filesLeft hP hS).1 h
    exact absurd (congrArg (List.map (nameOf id)) hfiles) (by decide)
  · intro h
    have hfiles := (resumes_iff_filesLeft hP hS).1 h
    exact absurd (congrArg (List.map (nameOf id)) hfiles) (by decide)

end ResumableContext

end Raqet
