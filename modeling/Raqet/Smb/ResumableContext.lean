import Raqet.Smb.SearchContext

/-!
# The context of a search

A `RaqetSearchContext` gives the files of the driver, with what it inherits
(`PseudoSearchContext`), and then those of the context that it wraps. Here both of these are
parameters, and the context can be restarted: by a number, which is the sum of both positions,
or by an information about a file.

* `enumerate_infos_ofRaqet` and `enumerate_names_ofRaqet`: with the methods of the driver, this
  is the context that the driver searches with;
* `resumes_iff_filesLeft`: a restart resumes a search exactly if it leaves the same files.
-/

namespace Raqet

open Java

/-- A `RaqetSearchContext`, by the states of what it inherits and of what it wraps. -/
structure ResumableContext (π σ : Type) where
  pseudo : π
  searchContext : Option σ

namespace ResumableContext

variable {ρ φ π σ : Type} (P : SearchContext PseudoFile φ π) (S : SearchContext ρ φ σ)
  (c : ResumableContext π σ)

/-- `getResumeId()`. -/
def getResumeId : ℤ :=
  match c.searchContext with
  | none => P.getResumeId c.pseudo
  | some s => toInt (P.getResumeId c.pseudo + S.getResumeId s)

/-- `hasMoreFiles()`. -/
def hasMoreFiles : Bool :=
  if P.hasMoreFiles c.pseudo then true
  else match c.searchContext with
    | none => false
    | some s => S.hasMoreFiles s

/-- `nextFileInfo(info)`. -/
def nextFileInfo : Option (Found ρ) × ResumableContext π σ :=
  if P.hasMoreFiles c.pseudo then
    let o := P.nextFileInfo c.pseudo
    (o.1.map .pseudo, { c with pseudo := o.2 })
  else match c.searchContext with
    | none => (none, c)
    | some s =>
      let o := S.nextFileInfo s
      (o.1.map .real, { c with searchContext := some o.2 })

/-- `nextFileName()`. -/
def nextFileName : Option String × ResumableContext π σ :=
  if P.hasMoreFiles c.pseudo then
    let o := P.nextFileName c.pseudo
    (o.1, { c with pseudo := o.2 })
  else match c.searchContext with
    | none => (none, c)
    | some s =>
      let o := S.nextFileName s
      (o.1, { c with searchContext := some o.2 })

/-- `restartAt(resumeId)`. -/
def restartAt (resumeId : ℤ) : Bool × ResumableContext π σ :=
  let o := P.restartAt c.pseudo resumeId
  let c := { c with pseudo := o.2 }
  if o.1 then (true, c)
  else match c.searchContext with
    | none => (false, c)
    | some s =>
      let o := S.restartAt s (toInt (resumeId - P.getResumeId c.pseudo))
      (o.1, { c with searchContext := some o.2 })

/-- `restartAt(info)`. -/
def restartAtFile (info : φ) : Bool × ResumableContext π σ :=
  let o := P.restartAtFile c.pseudo info
  let c := { c with pseudo := o.2 }
  if o.1 then (true, c)
  else match c.searchContext with
    | none => (false, c)
    | some s =>
      let o := S.restartAtFile s info
      (o.1, { c with searchContext := some o.2 })

/-- The calls that change a context. -/
inductive Action (φ : Type)
  | nextFileInfo
  | nextFileName
  | restartAt (resumeId : ℤ)
  | restartAtFile (info : φ)

/-- A call. -/
def step (c : ResumableContext π σ) : Action φ → Option (ResumableContext π σ)
  | .nextFileInfo => some (c.nextFileInfo P S).2
  | .nextFileName => some (c.nextFileName P S).2
  | .restartAt resumeId => some (c.restartAt P S resumeId).2
  | .restartAtFile info => some (c.restartAtFile P S info).2

/-! ## The contexts of the driver -/

section driver

variable {real : JavaFileDiskDriver ρ σ} {c : RaqetSearchContext σ}

/-- The context of a search of the driver. -/
def ofRaqet (c : RaqetSearchContext σ) : ResumableContext (RaqetSearchContext Empty) σ :=
  ⟨⟨none, c.pseudoList, c.index, c.donePseudoFiles⟩, c.searchContext⟩

theorem nextPseudoFileInfo_ofRaqet : (ofRaqet c).pseudo.nextPseudoFileInfo =
    (c.nextPseudoFileInfo.1, (ofRaqet c.nextPseudoFileInfo.2).pseudo) ∧
      c.nextPseudoFileInfo.2.searchContext = c.searchContext := by
  have hmore : (ofRaqet c).pseudo.hasMorePseudoFiles = c.hasMorePseudoFiles := rfl
  have hlist : (ofRaqet c).pseudo.pseudoList = c.pseudoList := rfl
  have hindex : (ofRaqet c).pseudo.index = c.index := rfl
  rw [RaqetSearchContext.nextPseudoFileInfo, RaqetSearchContext.nextPseudoFileInfo, hmore]
  simp only [hlist, hindex]
  cases c.pseudoList[(c.index + 1).toNat]? with
  | none => split_ifs <;> exact ⟨rfl, rfl⟩
  | some file =>
    dsimp only
    split_ifs <;> exact ⟨rfl, rfl⟩

theorem nextPseudoFileName_ofRaqet : (ofRaqet c).pseudo.nextPseudoFileName =
    (c.nextPseudoFileName.1, (ofRaqet c.nextPseudoFileName.2).pseudo) ∧
      c.nextPseudoFileName.2.searchContext = c.searchContext := by
  have hmore : (ofRaqet c).pseudo.hasMorePseudoFiles = c.hasMorePseudoFiles := rfl
  rw [RaqetSearchContext.nextPseudoFileName, RaqetSearchContext.nextPseudoFileName, hmore]
  dsimp only [ofRaqet]
  cases c.pseudoList[(c.index + 1).toNat]? with
  | none => split_ifs <;> exact ⟨rfl, rfl⟩
  | some file => split_ifs <;> exact ⟨rfl, rfl⟩

variable {S} {P : SearchContext PseudoFile φ (RaqetSearchContext Empty)}
  (hmore : P.hasMoreFiles = RaqetSearchContext.hasMorePseudoFiles)
  (hmore' : S.hasMoreFiles = real.hasMoreFiles)

include hmore hmore'

theorem hasMoreFiles_ofRaqet : (ofRaqet c).hasMoreFiles P S = c.hasMoreFiles real := by
  rw [hasMoreFiles, RaqetSearchContext.hasMoreFiles, hmore, hmore']
  rfl

/-- With the methods of the driver, the context of a search enumerates the same files. -/
theorem enumerate_infos_ofRaqet (hinfo : P.nextFileInfo = RaqetSearchContext.nextPseudoFileInfo)
    (hinfo' : S.nextFileInfo = real.nextFileInfo) (k : ℕ) :
    enumerate (hasMoreFiles P S) (nextFileInfo P S) k (ofRaqet c) =
      enumerate (RaqetSearchContext.hasMoreFiles real) (RaqetSearchContext.nextFileInfo real)
        k c := by
  refine enumerate_comp ofRaqet (fun c => hasMoreFiles_ofRaqet hmore hmore') (fun c => ?_) k c
  obtain ⟨hnext, hcontext⟩ := nextPseudoFileInfo_ofRaqet (c := c)
  have hpseudo : (ofRaqet c).pseudo.hasMorePseudoFiles = c.hasMorePseudoFiles := rfl
  rw [nextFileInfo, RaqetSearchContext.nextFileInfo, hmore, hinfo, hinfo', hpseudo, hnext]
  split_ifs
  · rw [ofRaqet, ofRaqet, hcontext]
  · cases hs : c.searchContext with
    | none => simp [ofRaqet, hs]
    | some s => simp [ofRaqet, hs]

theorem enumerate_names_ofRaqet (hname : P.nextFileName = RaqetSearchContext.nextPseudoFileName)
    (hname' : S.nextFileName = real.nextFileName) (k : ℕ) :
    enumerate (hasMoreFiles P S) (nextFileName P S) k (ofRaqet c) =
      enumerate (RaqetSearchContext.hasMoreFiles real) (RaqetSearchContext.nextFileName real)
        k c := by
  refine enumerate_comp ofRaqet (fun c => hasMoreFiles_ofRaqet hmore hmore') (fun c => ?_) k c
  obtain ⟨hnext, hcontext⟩ := nextPseudoFileName_ofRaqet (c := c)
  have hpseudo : (ofRaqet c).pseudo.hasMorePseudoFiles = c.hasMorePseudoFiles := rfl
  rw [nextFileName, RaqetSearchContext.nextFileName, hmore, hname, hname', hpseudo, hnext]
  split_ifs
  · rw [ofRaqet, ofRaqet, hcontext]
  · cases hs : c.searchContext with
    | none => simp [ofRaqet, hs]
    | some s => simp [ofRaqet, hs]

end driver

/-- Enumerating the second context to the end yields what enumerating the first one does. -/
structure Resumes (c₀ c : ResumableContext π σ) : Prop where
  infos : ∃ l, Yields (hasMoreFiles P S) (nextFileInfo P S) c₀ l ∧
    Yields (hasMoreFiles P S) (nextFileInfo P S) c l
  names : ∃ l, Yields (hasMoreFiles P S) (nextFileName P S) c₀ l ∧
    Yields (hasMoreFiles P S) (nextFileName P S) c l

/-! ## What is still to come -/

variable {P S} {c c₀ c₁ : ResumableContext π σ} {left : π → List PseudoFile}
  {left' : σ → List ρ} {fileName : ρ → String} {α : Type}

/-- The name of a file. -/
def nameOf (fileName : ρ → String) : Found ρ → String
  | .pseudo file => file.getFileName
  | .real file => fileName file

/-- The files that are left, those of the driver before those of the wrapped context. -/
def rest (left : π → List PseudoFile) (left' : σ → List ρ) (c : ResumableContext π σ) :
    List (Found ρ) :=
  (left c.pseudo).map .pseudo ++ c.searchContext.elim [] fun s => (left' s).map .real

/-- The next file of the inherited context, or else of the wrapped one. -/
def nextOf (hasMore : π → Bool) (nextPseudo : π → Option α × π) (nextReal : σ → Option α × σ)
    (c : ResumableContext π σ) : Option α × ResumableContext π σ :=
  if hasMore c.pseudo then
    let o := nextPseudo c.pseudo
    (o.1, { c with pseudo := o.2 })
  else match c.searchContext with
    | none => (none, c)
    | some s =>
      let o := nextReal s
      (o.1, { c with searchContext := some o.2 })

theorem nextFileInfo_eq : nextFileInfo P S = nextOf P.hasMoreFiles
    (fun p => ((P.nextFileInfo p).1.map .pseudo, (P.nextFileInfo p).2))
    (fun s => ((S.nextFileInfo s).1.map .real, (S.nextFileInfo s).2)) :=
  rfl

theorem nextFileName_eq :
    nextFileName P S = nextOf P.hasMoreFiles P.nextFileName S.nextFileName :=
  rfl

theorem stepsThrough_nextOf {f : Found ρ → α} {nextPseudo : π → Option α × π}
    {nextReal : σ → Option α × σ}
    (hP : StepsThrough P.hasMoreFiles nextPseudo (fun file => f (.pseudo file)) left)
    (hS : StepsThrough S.hasMoreFiles nextReal (fun file => f (.real file)) left') :
    StepsThrough (hasMoreFiles P S) (nextOf P.hasMoreFiles nextPseudo nextReal) f
      (rest left left') := by
  -- In each part: files of the driver are left, or none are, and a context is wrapped or not.
  constructor
  · intro c
    rw [hasMoreFiles, rest, hP.hasMore_eq]
    cases left c.pseudo with
    | nil =>
      cases hs : c.searchContext with
      | none => rfl
      | some s => simp [hS.hasMore_eq]
    | cons file files => rfl
  · intro c
    rw [nextOf, rest, hP.hasMore_eq]
    cases hfiles : left c.pseudo with
    | nil =>
      cases hs : c.searchContext with
      | none => rfl
      | some s => simp [hS.next_fst, Function.comp_def]
    | cons file files => simp [hP.next_fst, hfiles]
  · intro c
    rw [nextOf, hP.hasMore_eq]
    cases hfiles : left c.pseudo with
    | nil =>
      cases hs : c.searchContext with
      | none => simp [rest, hfiles, hs]
      | some s => simp [rest, hfiles, hs, hS.rest_next]
    | cons file files => simp [rest, hfiles, hP.rest_next]

variable {pseudoFiles : List PseudoFile} {realFiles : List ρ} {i : π → ℕ} {j : σ → ℕ}

/-- The files that are left, if both contexts are cursors. -/
abbrev filesLeft (pseudoFiles : List PseudoFile) (realFiles : List ρ) (i : π → ℕ) (j : σ → ℕ) :
    ResumableContext π σ → List (Found ρ) :=
  rest (fun p => pseudoFiles.drop (i p)) fun s => realFiles.drop (j s)

section cursors

variable (hP : P.IsCursor PseudoFile.getFileName pseudoFiles i)
  (hS : S.IsCursor fileName realFiles j)

include hP hS

theorem stepsThrough_infos : StepsThrough (hasMoreFiles P S) (nextFileInfo P S) id
    (filesLeft pseudoFiles realFiles i j) := by
  rw [nextFileInfo_eq]
  refine stepsThrough_nextOf (hP.stepsThrough fun p => ?_) (hS.stepsThrough fun s => ?_)
  · exact ⟨congrArg (Option.map Found.pseudo) (hP.nextFileInfo p).1, (hP.nextFileInfo p).2⟩
  · exact ⟨congrArg (Option.map Found.real) (hS.nextFileInfo s).1, (hS.nextFileInfo s).2⟩

theorem stepsThrough_names : StepsThrough (hasMoreFiles P S) (nextFileName P S) (nameOf fileName)
    (filesLeft pseudoFiles realFiles i j) :=
  stepsThrough_nextOf (hP.stepsThrough hP.nextFileName) (hS.stepsThrough hS.nextFileName)

/-- A restart resumes the search exactly if it leaves the same files. -/
theorem resumes_iff_filesLeft : Resumes P S c₀ c ↔
    filesLeft pseudoFiles realFiles i j c₀ = filesLeft pseudoFiles realFiles i j c := by
  constructor
  · intro h
    obtain ⟨l, h₀, hl⟩ := h.infos
    rw [(stepsThrough_infos hP hS).yields_iff, List.map_id] at h₀ hl
    exact h₀.trans hl.symm
  · intro h
    refine ⟨⟨_, (stepsThrough_infos hP hS).yields_iff.2 rfl, ?_⟩,
      ⟨_, (stepsThrough_names hP hS).yields_iff.2 rfl, ?_⟩⟩
    · rw [(stepsThrough_infos hP hS).yields_iff, h]
    · rw [(stepsThrough_names hP hS).yields_iff, h]

end cursors

end ResumableContext

end Raqet
