import Raqet.IScsi.Readers

/-!
# How often a block is written

A reader requests a block if it is neither stored nor in flight, and stores it
when the answer has arrived. It does not look at the evidence store again in
between, and does not know of the requests of other readers: a block that two
readers request at the same time is written twice.

What holds for any number of readers is that each of them stores a block at most
once; and that once a block is stored, the only ones to write it again are those
which were about to (`Pending`), at most once each (`writesOnceEach`). A single
reader writes a block once.
-/

namespace Raqet

open Java EvidenceStore

namespace IScsiBlockReader

variable {r r' : IScsiBlockReader} {s s' : Session} {a : Action} {k n : ℕ} {v : Except Exn Unit}

/-- The block that the step stores, and whether this succeeds. -/
def storeCall (r : IScsiBlockReader) (s : Session) : Action → Option (ℕ × Except Exn Unit)
  | .advance e =>
    match r.control with
    | .completeRequests _ keys =>
      if e.key ∈ keys then
        (r.requestsInFlight.lookup e.key).bind fun q =>
          if q.finished = true ∧ q.exception = none then
            some (e.key, (s.store.storeBlock e.io e.key q.buffer s.files).value)
          else none
      else none
    | _ => none
  | _ => none

/-- The block has been requested, or is about to be. -/
def Pending (r : IScsiBlockReader) (n : ℕ) : Prop :=
  n ∈ r.requestsInFlight ∨ r.control.target = some n

instance (r : IScsiBlockReader) (n : ℕ) : Decidable (Pending r n) := by
  unfold Pending
  infer_instance

/-- What is about to be requested has not been. -/
def Exclusive (r : IScsiBlockReader) : Prop :=
  ∀ n, r.control.target = some n → n ∉ r.requestsInFlight

/-- Turning to a new block to request, the reader finds it neither stored nor in flight. -/
theorem hasBlockBeenRequested_eq_false (h : r.hasBlockBeenRequested s n = false) :
    n ∉ r.requestsInFlight ∧ n ∉ s.store.bitmap := by
  simpa [hasBlockBeenRequested, containsBlock] using h

theorem mem_of_lookup {m : Finmap fun _ : ℕ => IScsiRead10Callback} {q : IScsiRead10Callback}
    (h : m.lookup n = some q) : n ∈ m := Finmap.mem_iff.2 ⟨q, h⟩

theorem Effect.exclusive (h : Effect r s a r' s') (hr : Exclusive r) : Exclusive r' := by
  cases h with
  | call blockNumber _ => exact fun n hn => by cases hn
  | move env control _ ht =>
    intro n hn
    rcases ht n hn with hn | hn
    exacts [hr n hn, (hasBlockBeenRequested_eq_false hn).1]
  | lookup env n _ => exact fun n hn => by cases hn
  | request env n command control _ _ _ ht =>
    intro m hm
    rw [ht] at hm
    cases hm
  | drop env q control _ _ _ _ ht =>
    intro m hm
    rw [ht] at hm
    cases hm
  | store env q control _ _ _ _ ht =>
    exact fun n hn hmem => hr n (ht n hn) (Finmap.mem_erase.1 hmem).2
  | finish n q outcome hq _ _ =>
    intro m hm hmem
    rcases Finmap.mem_insert.1 hmem with rfl | hmem
    exacts [hr m hm (mem_of_lookup hq), hr m hm hmem]

/-- Once a block is stored, a reader does not turn to it anew. -/
theorem Effect.pending (h : Effect r s a r' s') (hn : n ∈ s.store.bitmap) (hp : Pending r' n) :
    Pending r n := by
  cases h with
  | call blockNumber _ =>
    rcases hp with hp | hp
    · exact .inl hp
    · cases hp
  | move env control _ ht =>
    rcases hp with hp | hp
    · exact .inl hp
    · rcases ht n hp with hp | hp
      · exact .inr hp
      -- it only turns to a block that has not been requested
      · exact absurd hn (hasBlockBeenRequested_eq_false hp).2
  | lookup env m _ =>
    rcases hp with hp | hp
    · exact .inl hp
    · cases hp
  | request env m command control _ ht _ ht' =>
    rcases hp with hp | hp
    · rcases Finmap.mem_insert.1 hp with rfl | hp
      exacts [.inr ht, .inl hp]
    · rw [ht'] at hp
      cases hp
  | drop env q control _ _ _ _ ht =>
    rcases hp with hp | hp
    · exact .inl (Finmap.mem_erase.1 hp).2
    · rw [ht] at hp
      cases hp
  | store env q control _ _ _ _ ht =>
    rcases hp with hp | hp
    exacts [.inl (Finmap.mem_erase.1 hp).2, .inr (ht n hp)]
  | finish m q outcome hq _ _ =>
    rcases hp with hp | hp
    · rcases Finmap.mem_insert.1 hp with rfl | hp
      exacts [.inl (mem_of_lookup hq), .inl hp]
    · exact .inr hp

/-- Bits are never cleared. -/
theorem Effect.bitmap_subset (h : Effect r s a r' s') : s.store.bitmap ⊆ s'.store.bitmap := by
  rcases h.bitmap_cases with hb | ⟨env, q, -, -, -, -, hb⟩ <;> rw [hb]
  exact Finset.subset_insert _ _

/-- What is stored, and from which state of the thread. -/
theorem storeCall_eq_some (hc : r.storeCall s a = some (k, v)) :
    ∃ e caller keys q, a = .advance e ∧ r.control = .completeRequests caller keys ∧ e.key ∈ keys ∧
      r.requestsInFlight.lookup e.key = some q ∧ q.finished = true ∧ q.exception = none ∧
      k = e.key ∧ v = (s.store.storeBlock e.io e.key q.buffer s.files).value := by
  cases a with
  | advance e =>
    unfold storeCall at hc
    cases hctrl : r.control with
    | completeRequests caller keys =>
      rw [hctrl] at hc
      dsimp only at hc
      split_ifs at hc with hk
      obtain ⟨q, hq, hc⟩ := Option.bind_eq_some_iff.1 hc
      split_ifs at hc with hf
      rw [Option.some.injEq, Prod.mk.injEq] at hc
      exact ⟨e, caller, keys, q, rfl, rfl, hk, hq, hf.1, hf.2, hc.1.symm, hc.2.symm⟩
    | _ =>
      rw [hctrl] at hc
      cases hc
  | _ => cases hc

/-- The step that stores the block `k` takes it out of the requests in flight, and
    sets its bit if it succeeds. -/
theorem step_storeCall (hr : Exclusive r) (hc : r.storeCall s a = some (k, v))
    (h : step r s a = some (r', s')) :
    Pending r k ∧ ¬Pending r' k ∧ (v.isOk = true → k ∈ s'.store.bitmap) := by
  obtain ⟨e, caller, keys, q, rfl, hctrl, hk, hq, hf, hx, rfl, rfl⟩ := storeCall_eq_some hc
  have hmem := mem_of_lookup hq
  -- the block that is called for is not in flight, so it is not the one that is stored
  have htarget : ∀ keys', (Control.completeRequests caller keys').target ≠ some e.key := by
    intro keys' ht
    refine hr e.key ?_ hmem
    rw [hctrl]
    cases caller <;> exact ht
  rw [step, advance, hctrl] at h
  dsimp only at h
  rw [if_neg (Finset.ne_empty_of_mem hk), if_pos hk, Option.some.injEq, completeRequest, hq] at h
  dsimp only at h
  rw [if_pos hf, IScsiRead10Callback.complete, hx] at h
  dsimp only at h
  refine ⟨.inl hmem, ?_⟩
  cases hv : (s.store.storeBlock e.io e.key q.buffer s.files).value with
  | error x =>
    rw [hv] at h
    cases h
    refine ⟨?_, fun hok => by cases hok⟩
    rintro (hp | hp)
    · exact (Finmap.mem_erase.1 hp).1 rfl
    · cases hp
  | ok _ =>
    rw [hv] at h
    cases h
    constructor
    · rintro (hp | hp)
      · exact (Finmap.mem_erase.1 hp).1 rfl
      · exact htarget _ hp
    · intro _
      rcases storeBlock_cases s.store e.io e.key q.buffer s.files with ⟨x, he⟩ | ⟨x, j, -, he⟩ |
        ⟨j, -, he⟩ <;> rw [he] at hv ⊢
      · cases hv
      · cases hv
      · exact Finset.mem_insert_self _ _

/-- A step that sets the bit of a block leaves no request for it with the reader. -/
theorem Effect.not_pending (h : Effect r s a r' s') (hr : Exclusive r) (hn : n ∉ s.store.bitmap)
    (hn' : n ∈ s'.store.bitmap) : ¬Pending r' n := by
  cases h with
  | lookup env m _ =>
    rcases retrieveBlock_cases s.store env.io m s.files with ⟨e, he⟩ | ⟨b, -, -, he⟩ |
      ⟨k, -, -, -, -, he⟩ <;> rw [he] at hn' <;> exact absurd hn' hn
  | store env q control _ hq _ _ ht =>
    have hkey : n = env.key := by
      rcases storeBlock_cases s.store env.io env.key q.buffer s.files with ⟨e, he⟩ | ⟨e, k, -, he⟩ |
        ⟨k, -, he⟩ <;> rw [he] at hn'
      · exact absurd hn' hn
      · exact absurd hn' hn
      · exact (Finset.mem_insert.1 hn').resolve_right hn
    subst hkey
    rintro (hp | hp)
    · exact (Finmap.mem_erase.1 hp).1 rfl
    · exact hr _ (ht _ hp) (mem_of_lookup hq)
  | _ => exact absurd hn' hn

end IScsiBlockReader

open IScsiBlockReader

namespace Readers

variable {ι : Type*} [DecidableEq ι] {g₀ g g' : Readers ι} {i : ι} {a : ι × Action} {n : ℕ}

/-- `1` if the step is one in which the reader `i` stores the block `n`. -/
def stores (i : ι) (n : ℕ) (g : Readers ι) (a : ι × Action) : ℕ :=
  if a.1 = i ∧ ∃ v ∈ (g.readers i).storeCall g.session a.2, v.1 = n then 1 else 0

/-- `1` if the step is one in which the reader `i` stores the block `n`, and
    succeeds. -/
def storesDone (i : ι) (n : ℕ) (g : Readers ι) (a : ι × Action) : ℕ :=
  if a.1 = i ∧ ∃ v ∈ (g.readers i).storeCall g.session a.2, v.1 = n ∧ v.2.isOk then 1 else 0

/-- Once a block is stored, it is not written again. -/
def WritesOnce (ι : Type*) [DecidableEq ι] : Prop :=
  ∀ (g₀ g g' : Readers ι) (l l' : List (ι × Action)), Fresh g₀ →
    Transition.runs step g₀ l = some g → Transition.runs step g l' = some g' →
    ∀ n, g.session.store.containsBlock n = true → ∀ i, Transition.cost step (stores i n) g l' = 0

/-- Each reader stores a block at most once; once a block is stored, a reader
    writes it at most once more, and only if it was about to; and if there is only
    one reader, it is not written again. -/
def WritesOnceEach (ι : Type*) [DecidableEq ι] : Prop :=
  ∀ (g₀ g g' : Readers ι) (l l' : List (ι × Action)), Fresh g₀ →
    Transition.runs step g₀ l = some g → Transition.runs step g l' = some g' →
    ∀ n i, Transition.cost step (storesDone i n) g₀ l ≤ 1 ∧
      (g.session.store.containsBlock n = true →
        Transition.cost step (stores i n) g l' ≤ (if Pending (g.readers i) n then 1 else 0) ∧
          (Subsingleton ι → Transition.cost step (stores i n) g l' = 0))

/-! ## What a step costs -/

/-- `1` if the block has been requested by the reader `i`, or is about to be. -/
def pending (i : ι) (n : ℕ) (g : Readers ι) : ℕ := if Pending (g.readers i) n then 1 else 0

theorem exclusive_step (h : ∀ i, Exclusive (g.readers i)) (hs : step g a = some g') :
    ∀ i, Exclusive (g'.readers i) := by
  obtain ⟨r, heff, hr⟩ := step_eq_some hs
  exact forall_readers hr h (heff.exclusive (h a.1))

omit [DecidableEq ι] in
theorem exclusive_fresh (h : Fresh g) (i : ι) : Exclusive (g.readers i) := by
  obtain ⟨geometry, hi⟩ := h i
  rw [hi]
  exact fun n hn => by cases hn

theorem bitmap_step (hs : step g a = some g') :
    g.session.store.bitmap ⊆ g'.session.store.bitmap := by
  obtain ⟨r, heff, -⟩ := step_eq_some hs
  exact heff.bitmap_subset

/-- A reader does not turn anew to a block that is stored. -/
theorem pending_step (hn : n ∈ g.session.store.bitmap) (hs : step g a = some g') (i : ι)
    (hp : Pending (g'.readers i) n) : Pending (g.readers i) n := by
  obtain ⟨r, heff, hr⟩ := step_eq_some hs
  rw [hr] at hp
  by_cases hi : i = a.1
  · subst hi
    rw [Function.update_self] at hp
    exact heff.pending hn hp
  · rwa [Function.update_of_ne hi] at hp

/-- Storing a block is paid for with its request, and sets its bit if it succeeds. -/
theorem stores_step (h : ∀ i, Exclusive (g.readers i)) (hs : step g a = some g')
    {v : ℕ × Except Exn Unit} (hv : v ∈ (g.readers a.1).storeCall g.session a.2) :
    Pending (g.readers a.1) v.1 ∧ ¬Pending (g'.readers a.1) v.1 ∧
      (v.2.isOk = true → v.1 ∈ g'.session.store.bitmap) := by
  obtain ⟨⟨r, s⟩, hp, rfl⟩ := Option.map_eq_some_iff.1 hs
  dsimp only
  rw [Function.update_self]
  exact step_storeCall (h a.1) hv hp

/-- Once a block is stored, a write of it is paid for by its request. -/
theorem stores_add_pending_le (h : ∀ i, Exclusive (g.readers i)) (hn : n ∈ g.session.store.bitmap)
    (hs : step g a = some g') (i : ι) : stores i n g a + pending i n g' ≤ pending i n g := by
  have hmono := pending_step hn hs i
  rw [stores]
  split_ifs with hst
  · obtain ⟨rfl, v, hv, rfl⟩ := hst
    obtain ⟨h₁, h₂, -⟩ := stores_step h hs hv
    rw [pending, pending, if_neg h₂, if_pos h₁]
  · rw [Nat.zero_add, pending, pending]
    split_ifs with h₁ h₂
    exacts [le_rfl, absurd (hmono h₁) h₂, Nat.zero_le _, le_rfl]

/-- What a reader may still store of a block: once if it is not stored, and else
    once if it is pending. -/
def allowance (i : ι) (n : ℕ) (g : Readers ι) : ℕ :=
  if n ∈ g.session.store.bitmap then pending i n g else 1

omit [DecidableEq ι] in
theorem pending_le_one : pending i n g ≤ 1 := by
  rw [pending]
  split_ifs <;> decide

theorem storesDone_le_stores : storesDone i n g a ≤ stores i n g a := by
  rw [storesDone, stores]
  split_ifs with h₁ h₂
  · exact le_rfl
  · exact absurd ⟨h₁.1, h₁.2.imp fun v hv => ⟨hv.1, hv.2.1⟩⟩ h₂
  · exact Nat.zero_le _
  · exact le_rfl

/-- A successful write is paid out of the allowance. -/
theorem storesDone_add_allowance_le (h : ∀ i, Exclusive (g.readers i)) (hs : step g a = some g')
    (i : ι) : storesDone i n g a + allowance i n g' ≤ allowance i n g := by
  by_cases hn : n ∈ g.session.store.bitmap
  · have hle := stores_add_pending_le h hn hs i
    have hdone := storesDone_le_stores (i := i) (n := n) (g := g) (a := a)
    rw [allowance, allowance, if_pos hn, if_pos (bitmap_step hs hn)]
    omega
  · rw [allowance, allowance, if_neg hn, storesDone]
    split_ifs with hst hn' hn'
    · obtain ⟨rfl, v, hv, rfl, hok⟩ := hst
      rw [pending, if_neg (stores_step h hs hv).2.1]
    · obtain ⟨rfl, v, hv, rfl, hok⟩ := hst
      exact absurd ((stores_step h hs hv).2.2 hok) hn'
    · rw [Nat.zero_add]
      exact pending_le_one
    · exact le_rfl

/-! ## Whole runs -/

theorem exclusive_runs {l : List (ι × Action)} (h : Fresh g₀)
    (hg : Transition.runs step g₀ l = some g) : ∀ i, Exclusive (g.readers i) :=
  Transition.runs_induction (P := fun _ g => ∀ i, Exclusive (g.readers i)) (exclusive_fresh h)
    (fun _ _ _ _ _ h hs => exclusive_step h hs) hg

/-- If there is only one reader, a block that is stored is not pending. -/
theorem not_pending_runs [Subsingleton ι] {l : List (ι × Action)} (h : Fresh g₀)
    (hg : Transition.runs step g₀ l = some g) :
    ∀ n ∈ g.session.store.bitmap, ∀ i, ¬Pending (g.readers i) n := by
  refine (Transition.runs_induction (P := fun _ g => (∀ i, Exclusive (g.readers i)) ∧
    ∀ n ∈ g.session.store.bitmap, ∀ i, ¬Pending (g.readers i) n) ⟨exclusive_fresh h, ?_⟩ ?_ hg).2
  · intro n _ i hp
    obtain ⟨geometry, hi⟩ := h i
    rw [hi] at hp
    rcases hp with hp | hp <;> cases hp
  · rintro _ g a g' _ ⟨hexcl, hnot⟩ hs
    refine ⟨exclusive_step hexcl hs, fun n hn i hp => ?_⟩
    by_cases hold : n ∈ g.session.store.bitmap
    · exact hnot n hold i (pending_step hold hs i hp)
    · obtain ⟨r, heff, hr⟩ := step_eq_some hs
      rw [hr, Subsingleton.elim i a.1, Function.update_self] at hp
      exact heff.not_pending (hexcl a.1) hold hn hp

/-- Any number of readers write every block at most once each. -/
theorem writesOnceEach (ι : Type*) [DecidableEq ι] : WritesOnceEach ι := by
  intro g₀ g g' l l' hfresh hg hg' n i
  have hexcl := exclusive_runs hfresh hg
  constructor
  · have hcost : Transition.cost step (storesDone i n) g₀ l + allowance i n g ≤ allowance i n g₀ :=
      Transition.runs_potential (I := fun g : Readers ι => ∀ i, Exclusive (g.readers i))
        (fun _ _ _ h hs => exclusive_step h hs)
        (fun _ _ _ h hs => storesDone_add_allowance_le h hs i) hg (exclusive_fresh hfresh)
    have hle : allowance i n g₀ ≤ 1 := by
      rw [allowance]
      split_ifs
      exacts [pending_le_one, le_rfl]
    omega
  · intro hn
    rw [containsBlock_iff] at hn
    have hcost : Transition.cost step (stores i n) g l' + pending i n g' ≤ pending i n g :=
      Transition.runs_potential
        (I := fun g : Readers ι => (∀ i, Exclusive (g.readers i)) ∧ n ∈ g.session.store.bitmap)
        (fun _ _ _ h hs => ⟨exclusive_step h.1 hs, bitmap_step hs h.2⟩)
        (fun _ _ _ h hs => stores_add_pending_le h.1 h.2 hs i) hg' ⟨hexcl, hn⟩
    refine ⟨(Nat.le_add_right _ _).trans hcost, fun hone => ?_⟩
    rw [pending, pending, if_neg (not_pending_runs hfresh hg n hn i)] at hcost
    omega

/-- Two readers request the block, and get their answers; then, the first one stores it. -/
def bothRequested : List (Bool × Action) :=
  (requestBlock.map fun a => (false, a)) ++ (requestBlock.map fun a => (true, a)) ++
    [(false, .finish 0 (.good (.zeros 1))), (true, .finish 0 (.good (.zeros 1))), (false, go)]

/-- The second one stores it again. -/
theorem not_writesOnce_two : ¬WritesOnce Bool := by
  intro h
  have hrun : (Transition.runs step (byteReaders Bool) bothRequested).map (fun g =>
      (g.session.store.containsBlock 0, (Transition.runs step g [(true, go)]).isSome,
        Transition.cost step (stores true 0) g [(true, go)])) = some (true, true, 1) := by
    decide +kernel
  obtain ⟨g, hg, hval⟩ := Option.map_eq_some_iff.1 hrun
  rw [Prod.mk.injEq, Prod.mk.injEq] at hval
  obtain ⟨g', hg'⟩ := Option.isSome_iff_exists.1 hval.2.1
  have hzero := h _ g g' bothRequested [(true, go)] fresh_byteReaders hg hg' 0 hval.1 true
  rw [hval.2.2] at hzero
  cases hzero

end Readers

end Raqet
