import Mathlib.Data.List.Induction
import Mathlib.Data.Nat.Notation

/-!
# Runs of transition systems

A transition system is a partial function `step : σ → α → Option σ`: an action
is either not enabled in a state, or takes it to one next state. What the
program does not decide (outcomes, interleavings) is part of the action. A run
is a list of enabled actions, one after the other (`runs`).

* `runs_induction`: what holds at first and is preserved by every step of the
  run, given the actions so far, holds at the end;
* `runs_invariant`: the same for a property of the state alone, when every
  action of the run satisfies `P` in the state where it is taken;
* `throughout_iff`, `throughout_iff_of`: a property that the steps satisfying `P` preserve,
  and all other steps break, holds in all states of a run exactly when all its steps
  satisfy `P`;
* `runs_dichotomy`: if the other steps break the invariant for good, the end of the run
  tells whether there was one;
* `runs_simulation`: a relation to an abstract state that every step keeps, when
  the abstract state takes the same action, relates the ends of a whole run;
* `runs_potential`, `runs_budget`: a quantity that every step pays from, and may add an
  income to, bounds the cost of a whole run.
-/

namespace Transition

variable {σ α : Type*} (step : σ → α → Option σ)

/-- The state after the actions `l`, from `s`; none if one is not enabled. -/
def runs (s : σ) : List α → Option σ
  | [] => some s
  | a :: l => (step s a).bind fun t => runs t l

variable {step} {s t u : σ} {a : α} {l l' : List α}

theorem runs_cons :
    runs step s (a :: l) = some u ↔ ∃ t, step s a = some t ∧ runs step t l = some u :=
  Option.bind_eq_some_iff

theorem runs_append :
    runs step s (l ++ l') = some u ↔ ∃ t, runs step s l = some t ∧ runs step t l' = some u := by
  induction l generalizing s with
  | nil => simp [runs]
  | cons a l ih =>
    simp only [List.cons_append, runs_cons, ih]
    constructor
    · rintro ⟨v, hv, t, ht, hu⟩
      exact ⟨t, ⟨v, hv, ht⟩, hu⟩
    · rintro ⟨t, ⟨v, hv, ht⟩, hu⟩
      exact ⟨v, hv, t, ht, hu⟩

theorem runs_concat :
    runs step s (l ++ [a]) = some u ↔ ∃ t, runs step s l = some t ∧ step t a = some u := by
  rw [runs_append]
  simp [runs]

/-- Induction along a run, on its actions so far and the state they lead to. -/
theorem runs_induction {P : List α → σ → Prop} (nil : P [] s)
    (concat : ∀ l t a u, runs step s l = some t → P l t → step t a = some u → P (l ++ [a]) u)
    (h : runs step s l = some t) : P l t := by
  induction l using List.reverseRecOn generalizing t with
  | nil =>
    cases h
    exact nil
  | append_singleton l a ih =>
    obtain ⟨v, hv, ha⟩ := runs_concat.1 h
    exact concat l v a t hv (ih hv) ha

variable (step) in
/-- Every action of the run `l` from `s` satisfies `P` in the state where it is taken. -/
def AllSteps (P : σ → α → Prop) (s : σ) : List α → Prop
  | [] => True
  | a :: l => P s a ∧ ∀ t, step s a = some t → AllSteps P t l

/-- A property that the steps satisfying `P` preserve is an invariant of the
    runs of such steps. -/
theorem runs_invariant {P : σ → α → Prop} {I : σ → Prop}
    (hI : ∀ s a t, P s a → I s → step s a = some t → I t)
    (h : runs step s l = some t) (hP : AllSteps step P s l) (hs : I s) : I t := by
  induction l generalizing s with
  | nil =>
    cases h
    exact hs
  | cons a l ih =>
    obtain ⟨v, hv, hl⟩ := runs_cons.1 h
    exact ih hl (hP.2 v hv) (hI s a v hP.1 hs hv)

section append

variable {P : σ → α → Prop}

/-- A run of such steps, followed by one of such steps. -/
theorem AllSteps.append (hP : AllSteps step P s l)
    (hP' : ∀ t, runs step s l = some t → AllSteps step P t l') : AllSteps step P s (l ++ l') := by
  induction l generalizing s with
  | nil => exact hP' s rfl
  | cons a l ih =>
    exact ⟨hP.1, fun t ht => ih (hP.2 t ht) fun u hu => hP' u (runs_cons.2 ⟨t, ht, hu⟩)⟩

/-- Every beginning of a run of such steps is one. -/
theorem AllSteps.left (hP : AllSteps step P s (l ++ l')) : AllSteps step P s l := by
  induction l generalizing s with
  | nil => trivial
  | cons a l ih => exact ⟨hP.1, fun t ht => ih (hP.2 t ht)⟩

/-- So is the rest of it. -/
theorem AllSteps.right (hP : AllSteps step P s (l ++ l')) (h : runs step s l = some t) :
    AllSteps step P t l' := by
  induction l generalizing s with
  | nil =>
    cases h
    exact hP
  | cons a l ih =>
    obtain ⟨v, hv, hl⟩ := runs_cons.1 h
    exact ih (hP.2 v hv) hl

end append

theorem AllSteps.and {P Q : σ → α → Prop} (hP : AllSteps step P s l) (hQ : AllSteps step Q s l) :
    AllSteps step (fun s a => P s a ∧ Q s a) s l := by
  induction l generalizing s with
  | nil => trivial
  | cons a l ih => exact ⟨⟨hP.1, hQ.1⟩, fun t ht => ih (hP.2 t ht) (hQ.2 t ht)⟩

theorem AllSteps.of_forall {P : σ → α → Prop} (hP : ∀ s, ∀ a ∈ l, P s a) : AllSteps step P s l := by
  induction l generalizing s with
  | nil => trivial
  | cons a l ih =>
    exact ⟨hP s a List.mem_cons_self,
      fun t _ => ih fun s b hb => hP s b (List.mem_cons_of_mem a hb)⟩

instance AllSteps.decidable {P : σ → α → Prop} [∀ s a, Decidable (P s a)] :
    ∀ (l : List α) (s : σ), Decidable (AllSteps step P s l)
  | [], _ => .isTrue trivial
  | a :: l, s =>
    have : ∀ t, Decidable (AllSteps step P t l) := AllSteps.decidable l
    inferInstanceAs (Decidable (P s a ∧ ∀ t ∈ step s a, AllSteps step P t l))

variable (step) in
/-- All states of the run `l` from `s` satisfy `Q`. -/
def Throughout (Q : σ → Prop) (s : σ) : List α → Prop
  | [] => Q s
  | a :: l => Q s ∧ ∀ t, step s a = some t → Throughout Q t l

instance Throughout.decidable {Q : σ → Prop} [DecidablePred Q] :
    ∀ (l : List α) (s : σ), Decidable (Throughout step Q s l)
  | [], s => inferInstanceAs (Decidable (Q s))
  | a :: l, s =>
    have : ∀ t, Decidable (Throughout step Q t l) := Throughout.decidable l
    inferInstanceAs (Decidable (Q s ∧ ∀ t ∈ step s a, Throughout step Q t l))

theorem Throughout.first {Q : σ → Prop} (h : Throughout step Q s l) : Q s := by
  cases l with
  | nil => exact h
  | cons a l => exact h.1

theorem Throughout.last {Q : σ → Prop} (h : Throughout step Q s l) (ht : runs step s l = some t) :
    Q t := by
  induction l generalizing s with
  | nil =>
    cases ht
    exact h
  | cons a l ih =>
    obtain ⟨v, hv, hl⟩ := runs_cons.1 ht
    exact ih (h.2 v hv) hl

/-- What holds in all states of a run holds where its steps are taken. -/
theorem Throughout.allSteps {Q : σ → Prop} (h : Throughout step Q s l) :
    AllSteps step (fun s _ => Q s) s l := by
  induction l generalizing s with
  | nil => trivial
  | cons a l ih => exact ⟨h.1, fun t ht => ih (h.2 t ht)⟩

/-- It holds in all states of the rest of the run. -/
theorem Throughout.right {Q : σ → Prop} (h : Throughout step Q s (l ++ l'))
    (ht : runs step s l = some t) : Throughout step Q t l' := by
  induction l generalizing s with
  | nil =>
    cases ht
    exact h
  | cons a l ih =>
    obtain ⟨v, hv, hl⟩ := runs_cons.1 ht
    exact ih (h.2 v hv) hl

/-- In a run whose steps satisfy `R`: if a step from a state that satisfies the invariant
    `I` satisfies `P` exactly when it leads to a state that satisfies `Q`, where `I` holds
    again, then `Q` holds in all states exactly when all steps satisfy `P`. -/
theorem throughout_iff_of {P R : σ → α → Prop} {I Q : σ → Prop} (hQ : ∀ s, I s → Q s)
    (hI : ∀ s a t, R s a → I s → step s a = some t → P s a → I t)
    (hP : ∀ s a t, R s a → I s → step s a = some t → Q t → P s a)
    (h : runs step s l = some t) (hR : AllSteps step R s l) (hs : I s) :
    Throughout step Q s l ↔ AllSteps step P s l := by
  induction l generalizing s with
  | nil => exact iff_of_true (hQ s hs) trivial
  | cons a l ih =>
    obtain ⟨v, hv, hl⟩ := runs_cons.1 h
    obtain ⟨ha, hR⟩ := hR
    simp only [Throughout, AllSteps, hv, Option.some.injEq, forall_eq']
    constructor
    · rintro ⟨-, hthrough⟩
      have hPa : P s a := hP s a v ha hs hv hthrough.first
      exact ⟨hPa, (ih hl (hR v hv) (hI s a v ha hs hv hPa)).1 hthrough⟩
    · rintro ⟨hPa, hall⟩
      exact ⟨hQ s hs, (ih hl (hR v hv) (hI s a v ha hs hv hPa)).2 hall⟩

theorem throughout_iff {P : σ → α → Prop} {I Q : σ → Prop} (hQ : ∀ s, I s → Q s)
    (hI : ∀ s a t, I s → step s a = some t → P s a → I t)
    (hP : ∀ s a t, I s → step s a = some t → Q t → P s a)
    (h : runs step s l = some t) (hs : I s) : Throughout step Q s l ↔ AllSteps step P s l :=
  throughout_iff_of (R := fun _ _ => True) hQ (fun s a t _ => hI s a t) (fun s a t _ => hP s a t) h
    (.of_forall fun _ _ _ => trivial) hs

/-- If the steps satisfying `P` keep the invariant `I`, and every other step breaks it for
    good, into `J`, the end of a run tells whether all its steps satisfied `P`. -/
theorem runs_dichotomy {P : σ → α → Prop} {I J : σ → Prop}
    (hI : ∀ s a t, I s → step s a = some t → P s a → I t)
    (hbreak : ∀ s a t, I s → step s a = some t → ¬P s a → J t)
    (hJ : ∀ s a t, J s → step s a = some t → J t) (h : runs step s l = some t) (hs : I s) :
    (AllSteps step P s l ∧ I t) ∨ (¬AllSteps step P s l ∧ J t) := by
  induction l generalizing s with
  | nil =>
    cases h
    exact .inl ⟨trivial, hs⟩
  | cons a l ih =>
    obtain ⟨v, hv, hl⟩ := runs_cons.1 h
    by_cases ha : P s a
    · rcases ih hl (hI s a v hs hv ha) with ⟨hall, ht⟩ | ⟨hall, ht⟩
      · exact .inl ⟨⟨ha, fun u hu => Option.some.inj (hv.symm.trans hu) ▸ hall⟩, ht⟩
      · exact .inr ⟨fun hP => hall (hP.2 v hv), ht⟩
    · have ht : J t := runs_invariant (P := fun _ _ => True) (fun s a t _ => hJ s a t) hl
        (.of_forall fun _ _ _ => trivial) (hbreak s a v hs hv ha)
      exact .inr ⟨fun hP => ha hP.1, ht⟩

/-- If two properties of steps are the same in states that satisfy the invariant `I`, they
    hold of the same runs. -/
theorem allSteps_iff {P Q : σ → α → Prop} {I : σ → Prop}
    (hI : ∀ s a t, I s → step s a = some t → P s a → I t) (hPQ : ∀ s a, I s → (Q s a ↔ P s a))
    (hs : I s) : AllSteps step Q s l ↔ AllSteps step P s l := by
  induction l generalizing s with
  | nil => exact Iff.rfl
  | cons a l ih =>
    rw [AllSteps, AllSteps, hPQ s a hs]
    exact and_congr_right fun ha => forall_congr' fun t => imp_congr_right fun ht =>
      ih (hI s a t hs ht ha)

/-- A relation `R` to an abstract state, which takes every action, is kept along a
    run of steps that satisfy `P`. -/
theorem runs_simulation {τ : Type*} {P : σ → α → Prop} {abs : τ → α → τ} {R : σ → τ → Prop} {x : τ}
    (hR : ∀ s x a t, P s a → R s x → step s a = some t → R t (abs x a))
    (h : runs step s l = some t) (hP : AllSteps step P s l) (hs : R s x) : R t (l.foldl abs x) := by
  induction l generalizing s x with
  | nil =>
    cases h
    exact hs
  | cons a l ih =>
    obtain ⟨v, hv, hl⟩ := runs_cons.1 h
    exact ih hl (hP.2 v hv) (hR s x a v hP.1 hs hv)

variable (step) in
/-- The sum of the weights of the steps of the run `l` from `s`. -/
def cost (w : σ → α → ℕ) (s : σ) : List α → ℕ
  | [] => 0
  | a :: l => w s a + (step s a).elim 0 fun t => cost w t l

/-- If every step of a system satisfying the invariant `I`, in a run of steps that satisfy
    `P`, pays its weight out of the potential `φ` and of an income, a run costs at most the
    potential it starts with and its whole income. -/
theorem runs_budget {P : σ → α → Prop} {I : σ → Prop} {φ : σ → ℕ} {w income : σ → α → ℕ}
    (hI : ∀ s a t, P s a → I s → step s a = some t → I t)
    (hφ : ∀ s a t, P s a → I s → step s a = some t → w s a + φ t ≤ φ s + income s a)
    (h : runs step s l = some t) (hP : AllSteps step P s l) (hs : I s) :
    cost step w s l + φ t ≤ φ s + cost step income s l := by
  induction l generalizing s with
  | nil =>
    cases h
    exact Nat.le_of_eq (Nat.add_comm _ _)
  | cons a l ih =>
    obtain ⟨v, hv, hl⟩ := runs_cons.1 h
    have h₁ := hφ s a v hP.1 hs hv
    have h₂ := ih hl (hP.2 v hv) (hI s a v hP.1 hs hv)
    rw [cost, cost, hv, Option.elim_some, Option.elim_some]
    omega

theorem cost_zero : cost step (fun _ _ => 0) s l = 0 := by
  induction l generalizing s with
  | nil => rfl
  | cons a l ih =>
    rw [cost, Nat.zero_add]
    cases step s a with
    | none => rfl
    | some t => exact ih

/-- If every step of a system satisfying the invariant `I` pays its weight out of
    the potential `φ`, a run costs at most the potential it starts with. -/
theorem runs_potential {I : σ → Prop} {φ : σ → ℕ} {w : σ → α → ℕ}
    (hI : ∀ s a t, I s → step s a = some t → I t)
    (hφ : ∀ s a t, I s → step s a = some t → w s a + φ t ≤ φ s)
    (h : runs step s l = some t) (hs : I s) : cost step w s l + φ t ≤ φ s := by
  have hle : cost step w s l + φ t ≤ φ s + cost step (fun _ _ => 0) s l :=
    runs_budget (P := fun _ _ => True) (fun s a t _ => hI s a t) (fun s a t _ => hφ s a t) h
      (.of_forall fun _ _ _ => trivial) hs
  rwa [cost_zero, Nat.add_zero] at hle

end Transition
