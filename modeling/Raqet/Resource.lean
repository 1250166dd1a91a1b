import Raqet.Transition

/-!
# Resources

A computation (`Comp`) acts on a state outside of the program, and records what it does
with the resources that it gets there: it acquires, uses and releases them. It returns,
throws an exception, or is still running: its loops are given a number of rounds.

The resources that are held are a stack (`step`): only what is held may be used, and only
what was acquired last may be released. `Holds pre m post thrown` says that the computation
`m`, started with the resources `pre`, keeps to that, and leaves `post` when it returns, and
`thrown` when it throws. The rules follow the ways in which computations are put together;
`Holds.withResource` is the one for a block that closes its resource however it ends.

* `Holds.balanced`: a computation that leaves what it found acquires every resource as often
  as it releases it.
-/

namespace Resource

variable {σ κ ε α β : Type}

/-- What is done with a resource. -/
inductive Event (κ : Type)
  | acquire (k : κ)
  | use (k : κ)
  | release (k : κ)
  deriving DecidableEq

/-- The resources that are held, the one acquired last first, after an event; none if it uses
    a resource that is not held, or releases one that was not acquired last. -/
def step [DecidableEq κ] (held : List κ) : Event κ → Option (List κ)
  | .acquire k => some (k :: held)
  | .use k => if k ∈ held then some held else none
  | .release k => if held.head? = some k then some held.tail else none

/-- What a computation did. -/
structure Outcome (σ κ ε α : Type) where
  events : List (Event κ)
  /-- None if it is still running. -/
  result : Option (Except ε α)
  state : σ

/-- A computation on a state outside of the program. -/
def Comp (σ κ ε α : Type) := σ → Outcome σ κ ε α

namespace Comp

def pure (a : α) : Comp σ κ ε α := fun s => ⟨[], some (.ok a), s⟩

def throw (e : ε) : Comp σ κ ε α := fun s => ⟨[], some (.error e), s⟩

/-- The computation does not end in the rounds that it is given. -/
def running : Comp σ κ ε α := fun s => ⟨[], none, s⟩

def bind (m : Comp σ κ ε α) (f : α → Comp σ κ ε β) : Comp σ κ ε β := fun s =>
  let o := m s
  match o.result with
  | some (.ok a) =>
    let o' := f a o.state
    ⟨o.events ++ o'.events, o'.result, o'.state⟩
  | some (.error e) => ⟨o.events, some (.error e), o.state⟩
  | none => ⟨o.events, none, o.state⟩

instance : Monad (Comp σ κ ε) where
  pure := pure
  bind := bind

/-- A call to the outside, which does something with resources. -/
def call (events : α → List (Event κ)) (f : σ → α × σ) : Comp σ κ ε α := fun s =>
  ⟨events (f s).1, some (.ok (f s).1), (f s).2⟩

/-- A call that uses these resources. -/
def callUsing (ks : List κ) (f : σ → α × σ) : Comp σ κ ε α := call (fun _ => ks.map .use) f

/-- A computation whose exceptions are caught if they have a handler. -/
def catching (m : Comp σ κ ε α) (handler : ε → Option (Comp σ κ ε α)) : Comp σ κ ε α := fun s =>
  let o := m s
  match o.result with
  | some (.error e) =>
    match handler e with
    | some h =>
      let o' := h o.state
      ⟨o.events ++ o'.events, o'.result, o'.state⟩
    | none => o
  | _ => o

/-- A computation that is closed however it ends. An exception of the close is suppressed by
    one of the computation. -/
def closing (m : Comp σ κ ε α) (close : Comp σ κ ε Unit) : Comp σ κ ε α := fun s =>
  let o := m s
  match o.result with
  | none => o
  | some r =>
    let o' := close o.state
    ⟨o.events ++ o'.events,
      o'.result.map fun closed => r.bind fun a => closed.map fun _ => a, o'.state⟩

/-- A computation on a part of the state. -/
def lift {τ : Type} (m : Comp σ κ ε α) : Comp (σ × τ) κ ε α := fun s =>
  let o := m s.1
  ⟨o.events, o.result, (o.state, s.2)⟩

/-- A computation with a variable of its own, which it returns at the end. -/
def withLocal {τ : Type} (x : τ) (m : Comp (σ × τ) κ ε Unit) : Comp σ κ ε τ := fun s =>
  let o := m (s, x)
  ⟨o.events, o.result.map fun r => r.map fun _ => o.state.2, o.state.1⟩

/-- A block with a resource. -/
def withResource (acquire : Comp σ κ ε α) (close : α → Comp σ κ ε Unit)
    (body : α → Comp σ κ ε β) : Comp σ κ ε β :=
  acquire >>= fun a => closing (body a) (close a)

end Comp

/-! ## Results -/

/-- From the state `s`, the computation ends with the result `r` in the state `t`. -/
def Comp.Returns (m : Comp σ κ ε α) (s : σ) (r : Except ε α) (t : σ) : Prop :=
  (m s).result = some r ∧ (m s).state = t

section returns

variable {m : Comp σ κ ε α} {s t : σ} {r : Except ε α} {r' : Except ε β}

theorem returns_pure {a : α} :
    (pure a : Comp σ κ ε α).Returns s r t ↔ r = .ok a ∧ t = s := by
  change some (Except.ok a) = some r ∧ s = t ↔ _
  rw [Option.some.injEq, eq_comm, @eq_comm _ s]

theorem returns_throw {e : ε} :
    (Comp.throw e : Comp σ κ ε α).Returns s r t ↔ r = .error e ∧ t = s := by
  change some (Except.error e) = some r ∧ s = t ↔ _
  rw [Option.some.injEq, eq_comm, @eq_comm _ s]

theorem returns_call {events : α → List (Event κ)} {f : σ → α × σ} :
    (Comp.call events f : Comp σ κ ε α).Returns s r t ↔ r = .ok (f s).1 ∧ t = (f s).2 := by
  change some (Except.ok (f s).1) = some r ∧ (f s).2 = t ↔ _
  rw [Option.some.injEq, eq_comm, @eq_comm _ t]

/-- A sequence ends with its second part, or with an exception of the first. -/
theorem Comp.Returns.bind {f : α → Comp σ κ ε β} (h : (m >>= f).Returns s r' t) :
    (∃ a u, m.Returns s (.ok a) u ∧ (f a).Returns u r' t) ∨
    ∃ e, m.Returns s (.error e) t ∧ r' = .error e := by
  change (Comp.bind m f s).result = some r' ∧ (Comp.bind m f s).state = t at h
  rw [Comp.bind] at h
  cases hr : (m s).result with
  | none =>
    rw [hr] at h
    cases h.1
  | some x =>
    rw [hr] at h
    cases x with
    | ok a => exact .inl ⟨a, _, ⟨hr, rfl⟩, h⟩
    | error e =>
      obtain ⟨rfl⟩ := h.1
      exact .inr ⟨e, ⟨hr, h.2⟩, rfl⟩

/-- An exception goes through if it has no handler. -/
theorem Comp.Returns.catching {handler : ε → Option (Comp σ κ ε α)}
    (h : (m.catching handler).Returns s r t) :
    (m.Returns s r t ∧ ∀ e, r = .error e → handler e = none) ∨
    ∃ e k u, m.Returns s (.error e) u ∧ handler e = some k ∧ k.Returns u r t := by
  rw [Returns, Comp.catching] at h
  cases hr : (m s).result with
  | none =>
    rw [hr] at h
    cases hr.symm.trans h.1
  | some x =>
    rw [hr] at h
    cases x with
    | ok a =>
      obtain ⟨rfl⟩ := Option.some.inj (hr.symm.trans h.1)
      exact .inl ⟨⟨hr, h.2⟩, fun e he => by cases he⟩
    | error e =>
      dsimp only at h
      cases hk : handler e with
      | none =>
        rw [hk] at h
        obtain ⟨rfl⟩ := Option.some.inj (hr.symm.trans h.1)
        exact .inl ⟨⟨hr, h.2⟩, fun e' he => by cases he; exact hk⟩
      | some k =>
        rw [hk] at h
        exact .inr ⟨e, k, _, ⟨hr, rfl⟩, hk, h⟩

/-- The close comes after the computation. -/
theorem Comp.Returns.closing {close : Comp σ κ ε Unit} (h : (m.closing close).Returns s r t) :
    ∃ x u c, m.Returns s x u ∧ close.Returns u c t ∧ r = x.bind fun a => c.map fun _ => a := by
  rw [Returns, Comp.closing] at h
  cases hr : (m s).result with
  | none =>
    rw [hr] at h
    cases hr.symm.trans h.1
  | some x =>
    rw [hr] at h
    obtain ⟨c, hc, hrc⟩ := Option.map_eq_some_iff.1 h.1
    exact ⟨x, _, c, ⟨hr, rfl⟩, ⟨hc, h.2⟩, hrc.symm⟩

/-- A block with a resource throws without it, or ends with its body and the close. -/
theorem Comp.Returns.withResource {acquire : Comp σ κ ε α} {close : α → Comp σ κ ε Unit}
    {body : α → Comp σ κ ε β} (h : (Comp.withResource acquire close body).Returns s r' t) :
    (∃ e, acquire.Returns s (.error e) t ∧ r' = .error e) ∨
    ∃ a u x v c, acquire.Returns s (.ok a) u ∧ (body a).Returns u x v ∧
      (close a).Returns v c t ∧ r' = x.bind fun b => c.map fun _ => b := by
  rcases Comp.Returns.bind h with ⟨a, u, ha, h⟩ | h
  · obtain ⟨x, v, c, hx, hc, hr⟩ := h.closing
    exact .inr ⟨a, u, x, v, c, ha, hx, hc, hr⟩
  · exact .inl h

theorem returns_lift {τ : Type} {s t : σ × τ} :
    (m.lift : Comp (σ × τ) κ ε α).Returns s r t ↔ m.Returns s.1 r t.1 ∧ t.2 = s.2 := by
  rw [Comp.Returns, Comp.Returns, Comp.lift, Prod.ext_iff, and_assoc, @eq_comm _ s.2]

theorem Comp.Returns.withLocal {τ : Type} {x : τ} {m : Comp (σ × τ) κ ε Unit}
    {r : Except ε τ} (h : (Comp.withLocal x m).Returns s r t) :
    ∃ r' y, m.Returns (s, x) r' (t, y) ∧ r = r'.map fun _ => y := by
  obtain ⟨hr, ht⟩ := h
  obtain ⟨r', hr', hrr'⟩ := Option.map_eq_some_iff.1 hr
  exact ⟨r', _, ⟨hr', Prod.ext ht rfl⟩, hrr'.symm⟩

end returns

/-! ## Rules -/

variable [DecidableEq κ] {pre held thrown closed : List κ} {post : α → List κ}
  {q : β → List κ} {m : Comp σ κ ε α} {k : κ} {s : σ}

/-- From the resources `pre`, what was done uses and releases resources in turn, and leaves
    `post` if it returned, and `thrown` if it threw. -/
inductive Ends (pre : List κ) (o : Outcome σ κ ε α) (post : α → List κ) (thrown : List κ) : Prop
  | returned (a : α) (result : o.result = some (.ok a))
    (events : Transition.runs step pre o.events = some (post a)) : Ends pre o post thrown
  | threw (e : ε) (result : o.result = some (.error e))
    (events : Transition.runs step pre o.events = some thrown) : Ends pre o post thrown
  | running (held : List κ) (result : o.result = none)
    (events : Transition.runs step pre o.events = some held) : Ends pre o post thrown

/-- So does the computation, whatever the state outside of the program is. -/
def Holds (pre : List κ) (m : Comp σ κ ε α) (post : α → List κ) (thrown : List κ) : Prop :=
  ∀ s, Ends pre (m s) post thrown

theorem holds_pure {a : α} (h : held = post a) :
    Holds held (pure a : Comp σ κ ε α) post thrown := fun _ =>
  .returned a rfl (congrArg some h)

theorem holds_throw (e : ε) : Holds held (Comp.throw e : Comp σ κ ε α) post held := fun _ =>
  .threw e rfl rfl

theorem holds_running : Holds held (Comp.running : Comp σ κ ε α) post thrown := fun _ =>
  .running held rfl rfl

theorem holds_call {events : α → List (Event κ)} {f : σ → α × σ}
    (h : ∀ a, Transition.runs step pre (events a) = some (post a)) :
    Holds pre (Comp.call events f : Comp σ κ ε α) post thrown := fun s =>
  .returned (f s).1 rfl (h (f s).1)

theorem runs_use {ks : List κ} (h : ∀ k ∈ ks, k ∈ held) :
    Transition.runs step held (ks.map .use) = some held := by
  induction ks with
  | nil => rfl
  | cons k ks ih =>
    refine Transition.runs_cons.2 ⟨held, if_pos (h k List.mem_cons_self), ih fun j hj => ?_⟩
    exact h j (List.mem_cons_of_mem k hj)

theorem holds_callUsing {ks : List κ} {f : σ → α × σ} (h : ∀ k ∈ ks, k ∈ held) :
    Holds held (Comp.callUsing ks f : Comp σ κ ε α) (fun _ => held) thrown :=
  holds_call fun _ => runs_use h

/-- What is done next starts with what was left. -/
theorem Ends.after {o : Outcome σ κ ε α} {events : List (Event κ)} (h : Ends held o post thrown)
    (hruns : Transition.runs step pre events = some held) :
    Ends pre ⟨events ++ o.events, o.result, o.state⟩ post thrown := by
  have happend : ∀ {left : List κ}, Transition.runs step held o.events = some left →
      Transition.runs step pre (events ++ o.events) = some left :=
    fun h => Transition.runs_append.2 ⟨held, hruns, h⟩
  cases h with
  | returned a hr hruns' => exact .returned a hr (happend hruns')
  | threw e hr hruns' => exact .threw e hr (happend hruns')
  | running left hr hruns' => exact .running left hr (happend hruns')

theorem Holds.bind {m : Comp σ κ ε β} {f : β → Comp σ κ ε α} (hm : Holds pre m q thrown)
    (hf : ∀ b, Holds (q b) (f b) post thrown) : Holds pre (m >>= f) post thrown := fun s => by
  change Ends pre (Comp.bind m f s) post thrown
  rw [Comp.bind]
  cases hm s with
  | returned b hr hruns =>
    rw [hr]
    exact (hf b (m s).state).after hruns
  | threw e hr hruns =>
    rw [hr]
    exact .threw e rfl hruns
  | running held hr hruns =>
    rw [hr]
    exact .running held rfl hruns

theorem Holds.lift {τ : Type} (hm : Holds pre m post thrown) :
    Holds pre (m.lift : Comp (σ × τ) κ ε α) post thrown := fun s => by
  cases hm s.1 with
  | returned a hr hruns => exact .returned a hr hruns
  | threw e hr hruns => exact .threw e hr hruns
  | running held hr hruns => exact .running held hr hruns

theorem Holds.withLocal {τ : Type} {x : τ} {m : Comp (σ × τ) κ ε Unit}
    (hm : Holds pre m (fun _ => held) thrown) :
    Holds pre (Comp.withLocal x m) (fun _ => held) thrown := fun s => by
  rw [Comp.withLocal]
  cases hm (s, x) with
  | returned a hr hruns =>
    rw [hr]
    exact .returned _ rfl hruns
  | threw e hr hruns =>
    rw [hr]
    exact .threw e rfl hruns
  | running held hr hruns =>
    rw [hr]
    exact .running held rfl hruns

/-- A handler starts with what the exception left. -/
theorem Holds.catching {handler : ε → Option (Comp σ κ ε α)} (hm : Holds pre m post thrown)
    (hhandler : ∀ e h, handler e = some h → Holds thrown h post thrown) :
    Holds pre (m.catching handler) post thrown := fun s => by
  rw [Comp.catching]
  cases hm s with
  | returned a hr hruns =>
    rw [hr]
    exact .returned a hr hruns
  | threw e hr hruns =>
    rw [hr]
    dsimp only
    split
    · next h hh => exact (hhandler e h hh (m s).state).after hruns
    · exact .threw e hr hruns
  | running held hr hruns =>
    rw [hr]
    exact .running held hr hruns

/-- A computation that leaves the same resources however it ends is closed. -/
theorem Holds.closing {close : Comp σ κ ε Unit} (hm : Holds pre m (fun _ => held) held)
    (hclose : Holds held close (fun _ => closed) closed) :
    Holds pre (m.closing close) (fun _ => closed) closed := fun s => by
  rw [Comp.closing]
  -- the close comes after both outcomes, and whatever it does, the resource is given back
  have hclosed : ∀ r : Except ε α, Transition.runs step pre (m s).events = some held →
      Ends pre ⟨(m s).events ++ (close (m s).state).events,
        (close (m s).state).result.map fun closed => r.bind fun a => closed.map fun _ => a,
        (close (m s).state).state⟩ (fun _ => closed) closed := by
    intro r hruns
    cases hclose (m s).state with
    | running left hr hruns' =>
      rw [hr]
      exact .running left rfl (Transition.runs_append.2 ⟨held, hruns, hruns'⟩)
    | threw e hr hruns' =>
      rw [hr]
      have hevents := Transition.runs_append.2 ⟨held, hruns, hruns'⟩
      cases r with
      | error e' => exact .threw e' rfl hevents
      | ok a => exact .threw e rfl hevents
    | returned u hr hruns' =>
      rw [hr]
      have hevents := Transition.runs_append.2 ⟨held, hruns, hruns'⟩
      cases r with
      | error e' => exact .threw e' rfl hevents
      | ok a => exact .returned a rfl hevents
  cases hm s with
  | returned a hr hruns =>
    rw [hr]
    exact hclosed (.ok a) hruns
  | threw e hr hruns =>
    rw [hr]
    exact hclosed (.error e) hruns
  | running left hr hruns =>
    rw [hr]
    exact .running left hr hruns

/-- A block with a resource leaves what it found: the resource is acquired, or this throws;
    and it is released by the close, which may throw, too. -/
theorem Holds.withResource {acquire : Comp σ κ ε β} {close : β → Comp σ κ ε Unit}
    {body : β → Comp σ κ ε α} (key : β → κ)
    (hacquire : Holds held acquire (fun b => key b :: held) held)
    (hclose : ∀ b, Holds (key b :: held) (close b) (fun _ => held) held)
    (hbody : ∀ b, Holds (key b :: held) (body b) (fun _ => key b :: held) (key b :: held)) :
    Holds held (Comp.withResource acquire close body) (fun _ => held) held :=
  hacquire.bind fun b => (hbody b).closing (hclose b)

/-! ## Balance -/

/-- How often a resource is acquired, and how often it is released. -/
def acquires (k : κ) (events : List (Event κ)) : ℕ := events.count (.acquire k)

def releases (k : κ) (events : List (Event κ)) : ℕ := events.count (.release k)

/-- What is held of a resource at last was held at first or acquired, and is not released. -/
theorem count_runs {events : List (Event κ)} (h : Transition.runs step pre events = some held)
    (k : κ) : held.count k + releases k events = pre.count k + acquires k events := by
  induction events generalizing pre with
  | nil =>
    cases h
    rfl
  | cons e events ih =>
    obtain ⟨held', hstep, hruns⟩ := Transition.runs_cons.1 h
    have ih := ih hruns
    rw [releases, acquires] at ih ⊢
    cases e with
    | acquire j =>
      cases hstep
      rw [List.count_cons] at ih
      rw [List.count_cons_of_ne (by simp), List.count_cons]
      have hcount : (Event.acquire j == Event.acquire k) = (j == k) := by
        rw [Bool.eq_iff_iff, beq_iff_eq, beq_iff_eq, Event.acquire.injEq]
      rw [hcount]
      omega
    | use j =>
      rw [step] at hstep
      split_ifs at hstep
      cases hstep
      rwa [List.count_cons_of_ne (by simp), List.count_cons_of_ne (by simp)]
    -- only what is at the top of the stack is released
    | release j =>
      rw [step] at hstep
      split_ifs at hstep with hhead
      cases hstep
      obtain ⟨rest, rfl⟩ := List.head?_eq_some_iff.1 hhead
      rw [List.tail_cons] at ih
      have hcount : (Event.release j == Event.release k) = (j == k) := by
        rw [Bool.eq_iff_iff, beq_iff_eq, beq_iff_eq, Event.release.injEq]
      rw [List.count_cons, hcount, List.count_cons, List.count_cons_of_ne (by simp)]
      omega

/-- A computation that leaves what it found gives every resource back as often as it gets it,
    if it ends. -/
theorem Holds.balanced (hm : Holds held m (fun _ => held) held) (s : σ) :
    (∃ left, Transition.runs step held (m s).events = some left ∧
      ((m s).result ≠ none → left = held)) ∧
    ((m s).result ≠ none → ∀ k, acquires k (m s).events = releases k (m s).events) := by
  have hbalanced : Transition.runs step held (m s).events = some held → ∀ k,
      acquires k (m s).events = releases k (m s).events := fun hruns k =>
    (Nat.add_left_cancel (count_runs hruns k)).symm
  cases hm s with
  | returned a hr hruns => exact ⟨⟨held, hruns, fun _ => rfl⟩, fun _ => hbalanced hruns⟩
  | threw e hr hruns => exact ⟨⟨held, hruns, fun _ => rfl⟩, fun _ => hbalanced hruns⟩
  | running left hr hruns =>
    exact ⟨⟨left, hruns, fun h => absurd hr h⟩, fun h => absurd hr h⟩

end Resource
