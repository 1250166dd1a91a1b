import Raqet.IScsi.Readers

/-!
# What counts as acquired

The bit of a block is set once a request for it has come back with the status
`SCSI_STATUS_GOOD`, and only then (`Tracked`). The number of bytes that came back
is not looked at again: the bit is also set if they are fewer than were asked for.
Hence a bit means that the whole block was received if no answer is short
(`reportsReceived`).
-/

namespace Raqet

open Java EvidenceStore IScsiBlockReader

namespace Readers

variable {ι : Type*} [DecidableEq ι] {g₀ g g' : Readers ι} {i : ι} {a : Action} {n : ℕ}
  {l : List (ι × Action)}

/-- As much data as the request for the block `n` asks for. -/
def FullRead (geometry : ReadGeometry) (n : ℕ) (data : Buffer Byte) : Prop :=
  ∃ c, geometry.read10 n none = .ok c ∧ (data.length : ℤ) = c.dataLength

/-- An answer with the status `SCSI_STATUS_GOOD` brings all that was asked for. -/
def NotShort (g₀ : Readers ι) : ι × Action → Prop
  | (i, .finish n (.good data)) => FullRead (g₀.readers i).geometry n data
  | _ => True

/-- In every run of new readers whose steps satisfy `P`, a block that counts as
    acquired did so at first, or some request for it came back with the status
    `SCSI_STATUS_GOOD` and all its data; and the step that makes it count as acquired
    stores what such a request brought. -/
def ReportsReceived (P : Readers ι → ι × Action → Prop) : Prop :=
  ∀ (g₀ g : Readers ι) (l : List (ι × Action)), Fresh g₀ → (∀ a ∈ l, P g₀ a) →
    Transition.runs step g₀ l = some g → ∀ n,
    (g.session.store.containsBlock n = true → g₀.session.store.containsBlock n = true ∨
      ∃ i data, (i, Action.finish n (.good data)) ∈ l ∧ FullRead (g₀.readers i).geometry n data) ∧
    ∀ i e g', step g (i, .advance e) = some g' → g.session.store.containsBlock n = false →
      g'.session.store.containsBlock n = true →
      ∃ q, (g.readers i).requestsInFlight.lookup n = some q ∧ q.finished = true ∧
        q.exception = none ∧ (q.bytesRead : ℤ) = q.command.dataLength

/-! ## Requests and their answers -/

/-- The requests of the reader `i` are those for its blocks; the finished ones that
    did not fail have an answer in `l`. -/
structure Answered (g₀ : Readers ι) (l : List (ι × Action)) (i : ι) (r : IScsiBlockReader) :
    Prop where
  geometry : r.geometry = (g₀.readers i).geometry
  command : ∀ n q, r.requestsInFlight.lookup n = some q →
    (g₀.readers i).geometry.read10 n none = .ok q.command
  answer : ∀ n q, r.requestsInFlight.lookup n = some q → q.finished = true → q.exception = none →
    ∃ data, (i, Action.finish n (.good data)) ∈ l ∧ q.bytesRead = data.length

/-- So are the requests of all readers, and the blocks acquired since the beginning
    have such an answer. -/
structure Tracked (g₀ : Readers ι) (l : List (ι × Action)) (g : Readers ι) : Prop where
  answered : ∀ i, Answered g₀ l i (g.readers i)
  bits : ∀ n ∈ g.session.store.bitmap, n ∈ g₀.session.store.bitmap ∨
    ∃ i data, (i, Action.finish n (.good data)) ∈ l

omit [DecidableEq ι] in
theorem tracked_fresh (h : Fresh g₀) : Tracked g₀ [] g₀ where
  answered i := by
    obtain ⟨geometry, hi⟩ := h i
    constructor
    · rfl
    · intro n q hq
      rw [hi] at hq
      cases hq
    · intro n q hq
      rw [hi] at hq
      cases hq
  bits n hn := .inl hn

omit [DecidableEq ι] in
/-- Later steps only add answers. -/
theorem Answered.append {r : IScsiBlockReader} (h : Answered g₀ l i r) (l' : List (ι × Action)) :
    Answered g₀ (l ++ l') i r where
  geometry := h.geometry
  command := h.command
  answer n q hq hf hx := by
    obtain ⟨data, hdata, hlen⟩ := h.answer n q hq hf hx
    exact ⟨data, List.mem_append_left l' hdata, hlen⟩

omit [DecidableEq ι] in
theorem Answered.step {r r' : IScsiBlockReader} {s s' : Session} (h : Answered g₀ l i r)
    (heff : Effect r s a r' s') : Answered g₀ (l ++ [(i, a)]) i r' where
  geometry := heff.geometry.trans h.geometry
  command n q hq := by
    rcases heff.lookup_cases hq with
      hq | ⟨env, command, -, hc, rfl⟩ | ⟨outcome, q₀, -, hq₀, -, -, rfl⟩
    · exact h.command n q hq
    · rw [← h.geometry]
      exact ReadGeometry.read10_none hc
    · cases outcome <;> exact h.command n q₀ hq₀
  answer n q hq hf hx := by
    rcases heff.lookup_cases hq with
      hq | ⟨env, command, -, hc, rfl⟩ | ⟨outcome, q₀, rfl, hq, -, -, rfl⟩
    · exact (h.append _).answer n q hq hf hx
    · cases hf
    · cases outcome with
      | failed error => cases hx
      | good data => exact ⟨data, List.mem_append_right l (List.mem_singleton_self _), rfl⟩

/-- A step of the reader `i`. -/
theorem Tracked.step (h : Tracked g₀ l g) (hs : step g (i, a) = some g') :
    Tracked g₀ (l ++ [(i, a)]) g' := by
  obtain ⟨r, heff, hr⟩ := step_eq_some hs
  refine ⟨forall_readers hr (fun j => (h.answered j).append _) ((h.answered i).step heff), ?_⟩
  have hold : ∀ n ∈ g.session.store.bitmap, n ∈ g₀.session.store.bitmap ∨
      ∃ j data, (j, Action.finish n (.good data)) ∈ l ++ [(i, a)] := fun n hn =>
    (h.bits n hn).imp_right fun ⟨j, data, hl⟩ => ⟨j, data, List.mem_append_left _ hl⟩
  intro n hn
  rcases heff.bitmap_cases with hb | ⟨env, q, rfl, hq, hf, hx, hb⟩ <;> rw [hb] at hn
  · exact hold n hn
  · rcases Finset.mem_insert.1 hn with rfl | hn
    · obtain ⟨data, hdata, -⟩ := (h.answered i).answer env.key q hq hf hx
      exact .inr ⟨i, data, List.mem_append_left _ hdata⟩
    · exact hold n hn

/-- If no answer is short, a block counts as acquired only if all of it was received. -/
theorem reportsReceived : ReportsReceived (ι := ι) NotShort := by
  intro g₀ g l hfresh hl hg n
  have h : Tracked g₀ l g :=
    Transition.runs_induction (P := fun l g => Tracked g₀ l g) (tracked_fresh hfresh)
      (fun _ _ _ _ _ h hs => h.step hs) hg
  constructor
  · intro hn
    rcases h.bits n (containsBlock_iff.1 hn) with hn | ⟨i, data, hdata⟩
    · exact .inl (containsBlock_iff.2 hn)
    · exact .inr ⟨i, data, hdata, hl _ hdata⟩
  · intro i e g' hs hn hn'
    obtain ⟨r, heff, -⟩ := step_eq_some hs
    rw [containsBlock_iff] at hn'
    have hnot : n ∉ g.session.store.bitmap := by simpa [containsBlock] using hn
    rcases heff.bitmap_cases with hb | ⟨env, q, -, hq, hf, hx, hb⟩ <;> rw [hb] at hn'
    · exact absurd hn' hnot
    · obtain rfl := (Finset.mem_insert.1 hn').resolve_right hnot
      obtain ⟨data, hdata, hlen⟩ := (h.answered i).answer env.key q hq hf hx
      obtain ⟨c, hc, hfull⟩ := hl _ hdata
      have hcommand := (h.answered i).command env.key q hq
      rw [hc, Except.ok.injEq] at hcommand
      exact ⟨q, hq, hf, hx, by rw [hlen, hfull, hcommand]⟩

/-- The answer to the request brings the byte, and the block is stored. -/
def fullRead : List (Unit × Action) :=
  (requestBlock ++ [.finish 0 (.good (.ofFn 1 fun _ => 7)), go]).map fun a => ((), a)

/-- The block counts as acquired, and all of it was received. -/
theorem reportsReceived_full : ∃ g data, Transition.runs step (byteReaders Unit) fullRead = some g ∧
    g.session.store.containsBlock 0 = true ∧ ((), Action.finish 0 (.good data)) ∈ fullRead ∧
    FullRead byteDisk 0 data := by
  have hrun : (Transition.runs step (byteReaders Unit) fullRead).map
      (fun g => g.session.store.containsBlock 0) = some true := by decide +kernel
  obtain ⟨g, hg, hn⟩ := Option.map_eq_some_iff.1 hrun
  have hnotShort : ∀ a ∈ fullRead, NotShort (byteReaders Unit) a := by
    intro a ha
    obtain ⟨action, hmem, rfl⟩ := List.mem_map.1 ha
    simp only [requestBlock, go, List.cons_append, List.nil_append, List.mem_cons,
      List.not_mem_nil, or_false] at hmem
    rcases hmem with rfl | rfl | rfl | rfl | rfl | rfl | rfl | rfl | rfl
    case inr.inr.inr.inr.inr.inr.inr.inl => exact ⟨⟨0, 1, 1⟩, rfl, rfl⟩
    all_goals trivial
  rcases (reportsReceived _ g fullRead fresh_byteReaders hnotShort hg 0).1 hn with
    hn | ⟨i, data, hmem, hfull⟩
  · exact absurd hn (by decide)
  · exact ⟨g, data, hg, hn, hmem, hfull⟩

/-- The answer to the request has the status `SCSI_STATUS_GOOD` and no data, and
    the block is stored. -/
def shortRead : List (Unit × Action) :=
  (requestBlock ++ [.finish 0 (.good (.zeros 0)), go]).map fun a => ((), a)

/-- A short answer makes the block count as acquired. -/
theorem not_reportsReceived_short : ¬ReportsReceived (ι := Unit) fun _ _ => True := by
  intro h
  have hrun : (Transition.runs step (byteReaders Unit) shortRead).map
      (fun g => g.session.store.containsBlock 0) = some true := by decide +kernel
  obtain ⟨g, hg, hn⟩ := Option.map_eq_some_iff.1 hrun
  rcases (h _ g shortRead fresh_byteReaders (fun _ _ => trivial) hg 0).1 hn with hn | hn
  · exact absurd hn (by decide)
  · obtain ⟨i, data, hmem, c, hc, hlen⟩ := hn
    obtain rfl : data = .zeros 0 := by simpa [shortRead, requestBlock, go] using hmem
    obtain rfl : c = ⟨0, 1, 1⟩ := (Except.ok.inj (hc.symm.trans (by rfl)))
    exact absurd hlen (by decide)

end Readers

end Raqet
