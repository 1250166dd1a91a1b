import Raqet.Remote.OpenDevices

/-!
# What a failed opening leaves behind

`openDevice` acquires a context, a connection, and a reference to an evidence store, in
this order, and any of its steps may fail. Its handler closes the context, and only for
an `IScsiException`; nothing gives the reference back. The steps after the evidence
store was asked for throw no `IScsiException` (`openDevice_obtained`).

* `AllOrNothing`: a call that throws leaves nothing behind;
* `OpenEnv.OnlyIScsi`: nothing fails but with an `IScsiException`.

The first holds exactly when the second does (`allOrNothing_iff`).
-/

namespace Raqet

open Java EvidenceStore

/-- The number of references to the evidence store of a path; none if there is no store. -/
def EvidenceStoreFactory.references (w : EvidenceStoreFactory) (path : String) : Option ℤ :=
  (w.evidenceStores path).bind fun i => w.objects[i]?.map EvidenceStore.refCount

/-- If an opening throws, its context is closed, and the evidence stores and the numbers
    of the references to them are as they were in `w`. -/
def Opening.AllOrNothing (o : Opening) (w : EvidenceStoreFactory) : Prop :=
  ∀ e, o.value = .error e → o.contextOpen = false ∧
    ∀ path, o.factory.references path = w.references path

/-- Whatever fails in an opening throws an `IScsiException`. So the device is ready if it
    was connected; and if it reports its capacity, an evidence store can be had, and a
    reader made. -/
def OpenEnv.OnlyIScsi (env : OpenEnv) (path : String) (w : EvidenceStoreFactory) : Prop :=
  match env.connecting with
  | .contextFails _ => True
  | .fails e => ∃ message, e = .iScsi message
  | .notReady => False
  | .ready => ∀ c, IScsiLogicalUnit.readCapacity env.capacity = .ok c →
      (w.evidenceStores path ≠ none ∨ env.Opens c) ∧ c.Usable

namespace RemoteDeviceManager

open OpenDevices

variable {info : RemoteDeviceInfo} {env : OpenEnv} {w : EvidenceStoreFactory}

/-- Another exception than an `IScsiException` leaves the context open. -/
theorem throw_of_ne {e : Exn} (h : ∀ message, e ≠ .iScsi message) :
    throw w e = ⟨.error e, w, true⟩ := by
  cases e with
  | iScsi message => exact absurd rfl (h message)
  | _ => rfl

/-- An exception before the evidence store was asked for leaves nothing behind exactly
    when it is an `IScsiException`. -/
theorem allOrNothing_throw (e : Exn) :
    (throw w e).AllOrNothing w ↔ ∃ message, e = .iScsi message := by
  constructor
  · intro h
    by_contra hne
    push Not at hne
    rw [throw_of_ne hne] at h
    cases (h e rfl).1
  · rintro ⟨message, rfl⟩ _ -
    exact ⟨rfl, fun _ => rfl⟩

/-- Another exception leaves the context open, whatever has become of the stores. -/
theorem not_allOrNothing_throw {w' : EvidenceStoreFactory} {e : Exn}
    (h : ∀ message, e ≠ .iScsi message) : ¬(throw w' e).AllOrNothing w := by
  rw [throw_of_ne h]
  intro hall
  cases (hall e rfl).1

/-- `readCapacity()` throws nothing else than an `IScsiException`. -/
theorem readCapacity_error {answer : Task (ℤ × ℤ)} {e : Exn}
    (h : IScsiLogicalUnit.readCapacity answer = .error e) : ∃ message, e = .iScsi message := by
  cases answer with
  | null error => exact ⟨_, (Except.error.inj h).symm⟩
  | failed => exact ⟨_, (Except.error.inj h).symm⟩
  | garbled error => exact ⟨_, (Except.error.inj h).symm⟩
  | good data => cases h

/-- Once the device reported its capacity, an opening leaves nothing behind exactly when
    it succeeds. -/
theorem allOrNothing_reports {c : IScsiLogicalUnitCapacity} (h : env.Reports c) :
    (openDevice info env w).AllOrNothing w ↔
      (w.evidenceStores info.evidencePath ≠ none ∨ env.Opens c) ∧ c.Usable := by
  have hobtained : ∀ i w', w.getEvidenceStore env.io info.evidencePath c.sizeInBytes readBlockSize =
      (.ok i, w') → ((openDevice info env w).AllOrNothing w ↔ c.Usable) := by
    intro i w' hs
    rcases openDevice_obtained h hs with ⟨geometry, hu, -, ho⟩ | ⟨hu, e, he, ho⟩ <;> rw [ho]
    · exact iff_of_true (by rintro e ⟨⟩) hu
    · exact iff_of_false (not_allOrNothing_throw he) hu
  rcases getEvidenceStore_cases info.evidencePath env c w with
    ⟨i, hi, hs⟩ | ⟨hn, ho, e, f, hs⟩ | ⟨hn, ho, f, hs⟩
  · rw [hobtained _ _ hs, and_iff_right (.inl (by simp [hi]))]
  · rw [openDevice_error h hs]
    refine iff_of_false (not_allOrNothing_throw fun message => ?_) fun hc => ?_
    · exact getEvidenceStore_ne_iScsi message hs
    · exact hc.1.elim (fun hne => hne hn) ho
  · rw [hobtained _ _ hs, and_iff_right (.inr ho)]

/-- For every device, state of the factory, and course of the opening: it leaves nothing
    behind when it throws exactly when nothing fails but with an `IScsiException`. -/
theorem allOrNothing_iff (info : RemoteDeviceInfo) (env : OpenEnv) (w : EvidenceStoreFactory) :
    (openDevice info env w).AllOrNothing w ↔ env.OnlyIScsi info.evidencePath w := by
  rw [OpenEnv.OnlyIScsi]
  cases hconn : env.connecting with
  | contextFails message =>
    have hthrow : openDevice info env w = throw w (.iScsi message) := by
      rw [openDevice, hconn]
      rfl
    rw [hthrow, allOrNothing_throw]
    exact iff_of_true ⟨message, rfl⟩ trivial
  | fails e =>
    have hthrow : openDevice info env w = throw w e := by rw [openDevice, hconn]
    rw [hthrow, allOrNothing_throw]
  | notReady =>
    have hthrow : openDevice info env w = throw w (.ioMessage (notReadyMessage info)) := by
      rw [openDevice, hconn]
    rw [hthrow]
    exact iff_of_false (not_allOrNothing_throw (by rintro _ ⟨⟩)) id
  | ready =>
    dsimp only
    cases hc : IScsiLogicalUnit.readCapacity env.capacity with
    | error e =>
      have hthrow : openDevice info env w = throw w e := by
        rw [openDevice, hconn]
        dsimp only
        rw [hc]
      rw [hthrow, allOrNothing_throw]
      exact iff_of_true (readCapacity_error hc) (by rintro _ ⟨⟩)
    | ok c =>
      rw [allOrNothing_reports ⟨hconn, hc⟩]
      exact ⟨fun h c' hc' => Except.ok.inj hc' ▸ h, fun h => h c rfl⟩

/-- The disk turns out to have sectors of 520 bytes. -/
def sectors520 : OpenEnv := ⟨.ready, .good (127, 520), .ok⟩

/-- They do not divide the read block size: the context stays open, and a reference to
    the evidence store is counted. -/
theorem not_allOrNothing_sectors520 :
    ¬(openDevice device sectors520 (init emptyFiles).factory).AllOrNothing
      (init emptyFiles).factory ∧
      (init emptyFiles).factory.references device.evidencePath = none ∧
      (openDevice device sectors520 (init emptyFiles).factory).factory.references
        device.evidencePath = some 1 := by
  refine ⟨fun h => ?_, rfl, by decide⟩
  have hclosed : (openDevice device sectors520 (init emptyFiles).factory).contextOpen = false :=
    (h _ rfl).1
  revert hclosed
  decide

end RemoteDeviceManager

end Raqet
