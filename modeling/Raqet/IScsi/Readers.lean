import Mathlib.Logic.Function.Basic
import Raqet.IScsi.BlockReader

/-!
# Readers that share an evidence store

Any number of block readers, each with its own requests in flight, and one
evidence store. Their steps interleave in any way.
-/

namespace Raqet

open Java EvidenceStore IScsiBlockReader

/-- Readers, and the evidence store that they share. -/
structure Readers (ι : Type*) where
  readers : ι → IScsiBlockReader
  session : Session

namespace Readers

variable {ι : Type*} [DecidableEq ι]

/-- A step of one of the readers. -/
def step (g : Readers ι) (a : ι × Action) : Option (Readers ι) :=
  ((g.readers a.1).step g.session a.2).map fun p => ⟨Function.update g.readers a.1 p.1, p.2⟩

/-- All readers are new. -/
def Fresh (g : Readers ι) : Prop := ∀ i, ∃ geometry, g.readers i = .new geometry

variable {g g' : Readers ι} {i : ι} {a : Action} {r : IScsiBlockReader}

theorem step_eq_some (h : step g (i, a) = some g') :
    ∃ r, Effect (g.readers i) g.session a r g'.session ∧
      g'.readers = Function.update g.readers i r := by
  obtain ⟨⟨r, s⟩, hp, rfl⟩ := Option.map_eq_some_iff.1 h
  exact ⟨r, effect_of_step hp, rfl⟩

/-- What holds of all readers still does after a step of the reader `i`, if it holds
    of this one. -/
theorem forall_readers {P : ι → IScsiBlockReader → Prop}
    (hg : g'.readers = Function.update g.readers i r) (hP : ∀ j, P j (g.readers j)) (hi : P i r) :
    ∀ j, P j (g'.readers j) := by
  rw [hg]
  exact (Function.forall_update_iff g.readers P).2 ⟨hi, fun j _ => hP j⟩

/-! ## A small system -/

/-- A disk of one sector, of one byte. -/
def byteDisk : ReadGeometry := ⟨1, 1, 1, 1, 1⟩

/-- New readers of this disk, with an empty evidence store. -/
def byteReaders (ι : Type*) : Readers ι :=
  let f := extend 1 1 ⟨.zeros 0, .zeros 0⟩
  ⟨fun _ => .new byteDisk, ⟨opened "" 1 1 f, f⟩⟩

/-- A step of a thread for which nothing fails. -/
def go : Action := .advance ⟨0, .ok, none⟩

/-- The block is read, up to the point where the reader looks for answers. -/
def requestBlock : List Action := [.call 0, go, go, go, go, go, go]

omit [DecidableEq ι] in
theorem fresh_byteReaders : Fresh (byteReaders ι) := fun _ => ⟨byteDisk, rfl⟩

end Readers

end Raqet
