import Mathlib.Data.BitVec
import Mathlib.Data.Finset.Lattice.Fold
import Mathlib.Data.Nat.Init
import Mathlib.Order.Lattice.Nat
import Raqet.Java.Buffer

/-!
# Bit sets

A bit set is the finite set of the indices of its set bits. In bytes, it is
little-endian: bit `n` is the bit `n % 8` of the byte `n / 8`
(`BitSet.bit`); the encoding stops at the last byte that is not zero
(`BitSet.toByteArray`).

* `bit_toByteArray`: the encoding has the bits of the set, and no others;
* `bit_write_toByteArray`: overwriting the beginning of a file with (a prefix
  of) an encoding sets and clears bits in that prefix only: the bits of the rest
  of the file, left from an earlier and longer encoding, stay behind.
-/

namespace Java

/-- A byte. -/
abbrev Byte := BitVec 8

/-- The set of the indices of the set bits. -/
abbrev BitSet := Finset ℕ

namespace BitSet

/-- The byte with the bits `f 0, …, f 7`, the least significant one first. -/
def ofBits (f : ℕ → Bool) : Byte := BitVec.ofNat 8 (Nat.ofBits fun i : Fin 8 => f i)

theorem getLsbD_ofBits (f : ℕ → Bool) {i : ℕ} (hi : i < 8) : (ofBits f).getLsbD i = f i := by
  rw [ofBits, BitVec.getLsbD_ofNat, Nat.testBit_ofBits_lt _ i hi, decide_eq_true hi, Bool.true_and]

/-- Bit `n` of the bytes `b`. -/
def bit (b : Buffer Byte) (n : ℕ) : Bool := (b.get (n / 8)).getLsbD (n % 8)

/-- The logical size: one more than the largest index. -/
def length (s : BitSet) : ℕ := s.sup (· + 1)

/-- The bytes of a bit set, without trailing zero bytes. -/
def toByteArray (s : BitSet) : Buffer Byte :=
  .ofFn ((length s + 7) / 8) fun i => ofBits fun j => decide (8 * i + j ∈ s)

/-- The bit set of the bytes `b`. -/
def valueOf (b : Buffer Byte) : BitSet := {n ∈ Finset.range (8 * b.length) | bit b n}

theorem bit_of_length_le {b : Buffer Byte} {n : ℕ} (hn : 8 * b.length ≤ n) : bit b n = false := by
  rw [bit, b.get_of_length_le _ (by omega)]
  exact BitVec.getLsbD_zero

@[simp] theorem mem_valueOf {b : Buffer Byte} {n : ℕ} : n ∈ valueOf b ↔ bit b n = true := by
  rw [valueOf, Finset.mem_filter, Finset.mem_range, and_iff_right_iff_imp]
  intro h
  by_contra hn
  rw [bit_of_length_le (not_lt.1 hn)] at h
  cases h

theorem lt_length {s : BitSet} {n : ℕ} (hn : n ∈ s) : n < length s :=
  Finset.le_sup (f := (· + 1)) hn

@[simp] theorem bit_toByteArray (s : BitSet) (n : ℕ) : bit (toByteArray s) n = decide (n ∈ s) := by
  by_cases hn : n / 8 < (length s + 7) / 8
  · rw [bit, toByteArray, Buffer.get_ofFn _ hn, getLsbD_ofBits _ (Nat.mod_lt n (by omega)),
      Nat.div_add_mod]
  · rw [bit_of_length_le (by rw [toByteArray, Buffer.length_ofFn]; omega), eq_comm,
      decide_eq_false_iff_not]
    intro hs
    have := lt_length hs
    omega

/-- The encoding is long enough for every bit that is set. -/
theorem div_lt_length_toByteArray {s : BitSet} {n : ℕ} (hn : n ∈ s) :
    n / 8 < (toByteArray s).length := by
  have := lt_length hn
  rw [toByteArray, Buffer.length_ofFn]
  omega

/-- The bits of a file whose first `k` bytes were overwritten. -/
theorem bit_write (f b : Buffer Byte) (k n : ℕ) :
    bit (f.write 0 b k) n = if n / 8 < k then bit b n else bit f n := by
  by_cases hn : n / 8 < k
  · have := Buffer.get_write_of_mem f 0 b hn
    rw [Nat.zero_add] at this
    rw [if_pos hn, bit, bit, this]
  · rw [if_neg hn, bit, bit, Buffer.get_write_of_notMem f b (.inr (by omega))]

/-- The bits of a file whose first `k` bytes were overwritten with a bit set. -/
theorem bit_write_toByteArray (f : Buffer Byte) (s : BitSet) (k n : ℕ) :
    bit (f.write 0 (toByteArray s) k) n = if n / 8 < k then decide (n ∈ s) else bit f n := by
  rw [bit_write, bit_toByteArray]

end BitSet

end Java
