import Mathlib.Algebra.Order.Ring.Nat

/-!
# Buffers

A *buffer* is a finite sequence of elements padded with zeros: the contents of
an array, or of a file. The padding is part of the structure, so that two
buffers of the same length with the same elements are equal, and a file that
grows is filled with zeros.

Files are read and written at a position (`Buffer.write`, `Buffer.read`,
`Buffer.setLength`), arrays are copied within their bounds (`Buffer.copy`).

* `AgreeOn k b b'`: two buffers have the same first `k` elements;
* `HoldsAt f p b k`: the buffer `f` holds the first `k` elements of `b` at the
  position `p`. The rules tell which writes establish it
  (`HoldsAt.write_self`) and which keep it: the ones elsewhere
  (`HoldsAt.write_of_disjoint`), and the ones of the same elements
  (`HoldsAt.write_of_agreeOn`), complete or not.
-/

namespace Java

/-- A sequence of `length` elements, padded with zeros. -/
@[ext]
structure Buffer (α : Type*) [Zero α] where
  /-- The number of elements. -/
  length : ℕ
  /-- The elements, by index. -/
  get : ℕ → α
  /-- Past the end, there are only zeros. -/
  get_of_length_le : ∀ i, length ≤ i → get i = 0

namespace Buffer

variable {α : Type*} [Zero α]

/-- A new array: `n` zeros. -/
def zeros (n : ℕ) : Buffer α := ⟨n, fun _ => 0, fun _ _ => rfl⟩

/-- The `n` elements given by `f`. -/
def ofFn (n : ℕ) (f : ℕ → α) : Buffer α where
  length := n
  get i := if i < n then f i else 0
  get_of_length_le _ hi := if_neg hi.not_gt

/-- The `n` elements of `b` from the position `p` on. -/
def slice (b : Buffer α) (p n : ℕ) : Buffer α := ofFn n fun i => b.get (p + i)

/-- The file `f` after the first `n` elements of `b` were written at the
    position `p`; it grows if needed. Writing nothing does not make it grow. -/
def write (f : Buffer α) (p : ℕ) (b : Buffer α) (n : ℕ) : Buffer α where
  length := if n = 0 then f.length else max f.length (p + n)
  get i := if p ≤ i ∧ i < p + n then b.get (i - p) else f.get i
  get_of_length_le i hi := by
    rcases Nat.eq_zero_or_pos n with rfl | hn
    · rw [if_pos rfl] at hi
      rw [if_neg (by omega), f.get_of_length_le i hi]
    · rw [if_neg hn.ne', max_le_iff] at hi
      rw [if_neg (by omega), f.get_of_length_le i hi.1]

/-- The file `f` truncated, or extended with zeros, to the length `n`. -/
def setLength (f : Buffer α) (n : ℕ) : Buffer α := ofFn n f.get

/-- A new array of length `size` into whose beginning `n` elements of the file
    `f` were read from the position `p`. -/
def read (f : Buffer α) (p n size : ℕ) : Buffer α :=
  ofFn size fun i => if i < n then f.get (p + i) else 0

/-- The array `b` after `n` elements of `src`, from the index `q` on, were
    copied to its index `p`. -/
def copy (b : Buffer α) (p : ℕ) (src : Buffer α) (q n : ℕ) : Buffer α where
  length := b.length
  get i := if p ≤ i ∧ i < p + n ∧ i < b.length then src.get (q + (i - p)) else b.get i
  get_of_length_le i hi := by rw [if_neg (by omega), b.get_of_length_le i hi]

/-! ## Elements and lengths -/

@[simp] theorem length_zeros (n : ℕ) : (zeros n : Buffer α).length = n := rfl

@[simp] theorem length_ofFn (n : ℕ) (f : ℕ → α) : (ofFn n f).length = n := rfl

theorem get_ofFn {n i : ℕ} (f : ℕ → α) (hi : i < n) : (ofFn n f).get i = f i := if_pos hi

@[simp] theorem length_slice (b : Buffer α) (p n : ℕ) : (b.slice p n).length = n := rfl

theorem get_slice (b : Buffer α) {p n i : ℕ} (hi : i < n) :
    (b.slice p n).get i = b.get (p + i) := if_pos hi

@[simp] theorem length_setLength (f : Buffer α) (n : ℕ) : (f.setLength n).length = n := rfl

theorem get_setLength (f : Buffer α) {n : ℕ} (hn : f.length ≤ n) (i : ℕ) :
    (f.setLength n).get i = f.get i := by
  by_cases hi : i < n
  · exact if_pos hi
  · rw [f.get_of_length_le i (by omega)]
    exact if_neg hi

@[simp] theorem length_read (f : Buffer α) (p n size : ℕ) : (f.read p n size).length = size := rfl

theorem get_read (f : Buffer α) {p n size i : ℕ} (hn : n ≤ size) :
    (f.read p n size).get i = if i < n then f.get (p + i) else 0 := by
  by_cases hi : i < n
  · exact get_ofFn _ (hi.trans_le hn)
  · simp [read, ofFn, hi]

theorem get_read_of_lt (f : Buffer α) {p n size i : ℕ} (hn : n ≤ size) (hi : i < n) :
    (f.read p n size).get i = f.get (p + i) := by
  rw [get_read f hn, if_pos hi]

theorem get_read_of_le (f : Buffer α) {p n size i : ℕ} (hn : n ≤ size) (hi : n ≤ i) :
    (f.read p n size).get i = 0 := by
  rw [get_read f hn, if_neg hi.not_gt]

@[simp] theorem length_copy (b : Buffer α) (p : ℕ) (src : Buffer α) (q n : ℕ) :
    (b.copy p src q n).length = b.length := rfl

theorem get_copy_of_mem (b : Buffer α) {p : ℕ} (src : Buffer α) {q n i : ℕ}
    (hi : i < n) (hb : p + i < b.length) : (b.copy p src q n).get (p + i) = src.get (q + i) := by
  rw [copy]
  simp only [if_pos (show p ≤ p + i ∧ p + i < p + n ∧ p + i < b.length by omega),
    Nat.add_sub_cancel_left]

theorem get_copy_of_notMem (b : Buffer α) {p : ℕ} (src : Buffer α) {q n i : ℕ}
    (hi : i < p ∨ p + n ≤ i) : (b.copy p src q n).get i = b.get i :=
  if_neg (by omega)

theorem length_write (f : Buffer α) (p : ℕ) (b : Buffer α) {n : ℕ} (hn : 0 < n) :
    (f.write p b n).length = max f.length (p + n) := if_neg hn.ne'

theorem length_le_length_write (f : Buffer α) (p : ℕ) (b : Buffer α) (n : ℕ) :
    f.length ≤ (f.write p b n).length := by
  rw [write]
  dsimp only
  split_ifs
  exacts [le_rfl, le_max_left _ _]

/-- A write within the bounds of a file keeps its length. -/
theorem length_write_of_le {f : Buffer α} {p : ℕ} (b : Buffer α) {n : ℕ}
    (h : p + n ≤ f.length) : (f.write p b n).length = f.length := by
  rw [write]
  dsimp only
  split_ifs
  exacts [rfl, max_eq_left h]

theorem get_write_of_mem (f : Buffer α) (p : ℕ) (b : Buffer α) {n i : ℕ} (hi : i < n) :
    (f.write p b n).get (p + i) = b.get i := by
  rw [write]
  simp only [if_pos (show p ≤ p + i ∧ p + i < p + n by omega), Nat.add_sub_cancel_left]

theorem get_write_of_notMem (f : Buffer α) {p : ℕ} (b : Buffer α) {n i : ℕ}
    (hi : i < p ∨ p + n ≤ i) : (f.write p b n).get i = f.get i :=
  if_neg (by omega)

/-- Appending zeros to a file changes no element: the padding was zero. -/
@[simp] theorem get_write_length_zeros (f : Buffer α) (m n i : ℕ) :
    (f.write f.length (zeros m) n).get i = f.get i := by
  by_cases hi : f.length ≤ i ∧ i < f.length + n
  · rw [f.get_of_length_le i hi.1]
    exact if_pos hi
  · exact if_neg hi

/-- Writing nothing changes nothing. -/
@[simp] theorem write_zero (f : Buffer α) (p : ℕ) (b : Buffer α) : f.write p b 0 = f := by
  ext i
  · rfl
  · exact get_write_of_notMem f b (by omega)

/-! ## Agreement -/

/-- The buffers `b` and `b'` have the same first `k` elements. -/
def AgreeOn (k : ℕ) (b b' : Buffer α) : Prop := ∀ i < k, b.get i = b'.get i

theorem AgreeOn.refl (k : ℕ) (b : Buffer α) : AgreeOn k b b := fun _ _ => rfl

theorem AgreeOn.symm {k : ℕ} {b b' : Buffer α} (h : AgreeOn k b b') : AgreeOn k b' b :=
  fun i hi => (h i hi).symm

theorem AgreeOn.trans {k : ℕ} {a b c : Buffer α} (h : AgreeOn k a b) (h' : AgreeOn k b c) :
    AgreeOn k a c := fun i hi => (h i hi).trans (h' i hi)

theorem AgreeOn.mono {k l : ℕ} {b b' : Buffer α} (h : AgreeOn k b b') (hl : l ≤ k) :
    AgreeOn l b b' := fun i hi => h i (hi.trans_le hl)

/-- The buffer `f` holds the first `k` elements of `b` at the position `p`. -/
def HoldsAt (f : Buffer α) (p : ℕ) (b : Buffer α) (k : ℕ) : Prop :=
  ∀ i < k, p + i < f.length ∧ f.get (p + i) = b.get i

theorem HoldsAt.length_le {f : Buffer α} {p : ℕ} {b : Buffer α} {k : ℕ} (h : f.HoldsAt p b k)
    (hk : 0 < k) : p + k ≤ f.length := by
  have := (h (k - 1) (by omega)).1
  omega

theorem HoldsAt.mono {f : Buffer α} {p : ℕ} {b : Buffer α} {k l : ℕ} (h : f.HoldsAt p b k)
    (hl : l ≤ k) : f.HoldsAt p b l := fun i hi => h i (hi.trans_le hl)

theorem HoldsAt.congr {f : Buffer α} {p : ℕ} {b b' : Buffer α} {k : ℕ} (h : f.HoldsAt p b k)
    (hb : AgreeOn k b b') : f.HoldsAt p b' k :=
  fun i hi => ⟨(h i hi).1, (h i hi).2.trans (hb i hi)⟩

/-- What was written is held. -/
theorem HoldsAt.write_self (f : Buffer α) (p : ℕ) (b : Buffer α) (n : ℕ) :
    (f.write p b n).HoldsAt p b n := fun i hi =>
  ⟨by rw [length_write f p b (by omega), lt_max_iff]; omega, get_write_of_mem f p b hi⟩

/-- What was copied within the bounds of an array is held. -/
theorem HoldsAt.copy_self {b : Buffer α} {p : ℕ} (src : Buffer α) {n : ℕ} (h : p + n ≤ b.length) :
    (b.copy p src 0 n).HoldsAt p src n := fun i hi =>
  ⟨by rw [length_copy]; omega, by rw [get_copy_of_mem b src hi (by omega), Nat.zero_add]⟩

/-- A write elsewhere keeps what is held. -/
theorem HoldsAt.write_of_disjoint {f : Buffer α} {p : ℕ} {b : Buffer α} {k : ℕ}
    (h : f.HoldsAt p b k) {q : ℕ} (c : Buffer α) {n : ℕ} (hq : p + k ≤ q ∨ q + n ≤ p) :
    (f.write q c n).HoldsAt p b k := fun i hi =>
  ⟨(h i hi).1.trans_le (length_le_length_write f q c n),
    by rw [get_write_of_notMem f c (by omega), (h i hi).2]⟩

/-- A write of the same elements at the same position keeps what is held, even
    if it is not complete. -/
theorem HoldsAt.write_of_agreeOn {f : Buffer α} {p : ℕ} {b c : Buffer α} {k : ℕ}
    (h : f.HoldsAt p b k) (hc : AgreeOn k c b) (n : ℕ) : (f.write p c n).HoldsAt p b k := by
  intro i hi
  refine ⟨(h i hi).1.trans_le (length_le_length_write f p c n), ?_⟩
  by_cases hn : i < n
  · rw [get_write_of_mem f p c hn, hc i hi]
  · rw [get_write_of_notMem f c (by omega), (h i hi).2]

/-- Extending a file keeps what it holds. -/
theorem HoldsAt.setLength {f : Buffer α} {p : ℕ} {b : Buffer α} {k : ℕ} (h : f.HoldsAt p b k)
    {n : ℕ} (hn : f.length ≤ n) : (f.setLength n).HoldsAt p b k :=
  fun i hi => ⟨(h i hi).1.trans_le hn, by rw [get_setLength f hn, (h i hi).2]⟩

/-- Reading back what is held. -/
theorem HoldsAt.read {f : Buffer α} {p : ℕ} {b : Buffer α} {k : ℕ} (h : f.HoldsAt p b k)
    {n size : ℕ} (hn : n ≤ size) : AgreeOn (min k n) (f.read p n size) b := fun i hi => by
  rw [get_read_of_lt f hn (hi.trans_le (min_le_right _ _)), (h i (hi.trans_le (min_le_left _ _))).2]

end Buffer

end Java
