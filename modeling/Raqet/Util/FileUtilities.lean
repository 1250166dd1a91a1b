import Mathlib.Algebra.Order.Field.Basic
import Mathlib.Data.Nat.Log
import Mathlib.Data.Rat.Cast.Order
import Mathlib.Tactic.NormNum
import Mathlib.Tactic.Positivity
import Mathlib.Tactic.Ring
import Raqet.Check

/-!
# User-friendly numbers of bytes

A number of bytes is shown with one decimal, in the largest unit that it reaches
(`toUserFriendlyByteString`). It is divided by `1024` in turn, and the decimal is taken from
the quotient before the last division, which was already rounded down.

* `text_eq`: in the unit `1024 ^ (k + 1)`, the digits are those of `10 * m / 1024`, where `m` is
  the number of the units `1024 ^ k`;
* `DropsTenth`: what is dropped from `m` would have completed another tenth;
* `showsCut_iff`: the text is the exact quotient, cut to one decimal, unless it was dropped.
-/

namespace Raqet

open Java

namespace FileUtilities

/-- `((integer * 10L) / 1024L) % 10L`. -/
def fraction (integer : ℤ) : ℤ := ((toLong (integer * 10)).tdiv 1024).tmod 10

/-- `String.format("%d.%d%c", integer, fraction, suffix)`. -/
def format (integer fraction : ℤ) (suffix : Char) : String :=
  toString integer ++ "." ++ toString fraction ++ String.singleton suffix

/-- The loop over the suffixes, and the last suffix. -/
def scale : List Char → ℤ → String
  | [], integer => format (integer.tdiv 1024) (fraction integer) 'E'
  | suffix :: suffixes, integer =>
    if integer.tdiv 1024 < 1024 then format (integer.tdiv 1024) (fraction integer) suffix
    else scale suffixes (integer.tdiv 1024)

/-- `toUserFriendlyByteString(bytes)`. -/
def toUserFriendlyByteString (bytes : ℤ) : Except Exn String := do
  let _ ← argNotNegative "bytes" bytes
  if bytes < 1024 then .ok (toString bytes) else .ok (scale "kMGTP".toList bytes)

example : (toUserFriendlyByteString 2938274582).toOption = some "2.7G" := by decide +kernel

/-- It only throws what the check of the argument throws. -/
theorem toUserFriendlyByteString_map (bytes : ℤ) :
    (toUserFriendlyByteString bytes).map (fun _ => bytes) = argNotNegative "bytes" bytes := by
  rw [toUserFriendlyByteString, argNotNegative]
  split_ifs <;> rfl

theorem toUserFriendlyByteString_of_le {bytes : ℤ} (h : 1024 ≤ bytes) :
    toUserFriendlyByteString bytes = .ok (scale "kMGTP".toList bytes) := by
  rw [toUserFriendlyByteString, argNotNegative_ok (by omega)]
  exact if_neg (not_lt.2 h)

/-- The value of `integer` that is shown: the one before the last division. -/
def shown : List Char → ℤ → ℤ
  | [], integer => integer
  | _ :: suffixes, integer =>
    if integer.tdiv 1024 < 1024 then integer else shown suffixes (integer.tdiv 1024)

/-- The text shows `i.f` of the `k`-th unit, which is the quotient cut to one decimal. -/
structure ShowsCut (bytes : ℤ) (i f k : ℕ) (suffix : Char) : Prop where
  suffix_eq : "kMGTPE".toList[k]? = some suffix
  integer_lt : i < 1024
  fraction_lt : f < 10
  text : toUserFriendlyByteString bytes = .ok (format i f suffix)
  le : (i + f / 10 : ℚ) ≤ bytes / 1024 ^ (k + 1)
  lt : (bytes / 1024 ^ (k + 1) : ℚ) < i + f / 10 + 1 / 10
  /-- The product that the decimal is taken from is exact. -/
  product : toLong (shown "kMGTP".toList bytes * 10) = shown "kMGTP".toList bytes * 10

/-- The bytes that are left when the number of units below the one that is shown was rounded
    down would have completed the tenth that this number begins. -/
def DropsTenth (bytes : ℕ) : Prop :=
  let unit := 1024 ^ (Nat.log 1024 bytes - 1)
  1024 * unit ≤ 10 * (bytes / unit) % 1024 * unit + 10 * (bytes % unit)

instance (bytes : ℕ) : Decidable (DropsTenth bytes) := inferInstanceAs (Decidable (_ ≤ _))

variable {n b i f j k : ℕ} {suffix : Char}

/-! ## The loop -/

theorem natCast_tdiv (n : ℕ) : ((n : ℤ).tdiv 1024) = (n / 1024 : ℕ) := rfl

/-- The decimal, if the product is exact. -/
theorem fraction_natCast (h : 10 * n < 2 ^ 63) : fraction n = (10 * n / 1024 % 10 : ℕ) := by
  rw [fraction, toLong_eq_self (by omega) (by omega), Int.mul_comm]
  rfl

/-- The loop ends in the first round after which less than `1024` units are left, or after
    the last suffix. -/
theorem scale_eq (suffixes : List Char) (hn : 1024 ≤ n) :
    ∃ j suffix, (suffixes ++ ['E'])[j]? = some suffix ∧
      scale suffixes n = format (n / 1024 ^ (j + 1) : ℕ) (fraction (n / 1024 ^ j : ℕ)) suffix ∧
      shown suffixes n = (n / 1024 ^ j : ℕ) ∧
      1024 ^ (j + 1) ≤ n ∧ (j < suffixes.length → n < 1024 ^ (j + 2)) := by
  induction suffixes generalizing n with
  | nil => exact ⟨0, 'E', rfl, by simp [scale], by simp [shown], by simpa using hn, by simp⟩
  | cons suffix suffixes ih =>
    rw [scale, shown, natCast_tdiv]
    by_cases hlt : n / 1024 < 1024
    · have hlt' : ((n / 1024 : ℕ) : ℤ) < 1024 := by exact_mod_cast hlt
      rw [if_pos hlt', if_pos hlt']
      exact ⟨0, suffix, rfl, by simp, by simp, by simpa using hn, fun _ => by omega⟩
    · -- the next round, for `n / 1024`, of which `n` is at least `1024` times as much
      obtain ⟨j, last, hlast, htext, hshown, hle, hend⟩ := ih (not_lt.1 hlt)
      have hge : ¬((n / 1024 : ℕ) : ℤ) < 1024 := by exact_mod_cast hlt
      have hdiv (k : ℕ) : n / 1024 / 1024 ^ k = n / 1024 ^ (k + 1) := by
        rw [Nat.div_div_eq_div_mul, pow_succ']
      rw [if_neg hge, if_neg hge, htext, hshown, hdiv, hdiv]
      refine ⟨j + 1, last, hlast, rfl, rfl, ?_, fun hj => ?_⟩
      · rw [pow_succ]
        exact (Nat.le_div_iff_mul_le (by decide)).1 hle
      · rw [pow_succ]
        exact (Nat.div_lt_iff_lt_mul (by decide)).1 (hend (Nat.lt_of_succ_lt_succ hj))

/-! ## The digits -/

/-- The digits of `10 * m / 1024`, for the number `m` of the units below. -/
theorem digits_eq (m : ℕ) : 10 * (m / 1024) + 10 * m / 1024 % 10 = 10 * m / 1024 := by
  omega

/-- They are never too large. -/
theorem digits_le (b unit : ℕ) : 10 * (b / unit) / 1024 * (1024 * unit) ≤ 10 * b := by
  calc 10 * (b / unit) / 1024 * (1024 * unit) = 10 * (b / unit) / 1024 * 1024 * unit := by ring
    _ ≤ 10 * (b / unit) * unit := Nat.mul_le_mul_right _ (Nat.div_mul_le_self _ _)
    _ = 10 * (b / unit * unit) := by ring
    _ ≤ 10 * b := Nat.mul_le_mul_left _ (Nat.div_mul_le_self _ _)

/-- They are too small exactly if what was dropped completes the next tenth. -/
theorem lt_digits_iff (b unit : ℕ) :
    10 * b < (10 * (b / unit) / 1024 + 1) * (1024 * unit) ↔
      10 * (b / unit) % 1024 * unit + 10 * (b % unit) < 1024 * unit := by
  have hb : 10 * b = 10 * (b / unit) / 1024 * (1024 * unit) +
      (10 * (b / unit) % 1024 * unit + 10 * (b % unit)) := by
    calc 10 * b = 10 * (b / unit * unit + b % unit) := by rw [Nat.div_add_mod']
      _ = 10 * (b / unit) * unit + 10 * (b % unit) := by ring
      _ = (10 * (b / unit) / 1024 * 1024 + 10 * (b / unit) % 1024) * unit + 10 * (b % unit) := by
        rw [Nat.div_add_mod']
      _ = _ := by ring
  rw [hb, Nat.add_one_mul (10 * (b / unit) / 1024), Nat.add_lt_add_iff_left]

/-- The quotient and its digits, without fractions. -/
theorem le_quotient_iff (i f b k : ℕ) :
    (i + f / 10 : ℚ) ≤ (b : ℤ) / 1024 ^ (k + 1) ↔ (10 * i + f) * (1024 * 1024 ^ k) ≤ 10 * b := by
  have hdigits : (i + f / 10 : ℚ) = (10 * i + f : ℕ) / (10 : ℕ) := by
    push_cast
    ring
  rw [hdigits, pow_succ', Int.cast_natCast, div_le_div_iff₀ (by norm_num) (by positivity),
    mul_comm (b : ℚ)]
  exact_mod_cast Iff.rfl

theorem quotient_lt_iff (i f b k : ℕ) :
    ((b : ℤ) / 1024 ^ (k + 1) : ℚ) < i + f / 10 + 1 / 10 ↔
      10 * b < (10 * i + f + 1) * (1024 * 1024 ^ k) := by
  have hdigits : (i + f / 10 + 1 / 10 : ℚ) = (10 * i + f + 1 : ℕ) / (10 : ℕ) := by
    push_cast
    ring
  rw [hdigits, pow_succ', Int.cast_natCast, div_lt_div_iff₀ (by positivity) (by norm_num),
    mul_comm (b : ℚ)]
  exact_mod_cast Iff.rfl

/-! ## The text -/

theorem toString_natCast (n : ℕ) : toString (n : ℤ) = String.ofList (Nat.toDigits 10 n) := rfl

theorem toDigits_injective : Function.Injective (Nat.toDigits 10) := by
  intro m n h
  rw [← Nat.ofDigitChars_ten_toDigits (n := m), h, Nat.ofDigitChars_ten_toDigits]

/-- The digits and the suffix of a text. -/
theorem format_inj {i' f' : ℕ} {suffix' : Char} (hf : f < 10) (hf' : f' < 10)
    (h : format i f suffix = format i' f' suffix') : i = i' ∧ f = f' ∧ suffix = suffix' := by
  have htext (i f : ℕ) (suffix : Char) (hf : f < 10) : (format i f suffix).toList =
      Nat.toDigits 10 i ++ ['.', Nat.digitChar f, suffix] := by
    rw [format, toString_natCast, toString_natCast, Nat.toDigits_of_lt_base hf]
    simp
  rw [← String.toList_inj, htext i f suffix hf, htext i' f' suffix' hf'] at h
  obtain ⟨hi, hrest⟩ := List.append_inj' h rfl
  simp only [List.cons.injEq, and_true, true_and] at hrest
  refine ⟨toDigits_injective hi, toDigits_injective ?_, hrest.2⟩
  rw [Nat.toDigits_of_lt_base hf, Nat.toDigits_of_lt_base hf', hrest.1]

/-- What is shown of a number of bytes below `2 ^ 63`: the number of the units `1024 ^ k`. -/
theorem text_eq (hb : 1024 ≤ b) (hb' : b < 2 ^ 63) :
    ∃ suffix, "kMGTPE".toList[Nat.log 1024 b - 1]? = some suffix ∧
      b / 1024 ^ (Nat.log 1024 b - 1) < 1024 * 1024 ∧
      shown "kMGTP".toList b = (b / 1024 ^ (Nat.log 1024 b - 1) : ℕ) ∧
      toUserFriendlyByteString b = .ok (format
        (b / 1024 ^ (Nat.log 1024 b - 1) / 1024 : ℕ)
        (10 * (b / 1024 ^ (Nat.log 1024 b - 1)) / 1024 % 10 : ℕ) suffix) := by
  obtain ⟨j, suffix, hsuffix, htext, hshown, hle, hend⟩ := scale_eq "kMGTP".toList hb
  have hlt : b < 1024 ^ (j + 2) := by
    by_cases hj : j < "kMGTP".toList.length
    · exact hend hj
    · -- after the last suffix, `j` is `5`, and no `long` has more units
      calc b < 1024 ^ 7 := by omega
        _ ≤ 1024 ^ (j + 2) := Nat.pow_le_pow_right (by decide) (by simp at hj; omega)
  have hlog : Nat.log 1024 b = j + 1 := by
    rw [Nat.log_eq_iff (.inl (Nat.succ_ne_zero j))]
    exact ⟨hle, hlt⟩
  rw [hlog, Nat.add_sub_cancel]
  have hm : b / 1024 ^ j < 1024 * 1024 := by
    rw [Nat.div_lt_iff_lt_mul (Nat.pow_pos (by decide))]
    rwa [pow_add, mul_comm] at hlt
  refine ⟨suffix, hsuffix, hm, hshown, ?_⟩
  rw [toUserFriendlyByteString_of_le (by omega), htext, fraction_natCast (by omega), pow_succ,
    ← Nat.div_div_eq_div_mul]

/-- A suffix stands for one unit. -/
theorem suffix_inj {suffix : Char} (hj : "kMGTPE".toList[j]? = some suffix)
    (hk : "kMGTPE".toList[k]? = some suffix) : j = k := by
  obtain ⟨hlt, -⟩ := List.getElem?_eq_some_iff.1 hj
  exact (List.getElem?_inj hlt (by decide)).1 (hj.trans hk.symm)

theorem exists_showsCut_iff (hb : 1024 ≤ b) (hb' : b < 2 ^ 63) :
    (∃ i f k suffix, ShowsCut b i f k suffix) ↔ ¬DropsTenth b := by
  rw [DropsTenth, not_le, ← lt_digits_iff]
  obtain ⟨suffix, hsuffix, hm, hshown, htext⟩ := text_eq hb hb'
  set k := Nat.log 1024 b - 1
  set m := b / 1024 ^ k
  have hdigits := digits_eq m
  constructor
  · -- the text determines the digits and the unit: there is only one choice
    rintro ⟨i, f, k', suffix', h⟩
    obtain ⟨rfl, rfl, rfl⟩ := format_inj h.fraction_lt (Nat.mod_lt _ (by decide))
      (Except.ok.inj (h.text.symm.trans htext))
    obtain rfl : k' = k := suffix_inj h.suffix_eq hsuffix
    have hlt := (quotient_lt_iff _ _ _ _).1 h.lt
    rwa [hdigits] at hlt
  · intro hcut
    refine ⟨m / 1024, 10 * m / 1024 % 10, k, suffix, ?_⟩
    exact
      { suffix_eq := hsuffix
        integer_lt := by omega
        fraction_lt := Nat.mod_lt _ (by decide)
        text := htext
        le := by
          rw [le_quotient_iff, hdigits]
          exact digits_le b _
        lt := by
          rw [quotient_lt_iff, hdigits]
          exact hcut
        product := by
          rw [hshown]
          exact toLong_eq_self (by omega) (by omega) }

/-- For every `long` that is at least `1024`: the text is the exact quotient, cut to one
    decimal, exactly when what was dropped does not complete the next tenth. -/
theorem showsCut_iff (bytes : ℤ) (hle : 1024 ≤ bytes) (hlt : bytes < 2 ^ 63) :
    (∃ i f k suffix, ShowsCut bytes i f k suffix) ↔ ¬DropsTenth bytes.toNat := by
  obtain ⟨b, rfl⟩ := Int.eq_ofNat_of_zero_le (show 0 ≤ bytes by omega)
  exact exists_showsCut_iff (by omega) (by omega)

/-- The example of the documentation. -/
theorem showsCut_iff_example : ∃ i f k suffix, ShowsCut 2938274582 i f k suffix :=
  (showsCut_iff 2938274582 (by decide) (by decide)).2 (by decide +kernel)

/-- A little over `1.1` times `1024 ^ 2` is shown as `1.0`. -/
theorem not_showsCut :
    toUserFriendlyByteString 1153434 = .ok "1.0M" ∧ (11 / 10 : ℚ) ≤ 1153434 / 1024 ^ 2 ∧
      ¬∃ i f k suffix, ShowsCut 1153434 i f k suffix := by
  refine ⟨?_, by norm_num, fun h => ?_⟩
  · rw [toUserFriendlyByteString_of_le (by decide)]
    exact congrArg _ (by decide +kernel)
  · exact (exists_showsCut_iff (b := 1153434) (by decide) (by decide)).1 h (by decide +kernel)

end FileUtilities

end Raqet
