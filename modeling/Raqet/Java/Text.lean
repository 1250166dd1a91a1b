import Mathlib.Data.List.Basic
import Raqet.Java.Int

/-!
# Texts

Searching a text from its end, taking parts of it, and comparing texts without regard to
letter case. A character of a text stands for a `char`. The tables of upper and lower case
letters are a parameter (`CaseMapping`); all that is assumed of them is that they leave the
digit `1` alone, and where numbers are compared, all digits (`CaseMapping.KeepsDigits`).
-/

namespace Java

/-- `s.lastIndexOf(c)`: `-1` if the character does not occur. -/
def lastIndexOf (s : String) (c : Char) : ℤ :=
  s.toList.length - 1 - s.toList.reverse.idxOf c

/-- `String.valueOf(s)`, which a concatenation appends: of `null`, its name. -/
def valueOf (s : Option String) : String := s.getD "null"

/-- `s.substring(0, n)`. -/
def substringTo (s : String) (n : ℕ) : String := String.ofList (s.toList.take n)

/-- `s.substring(n)`. -/
def substringFrom (s : String) (n : ℕ) : String := String.ofList (s.toList.drop n)

/-- The tables of `Character.toUpperCase` and `Character.toLowerCase`. -/
structure CaseMapping where
  toUpperCase : Char → Char
  toLowerCase : Char → Char
  toUpperCase_eq_one : ∀ c, toUpperCase c = '1' ↔ c = '1'
  toLowerCase_eq_one : ∀ c, toLowerCase c = '1' ↔ c = '1'

namespace CaseMapping

variable (u : CaseMapping)

/-- Two characters are the same without regard to case. -/
def same (a b : Char) : Bool :=
  a == b || u.toUpperCase a == u.toUpperCase b ||
    u.toLowerCase (u.toUpperCase a) == u.toLowerCase (u.toUpperCase b)

/-- Two texts are the same without regard to case. -/
def sameText : List Char → List Char → Bool
  | [], [] => true
  | a :: s, b :: t => u.same a b && sameText s t
  | _, _ => false

/-- `s.equalsIgnoreCase(t)`. -/
def equalsIgnoreCase (s t : String) : Bool := u.sameText s.toList t.toList

/-- A character without regard to case. -/
def foldChar (c : Char) : Char := u.toLowerCase (u.toUpperCase c)

/-- A text without regard to case. -/
def fold (s : String) : String := s.map u.foldChar

/-- No digit has another case, and no other character has a digit as its other case. -/
structure KeepsDigits : Prop where
  toUpperCase : ∀ c, c.isDigit = true ∨ (u.toUpperCase c).isDigit = true → u.toUpperCase c = c
  toLowerCase : ∀ c, c.isDigit = true ∨ (u.toLowerCase c).isDigit = true → u.toLowerCase c = c

variable {u} {a b c : Char} {s t : String}

theorem same_iff : u.same a b = true ↔ u.foldChar a = u.foldChar b := by
  simp only [same, foldChar, Bool.or_eq_true, beq_iff_eq]
  constructor
  · rintro ((rfl | h) | h)
    · rfl
    · rw [h]
    · exact h
  · exact .inr

/-- Two texts are the same without regard to case if they are when they are folded. -/
theorem equalsIgnoreCase_iff : u.equalsIgnoreCase s t = true ↔ u.fold s = u.fold t := by
  suffices ∀ s t : List Char, u.sameText s t = true ↔ s.map u.foldChar = t.map u.foldChar by
    rw [equalsIgnoreCase, this, fold, fold, ← String.toList_inj, String.toList_map,
      String.toList_map]
  intro s
  induction s with
  | nil =>
    rintro (_ | ⟨b, t⟩)
    · exact iff_of_true rfl rfl
    · exact iff_of_false nofun nofun
  | cons a s ih =>
    rintro (_ | ⟨b, t⟩)
    · exact iff_of_false nofun nofun
    · rw [sameText, Bool.and_eq_true, same_iff, ih, List.map_cons, List.map_cons, List.cons.injEq]

theorem equalsIgnoreCase_eq_false : u.equalsIgnoreCase s t = false ↔ u.fold s ≠ u.fold t := by
  rw [Bool.eq_false_iff, Ne, equalsIgnoreCase_iff]

theorem fold_append : u.fold (s ++ t) = u.fold s ++ u.fold t := by
  rw [← String.toList_inj]
  simp only [fold, String.toList_map, String.toList_append, List.map_append]

theorem fold_singleton : u.fold (String.singleton c) = String.singleton (u.foldChar c) := by
  rw [← String.toList_inj, fold, String.toList_map]
  simp only [String.toList_singleton, List.map_cons, List.map_nil]

theorem KeepsDigits.foldChar (h : u.KeepsDigits) (hc : c.isDigit = true) : u.foldChar c = c := by
  rw [CaseMapping.foldChar, h.toUpperCase c (.inl hc), h.toLowerCase c (.inl hc)]

theorem KeepsDigits.isDigit_foldChar (h : u.KeepsDigits) (hc : c.isDigit = false) :
    (u.foldChar c).isDigit = false := by
  rw [Bool.eq_false_iff] at hc ⊢
  intro hdigit
  have hlower : u.foldChar c = u.toUpperCase c := h.toLowerCase _ (.inr hdigit)
  have hupper : u.toUpperCase c = c := h.toUpperCase c (.inr (hlower ▸ hdigit))
  rw [hlower, hupper] at hdigit
  exact hc hdigit

theorem same_one : u.same '1' c = true ↔ c = '1' := by
  have h₁ : u.toUpperCase '1' = '1' := (u.toUpperCase_eq_one '1').2 rfl
  have h₂ : u.toLowerCase '1' = '1' := (u.toLowerCase_eq_one '1').2 rfl
  simp only [same, h₁, h₂, Bool.or_eq_true, beq_iff_eq, eq_comm (a := '1'),
    u.toUpperCase_eq_one, u.toLowerCase_eq_one, or_self]

theorem same_one_right : u.same a '1' = true ↔ a = '1' := by
  have h₁ : u.toUpperCase '1' = '1' := (u.toUpperCase_eq_one '1').2 rfl
  have h₂ : u.toLowerCase '1' = '1' := (u.toLowerCase_eq_one '1').2 rfl
  simp only [same, h₁, h₂, Bool.or_eq_true, beq_iff_eq, u.toUpperCase_eq_one,
    u.toLowerCase_eq_one, or_self]

theorem sameText_self (s : List Char) : u.sameText s s = true := by
  induction s with
  | nil => rfl
  | cons a s ih => simp [sameText, same, ih]

@[simp] theorem equalsIgnoreCase_self : u.equalsIgnoreCase s s = true := sameText_self _

/-- Texts that are the same have the same length. -/
theorem length_eq_of_sameText : ∀ {s t : List Char}, u.sameText s t = true → s.length = t.length
  | [], [], _ => rfl
  | [], _ :: _, h => by cases h
  | _ :: _, [], h => by cases h
  | _ :: s, _ :: t, h => by
    rw [sameText, Bool.and_eq_true] at h
    rw [List.length_cons, List.length_cons, length_eq_of_sameText h.2]

/-- A text is not the same as one that starts with a `1` and as one that does not. -/
theorem not_equalsIgnoreCase_of_one {x : String} {l m : List Char}
    (h : u.equalsIgnoreCase s x = true) (hs : s.toList = a :: l) (ha : a ≠ '1')
    (ht : t.toList = '1' :: m) : u.equalsIgnoreCase t x = false := by
  rw [Bool.eq_false_iff]
  intro h'
  rw [equalsIgnoreCase, hs] at h
  rw [equalsIgnoreCase, ht] at h'
  cases hx : x.toList with
  | nil =>
    rw [hx] at h
    cases h
  | cons c k =>
    rw [hx, sameText, Bool.and_eq_true] at h h'
    obtain rfl := same_one.1 h'.1
    exact ha (same_one_right.1 h.1)

/-- Other characters than those of ASCII are kept. -/
private theorem toUpper_toLower_of_le (h : 128 ≤ c.toNat) : c.toUpper = c ∧ c.toLower = c := by
  have h₁ : ¬c.val ≤ 'z'.val := fun hle => by
    have := UInt32.le_iff_toNat_le.1 hle
    change c.toNat ≤ 122 at this
    omega
  have h₂ : ¬c.val ≤ 'Z'.val := fun hle => by
    have := UInt32.le_iff_toNat_le.1 hle
    change c.toNat ≤ 90 at this
    omega
  constructor
  · exact dif_neg fun h => h₁ h.2
  · exact dif_neg fun h => h₂ h.2

/-- The letters of ASCII are not digits. -/
private theorem toUpper_toLower_digit (c : Char) :
    (c.isDigit = true ∨ c.toUpper.isDigit = true → c.toUpper = c) ∧
      (c.isDigit = true ∨ c.toLower.isDigit = true → c.toLower = c) := by
  by_cases h : c.toNat < 128
  · have ascii : ∀ n : Fin 128, ((Char.ofNat n).isDigit = true ∨ (Char.ofNat n).toUpper.isDigit =
          true → (Char.ofNat n).toUpper = Char.ofNat n) ∧
        ((Char.ofNat n).isDigit = true ∨ (Char.ofNat n).toLower.isDigit = true →
          (Char.ofNat n).toLower = Char.ofNat n) := by
      decide +kernel
    have := ascii ⟨c.toNat, h⟩
    rwa [Char.ofNat_toNat] at this
  · exact ⟨fun _ => (toUpper_toLower_of_le (by omega)).1,
      fun _ => (toUpper_toLower_of_le (by omega)).2⟩

private theorem toUpper_toLower_eq_one (c : Char) :
    (c.toUpper = '1' ↔ c = '1') ∧ (c.toLower = '1' ↔ c = '1') := by
  by_cases h : c.toNat < 128
  · have ascii : ∀ n : Fin 128, ((Char.ofNat n).toUpper = '1' ↔ Char.ofNat n = '1') ∧
        ((Char.ofNat n).toLower = '1' ↔ Char.ofNat n = '1') := by
      decide +kernel
    have := ascii ⟨c.toNat, h⟩
    rwa [Char.ofNat_toNat] at this
  · rw [(toUpper_toLower_of_le (by omega)).1, (toUpper_toLower_of_le (by omega)).2]
    exact ⟨.rfl, .rfl⟩

/-- The letters of ASCII. -/
def ascii : CaseMapping where
  toUpperCase := Char.toUpper
  toLowerCase := Char.toLower
  toUpperCase_eq_one c := (toUpper_toLower_eq_one c).1
  toLowerCase_eq_one c := (toUpper_toLower_eq_one c).2

theorem keepsDigits_ascii : ascii.KeepsDigits :=
  ⟨fun c => (toUpper_toLower_digit c).1, fun c => (toUpper_toLower_digit c).2⟩

end CaseMapping

/-! ## The last part of a text -/

variable {c : Char} {s t : String}

/-- What is after the last occurrence of the character does not have it. -/
theorem lastIndexOf_append (h : c ∉ t.toList) :
    lastIndexOf (s ++ String.singleton c ++ t) c = s.toList.length := by
  rw [lastIndexOf]
  simp only [String.toList_append, String.toList_singleton, List.reverse_append, List.reverse_cons,
    List.reverse_nil, List.nil_append, List.length_append, List.length_cons, List.length_nil]
  rw [List.idxOf_append_of_notMem (List.mem_reverse.not.2 h), List.length_reverse,
    List.singleton_append, List.idxOf_cons_self]
  omega

theorem lastIndexOf_of_notMem (h : c ∉ s.toList) : lastIndexOf s c = -1 := by
  rw [lastIndexOf, List.idxOf_of_notMem (List.mem_reverse.not.2 h), List.length_reverse]
  omega

theorem substringTo_append :
    substringTo (s ++ t) s.toList.length = s := by
  rw [substringTo, String.toList_append, List.take_left, String.ofList_toList]

theorem substringFrom_append :
    substringFrom (s ++ t) s.toList.length = t := by
  rw [substringFrom, String.toList_append, List.drop_left, String.ofList_toList]

end Java
