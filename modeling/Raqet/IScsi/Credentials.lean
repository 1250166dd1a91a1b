import Mathlib.Data.List.Basic
import Raqet.IScsi.TargetAddress

/-!
# The grammar of target addresses

A target address is written `[<username>:<password>@]<portal>` (`Grammar`): the username
ends at the first colon, the password at the last at sign, and the portal is not empty.

The parser finds both delimiters on its own, and puts no check on what comes after the at
sign: it takes the grammar, and besides it exactly the texts `<username>:<password>@`
without a portal (`ofString_eq_ok`). So it does what is documented of all other texts
(`parses_iff`).
-/

namespace Raqet

namespace TargetAddress

/-- `<username>:<password>@<portal>`. -/
def withCredentials (username password portalUrl : String) : String :=
  username ++ ":" ++ password ++ "@" ++ portalUrl

/-- A text of the grammar, and the address that it stands for. -/
inductive Grammar : String → TargetAddress → Prop
  | portal {portalUrl : String} : '@' ∉ portalUrl.toList → Grammar portalUrl ⟨portalUrl, "", ""⟩
  | credentials {username password portalUrl : String} :
    ':' ∉ username.toList → portalUrl ≠ "" → '@' ∉ portalUrl.toList →
      Grammar (withCredentials username password portalUrl) ⟨portalUrl, username, password⟩

/-- The text is parsed as it is documented. -/
structure Parses (s : String) : Prop where
  /-- What is built from it is what the grammar says, and nothing is built otherwise. -/
  grammar : ∀ address, ofString s = .ok address ↔ Grammar s address
  /-- The other constructor builds the same from the parts. -/
  parts : ∀ username password portalUrl, ':' ∉ username.toList → portalUrl ≠ "" →
    '@' ∉ portalUrl.toList → s = withCredentials username password portalUrl →
      ofString s = new portalUrl username password
  /-- What is built passes the check of the other constructor. -/
  check : ∀ address, ofString s = .ok address →
    new address.portalUrl address.username address.password = .ok address

/-- The text has credentials, and no portal after them. -/
def LacksPortal (s : String) : Prop := ':' ∈ s.toList ∧ s.toList.getLast? = some '@'

instance (s : String) : Decidable (LacksPortal s) := inferInstanceAs (Decidable (_ ∧ _))

variable {s username password portalUrl : String} {address : TargetAddress}

theorem new_ok (h : portalUrl ≠ "") :
    new portalUrl username password = .ok ⟨portalUrl, username, password⟩ := by
  rw [new, argNotEmpty, if_neg h]
  rfl

theorem new_empty : new "" username password ≠ .ok address := by rintro ⟨⟩

@[simp] theorem toList_withCredentials : (withCredentials username password portalUrl).toList =
    username.toList ++ ':' :: password.toList ++ '@' :: portalUrl.toList := by
  simp [withCredentials]

/-! ## What is parsed -/

/-- The index of the last at sign. -/
theorem length_sub_idxOf_reverse {a h : List Char} (hh : '@' ∉ h) :
    (a ++ '@' :: h).length - 1 - (a ++ '@' :: h).reverse.idxOf '@' = a.length := by
  have hidx : (a ++ '@' :: h).reverse.idxOf '@' = h.length := by
    rw [List.reverse_append, List.reverse_cons, List.append_assoc,
      List.idxOf_append_of_notMem (List.mem_reverse.not.2 hh), List.length_reverse,
      List.singleton_append, List.idxOf_cons_self, Nat.add_zero]
  rw [hidx, List.length_append, List.length_cons]
  omega

/-- A text with an at sign, whose last one is known. -/
theorem ofString_at {a h : List Char} (hh : '@' ∉ h) :
    ofString (String.ofList (a ++ '@' :: h)) =
      if (a ++ '@' :: h).idxOf ':' < a.length then
        .ok ⟨String.ofList h, String.ofList ((a ++ '@' :: h).take ((a ++ '@' :: h).idxOf ':')),
          String.ofList (a.drop ((a ++ '@' :: h).idxOf ':' + 1))⟩
      else .error (.indexOutOfBounds none) := by
  have hne : String.ofList (a ++ '@' :: h) ≠ "" := by simp
  rw [ofString, argNotEmpty, if_neg hne]
  simp only [String.toList_ofList, length_sub_idxOf_reverse hh]
  change (if '@' ∈ a ++ '@' :: h then _ else _) = _
  rw [if_pos (by simp), List.take_left, List.drop_append, List.drop_eq_nil_of_le (by omega)]
  simp

theorem ofString_portal (hs : s ≠ "") (h : '@' ∉ s.toList) : ofString s = .ok ⟨s, "", ""⟩ := by
  rw [ofString, argNotEmpty, if_neg hs]
  change (if '@' ∈ s.toList then _ else _) = _
  rw [if_neg h]

theorem ofString_withCredentials (hu : ':' ∉ username.toList) (hh : '@' ∉ portalUrl.toList) :
    ofString (withCredentials username password portalUrl) =
      .ok ⟨portalUrl, username, password⟩ := by
  have hidx : (username.toList ++ ':' :: password.toList ++ '@' :: portalUrl.toList).idxOf ':' =
      username.toList.length := by
    rw [List.append_assoc, List.idxOf_append_of_notMem hu, List.cons_append, List.idxOf_cons_self,
      Nat.add_zero]
  rw [← String.ofList_toList (s := withCredentials username password portalUrl),
    toList_withCredentials, ofString_at hh, hidx, if_pos (by simp)]
  simp

/-- The texts that are parsed: those of the grammar, and those that lack the portal. -/
theorem ofString_eq_ok (h : ofString s = .ok address) :
    ('@' ∉ s.toList ∧ address = ⟨s, "", ""⟩) ∨
      ∃ username password portalUrl, ':' ∉ username.toList ∧ '@' ∉ portalUrl.toList ∧
        s = withCredentials username password portalUrl ∧
        address = ⟨portalUrl, username, password⟩ := by
  by_cases hat : '@' ∈ s.toList
  · obtain ⟨h', a', hs, hh⟩ := List.eq_append_cons_of_mem (List.mem_reverse.2 hat)
    -- the text is cut at its last at sign, and then at its first colon
    obtain ⟨a, p, rfl, hp⟩ : ∃ a p, s = String.ofList (a ++ '@' :: p) ∧ '@' ∉ p := by
      refine ⟨a'.reverse, h'.reverse, String.toList_injective ?_, List.mem_reverse.not.2 hh⟩
      rw [← List.reverse_reverse s.toList, hs]
      simp
    rw [ofString_at hp] at h
    split_ifs at h with hlt
    have hcolon : ':' ∈ a := by
      by_contra hnot
      rw [List.idxOf_append_of_notMem hnot] at hlt
      omega
    obtain ⟨u, w, rfl, hu⟩ := List.eq_append_cons_of_mem hcolon
    refine .inr ⟨String.ofList u, String.ofList w, String.ofList p, by simpa using hu,
      by simpa using hp, String.toList_injective (by simp), ?_⟩
    rw [← Except.ok.inj h, List.append_assoc, List.idxOf_append_of_notMem hu]
    simp
  · left
    refine ⟨hat, ?_⟩
    by_cases hs : s = ""
    · subst hs
      cases h
    · rw [ofString_portal hs hat] at h
      exact (Except.ok.inj h).symm

/-- Whatever the grammar allows is parsed. -/
theorem Grammar.ofString_eq (h : Grammar s address) (hs : s ≠ "") : ofString s = .ok address := by
  induction h with
  | portal hat => exact ofString_portal hs hat
  | credentials hu hne hh => exact ofString_withCredentials hu hh

/-- What lacks the portal is taken apart into credentials. -/
theorem LacksPortal.eq_withCredentials (h : LacksPortal s) :
    ∃ username password, ':' ∉ username.toList ∧ s = withCredentials username password "" := by
  obtain ⟨hcolon, hlast⟩ := h
  obtain ⟨a, ha⟩ := List.getLast?_eq_some_iff.1 hlast
  have hmem : ':' ∈ a := by
    rw [ha] at hcolon
    simpa using hcolon
  obtain ⟨u, w, rfl, hu⟩ := List.eq_append_cons_of_mem hmem
  exact ⟨String.ofList u, String.ofList w, by simpa using hu,
    String.toList_injective (by simp [ha])⟩

theorem lacksPortal_withCredentials : LacksPortal (withCredentials username password "") := by
  rw [LacksPortal, toList_withCredentials]
  simp [List.getLast?_cons]

/-- For every text that is not empty: it is parsed as it is documented exactly when it does
    not lack the portal after its credentials. -/
theorem parses_iff (s : String) (hs : s ≠ "") : Parses s ↔ ¬LacksPortal s := by
  constructor
  · intro h hlacks
    obtain ⟨u, p, hu, rfl⟩ := hlacks.eq_withCredentials
    exact new_empty (h.check _ (ofString_withCredentials hu (by simp)))
  · intro h
    have hgrammar : ∀ address, ofString s = .ok address → Grammar s address := by
      intro address hok
      rcases ofString_eq_ok hok with ⟨hat, rfl⟩ | ⟨u, p, q, hu, hq, rfl, rfl⟩
      · exact .portal hat
      -- only the portal may be missing
      · refine .credentials hu ?_ hq
        rintro rfl
        exact h lacksPortal_withCredentials
    constructor
    · exact fun address => ⟨hgrammar address, fun hg => hg.ofString_eq hs⟩
    · rintro u p q hu hne hq rfl
      rw [ofString_withCredentials hu hq, new_ok hne]
    · intro address hok
      induction hgrammar address hok with
      | portal hat => exact new_ok hs
      | credentials hu hne hh => exact new_ok hne

/-- A password with a colon, and a portal with a port. -/
theorem parses_iff_colons : Parses "user:pass:word@portal:3260" :=
  (parses_iff "user:pass:word@portal:3260" (by decide)).2 (by decide +kernel)

/-- Credentials alone are taken for an address, which the other constructor refuses. -/
theorem not_parses_credentials :
    ofString "user:password@" = .ok ⟨"", "user", "password"⟩ ∧
      new "" "user" "password" = .error (.illegalArgument "portalUrl cannot be empty") ∧
      ¬Parses "user:password@" := by
  have htext : withCredentials "user" "password" "" = "user:password@" := by decide +kernel
  have hok : ofString "user:password@" = .ok ⟨"", "user", "password"⟩ := by
    rw [← htext]
    exact ofString_withCredentials (by decide) (by decide)
  exact ⟨hok, rfl, fun h => new_empty (h.check _ hok)⟩

end TargetAddress

end Raqet
