import Raqet.Database.InvestigationCaseDB

/-!
# Clients

The message of a client that registers (`Register`), and what the server keeps about the
client (`ClientInfo`). An id that a message does not have is `null`.
-/

namespace Raqet

/-- A `Devicemapping`: the name of the device that a client exports as a logical unit. -/
structure Devicemapping where
  device : String
  lun : ℤ
  deriving DecidableEq

/-- A `Register` message. -/
structure Register where
  clientid : Option String
  hardwareid : Option String
  devicemapping : List Devicemapping

/-- A `ClientInfo`. -/
structure ClientInfo where
  clientId : Option String
  hardwareId : Option String
  ipAddress : String
  devicemapping : AList fun _ : ℤ => Devicemapping
  computerDbEntry : Option ComputerDbEntry

namespace ClientInfo

/-- A new `ClientInfo` without a device mapping. -/
def new (clientid hardwareid : Option String) (ipAddress : String) : ClientInfo :=
  ⟨clientid, hardwareid, ipAddress, ∅, none⟩

/-- `setDevicemapping(devicemapping)`: of two devices of a logical unit, the last is kept. -/
def setDevicemapping (c : ClientInfo) (devicemapping : List Devicemapping) : ClientInfo :=
  { c with
    devicemapping := devicemapping.foldl (fun m dev => m.insert dev.lun dev) c.devicemapping }

/-- `getDeviceMapping(lun)`. -/
def getDeviceMapping (c : ClientInfo) (lun : ℤ) : Option Devicemapping := c.devicemapping.lookup lun

/-- `equals(target)`; an id of the client that is `null` throws once it is compared. -/
def equals (c target : ClientInfo) : Except Exn Bool :=
  match c.clientId with
  | none => .error .nullPointer
  | some clientId =>
    if some clientId = target.clientId ∧ c.ipAddress = target.ipAddress then
      match c.hardwareId with
      | none => .error .nullPointer
      | some hardwareId => .ok (some hardwareId = target.hardwareId)
    else .ok false

/-- The client at `clientList.indexOf(target)`. -/
def findIn (target : ClientInfo) : List ClientInfo → Except Exn (Option ClientInfo)
  | [] => .ok none
  | c :: clientList =>
    match target.equals c with
    | .error e => .error e
    | .ok true => .ok (some c)
    | .ok false => findIn target clientList

/-- The client that a `Register` message from this address is about. -/
def ofRegister (ipAddress : String) (target : Register) : ClientInfo :=
  (new target.clientid target.hardwareid ipAddress).setDevicemapping target.devicemapping

/-! ## The list of clients -/

/-- The ids of a client. -/
def ids (c : ClientInfo) : Option String × Option String := (c.clientId, c.hardwareId)

/-- What tells clients apart. -/
def identity (c : ClientInfo) : Option String × String × Option String :=
  (c.clientId, c.ipAddress, c.hardwareId)

variable {c c' target : ClientInfo} {clientList : List ClientInfo}

/-- A client with both ids is equal to those with the same identity. -/
theorem equals_of_ids (hclient : target.clientId ≠ none) (hhardware : target.hardwareId ≠ none) :
    target.equals c = .ok (target.identity = c.identity) := by
  obtain ⟨clientId, hc⟩ := Option.ne_none_iff_exists'.1 hclient
  obtain ⟨hardwareId, hh⟩ := Option.ne_none_iff_exists'.1 hhardware
  rw [equals, hc, hh]
  dsimp only
  rw [identity, identity, hc, hh]
  by_cases hsame : some clientId = c.clientId ∧ target.ipAddress = c.ipAddress
  · rw [if_pos hsame, hsame.1, hsame.2]
    simp
  · rw [if_neg hsame]
    simp only [Prod.mk.injEq, ← and_assoc, hsame, false_and, decide_false]

/-- Without an exception, only clients with the same identity are equal, and those are. -/
theorem equals_eq_ok {result : Bool} (h : target.equals c = .ok result) :
    result = true ↔ target.identity = c.identity := by
  rw [equals] at h
  split at h
  · cases h
  next clientId hc =>
    rw [identity, identity, hc, Prod.mk.injEq, Prod.mk.injEq, ← and_assoc]
    split_ifs at h with hsame
    · rw [and_iff_right hsame]
      split at h
      · cases h
      next hardwareId hh =>
        rw [← Except.ok.inj h, hh, decide_eq_true_eq]
    · rw [← Except.ok.inj h]
      exact iff_of_false Bool.false_ne_true fun h => hsame h.1

/-- A client that is found has the same identity. -/
theorem findIn_eq_some (h : target.findIn clientList = .ok (some c)) :
    c ∈ clientList ∧ target.identity = c.identity := by
  induction clientList with
  | nil => cases h
  | cons c' clientList ih =>
    rw [findIn] at h
    split at h
    · cases h
    next heq =>
      cases h
      exact ⟨List.mem_cons_self, (equals_eq_ok heq).1 rfl⟩
    next =>
      obtain ⟨hmem, hid⟩ := ih h
      exact ⟨List.mem_cons_of_mem _ hmem, hid⟩

/-- If none is found, no client in the list has the same identity. -/
theorem findIn_eq_none (h : target.findIn clientList = .ok none) :
    ∀ c ∈ clientList, target.identity ≠ c.identity := by
  induction clientList with
  | nil => exact List.forall_mem_nil _
  | cons c' clientList ih =>
    rw [findIn] at h
    split at h
    · cases h
    · cases h
    next heq =>
      exact List.forall_mem_cons.2 ⟨fun hid => Bool.false_ne_true ((equals_eq_ok heq).2 hid), ih h⟩

/-- A client with both ids is found, unless no client in the list has the same identity. -/
theorem findIn_eq_none_iff (hclient : target.clientId ≠ none)
    (hhardware : target.hardwareId ≠ none) :
    target.findIn clientList = .ok none ↔ ∀ c ∈ clientList, target.identity ≠ c.identity := by
  refine ⟨findIn_eq_none, fun h => ?_⟩
  induction clientList with
  | nil => rfl
  | cons c clientList ih =>
    obtain ⟨hne, hrest⟩ := List.forall_mem_cons.1 h
    rw [findIn, equals_of_ids hclient hhardware, decide_eq_false hne]
    exact ih hrest

end ClientInfo

end Raqet
