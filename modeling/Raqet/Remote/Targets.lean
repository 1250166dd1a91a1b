import Raqet.IScsi.Connection
import Raqet.Remote.LogicalUnits

/-!
# Listing targets over libiscsi

`listTargets` over the functions of libiscsi: a context and a connection for the discovery,
then a context for every target, and a connection for each of its portals, all in blocks
that close them.

* `listTargets_released`: whatever libiscsi answers, and wherever it fails, every context,
  connection and task is given back once, in the reverse order, and none is used before or
  after that;
* `listTargets_refines`: what is returned or thrown is what `Raqet.Remote.Discovery` says
  about the answers of the portals.
-/

namespace Raqet

open Resource

/-- The answers of a target that was discovered at an address, and of its portals. A target
    without a name is not connected to. -/
def TargetAnswer.At (address : ScsiDiscoveryAddress) (target : TargetAnswer) : Prop :=
  match address.1 with
  | some targetName => target.targetName = targetName ∧ target.portals.map (·.1) = address.2
  | none => target.context ≠ none

namespace RemoteDeviceManager

variable {σ : Type} (lib : LibIscsi σ) (initiatorName : String) (targetAddress : TargetAddress)
  (rounds : ℕ)

/-- A computation with the list of devices. -/
abbrev Querying (σ : Type) := Comp (σ × List DiscoveredDevice) Handle Exn

/-- `remoteDeviceInfoList.add(device)`. -/
def addDevice (device : DiscoveredDevice) : Querying σ Unit :=
  .call (fun _ => []) fun s => ((), s.1, s.2 ++ [device])

/-- The loop over the logical units of a portal. -/
def askLogicalUnits (iscsi : ℕ) (targetName portalUrl : String) : List ℕ → Querying σ Unit
  | [] => pure ()
  | lun :: luns => do
    let _ ← (IScsiLogicalUnit.inquireDeviceType lib iscsi lun).lift
    let capacity ← (IScsiLogicalUnit.requestCapacity lib iscsi lun).lift
    addDevice ⟨portalUrl, targetName, lun, capacity, targetAddress⟩
    askLogicalUnits iscsi targetName portalUrl luns

/-- The block with the connection to a portal. -/
def askPortal (iscsi : ℕ) (targetName portalUrl : String) : Querying σ Unit :=
  .withResource (IScsiContext.fullConnect lib iscsi portalUrl (-1)).lift
    (fun _ => (IScsiConnection.close lib iscsi).lift) fun _ => do
      let luns ← (IScsiConnection.reportLuns lib iscsi).lift
      askLogicalUnits lib targetAddress iscsi targetName portalUrl luns

/-- `catch (IScsiException e)`, which goes on with the next portal. -/
def skipPortal : Exn → Option (Querying σ Unit)
  | .iScsi _ => some (pure ())
  | _ => none

/-- The loop over the portals. -/
def askPortals (iscsi : ℕ) (targetName : String) : List String → Querying σ Unit
  | [] => pure ()
  | portalUrl :: portals => do
    (askPortal lib targetAddress iscsi targetName portalUrl).catching skipPortal
    askPortals iscsi targetName portals

/-- `queryRemoteDevices(context, targetName, targetAddress, portals)`. -/
def askRemoteDevices (iscsi : ℕ) (targetName : String) (portals : List String) :
    IScsi σ (List DiscoveredDevice) :=
  .withLocal [] (askPortals lib targetAddress iscsi targetName portals)

/-- The block of `listTargets` that asks for the targets. -/
def discoverTargets : IScsi σ (List ScsiDiscoveryAddress) :=
  .withResource (IScsiContext.create lib initiatorName) (IScsiContext.close lib) fun iscsi => do
    IScsiContext.setSessionType lib iscsi .discovery
    IScsiContext.setInitiatorUsernamePwd lib iscsi targetAddress.username targetAddress.password
    .withResource (IScsiContext.connect lib iscsi targetAddress.portalUrl)
      (fun _ => IScsiConnection.close lib iscsi) fun _ => do
        IScsiConnection.login lib iscsi
        let addressMap ← IScsiConnection.discovery lib iscsi rounds
        IScsiConnection.logout lib iscsi
        return addressMap

/-- The block for a target. -/
def askTarget (address : ScsiDiscoveryAddress) : IScsi σ (List DiscoveredDevice) :=
  .withResource (IScsiContext.create lib initiatorName) (IScsiContext.close lib) fun iscsi => do
    IScsiContext.setSessionType lib iscsi .normal
    let targetName ← IScsiContext.setTargetName lib iscsi address.1
    IScsiContext.setInitiatorUsernamePwd lib iscsi targetAddress.username targetAddress.password
    askRemoteDevices lib targetAddress iscsi targetName address.2

/-- The loop over the targets. -/
def askTargets : List ScsiDiscoveryAddress → IScsi σ (List DiscoveredDevice)
  | [] => pure []
  | address :: addresses => do
    let devices ← askTarget lib initiatorName targetAddress address
    let deviceList ← askTargets addresses
    return devices ++ deviceList

/-- `listTargets(targetAddress)`. The order in which the map is iterated is an argument. -/
def askForTargets (order : List ScsiDiscoveryAddress → List ScsiDiscoveryAddress) :
    IScsi σ (List DiscoveredDevice) := do
  let addressMap ← discoverTargets lib initiatorName targetAddress rounds
  askTargets lib initiatorName targetAddress (order addressMap)

/-! ## What is held -/

variable {lib initiatorName targetAddress rounds} {iscsi : ℕ} {targetName portalUrl : String}
  {held : List Handle}

theorem holds_askLogicalUnits (hconn : .connection iscsi ∈ held) (hctx : .context iscsi ∈ held)
    (luns : List ℕ) :
    Holds held (askLogicalUnits lib targetAddress iscsi targetName portalUrl luns)
      (fun _ => held) held := by
  induction luns with
  | nil => exact holds_pure rfl
  | cons lun luns ih =>
    refine (IScsiLogicalUnit.holds_inquireDeviceType hconn hctx lun).lift.bind fun _ => ?_
    refine (IScsiLogicalUnit.holds_requestCapacity hconn hctx lun).lift.bind fun _ => ?_
    exact Holds.bind (holds_call fun _ => rfl) fun _ => ih

theorem holds_askPortal (hctx : .context iscsi ∈ held) :
    Holds held (askPortal lib targetAddress iscsi targetName portalUrl) (fun _ => held) held := by
  have hmem := List.mem_cons_of_mem (.connection iscsi) hctx
  refine Holds.withResource (fun _ => .connection iscsi)
    (IScsiContext.holds_fullConnect hctx portalUrl (-1)).lift
    (fun _ => (IScsiConnection.holds_close hctx).lift) fun _ => ?_
  exact (IScsiConnection.holds_reportLuns List.mem_cons_self hmem).lift.bind
    fun luns => holds_askLogicalUnits List.mem_cons_self hmem luns

theorem holds_askRemoteDevices (hctx : .context iscsi ∈ held) (portals : List String) :
    Holds held (askRemoteDevices lib targetAddress iscsi targetName portals)
      (fun _ => held) held := by
  refine Holds.withLocal ?_
  induction portals with
  | nil => exact holds_pure rfl
  | cons portalUrl portals ih =>
    refine ((holds_askPortal hctx).catching fun e h hh => ?_).bind fun _ => ih
    cases e <;> cases hh
    exact holds_pure rfl

theorem holds_discoverTargets :
    Holds held (discoverTargets lib initiatorName targetAddress rounds) (fun _ => held) held := by
  refine Holds.withResource _ (IScsiContext.holds_create initiatorName)
    (fun _ => IScsiContext.holds_close) fun iscsi => ?_
  have hctx : Handle.context iscsi ∈ .context iscsi :: held := List.mem_cons_self
  have hmem := List.mem_cons_of_mem (.connection iscsi) hctx
  refine (IScsiContext.holds_setSessionType hctx _).bind fun _ => ?_
  refine (IScsiContext.holds_setInitiatorUsernamePwd hctx _ _).bind fun _ => ?_
  refine Holds.withResource (fun _ => .connection iscsi) (IScsiContext.holds_connect hctx _)
    (fun _ => IScsiConnection.holds_close hctx) fun _ => ?_
  refine (IScsiConnection.holds_login List.mem_cons_self hmem).bind fun _ => ?_
  refine (IScsiConnection.holds_discovery List.mem_cons_self hmem rounds).bind fun _ => ?_
  exact (IScsiConnection.holds_logout List.mem_cons_self hmem).bind fun _ => holds_pure rfl

theorem holds_askTarget (address : ScsiDiscoveryAddress) :
    Holds held (askTarget lib initiatorName targetAddress address) (fun _ => held) held := by
  refine Holds.withResource _ (IScsiContext.holds_create initiatorName)
    (fun _ => IScsiContext.holds_close) fun iscsi => ?_
  have hctx : Handle.context iscsi ∈ .context iscsi :: held := List.mem_cons_self
  refine (IScsiContext.holds_setSessionType hctx _).bind fun _ => ?_
  refine (IScsiContext.holds_setTargetName hctx _).bind fun _ => ?_
  refine (IScsiContext.holds_setInitiatorUsernamePwd hctx _ _).bind fun _ => ?_
  exact holds_askRemoteDevices hctx _

theorem holds_askTargets (addresses : List ScsiDiscoveryAddress) :
    Holds held (askTargets lib initiatorName targetAddress addresses) (fun _ => held) held := by
  induction addresses with
  | nil => exact holds_pure rfl
  | cons address addresses ih =>
    exact (holds_askTarget address).bind fun _ => ih.bind fun _ => holds_pure rfl

/-- Whatever libiscsi answers: `listTargets` only uses and releases what it holds, what was
    acquired last first; and once it has returned or thrown, it holds nothing, and has given
    everything back as often as it got it. -/
theorem listTargets_released (lib : LibIscsi σ) (initiatorName : String)
    (targetAddress : TargetAddress) (rounds : ℕ)
    (order : List ScsiDiscoveryAddress → List ScsiDiscoveryAddress) (s : σ) :
    let o := askForTargets lib initiatorName targetAddress rounds order s
    (∃ held, Transition.runs Resource.step [] o.events = some held ∧
      (o.result ≠ none → held = [])) ∧
    (o.result ≠ none → ∀ k, acquires k o.events = releases k o.events) :=
  Holds.balanced (holds_discoverTargets.bind fun _ => holds_askTargets _) s

/-! ## The answers of the portals -/

open IScsiObject

variable {s t : σ} {α : Type}

/-- An exception, if any. -/
def ofException : Option Exn → Except Exn Unit
  | none => .ok ()
  | some e => .error e

theorem ofException_eq_ok {x : Option Exn} {u : Unit} : .ok u = ofException x ↔ x = none := by
  cases x <;> simp [ofException]

theorem ofException_eq_error {x : Option Exn} {e : Exn} :
    .error e = ofException x ↔ x = some e := by
  cases x <;> simp [ofException, eq_comm]

theorem skipPortal_eq_some {e : Exn} {k : Querying σ Unit} (h : skipPortal e = some k) :
    e.IsIScsi ∧ k = pure () := by
  cases e <;> cases h
  exact ⟨⟨_, rfl⟩, rfl⟩

theorem skipPortal_eq_none {e : Exn} (h : skipPortal (σ := σ) e = none) : ¬e.IsIScsi := by
  rintro ⟨message, rfl⟩
  cases h

theorem fail_returns {message : String} {r : Except Exn α}
    (h : (fail lib iscsi (some message)).Returns s r t) :
    ∃ error, r = .error (libiscsiError message error) := by
  rcases Comp.Returns.bind h with ⟨error, u, -, h⟩ | ⟨e, h, -⟩
  · exact ⟨error, (returns_throw.1 h).1⟩
  · exact absurd (returns_call.1 h).1 (by simp)

theorem checkPointer_error {message : String} {p : Option α} {e : Exn}
    (h : (checkPointer lib iscsi p (some message)).Returns s (.error e) t) :
    ∃ error, e = libiscsiError message error := by
  cases p with
  | none =>
    obtain ⟨error, he⟩ := fail_returns h
    exact ⟨error, Except.error.inj he⟩
  | some a => exact absurd (returns_pure.1 h).1 (by simp)

theorem send_error {command : σ → Option ScsiTask × σ} {message : String} {e : Exn}
    (h : (send lib iscsi command (some message)).Returns s (.error e) t) :
    ∃ error, e = libiscsiError message error := by
  rcases Comp.Returns.bind h with ⟨task, u, -, h⟩ | ⟨e, h, -⟩
  · exact checkPointer_error h
  · exact absurd (returns_call.1 h).1 (by simp)

theorem datainUnmarshall_error {task : ScsiTask} {e : Exn}
    (h : (datainUnmarshall lib iscsi task).Returns s (.error e) t) :
    ∃ error, e = libiscsiError "Failed to unmarshall datain blob" error := by
  rcases Comp.Returns.bind h with ⟨p, u, -, h⟩ | ⟨e, h, -⟩
  · exact checkPointer_error h
  · exact absurd (returns_call.1 h).1 (by simp)

/-- The request for a capacity ends as the answer that it stands for does. -/
theorem requestCapacity_refines {lun : ℤ} {r : Except Exn IScsiLogicalUnitCapacity}
    (h : (IScsiLogicalUnit.requestCapacity lib iscsi lun).Returns s r t) :
    ∃ answer, IScsiLogicalUnit.readCapacity answer = r := by
  rcases h.withResource with ⟨e, hsend, rfl⟩ | ⟨task, u, x, v, c, -, hbody, hfree, rfl⟩
  · obtain ⟨error, rfl⟩ := send_error hsend
    exact ⟨.null error, rfl⟩
  · rw [(returns_call.1 hfree).1]
    split_ifs at hbody with hstatus
    · rw [(returns_throw.1 hbody).1]
      exact ⟨.failed, rfl⟩
    · rcases Comp.Returns.bind hbody with ⟨data, w, -, hdata⟩ | ⟨e, hdata, rfl⟩
      · rw [(returns_pure.1 hdata).1]
        exact ⟨.good data.capacity, rfl⟩
      · obtain ⟨error, rfl⟩ := datainUnmarshall_error hdata
        exact ⟨.garbled error, rfl⟩

/-- Answers of logical units that are not asked, after one that failed. -/
def unasked (luns : List ℕ) : List LogicalUnitAnswer := luns.map fun lun => ⟨lun, none, .failed⟩

theorem lun_unasked (luns : List ℕ) : (unasked luns).map (·.lun) = luns := by
  rw [unasked, List.map_map]
  exact List.map_id luns

/-- The devices that are added for logical units, and the exception, are those for some
    answers of them. -/
theorem askLogicalUnits_refines {luns : List ℕ} {s t : σ × List DiscoveredDevice}
    {r : Except Exn Unit}
    (h : (askLogicalUnits lib targetAddress iscsi targetName portalUrl luns).Returns s r t) :
    ∃ units : List LogicalUnitAnswer, units.map (·.lun) = luns ∧
      t.2 = s.2 ++ (queryLogicalUnits targetName targetAddress portalUrl units).1 ∧
      r = ofException (queryLogicalUnits targetName targetAddress portalUrl units).2 := by
  induction luns generalizing s with
  | nil =>
    obtain ⟨rfl, rfl⟩ := returns_pure.1 h
    exact ⟨[], rfl, (List.append_nil _).symm, rfl⟩
  | cons lun luns ih =>
    rcases Comp.Returns.bind h with ⟨deviceType, u, htype, hrest⟩ | ⟨e, htype, rfl⟩
    · have hu := (returns_lift.1 htype).2
      rcases Comp.Returns.bind hrest with ⟨capacity, v, hlift, hrest⟩ | ⟨e, hlift, rfl⟩
      · obtain ⟨hcapacity, hv⟩ := returns_lift.1 hlift
        obtain ⟨answer, hanswer⟩ := requestCapacity_refines hcapacity
        rcases Comp.Returns.bind hrest with ⟨_, w, hadd, hrest⟩ | ⟨e, hadd, -⟩
        · have hw : w.2 = s.2 ++ [⟨portalUrl, targetName, lun, capacity, targetAddress⟩] := by
            rw [(returns_call.1 hadd).2, hv, hu]
          obtain ⟨units, hunits, ht, hr⟩ := ih hrest
          refine ⟨⟨lun, none, answer⟩ :: units, congrArg (lun :: ·) hunits, ?_, ?_⟩
          · rw [queryLogicalUnits, hanswer, ht, hw, List.append_assoc]
            rfl
          · rw [queryLogicalUnits, hanswer]
            exact hr
        · exact absurd (returns_call.1 hadd).1 (by simp)
      · obtain ⟨hcapacity, hv⟩ := returns_lift.1 hlift
        obtain ⟨answer, hanswer⟩ := requestCapacity_refines hcapacity
        refine ⟨⟨lun, none, answer⟩ :: unasked luns, congrArg (lun :: ·) (lun_unasked luns),
          ?_, ?_⟩
        · rw [queryLogicalUnits, hanswer, hv, hu]
          exact (List.append_nil _).symm
        · rw [queryLogicalUnits, hanswer]
          rfl
    -- the exception ends the loop, so the answers of the other units do not matter
    · refine ⟨⟨lun, some e, .failed⟩ :: unasked luns, congrArg (lun :: ·) (lun_unasked luns),
        ?_, rfl⟩
      rw [(returns_lift.1 htype).2]
      exact (List.append_nil _).symm

/-- So are those for a portal. -/
theorem askPortal_refines {s t : σ × List DiscoveredDevice} {r : Except Exn Unit}
    (h : (askPortal lib targetAddress iscsi targetName portalUrl).Returns s r t) :
    ∃ answer : PortalAnswer,
      t.2 = s.2 ++ (queryPortal targetName targetAddress portalUrl answer).1 ∧
      r = ofException (queryPortal targetName targetAddress portalUrl answer).2 := by
  rcases h.withResource with ⟨e, hconnect, rfl⟩ | ⟨_, u, x, v, c, hconnect, hbody, hclose, rfl⟩
  · refine ⟨.fails e, ?_, rfl⟩
    rw [(returns_lift.1 hconnect).2]
    exact (List.append_nil _).symm
  · have hu := (returns_lift.1 hconnect).2
    have ht := (returns_lift.1 hclose).2
    rcases Comp.Returns.bind hbody with ⟨luns, w, hluns, hrest⟩ | ⟨e, hluns, rfl⟩
    · obtain ⟨units, -, hv, rfl⟩ := askLogicalUnits_refines hrest
      rw [(returns_lift.1 hluns).2, hu] at hv
      rw [ht, hv]
      cases c with
      | ok _ =>
        refine ⟨.luns units none, rfl, ?_⟩
        rw [queryPortal]
        cases (queryLogicalUnits targetName targetAddress portalUrl units).2 <;> rfl
      | error e =>
        refine ⟨.luns units (some e), rfl, ?_⟩
        rw [queryPortal]
        cases (queryLogicalUnits targetName targetAddress portalUrl units).2 <;> rfl
    · refine ⟨.fails e, ?_, rfl⟩
      rw [ht, (returns_lift.1 hluns).2, hu]
      exact (List.append_nil _).symm

/-- What the portals of a target add is kept, unless another exception than an
    `IScsiException` ends the loop. -/
theorem askPortals_refines {portals : List String} {s t : σ × List DiscoveredDevice}
    {r : Except Exn Unit}
    (h : (askPortals lib targetAddress iscsi targetName portals).Returns s r t) :
    ∃ answers : List (String × PortalAnswer), answers.map (·.1) = portals ∧
      ∃ devices, t.2 = s.2 ++ devices ∧
        queryRemoteDevices targetName targetAddress answers = r.map fun _ => devices := by
  induction portals generalizing s with
  | nil =>
    obtain ⟨rfl, rfl⟩ := returns_pure.1 h
    exact ⟨[], rfl, [], (List.append_nil _).symm, rfl⟩
  | cons portalUrl portals ih =>
    have hunasked : ∀ answer : PortalAnswer, ((portalUrl, answer) :: portals.map fun portalUrl =>
        (portalUrl, PortalAnswer.fails .io)).map (·.1) = portalUrl :: portals := by
      intro answer
      simp [Function.comp_def]
    rcases Comp.Returns.bind h with ⟨_, u, hportal, hrest⟩ | ⟨e, hportal, rfl⟩
    · -- The loop goes on after the portal.
      obtain ⟨answer, devices, hu, hx, hcaught⟩ : ∃ answer devices, u.2 = s.2 ++ devices ∧
          (queryPortal targetName targetAddress portalUrl answer).1 = devices ∧
          ∀ e, (queryPortal targetName targetAddress portalUrl answer).2 = some e →
            e.IsIScsi := by
        rcases hportal.catching with ⟨hreturns, -⟩ | ⟨e, k, v, hthrows, hk, hskip⟩
        · obtain ⟨answer, hu, hx⟩ := askPortal_refines hreturns
          refine ⟨answer, _, hu, rfl, fun e he => ?_⟩
          rw [ofException_eq_ok.1 hx] at he
          cases he
        · obtain ⟨answer, hv, hx⟩ := askPortal_refines hthrows
          obtain ⟨hiscsi, rfl⟩ := skipPortal_eq_some hk
          refine ⟨answer, _, (returns_pure.1 hskip).2 ▸ hv, rfl, fun e' he' => ?_⟩
          rw [ofException_eq_error.1 hx, Option.some.injEq] at he'
          exact he' ▸ hiscsi
      obtain ⟨answers, hanswers, devices', ht, hquery⟩ := ih hrest
      refine ⟨(portalUrl, answer) :: answers, congrArg (portalUrl :: ·) hanswers,
        devices ++ devices', ?_, ?_⟩
      · rw [ht, hu, List.append_assoc]
      · rw [queryRemoteDevices_cons hcaught, hquery, hx]
        cases r <;> rfl
    · -- An exception that is not caught.
      rcases hportal.catching with ⟨hthrows, hnone⟩ | ⟨e', k, v, hthrows, hk, hskip⟩
      · obtain ⟨answer, ht, hx⟩ := askPortal_refines hthrows
        refine ⟨_, hunasked answer, _, ht, ?_⟩
        exact queryRemoteDevices_cons_error (skipPortal_eq_none (hnone e rfl))
          (ofException_eq_error.1 hx)
      · obtain ⟨-, rfl⟩ := skipPortal_eq_some hk
        exact absurd (returns_pure.1 hskip).1 (by simp)

theorem askRemoteDevices_refines {portals : List String} {r : Except Exn (List DiscoveredDevice)}
    (h : (askRemoteDevices lib targetAddress iscsi targetName portals).Returns s r t) :
    ∃ answers : List (String × PortalAnswer), answers.map (·.1) = portals ∧
      queryRemoteDevices targetName targetAddress answers = r := by
  obtain ⟨x, y, hx, rfl⟩ := h.withLocal
  obtain ⟨answers, hanswers, devices, hy, hquery⟩ := askPortals_refines hx
  obtain rfl : y = devices := hy.trans (List.nil_append devices)
  exact ⟨answers, hanswers, hquery⟩

/-- What a target that is not connected to would answer. -/
def unaskedTarget (address : ScsiDiscoveryAddress) (context : Exn) : TargetAnswer :=
  ⟨address.1.getD "", some context, address.2.map fun portalUrl => (portalUrl, .fails .io), none⟩

theorem unaskedTarget_at (address : ScsiDiscoveryAddress) (context : Exn) :
    TargetAnswer.At address (unaskedTarget address context) := by
  rw [TargetAnswer.At]
  split
  next targetName hname =>
    refine ⟨by rw [unaskedTarget, hname]; rfl, ?_⟩
    rw [unaskedTarget, List.map_map]
    exact List.map_id _
  next => exact nofun

/-- The name that was set is that of the target. -/
theorem setTargetName_ok {name : Option String} {targetName : String}
    (h : (IScsiContext.setTargetName lib iscsi name).Returns s (.ok targetName) t) :
    name = some targetName := by
  cases name with
  | none =>
    rcases Comp.Returns.bind h with ⟨_, _, h, -⟩ | ⟨_, -, he⟩
    · exact absurd (returns_throw.1 h).1 (by simp)
    · cases he
  | some name =>
    rcases Comp.Returns.bind h with ⟨_, _, hname, h⟩ | ⟨_, -, he⟩
    · rcases Comp.Returns.bind h with ⟨_, _, -, h⟩ | ⟨_, -, he⟩
      · rcases Comp.Returns.bind h with ⟨_, _, -, h⟩ | ⟨_, -, he⟩
        · cases (returns_pure.1 h).1
          cases (returns_pure.1 hname).1
          rfl
        · cases he
      · cases he
    · cases he

/-- The block of `listTargets` for a target, by its answers. -/
def queryTarget (targetAddress : TargetAddress) (target : TargetAnswer) :
    Except Exn (List DiscoveredDevice) := do
  if let some e := target.context then Except.error e
  let devices ← queryRemoteDevices target.targetName targetAddress target.portals
  if let some e := target.close then Except.error e
  return devices

theorem queryTargets_cons (target : TargetAnswer) (targets : List TargetAnswer) :
    queryTargets targetAddress (target :: targets) =
      (queryTarget targetAddress target).bind fun devices =>
        (queryTargets targetAddress targets).map (devices ++ ·) := by
  rw [queryTargets, queryTarget]
  cases target.context with
  | some e => rfl
  | none =>
    cases queryRemoteDevices target.targetName targetAddress target.portals with
    | error e => rfl
    | ok devices =>
      cases target.close with
      | some e => rfl
      | none => cases queryTargets targetAddress targets <;> rfl

/-- A block for a target ends as its answers say. -/
theorem askTarget_refines {address : ScsiDiscoveryAddress}
    {r : Except Exn (List DiscoveredDevice)}
    (h : (askTarget lib initiatorName targetAddress address).Returns s r t) :
    ∃ target, TargetAnswer.At address target ∧ queryTarget targetAddress target = r := by
  rcases h.withResource with ⟨e, -, rfl⟩ | ⟨iscsi, u, x, v, c, -, hbody, -, rfl⟩
  · exact ⟨unaskedTarget address e, unaskedTarget_at _ _, rfl⟩
  · -- An exception of the setup suppresses one of the close.
    have hsetup : ∀ e, x = .error e →
        ∃ target, TargetAnswer.At address target ∧
          queryTarget targetAddress target = x.bind fun devices => c.map fun _ => devices := by
      rintro e rfl
      exact ⟨unaskedTarget address e, unaskedTarget_at _ _, rfl⟩
    rcases Comp.Returns.bind hbody with ⟨_, _, -, hbody⟩ | ⟨e, -, hx⟩
    · rcases Comp.Returns.bind hbody with ⟨targetName, _, hname, hbody⟩ | ⟨e, -, hx⟩
      · rcases Comp.Returns.bind hbody with ⟨_, _, -, hbody⟩ | ⟨e, -, hx⟩
        · obtain ⟨answers, hanswers, hquery⟩ := askRemoteDevices_refines hbody
          have hat (close : Option Exn) :
              TargetAnswer.At address ⟨targetName, none, answers, close⟩ := by
            rw [TargetAnswer.At, setTargetName_ok hname]
            exact ⟨rfl, hanswers⟩
          cases c with
          | ok _ =>
            refine ⟨_, hat none, ?_⟩
            rw [queryTarget, hquery]
            cases x <;> rfl
          | error e =>
            refine ⟨_, hat (some e), ?_⟩
            rw [queryTarget, hquery]
            cases x <;> rfl
        · exact hsetup e hx
      · exact hsetup e hx
    · exact hsetup e hx

theorem askTargets_refines {addresses : List ScsiDiscoveryAddress}
    {r : Except Exn (List DiscoveredDevice)}
    (h : (askTargets lib initiatorName targetAddress addresses).Returns s r t) :
    ∃ targets, List.Forall₂ TargetAnswer.At addresses targets ∧
      queryTargets targetAddress targets = r := by
  induction addresses generalizing s t r with
  | nil => exact ⟨[], .nil, (returns_pure.1 h).1.symm⟩
  | cons address addresses ih =>
    rcases Comp.Returns.bind h with ⟨devices, u, htarget, hrest⟩ | ⟨e, htarget, rfl⟩
    · obtain ⟨target, hat, hquery⟩ := askTarget_refines htarget
      have hcons : ∀ x targets, List.Forall₂ TargetAnswer.At addresses targets →
          queryTargets targetAddress targets = x → r = x.map (devices ++ ·) →
          ∃ targets, List.Forall₂ TargetAnswer.At (address :: addresses) targets ∧
            queryTargets targetAddress targets = r := by
        rintro x targets htargets hx rfl
        refine ⟨target :: targets, .cons hat htargets, ?_⟩
        rw [queryTargets_cons, hquery, hx]
        rfl
      rcases Comp.Returns.bind hrest with ⟨deviceList, v, hlist, hr⟩ | ⟨e, hlist, rfl⟩
      · obtain ⟨targets, htargets, hx⟩ := ih hlist
        exact hcons _ targets htargets hx (returns_pure.1 hr).1
      · obtain ⟨targets, htargets, hx⟩ := ih hlist
        exact hcons _ targets htargets hx rfl
    · -- The targets that come after it are not asked.
      obtain ⟨target, hat, hquery⟩ := askTarget_refines htarget
      refine ⟨target :: addresses.map (unaskedTarget · .io), .cons hat ?_, ?_⟩
      · rw [List.forall₂_map_right_iff, List.forall₂_same]
        exact fun other _ => unaskedTarget_at other .io
      · rw [queryTargets_cons, hquery]
        rfl

/-- Whatever libiscsi answers: if `listTargets` ends, it returns or throws what the listing
    says about some answers; and they are those of the targets that were discovered, in the
    order of the map, and of their portals. -/
theorem listTargets_refines (lib : LibIscsi σ) (initiatorName : String)
    (targetAddress : TargetAddress) (rounds : ℕ)
    (order : List ScsiDiscoveryAddress → List ScsiDiscoveryAddress) {s t : σ}
    {r : Except Exn (List DiscoveredDevice)}
    (h : (askForTargets lib initiatorName targetAddress rounds order).Returns s r t) :
    ∃ answer : DiscoveryAnswer, RemoteDeviceManager.listTargets targetAddress answer = r ∧
      ((∃ e, answer = .error e ∧
          (discoverTargets lib initiatorName targetAddress rounds).Returns s (.error e) t) ∨
        ∃ targets addressMap u, answer = .ok targets ∧
          (discoverTargets lib initiatorName targetAddress rounds).Returns s (.ok addressMap) u ∧
          List.Forall₂ TargetAnswer.At (order addressMap) targets) := by
  rcases Comp.Returns.bind h with ⟨addressMap, u, hmap, hrest⟩ | ⟨e, he, rfl⟩
  · obtain ⟨targets, htargets, hr⟩ := askTargets_refines hrest
    exact ⟨.ok targets, hr, .inr ⟨targets, addressMap, u, rfl, hmap, htargets⟩⟩
  · exact ⟨.error e, rfl, .inl ⟨e, rfl, he⟩⟩

/-- A server with a disk. Its state is the number of tasks that it has sent. -/
def oneDisk : LibIscsi ℕ where
  createContext _ tasks := (some 1, tasks)
  destroyContext _ tasks := (0, tasks)
  setTargetname _ _ tasks := (0, tasks)
  setSessionType _ _ tasks := (0, tasks)
  setInitiatorUsernamePwd _ _ _ tasks := (0, tasks)
  connectSync _ _ tasks := (0, tasks)
  fullConnectSync _ _ _ tasks := (0, tasks)
  disconnect _ tasks := (0, tasks)
  loginSync _ tasks := (0, tasks)
  logoutSync _ tasks := (0, tasks)
  discoveryAsync _ tasks := (0, tasks)
  getFd _ tasks := (3, tasks)
  whichEvents _ tasks := (1, tasks)
  poll _ _ _ tasks := ((1, 1), tasks)
  service _ _ tasks := ((0, [[(some "target", ["portal:3260"])]]), tasks)
  getError _ tasks := ("", tasks)
  reportlunsSync _ _ _ tasks := (some ⟨tasks, 0, 16⟩, tasks + 1)
  inquirySync _ _ _ _ _ tasks := (some ⟨tasks, 0, 64⟩, tasks + 1)
  readcapacity10Sync _ _ _ _ tasks := (some ⟨tasks, 0, 8⟩, tasks + 1)
  datainGetfullsize _ tasks := (16, tasks)
  datainUnmarshall _ tasks := (some ⟨[0], 0, (127, 512)⟩, tasks)
  freeScsiTask _ tasks := ((), tasks)
  identity _ := "IScsiContext"

/-- The disk of the server is listed. -/
theorem listTargets_refines_oneDisk :
    (askForTargets oneDisk "initiator" ⟨"portal:3260", "", ""⟩ 1 id).Returns 0
      (.ok [⟨"portal:3260", "target", 0, ⟨127, 512⟩, ⟨"portal:3260", "", ""⟩⟩]) 3 ∧
    ∃ answer : DiscoveryAnswer, RemoteDeviceManager.listTargets ⟨"portal:3260", "", ""⟩ answer =
      .ok [⟨"portal:3260", "target", 0, ⟨127, 512⟩, ⟨"portal:3260", "", ""⟩⟩] := by
  have h : (askForTargets oneDisk "initiator" ⟨"portal:3260", "", ""⟩ 1 id).Returns 0
      (.ok [⟨"portal:3260", "target", 0, ⟨127, 512⟩, ⟨"portal:3260", "", ""⟩⟩]) 3 := ⟨rfl, rfl⟩
  obtain ⟨answer, hanswer, -⟩ := listTargets_refines oneDisk "initiator" _ 1 id h
  exact ⟨h, answer, hanswer⟩

/-- A discovery that fails calls back with a null pointer: then a target without a name is
    asked for. -/
example : (askForTargets { oneDisk with service := fun _ _ tasks => ((0, [[]]), tasks) }
    "initiator" ⟨"portal:3260", "", ""⟩ 1 id).Returns 0
      (.error (.nullPointerMessage "targetName cannot be null")) 0 := ⟨rfl, rfl⟩

end RemoteDeviceManager

end Raqet
