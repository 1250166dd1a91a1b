import Raqet.Remote.Discovery

/-!
# Logical units that fail

A portal reports its logical units, and any of them may fail the two commands that
`queryRemoteDevices` sends it. The exception is caught outside the loop over the logical
units, so it ends the loop: the units that come after the first one that fails are not
looked at.

* `AllListed`: every logical unit whose two commands succeed is listed, in the order of the
  report;
* `PortalAnswer.Orderly`: at a portal, none of them comes after one that fails.

The first holds of the answers exactly when the second does of every portal
(`allListed_iff`).
-/

namespace Raqet

/-- The capacity that a logical unit reports, if both of its commands succeed. -/
def LogicalUnitAnswer.answered (unit : LogicalUnitAnswer) : Except Exn IScsiLogicalUnitCapacity :=
  match unit.inquiry with
  | some e => .error e
  | none => IScsiLogicalUnit.readCapacity unit.capacity

/-- The exception of the first command that fails, if any. -/
def LogicalUnitAnswer.failure (unit : LogicalUnitAnswer) : Option Exn :=
  match unit.answered with
  | .error e => some e
  | .ok _ => none

/-- An `IScsiException`. -/
def Exn.IsIScsi (e : Exn) : Prop := ∃ message, e = .iScsi message

/-- No logical unit that answers is reported after one that does not; and the exception
    that the portal ends with, if any, is an `IScsiException`. -/
def PortalAnswer.Orderly : PortalAnswer → Prop
  | .fails e => e.IsIScsi
  | .luns units close =>
    units.Pairwise (fun a b => b.failure = none → a.failure = none) ∧
      ∀ e, (units.findSome? LogicalUnitAnswer.failure).or close = some e → e.IsIScsi

namespace RemoteDeviceManager

/-- The device at a logical unit, if the unit answers. -/
def deviceAt (targetName : String) (targetAddress : TargetAddress) (portalUrl : String)
    (unit : LogicalUnitAnswer) : Option DiscoveredDevice :=
  unit.answered.toOption.map fun capacity =>
    ⟨portalUrl, targetName, unit.lun, capacity, targetAddress⟩

/-- The devices at the logical units of a portal that answer. -/
def devicesAt (targetName : String) (targetAddress : TargetAddress)
    (portal : String × PortalAnswer) : List DiscoveredDevice :=
  match portal.2 with
  | .fails _ => []
  | .luns units _ => units.filterMap (deviceAt targetName targetAddress portal.1)

/-- The devices at the logical units of a target that answer. -/
def devicesOf (targetAddress : TargetAddress) (target : TargetAnswer) : List DiscoveredDevice :=
  target.portals.flatMap (devicesAt target.targetName targetAddress)

/-- Of every target that was discovered, the logical units that answer are listed. -/
structure AllListed (targetAddress : TargetAddress) (targets : List TargetAnswer) : Prop where
  /-- For the target alone. -/
  queried : ∀ target ∈ targets,
    queryRemoteDevices target.targetName targetAddress target.portals =
      .ok (devicesOf targetAddress target)
  /-- In the list of them all, unless setting up a context or closing it fails. -/
  listed : (∀ target ∈ targets, target.context = none ∧ target.close = none) →
    listTargets targetAddress (.ok targets) =
      .ok (targets.flatMap (devicesOf targetAddress))

variable {targetName portalUrl : String} {targetAddress : TargetAddress}
  {unit : LogicalUnitAnswer} {units : List LogicalUnitAnswer} {answer : PortalAnswer}
  {portals : List (String × PortalAnswer)}

/-! ## The logical units of a portal -/

theorem deviceAt_eq_none :
    deviceAt targetName targetAddress portalUrl unit = none ↔ unit.failure ≠ none := by
  rw [deviceAt, LogicalUnitAnswer.failure]
  cases unit.answered with
  | error e => simp [Except.toOption]
  | ok capacity => simp [Except.toOption]

/-- A logical unit that fails ends the loop. -/
theorem queryLogicalUnits_cons_error {e : Exn} (h : unit.answered = .error e) :
    queryLogicalUnits targetName targetAddress portalUrl (unit :: units) = ([], some e) := by
  rw [LogicalUnitAnswer.answered] at h
  rw [queryLogicalUnits]
  cases hi : unit.inquiry with
  | some e' =>
    rw [hi] at h
    cases h
    rfl
  | none =>
    rw [hi] at h
    dsimp only at h ⊢
    rw [h]

/-- One that answers is listed, and the loop goes on. -/
theorem queryLogicalUnits_cons_ok {c : IScsiLogicalUnitCapacity} (h : unit.answered = .ok c) :
    queryLogicalUnits targetName targetAddress portalUrl (unit :: units) =
      (⟨portalUrl, targetName, unit.lun, c, targetAddress⟩ ::
        (queryLogicalUnits targetName targetAddress portalUrl units).1,
        (queryLogicalUnits targetName targetAddress portalUrl units).2) := by
  rw [LogicalUnitAnswer.answered] at h
  rw [queryLogicalUnits]
  cases hi : unit.inquiry with
  | some e =>
    rw [hi] at h
    cases h
  | none =>
    rw [hi] at h
    dsimp only at h ⊢
    rw [h]

/-- The loop ends with the first exception. -/
theorem queryLogicalUnits_snd :
    (queryLogicalUnits targetName targetAddress portalUrl units).2 =
      units.findSome? LogicalUnitAnswer.failure := by
  induction units with
  | nil => rfl
  | cons unit units ih =>
    rw [List.findSome?_cons, LogicalUnitAnswer.failure]
    cases h : unit.answered with
    | error e => rw [queryLogicalUnits_cons_error h]
    | ok c => rw [queryLogicalUnits_cons_ok h, ih]

/-- What it lists is a part of what answers, from the start. -/
theorem queryLogicalUnits_prefix :
    (queryLogicalUnits targetName targetAddress portalUrl units).1 <+:
      units.filterMap (deviceAt targetName targetAddress portalUrl) := by
  induction units with
  | nil => exact List.nil_prefix
  | cons unit units ih =>
    cases h : unit.answered with
    | error e =>
      rw [queryLogicalUnits_cons_error h]
      exact List.nil_prefix
    | ok c =>
      have hd : deviceAt targetName targetAddress portalUrl unit =
          some ⟨portalUrl, targetName, unit.lun, c, targetAddress⟩ := by
        rw [deviceAt, h]
        rfl
      rw [queryLogicalUnits_cons_ok h, List.filterMap_cons_some hd]
      exact List.cons_prefix_cons.2 ⟨rfl, ih⟩

/-- It lists all that answer exactly when none comes after one that fails. -/
theorem queryLogicalUnits_fst_iff :
    (queryLogicalUnits targetName targetAddress portalUrl units).1 =
        units.filterMap (deviceAt targetName targetAddress portalUrl) ↔
      units.Pairwise fun a b => b.failure = none → a.failure = none := by
  induction units with
  | nil => exact iff_of_true rfl .nil
  | cons unit units ih =>
    rw [List.pairwise_cons]
    cases h : unit.answered with
    | error e =>
      have hf : unit.failure = some e := by rw [LogicalUnitAnswer.failure, h]
      have hd : deviceAt targetName targetAddress portalUrl unit = none :=
        deviceAt_eq_none.2 (by simp [hf])
      rw [queryLogicalUnits_cons_error h, List.filterMap_cons_none hd, eq_comm,
        List.filterMap_eq_nil_iff, hf]
      simp only [deviceAt_eq_none, reduceCtorEq, imp_false]
      -- nothing is listed after a unit that fails, so none may answer there
      refine ⟨fun hall => ⟨hall, ?_⟩, And.left⟩
      exact List.pairwise_of_forall_mem_list fun a _ b hb hbn => absurd hbn (hall b hb)
    | ok c =>
      have hf : unit.failure = none := by rw [LogicalUnitAnswer.failure, h]
      have hd : deviceAt targetName targetAddress portalUrl unit =
          some ⟨portalUrl, targetName, unit.lun, c, targetAddress⟩ := by
        rw [deviceAt, h]
        rfl
      rw [queryLogicalUnits_cons_ok h, List.filterMap_cons_some hd, List.cons_eq_cons,
        and_iff_right rfl, ih, and_iff_right fun _ _ _ => hf]

/-! ## The portals of a target -/

theorem queryPortal_devicesAt (targetName portalUrl : String) (targetAddress : TargetAddress)
    (answer : PortalAnswer) :
    (queryPortal targetName targetAddress portalUrl answer).1 <+:
      devicesAt targetName targetAddress (portalUrl, answer) := by
  cases answer with
  | fails e => exact List.nil_prefix
  | luns units close => exact queryLogicalUnits_prefix

/-- A portal is orderly exactly when all that answer are listed, and the exception that it
    ends with is caught. -/
theorem orderly_iff (targetName portalUrl : String) (targetAddress : TargetAddress) :
    answer.Orderly ↔
    (queryPortal targetName targetAddress portalUrl answer).1 =
        devicesAt targetName targetAddress (portalUrl, answer) ∧
      ∀ e, (queryPortal targetName targetAddress portalUrl answer).2 = some e → e.IsIScsi := by
  cases answer with
  | fails e =>
    refine ⟨fun h => ⟨rfl, ?_⟩, fun h => h.2 e rfl⟩
    rintro _ ⟨⟩
    exact h
  | luns units close =>
    rw [PortalAnswer.Orderly, queryPortal, devicesAt]
    dsimp only
    rw [queryLogicalUnits_fst_iff, queryLogicalUnits_snd]

/-- A portal whose exception is caught adds what it lists. -/
theorem queryRemoteDevices_cons
    (h : ∀ e, (queryPortal targetName targetAddress portalUrl answer).2 = some e → e.IsIScsi) :
    queryRemoteDevices targetName targetAddress ((portalUrl, answer) :: portals) =
      (queryRemoteDevices targetName targetAddress portals).map
        ((queryPortal targetName targetAddress portalUrl answer).1 ++ ·) := by
  rw [queryRemoteDevices]
  rcases hq : queryPortal targetName targetAddress portalUrl answer with ⟨devices, _ | e⟩
  · rfl
  · obtain ⟨message, rfl⟩ := h e (by rw [hq])
    rfl

/-- Another exception ends the loop over the portals. -/
theorem queryRemoteDevices_cons_error {e : Exn} (he : ¬e.IsIScsi)
    (h : (queryPortal targetName targetAddress portalUrl answer).2 = some e) :
    queryRemoteDevices targetName targetAddress ((portalUrl, answer) :: portals) = .error e := by
  rw [queryRemoteDevices]
  rcases hq : queryPortal targetName targetAddress portalUrl answer with ⟨devices, _ | e'⟩
  · rw [hq] at h
    cases h
  · rw [hq] at h
    cases h
    cases e with
    | iScsi message => exact absurd ⟨message, rfl⟩ he
    | _ => rfl

/-- No more is listed than answers. -/
theorem length_queryRemoteDevices_le {devices : List DiscoveredDevice}
    (h : queryRemoteDevices targetName targetAddress portals = .ok devices) :
    devices.length ≤ (portals.flatMap (devicesAt targetName targetAddress)).length := by
  induction portals generalizing devices with
  | nil =>
    cases h
    exact le_rfl
  | cons portal portals ih =>
    obtain ⟨portalUrl, answer⟩ := portal
    by_cases hcaught : ∀ e, (queryPortal targetName targetAddress portalUrl answer).2 = some e →
        e.IsIScsi
    · rw [queryRemoteDevices_cons hcaught, map_eq_ok] at h
      obtain ⟨rest, hrest, rfl⟩ := h
      rw [List.flatMap_cons, List.length_append, List.length_append]
      exact Nat.add_le_add (queryPortal_devicesAt _ _ _ _).length_le (ih hrest)
    · push Not at hcaught
      obtain ⟨e, he, hne⟩ := hcaught
      rw [queryRemoteDevices_cons_error hne he] at h
      cases h

/-- All that answer are listed exactly when every portal is orderly. -/
theorem queryRemoteDevices_iff :
    queryRemoteDevices targetName targetAddress portals =
        .ok (portals.flatMap (devicesAt targetName targetAddress)) ↔
      ∀ portal ∈ portals, portal.2.Orderly := by
  induction portals with
  | nil => exact iff_of_true rfl (List.forall_mem_nil _)
  | cons portal portals ih =>
    obtain ⟨portalUrl, answer⟩ := portal
    rw [List.forall_mem_cons, ← ih,
      orderly_iff targetName portalUrl targetAddress]
    by_cases hcaught : ∀ e, (queryPortal targetName targetAddress portalUrl answer).2 = some e →
        e.IsIScsi
    · rw [and_iff_left hcaught, queryRemoteDevices_cons hcaught, map_eq_ok, List.flatMap_cons]
      constructor
      · rintro ⟨rest, hrest, heq⟩
        -- neither part is longer than it should be, so the parts are equal
        have hlen := congrArg List.length heq
        rw [List.length_append, List.length_append] at hlen
        have h₁ := (queryPortal_devicesAt targetName portalUrl targetAddress answer).length_le
        have h₂ := length_queryRemoteDevices_le hrest
        obtain ⟨heq₁, heq₂⟩ := List.append_inj heq (by omega)
        exact ⟨heq₁, heq₂ ▸ hrest⟩
      · rintro ⟨heq, hrest⟩
        exact ⟨_, hrest, by rw [heq]⟩
    · refine iff_of_false ?_ fun h => hcaught h.1.2
      push Not at hcaught
      obtain ⟨e, he, hne⟩ := hcaught
      rw [queryRemoteDevices_cons_error hne he]
      rintro ⟨⟩

/-! ## The targets -/

/-- The lists of the targets are joined. -/
theorem queryTargets_eq {targets : List TargetAnswer}
    (hquery : ∀ target ∈ targets,
      queryRemoteDevices target.targetName targetAddress target.portals =
        .ok (devicesOf targetAddress target))
    (h : ∀ target ∈ targets, target.context = none ∧ target.close = none) :
    queryTargets targetAddress targets =
      .ok (targets.flatMap (devicesOf targetAddress)) := by
  induction targets with
  | nil => rfl
  | cons target targets ih =>
    rw [List.forall_mem_cons] at h hquery
    obtain ⟨⟨hcontext, hclose⟩, h⟩ := h
    rw [queryTargets, hcontext, hclose, hquery.1, ih hquery.2 h]
    rfl

/-- For every address and every answer to its discovery: the logical units that answer are
    all listed exactly when every portal of every target is orderly. -/
theorem allListed_iff (targetAddress : TargetAddress) (targets : List TargetAnswer) :
    AllListed targetAddress targets ↔
      ∀ target ∈ targets, ∀ portal ∈ target.portals, portal.2.Orderly := by
  constructor
  · intro h target ht
    exact queryRemoteDevices_iff.1 (h.queried target ht)
  · intro h
    have hquery : ∀ target ∈ targets,
        queryRemoteDevices target.targetName targetAddress target.portals =
          .ok (devicesOf targetAddress target) :=
      fun target ht => queryRemoteDevices_iff.2 (h target ht)
    exact ⟨hquery, fun hcontext => queryTargets_eq hquery hcontext⟩

/-- A drive without a medium, and a disk. -/
def driveAndDisk : TargetAnswer :=
  ⟨"target", none, [("portal:3260", .luns [⟨0, none, .failed⟩, ⟨1, none, .good (127, 512)⟩] none)],
    none⟩

/-- The drive hides the disk. -/
theorem not_allListed_drive :
    queryRemoteDevices "target" ⟨"portal:3260", "", ""⟩ driveAndDisk.portals = .ok [] ∧
      devicesOf ⟨"portal:3260", "", ""⟩ driveAndDisk =
        [⟨"portal:3260", "target", 1, ⟨127, 512⟩, ⟨"portal:3260", "", ""⟩⟩] ∧
      ¬AllListed ⟨"portal:3260", "", ""⟩ [driveAndDisk] := by
  refine ⟨rfl, rfl, fun h => ?_⟩
  cases h.queried driveAndDisk List.mem_cons_self

end RemoteDeviceManager

end Raqet
