import Raqet.IScsi.LogicalUnit
import Raqet.IScsi.TargetAddress

/-!
# Discovery

`listTargets` asks a portal for its targets, and every portal of a target for its logical
units. What the portals answer is an argument.
-/

namespace Raqet

/-- A `RemoteDeviceInfo` as it is discovered, without a place for its evidence. -/
structure DiscoveredDevice where
  portal : String
  targetName : String
  lun : ℕ
  capacity : IScsiLogicalUnitCapacity
  targetAddress : TargetAddress

/-- What is answered about a logical unit. -/
structure LogicalUnitAnswer where
  lun : ℕ
  /-- The exception of `inquireDeviceType()`, if any. -/
  inquiry : Option Exn
  capacity : Task (ℤ × ℤ)

/-- What a portal of a target answers. -/
inductive PortalAnswer
  /-- `fullConnect` or `reportLuns` throws. -/
  | fails (e : Exn)
  /-- The logical units, and the exception of closing the connection, if any. -/
  | luns (units : List LogicalUnitAnswer) (close : Option Exn)

/-- What is answered about a target. -/
structure TargetAnswer where
  targetName : String
  /-- The exception of setting up its context, if any. -/
  context : Option Exn
  portals : List (String × PortalAnswer)
  /-- The exception of closing its context, if any. -/
  close : Option Exn

/-- What is answered to the discovery: an exception, or the targets. -/
abbrev DiscoveryAnswer := Except Exn (List TargetAnswer)

namespace RemoteDeviceManager

/-- The loop of `queryRemoteDevices` over the logical units of a portal: the devices that
    it adds, and the exception that ends it, if any. -/
def queryLogicalUnits (targetName : String) (targetAddress : TargetAddress) (portalUrl : String) :
    List LogicalUnitAnswer → List DiscoveredDevice × Option Exn
  | [] => ([], none)
  | unit :: units =>
    match unit.inquiry with
    | some e => ([], some e)
    | none =>
      match IScsiLogicalUnit.readCapacity unit.capacity with
      | .error e => ([], some e)
      | .ok capacity =>
        let rest := queryLogicalUnits targetName targetAddress portalUrl units
        (⟨portalUrl, targetName, unit.lun, capacity, targetAddress⟩ :: rest.1, rest.2)

/-- The devices that the portal adds, and the exception that it ends with, if any. An
    exception of closing the connection is suppressed by an earlier one. -/
def queryPortal (targetName : String) (targetAddress : TargetAddress) (portalUrl : String) :
    PortalAnswer → List DiscoveredDevice × Option Exn
  | .fails e => ([], some e)
  | .luns units close =>
    let devices := queryLogicalUnits targetName targetAddress portalUrl units
    (devices.1, devices.2.or close)

/-- `queryRemoteDevices(context, targetName, targetAddress, portals)`. An `IScsiException`
    of a portal is caught: what was added stays. -/
def queryRemoteDevices (targetName : String) (targetAddress : TargetAddress) :
    List (String × PortalAnswer) → Except Exn (List DiscoveredDevice)
  | [] => .ok []
  | (portalUrl, answer) :: portals =>
    match queryPortal targetName targetAddress portalUrl answer with
    | (devices, none) | (devices, some (.iScsi _)) =>
      (queryRemoteDevices targetName targetAddress portals).map (devices ++ ·)
    | (_, some e) => .error e

/-- The loop of `listTargets` over the targets. -/
def queryTargets (targetAddress : TargetAddress) :
    List TargetAnswer → Except Exn (List DiscoveredDevice)
  | [] => .ok []
  | target :: targets => do
    if let some e := target.context then throw e
    let devices ← queryRemoteDevices target.targetName targetAddress target.portals
    if let some e := target.close then throw e
    return devices ++ (← queryTargets targetAddress targets)

/-- `listTargets(targetAddress)`. -/
def listTargets (targetAddress : TargetAddress) (answer : DiscoveryAnswer) :
    Except Exn (List DiscoveredDevice) :=
  answer.bind (queryTargets targetAddress)

end RemoteDeviceManager

end Raqet
