import Raqet.IScsi.LogicalUnit
import Raqet.Resource

/-!
# Contexts, connections and tasks

The objects over libiscsi: a context (`IScsiContext`), a connection in it
(`IScsiConnection`), and the synchronous commands to a logical unit (`IScsiLogicalUnit`),
each of which brings a task. Contexts have to be destroyed, connections disconnected, and
tasks freed, by the code that acquired them.

Libiscsi itself (`LibIscsi`) is an argument: any functions on any state. So is the number of
rounds of the loop that waits for it.
-/

namespace Raqet

open Java Resource

/-- What has to be given back to libiscsi. A connection has the pointer of its context. The session
    of a login is none of these: it ends with the connection. -/
inductive Handle
  | context (pointer : ℕ)
  | connection (pointer : ℕ)
  | task (pointer : ℕ)
  deriving DecidableEq

/-- A `ScsiTask`. -/
structure ScsiTask where
  pointer : ℕ
  status : ℤ
  datainSize : ℤ

/-- What the memory that unmarshalled data is in is read as: a `ScsiReportLunsList`, a
    `ScsiInquiryDeviceIdentification`, or a `ScsiReadCapacity10`. -/
structure Datain where
  luns : List ℤ
  deviceType : ℤ
  capacity : ℤ × ℤ

/-- A `ScsiDiscoveryAddress`: the name of a target, which may be null, and its portals. -/
abbrev ScsiDiscoveryAddress := Option String × List String

/-- The functions of libiscsi, and `poll`, on a state of their own. A null pointer is none.
    What `service` returns comes with the calls of the callback of a discovery, each with
    the addresses that its pointer leads to: a null pointer leads to none. -/
structure LibIscsi (σ : Type) where
  createContext (initiatorName : String) : σ → Option ℕ × σ
  destroyContext (iscsi : ℕ) : σ → ℤ × σ
  setTargetname (iscsi : ℕ) (targetName : String) : σ → ℤ × σ
  setSessionType (iscsi : ℕ) (sessionType : ℤ) : σ → ℤ × σ
  setInitiatorUsernamePwd (iscsi : ℕ) (user passwd : String) : σ → ℤ × σ
  connectSync (iscsi : ℕ) (portal : String) : σ → ℤ × σ
  fullConnectSync (iscsi : ℕ) (portal : String) (lun : ℤ) : σ → ℤ × σ
  disconnect (iscsi : ℕ) : σ → ℤ × σ
  loginSync (iscsi : ℕ) : σ → ℤ × σ
  logoutSync (iscsi : ℕ) : σ → ℤ × σ
  discoveryAsync (iscsi : ℕ) : σ → ℤ × σ
  getFd (iscsi : ℕ) : σ → ℤ × σ
  whichEvents (iscsi : ℕ) : σ → ℤ × σ
  poll (fd events timeout : ℤ) : σ → (ℤ × ℤ) × σ
  service (iscsi : ℕ) (revents : ℤ) : σ → (ℤ × List (List ScsiDiscoveryAddress)) × σ
  getError (iscsi : ℕ) : σ → String × σ
  reportlunsSync (iscsi : ℕ) (reportType allocLen : ℤ) : σ → Option ScsiTask × σ
  inquirySync (iscsi : ℕ) (lun evpd pageCode maxsize : ℤ) : σ → Option ScsiTask × σ
  readcapacity10Sync (iscsi : ℕ) (lun lba pmi : ℤ) : σ → Option ScsiTask × σ
  datainGetfullsize (task : ScsiTask) : σ → ℤ × σ
  datainUnmarshall (task : ScsiTask) : σ → Option Datain × σ
  freeScsiTask (task : ScsiTask) : σ → Unit × σ
  /-- What `toString()` makes of an object. -/
  identity (iscsi : ℕ) : String

/-- A computation over libiscsi. -/
abbrev IScsi (σ : Type) := Comp σ Handle Exn

variable {σ : Type} (lib : LibIscsi σ) (iscsi : ℕ)

/-- The handles of an open connection. -/
def handles : List Handle := [.connection iscsi, .context iscsi]

namespace IScsiObject

/-- `getError()`. -/
def getError : IScsi σ String := .callUsing [.context iscsi] (lib.getError iscsi)

/-- The exception of `checkResult` and `checkPointer`, with a message or without. -/
def fail {α : Type} : Option String → IScsi σ α
  | none => do .throw (.iScsi (← getError lib iscsi))
  | some message => do .throw (libiscsiError message (← getError lib iscsi))

/-- `checkResult(result, message)`. -/
def checkResult (result : ℤ) (message : Option String) : IScsi σ Unit :=
  if result < 0 then fail lib iscsi message else pure ()

/-- `checkPointer(p, message)`. -/
def checkPointer {α : Type} (p : Option α) (message : Option String) : IScsi σ α :=
  match p with
  | none => fail lib iscsi message
  | some a => pure a

/-- A command that brings a task, which is not null. -/
def send (command : σ → Option ScsiTask × σ) (message : Option String) : IScsi σ ScsiTask := do
  let task ← .call (fun task => (handles iscsi).map .use ++
    (task.map fun task => Event.acquire (.task task.pointer)).toList) command
  checkPointer lib iscsi task message

/-- `scsi_free_scsi_task(task)`. -/
def free (task : ScsiTask) : IScsi σ Unit :=
  .call (fun _ => [.release (.task task.pointer)]) (lib.freeScsiTask task)

/-- `datainUnmarshall(task)`. -/
def datainUnmarshall (task : ScsiTask) : IScsi σ Datain := do
  let p ← .callUsing [.task task.pointer] (lib.datainUnmarshall task)
  checkPointer lib iscsi p (some "Failed to unmarshall datain blob")

end IScsiObject

open IScsiObject

/-- An `IScsiSessionType`, with its number. -/
inductive IScsiSessionType
  | discovery
  | normal

def IScsiSessionType.getIntValue : IScsiSessionType → ℤ
  | .discovery => 1
  | .normal => 2

def IScsiSessionType.toString : IScsiSessionType → String
  | .discovery => "DISCOVERY"
  | .normal => "NORMAL"

/-- A check of an argument. -/
def check {α : Type} : Except Exn α → IScsi σ α
  | .error e => .throw e
  | .ok a => pure a

namespace IScsiContext

/-- `create(initiatorName)`. -/
def create (initiatorName : String) : IScsi σ ℕ := do
  let iscsi ← .call (fun iscsi => (iscsi.map fun iscsi => Event.acquire (.context iscsi)).toList)
    (lib.createContext initiatorName)
  match iscsi with
  | none => .throw (.iScsi "Failed to create iSCSI context")
  | some iscsi => pure iscsi

/-- `close()`. -/
def close : IScsi σ Unit := do
  let result ← .call (fun _ => [.release (.context iscsi)]) (lib.destroyContext iscsi)
  if result < 0 then .throw (.iScsi ("Failed to destroy iSCSI context " ++ lib.identity iscsi))
  else pure ()

/-- `setTargetName(targetName)`, with the name that was set, which is not null. -/
def setTargetName (targetName : Option String) : IScsi σ String := do
  let targetName ← check (argNotNull "targetName" targetName)
  let result ← .callUsing [.context iscsi] (lib.setTargetname iscsi targetName)
  checkResult lib iscsi result (some ("Failed to set target name to '" ++ targetName ++ "'"))
  return targetName

/-- `setSessionType(sessionType)`. -/
def setSessionType (sessionType : IScsiSessionType) : IScsi σ Unit := do
  let result ← .callUsing [.context iscsi] (lib.setSessionType iscsi sessionType.getIntValue)
  checkResult lib iscsi result
    (some ("Failed to set iSCSI session type to " ++ sessionType.toString))

/-- `setInitiatorUsernamePwd(username, password)`. -/
def setInitiatorUsernamePwd (username password : String) : IScsi σ Unit := do
  let result ← .callUsing [.context iscsi] (lib.setInitiatorUsernamePwd iscsi username password)
  checkResult lib iscsi result none

/-- The connection is open if the result is not negative. -/
def opens (connect : σ → ℤ × σ) (message : String) : IScsi σ Unit := do
  let result ← .call (fun result => Event.use (.context iscsi) ::
    if result < 0 then [] else [.acquire (.connection iscsi)]) connect
  checkResult lib iscsi result (some message)

/-- `connect(portal)`. -/
def connect (portal : String) : IScsi σ Unit := do
  let _ ← check (argNotEmpty "portal" portal)
  opens lib iscsi (lib.connectSync iscsi portal) ("Failed to connect to '" ++ portal ++ "'")

/-- `fullConnect(portal, lun)`. -/
def fullConnect (portal : String) (lun : ℤ) : IScsi σ Unit := do
  let _ ← check (argNotEmpty "portal" portal)
  opens lib iscsi (lib.fullConnectSync iscsi portal lun)
    ("Failed to connect to '" ++ portal ++ "' lun " ++ toString lun)

end IScsiContext

namespace IScsiConnection

/-- `DEFAULT_TIMEOUT`. -/
def defaultTimeout : ℤ := 1000

/-- `close()`. -/
def close : IScsi σ Unit := do
  let result ← .call (fun _ => [.use (.context iscsi), .release (.connection iscsi)])
    (lib.disconnect iscsi)
  checkResult lib iscsi result none

/-- `login()`. -/
def login : IScsi σ Unit := do
  let result ← .callUsing (handles iscsi) (lib.loginSync iscsi)
  checkResult lib iscsi result none

/-- `logout()`. -/
def logout : IScsi σ Unit := do
  let result ← .callUsing (handles iscsi) (lib.logoutSync iscsi)
  checkResult lib iscsi result none

/-- `sync(timeout)`: the calls of the callback. -/
def sync (timeout : ℤ) : IScsi σ (List (List ScsiDiscoveryAddress)) := do
  let _ ← check (argNotNegative "timeout" timeout)
  let fd ← .callUsing [.context iscsi] (lib.getFd iscsi)
  let events ← .callUsing [.context iscsi] (lib.whichEvents iscsi)
  let polled ← .callUsing [] (lib.poll fd (Int.bmod events (2 ^ 16)) timeout)
  if polled.1 < 0 then .throw (.iScsi "Poll failed")
  else
    let serviced ← .callUsing [.context iscsi] (lib.service iscsi polled.2)
    if serviced.1 < 0 then
      .throw (.iScsi ("iscsi_service failed with : " ++ (← getError lib iscsi)))
    else pure serviced.2

/-- `_addresses.put(targetName, portals)`. -/
def put (addresses : List ScsiDiscoveryAddress) (address : ScsiDiscoveryAddress) :
    List ScsiDiscoveryAddress :=
  addresses.filter (fun other => other.1 ≠ address.1) ++ [address]

/-- `IScsiDiscoveryCallback.cast(commandData)`. For a null pointer the structure gets memory of
    its own, which is read as an address of zeros. -/
def cast : List ScsiDiscoveryAddress → List ScsiDiscoveryAddress
  | [] => [(none, [])]
  | address :: addresses => address :: addresses

/-- `IScsiDiscoveryCallback.callback(iscsi, status, commandData, privateData)`. -/
def callback (addresses : List ScsiDiscoveryAddress) (commandData : List ScsiDiscoveryAddress) :
    List ScsiDiscoveryAddress :=
  (cast commandData).foldl put addresses

/-- The loop of `discovery()`, which ends once the callback was called. -/
def awaitDiscovery : ℕ → IScsi σ (List ScsiDiscoveryAddress)
  | 0 => .running
  | rounds + 1 => do
    let calls ← sync lib iscsi defaultTimeout
    if calls = [] then awaitDiscovery rounds else pure (calls.foldl callback [])

/-- `discovery()`. -/
def discovery (rounds : ℕ) : IScsi σ (List ScsiDiscoveryAddress) := do
  let result ← .callUsing (handles iscsi) (lib.discoveryAsync iscsi)
  checkResult lib iscsi result none
  awaitDiscovery lib iscsi rounds

/-- The task with the whole list of logical units. One that is too short is freed before the
    whole list is asked for. -/
def fullReport (task : ScsiTask) (fullReportSize : ℤ) : IScsi σ ScsiTask :=
  if fullReportSize > task.datainSize then do
    free lib task
    send lib iscsi (lib.reportlunsSync iscsi 0 fullReportSize) none
  else pure task

/-- `reportLuns()`: the numbers of the logical units. -/
def reportLuns : IScsi σ (List ℕ) := do
  let task ← send lib iscsi (lib.reportlunsSync iscsi 0 16) none
  let fullReportSize ← .callUsing [.task task.pointer] (lib.datainGetfullsize task)
  let task ← fullReport lib iscsi task fullReportSize
  .closing (do
      let list ← datainUnmarshall lib iscsi task
      pure (list.luns.map fun lun => (lun % 2 ^ 16).toNat))
    (free lib task)

end IScsiConnection

namespace IScsiLogicalUnit

/-- `SCSI_STATUS_GOOD`. -/
def statusGood : ℤ := 0

/-- `inquireDeviceType()`: the number of the type. -/
def inquireDeviceType (lun : ℤ) : IScsi σ ℤ :=
  .withResource
    (send lib iscsi (lib.inquirySync iscsi lun 0 0 64) (some "Failed to send inquiry command"))
    (free lib) fun task => do
      if task.status ≠ statusGood then fail lib iscsi (some "Failed to send inquiry command")
      else return (← datainUnmarshall lib iscsi task).deviceType

/-- `readCapacity()`, with the command it sends. -/
def requestCapacity (lun : ℤ) : IScsi σ IScsiLogicalUnitCapacity :=
  .withResource
    (send lib iscsi (lib.readcapacity10Sync iscsi lun 0 0)
      (some "Failed to send readcapacity command"))
    (free lib) fun task => do
      if task.status ≠ statusGood then .throw (.iScsi "Failed to send readcapacity command")
      else
        let rc10 := (← datainUnmarshall lib iscsi task).capacity
        pure ⟨rc10.1 % 2 ^ 32, rc10.2⟩

end IScsiLogicalUnit

/-! ## What is held -/

variable {lib iscsi} {held thrown : List Handle} {α : Type}

namespace IScsiObject

theorem holds_getError (h : .context iscsi ∈ held) :
    Holds held (getError lib iscsi) (fun _ => held) thrown :=
  holds_callUsing (List.forall_mem_singleton.2 h)

theorem holds_fail {post : α → List Handle} (h : .context iscsi ∈ held) (message : Option String) :
    Holds held (fail lib iscsi message) post held := by
  cases message <;> exact (holds_getError h).bind fun _ => holds_throw _

theorem holds_checkResult {result : ℤ} {message : Option String} (h : .context iscsi ∈ held) :
    Holds held (checkResult lib iscsi result message) (fun _ => held) held := by
  rw [checkResult]
  split
  · exact holds_fail h message
  · exact holds_pure rfl

theorem holds_checkPointer {p : Option α} {message : Option String} (h : .context iscsi ∈ held) :
    Holds held (checkPointer lib iscsi p message) (fun _ => held) held := by
  cases p with
  | none => exact holds_fail h message
  | some a => exact holds_pure rfl

theorem forall_handles (hconn : .connection iscsi ∈ held) (hctx : .context iscsi ∈ held) :
    ∀ k ∈ handles iscsi, k ∈ held :=
  List.forall_mem_cons.2 ⟨hconn, List.forall_mem_singleton.2 hctx⟩

/-- A command acquires a task, or throws. -/
theorem holds_send {command : σ → Option ScsiTask × σ} {message : Option String}
    (hconn : .connection iscsi ∈ held) (hctx : .context iscsi ∈ held) :
    Holds held (send lib iscsi command message) (fun task => .task task.pointer :: held) held := by
  refine Holds.bind (q := fun task => task.elim held fun t => .task t.pointer :: held)
    (holds_call fun task => Transition.runs_append.2
      ⟨held, runs_use (forall_handles hconn hctx), ?_⟩) fun task => ?_
  · cases task <;> rfl
  · cases task with
    | none => exact holds_fail hctx message
    | some t => exact holds_pure rfl

theorem holds_free {task : ScsiTask} :
    Holds (.task task.pointer :: held) (free lib task) (fun _ => held) thrown :=
  holds_call fun _ => by simp [Transition.runs, Resource.step]

theorem holds_datainUnmarshall {task : ScsiTask} (htask : .task task.pointer ∈ held)
    (hctx : .context iscsi ∈ held) :
    Holds held (datainUnmarshall lib iscsi task) (fun _ => held) held :=
  (holds_callUsing (List.forall_mem_singleton.2 htask)).bind fun _ => holds_checkPointer hctx

theorem holds_check {x : Except Exn α} :
    Holds held (check x : IScsi σ α) (fun _ => held) held := by
  cases x with
  | error e => exact holds_throw e
  | ok a => exact holds_pure rfl

end IScsiObject

namespace IScsiContext

/-- A context is created, or this throws. -/
theorem holds_create (initiatorName : String) :
    Holds held (create lib initiatorName) (fun iscsi => .context iscsi :: held) held := by
  refine Holds.bind (q := fun iscsi => iscsi.elim held fun p => .context p :: held)
    (holds_call fun iscsi => ?_) fun iscsi => ?_
  · cases iscsi <;> rfl
  · cases iscsi with
    | none => exact holds_throw _
    | some p => exact holds_pure rfl

theorem holds_close :
    Holds (.context iscsi :: held) (close lib iscsi) (fun _ => held) held := by
  refine Holds.bind (q := fun _ => held)
    (holds_call fun _ => by simp [Transition.runs, Resource.step]) fun result => ?_
  split
  · exact holds_throw _
  · exact holds_pure rfl

theorem holds_setTargetName (h : .context iscsi ∈ held) (targetName : Option String) :
    Holds held (setTargetName lib iscsi targetName) (fun _ => held) held :=
  holds_check.bind fun _ => (holds_callUsing (List.forall_mem_singleton.2 h)).bind fun _ =>
    (holds_checkResult h).bind fun _ => holds_pure rfl

theorem holds_setSessionType (h : .context iscsi ∈ held) (sessionType : IScsiSessionType) :
    Holds held (setSessionType lib iscsi sessionType) (fun _ => held) held :=
  (holds_callUsing (List.forall_mem_singleton.2 h)).bind fun _ => holds_checkResult h

theorem holds_setInitiatorUsernamePwd (h : .context iscsi ∈ held) (username password : String) :
    Holds held (setInitiatorUsernamePwd lib iscsi username password) (fun _ => held) held :=
  (holds_callUsing (List.forall_mem_singleton.2 h)).bind fun _ => holds_checkResult h

/-- A connection is opened, or this throws. -/
theorem holds_opens {open' : σ → ℤ × σ} {message : String} (h : .context iscsi ∈ held) :
    Holds held (opens lib iscsi open' message) (fun _ => .connection iscsi :: held) held := by
  refine Holds.bind (q := fun result => if result < 0 then held else .connection iscsi :: held)
    (holds_call fun result => Transition.runs_cons.2 ⟨held, if_pos h, ?_⟩) fun result => ?_
  · split <;> rfl
  · rw [checkResult]
    split
    · exact holds_fail h message
    · exact holds_pure rfl

theorem holds_connect (h : .context iscsi ∈ held) (portal : String) :
    Holds held (connect lib iscsi portal) (fun _ => .connection iscsi :: held) held :=
  holds_check.bind fun _ => holds_opens h

theorem holds_fullConnect (h : .context iscsi ∈ held) (portal : String) (lun : ℤ) :
    Holds held (fullConnect lib iscsi portal lun) (fun _ => .connection iscsi :: held) held :=
  holds_check.bind fun _ => holds_opens h

end IScsiContext

namespace IScsiConnection

theorem holds_close (h : .context iscsi ∈ held) :
    Holds (.connection iscsi :: held) (close lib iscsi) (fun _ => held) held :=
  Holds.bind (q := fun _ => held)
    (holds_call fun _ => by simp [Transition.runs, Resource.step, h]) fun _ => holds_checkResult h

theorem holds_login (hconn : .connection iscsi ∈ held) (hctx : .context iscsi ∈ held) :
    Holds held (login lib iscsi) (fun _ => held) held :=
  (holds_callUsing (forall_handles hconn hctx)).bind fun _ => holds_checkResult hctx

theorem holds_logout (hconn : .connection iscsi ∈ held) (hctx : .context iscsi ∈ held) :
    Holds held (logout lib iscsi) (fun _ => held) held :=
  (holds_callUsing (forall_handles hconn hctx)).bind fun _ => holds_checkResult hctx

theorem holds_sync (h : .context iscsi ∈ held) (timeout : ℤ) :
    Holds held (sync lib iscsi timeout) (fun _ => held) held := by
  have huse : ∀ k ∈ [Handle.context iscsi], k ∈ held := List.forall_mem_singleton.2 h
  refine holds_check.bind fun _ => (holds_callUsing huse).bind fun _ =>
    (holds_callUsing huse).bind fun _ => (holds_callUsing fun _ hk => absurd hk (by simp)).bind
      fun polled => ?_
  split
  · exact holds_throw _
  · refine (holds_callUsing huse).bind fun serviced => ?_
    split
    · exact (holds_getError h).bind fun _ => holds_throw _
    · exact holds_pure rfl

theorem holds_awaitDiscovery (h : .context iscsi ∈ held) (rounds : ℕ) :
    Holds held (awaitDiscovery lib iscsi rounds) (fun _ => held) held := by
  induction rounds with
  | zero => exact holds_running
  | succ rounds ih =>
    refine (holds_sync h _).bind fun calls => ?_
    split
    · exact ih
    · exact holds_pure rfl

theorem holds_discovery (hconn : .connection iscsi ∈ held) (hctx : .context iscsi ∈ held)
    (rounds : ℕ) : Holds held (discovery lib iscsi rounds) (fun _ => held) held :=
  (holds_callUsing (forall_handles hconn hctx)).bind fun _ =>
    (holds_checkResult hctx).bind fun _ => holds_awaitDiscovery hctx rounds

theorem holds_fullReport (hconn : .connection iscsi ∈ held) (hctx : .context iscsi ∈ held)
    (task : ScsiTask) (size : ℤ) :
    Holds (.task task.pointer :: held) (fullReport lib iscsi task size)
      (fun task => .task task.pointer :: held) held := by
  rw [fullReport]
  split
  · exact holds_free.bind fun _ => holds_send hconn hctx
  · exact holds_pure rfl

/-- Both tasks are freed, also if the second command fails, or the data is garbled. -/
theorem holds_reportLuns (hconn : .connection iscsi ∈ held) (hctx : .context iscsi ∈ held) :
    Holds held (reportLuns lib iscsi) (fun _ => held) held := by
  refine (holds_send hconn hctx).bind fun task => ?_
  refine (holds_callUsing (List.forall_mem_singleton.2 List.mem_cons_self)).bind fun size => ?_
  refine (holds_fullReport hconn hctx task size).bind fun task => ?_
  refine Holds.closing ?_ holds_free
  exact (holds_datainUnmarshall List.mem_cons_self (List.mem_cons_of_mem _ hctx)).bind
    fun _ => holds_pure rfl

end IScsiConnection

namespace IScsiLogicalUnit

theorem holds_inquireDeviceType (hconn : .connection iscsi ∈ held) (hctx : .context iscsi ∈ held)
    (lun : ℤ) : Holds held (inquireDeviceType lib iscsi lun) (fun _ => held) held := by
  refine Holds.withResource _ (holds_send hconn hctx) (fun _ => holds_free) fun task => ?_
  split
  · exact holds_fail (List.mem_cons_of_mem _ hctx) _
  · exact (holds_datainUnmarshall List.mem_cons_self (List.mem_cons_of_mem _ hctx)).bind
      fun _ => holds_pure rfl

theorem holds_requestCapacity (hconn : .connection iscsi ∈ held) (hctx : .context iscsi ∈ held)
    (lun : ℤ) : Holds held (requestCapacity lib iscsi lun) (fun _ => held) held := by
  refine Holds.withResource _ (holds_send hconn hctx) (fun _ => holds_free) fun task => ?_
  split
  · exact holds_throw _
  · exact (holds_datainUnmarshall List.mem_cons_self (List.mem_cons_of_mem _ hctx)).bind
      fun _ => holds_pure rfl

end IScsiLogicalUnit

end Raqet
