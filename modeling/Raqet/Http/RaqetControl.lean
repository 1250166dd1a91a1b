import Raqet.Http.ClientInfo
import Raqet.Java.Text
import Raqet.Remote.DeviceManager

/-!
# The control of the server

`RaqetControl` keeps the clients that have registered, binds each to a computer of the
database, and publishes the devices that are discovered at a client or at a target. The
calls of the two HTTP services (`Call`) come one after the other, and every exception is
caught by the service (`handle`).

The state records the devices that were published, each with the client it was published
for: what `RaqetDiskDriver.addRemoteDevice` has been called with.
-/

namespace Raqet

open Java InvestigationCaseDB

/-- A device that was published. -/
structure Publication where
  /-- The client; none for a direct target. -/
  clientInfo : Option ClientInfo
  smbMountPath : String
  device : RemoteDeviceInfo

/-- An `InvestigationCase`; its setter escapes the name of the directory. -/
structure InvestigationCase where
  urlCaseName : String
  caseName : String

/-- `setUrlCaseName(urlCaseName)` and `setCaseName(caseName)`. -/
def InvestigationCase.new (urlCaseName caseName : String) : InvestigationCase :=
  ⟨escapeName urlCaseName, caseName⟩

/-- A `Computer`. -/
structure Computer where
  urlcomputerName : String
  computerName : String
  clientid : String

/-- A `Computer` in a listing, without a client. -/
structure ListedComputer where
  urlcomputerName : String
  computerName : String

/-- What the environment decides when the devices at an address are published: the outcome
    of the `n`-th update of the computer is `update n`. -/
structure ExportEnv where
  discovery : DiscoveryAnswer
  update : ℕ → WriteIo

/-- What the environment decides when a client is added. -/
structure AddClientEnv where
  /-- While the client is searched for, with its hardware. -/
  find : ReadEnv
  /-- While the client is searched for again, without its hardware. -/
  findAgain : ReadEnv
  update : WriteIo
  /-- While the default case is read. -/
  create : ReadEnv
  insert : InsertIo
  writeLogging : WriteIo
  exporting : ExportEnv

/-- A `RaqetControl`, and the file system. -/
structure RaqetControl where
  investigationCaseDB : InvestigationCaseDB
  fs : Disk
  clientList : List ClientInfo
  published : List Publication

/-- The state of the loop that publishes devices. -/
structure Exporting where
  fs : Disk
  clientInfo : Option ClientInfo
  published : List Publication

/-- How an iteration of a loop ends. -/
inductive Exit
  | next
  | «return»
  | throws (e : Exn)

/-- How the search for the computer of a client ends. -/
inductive Lookup
  | found (computer : ComputerDbEntry)
  /-- An exception is logged, and `addClient` returns. -/
  | «return»
  | throws (e : Exn)

namespace RaqetControl

/-! ## Publishing devices -/

/-- `targetName.replace(':', '_')`. -/
def escapeTargetName (targetName : String) : String :=
  targetName.map fun c => if c = ':' then '_' else c

/-- `generateEvidenceFilename(targetName, lun)`. -/
def generateEvidenceFilename (targetName : String) (lun : ℕ) : String :=
  escapeTargetName targetName ++ "_" ++ format04d lun ++ ".dd"

/-- The evidence base file name of a device of a client. -/
def clientEvidenceFilename (lun : ℕ) (clientid deviceName : String) : String :=
  format04d lun ++ "-" ++ clientid ++ "_" ++ deviceName ++ ".dd"

/-- The evidence directory of a direct target. -/
def tmp : File := File.ofPath "/tmp/"

end RaqetControl

/-- The entry with a disk of this name. -/
def ComputerDbEntry.addDisk (computer : ComputerDbEntry) (deviceName : String) : ComputerDbEntry :=
  if deviceName ∈ computer.disks then computer
  else { computer with disks := computer.disks ++ [deviceName] }

namespace RaqetControl

/-- An iteration of the loop of `addRemoteDevice(targetAddress, clientInfo)`. -/
def exportDevice (io : WriteIo) (device : DiscoveredDevice) (x : Exporting) : Exit × Exporting :=
  let capacity := device.capacity
  let size := toLong ((capacity.logicalBlockAddress + 1) * capacity.blockSize)
  -- `toUserFriendlyByteString(size)`, for the log
  match argNotNegative "bytes" size with
  | .error e => (.throws e, x)
  | .ok _ =>
    match x.clientInfo with
    | none =>
      let device := ⟨device, tmp, generateEvidenceFilename device.targetName device.lun⟩
      (.next, { x with published := x.published ++ [⟨none, "\\", device⟩] })
    | some clientInfo =>
      match clientInfo.getDeviceMapping device.lun, clientInfo.computerDbEntry with
      | some mapping, some computer =>
        let deviceName := mapping.device
        let smbMountPath := "\\" ++ computer.caseAndComputer ++ "\\"
        let computer := computer.addDisk deviceName
        let clientInfo := { clientInfo with computerDbEntry := some computer }
        match update x.fs io computer with
        | (.error _, fs) => (.return, { x with fs := fs, clientInfo := some clientInfo })
        | (.ok _, fs) =>
          let device := ⟨device, computer.baseStorageFolder,
            clientEvidenceFilename device.lun (valueOf clientInfo.clientId) deviceName⟩
          (.next, ⟨fs, some clientInfo, x.published ++ [⟨some clientInfo, smbMountPath, device⟩]⟩)
      | _, _ => (.throws .nullPointer, x)

/-- The loop of `addRemoteDevice(targetAddress, clientInfo)`. -/
def exportDevices (update : ℕ → WriteIo) :
    List DiscoveredDevice → Exporting → Except Exn Unit × Exporting
  | [], x => (.ok (), x)
  | device :: devices, x =>
    match exportDevice (update 0) device x with
    | (.next, x) => exportDevices (fun n => update (n + 1)) devices x
    | (.return, x) => (.ok (), x)
    | (.throws e, x) => (.error e, x)

/-- An iteration for a client with a computer changes nothing, or updates the computer. -/
theorem exportDevice_client {x : Exporting} {c : ClientInfo} {computer : ComputerDbEntry}
    (io : WriteIo) (device : DiscoveredDevice) (hx : x.clientInfo = some c)
    (hc : c.computerDbEntry = some computer) :
    (exportDevice io device x).2 = x ∨
    ∃ name, (exportDevice io device x).2.fs = (update x.fs io (computer.addDisk name)).2 ∧
      (exportDevice io device x).2.clientInfo =
        some { c with computerDbEntry := some (computer.addDisk name) } := by
  rw [exportDevice]
  cases argNotNegative "bytes"
      (toLong ((device.capacity.logicalBlockAddress + 1) * device.capacity.blockSize)) with
  | error e => exact .inl rfl
  | ok size =>
    dsimp only
    rw [hx]
    dsimp only
    rw [hc]
    cases c.getDeviceMapping device.lun with
    | none => exact .inl rfl
    | some mapping =>
      right
      refine ⟨mapping.device, ?_⟩
      dsimp only
      cases update x.fs io (computer.addDisk mapping.device) with
      | mk result fs =>
        cases result with
        | error e => exact ⟨rfl, rfl⟩
        | ok u => exact ⟨rfl, rfl⟩

/-- What every iteration keeps, the loop keeps. -/
theorem exportDevices_induction {I : Exporting → Prop} {update : ℕ → WriteIo}
    (devices : List DiscoveredDevice)
    (hI : ∀ n device x, I x → I (exportDevice (update n) device x).2) {x : Exporting} (h : I x) :
    I (exportDevices update devices x).2 := by
  induction devices generalizing update x with
  | nil => exact h
  | cons device devices ih =>
    have h' := hI 0 device x h
    rw [exportDevices]
    cases hexit : exportDevice (update 0) device x with
    | mk exit x' =>
      rw [hexit] at h'
      cases exit with
      | next => exact ih (fun n => hI (n + 1)) h'
      | «return» => exact h'
      | throws e => exact h'

/-- `addRemoteDevice(targetAddress, clientInfo)`. -/
def addRemoteDevice (targetAddress : TargetAddress) (env : ExportEnv) (x : Exporting) :
    Except Exn Unit × Exporting :=
  match RemoteDeviceManager.listTargets targetAddress env.discovery with
  | .error e => (.error e, x)
  | .ok deviceList => exportDevices env.update deviceList x

/-- `addRemoteDevice(target)`. -/
def addDirect (s : RaqetControl) (target : String) (env : ExportEnv) :
    Except Exn Unit × RaqetControl :=
  match TargetAddress.ofString target with
  | .error e => (.error e, s)
  | .ok targetAddress =>
    let (result, x) := addRemoteDevice targetAddress env ⟨s.fs, none, s.published⟩
    (result, { s with fs := x.fs, published := x.published })

/-! ## Clients -/

/-- The computer that is created for a client. -/
def defaultComputer (target : ClientInfo) : ComputerFields where
  urlcomputerName := valueOf target.clientId ++ "_" ++ valueOf target.hardwareId
  computerName := valueOf target.clientId ++ "_" ++ valueOf target.hardwareId
  clientId := readBack target.clientId
  hardwareId := readBack target.hardwareId

/-- The search of `addClient` for the computer of a client: the most specific one, or else
    one without hardware, which gets that of the client, or else a new one. -/
def lookupComputer (db : InvestigationCaseDB) (fs : Disk) (target : ClientInfo)
    (env : AddClientEnv) : Lookup × Disk :=
  match db.findClient fs env.find target.clientId target.hardwareId with
  | .error e => (.throws e, fs)
  | .ok (some computer) => (.found computer, fs)
  | .ok none =>
    match db.findClient fs env.findAgain target.clientId "" with
    | .error e => (.throws e, fs)
    | .ok (some computer) =>
      let computer := { computer with hardwareId := readBack target.hardwareId }
      match update fs env.update computer with
      | (.ok _, fs) => (.found computer, fs)
      | (.error _, fs) => (.return, fs)
    | .ok none =>
      match db.createComputer fs env.create env.insert "defaultcase" (defaultComputer target) with
      | (.ok computer, fs) => (.found computer, fs)
      | (.error _, fs) => (.return, fs)

/-- The searches for the computer of a client, by their end and the file system after it. -/
inductive LooksUp (db : InvestigationCaseDB) (fs : Disk) (target : ClientInfo)
    (env : AddClientEnv) : Lookup → Disk → Prop
  | throws {e : Exn}
    (hfind : db.findClient fs env.find target.clientId target.hardwareId = .error e) :
    LooksUp db fs target env (.throws e) fs
  | found {computer : ComputerDbEntry}
    (hfind : db.findClient fs env.find target.clientId target.hardwareId = .ok (some computer)) :
    LooksUp db fs target env (.found computer) fs
  | throwsAgain {e : Exn}
    (hfind : db.findClient fs env.find target.clientId target.hardwareId = .ok none)
    (hagain : db.findClient fs env.findAgain target.clientId "" = .error e) :
    LooksUp db fs target env (.throws e) fs
  | claims {computer : ComputerDbEntry} {fs' : Disk}
    (hfind : db.findClient fs env.find target.clientId target.hardwareId = .ok none)
    (hagain : db.findClient fs env.findAgain target.clientId "" = .ok (some computer))
    (hupdate : update fs env.update
      { computer with hardwareId := readBack target.hardwareId } = (.ok (), fs')) :
    LooksUp db fs target env
      (.found { computer with hardwareId := readBack target.hardwareId }) fs'
  | claimFails {computer : ComputerDbEntry} {e : Exn} {fs' : Disk}
    (hfind : db.findClient fs env.find target.clientId target.hardwareId = .ok none)
    (hagain : db.findClient fs env.findAgain target.clientId "" = .ok (some computer))
    (hupdate : update fs env.update
      { computer with hardwareId := readBack target.hardwareId } = (.error e, fs')) :
    LooksUp db fs target env .return fs'
  | creates {computer : ComputerDbEntry} {fs' : Disk}
    (hfind : db.findClient fs env.find target.clientId target.hardwareId = .ok none)
    (hagain : db.findClient fs env.findAgain target.clientId "" = .ok none)
    (hcreate : db.createComputer fs env.create env.insert "defaultcase" (defaultComputer target) =
      (.ok computer, fs')) :
    LooksUp db fs target env (.found computer) fs'
  | createFails {e : Exn} {fs' : Disk}
    (hfind : db.findClient fs env.find target.clientId target.hardwareId = .ok none)
    (hagain : db.findClient fs env.findAgain target.clientId "" = .ok none)
    (hcreate : db.createComputer fs env.create env.insert "defaultcase" (defaultComputer target) =
      (.error e, fs')) :
    LooksUp db fs target env .return fs'

/-- A search is one of these. -/
theorem looksUp {db : InvestigationCaseDB} {fs fs' : Disk} {target : ClientInfo}
    {env : AddClientEnv} {result : Lookup}
    (h : lookupComputer db fs target env = (result, fs')) :
    LooksUp db fs target env result fs' := by
  rw [lookupComputer] at h
  split at h
  next e hfind =>
    cases h
    exact .throws hfind
  next computer hfind =>
    cases h
    exact .found hfind
  next hfind =>
    split at h
    next e hagain =>
      cases h
      exact .throwsAgain hfind hagain
    next computer hagain =>
      dsimp only at h
      split at h
      next u fs'' hupdate =>
        cases h
        exact .claims hfind hagain hupdate
      next e fs'' hupdate =>
        cases h
        exact .claimFails hfind hagain hupdate
    next hagain =>
      split at h
      next computer fs'' hcreate =>
        cases h
        exact .creates hfind hagain hcreate
      next e fs'' hcreate =>
        cases h
        exact .createFails hfind hagain hcreate

/-- `writeLogging(computer, logging)`. -/
def writeLogging (fs : Disk) (io : WriteIo) (computer : ComputerDbEntry) : Disk :=
  (fs.write io (computer.baseStorageFolder.child "clientlogfile.txt") default).2

/-- `addClient(target)`, for a client that is not in the list. -/
def addNewClient (s : RaqetControl) (target : ClientInfo) (env : AddClientEnv) :
    Except Exn Unit × RaqetControl :=
  match lookupComputer s.investigationCaseDB s.fs target env with
  | (.throws e, fs) => (.error e, { s with fs := fs, clientList := s.clientList ++ [target] })
  | (.return, fs) => (.ok (), { s with fs := fs, clientList := s.clientList ++ [target] })
  | (.found computer, fs) =>
    let target := { target with computerDbEntry := some computer }
    let fs := writeLogging fs env.writeLogging computer
    match TargetAddress.ofString (target.ipAddress ++ ":3260") with
    | .error e => (.error e, { s with fs := fs, clientList := s.clientList ++ [target] })
    | .ok targetAddress =>
      let (result, x) :=
        addRemoteDevice targetAddress env.exporting ⟨fs, some target, s.published⟩
      (result, { s with fs := x.fs, clientList := s.clientList ++ x.clientInfo.toList,
                        published := x.published })

/-- The registrations of a new client, by the state after it. -/
inductive AddsClient (s : RaqetControl) (target : ClientInfo) (env : AddClientEnv) :
    RaqetControl → Prop
  | unbound {result : Lookup} {fs' : Disk}
    (hlookup : lookupComputer s.investigationCaseDB s.fs target env = (result, fs'))
    (hnone : ∀ computer, result ≠ .found computer) :
    AddsClient s target env { s with fs := fs', clientList := s.clientList ++ [target] }
  /-- Where the client cannot be reached, there are no devices. -/
  | bound {computer : ComputerDbEntry} {fs' : Disk} {x : Exporting}
    (hlookup : lookupComputer s.investigationCaseDB s.fs target env = (.found computer, fs'))
    (devices : List DiscoveredDevice)
    (hexport : (exportDevices env.exporting.update devices
      ⟨writeLogging fs' env.writeLogging computer,
        some { target with computerDbEntry := some computer }, s.published⟩).2 = x) :
    AddsClient s target env { s with fs := x.fs, clientList := s.clientList ++ x.clientInfo.toList,
                                     published := x.published }

/-- A registration is one of these. -/
theorem addsClient (s : RaqetControl) (target : ClientInfo) (env : AddClientEnv) :
    AddsClient s target env (s.addNewClient target env).2 := by
  rw [addNewClient]
  split
  next e fs' hlookup => exact .unbound hlookup fun computer h => by cases h
  next fs' hlookup => exact .unbound hlookup fun computer h => by cases h
  next computer fs' hlookup =>
    dsimp only
    split
    next e ha => exact .bound hlookup [] rfl
    next address ha =>
      rw [addRemoteDevice]
      split
      next e hd => exact .bound hlookup [] rfl
      next devices hd => exact .bound hlookup devices rfl

/-- `addClient(target)`. -/
def addClient (s : RaqetControl) (target : ClientInfo) (env : AddClientEnv) :
    Except Exn Unit × RaqetControl :=
  match target.findIn s.clientList with
  | .error e => (.error e, s)
  | .ok (some _) => (.ok (), s)
  | .ok none => s.addNewClient target env

/-- The list is searched for the client without an exception, and it is not there. -/
def isNew (s : RaqetControl) (target : ClientInfo) : Bool :=
  match target.findIn s.clientList with
  | .ok none => true
  | _ => false

theorem isNew_iff {s : RaqetControl} {target : ClientInfo} :
    s.isNew target = true ↔ target.findIn s.clientList = .ok none := by
  rw [isNew]
  split
  next h => exact iff_of_true rfl h
  next h => exact iff_of_false Bool.false_ne_true h

theorem addClient_of_isNew {s : RaqetControl} {target : ClientInfo} (env : AddClientEnv)
    (h : s.isNew target = true) : s.addClient target env = s.addNewClient target env := by
  rw [addClient, isNew_iff.1 h]

/-- A registration of any other client changes nothing. -/
theorem addClient_of_not_isNew {s : RaqetControl} {target : ClientInfo} (env : AddClientEnv)
    (h : s.isNew target = false) : (s.addClient target env).2 = s := by
  rw [isNew] at h
  rw [addClient]
  split
  · rfl
  · rfl
  next hnone =>
    rw [hnone] at h
    cases h

/-- The loop of `diskInformation` over the devices of the message: the outcome of the `n`-th
    write is `io n`. -/
def writeDiskInformation (basePath : File) : List String → (ℕ → WriteIo) → Disk → Disk
  | [], _, fs => fs
  | device :: devices, io, fs =>
    let diskInfoFilePath := basePath.child (device ++ ".txt")
    let fs :=
      if fs.exists diskInfoFilePath then fs else (fs.write (io 0) diskInfoFilePath default).2
    writeDiskInformation basePath devices (fun n => io (n + 1)) fs

/-- `diskInformation(clientInfo, target)`, for a message about these devices. -/
def diskInformation (s : RaqetControl) (clientInfo : ClientInfo) (devices : List String)
    (io : ℕ → WriteIo) : Except Exn Unit × RaqetControl :=
  match clientInfo.findIn s.clientList with
  | .error e => (.error e, s)
  | .ok none => (.ok (), s)
  | .ok (some activeClientInfo) =>
    match activeClientInfo.computerDbEntry with
    | none => (.error .nullPointer, s)
    | some computer =>
      (.ok (), { s with fs := writeDiskInformation computer.baseStorageFolder devices io s.fs })

/-- The computer that the client in the list is bound to, if the list is searched for the client
    without an exception, and it is there. -/
def sender (s : RaqetControl) (clientInfo : ClientInfo) : Option ComputerDbEntry :=
  match clientInfo.findIn s.clientList with
  | .ok (some c) => c.computerDbEntry
  | _ => none

theorem exists_of_sender {s : RaqetControl} {clientInfo : ClientInfo} {computer : ComputerDbEntry}
    (h : s.sender clientInfo = some computer) :
    ∃ c ∈ s.clientList, c.computerDbEntry = some computer := by
  rw [sender] at h
  split at h
  next c hfind => exact ⟨c, (ClientInfo.findIn_eq_some hfind).1, h⟩
  next => cases h

/-- Information about the disks of any other client changes nothing. -/
theorem diskInformation_of_none {s : RaqetControl} {clientInfo : ClientInfo}
    (devices : List String) (io : ℕ → WriteIo) (h : s.sender clientInfo = none) :
    (s.diskInformation clientInfo devices io).2 = s := by
  rw [sender] at h
  rw [diskInformation]
  split
  · rfl
  · rfl
  next c hfind =>
    rw [hfind] at h
    dsimp only at h
    rw [h]

theorem diskInformation_of_sender {s : RaqetControl} {clientInfo : ClientInfo}
    {computer : ComputerDbEntry} (devices : List String) (io : ℕ → WriteIo)
    (h : s.sender clientInfo = some computer) : (s.diskInformation clientInfo devices io).2 =
      { s with fs := writeDiskInformation computer.baseStorageFolder devices io s.fs } := by
  rw [sender] at h
  split at h
  next c hfind =>
    rw [diskInformation, hfind]
    dsimp only
    rw [h]
  next => cases h

/-! ## Cases and computers -/

/-- `createInvestigationCase(investigationCase)`. -/
def createInvestigationCase (s : RaqetControl) (investigationCase : InvestigationCase)
    (io : InsertIo) : Except Exn Unit × RaqetControl :=
  let (result, fs) := s.investigationCaseDB.createCase s.fs io
    (.new investigationCase.urlCaseName investigationCase.caseName)
  (result, { s with fs := fs })

/-- `createComputer(investigationCase, computer)`. -/
def createComputer (s : RaqetControl) (investigationCase : String) (computer : Computer)
    (env : ReadEnv) (io : InsertIo) : Except Exn Unit × RaqetControl :=
  let (result, fs) := s.investigationCaseDB.createComputer s.fs env io investigationCase
    { urlcomputerName := escapeName computer.urlcomputerName
      computerName := computer.computerName
      clientId := computer.clientid }
  (result.map fun _ => (), { s with fs := fs })

/-- `getInvestigationCases()`. A case whose entry cannot be read is left out. -/
def getInvestigationCases (s : RaqetControl) (env : ReadEnv) :
    Except Exn (List InvestigationCase) :=
  (s.investigationCaseDB.getCases s.fs env).map fun names => names.filterMap fun urlcaseName =>
    (s.investigationCaseDB.getCase s.fs env urlcaseName).toOption.map fun entry =>
      .new entry.urlCaseName entry.caseName

/-- `getComputers(investigationCase)`. A computer whose entry cannot be read is left out. -/
def getComputers (s : RaqetControl) (env : ReadEnv) (investigationCase : String) :
    Except Exn (List ListedComputer) :=
  (s.investigationCaseDB.getComputers s.fs env investigationCase).map fun names =>
    names.filterMap fun computerName =>
      (s.investigationCaseDB.getComputer s.fs env investigationCase computerName).toOption.map
        fun entry => ⟨entry.urlcomputerName, entry.computerName⟩

/-- `getComputer(caseName, computerName)`. -/
def getComputer (s : RaqetControl) (env : ReadEnv) (caseName computerName : String) :
    Except Exn Computer :=
  (s.investigationCaseDB.getComputer s.fs env caseName computerName).map fun entry =>
    ⟨escapeName entry.urlcomputerName, entry.computerName, entry.clientId⟩

/-- `new RaqetControl(..)`, on the file system that making the evidence directory left. -/
def new (evidenceDirectory : File) (fs : Disk) (io : InsertIo) : RaqetControl :=
  (createInvestigationCase ⟨⟨evidenceDirectory⟩, fs, [], []⟩
    (.new "defaultcase" "defaultcase") io).2

/-! ## Calls -/

/-- A call of one of the HTTP services that does not only read. -/
inductive Call
  | register (ipAddress : String) (target : Register) (env : AddClientEnv)
  | diskinfo (ipAddress : String) (clientid hardwareid : Option String) (devices : List String)
      (io : ℕ → WriteIo)
  | addDevice (target : String) (env : ExportEnv)
  | createInvestigationCase (investigationCase : InvestigationCase) (io : InsertIo)
  | createComputer (caseName : String) (computer : Computer) (env : ReadEnv) (io : InsertIo)

/-- What a call returns or throws, and the state after it. -/
def call (s : RaqetControl) : Call → Except Exn Unit × RaqetControl
  | .register ipAddress target env => s.addClient (.ofRegister ipAddress target) env
  | .diskinfo ipAddress clientid hardwareid devices io =>
    s.diskInformation (.new clientid hardwareid ipAddress) devices io
  | .addDevice target env => s.addDirect target env
  | .createInvestigationCase investigationCase io => s.createInvestigationCase investigationCase io
  | .createComputer caseName computer env io => s.createComputer caseName computer env io

/-- A step of the server: it takes any call. -/
def step (s : RaqetControl) (c : Call) : Option RaqetControl := some (s.call c).2

end RaqetControl

end Raqet
