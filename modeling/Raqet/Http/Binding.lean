import Raqet.Http.Writes

/-!
# Binding clients to computers

What the calls do to the ids of entries and to the clients in the list, as long as no file
operation fails (`Call.Works`). A client that registers stays without a computer, or it is
bound to one that was found for its ids, to one that was found without hardware and gets
its ids (it is *claimed*), or to one that is created (`Binding`). Publishing its devices
then leaves all ids as they are. `call_effect` says what each call does.
-/

namespace Raqet

open Java FileSystem InvestigationCaseDB RaqetControl

/-- No file operation of the registration fails. -/
structure AddClientEnv.Works (env : AddClientEnv) : Prop where
  find : env.find.Works
  findAgain : env.findAgain.Works
  update : env.update = .ok
  create : env.create.Works
  insert : env.insert.Works
  writeLogging : env.writeLogging = .ok
  exporting : ∀ n, env.exporting.update n = .ok

/-- No file operation of the call fails. -/
def RaqetControl.Call.Works : Call → Prop
  | .register _ _ env => env.Works
  | .diskinfo _ _ _ _ io => ∀ n, io n = .ok
  | .addDevice _ env => ∀ n, env.update n = .ok
  | .createInvestigationCase _ io => io.Works
  | .createComputer _ _ env io => env.Works ∧ io.Works

/-- What the ids of a client are read back as. -/
def ClientInfo.storedIds (c : ClientInfo) : String × String :=
  (readBack c.clientId, readBack c.hardwareId)

theorem SameClient.ids {c c' : ClientInfo} (h : SameClient c c') : c'.ids = c.ids := by
  rw [ClientInfo.ids, ClientInfo.ids, h.clientId, h.hardwareId]

theorem SameClient.storedIds {c c' : ClientInfo} (h : SameClient c c') :
    c'.storedIds = c.storedIds := by
  rw [ClientInfo.storedIds, ClientInfo.storedIds, h.clientId, h.hardwareId]

/-! ## The computer of a client -/

/-- The computer that a client is bound to, the file system with its entry, and the
    directory that the entry is in. -/
inductive Binding (db : InvestigationCaseDB) (fs : Disk) (target : ClientInfo)
    (env : AddClientEnv) : ComputerDbEntry → Disk → List String → Prop
  | found {computer : ComputerDbEntry} {dir : List String}
      (hfind : db.findClient fs env.find target.clientId target.hardwareId = .ok (some computer))
      (hheld : HeldAt fs dir computer) : Binding db fs target env computer fs dir
  | claimed {computer : ComputerDbEntry} {fs' : Disk} {dir : List String}
      (hfind : db.findClient fs env.find target.clientId target.hardwareId = .ok none)
      (hagain : db.findClient fs env.findAgain target.clientId "" = .ok (some computer))
      (hheld : HeldAt fs dir computer)
      (hids : idsAt fs' = Function.update (idsAt fs) dir (some target.storedIds))
      (hheld' : HeldAt fs' dir { computer with hardwareId := readBack target.hardwareId }) :
      Binding db fs target env { computer with hardwareId := readBack target.hardwareId } fs' dir
  | created {computer : ComputerDbEntry} {fs' : Disk} {dir : List String}
      (hfind : db.findClient fs env.find target.clientId target.hardwareId = .ok none)
      (hagain : db.findClient fs env.findAgain target.clientId "" = .ok none)
      (hcreated : Created db fs env.create "defaultcase" (defaultComputer target)
        computer fs' dir) :
      Binding db fs target env computer fs' dir

variable {db : InvestigationCaseDB} {fs fs' : Disk} {target c c' : ClientInfo} {env : AddClientEnv}
  {computer : ComputerDbEntry} {dir : List String} {s t : RaqetControl} {folder : File}
  {device : DiscoveredDevice} {devices : List DiscoveredDevice}
  {update : ℕ → WriteIo} {x : Exporting}

/-- The name of a computer that is created for a client without slashes in its ids. -/
theorem isName_defaultComputer (target : ClientInfo) (hid : '/' ∉ (valueOf target.clientId).toList)
    (hhardware : '/' ∉ (valueOf target.hardwareId).toList) :
    File.IsName (defaultComputer target).urlcomputerName :=
  File.isName_of_mem (c := '_') (by simp [defaultComputer, hid, hhardware])
    (by simp [defaultComputer]) (by decide)

/-- An entry for the ids of a client is read back with them. -/
theorem storedIds_of_matches (h : computer.Matches target.clientId target.hardwareId) :
    computer.ids = target.storedIds := by
  rw [ClientInfo.storedIds, ← h.1, ← h.2]
  rfl

/-- An entry without hardware that is claimed has the ids of the client. -/
theorem ids_claimed {hardwareId : Option String} (h : computer.Matches target.clientId hardwareId) :
    ({ computer with hardwareId := readBack target.hardwareId } : ComputerDbEntry).ids =
      target.storedIds := by
  rw [ClientInfo.storedIds, ← h.1]
  rfl

theorem Binding.held (h : Binding db fs target env computer fs' dir) :
    HeldAt fs' dir computer ∧ computer.ids = target.storedIds := by
  cases h with
  | found hfind hheld => exact ⟨hheld, storedIds_of_matches (findClient_heldAt hfind).2⟩
  | claimed hfind hagain hheld hids hheld' =>
    exact ⟨hheld', ids_claimed (findClient_heldAt hagain).2⟩
  | created hfind hagain hcreated => exact ⟨hcreated.held, congrArg _ hcreated.fields_eq⟩

/-- The search for a computer ends without one, and changes no ids, or with a binding. -/
theorem lookupComputer_cases (db : InvestigationCaseDB) (fs : Disk) (target : ClientInfo)
    (henv : env.Works) :
    ((∀ computer, (lookupComputer db fs target env).1 ≠ .found computer) ∧
      idsAt (lookupComputer db fs target env).2 = idsAt fs) ∨
    ∃ computer dir, (lookupComputer db fs target env).1 = .found computer ∧
      Binding db fs target env computer (lookupComputer db fs target env).2 dir := by
  have hcases := createComputer_cases db fs env.create env.insert henv.insert.write "defaultcase"
    (defaultComputer target)
  cases hlookup : lookupComputer db fs target env with
  | mk result fs' =>
    cases looksUp hlookup with
    -- the search itself only reads
    | throws | throwsAgain =>
      left
      exact ⟨by rintro _ ⟨⟩, rfl⟩
    | found hfind =>
      obtain ⟨dir, hheld⟩ := (findClient_heldAt hfind).1
      exact .inr ⟨_, dir, rfl, .found hfind hheld⟩
    | @claims computer _ hfind hagain hupdate =>
      obtain ⟨⟨dir, hheld⟩, hids⟩ := findClient_heldAt hagain
      obtain ⟨fs'', hupdate', hids', hheld'⟩ := hheld.update
        { computer with hardwareId := readBack target.hardwareId } rfl
      rw [ids_claimed hids] at hids'
      rw [henv.update, hupdate'] at hupdate
      cases hupdate
      exact .inr ⟨_, dir, rfl, .claimed hfind hagain hheld hids' hheld'⟩
    -- no write fails
    | @claimFails computer _ _ _ hagain hupdate =>
      obtain ⟨⟨dir, hheld⟩, -⟩ := findClient_heldAt hagain
      obtain ⟨fs'', hupdate', -⟩ := hheld.update
        { computer with hardwareId := readBack target.hardwareId } rfl
      rw [henv.update, hupdate'] at hupdate
      cases hupdate
    | creates hfind hagain hcreate =>
      rw [hcreate] at hcases
      rcases hcases with ⟨hno, -⟩ | ⟨_, dir, ⟨⟩, hcreated⟩
      · exact absurd rfl (hno _)
      · exact .inr ⟨_, dir, rfl, .created hfind hagain hcreated⟩
    | createFails _ _ hcreate =>
      rw [hcreate] at hcases
      rcases hcases with ⟨-, hids⟩ | ⟨_, -, ⟨⟩, -⟩
      exact .inl ⟨by rintro _ ⟨⟩, hids⟩

/-! ## Publishing devices -/

/-- While the devices of a client are published, it stays bound to a computer with this
    folder, and all ids stay. -/
structure StillBound (fs : Disk) (c : ClientInfo) (folder : File) (dir : List String)
    (x : Exporting) : Prop where
  ids : idsAt x.fs = idsAt fs
  client : ∃ c' computer, x.clientInfo = some c' ∧ SameClient c c' ∧
    c'.computerDbEntry = some computer ∧ computer.baseStorageFolder = folder ∧
    HeldAt x.fs dir computer

theorem ids_addDisk (computer : ComputerDbEntry) (name : String) :
    (computer.addDisk name).ids = computer.ids := by
  rw [ComputerDbEntry.addDisk]
  split_ifs <;> rfl

theorem StillBound.exportDevice (h : StillBound fs c folder dir x) (device : DiscoveredDevice) :
    StillBound fs c folder dir (RaqetControl.exportDevice .ok device x).2 := by
  obtain ⟨c', computer, hx, hsame, hc', hfolder, hheld⟩ := h.client
  rcases exportDevice_client .ok device hx hc' with he | ⟨name, hfs, hclient⟩
  · rwa [he]
  · obtain ⟨hfolder', -⟩ := addDisk_folder computer name
    obtain ⟨fs', hupdate, hids, hheld'⟩ := hheld.update _ hfolder'
    rw [hupdate] at hfs
    refine ⟨?_, _, _, hclient, hsame.trans ⟨rfl, rfl, rfl, rfl⟩, rfl, hfolder'.trans hfolder,
      hfs ▸ hheld'⟩
    -- the ids that are written are there already
    rw [hfs, hids, ids_addDisk, ← hheld.ids, Function.update_eq_self]
    exact h.ids

theorem StillBound.exportDevices (devices : List DiscoveredDevice)
    (h : StillBound fs c folder dir x) (hupdate : ∀ n, update n = .ok) :
    StillBound fs c folder dir (RaqetControl.exportDevices update devices x).2 :=
  exportDevices_induction devices (fun n device _ h => hupdate n ▸ h.exportDevice device) h

/-! ## Calls -/

/-- A registration adds a client. It has no computer, and no ids change, or a computer that
    it was bound to, of which it keeps the folder. -/
theorem addNewClient_binding (s : RaqetControl) (target : ClientInfo)
    (htarget : target.computerDbEntry = none)
    (henv : env.Works) :
    ∃ c', SameClient target c' ∧ (s.addNewClient target env).2.clientList = s.clientList ++ [c'] ∧
      ((∀ computer, (lookupComputer s.investigationCaseDB s.fs target env).1 ≠ .found computer) ∧
        c'.computerDbEntry = none ∧ idsAt (s.addNewClient target env).2.fs = idsAt s.fs ∨
      ∃ found fs' dir computer, Binding s.investigationCaseDB s.fs target env found fs' dir ∧
        idsAt (s.addNewClient target env).2.fs = idsAt fs' ∧
        c'.computerDbEntry = some computer ∧
        computer.baseStorageFolder = found.baseStorageFolder ∧
        HeldAt (s.addNewClient target env).2.fs dir computer) := by
  have hcases := lookupComputer_cases s.investigationCaseDB s.fs target henv
  have hadds := addsClient s target env
  generalize (s.addNewClient target env).2 = t at hadds ⊢
  cases hadds with
  | unbound hlookup hnone =>
    rw [hlookup] at hcases
    rcases hcases with ⟨hno, hids⟩ | ⟨computer, dir, hfound, -⟩
    · rw [hlookup]
      exact ⟨target, .refl _, rfl, .inl ⟨hno, htarget, hids⟩⟩
    · exact absurd hfound (hnone computer)
  | @bound computer fs' x hlookup devices hexport =>
    rw [hlookup] at hcases
    rcases hcases with ⟨hne, -⟩ | ⟨found, dir, hfound, hbinding⟩
    · exact absurd rfl (hne computer)
    cases hfound
    -- the log of the client is no entry
    have hlog : idsAt (writeLogging fs' env.writeLogging computer) = idsAt fs' :=
      idsAt_write_other computer.baseStorageFolder.names "clientlogfile.txt"
        (File.names_child_of_isSegment (by decide +kernel)) (by decide +kernel)
        (by decide +kernel)
    have hlater : Later (fun _ _ => True) fs' (writeLogging fs' env.writeLogging computer) :=
      later_write fun _ _ => ⟨trivial, trivial⟩
    have hbound : StillBound fs' target computer.baseStorageFolder dir
        ⟨writeLogging fs' env.writeLogging computer,
          some { target with computerDbEntry := some computer }, s.published⟩ :=
      ⟨hlog, _, computer, rfl, ⟨rfl, rfl, rfl, rfl⟩, rfl, rfl,
        hbinding.held.1.later hlater (congrFun hlog dir)⟩
    obtain ⟨hids, c', computer', hx, hsame, hc', hfolder, hheld⟩ :=
      hbound.exportDevices devices henv.exporting
    rw [hexport] at hids hx hheld
    rw [hx]
    exact ⟨c', hsame, rfl, .inr ⟨computer, fs', dir, computer', hbinding, hids, hc', hfolder,
      hheld⟩⟩

/-- What a call does to the clients in the list and to the ids of entries. -/
inductive RaqetControl.Effect (s : RaqetControl) : Call → RaqetControl → Prop
  | nothing {a : Call} {t : RaqetControl} (hlist : t.clientList = s.clientList)
      (hids : idsAt t.fs = idsAt s.fs) : Effect s a t
  /-- A computer is created without hardware, in a directory that was not there. -/
  | created {a : Call} {t : RaqetControl} {dir : List String} {clientid : String}
      (hlist : t.clientList = s.clientList) (hnew : s.fs.isDirectoryAt dir = false)
      (hids : idsAt t.fs = Function.update (idsAt s.fs) dir (some (clientid, ""))) : Effect s a t
  /-- A client stays without a computer. -/
  | unbound {ipAddress : String} {target : Register} {env : AddClientEnv} {t : RaqetControl}
      {c' : ClientInfo}
      (hlist : t.clientList = s.clientList ++ [c']) (hnone : c'.computerDbEntry = none)
      (hids : idsAt t.fs = idsAt s.fs) : Effect s (.register ipAddress target env) t
  | bound {ipAddress : String} {target : Register} {env : AddClientEnv} {t : RaqetControl}
      {c' : ClientInfo} {found computer : ComputerDbEntry} {fs' : Disk} {dir : List String}
      (hnew : s.isNew (.ofRegister ipAddress target) = true)
      (hsame : SameClient (.ofRegister ipAddress target) c')
      (hlist : t.clientList = s.clientList ++ [c'])
      (hbinding : Binding s.investigationCaseDB s.fs (.ofRegister ipAddress target) env
        found fs' dir)
      (hids : idsAt t.fs = idsAt fs') (hc' : c'.computerDbEntry = some computer)
      (hfolder : computer.baseStorageFolder = found.baseStorageFolder)
      (hheld : HeldAt t.fs dir computer) : Effect s (.register ipAddress target env) t

theorem call_effect {a : Call} (s : RaqetControl) (ha : a.Works) : Effect s a (s.call a).2 := by
  cases a with
  | register ipAddress target env =>
    rw [call]
    cases hnew : s.isNew (.ofRegister ipAddress target) with
    | false =>
      rw [addClient_of_not_isNew env hnew]
      exact .nothing rfl rfl
    | true =>
      rw [addClient_of_isNew env hnew]
      obtain ⟨c', hsame, hlist, ⟨-, hnone, hids⟩ | ⟨found, fs', dir, computer, hbinding, hids, hc',
        hfolder, hheld⟩⟩ := addNewClient_binding s (.ofRegister ipAddress target) rfl ha
      · exact .unbound hlist hnone hids
      · exact .bound hnew hsame hlist hbinding hids hc' hfolder hheld
  | diskinfo ipAddress clientid hardwareid devices io =>
    rw [call]
    cases hsender : s.sender (.new clientid hardwareid ipAddress) with
    | none =>
      rw [diskInformation_of_none devices io hsender]
      exact .nothing rfl rfl
    | some computer =>
      rw [diskInformation_of_sender devices io hsender]
      -- a file with information about a disk is not the entry of a computer
      refine .nothing rfl (idsAt_later (later_writeDiskInformation fun dir name => ?_))
      rw [List.getLast?_concat]
      exact fun he => append_txt_ne (by decide +kernel) (Option.some.inj he)
  | addDevice target env =>
    rw [call, addDirect]
    cases TargetAddress.ofString target with
    | error e => exact .nothing rfl rfl
    | ok address =>
      dsimp only
      rw [addRemoteDevice]
      cases RemoteDeviceManager.listTargets address env.discovery with
      | error e => exact .nothing rfl rfl
      | ok devices =>
        dsimp only
        rw [exportDevices_direct]
        exact .nothing rfl rfl
  -- nor is the entry of a case
  | createInvestigationCase investigationCase io =>
    refine .nothing rfl ?_
    rw [call, createInvestigationCase, createCase]
    dsimp only
    split_ifs
    · rfl
    · rw [writeValue_snd, idsAt_write_other _ investigationEntryName
        (File.names_child_of_isSegment (by decide +kernel)) (by decide +kernel) (by decide +kernel),
        idsAt_mkdir]
  | createComputer caseName computer env io =>
    obtain ⟨-, hids⟩ | ⟨created, dir, -, hcreated⟩ :=
      createComputer_cases s.investigationCaseDB s.fs env io ha.2.write caseName
        { urlcomputerName := escapeName computer.urlcomputerName
          computerName := computer.computerName
          clientId := computer.clientid }
    · exact .nothing rfl hids
    · exact .created rfl hcreated.new hcreated.ids

/-- What is a directory stays one, and a path that leads somewhere keeps leading there. -/
theorem call_later (s : RaqetControl) (a : Call) :
    Later (fun _ _ => True) s.fs (s.call a).2.fs :=
  (call_later_writes s a).mono fun _ _ _ => trivial

end Raqet
