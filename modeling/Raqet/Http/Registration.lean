import Raqet.Http.Publishing

/-!
# Registrations that end early

`addClient` adds the client to the list before it searches for its computer, discovers its
devices and publishes them, each of which can fail. The client then stays in the list, its
registration is ignored from then on, and information about its disks finds no computer.

The discovered devices are recorded next to the server (`Observed`). Every client in the
list is then bound to a computer, with devices that were discovered and published
(`Complete`), in every state of a run, if and only if no registration fails (`Completes`):
this is `complete_iff`.
-/

namespace Raqet

open Java FileSystem InvestigationCaseDB RaqetControl

/-- The devices that a call discovers at a client that is not in the list. -/
def RaqetControl.discoveries (s : RaqetControl) :
    Call → List (ClientInfo × List DiscoveredDevice)
  | .register ipAddress target env =>
    let c := ClientInfo.ofRegister ipAddress target
    if s.isNew c then
      match (lookupComputer s.investigationCaseDB s.fs c env).1 with
      | .found _ =>
        match TargetAddress.ofString (c.ipAddress ++ ":3260") with
        | .ok address =>
          match RemoteDeviceManager.listTargets address env.exporting.discovery with
          | .ok devices => [(c, devices)]
          | .error _ => []
        | .error _ => []
      | _ => []
    else []
  | _ => []

/-- The server, and the devices that were discovered at clients. -/
structure Observed where
  control : RaqetControl
  discovered : List (ClientInfo × List DiscoveredDevice)

namespace Observed

/-- A step of the server, with what it discovers. -/
def step (o : Observed) (a : Call) : Option Observed :=
  (o.control.step a).map fun s => ⟨s, o.discovered ++ o.control.discoveries a⟩

/-- The device was published for the client. -/
def IsPublished (o : Observed) (c : ClientInfo) (device : DiscoveredDevice) : Prop :=
  ∃ p ∈ o.control.published, (∃ c', p.clientInfo = some c' ∧ c'.identity = c.identity) ∧
    p.device.toDiscoveredDevice = device

/-- The client is bound to a computer, and its devices were discovered and published. -/
structure Complete (o : Observed) (c : ClientInfo) : Prop where
  bound : c.computerDbEntry ≠ none
  discovered : ∃ d ∈ o.discovered, d.1.identity = c.identity ∧ d.2 ≠ [] ∧
    ∀ device ∈ d.2, o.IsPublished c device

/-- All registrations in the list are complete: a client that nothing was published for is
    not ignored when it registers, but is processed if it has its ids, and information about
    disks finds a computer, unless the ids of a client cannot be compared. -/
structure AllComplete (o : Observed) : Prop where
  complete : ∀ c ∈ o.control.clientList, o.Complete c
  notIgnored : ∀ c, (∀ device, ¬o.IsPublished c device) →
    ∀ c', c.findIn o.control.clientList ≠ .ok (some c')
  processed : ∀ c, (∀ device, ¬o.IsPublished c device) → c.clientId ≠ none → c.hardwareId ≠ none →
    o.control.isNew c = true
  diskInformation : ∀ clientInfo devices io,
    (o.control.diskInformation clientInfo devices io).1 = .error .nullPointer →
    clientInfo.findIn o.control.clientList = .error .nullPointer

end Observed

/-- The search for the computer of a client succeeds: the most specific one is found, or
    one without hardware is found and updated, or a new one is created. -/
def Finds (db : InvestigationCaseDB) (fs : Disk) (target : ClientInfo)
    (env : AddClientEnv) : Prop :=
  (∃ computer, db.findClient fs env.find target.clientId target.hardwareId = .ok (some computer)) ∨
  db.findClient fs env.find target.clientId target.hardwareId = .ok none ∧
    ((∃ computer, db.findClient fs env.findAgain target.clientId "" = .ok (some computer)) ∧
        env.update = .ok ∨
      db.findClient fs env.findAgain target.clientId "" = .ok none ∧
        ∃ computer, (db.createComputer fs env.create env.insert "defaultcase"
          (defaultComputer target)).1 = .ok computer)

/-- The call does not register a client that is not in the list, or nothing fails: a
    computer is found, devices are discovered, and all of them are published. -/
def Completes (s : RaqetControl) : Call → Prop
  | .register ipAddress target env =>
    let c := ClientInfo.ofRegister ipAddress target
    s.isNew c = true →
      Finds s.investigationCaseDB s.fs c env ∧
      ∃ address devices, TargetAddress.ofString (ipAddress ++ ":3260") = .ok address ∧
        RemoteDeviceManager.listTargets address env.exporting.discovery = .ok devices ∧
        devices ≠ [] ∧ devices ⊆ exported c env.exporting.update devices
  | _ => True

variable {s : RaqetControl} {o o' : Observed} {c c' target : ClientInfo} {env : AddClientEnv}
  {computer : ComputerDbEntry} {devices : List DiscoveredDevice} {a : Call}

/-! ## Clients -/

theorem SameClient.identity (h : SameClient c c') : c'.identity = c.identity := by
  rw [ClientInfo.identity, ClientInfo.identity, h.clientId, h.ipAddress, h.hardwareId]

/-- A client with the same identity is in the list. -/
def Registered (s : RaqetControl) (c : ClientInfo) : Prop :=
  ∃ c' ∈ s.clientList, c.identity = c'.identity

theorem not_registered (h : s.isNew c = true) : ¬Registered s c := fun ⟨c', hc', hid⟩ =>
  ClientInfo.findIn_eq_none (isNew_iff.1 h) c' hc' hid

theorem Registered.congr (h : Registered s c) (hid : c.identity = c'.identity) :
    Registered s c' := by
  obtain ⟨c'', hmem, hid'⟩ := h
  exact ⟨c'', hmem, hid.symm.trans hid'⟩

/-- The search for a computer ends with one if and only if nothing fails. -/
theorem finds_iff : (∃ computer, (lookupComputer s.investigationCaseDB s.fs target env).1 =
    .found computer) ↔ Finds s.investigationCaseDB s.fs target env := by
  rw [lookupComputer, Finds]
  cases hfind : s.investigationCaseDB.findClient s.fs env.find target.clientId
    target.hardwareId with
  | error e => simp
  | ok found =>
    cases found with
    | some computer => simp
    | none =>
      cases hagain : s.investigationCaseDB.findClient s.fs env.findAgain target.clientId "" with
      | error e => simp
      | ok found =>
        cases found with
        | some computer =>
          have hw : Writable s.fs
              ({ computer with hardwareId := readBack target.hardwareId } :
                ComputerDbEntry).baseStorageFolder :=
            (findClient_found hagain).stored.writable
          -- an entry that was read can be written, unless the write itself fails
          rcases hw.update_cases env.update with ⟨hio, hu⟩ | ⟨hio, hu⟩
          · obtain ⟨fs', hu'⟩ : ∃ fs', update s.fs env.update
              { computer with hardwareId := readBack target.hardwareId } = (.ok (), fs') :=
                ⟨_, Prod.ext hu rfl⟩
            dsimp only
            rw [hu']
            simp [hio]
          · obtain ⟨fs', hu'⟩ : ∃ fs', update s.fs env.update
              { computer with hardwareId := readBack target.hardwareId } = (.error .io, fs') :=
              ⟨_, Prod.ext hu rfl⟩
            dsimp only
            rw [hu']
            simp [hio]
        | none =>
          obtain ⟨created, fs', hcreate⟩ : ∃ created fs', s.investigationCaseDB.createComputer s.fs
            env.create env.insert "defaultcase" (defaultComputer target) = (created, fs') :=
            ⟨_, _, rfl⟩
          cases created <;> simp [hcreate]

/-! ## Records of what was discovered -/

theorem discoveries_reaches {ipAddress : String} {target : Register}
    (hnew : s.isNew (.ofRegister ipAddress target) = true)
    (h : Reaches s (.ofRegister ipAddress target) env computer devices) :
    s.discoveries (.register ipAddress target env) =
      [(ClientInfo.ofRegister ipAddress target, devices)] := by
  obtain ⟨hfound, address, ha, hd⟩ := h
  rw [RaqetControl.discoveries]
  simp only [hnew, if_true, hfound, ha, hd]

theorem discoveries_unreached {ipAddress : String} {target : Register}
    (h : ¬∃ computer devices, Reaches s (.ofRegister ipAddress target) env computer devices) :
    s.discoveries (.register ipAddress target env) = [] := by
  rw [RaqetControl.discoveries]
  split_ifs
  swap
  · rfl
  cases hfound : (lookupComputer s.investigationCaseDB s.fs
      (.ofRegister ipAddress target) env).1 with
  | throws e => rfl
  | «return» => rfl
  | found computer =>
    cases ha : TargetAddress.ofString ((ClientInfo.ofRegister ipAddress target).ipAddress ++
      ":3260") with
    | error e => rfl
    | ok address =>
      cases hd : RemoteDeviceManager.listTargets address env.exporting.discovery with
      | error e => simp only [hd]
      | ok devices => exact absurd ⟨computer, devices, hfound, address, ha, hd⟩ h

theorem exists_of_mem_left {α β : Type*} {R : α → β → Prop} {l : List α} {u : List β} {x : α}
    (h : List.Forall₂ R l u) (hx : x ∈ l) : ∃ y ∈ u, R x y := by
  induction h with
  | nil => cases hx
  | cons hxy _ ih =>
    rcases List.mem_cons.1 hx with rfl | hx
    · exact ⟨_, List.mem_cons_self, hxy⟩
    · obtain ⟨y, hy, hR⟩ := ih hx
      exact ⟨y, List.mem_cons_of_mem _ hy, hR⟩

/-- What a call does to the list and the record: nothing, while it may publish devices of
    a direct target, or it adds a client, which it may publish devices for. -/
inductive Adds (o : Observed) : Call → Observed → Prop
  | nothing {a : Call} {s : RaqetControl} {ps : List Publication}
      (hcompletes : Completes o.control a)
      (hlist : s.clientList = o.control.clientList)
      (hpublished : s.published = o.control.published ++ ps) (hps : ∀ p ∈ ps, p.clientInfo = none) :
      Adds o a ⟨s, o.discovered⟩
  | unreached {ipAddress : String} {target : Register} {env : AddClientEnv} {s : RaqetControl}
      {c' : ClientInfo}
      (hnew : o.control.isNew (.ofRegister ipAddress target) = true)
      (h : ¬∃ computer devices, Reaches o.control (.ofRegister ipAddress target)
        env computer devices)
      (hsame : SameClient (.ofRegister ipAddress target) c')
      (hlist : s.clientList = o.control.clientList ++ [c'])
      (hpublished : s.published = o.control.published) :
      Adds o (.register ipAddress target env) ⟨s, o.discovered⟩
  | client {ipAddress : String} {target : Register} {env : AddClientEnv} {s : RaqetControl}
      {c' : ClientInfo} {computer computer' : ComputerDbEntry} {devices : List DiscoveredDevice}
      {ps : List Publication}
      (hnew : o.control.isNew (.ofRegister ipAddress target) = true)
      (h : Reaches o.control (.ofRegister ipAddress target) env computer devices)
      (hsame : SameClient (.ofRegister ipAddress target) c')
      (hbound : c'.computerDbEntry = some computer')
      (hlist : s.clientList = o.control.clientList ++ [c'])
      (hpublished : s.published = o.control.published ++ ps)
      (hps : List.Forall₂ (PublishedFor (.ofRegister ipAddress target) computer)
        (exported (.ofRegister ipAddress target) env.exporting.update devices) ps) :
      Adds o (.register ipAddress target env)
        ⟨s, o.discovered ++ [(ClientInfo.ofRegister ipAddress target, devices)]⟩

theorem step_adds (h : o.step a = some o') : Adds o a o' := by
  cases h
  obtain ⟨ps, hpublished, hps⟩ := call_published o.control a
  cases a with
  | register ipAddress target env =>
    by_cases hnew : o.control.isNew (.ofRegister ipAddress target) = true
    swap
    · have hd : o.control.discoveries (.register ipAddress target env) = [] := if_neg hnew
      have hcall : (o.control.call (.register ipAddress target env)).2 = o.control :=
        addClient_of_not_isNew env (Bool.eq_false_iff.2 hnew)
      rw [hd, List.append_nil, hcall]
      exact .nothing (fun h => absurd h hnew) rfl (List.append_nil _).symm (List.forall_mem_nil _)
    have hcall : (o.control.call (.register ipAddress target env)).2 =
        (o.control.addNewClient (.ofRegister ipAddress target) env).2 :=
      congrArg Prod.snd (addClient_of_isNew env hnew)
    by_cases hreach : ∃ computer devices,
        Reaches o.control (.ofRegister ipAddress target) env computer devices
    · obtain ⟨computer, devices, hreaches⟩ := hreach
      obtain ⟨c', computer', ps, hsame, hbound, hlist, hpublished, hps⟩ :=
        addNewClient_reaches hreaches
      rw [discoveries_reaches hnew hreaches]
      exact .client hnew hreaches hsame hbound (hcall ▸ hlist) (hcall ▸ hpublished) hps
    · obtain ⟨c', hsame, hlist, hpublished⟩ := addNewClient_unreached hreach
      rw [discoveries_unreached hreach, List.append_nil]
      exact .unreached hnew hreach hsame (hcall ▸ hlist) (hcall ▸ hpublished)
  | addDevice target env =>
    have hdirect : ∀ p ∈ ps, p.clientInfo = none := by
      cases hps with
      | direct => exact List.forall_mem_map.2 fun _ _ => rfl
      | nothing => exact List.forall_mem_nil _
    rw [show o.control.discoveries (.addDevice target env) = [] from rfl, List.append_nil]
    refine .nothing trivial ?_ hpublished hdirect
    rw [call, addDirect]
    split <;> rfl
  | diskinfo ipAddress clientid hardwareid devices io =>
    rw [show o.control.discoveries (.diskinfo ..) = [] from rfl, List.append_nil]
    have h := diskInformation_eq (s := o.control) (.new clientid hardwareid ipAddress) devices io
    exact .nothing trivial h.2 (h.1.trans (List.append_nil _).symm) (List.forall_mem_nil _)
  | createInvestigationCase investigationCase io =>
    rw [show o.control.discoveries (.createInvestigationCase ..) = [] from rfl, List.append_nil]
    exact .nothing trivial rfl (List.append_nil _).symm (List.forall_mem_nil _)
  | createComputer caseName computer env io =>
    rw [show o.control.discoveries (.createComputer ..) = [] from rfl, List.append_nil]
    exact .nothing trivial rfl (List.append_nil _).symm (List.forall_mem_nil _)

/-! ## Complete registrations -/

namespace Observed

/-- Devices are published for clients in the list, and what is recorded is of clients in
    the list. -/
structure Invariant (o : Observed) : Prop where
  published : ∀ p ∈ o.control.published, ∀ c, p.clientInfo = some c → Registered o.control c
  discovered : ∀ d ∈ o.discovered, Registered o.control d.1

/-- With complete registrations in the list, no client is ignored without its devices being
    published, and every client has a computer. -/
theorem allComplete_iff : o.AllComplete ↔ ∀ c ∈ o.control.clientList, o.Complete c := by
  refine ⟨AllComplete.complete, fun h => ?_⟩
  -- a complete registration has a device that is published
  have hpublished {c : ClientInfo} (hnone : ∀ device, ¬o.IsPublished c device) :
      ¬Registered o.control c := by
    rintro ⟨c', hc', hid⟩
    obtain ⟨d, -, -, hne, hpublished⟩ := (h c' hc').discovered
    obtain ⟨device, hdevice⟩ := List.exists_mem_of_ne_nil _ hne
    obtain ⟨p, hp, ⟨c'', hc'', hid'⟩, hpd⟩ := hpublished device hdevice
    exact hnone device ⟨p, hp, ⟨c'', hc'', hid'.trans hid.symm⟩, hpd⟩
  refine ⟨h, fun c hnone c' hfind => ?_, fun c hnone hclient hhardware => ?_,
    fun clientInfo devices io => ?_⟩
  · exact hpublished hnone ⟨c', ClientInfo.findIn_eq_some hfind⟩
  · exact isNew_iff.2 ((ClientInfo.findIn_eq_none_iff hclient hhardware).2 fun c' hc' hid =>
      hpublished hnone ⟨c', hc', hid⟩)
  · rw [RaqetControl.diskInformation]
    cases hfind : clientInfo.findIn o.control.clientList with
    | error e =>
      intro he
      cases he
      rfl
    | ok found =>
      cases found with
      | none => rintro ⟨⟩
      | some c =>
        dsimp only
        cases hc : c.computerDbEntry with
        | none => exact absurd hc (h c (ClientInfo.findIn_eq_some hfind).1).bound
        | some computer => rintro ⟨⟩

theorem IsPublished.mono {device : DiscoveredDevice} (h : o.IsPublished c device)
    (hsub : o.control.published ⊆ o'.control.published) : o'.IsPublished c device := by
  obtain ⟨p, hp, hp'⟩ := h
  exact ⟨p, hsub hp, hp'⟩

theorem Complete.mono (h : o.Complete c) (hsub : o.control.published ⊆ o'.control.published)
    (hdiscovered : o.discovered ⊆ o'.discovered) : o'.Complete c := by
  obtain ⟨d, hd, heq, hne, hpublished⟩ := h.discovered
  exact ⟨h.bound, d, hdiscovered hd, heq, hne,
    fun device hdevice => (hpublished device hdevice).mono hsub⟩

end Observed

/-- A call keeps the clients in the list. -/
theorem Adds.registered (h : Adds o a o') (hc : Registered o.control c) :
    Registered o'.control c := by
  obtain ⟨c', hc', hid⟩ := hc
  refine ⟨c', ?_, hid⟩
  cases h with
  | nothing _ hlist => rwa [hlist]
  | unreached _ _ _ hlist | client _ _ _ _ hlist =>
    rw [hlist]
    exact List.mem_append_left _ hc'

theorem Adds.subset (h : Adds o a o') : o.control.published ⊆ o'.control.published ∧
    o.discovered ⊆ o'.discovered := by
  cases h with
  | nothing _ _ hpublished | client _ _ _ _ _ hpublished =>
    rw [hpublished]
    exact ⟨List.subset_append_left .., by simp⟩
  | unreached _ _ _ _ hpublished =>
    rw [hpublished]
    exact ⟨fun _ h => h, fun _ h => h⟩

theorem Adds.invariant (h : Adds o a o') (hi : o.Invariant) : o'.Invariant := by
  have hkeeps {c : ClientInfo} := h.registered (c := c)
  have hpub := fun p hp c hc => hkeeps (hi.published p hp c hc)
  have hdis := fun d hd => hkeeps (hi.discovered d hd)
  cases h with
  | nothing _ _ hpublished hps =>
    refine ⟨?_, hdis⟩
    rw [hpublished, List.forall_mem_append]
    refine ⟨hpub, fun p hp c hc => ?_⟩
    rw [hps p hp] at hc
    cases hc
  | unreached _ _ _ _ hpublished =>
    refine ⟨?_, hdis⟩
    rw [hpublished]
    exact hpub
  -- the devices are published for the client that is added
  | @client ipAddress target env s c' computer _ devices ps _ _ hsame _ hlist hpublished hps =>
    have hself : Registered s (.ofRegister ipAddress target) :=
      ⟨c', hlist ▸ List.mem_append_right _ (List.mem_singleton_self _), hsame.identity.symm⟩
    refine ⟨?_, ?_⟩
    · rw [hpublished, List.forall_mem_append]
      refine ⟨hpub, fun p hp c hc => ?_⟩
      obtain ⟨device, -, hdevice⟩ := exists_of_mem_left hps.flip hp
      obtain ⟨c'', hc'', hsame'⟩ := hdevice.client
      rw [hc, Option.some.injEq] at hc''
      exact hself.congr (hc'' ▸ hsame'.identity.symm)
    · rw [List.forall_mem_append]
      exact ⟨hdis, List.forall_mem_singleton.2 hself⟩

/-- A registration that does not get as far as publishing devices is not complete. -/
theorem not_completes {ipAddress : String} {target : Register}
    (hnew : s.isNew (.ofRegister ipAddress target) = true)
    (h : ¬∃ computer devices, Reaches s (.ofRegister ipAddress target) env computer devices) :
    ¬Completes s (.register ipAddress target env) := by
  intro hcompletes
  obtain ⟨hfinds, address, devices, ha, hd, -⟩ := hcompletes hnew
  obtain ⟨computer, hfound⟩ := finds_iff.2 hfinds
  exact h ⟨computer, devices, hfound, address, ha, hd⟩

/-- One that does is complete if it publishes all devices. -/
theorem Reaches.completes_iff {ipAddress : String} {target : Register}
    (h : Reaches s (.ofRegister ipAddress target) env computer devices)
    (hnew : s.isNew (.ofRegister ipAddress target) = true) :
    Completes s (.register ipAddress target env) ↔ devices ≠ [] ∧
      devices ⊆ exported (.ofRegister ipAddress target) env.exporting.update devices := by
  constructor
  · intro hcompletes
    obtain ⟨hfinds, address, devices', ha, hd, hall⟩ := hcompletes hnew
    obtain ⟨computer', hfound⟩ := finds_iff.2 hfinds
    obtain ⟨-, rfl⟩ := h.unique ⟨hfound, address, ha, hd⟩
    exact hall
  · intro hall _
    obtain ⟨hfound, address, ha, hd⟩ := h
    exact ⟨finds_iff.1 ⟨computer, hfound⟩, address, devices, ha, hd, hall⟩

/-- A client that was added is complete if and only if its registration was. -/
theorem Adds.allComplete_iff_completes (h : Adds o a o') (hi : o.Invariant)
    (hcomplete : ∀ c ∈ o.control.clientList, o.Complete c) :
    (∀ c ∈ o'.control.clientList, o'.Complete c) ↔ Completes o.control a := by
  obtain ⟨hpub, hdis⟩ := h.subset
  have hold : ∀ c ∈ o.control.clientList, o'.Complete c := fun c hc =>
    (hcomplete c hc).mono hpub hdis
  cases h with
  | nothing hcompletes hlist =>
    rw [hlist]
    exact iff_of_true hold hcompletes
  | @unreached ipAddress target env s c' hnew hno hsame hlist hpublished =>
    refine iff_of_false (fun hall => ?_) (not_completes hnew hno)
    have hc' := hall c' (by rw [hlist]; exact List.mem_append_right _ (List.mem_singleton_self _))
    -- nothing was recorded for the client before
    obtain ⟨d, hd, hid, -⟩ := hc'.discovered
    exact not_registered hnew ((hi.discovered d hd).congr (hid.trans hsame.identity))
  | @client ipAddress target env s c' computer computer' devices ps hnew hreaches hsame hbound hlist
      hpublished hps =>
    rw [hreaches.completes_iff hnew, hlist, List.forall_mem_append, and_iff_right hold,
      List.forall_mem_singleton]
    constructor
    · intro hc'
      obtain ⟨d, hd, hid, hne, hall⟩ := hc'.discovered
      rcases List.mem_append.1 hd with hd | hd
      · exact absurd ((hi.discovered d hd).congr (hid.trans hsame.identity)) (not_registered hnew)
      obtain rfl := List.mem_singleton.1 hd
      refine ⟨hne, fun device hdevice => ?_⟩
      obtain ⟨p, hp, ⟨c'', hc'', hid'⟩, hpd⟩ := hall device hdevice
      rw [hpublished] at hp
      rcases List.mem_append.1 hp with hp | hp
      · -- nothing was published for the client before
        exact absurd ((hi.published p hp c'' hc'').congr (hid'.trans hsame.identity))
          (not_registered hnew)
      · obtain ⟨device', hdevice', hfor⟩ := exists_of_mem_left hps.flip hp
        have : device = device' := hpd.symm.trans (congrArg _ hfor.device)
        exact this ▸ hdevice'
    · rintro ⟨hne, hall⟩
      refine ⟨by rw [hbound]; exact nofun, _, List.mem_append_right _ (List.mem_singleton_self _),
        hsame.identity.symm, hne, fun device hdevice => ?_⟩
      obtain ⟨p, hp, hfor⟩ := exists_of_mem_left hps (hall hdevice)
      obtain ⟨c'', hc'', hsame'⟩ := hfor.client
      refine ⟨p, ?_, ⟨c'', hc'', hsame'.identity.trans hsame.identity.symm⟩,
        congrArg _ hfor.device⟩
      rw [hpublished]
      exact List.mem_append_right _ hp

/-! ## Runs -/

/-- The server at first. -/
def Observed.new (evidenceDirectory : File) (fs : Disk) (io : InsertIo) : Observed :=
  ⟨.new evidenceDirectory fs io, []⟩

/-- All registrations in the list are complete in every state of a run, if and only if
    every call completes. -/
theorem complete_iff {evidenceDirectory : File} {fs : Disk} {io : InsertIo} {l : List Call}
    (h : Transition.runs Observed.step (.new evidenceDirectory fs io) l = some o) :
    Transition.Throughout Observed.step Observed.AllComplete (.new evidenceDirectory fs io) l ↔
      Transition.AllSteps Observed.step (fun o a => Completes o.control a)
        (.new evidenceDirectory fs io) l := by
  refine Transition.throughout_iff (I := fun o => o.Invariant ∧
    ∀ c ∈ o.control.clientList, o.Complete c) (fun o ho => Observed.allComplete_iff.2 ho.2) ?_ ?_ h
    ⟨⟨List.forall_mem_nil _, List.forall_mem_nil _⟩, List.forall_mem_nil _⟩
  all_goals
    rintro o a o' ⟨hi, hcomplete⟩ hstep
    have hadds := step_adds hstep
  · exact fun hcompletes =>
      ⟨hadds.invariant hi, (hadds.allComplete_iff_completes hi hcomplete).2 hcompletes⟩
  · exact fun hall =>
      (hadds.allComplete_iff_completes hi hcomplete).1 (Observed.allComplete_iff.1 hall)

/-- A client registers, and its devices are published. -/
theorem complete_registers : Transition.Throughout Observed.step Observed.AllComplete
    (.new (File.ofPath "/var/raqet") emptyEvidence ⟨false, .ok⟩) [registers ["iqn.a"]] := by
  refine (complete_iff (o := _) (l := [registers ["iqn.a"]]) rfl).2
    ⟨fun _ => ?_, fun _ _ => trivial⟩
  refine ⟨.inr ⟨by decide +kernel, .inr ⟨by decide +kernel, ?_⟩⟩, ⟨"10.0.0.2:3260", "", ""⟩,
    [⟨"10.0.0.2:3260,1", "iqn.a", 0, ⟨99, 512⟩, ⟨"10.0.0.2:3260", "", ""⟩⟩],
    by decide +kernel, rfl, List.cons_ne_nil _ _, ?_⟩
  · exact isOk_iff.1 (by decide +kernel)
  · rw [exported, if_pos ⟨by decide +kernel, rfl⟩]
    exact fun _ h => h

/-- A client whose computer cannot be created stays in the list, without a computer. -/
theorem not_complete_registers :
    ¬∀ (evidenceDirectory : File) (fs : Disk) (io : InsertIo) (l : List Call) (o : Observed),
      Transition.runs Observed.step (.new evidenceDirectory fs io) l = some o → o.AllComplete := by
  intro h
  have hnull := (h (File.ofPath "/var/raqet") emptyEvidence ⟨false, .ok⟩ [.register "10.0.0.2"
    ⟨"client", "hardware", [⟨"sda", 0⟩]⟩ ⟨readable, readable, .ok, readable, ⟨false, .fails⟩, .ok,
      discovers 0 ["iqn.a"]⟩] _ rfl).diskInformation (.new "client" "hardware" "10.0.0.2") []
    (fun _ => .ok) (by decide +kernel)
  exact absurd (congrArg Except.isOk hnull) (by decide +kernel)

end Raqet
