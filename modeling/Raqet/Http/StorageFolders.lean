import Raqet.Http.Binding

/-!
# Storage folders

The ids in the folder of a client's computer are what those of the client are read back as
(`OwnEntry`), which tells the folders of most clients apart. An entry without hardware is
taken for one that no client is bound to yet, and can be claimed by any hardware; but it may
be that of a client that has no hardware itself, which then shares its folder with the client
that claims it (`not_separateFolders`). An id that is `null` is read back as the empty one,
so a client can also find the entry of another as its own.

The clients in the list have separate folders in every state of a run without failing file
operations, if and only if no entry of another client is found or claimed (`ClaimsFree`):
this is `separateFolders_iff`.
-/

namespace Raqet

open Java FileSystem InvestigationCaseDB RaqetControl

/-- The folders of different clients lead to different directories. -/
def SeparateFolders (s : RaqetControl) : Prop :=
  ∀ c ∈ s.clientList, ∀ c' ∈ s.clientList, ∀ computer ∈ c.computerDbEntry,
    ∀ computer' ∈ c'.computerDbEntry, c.ids ≠ c'.ids →
      s.fs.locate computer.baseStorageFolder ≠ s.fs.locate computer'.baseStorageFolder

instance (s : RaqetControl) : Decidable (SeparateFolders s) :=
  inferInstanceAs (Decidable (∀ c ∈ _, ∀ c' ∈ _, ∀ computer ∈ _, ∀ computer' ∈ _, _ → _))

/-- The folder of the entry is not that of the client. -/
def Apart (s : RaqetControl) (c : ClientInfo) (found : ComputerDbEntry) : Prop :=
  ∀ computer ∈ c.computerDbEntry,
    s.fs.locate computer.baseStorageFolder ≠ s.fs.locate found.baseStorageFolder

/-- The call finds no entry in the folder of a client that has an id that is `null`, and claims
    no entry in the folder of another client without hardware. -/
def ClaimsFree (s : RaqetControl) : Call → Prop
  | .register ipAddress target env =>
    s.isNew (.ofRegister ipAddress target) = true →
    (∀ found, s.investigationCaseDB.findClient s.fs env.find target.clientid target.hardwareid =
        .ok (some found) →
      ∀ c ∈ s.clientList, c.clientId = none ∨ c.hardwareId = none → Apart s c found) ∧
    (s.investigationCaseDB.findClient s.fs env.find target.clientid target.hardwareid = .ok none →
      ∀ found, s.investigationCaseDB.findClient s.fs env.findAgain target.clientid "" =
          .ok (some found) →
        ∀ c ∈ s.clientList, c.ids ≠ (target.clientid, target.hardwareid) →
          readBack c.hardwareId = "" → Apart s c found)
  | _ => True

/-- The ids in this directory, to which the folder leads, are those of the client. -/
structure OwnEntry (fs : Disk) (c : ClientInfo) (folder : File) (dir : List String) : Prop where
  locate : fs.locate folder = some dir
  isDirectory : fs.isDirectoryAt dir = true
  ids : idsAt fs dir = some c.storedIds

/-- The ids in the folder of a client's computer are those of the client. -/
def OwnEntries (s : RaqetControl) : Prop :=
  ∀ c ∈ s.clientList, ∀ computer ∈ c.computerDbEntry,
    ∃ dir, OwnEntry s.fs c computer.baseStorageFolder dir

variable {s t : RaqetControl} {fs fs' : Disk} {c c' : ClientInfo} {folder : File}
  {dir : List String} {a : Call} {computer found : ComputerDbEntry} {env : AddClientEnv}

/-- Ids that are read back as these are these, or one of them is `null`. -/
theorem ids_of_storedIds {ids : String × String} (h : c.storedIds = ids) :
    c.ids = (some ids.1, some ids.2) ∨ c.clientId = none ∨ c.hardwareId = none := by
  rw [ClientInfo.storedIds] at h
  rw [ClientInfo.ids]
  subst h
  cases hclient : c.clientId with
  | none => exact .inr (.inl rfl)
  | some clientId =>
    cases hhardware : c.hardwareId with
    | none => exact .inr (.inr rfl)
    | some hardwareId => exact .inl rfl

theorem OwnEntry.later {P : List String → Node Content → Prop} (h : OwnEntry fs c folder dir)
    (hl : Later P fs fs') (hids : idsAt fs' dir = some c.storedIds) : OwnEntry fs' c folder dir :=
  ⟨hl.locate h.locate, hl.isDirectoryAt h.isDirectory, hids⟩

/-- The entry of a client, and another at the same place, have the same ids. -/
theorem OwnEntry.storedIds_eq (h : OwnEntry fs c folder dir) (hheld : HeldAt fs dir computer) :
    c.storedIds = computer.ids :=
  Option.some.inj (h.ids.symm.trans hheld.ids)

/-- A client whose entry is claimed has the ids of the client that claims it. -/
theorem ids_eq_of_claimed {ipAddress : String} {target : Register}
    (hfree : ClaimsFree s (.register ipAddress target env))
    (hisNew : s.isNew (.ofRegister ipAddress target) = true)
    (hfind : s.investigationCaseDB.findClient s.fs env.find target.clientid target.hardwareid =
      .ok none)
    (hagain : s.investigationCaseDB.findClient s.fs env.findAgain target.clientid "" =
      .ok (some found))
    (hheld : HeldAt s.fs dir found) (hc : c ∈ s.clientList)
    (hcomputer : c.computerDbEntry = some computer)
    (h : OwnEntry s.fs c computer.baseStorageFolder dir) :
    c.ids = (ClientInfo.ofRegister ipAddress target).ids := by
  by_contra hne
  have hhardware : found.hardwareId = "" := Option.some.inj (findClient_heldAt hagain).2.2
  exact (hfree hisNew).2 hfind found hagain c hc hne
    ((congrArg Prod.snd (h.storedIds_eq hheld)).trans hhardware) computer hcomputer
    (h.locate.trans hheld.locate.symm)

/-- A call keeps the ids in the folders of clients. -/
theorem ids_call (ha : a.Works) (hfree : ClaimsFree s a) (hc : c ∈ s.clientList)
    (hcomputer : c.computerDbEntry = some computer)
    (h : OwnEntry s.fs c computer.baseStorageFolder dir) :
    idsAt (s.call a).2.fs dir = some c.storedIds := by
  -- a new directory is not that of the client
  have hnew {d : List String} {ids : String × String} (hd : s.fs.isDirectoryAt d = false) :
      Function.update (idsAt s.fs) d (some ids) dir = some c.storedIds := by
    rw [Function.update_of_ne, h.ids]
    rintro rfl
    rw [h.isDirectory] at hd
    cases hd
  cases call_effect s ha with
  | nothing _ hids | unbound _ _ hids => rw [hids, h.ids]
  | created _ hd hids =>
    rw [hids]
    exact hnew hd
  | @bound _ _ _ _ _ _ _ _ d hisNew _ _ hbinding hids =>
    rw [hids]
    cases hbinding with
    | found => exact h.ids
    | created _ _ hcreated =>
      rw [hcreated.ids]
      exact hnew hcreated.new
    | claimed hfind hagain hheld hids' =>
      rw [hids']
      by_cases hd : dir = d
      swap
      · rw [Function.update_of_ne hd, h.ids]
      subst hd
      -- the entry is claimed by a client with the same ids
      have hsame := ids_eq_of_claimed hfree hisNew hfind hagain hheld hc hcomputer h
      rw [Function.update_self, ClientInfo.storedIds, ClientInfo.storedIds,
        show c.clientId = _ from congrArg Prod.fst hsame,
        show c.hardwareId = _ from congrArg Prod.snd hsame]
      rfl

/-- A client in the list has other folders than a new client with other ids. -/
theorem locate_ne_binding {ipAddress : String} {target : Register} {fs' : Disk}
    {dir' : List String} (hfree : ClaimsFree s (.register ipAddress target env))
    (hisNew : s.isNew (.ofRegister ipAddress target) = true)
    (hbinding : Binding s.investigationCaseDB s.fs (.ofRegister ipAddress target) env found fs'
      dir') (hc : c ∈ s.clientList) (hcomputer : c.computerDbEntry = some computer)
    (h : OwnEntry s.fs c computer.baseStorageFolder dir)
    (hne : c.ids ≠ (ClientInfo.ofRegister ipAddress target).ids) : dir ≠ dir' := by
  rintro rfl
  cases hbinding with
  | found hfind hheld =>
    have hmatches := (findClient_heldAt hfind).2
    rcases ids_of_storedIds (h.storedIds_eq hheld) with hids | hnull
    · exact hne (hids.trans (Prod.ext hmatches.1 hmatches.2))
    · exact (hfree hisNew).1 found hfind c hc hnull computer hcomputer
        (h.locate.trans hheld.locate.symm)
  | claimed hfind hagain hheld =>
    exact hne (ids_eq_of_claimed hfree hisNew hfind hagain hheld hc hcomputer h)
  | created _ _ hcreated =>
    have hdir := h.isDirectory
    rw [hcreated.new] at hdir
    cases hdir

theorem ownEntries_call (ha : a.Works) (hown : OwnEntries s) (hfree : ClaimsFree s a) :
    OwnEntries (s.call a).2 := by
  have hold : ∀ c ∈ s.clientList, ∀ computer ∈ c.computerDbEntry,
      ∃ dir, OwnEntry (s.call a).2.fs c computer.baseStorageFolder dir := by
    intro c hc computer hcomputer
    obtain ⟨dir, h⟩ := hown c hc computer hcomputer
    exact ⟨dir, h.later (call_later s _) (ids_call ha hfree hc hcomputer h)⟩
  cases call_effect s ha with
  | nothing hlist | created hlist =>
    rw [OwnEntries, hlist]
    exact hold
  | unbound hlist hnone =>
    rw [OwnEntries, hlist, List.forall_mem_append, List.forall_mem_singleton, hnone]
    exact ⟨hold, fun _ h => nomatch h⟩
  | @bound _ _ _ _ c' found computer fs' dir _ hsame hlist hbinding hids hc' _ hheld =>
    rw [OwnEntries, hlist, List.forall_mem_append, List.forall_mem_singleton]
    refine ⟨hold, fun computer' hcomputer' => ⟨dir, ?_⟩⟩
    obtain rfl := Option.some.inj (hc'.symm.trans hcomputer')
    refine ⟨hheld.locate, hheld.isDirectory, ?_⟩
    rw [hids, hbinding.held.1.ids, hbinding.held.2, hsame.storedIds]

/-- The folders of the clients in the list stay separate. -/
theorem SeparateFolders.later {P : List String → Node Content → Prop} (h : SeparateFolders s)
    (hown : OwnEntries s) (hl : Later P s.fs fs') :
    ∀ c ∈ s.clientList, ∀ c' ∈ s.clientList, ∀ computer ∈ c.computerDbEntry,
      ∀ computer' ∈ c'.computerDbEntry, c.ids ≠ c'.ids →
        fs'.locate computer.baseStorageFolder ≠ fs'.locate computer'.baseStorageFolder := by
  intro c hc c' hc' computer hcomputer computer' hcomputer' hne
  obtain ⟨dir, hdir⟩ := hown c hc computer hcomputer
  obtain ⟨dir', hdir'⟩ := hown c' hc' computer' hcomputer'
  have hne' := h c hc c' hc' computer hcomputer computer' hcomputer' hne
  rw [hdir.locate, hdir'.locate] at hne'
  rwa [hl.locate hdir.locate, hl.locate hdir'.locate]

theorem separateFolders_call (ha : a.Works) (hown : OwnEntries s) (h : SeparateFolders s)
    (hfree : ClaimsFree s a) : SeparateFolders (s.call a).2 := by
  have hold := h.later hown (call_later s a)
  have hlater := call_later s a
  cases call_effect s ha with
  | nothing hlist | created hlist =>
    rw [SeparateFolders, hlist]
    exact hold
  | @unbound _ _ _ _ c' hlist hnone =>
    -- a client that is bound was in the list before
    have hmem {c : ClientInfo} {computer : ComputerDbEntry} (hc : c ∈ s.clientList ++ [c'])
        (hcomputer : computer ∈ c.computerDbEntry) : c ∈ s.clientList := by
      refine (List.mem_append.1 hc).resolve_right fun hc => ?_
      rw [List.mem_singleton.1 hc, hnone] at hcomputer
      cases hcomputer
    rw [SeparateFolders, hlist]
    exact fun c hc c'' hc'' computer hcomputer computer' hcomputer' =>
      hold c (hmem hc hcomputer) c'' (hmem hc'' hcomputer') computer hcomputer computer' hcomputer'
  | @bound ipAddress target env _ c' found computer fs' dir' hisNew hsame hlist hbinding hids hc'
      _ hheld =>
    -- the folder of a client in the list is not that of the new one
    have hnew : ∀ c ∈ s.clientList, ∀ computer ∈ c.computerDbEntry,
        ∀ computer' ∈ c'.computerDbEntry, c.ids ≠ c'.ids →
          (s.call (.register ipAddress target env)).2.fs.locate computer.baseStorageFolder ≠
            (s.call (.register ipAddress target env)).2.fs.locate computer'.baseStorageFolder := by
      intro c hc computer₁ hcomputer₁ computer₂ hcomputer₂ hne
      obtain rfl := Option.some.inj (hc'.symm.trans hcomputer₂)
      obtain ⟨dir, hdir⟩ := hown c hc computer₁ hcomputer₁
      rw [hsame.ids] at hne
      rw [hlater.locate hdir.locate, hheld.locate, Ne, Option.some.injEq]
      exact locate_ne_binding hfree hisNew hbinding hc hcomputer₁ hdir hne
    rw [SeparateFolders, hlist]
    simp only [List.forall_mem_append, List.forall_mem_singleton]
    refine ⟨fun c hc => ⟨hold c hc, hnew c hc⟩, fun c hc computer₁ hcomputer₁ computer₂ hcomputer₂
      hne => (hnew c hc computer₂ hcomputer₂ computer₁ hcomputer₁ hne.symm).symm, ?_⟩
    exact fun _ _ _ _ hne => absurd rfl hne

/-- This entry is found for a client, or claimed by it. -/
def Takes (s : RaqetControl) (target : ClientInfo) (env : AddClientEnv)
    (found : ComputerDbEntry) : Prop :=
  s.investigationCaseDB.findClient s.fs env.find target.clientId target.hardwareId =
      .ok (some found) ∨
    s.investigationCaseDB.findClient s.fs env.find target.clientId target.hardwareId = .ok none ∧
      s.investigationCaseDB.findClient s.fs env.findAgain target.clientId "" = .ok (some found)

/-- A client is bound to the entry that it takes. -/
theorem addNewClient_takes (target : ClientInfo) (htarget : target.computerDbEntry = none)
    (henv : env.Works) (htakes : Takes s target env found) :
    ∃ c' computer, (s.addNewClient target env).2.clientList = s.clientList ++ [c'] ∧
      SameClient target c' ∧ c'.computerDbEntry = some computer ∧
      computer.baseStorageFolder = found.baseStorageFolder := by
  obtain ⟨c', hsame, hlist, ⟨hno, -⟩ | ⟨bound, fs', dir, computer, hbinding, -, hc', hfolder, -⟩⟩ :=
    addNewClient_binding s target htarget henv
  -- the client is bound to no entry: this cannot be
  · rcases htakes with hfind | ⟨hfind, hagain⟩
    · refine absurd ?_ (hno found)
      rw [lookupComputer, hfind]
    · obtain ⟨dir, hheld⟩ := (findClient_heldAt hagain).1
      obtain ⟨fs', hupdate, -⟩ := hheld.update
        { found with hardwareId := readBack target.hardwareId } rfl
      refine absurd ?_ (hno { found with hardwareId := readBack target.hardwareId })
      rw [lookupComputer, hfind]
      dsimp only
      rw [hagain]
      dsimp only
      rw [henv.update, hupdate]
  · refine ⟨c', computer, hlist, hsame, hc', hfolder.trans ?_⟩
    cases hbinding with
    | found hfind' =>
      rcases htakes with hfind | ⟨hfind, -⟩
      · rw [hfind, Except.ok.injEq, Option.some.injEq] at hfind'
        rw [hfind']
      · rw [hfind] at hfind'
        cases hfind'
    | claimed hfind' hagain' =>
      rcases htakes with hfind | ⟨-, hagain⟩
      · rw [hfind] at hfind'
        cases hfind'
      · rw [hagain, Except.ok.injEq, Option.some.injEq] at hagain'
        rw [hagain']
    | created hfind' hagain' =>
      rcases htakes with hfind | ⟨-, hagain⟩
      · rw [hfind] at hfind'
        cases hfind'
      · rw [hagain] at hagain'
        cases hagain'

theorem claimsFree_of_separateFolders (ha : a.Works) (h : SeparateFolders (s.call a).2)
    (hown : OwnEntries s) : ClaimsFree s a := by
  have hlater := call_later s a
  cases a with
  | register ipAddress target env =>
    intro hisNew
    have hcall : (s.call (.register ipAddress target env)).2 =
        (s.addNewClient (.ofRegister ipAddress target) env).2 :=
      congrArg Prod.snd (addClient_of_isNew env hisNew)
    -- a client with other ids than the new one has another folder
    have hapart (found : ComputerDbEntry)
        (htakes : Takes s (.ofRegister ipAddress target) env found)
        (c : ClientInfo) (hc : c ∈ s.clientList)
        (hne : c.ids ≠ (ClientInfo.ofRegister ipAddress target).ids) : Apart s c found := by
      intro computer hcomputer he
      obtain ⟨c', computer', hlist, hsame, hc', hfolder⟩ :=
        addNewClient_takes (.ofRegister ipAddress target) rfl ha htakes
      obtain ⟨dir, howned⟩ := hown c hc computer hcomputer
      rw [← hcall] at hlist
      refine h c ?_ c' ?_ computer hcomputer computer' hc' (hsame.ids ▸ hne) ?_
      · rw [hlist]
        exact List.mem_append_left _ hc
      · rw [hlist]
        exact List.mem_append_right _ (List.mem_singleton_self _)
      · rw [hfolder, hlater.locate howned.locate, hlater.locate (he ▸ howned.locate)]
    refine ⟨fun found hfind c hc hnull => hapart found (.inl hfind) c hc fun hids => ?_,
      fun hfind found hagain c hc hne _ => hapart found (.inr ⟨hfind, hagain⟩) c hc hne⟩
    -- the ids of an entry are not `null`
    obtain ⟨hclient, hhardware⟩ := (findClient_heldAt hfind).2
    rcases hnull with hnull | hnull
    · rw [← show c.clientId = target.clientid from congrArg Prod.fst hids, hnull] at hclient
      cases hclient
    · rw [← show c.hardwareId = target.hardwareid from congrArg Prod.snd hids, hnull] at hhardware
      cases hhardware
  | diskinfo | addDevice | createInvestigationCase | createComputer => trivial

/-- In a run without failing file operations, the folders of different clients are separate
    in every state if and only if no call finds or claims an entry of another client. -/
theorem separateFolders_iff {evidenceDirectory : File} {io : InsertIo} {l : List Call}
    (h : Transition.runs step (.new evidenceDirectory fs io) l = some t) (hl : ∀ a ∈ l, a.Works) :
    Transition.Throughout step SeparateFolders (.new evidenceDirectory fs io) l ↔
      Transition.AllSteps step ClaimsFree (.new evidenceDirectory fs io) l := by
  refine Transition.throughout_iff_of (R := fun _ a => a.Works)
    (I := fun s => OwnEntries s ∧ SeparateFolders s) (fun s hs => hs.2) ?_ ?_ h
    (.of_forall fun _ => hl) ⟨List.forall_mem_nil _, List.forall_mem_nil _⟩
  all_goals
    rintro s a t ha ⟨hown, hs⟩ hstep
    cases hstep
  · exact fun hfree => ⟨ownEntries_call ha hown hfree, separateFolders_call ha hown hs hfree⟩
  · exact fun hseparate => claimsFree_of_separateFolders ha hseparate hown

theorem leadsTo_emptyEvidence :
    LeadsTo emptyEvidence (File.ofPath "/var/raqet") ["var", "raqet"] :=
  ⟨by decide +kernel, by decide +kernel, by decide +kernel⟩

/-- Nothing is in the empty evidence directory. -/
theorem node_emptyEvidence {names : List String} (hnames : names ≠ []) :
    emptyEvidence.node (["var", "raqet"] ++ names) = none := by
  obtain ⟨name, names, rfl⟩ := List.exists_cons_of_ne_nil hnames
  rw [node, if_neg (by simp), emptyEvidence, AList.lookup_insert_ne (by simp),
    AList.lookup_insert_ne (by simp), AList.lookup_empty]

/-- A client with these ids registers, and no devices are discovered. -/
def registersIds (clientid hardwareid : Option String) : Call :=
  .register "10.0.0.2" ⟨clientid, hardwareid, []⟩
    ⟨readable, readable, .ok, readable, ⟨false, .ok⟩, .ok, discovers 0 []⟩

theorem works_readable : readable.Works := ⟨fun _ => Option.some_ne_none _, fun _ => rfl⟩

theorem works_registersIds (clientid hardwareid : Option String) :
    (registersIds clientid hardwareid).Works :=
  ⟨works_readable, works_readable, rfl, works_readable, ⟨rfl, rfl⟩, rfl, fun _ => rfl⟩

/-- A client with this hardware. -/
def registersWith (hardwareid : String) : Call := registersIds "client" hardwareid

/-- Two clients with different hardware. -/
theorem separateFolders_hardware : Transition.Throughout step SeparateFolders
    (.new (File.ofPath "/var/raqet") emptyEvidence ⟨false, .ok⟩)
    [registersWith "one", registersWith "two"] := by
  refine (separateFolders_iff (t := serverAfter [registersWith "one", registersWith "two"]) rfl
    ?_).2 ?_
  · simp [registersWith, works_registersIds]
  · have hids : ∀ c ∈ (serverAfter [registersWith "one"]).clientList,
        c.ids = (some "client", some "one") := by
      decide +kernel
    refine ⟨fun _ => ⟨fun _ _ c hc => absurd hc List.not_mem_nil,
      fun _ _ _ c hc => absurd hc List.not_mem_nil⟩, ?_⟩
    intro t ht
    have hone : serverAfter [registersWith "one"] = t := Option.some.inj ht
    rw [hone] at hids
    refine ⟨fun _ => ⟨fun _ _ c hc hnull => ?_, fun _ _ _ c hc _ hhardware => ?_⟩,
      fun _ _ => trivial⟩
    · rcases hnull with hnull | hnull
      · cases hnull.symm.trans (congrArg Prod.fst (hids c hc))
      · cases hnull.symm.trans (congrArg Prod.snd (hids c hc))
    · rw [show c.hardwareId = _ from congrArg Prod.snd (hids c hc)] at hhardware
      exact absurd hhardware (by decide +kernel)

/-- The entry of a client without hardware is claimed by one with hardware. -/
theorem not_separateFolders :
    ¬∀ (evidenceDirectory : File) (fs : Disk) (io : InsertIo) (l : List Call) (t : RaqetControl),
      (∀ a ∈ l, a.Works) → Transition.runs step (.new evidenceDirectory fs io) l = some t →
        SeparateFolders t := by
  intro h
  have hseparate := h (File.ofPath "/var/raqet") emptyEvidence ⟨false, .ok⟩
    [registersWith "", registersWith "one"] (serverAfter [registersWith "", registersWith "one"])
    (by simp [registersWith, works_registersIds]) rfl
  revert hseparate
  decide +kernel

end Raqet
