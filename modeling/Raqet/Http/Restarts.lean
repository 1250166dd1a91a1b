import Raqet.Database.UniqueIds
import Raqet.Http.StorageFolders
import Raqet.Http.Writes

/-!
# Restarts

The server can be started again on the same evidence directory (`Operation.restart`): then only
the file system is kept. A client with hardware has at most one entry there, which keeps its
ids once the client was bound to it, and to which the client is bound from then on
(`Kept`): this is `keeps_folder`.

There is an exception: a client that has no id gets an entry that is read back with an empty
one. The client with the empty id then has two entries, and is bound to the one that is listed
first (`not_keeps_folder`), unless no such entry is made while there is one (`NoTwin`).
-/

namespace Raqet

open Java FileSystem InvestigationCaseDB RaqetControl

/-- A call, or a restart of the server. -/
inductive Operation
  | call (c : Call)
  | restart (io : InsertIo)

/-- No file operation fails. -/
def Operation.Works : Operation → Prop
  | .call c => c.Works
  | .restart io => io.Works

/-- A step of the server: it takes any call, and can be restarted. -/
def RaqetControl.act (s : RaqetControl) : Operation → Option RaqetControl
  | .call c => some (s.call c).2
  | .restart io => some (.new s.investigationCaseDB.baseDbPath s.fs io)

/-- The evidence directory, where a client has at most one entry. -/
structure Tidy (base : File) (b : List String) (ids : String × String) (fs : Disk) : Prop where
  leadsTo : LeadsTo fs base b
  uniqueIds : UniqueIds fs b ids
  defaultCase : DefaultCase b fs

/-- The call makes no folder for a client without an id while there is an entry with the empty id
    and the same hardware, if these are the ids. -/
def NoTwin (ids : String × String) (s : RaqetControl) : Operation → Prop
  | .call (.register ipAddress target env) =>
    ids.1 = "" → target.clientid = none → target.hardwareid = some ids.2 →
      s.isNew (.ofRegister ipAddress target) = true →
      (s.creating (.ofRegister ipAddress target) env).isSome →
        s.investigationCaseDB.findClient s.fs env.find ids.1 ids.2 = .ok none
  | _ => True

/-- The entry in the folder has the ids, and the clients in the list that have them are bound to
    it. -/
structure KeepsFolder (ids : String × String) (folder : File) (s : RaqetControl) : Prop where
  entry : ∃ content fields, s.fs.read (folder.child computerEntryName) = some (.file content) ∧
    content.computer = some fields ∧ fields.ids = ids
  bound : ∀ c ∈ s.clientList, c.ids = (some ids.1, some ids.2) → ∀ computer ∈ c.computerDbEntry,
    computer.baseStorageFolder = folder

/-- The client is bound to the computer in this directory, which has its ids. -/
structure BoundIn (base : File) (b : List String) (ids : String × String) (fs : Disk)
    (computer : ComputerDbEntry) (caseName computerName : String) : Prop where
  folder : computer.baseStorageFolder = (base.child caseName).child computerName
  ids : idsAt fs (b ++ [caseName] ++ [computerName]) = some ids

/-- The evidence directory is tidy, and clients with the ids are bound to the entry there. -/
structure Kept (base : File) (b : List String) (ids : String × String) (s : RaqetControl) :
    Prop where
  db : s.investigationCaseDB.baseDbPath = base
  tidy : Tidy base b ids s.fs
  bound : ∀ c ∈ s.clientList, c.ids = (some ids.1, some ids.2) → ∀ computer ∈ c.computerDbEntry,
    ∃ caseName computerName, BoundIn base b ids s.fs computer caseName computerName

variable {s t : RaqetControl} {fs fs' : Disk} {base : File} {b dir : List String}
  {clientid hardwareid : String} {target : ClientInfo} {env : AddClientEnv}
  {found : ComputerDbEntry} {a : Operation} {caseName computerName : String}

/-- An empty evidence directory is tidy. -/
theorem tidy_of_empty {ids : String × String} (h : LeadsTo fs base b)
    (hempty : ∀ names, names ≠ [] → fs.node (b ++ names) = none) : Tidy base b ids fs :=
  have ⟨huniq, hdefault⟩ := uniqueIds_of_empty ids hempty
  ⟨h, huniq, hdefault⟩

/-! ## Bindings -/

/-- Ids that are written over those without hardware, or in a directory that was not there,
    leave the others. -/
theorem update_eq_some {ids ids' : String × String} (huniq : UniqueIds fs b ids)
    (hold : fs.isDirectoryAt dir = false ∨ ∃ clientid, idsAt fs dir = some (clientid, ""))
    (hhardware : ids.2 ≠ "")
    (h : idsAt fs (b ++ [caseName] ++ [computerName]) = some ids) :
    Function.update (idsAt fs) dir (some ids') (b ++ [caseName] ++ [computerName]) = some ids := by
  rw [Function.update_of_ne, h]
  rintro rfl
  rcases hold with hnew | ⟨clientid, hids⟩
  · rw [(huniq.listed _ _ h).computerDirectory] at hnew
    cases hnew
  · rw [h, Option.some.injEq] at hids
    exact hhardware (congrArg Prod.snd hids)

/-- What a client with other ids is bound to does not matter. -/
theorem of_update_eq_some {ids ids' : String × String} (hne : ids' ≠ ids) {dir' : List String}
    (h : Function.update (idsAt fs) dir (some ids') dir' = some ids) :
    idsAt fs dir' = some ids := by
  by_cases hdir : dir' = dir
  · rw [hdir, Function.update_self, Option.some.injEq] at h
    exact absurd h hne
  · rwa [Function.update_of_ne hdir] at h

variable {ids : String × String} {computer : ComputerDbEntry}
  {P : List String → Node Content → Prop}
  {db : InvestigationCaseDB}

/-- A binding changes no ids, or writes those of the client, which no entry had that was
    found, over ids without hardware or in a directory that was not there. -/
theorem Binding.idsAt_cases (h : Binding db fs target env found fs' dir) :
    idsAt fs' = idsAt fs ∨
      idsAt fs' = Function.update (idsAt fs) dir (some target.storedIds) ∧
        db.findClient fs env.find target.clientId target.hardwareId = .ok none ∧
        (fs.isDirectoryAt dir = false ∨ ∃ clientid, idsAt fs dir = some (clientid, "")) := by
  cases h with
  | found => exact .inl rfl
  | claimed hfind hagain hheld hids =>
    have hhardware := Option.some.inj (findClient_heldAt hagain).2.2
    exact .inr ⟨hids, hfind, .inr ⟨_, hheld.ids.trans (congrArg some (Prod.ext rfl hhardware))⟩⟩
  | created hfind _ hcreated =>
    refine .inr ⟨?_, hfind, .inl hcreated.new⟩
    rw [hcreated.ids]
    rfl

/-- A client without slashes in its ids is bound to a computer that is listed. -/
theorem Binding.listed (h : Binding db fs target env found fs' dir)
    (htidy : Tidy db.baseDbPath b ids fs) (hl : Later P fs t.fs) (hheld : HeldAt t.fs dir computer)
    (hfolder : computer.baseStorageFolder = found.baseStorageFolder)
    (hid : '/' ∉ (valueOf target.clientId).toList)
    (hhardware : '/' ∉ (valueOf target.hardwareId).toList) :
    ∃ caseName computerName, Listed t.fs b caseName computerName ∧
      found.baseStorageFolder = (db.baseDbPath.child caseName).child computerName ∧
      dir = b ++ [caseName] ++ [computerName] := by
  have hlead := htidy.leadsTo.later hl
  have hlocate := hheld.locate
  rw [hfolder] at hlocate
  -- an entry that was found was listed, and still is
  have hsearched {clientid hardwareId : Option String} {env : ReadEnv} {found' : ComputerDbEntry}
      (hfind : db.findClient fs env clientid hardwareId = .ok (some found'))
      (hsame : found'.baseStorageFolder = found.baseStorageFolder) :
      ∃ caseName computerName, Listed t.fs b caseName computerName ∧
        found.baseStorageFolder = (db.baseDbPath.child caseName).child computerName ∧
        dir = b ++ [caseName] ++ [computerName] := by
    obtain ⟨caseName, computerName, hlisted, hfolder'⟩ := findClient_listed htidy.leadsTo hfind
    rw [hsame] at hfolder'
    have hlisted' := hlisted.later hl
    refine ⟨caseName, computerName, hlisted', hfolder', ?_⟩
    rw [hfolder', (hlead.computerFolder hlisted').locate] at hlocate
    exact (Option.some.inj hlocate).symm
  cases h with
  | found hfind => exact hsearched hfind rfl
  | claimed _ hagain => exact hsearched hagain rfl
  | created _ _ hcreated =>
    obtain ⟨entry, hget, hfolder', -⟩ := newFolder_eq_some hcreated.folder
    obtain ⟨hname, hcase, hentry⟩ := getCase_default htidy.leadsTo htidy.defaultCase hget
    rw [hname] at hfolder'
    have hisName := isName_defaultComputer _ hid hhardware
    have hcase' := hl.isDirectoryAt hcase
    have hdir : dir = b ++ ["defaultcase"] ++ [(defaultComputer target).urlcomputerName] := by
      rw [hfolder', (hlead.child isName_defaultcase hcase').locate_child hisName] at hlocate
      exact (Option.some.inj hlocate).symm
    refine ⟨_, _, ⟨isName_defaultcase, hisName, hcase', ?_, hdir ▸ hheld.isDirectory⟩,
      hfolder', hdir⟩
    exact hl.node (R := fun n => n.isSome) hentry fun _ _ => rfl

/-- What an id is appended as has no slash if what it is read back as has none. -/
theorem slash_notMem_valueOf {id : Option String} (h : '/' ∉ (readBack id).toList) :
    '/' ∉ (valueOf id).toList := by
  cases id with
  | none => exact by decide +kernel
  | some id => exact h

/-- If the ids of a client are read back as these, no entry had them when it was bound to
    another than one that was found. -/
theorem Binding.find_eq_none {ipAddress : String} {target : Register}
    (h : Binding s.investigationCaseDB s.fs (.ofRegister ipAddress target) env found fs' dir)
    (hisNew : s.isNew (.ofRegister ipAddress target) = true)
    (htwin : NoTwin ids s (.call (.register ipAddress target env)))
    (hids : (ClientInfo.ofRegister ipAddress target).storedIds = ids) (hhardware : ids.2 ≠ "")
    (hfind : s.investigationCaseDB.findClient s.fs env.find target.clientid target.hardwareid =
      .ok none) :
    s.investigationCaseDB.findClient s.fs env.find ids.1 ids.2 = .ok none := by
  rcases ids_of_storedIds hids with hboth | hnull
  · rwa [show target.clientid = _ from congrArg Prod.fst hboth,
      show target.hardwareid = _ from congrArg Prod.snd hboth] at hfind
  subst hids
  -- there is a hardware id, as it is not read back as the empty one
  have hsome : target.hardwareid = some (readBack target.hardwareid) := by
    cases hid : target.hardwareid with
    | none => exact absurd (congrArg readBack hid) hhardware
    | some hardwareid => rfl
  have hnone : target.clientid = none := by
    refine hnull.resolve_right fun h => ?_
    rw [show target.hardwareid = none from h] at hsome
    cases hsome
  have hempty : readBack target.clientid = "" := by
    rw [hnone]
    rfl
  cases h with
  | found hfind' =>
    cases hfind.symm.trans hfind'
  | claimed _ hagain =>
    -- no entry has an id that is `null`
    have hclient := (findClient_heldAt hagain).2.1
    rw [show (ClientInfo.ofRegister ipAddress target).clientId = none from hnone] at hclient
    cases hclient
  | created hfind' hagain hcreated =>
    refine htwin hempty hnone hsome hisNew ?_
    rw [creating, hfind', hagain, hcreated.folder]
    rfl

/-- A binding keeps the entry of the ids unique, and where it is. A client with the ids is
    bound to it. -/
theorem Binding.kept {ipAddress : String} {target : Register}
    (h : Binding s.investigationCaseDB s.fs (.ofRegister ipAddress target) env found fs' dir)
    (henv : env.Works) (hisNew : s.isNew (.ofRegister ipAddress target) = true)
    (htwin : NoTwin ids s (.call (.register ipAddress target env)))
    (htidy : Tidy s.investigationCaseDB.baseDbPath b ids s.fs) (hl : Later P s.fs t.fs)
    (hids : idsAt t.fs = idsAt fs') (hheld : HeldAt t.fs dir computer)
    (hfolder : computer.baseStorageFolder = found.baseStorageFolder)
    (hhardware : ids.2 ≠ "") (hslash : '/' ∉ ids.1.toList ∧ '/' ∉ ids.2.toList) :
    UniqueIds t.fs b ids ∧
    (∀ caseName computerName, idsAt s.fs (b ++ [caseName] ++ [computerName]) = some ids →
      idsAt t.fs (b ++ [caseName] ++ [computerName]) = some ids) ∧
    ((ClientInfo.ofRegister ipAddress target).storedIds = ids → ∃ caseName computerName,
      BoundIn s.investigationCaseDB.baseDbPath b ids t.fs computer caseName computerName) := by
  have hbound (he : (ClientInfo.ofRegister ipAddress target).storedIds = ids) :
      ∃ caseName computerName,
      Listed t.fs b caseName computerName ∧ dir = b ++ [caseName] ++ [computerName] ∧
      BoundIn s.investigationCaseDB.baseDbPath b ids t.fs computer caseName computerName := by
    subst he
    obtain ⟨caseName, computerName, hlisted, hfound, rfl⟩ := h.listed htidy hl hheld hfolder
      (slash_notMem_valueOf hslash.1) (slash_notMem_valueOf hslash.2)
    refine ⟨caseName, computerName, hlisted, rfl, hfolder.trans hfound, ?_⟩
    rw [hids, h.held.1.ids, h.held.2]
  have hbound' (he : (ClientInfo.ofRegister ipAddress target).storedIds = ids) :
      ∃ caseName computerName,
      BoundIn s.investigationCaseDB.baseDbPath b ids t.fs computer caseName computerName := by
    obtain ⟨caseName, computerName, -, -, hin⟩ := hbound he
    exact ⟨caseName, computerName, hin⟩
  rcases h.idsAt_cases with hsame | ⟨hupdate, hfind, hold⟩
  · rw [← hids] at hsame
    exact ⟨htidy.uniqueIds.later hl fun dir' hdir' => hsame ▸ hdir',
      fun _ _ h' => hsame ▸ h', hbound'⟩
  rw [← hids] at hupdate
  by_cases he : (ClientInfo.ofRegister ipAddress target).storedIds = ids
  · -- no entry had the ids
    have hnone := findClient_complete htidy.leadsTo henv.find htidy.uniqueIds
      (h.find_eq_none hisNew htwin he hhardware hfind)
    obtain ⟨caseName, computerName, hlisted, hdir, -⟩ := hbound he
    refine ⟨.single hlisted ?_, fun _ _ h' => absurd h' (hnone _ _), hbound'⟩
    rintro dir' hdir' ⟨caseName', computerName', hform⟩
    by_contra hne
    rw [hupdate, Function.update_of_ne (hdir ▸ hne), hform] at hdir'
    exact hnone _ _ hdir'
  · refine ⟨htidy.uniqueIds.later hl fun dir' hdir' => of_update_eq_some he (hupdate ▸ hdir'),
      fun _ _ h' => ?_, hbound'⟩
    rw [hupdate]
    exact update_eq_some htidy.uniqueIds hold hhardware h'

/-! ## Steps -/

theorem BoundIn.later {fs'' : Disk} (h : BoundIn base b ids fs computer caseName computerName)
    (hids : ∀ caseName computerName, idsAt fs (b ++ [caseName] ++ [computerName]) = some ids →
      idsAt fs'' (b ++ [caseName] ++ [computerName]) = some ids) :
    BoundIn base b ids fs'' computer caseName computerName := ⟨h.folder, hids _ _ h.ids⟩

/-- What remains for a call to show is that the entry is unique and kept, and what a client that
    is added is bound to. -/
theorem Kept.after_call (h : Kept base b ids s) (a : Call) (huniq : UniqueIds (s.call a).2.fs b ids)
    (hkeep : ∀ caseName computerName, idsAt s.fs (b ++ [caseName] ++ [computerName]) = some ids →
      idsAt (s.call a).2.fs (b ++ [caseName] ++ [computerName]) = some ids)
    (hlist : (s.call a).2.clientList = s.clientList ∨
      ∃ c', (s.call a).2.clientList = s.clientList ++ [c'] ∧
        (c'.ids = (some ids.1, some ids.2) → ∀ computer ∈ c'.computerDbEntry,
          ∃ caseName computerName, BoundIn base b ids (s.call a).2.fs computer caseName
            computerName)) :
    Kept base b ids (s.call a).2 := by
  obtain ⟨rfl, htidy, hbound⟩ := h
  have hdb : (s.call a).2.investigationCaseDB.baseDbPath = s.investigationCaseDB.baseDbPath := by
    rw [investigationCaseDB_call]
  have hdefault := defaultCase_call a htidy.leadsTo htidy.defaultCase
  refine ⟨hdb, ⟨htidy.leadsTo.later (call_later s a), huniq, hdefault⟩, ?_⟩
  have hold : ∀ c ∈ s.clientList, c.ids = (some ids.1, some ids.2) →
      ∀ computer ∈ c.computerDbEntry, ∃ caseName computerName,
        BoundIn s.investigationCaseDB.baseDbPath b ids (s.call a).2.fs computer caseName
          computerName := by
    intro c hc hids computer hcomputer
    obtain ⟨caseName, computerName, hin⟩ := hbound c hc hids computer hcomputer
    exact ⟨caseName, computerName, hin.later hkeep⟩
  rcases hlist with hlist | ⟨c', hlist, hc'⟩
  · rw [hlist]
    exact hold
  · rw [hlist, List.forall_mem_append, List.forall_mem_singleton]
    exact ⟨hold, hc'⟩

/-- A call keeps the entry of the ids. -/
theorem kept_call {a : Call} (ha : a.Works) (htwin : NoTwin ids s (.call a))
    (h : Kept base b ids s) (hhardware : ids.2 ≠ "")
    (hslash : '/' ∉ ids.1.toList ∧ '/' ∉ ids.2.toList) :
    Kept base b ids (s.call a).2 ∧
      ∀ caseName computerName, idsAt s.fs (b ++ [caseName] ++ [computerName]) = some ids →
        idsAt (s.call a).2.fs (b ++ [caseName] ++ [computerName]) = some ids := by
  have hl := call_later s a
  have huniq := h.tidy.uniqueIds
  cases call_effect s ha with
  | nothing hlist hids =>
    have hkeep := fun caseName computerName
        (h' : idsAt s.fs (b ++ [caseName] ++ [computerName]) = some ids) =>
      (congrFun hids _).trans h'
    exact ⟨h.after_call _ (huniq.later hl fun dir' h' => hids ▸ h') hkeep (.inl hlist), hkeep⟩
  | created hlist hnew hids =>
    have hkeep := fun caseName computerName
        (h' : idsAt s.fs (b ++ [caseName] ++ [computerName]) = some ids) =>
      (congrFun hids _).trans (update_eq_some huniq (.inl hnew) hhardware h')
    refine ⟨h.after_call _ (huniq.later hl fun dir' h' => ?_) hkeep (.inl hlist), hkeep⟩
    rw [hids] at h'
    -- the entry that is created has no hardware, so it is not one of the client
    exact of_update_eq_some (fun he => hhardware (congrArg Prod.snd he).symm) h'
  | @unbound _ _ _ _ c' hlist hnone hids =>
    have hkeep := fun caseName computerName
        (h' : idsAt s.fs (b ++ [caseName] ++ [computerName]) = some ids) =>
      (congrFun hids _).trans h'
    refine ⟨h.after_call _ (huniq.later hl fun dir' h' => hids ▸ h') hkeep
      (.inr ⟨c', hlist, fun _ computer hcomputer => ?_⟩), hkeep⟩
    rw [hnone] at hcomputer
    cases hcomputer
  | @bound _ _ _ _ c' found computer fs' dir hisNew hsame hlist hbinding hids hc' hfolder hheld =>
    obtain rfl := h.db
    obtain ⟨huniq', hkeep, hin⟩ :=
      hbinding.kept ha hisNew htwin h.tidy hl hids hheld hfolder hhardware hslash
    refine ⟨h.after_call _ huniq' hkeep
      (.inr ⟨c', hlist, fun he computer' hcomputer' => ?_⟩), hkeep⟩
    obtain rfl := Option.some.inj (hc'.symm.trans hcomputer')
    refine hin ?_
    rw [← hsame.storedIds, ClientInfo.storedIds, show c'.clientId = _ from congrArg Prod.fst he,
      show c'.hardwareId = _ from congrArg Prod.snd he]
    rfl

/-- So does a restart, which leaves no client. -/
theorem kept_restart {io : InsertIo} (hio : io.Works) (h : Tidy base b ids fs)
    (hhardware : ids.2 ≠ "") (hslash : '/' ∉ ids.1.toList ∧ '/' ∉ ids.2.toList) :
    Kept base b ids (.new base fs io) ∧
      ∀ caseName computerName, idsAt fs (b ++ [caseName] ++ [computerName]) = some ids →
        idsAt (RaqetControl.new base fs io).fs (b ++ [caseName] ++ [computerName]) = some ids :=
  kept_call (s := ⟨⟨base⟩, fs, [], []⟩)
    (a := .createInvestigationCase (.new "defaultcase" "defaultcase") io) hio trivial
    ⟨rfl, h, List.forall_mem_nil _⟩ hhardware hslash

/-- A step keeps the entry of the ids. -/
theorem kept_act (ha : a.Works ∧ NoTwin ids s a) (hstep : s.act a = some t)
    (h : Kept base b ids s) (hhardware : ids.2 ≠ "")
    (hslash : '/' ∉ ids.1.toList ∧ '/' ∉ ids.2.toList) :
    Kept base b ids t ∧
      ∀ caseName computerName, idsAt s.fs (b ++ [caseName] ++ [computerName]) = some ids →
        idsAt t.fs (b ++ [caseName] ++ [computerName]) = some ids := by
  cases a with
  | call c =>
    cases hstep
    exact kept_call ha.1 ha.2 h hhardware hslash
  | restart io =>
    cases hstep
    obtain ⟨rfl, htidy, -⟩ := h
    exact kept_restart ha.1 htidy hhardware hslash

/-! ## Runs -/

/-- In a run without failing file operations, on an evidence directory that was tidy at
    first, that makes no second entry for a client with hardware: once the client was bound to
    a computer, the entry in its folder keeps the ids of the client, and every client with
    these ids is bound to this folder from then on, also after restarts. -/
theorem keeps_folder {io : InsertIo} {l l' : List Operation} (hio : io.Works)
    (hl : ∀ a ∈ l, a.Works) (hl' : ∀ a ∈ l', a.Works) (hhardware : ids.2 ≠ "")
    (hslash : '/' ∉ ids.1.toList ∧ '/' ∉ ids.2.toList) (htidy : Tidy base b ids fs)
    (h : Transition.runs act (.new base fs io) l = some s)
    (h' : Transition.runs act s l' = some t)
    (htwin : Transition.AllSteps act (NoTwin ids) (.new base fs io) l)
    (htwin' : Transition.AllSteps act (NoTwin ids) s l') {c : ClientInfo} (hc : c ∈ s.clientList)
    (hids : c.ids = (some ids.1, some ids.2)) {computer : ComputerDbEntry}
    (hcomputer : c.computerDbEntry = some computer) :
    KeepsFolder ids computer.baseStorageFolder t := by
  have hkept : Kept base b ids s :=
    Transition.runs_invariant (P := fun s a => Operation.Works a ∧ NoTwin ids s a)
      (fun s a t ha hs hstep => (kept_act ha hstep hs hhardware hslash).1) h
      ((Transition.AllSteps.of_forall fun _ => hl).and htwin)
      (kept_restart hio htidy hhardware hslash).1
  obtain ⟨caseName, computerName, hin⟩ := hkept.bound c hc hids computer hcomputer
  obtain ⟨hkept', hin'⟩ : Kept base b ids t ∧
      BoundIn base b ids t.fs computer caseName computerName := by
    refine Transition.runs_invariant (P := fun s a => Operation.Works a ∧ NoTwin ids s a)
      (I := fun t => Kept base b ids t ∧ BoundIn base b ids t.fs computer caseName computerName)
      ?_ h' ((Transition.AllSteps.of_forall fun _ => hl').and htwin') ⟨hkept, hin⟩
    rintro s a t ha ⟨hs, hin⟩ hstep
    obtain ⟨ht, hkeep⟩ := kept_act ha hstep hs hhardware hslash
    exact ⟨ht, hin.later hkeep⟩
  -- the ids are those of the entry, and no other entry has them
  constructor
  · obtain ⟨content, fields, hnode, hcontent, hfields⟩ := idsAt_eq_some.1 hin'.ids
    have hlisted := hkept'.tidy.uniqueIds.listed _ _ hin'.ids
    refine ⟨content, fields, ?_, hcontent, hfields⟩
    rw [hin'.folder, FileSystem.read, (hkept'.tidy.leadsTo.computerFolder hlisted).locate_child
      isName_computerEntryName, Option.bind_some, hnode]
  · intro c' hc' hids' computer' hcomputer'
    obtain ⟨caseName', computerName', hin''⟩ := hkept'.bound c' hc' hids' computer' hcomputer'
    obtain ⟨rfl, rfl⟩ := hkept'.tidy.uniqueIds.unique _ _ _ _ hin'.ids hin''.ids
    rw [hin''.folder, hin'.folder]

theorem tidy_emptyEvidence {ids : String × String} :
    Tidy (File.ofPath "/var/raqet") ["var", "raqet"] ids emptyEvidence :=
  tidy_of_empty leadsTo_emptyEvidence fun _ => node_emptyEvidence

/-- The server after a restart, when it takes these calls. -/
def restarted (s : RaqetControl) (calls : List Call) : RaqetControl :=
  calls.foldl (fun s a => (s.call a).2) (.new s.investigationCaseDB.baseDbPath s.fs ⟨false, .ok⟩)

theorem works_insert : InsertIo.Works ⟨false, .ok⟩ := ⟨rfl, rfl⟩

/-- A client without an id has registered, so its entry is that of the client with the empty id,
    which registers after a restart; then both register again. -/
theorem keeps_folder_restart :
    KeepsFolder ("", "one") (File.ofPath "/var/raqet/defaultcase/null_one")
      (restarted (restarted (serverAfter [registersIds none "one"]) [registersIds "" "one"])
        [registersIds none "one", registersIds "" "one"]) := by
  have hfirst : (serverAfter []).investigationCaseDB.findClient (serverAfter []).fs readable
      (some "") (some "one") = .ok none := by
    decide +kernel
  -- the folder of the client without an id is there already
  have hagain : ((restarted (restarted (serverAfter [registersIds none "one"])
      [registersIds "" "one"]) []).creating (.ofRegister "10.0.0.2" ⟨none, "one", []⟩)
        ⟨readable, readable, .ok, readable, ⟨false, .ok⟩, .ok, discovers 0 []⟩).isSome = false := by
    decide +kernel
  obtain ⟨c, hc, hids, computer, hcomputer, hfolder⟩ : ∃ c ∈ (restarted (serverAfter
      [registersIds none "one"]) [registersIds "" "one"]).clientList,
      c.ids = (some "", some "one") ∧ ∃ computer ∈ c.computerDbEntry,
        computer.baseStorageFolder = File.ofPath "/var/raqet/defaultcase/null_one" := by
    decide +kernel
  have h : Transition.runs act (.new (File.ofPath "/var/raqet") emptyEvidence ⟨false, .ok⟩)
      [.call (registersIds none "one"), .restart ⟨false, .ok⟩, .call (registersIds "" "one")] =
        some (restarted (serverAfter [registersIds none "one"]) [registersIds "" "one"]) := rfl
  have h' : Transition.runs act (restarted (serverAfter [registersIds none "one"])
      [registersIds "" "one"]) [.restart ⟨false, .ok⟩, .call (registersIds none "one"),
        .call (registersIds "" "one")] = some (restarted (restarted (serverAfter
          [registersIds none "one"]) [registersIds "" "one"]) [registersIds none "one",
            registersIds "" "one"]) := rfl
  rw [← hfolder]
  refine keeps_folder ⟨rfl, rfl⟩ ?_ ?_ (by decide) (by decide) tidy_emptyEvidence h h' ?_ ?_ hc
    hids hcomputer
  · simp [Operation.Works, works_registersIds, works_insert]
  · simp [Operation.Works, works_registersIds, works_insert]
  · refine ⟨fun _ _ _ _ _ => hfirst, fun t ht => ⟨trivial, fun t' ht' => ⟨fun _ h => ?_,
      fun _ _ => trivial⟩⟩⟩
    cases h
  · refine ⟨trivial, fun t ht => ⟨fun _ _ _ _ hsome => ?_, fun t' ht' => ⟨fun _ h => ?_,
      fun _ _ => trivial⟩⟩⟩
    · cases ht
      exact absurd hsome (Bool.eq_false_iff.1 hagain)
    · cases h

/-- The client with the empty id is bound to its own entry, and after a restart to that of a
    client without an id, which is listed first. -/
theorem not_keeps_folder :
    ¬∀ (base : File) (b : List String) (ids : String × String) (fs : Disk) (io : InsertIo)
      (l l' : List Operation) (s t : RaqetControl) (c : ClientInfo) (computer : ComputerDbEntry),
      io.Works → (∀ a ∈ l, a.Works) → (∀ a ∈ l', a.Works) → ids.2 ≠ "" →
      '/' ∉ ids.1.toList ∧ '/' ∉ ids.2.toList → Tidy base b ids fs →
      Transition.runs act (.new base fs io) l = some s → Transition.runs act s l' = some t →
      c ∈ s.clientList → c.ids = (some ids.1, some ids.2) → c.computerDbEntry = some computer →
        KeepsFolder ids computer.baseStorageFolder t := by
  intro h
  obtain ⟨c, hc, hids, computer, hcomputer, hfolder⟩ : ∃ c ∈ (serverAfter
      [registersIds "" "one"]).clientList, c.ids = (some "", some "one") ∧
      ∃ computer ∈ c.computerDbEntry, computer.baseStorageFolder =
        File.ofPath "/var/raqet/defaultcase/_one" := by
    decide +kernel
  have hkeeps := (h (File.ofPath "/var/raqet") ["var", "raqet"] ("", "one") emptyEvidence
    ⟨false, .ok⟩ [.call (registersIds "" "one")] [.restart ⟨false, .ok⟩,
      .call (registersIds none "one"), .call (registersIds "" "one")] _
    (restarted (serverAfter [registersIds "" "one"])
      [registersIds none "one", registersIds "" "one"]) c computer ⟨rfl, rfl⟩
    (by simp [Operation.Works, works_registersIds])
    (by simp [Operation.Works, works_registersIds, works_insert]) (by decide) (by decide)
    tidy_emptyEvidence rfl rfl hc hids hcomputer).bound
  obtain ⟨c', hc', hids', computer', hcomputer', hfolder'⟩ : ∃ c' ∈ (restarted (serverAfter
      [registersIds "" "one"]) [registersIds none "one", registersIds "" "one"]).clientList,
      c'.ids = (some "", some "one") ∧ ∃ computer ∈ c'.computerDbEntry,
        computer.baseStorageFolder = File.ofPath "/var/raqet/defaultcase/null_one" := by
    decide +kernel
  have heq := hkeeps c' hc' hids' computer' hcomputer'
  rw [hfolder, hfolder'] at heq
  exact absurd heq (by decide +kernel)

end Raqet
