import NetCHASM.TransactionHashes
import NetCHASM.LoadConfigs
import NetCHASM.Daemon
import Mathlib.Logic.Function.Basic

/-! Changes of the configuration of a running daemon: a reload, a refresh and a commit. Each of
them opens the backend for a new state, fills that state, stores its configuration, and swaps the
states at the end. What the files, the certificates, the digests and the records of the backend
do is given with the call. -/
namespace ConfigChange

open NetCHASM KeyOrder OrderedMap TransactionHashes

/-- The version of the records in a backend. -/
def mdbmVersion : UInt8 := 3

inductive ConfigStatus where
  | ok
  | error
  deriving DecidableEq, Repr

structure HMConfigInfo where
  version : UInt8
  configStatus : ConfigStatus
  configLoadTime : HMTimeStamp
  hash : HMHash
  deriving DecidableEq, Repr

/-- The configuration in a backend, as its readers find it. -/
@[ext] structure StoredConfig where
  groupNames : Option (SortedSet HMString)
  groupInfos : HMString → Option HMDataHostGroup
  configInfo : Option HMConfigInfo

def StoredConfig.empty : StoredConfig := ⟨none, fun _ => none, none⟩

/-- What becomes of a write. One whose lock is not released has been made, and fails. -/
inductive Write where
  | made
  | notReleased
  | refused
  deriving DecidableEq, Repr

namespace Write

def ok (w : Write) : Bool := w = .made

def takesEffect (w : Write) : Bool := w ≠ .refused

def run (w : Write) (b b' : StoredConfig) : Bool × StoredConfig :=
  (w.ok, if w.takesEffect then b' else b)

end Write

/-- What the records of the backend do during a call. -/
structure BackendRun where
  opens : Bool
  readsConfigInfo : Bool
  clears : Write
  readsGroupNames : Bool
  readsGroup : HMString → Bool
  storesGroup : HMString → Write
  storesGroupNames : Write
  storesConfigInfo : Write

/-- A text file, the default, is written and never read back. -/
inductive StorageClass where
  | default
  | mdbm
  | text
  deriving DecidableEq, Repr

namespace BackendRun

variable (r : BackendRun)

def clearBackend (b : StoredConfig) : Bool × StoredConfig := r.clears.run b .empty

/-- Records of another version are dropped. -/
def validateDBVersion (b : StoredConfig) : Bool × StoredConfig :=
  match b.configInfo with
  | none => (true, b)
  | some info =>
    if r.readsConfigInfo && info.version != mdbmVersion then r.clearBackend b else (true, b)

/-- Opening a text file drops what is in it. The file is never read back and does not count as
stored configuration here. -/
def openStore (storageClass : StorageClass) (b : StoredConfig) : Bool × StoredConfig :=
  if !r.opens then (false, b)
  else if storageClass = .mdbm then r.validateDBVersion b
  else (true, b)

def storeGroupInfo (name : HMString) (g : HMDataHostGroup) (b : StoredConfig) :
    Bool × StoredConfig :=
  (r.storesGroup name).run b
    { b with groupInfos := Function.update b.groupInfos name (some g) }

def storeHostGroupNames (names : SortedSet HMString) (b : StoredConfig) : Bool × StoredConfig :=
  r.storesGroupNames.run b { b with groupNames := some names }

def storeConfigInfo (info : HMConfigInfo) (b : StoredConfig) : Bool × StoredConfig :=
  r.storesConfigInfo.run b { b with configInfo := some info }

/-- Store the groups one after the other, up to the first that fails. -/
def storeGroupInfos : List (HMString × HMDataHostGroup) → StoredConfig → Bool × StoredConfig
  | [], b => (true, b)
  | e :: es, b =>
    let stored := r.storeGroupInfo e.1 e.2 b
    if stored.1 then storeGroupInfos es stored.2 else (false, stored.2)

def storeConfigs (groups : HMDataHostGroupMap) (b : StoredConfig) : Bool × StoredConfig :=
  let stored := r.storeGroupInfos groups.entries b
  if stored.1 then r.storeHostGroupNames (SortedSet.insertAll ∅ groups.keys) stored.2
  else (false, stored.2)

/-- Store a configuration. Whether that succeeds is not looked at. What the text backend writes to
its file does not count as stored configuration. -/
def store (storageClass : StorageClass) (config : ConfigState) (now : HMTimeStamp)
    (b : StoredConfig) : StoredConfig :=
  if storageClass = .mdbm then
    (r.storeConfigInfo ⟨mdbmVersion, .ok, now, config.hash⟩ (r.storeConfigs config.groups b).2).2
  else b

/-- The stored groups. When the names cannot be read there are none. -/
def getConfigs (storageClass : StorageClass) (b : StoredConfig) : Option HMDataHostGroupMap :=
  if storageClass = .mdbm then
    let names := if r.readsGroupNames then b.groupNames.getD ∅ else ∅
    names.toList.foldlM (fun groups name =>
      if r.readsGroup name then (b.groupInfos name).map fun g => groups.insert name g
      else none) ∅
  else none

end BackendRun

/-- The parameters of a state that a change of the configuration looks at. -/
structure MasterParams where
  storageClass : StorageClass
  storagePath : HMString
  useBackendConfigs : Bool
  masterConfigLoaded : Bool
  flowType : FlowType
  deriving DecidableEq, Repr

/-- The path of the backend, with the default for none. -/
def MasterParams.mdbmPath (p : MasterParams) : HMString :=
  if p.storagePath = [] then bytes "/home/y/var/run/netchasm.mdbm" else p.storagePath

/-- A configuration with the parameters of its state. -/
structure ManagedState where
  params : MasterParams
  config : ConfigState
  deriving DecidableEq, Repr

/-- A state that is ready to become the current one. -/
structure NewState where
  managed : ManagedState
  checks : HMState

/-- The states of the manager, and the backends by their paths. -/
structure System where
  currentState : ManagedState
  newTransactionState : ManagedState
  daemon : Daemon
  backends : HMString → StoredConfig

/-- What a call meets: the master configuration and the files as they were parsed, whether the
certificates, the digests and the publishers can be set up, and the backend. -/
structure ChangeRun where
  master : Option (MasterParams × Settings)
  backend : BackendRun
  certificates : Bool
  parsed : Option (HMDataHostGroupMap × HMConfigParams)
  hashesGroup : HMString → Bool
  hashesConfigs : Bool
  pubSub : Bool
  now : HMTimeStamp

/-- Go on with the backend once it is open; if it does not open the change has failed. -/
def BackendRun.openBackend (r : BackendRun) (storageClass : StorageClass)
    (change : StoredConfig → Option NewState × StoredConfig) (b : StoredConfig) :
    Option NewState × StoredConfig :=
  match r.openStore storageClass b with
  | (false, b) => (none, b)
  | (true, b) => change b

section Calls

variable (md5 : List UInt8 → Vector UInt8 16)

namespace ChangeRun

variable (r : ChangeRun)

/-- The groups of a new state, with the checks that reading them has listed already. -/
def loadAllConfigs (p : MasterParams) (b : StoredConfig) :
    Option (HMDataHostGroupMap × HMDataCheckList) :=
  if !p.masterConfigLoaded then none
  else if p.useBackendConfigs then
    (r.backend.getConfigs p.storageClass b).bind fun stored =>
      let loaded := HMState.getConfigs stored
      (HMState.loadAllConfigs p.flowType .default loaded.1).map fun groups => (groups, loaded.2)
  else
    r.parsed.bind fun parsed =>
      (HMState.loadAllConfigs p.flowType parsed.2 parsed.1).map fun groups => (groups, .empty)

/-- The configuration of the loaded groups. -/
def loadedConfig (settings : Settings) (groups : HMDataHostGroupMap) : ConfigState :=
  TransactionHashes.setupDaemonstate md5 r.hashesGroup r.hashesConfigs settings groups

/-- Load a new state and store its configuration, which is left out when it cannot be hashed. -/
def setupDaemonstate (p : MasterParams) (settings : Settings) (b : StoredConfig) :
    Option NewState × StoredConfig :=
  match r.loadAllConfigs p b with
  | none => (none, b)
  | some (groups, checkList) =>
    let config := r.loadedConfig md5 settings groups
    (some ⟨⟨p, config⟩, HMState.generateCheckListFrom checkList settings groups⟩,
      if r.hashesConfigs then r.backend.store p.storageClass config r.now b else b)

def refreshDaemonConfigs (current : ManagedState) (b : StoredConfig) :
    Option NewState × StoredConfig :=
  r.backend.openBackend current.params.storageClass
    (r.setupDaemonstate md5 current.params current.config.settings) b

/-- The publishers are set up last, when the configuration has been stored. -/
def reloadDaemonConfigs (p : MasterParams) (settings : Settings) (b : StoredConfig) :
    Option NewState × StoredConfig :=
  r.backend.openBackend p.storageClass (fun b =>
    if !r.certificates then (none, b)
    else
      match r.setupDaemonstate md5 p settings b with
      | (none, b) => (none, b)
      | (some new, b) => if !r.pubSub then (none, b) else (some new, b)) b

def commitDaemonConfigs (hash : HMHash) (transaction : ManagedState) (b : StoredConfig) :
    Option NewState × StoredConfig :=
  match TransactionHashes.hashConfigs md5 r.hashesConfigs transaction.config with
  | none => (none, b)
  | some newState =>
    if !hashEq hash newState.hash then (none, b)
    else
      let config := TransactionHashes.generateCheckList newState
      r.backend.openBackend transaction.params.storageClass (fun b =>
        (some ⟨⟨transaction.params, config⟩,
            HMState.generateCheckList newState.settings newState.groups⟩,
          r.backend.store transaction.params.storageClass config r.now b)) b

end ChangeRun

namespace System

/-- The end of a change at a backend: a new state replaces both states. -/
def finish (s : System) (path : HMString) (result : Option NewState × StoredConfig) :
    Bool × System :=
  let s := { s with backends := Function.update s.backends path result.2 }
  match result.1 with
  | none => (false, s)
  | some new =>
    (true,
      { s with
        currentState := new.managed
        newTransactionState := new.managed
        daemon := s.daemon.swapStates new.checks })

end System

inductive Change where
  | reload
  | refresh
  | commit (hash : HMHash)
  deriving DecidableEq, Repr

/-- Carry a change out, and return whether it succeeded. -/
def Change.apply (r : ChangeRun) (s : System) : Change → Bool × System
  | .reload =>
    match r.master with
    | none => (false, s)
    | some (p, settings) =>
      s.finish p.mdbmPath (r.reloadDaemonConfigs md5 p settings (s.backends p.mdbmPath))
  | .refresh =>
    s.finish s.currentState.params.mdbmPath (r.refreshDaemonConfigs md5 s.currentState
      (s.backends s.currentState.params.mdbmPath))
  | .commit hash =>
    s.finish s.newTransactionState.params.mdbmPath (r.commitDaemonConfigs md5 hash
      s.newTransactionState (s.backends s.newTransactionState.params.mdbmPath))

end Calls

section Opening

variable {r : BackendRun} {storageClass : StorageClass} {b : StoredConfig}

/-- Opening drops the records of another version. -/
structure Erases (r : BackendRun) (storageClass : StorageClass) (b : StoredConfig) : Prop where
  mdbm : storageClass = .mdbm
  opens : r.opens = true
  reads : r.readsConfigInfo = true
  version : ∃ info, b.configInfo = some info ∧ info.version ≠ mdbmVersion
  clears : r.clears.takesEffect = true

theorem openStore_of_erases (h : Erases r storageClass b) :
    r.openStore storageClass b = (r.clears.ok, .empty) := by
  obtain ⟨info, hinfo, hversion⟩ := h.version
  rw [BackendRun.openStore, BackendRun.validateDBVersion, hinfo]
  simp [h.opens, h.mdbm, h.reads, hversion, BackendRun.clearBackend, Write.run, h.clears]

/-- Otherwise the backend is opened as it is, or not at all. -/
theorem openStore_of_not_erases (h : ¬ Erases r storageClass b) :
    (r.openStore storageClass b).2 = b := by
  rw [BackendRun.openStore]
  split
  · rfl
  next hopens =>
    split
    next hclass =>
      rw [BackendRun.validateDBVersion]
      split
      · rfl
      next info hinfo =>
        split
        next hversion =>
          simp only [Bool.and_eq_true, bne_iff_ne, ne_eq] at hversion
          rw [BackendRun.clearBackend, Write.run]
          split
          next hclears =>
            refine absurd ?_ h
            exact ⟨hclass, by simpa using hopens, hversion.1, ⟨info, hinfo, hversion.2⟩, hclears⟩
          · rfl
        · rfl
    · rfl

theorem empty_ne_of_erases (h : Erases r storageClass b) : StoredConfig.empty ≠ b := by
  obtain ⟨info, hinfo, -⟩ := h.version
  rintro rfl
  cases hinfo

end Opening

section Storing

variable {r : BackendRun} {b : StoredConfig}

/-- The groups that are written: all of them, or those up to one that fails. -/
def BackendRun.written (r : BackendRun) :
    List (HMString × HMDataHostGroup) → List (HMString × HMDataHostGroup)
  | [] => []
  | e :: es =>
    match r.storesGroup e.1 with
    | .made => e :: written r es
    | .notReleased => [e]
    | .refused => []

theorem written_sublist (es : List (HMString × HMDataHostGroup)) : (r.written es).Sublist es := by
  induction es with
  | nil => exact .slnil
  | cons e es ih =>
    rw [BackendRun.written]
    split
    · exact ih.cons_cons e
    · exact (List.nil_sublist es).cons_cons e
    · exact List.nil_sublist _

/-- Write a list of groups. -/
def putGroups (infos : HMString → Option HMDataHostGroup)
    (es : List (HMString × HMDataHostGroup)) : HMString → Option HMDataHostGroup :=
  es.foldl (fun f e => Function.update f e.1 (some e.2)) infos

theorem storeGroupInfos_eq (es : List (HMString × HMDataHostGroup)) :
    r.storeGroupInfos es b = (es.all fun e => (r.storesGroup e.1).ok,
      { b with groupInfos := putGroups b.groupInfos (r.written es) }) := by
  induction es generalizing b with
  | nil => rfl
  | cons e es ih =>
    rw [BackendRun.storeGroupInfos, BackendRun.storeGroupInfo, BackendRun.written, List.all_cons]
    cases r.storesGroup e.1 with
    | made => exact ih
    | notReleased => rfl
    | refused => rfl

theorem putGroups_of_not_mem {infos : HMString → Option HMDataHostGroup}
    {es : List (HMString × HMDataHostGroup)} {name : HMString} (h : name ∉ es.map Prod.fst) :
    putGroups infos es name = infos name := by
  induction es generalizing infos with
  | nil => rfl
  | cons e es ih =>
    rw [List.map_cons, List.mem_cons, not_or] at h
    exact (ih h.2).trans (Function.update_of_ne h.1 _ _)

/-- Writing distinct groups changes nothing exactly when they are all there. -/
theorem putGroups_eq_self_iff {infos : HMString → Option HMDataHostGroup}
    {es : List (HMString × HMDataHostGroup)} (hnodup : (es.map Prod.fst).Nodup) :
    putGroups infos es = infos ↔ ∀ e ∈ es, infos e.1 = some e.2 := by
  induction es generalizing infos with
  | nil => simp [putGroups]
  | cons e es ih =>
    rw [List.map_cons, List.nodup_cons] at hnodup
    have hput : putGroups infos (e :: es) = putGroups (Function.update infos e.1 (some e.2)) es := rfl
    rw [hput, List.forall_mem_cons]
    constructor
    · intro h
      have hhead : infos e.1 = some e.2 := by
        rw [← h, putGroups_of_not_mem hnodup.1, Function.update_self]
      rw [Function.update_eq_self_iff.mpr hhead.symm] at h
      exact ⟨hhead, (ih hnodup.2).mp h⟩
    · rintro ⟨hhead, htail⟩
      rw [Function.update_eq_self_iff.mpr hhead.symm]
      exact (ih hnodup.2).mpr htail

/-- What storing would write is in the backend. -/
structure AlreadyStored (r : BackendRun) (config : ConfigState) (now : HMTimeStamp)
    (b : StoredConfig) : Prop where
  groupInfos : ∀ e ∈ r.written config.groups.entries, b.groupInfos e.1 = some e.2
  groupNames : (∀ e ∈ config.groups.entries, r.storesGroup e.1 = .made) →
    r.storesGroupNames ≠ .refused → b.groupNames = some (SortedSet.insertAll ∅ config.groups.keys)
  configInfo : r.storesConfigInfo ≠ .refused →
    b.configInfo = some ⟨mdbmVersion, .ok, now, config.hash⟩

/-- What a store leaves in each record. -/
theorem store_mdbm (config : ConfigState) (now : HMTimeStamp) :
    r.store .mdbm config now b =
      { groupNames :=
          if (config.groups.entries.all fun e => (r.storesGroup e.1).ok) &&
              r.storesGroupNames.takesEffect then
            some (SortedSet.insertAll ∅ config.groups.keys)
          else b.groupNames
        groupInfos := putGroups b.groupInfos (r.written config.groups.entries)
        configInfo :=
          if r.storesConfigInfo.takesEffect then some ⟨mdbmVersion, .ok, now, config.hash⟩
          else b.configInfo } := by
  simp only [BackendRun.store, if_true, BackendRun.storeConfigs, storeGroupInfos_eq,
    BackendRun.storeHostGroupNames, BackendRun.storeConfigInfo, Write.run]
  cases config.groups.entries.all fun e => (r.storesGroup e.1).ok with
  | false => cases r.storesConfigInfo.takesEffect <;> rfl
  | true => cases r.storesGroupNames.takesEffect <;> cases r.storesConfigInfo.takesEffect <;> rfl

theorem store_eq_self_iff (config : ConfigState) (now : HMTimeStamp) :
    r.store .mdbm config now b = b ↔ AlreadyStored r config now b := by
  have hnodup : ((r.written config.groups.entries).map Prod.fst).Nodup :=
    (SortedMap.keys_nodup config.groups).sublist ((written_sublist _).map Prod.fst)
  have hall : (config.groups.entries.all fun e => (r.storesGroup e.1).ok) = true ↔
      ∀ e ∈ config.groups.entries, r.storesGroup e.1 = .made := by
    simp [Write.ok]
  rw [store_mdbm, StoredConfig.ext_iff, putGroups_eq_self_iff hnodup]
  simp only [ite_eq_right_iff, Bool.and_eq_true, hall, Write.takesEffect, decide_eq_true_eq,
    and_imp]
  constructor
  · rintro ⟨hnames, hinfos, hinfo⟩
    exact ⟨hinfos, fun hmade htaken => (hnames hmade htaken).symm, fun htaken => (hinfo htaken).symm⟩
  · rintro ⟨hinfos, hnames, hinfo⟩
    exact ⟨fun hmade htaken => (hnames hmade htaken).symm, hinfos, fun htaken => (hinfo htaken).symm⟩

/-- A store leaves no record of another version. -/
theorem version_of_store {config : ConfigState} {now : HMTimeStamp} {info : HMConfigInfo}
    (h : (r.store .mdbm config now .empty).configInfo = some info) : info.version = mdbmVersion := by
  rw [store_mdbm] at h
  dsimp only at h
  split at h
  · rw [← Option.some.inj h]
  · cases h

end Storing

section Failures

variable (md5 : List UInt8 → Vector UInt8 16) (r : ChangeRun) (s : System)

/-- A change that fails leaves everything as it was. -/
def FailsWithoutEffect (c : Change) : Prop :=
  (c.apply md5 r s).1 = false → (c.apply md5 r s).2 = s

/-- A result that leaves the backend as it was, unless it is a new state. -/
def KeepsBackend (b : StoredConfig) (result : Option NewState × StoredConfig) : Prop :=
  result.1 = none → result.2 = b

theorem finish_without_effect_iff (path : HMString) (result : Option NewState × StoredConfig) :
    ((s.finish path result).1 = false → (s.finish path result).2 = s) ↔
      KeepsBackend (s.backends path) result := by
  obtain ⟨new, b⟩ := result
  cases new with
  | some new => simp [System.finish, KeepsBackend]
  | none =>
    have hsystem : { s with backends := Function.update s.backends path b } = s ↔
        Function.update s.backends path b = s.backends := by
      constructor
      · exact fun h => congrArg System.backends h
      · intro h
        rw [h]
    simp only [System.finish, KeepsBackend, true_implies, hsystem, Function.update_eq_self_iff]

/-- Opening comes first: either it erases, or the change goes on with the backend as it was. -/
theorem openBackend_keeps_iff {r : BackendRun} {storageClass : StorageClass} {b : StoredConfig}
    {change : StoredConfig → Option NewState × StoredConfig} :
    KeepsBackend b (r.openBackend storageClass change b) ↔
      (Erases r storageClass b → r.clears = .made ∧ KeepsBackend b (change .empty)) ∧
      (¬ Erases r storageClass b → (r.openStore storageClass b).1 = true →
        KeepsBackend b (change b)) := by
  rw [BackendRun.openBackend]
  by_cases herases : Erases r storageClass b
  · have hempty := empty_ne_of_erases herases
    rw [openStore_of_erases herases]
    simp only [herases, true_implies, not_true_eq_false, false_implies, and_true]
    cases hclears : r.clears with
    | made => simp [Write.ok]
    | notReleased => simpa [Write.ok, KeepsBackend] using hempty
    | refused => simpa [Write.ok, KeepsBackend] using hempty
  · have hopen := openStore_of_not_erases herases
    simp only [herases, false_implies, true_and, not_false_eq_true, true_implies]
    rcases hresult : r.openStore storageClass b with ⟨ok, b'⟩
    rw [hresult] at hopen
    obtain rfl : b' = b := hopen
    cases ok with
    | false => simp [KeepsBackend]
    | true => simp

/-- The new state cannot be loaded from what is in the backend. -/
def LoadFails (p : MasterParams) (b : StoredConfig) : Prop := r.loadAllConfigs p b = none

/-- The ways in which a refresh erases the stored configuration and then fails. -/
def RefreshLoses : Prop :=
  let p := s.currentState.params
  Erases r.backend p.storageClass (s.backends p.mdbmPath) ∧
    (r.backend.clears ≠ .made ∨ LoadFails r p .empty)

/-- A commit can only fail up to the opening of the backend. -/
def CommitLoses (hash : HMHash) : Prop :=
  let t := s.newTransactionState
  r.hashesConfigs = true ∧
    hashEq hash (md5 (ConfigHash.hashConfigs t.config.groups)).toList = true ∧
    Erases r.backend t.params.storageClass (s.backends t.params.mdbmPath) ∧
    r.backend.clears ≠ .made

/-- A reload either erases the stored configuration and then fails, or it stores another one and
then cannot set up the publishers. -/
def ReloadLoses (p : MasterParams) (settings : Settings) : Prop :=
  let b := s.backends p.mdbmPath
  (Erases r.backend p.storageClass b ∧
    (r.backend.clears ≠ .made ∨ r.certificates = false ∨ LoadFails r p .empty ∨
      r.pubSub = false)) ∨
  (¬ Erases r.backend p.storageClass b ∧ (r.backend.openStore p.storageClass b).1 = true ∧
    r.certificates = true ∧ r.pubSub = false ∧ p.storageClass = .mdbm ∧ r.hashesConfigs = true ∧
    ∃ groups checkList, r.loadAllConfigs p b = some (groups, checkList) ∧
      ¬ AlreadyStored r.backend (r.loadedConfig md5 settings groups) r.now b)

/-- The change does not reach a failure after the backend has changed. -/
def NothingLost : Change → Prop
  | .reload => ∀ p settings, r.master = some (p, settings) → ¬ ReloadLoses md5 r s p settings
  | .refresh => ¬ RefreshLoses r s
  | .commit hash => ¬ CommitLoses md5 r s hash

theorem setupDaemonstate_of_fails {p : MasterParams} {b : StoredConfig} (h : LoadFails r p b)
    (settings : Settings) : r.setupDaemonstate md5 p settings b = (none, b) := by
  rw [LoadFails] at h
  rw [ChangeRun.setupDaemonstate, h]

theorem setupDaemonstate_of_loads {p : MasterParams} {b : StoredConfig} (h : ¬ LoadFails r p b)
    (settings : Settings) : ∃ groups checkList new,
      r.loadAllConfigs p b = some (groups, checkList) ∧
      r.setupDaemonstate md5 p settings b = (some new,
        if r.hashesConfigs then
          r.backend.store p.storageClass (r.loadedConfig md5 settings groups) r.now b
        else b) := by
  rw [LoadFails] at h
  rcases Option.ne_none_iff_exists'.mp h with ⟨⟨groups, checkList⟩, hload⟩
  rw [ChangeRun.setupDaemonstate, hload]
  exact ⟨groups, checkList, _, rfl, rfl⟩

/-- The setup of a new state keeps a backend if it starts with it, or if it does not fail. -/
theorem setupDaemonstate_keeps_iff (p : MasterParams) (settings : Settings) (b b' : StoredConfig) :
    KeepsBackend b (r.setupDaemonstate md5 p settings b') ↔ (LoadFails r p b' → b' = b) := by
  by_cases hload : LoadFails r p b'
  · simp [setupDaemonstate_of_fails md5 r hload, KeepsBackend, hload]
  · obtain ⟨groups, checkList, new, -, hsetup⟩ := setupDaemonstate_of_loads md5 r hload settings
    simp [hsetup, KeepsBackend, hload]

theorem refresh_without_effect_iff :
    FailsWithoutEffect md5 r s .refresh ↔ ¬ RefreshLoses r s := by
  rw [FailsWithoutEffect, Change.apply, finish_without_effect_iff, ChangeRun.refreshDaemonConfigs,
    openBackend_keeps_iff, setupDaemonstate_keeps_iff, setupDaemonstate_keeps_iff, RefreshLoses]
  simp only [implies_true, and_true, not_and, not_or, not_not]
  constructor
  · intro h herases
    exact ⟨(h herases).1, fun hfails => empty_ne_of_erases herases ((h herases).2 hfails)⟩
  · intro h herases
    exact ⟨(h herases).1, fun hfails => absurd hfails (h herases).2⟩

theorem commit_without_effect_iff (hash : HMHash) :
    FailsWithoutEffect md5 r s (.commit hash) ↔ ¬ CommitLoses md5 r s hash := by
  rw [FailsWithoutEffect, Change.apply, finish_without_effect_iff, ChangeRun.commitDaemonConfigs,
    CommitLoses, TransactionHashes.hashConfigs]
  cases r.hashesConfigs with
  | false => simp [KeepsBackend]
  | true =>
    simp only [if_true]
    by_cases hhash : hashEq hash
        (md5 (ConfigHash.hashConfigs s.newTransactionState.config.groups)).toList = true
    · simp only [hhash, Bool.not_true, Bool.false_eq_true, if_false, openBackend_keeps_iff]
      simp [KeepsBackend]
    · simp [hhash, KeepsBackend]

/-- The rest of a reload, once the backend is open. -/
theorem reload_keeps_iff (p : MasterParams) (settings : Settings) (b b' : StoredConfig) :
    KeepsBackend b (if !r.certificates then (none, b')
      else
        match r.setupDaemonstate md5 p settings b' with
        | (none, b) => (none, b)
        | (some new, b) => if !r.pubSub then (none, b) else (some new, b)) ↔
      (r.certificates = false ∨ LoadFails r p b' → b' = b) ∧
      ∀ groups checkList, r.certificates = true → r.pubSub = false →
        r.loadAllConfigs p b' = some (groups, checkList) →
        (if r.hashesConfigs then
          r.backend.store p.storageClass (r.loadedConfig md5 settings groups) r.now b'
        else b') = b := by
  cases hcertificates : r.certificates with
  | false => simp [KeepsBackend]
  | true =>
    by_cases hload : LoadFails r p b'
    · have hnone : r.loadAllConfigs p b' = none := hload
      simp [setupDaemonstate_of_fails md5 r hload, KeepsBackend, hload, hnone]
    · obtain ⟨groups, checkList, new, hsome, hsetup⟩ :=
        setupDaemonstate_of_loads md5 r hload settings
      simp only [hsetup, hload, hsome]
      cases r.pubSub <;> simp [KeepsBackend]

/-- What is stored after an erasure is not what was erased. -/
theorem stored_ne_of_erases {p : MasterParams} {b : StoredConfig}
    (herases : Erases r.backend p.storageClass b) (config : ConfigState) :
    (if r.hashesConfigs then r.backend.store p.storageClass config r.now .empty else .empty) ≠ b := by
  split
  · obtain ⟨info, hinfo, hversion⟩ := herases.version
    rw [herases.mdbm]
    intro heq
    rw [← heq] at hinfo
    exact hversion (version_of_store hinfo)
  · exact empty_ne_of_erases herases

/-- A reload that has erased keeps the backend only by not failing. -/
theorem erased_kept_iff {p : MasterParams} {b : StoredConfig} (settings : Settings)
    (herases : Erases r.backend p.storageClass b) :
    ((r.certificates = false ∨ LoadFails r p .empty → .empty = b) ∧
      ∀ groups checkList, r.certificates = true → r.pubSub = false →
        r.loadAllConfigs p .empty = some (groups, checkList) →
        (if r.hashesConfigs then
          r.backend.store p.storageClass (r.loadedConfig md5 settings groups) r.now .empty
        else .empty) = b) ↔
      ¬ (r.certificates = false ∨ LoadFails r p .empty ∨ r.pubSub = false) := by
  have hempty := empty_ne_of_erases herases
  constructor
  · rintro ⟨hearly, hlate⟩ hfails
    have hcertificates : r.certificates = true := by
      cases hcert : r.certificates with
      | true => rfl
      | false => exact absurd (hearly (Or.inl hcert)) hempty
    have hload : ¬ LoadFails r p .empty := fun hload => hempty (hearly (Or.inr hload))
    rcases hfails with hfails | hfails | hfails
    · rw [hcertificates] at hfails
      cases hfails
    · exact hload hfails
    · obtain ⟨groups, checkList, -, hsome, -⟩ := setupDaemonstate_of_loads md5 r hload settings
      exact stored_ne_of_erases r herases _ (hlate groups checkList hcertificates hfails hsome)
  · intro h
    simp only [not_or] at h
    rcases h with ⟨hcertificates, hload, hpubSub⟩
    constructor
    · rintro (hfails | hfails)
      · exact absurd hfails hcertificates
      · exact absurd hfails hload
    · intro _ _ _ hfails
      exact absurd hfails hpubSub

/-- A reload that does not erase fails without effect unless it stores something new. -/
theorem stored_eq_iff (p : MasterParams) (config : ConfigState) (b : StoredConfig) :
    (if r.hashesConfigs then r.backend.store p.storageClass config r.now b else b) = b ↔
      (p.storageClass = .mdbm → r.hashesConfigs = true →
        AlreadyStored r.backend config r.now b) := by
  by_cases hmdbm : p.storageClass = .mdbm
  · rw [hmdbm]
    cases r.hashesConfigs with
    | false => simp
    | true => simp [store_eq_self_iff]
  · simp [BackendRun.store, hmdbm]

theorem reload_without_effect_iff :
    FailsWithoutEffect md5 r s .reload ↔
      ∀ p settings, r.master = some (p, settings) → ¬ ReloadLoses md5 r s p settings := by
  rw [FailsWithoutEffect, Change.apply]
  cases r.master with
  | none => simp
  | some master =>
    obtain ⟨p, settings⟩ := master
    have hmaster : (∀ p' settings', some (p, settings) = some (p', settings') →
        ¬ ReloadLoses md5 r s p' settings') ↔ ¬ ReloadLoses md5 r s p settings := by
      constructor
      · exact fun h => h p settings rfl
      · rintro h p' settings' heq
        cases heq
        exact h
    rw [hmaster, ReloadLoses, not_or]
    dsimp only
    rw [finish_without_effect_iff, ChangeRun.reloadDaemonConfigs, openBackend_keeps_iff,
      reload_keeps_iff, reload_keeps_iff]
    apply and_congr
    · rw [not_and]
      apply forall_congr'
      intro herases
      rw [erased_kept_iff md5 r settings herases, not_or (p := r.backend.clears ≠ .made),
        not_ne_iff]
    · simp only [implies_true, true_and, stored_eq_iff]
      constructor
      · rintro h ⟨herases, hopen, hcertificates, hpubSub, hmdbm, hhashes, groups, checkList, hsome,
          hnew⟩
        exact hnew (h herases hopen groups checkList hcertificates hpubSub hsome hmdbm hhashes)
      · intro h herases hopen groups checkList hcertificates hpubSub hsome hmdbm hhashes
        by_contra hnew
        exact h ⟨herases, hopen, hcertificates, hpubSub, hmdbm, hhashes, groups, checkList, hsome,
          hnew⟩

/-- A failed change has no effect exactly when it fails before it has changed the backend. -/
theorem failed_change_without_effect_iff (c : Change) :
    FailsWithoutEffect md5 r s c ↔ NothingLost md5 r s c := by
  cases c with
  | reload => exact reload_without_effect_iff md5 r s
  | refresh => exact refresh_without_effect_iff md5 r s
  | commit hash => exact commit_without_effect_iff md5 r s hash

end Failures

/-- A backend whose records can all be written and read. -/
def workingBackend : BackendRun where
  opens := true
  readsConfigInfo := true
  clears := .made
  readsGroupNames := true
  readsGroup _ := true
  storesGroup _ := .made
  storesGroupNames := .made
  storesConfigInfo := .made

def mdbmParams : MasterParams where
  storageClass := .mdbm
  storagePath := bytes "netchasm.mdbm"
  useBackendConfigs := false
  masterConfigLoaded := true
  flowType := .remoteHost

/-- A reload of one group, with publishers that cannot be set up. -/
def withoutPublishers : ChangeRun where
  master := some (mdbmParams, .default)
  backend := workingBackend
  certificates := true
  parsed := some ((∅ : HMDataHostGroupMap).set (bytes "web") (.new (bytes "web")), .default)
  hashesGroup _ := true
  hashesConfigs := true
  pubSub := false
  now := 0

def idleSystem : System where
  currentState := ⟨mdbmParams, ⟨.default, ∅, []⟩⟩
  newTransactionState := ⟨mdbmParams, ⟨.default, ∅, []⟩⟩
  daemon := ⟨HMState.generateCheckList .default ∅, [], [], 0⟩
  backends _ := .empty

theorem failed_reload_stores_groups :
    ¬ FailsWithoutEffect (fun _ => Vector.replicate 16 0) withoutPublishers idleSystem .reload := by
  intro h
  have hbackend := congrArg (fun s => (s.backends (bytes "netchasm.mdbm")).configInfo.isSome) (h rfl)
  cases hbackend

end ConfigChange
