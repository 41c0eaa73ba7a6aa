import NetCHASM.ConfigHash
import NetCHASM.State
import NetCHASM.Library.Runs

/-! The hashes of a transaction. Clients edit a copy of the configuration, and a commit makes it
the current one. The digest of a stream is a parameter; a digest that cannot be initialised
leaves a hash as it is. -/
namespace TransactionHashes

open NetCHASM KeyOrder OrderedMap

/-- The bytes of a hash. One that was never computed has none. -/
abbrev HMHash := List UInt8

/-- Hashes compare as equal also if one of them was never computed. -/
def hashEq (a b : HMHash) : Bool := a = [] || b = [] || a = b

structure HashedGroup where
  group : HMDataHostGroup
  hashValue : HMHash
  deriving DecidableEq, Repr

/-- The part of a state that a transaction edits. -/
structure ConfigState where
  settings : Settings
  hostGroups : SortedMap HMString HashedGroup
  hash : HMHash
  deriving DecidableEq, Repr

structure HMStateManager where
  currentState : ConfigState
  newTransactionState : ConfigState
  deriving DecidableEq, Repr

inductive CommitStatus where
  | success
  | failure
  | hashMismatch
  deriving DecidableEq, Repr

/-- The groups without their hashes. -/
def ConfigState.groups (c : ConfigState) : HMDataHostGroupMap :=
  c.hostGroups.mapVals fun _ g => g.group

section Operations

variable (md5 : List UInt8 → Vector UInt8 16)

/-- The hash of a group is computed and stored. -/
def hashHostGroup (init : Bool) (g : HashedGroup) : HashedGroup :=
  if init then { g with hashValue := (md5 (ConfigHash.getHash g.group)).toList } else g

/-- Every group has a digest of its own to initialise. -/
def hashHostGroupMap (init : HMString → Bool) (c : ConfigState) : ConfigState :=
  { c with hostGroups := c.hostGroups.mapVals fun name g => hashHostGroup md5 (init name) g }

def hashConfigs (init : Bool) (c : ConfigState) : Option ConfigState :=
  if init then some { c with hash := (md5 (ConfigHash.hashConfigs c.groups)).toList } else none

/-- The plugin and the remote check type are added to every group. -/
def generateCheckList (c : ConfigState) : ConfigState :=
  { c with hostGroups := c.hostGroups.mapVals fun _ g =>
      { g with group := c.settings.prepare g.group } }

def hashStoreConfig (init : HMString → Bool) (initAll : Bool) (c : ConfigState) : ConfigState :=
  let c := hashHostGroupMap md5 init c
  (hashConfigs md5 initAll c).getD c

/-- A configuration that was loaded. Its groups come from the parser, without hashes. -/
def setupDaemonstate (init : HMString → Bool) (initAll : Bool) (settings : Settings)
    (groups : HMDataHostGroupMap) : ConfigState :=
  hashStoreConfig md5 init initAll
    (generateCheckList ⟨settings, groups.mapVals fun _ g => ⟨g, []⟩, []⟩)

def loadDaemonState (init : HMString → Bool) (initAll : Bool) (settings : Settings)
    (groups : HMDataHostGroupMap) : HMStateManager :=
  let newState := setupDaemonstate md5 init initAll settings groups
  ⟨newState, newState⟩

def resetTransactionState (m : HMStateManager) : HMStateManager :=
  { m with newTransactionState := m.currentState }

/-- A new group is inserted as it is, and a group that is there is replaced and hashed. -/
def addHostGroup (init : Bool) (name : HMString) (hostGroup : HashedGroup)
    (m : HMStateManager) : HMStateManager :=
  let tState := m.newTransactionState
  let hostGroups :=
    if tState.hostGroups.contains name then
      tState.hostGroups.modify name fun _ => hashHostGroup md5 init hostGroup
    else tState.hostGroups.insert name hostGroup
  { m with newTransactionState := { tState with hostGroups := hostGroups } }

def removeHostGroup (name : HMString) (m : HMStateManager) : HMStateManager :=
  { m with newTransactionState :=
      { m.newTransactionState with hostGroups := m.newTransactionState.hostGroups.erase name } }

def clearTransaction (m : HMStateManager) : HMStateManager := resetTransactionState m

/-- The hash of the transaction state is computed for the client that asks for it. -/
def getTransConfigHash (init : Bool) (m : HMStateManager) : HMStateManager :=
  { m with newTransactionState :=
      (hashConfigs md5 init m.newTransactionState).getD m.newTransactionState }

def commitDaemonConfigs (hash : HMHash) (init openBackend : Bool) (m : HMStateManager) :
    CommitStatus × HMStateManager :=
  match hashConfigs md5 init m.newTransactionState with
  | none => (.failure, m)
  | some newState =>
    if !hashEq hash newState.hash then (.hashMismatch, m)
    else if !openBackend then (.failure, m)
    else
      let newState := generateCheckList newState
      (.success, ⟨newState, newState⟩)

/-- What the control socket does to the two states. A group that is sent has no hash. -/
inductive Event where
  | addHostGroup (name : HMString) (group : HMDataHostGroup) (init : Bool)
  | removeHostGroup (name : HMString)
  | clearTransaction
  | getTransConfigHash (init : Bool)
  | commitTransaction (hash : HMHash) (init openBackend : Bool)

def step (m : HMStateManager) : Event → Option HMStateManager
  | .addHostGroup name group init => some (addHostGroup md5 init name ⟨group, []⟩ m)
  | .removeHostGroup name => some (removeHostGroup name m)
  | .clearTransaction => some (clearTransaction m)
  | .getTransConfigHash init => some (getTransConfigHash md5 init m)
  | .commitTransaction hash init openBackend =>
    some (commitDaemonConfigs md5 hash init openBackend m).2

end Operations

section Groups

/-! The groups are those of the state that the configuration makes. -/

theorem groups_hashHostGroupMap (md5 : List UInt8 → Vector UInt8 16) (init : HMString → Bool)
    (c : ConfigState) : (hashHostGroupMap md5 init c).groups = c.groups := by
  rw [ConfigState.groups, hashHostGroupMap, SortedMap.mapVals_mapVals]
  congr 1
  funext name g
  rw [hashHostGroup]
  split
  · rfl
  · rfl

theorem groups_generateCheckList (c : ConfigState) :
    (generateCheckList c).groups = (HMState.generateCheckList c.settings c.groups).hostGroups := by
  rw [ConfigState.groups, generateCheckList, SortedMap.mapVals_mapVals, HMState.generateCheckList,
    ConfigState.groups, SortedMap.mapVals_mapVals]

theorem groups_loadDaemonState (md5 : List UInt8 → Vector UInt8 16) (init : HMString → Bool)
    (initAll : Bool) (settings : Settings) (groups : HMDataHostGroupMap) :
    (loadDaemonState md5 init initAll settings groups).currentState.groups =
      (HMState.generateCheckList settings groups).hostGroups := by
  have hstored : ∀ c, (hashStoreConfig md5 init initAll c).groups = c.groups := by
    intro c
    rw [← groups_hashHostGroupMap md5 init c]
    cases initAll <;> rfl
  have hloaded : (⟨settings, groups.mapVals fun _ g => ⟨g, []⟩, []⟩ : ConfigState).groups =
      groups := by
    rw [ConfigState.groups, SortedMap.mapVals_mapVals]
    apply SortedMap.ext
    simp [SortedMap.mapVals]
  calc (loadDaemonState md5 init initAll settings groups).currentState.groups
      = (generateCheckList ⟨settings, groups.mapVals fun _ g => ⟨g, []⟩, []⟩).groups := hstored _
    _ = (HMState.generateCheckList settings groups).hostGroups := by
      rw [groups_generateCheckList, hloaded]

variable {md5 : List UInt8 → Vector UInt8 16} {m m' : HMStateManager}

theorem hashConfigs_eq_some {init : Bool} {c c' : ConfigState}
    (h : hashConfigs md5 init c = some c') :
    c' = { c with hash := (md5 (ConfigHash.hashConfigs c.groups)).toList } := by
  rw [hashConfigs] at h
  split at h
  · exact (Option.some.inj h).symm
  · cases h

/-- What a commit that succeeds makes of the transaction. -/
theorem commit_success {hash : HMHash} {init openBackend : Bool}
    (h : commitDaemonConfigs md5 hash init openBackend m = (.success, m')) :
    ∃ newState, hashConfigs md5 init m.newTransactionState = some newState ∧
      m' = ⟨generateCheckList newState, generateCheckList newState⟩ := by
  rw [commitDaemonConfigs] at h
  cases hhash : hashConfigs md5 init m.newTransactionState with
  | none =>
    rw [hhash] at h
    cases h
  | some newState =>
    rw [hhash] at h
    dsimp only at h
    split at h
    · cases h
    · split at h
      · cases h
      · exact ⟨newState, rfl, (Prod.ext_iff.mp h).2.symm⟩

/-- A commit that does not succeed changes nothing. -/
theorem commit_unchanged {hash : HMHash} {init openBackend : Bool}
    (h : (commitDaemonConfigs md5 hash init openBackend m).1 ≠ .success) :
    (commitDaemonConfigs md5 hash init openBackend m).2 = m := by
  rw [commitDaemonConfigs] at h ⊢
  cases hhash : hashConfigs md5 init m.newTransactionState with
  | none => rfl
  | some newState =>
    rw [hhash] at h
    dsimp only at h ⊢
    split
    · rfl
    · split
      · rfl
      · rename_i hequal hopen
        rw [if_neg hequal, if_neg hopen] at h
        exact absurd rfl h

/-- A commit makes the groups of the transaction those of the state that runs. -/
theorem groups_commit {hash : HMHash} {init openBackend : Bool}
    (h : commitDaemonConfigs md5 hash init openBackend m = (.success, m')) (old : HMState) :
    m'.currentState.groups = ((HMState.generateCheckList m.newTransactionState.settings
      m.newTransactionState.groups).restoreRunningCheckState old).hostGroups := by
  obtain ⟨newState, hnew, rfl⟩ := commit_success h
  rw [(HMState.restore_sameConfiguration old _).hostGroups, hashConfigs_eq_some hnew]
  exact groups_generateCheckList _

end Groups

section Hashes

variable (md5 : List UInt8 → Vector UInt8 16)

/-- The stored hash of every group is that of its content. -/
def GroupsTrue (c : ConfigState) : Prop :=
  ∀ name g, c.hostGroups.get? name = some g →
    g.hashValue = (md5 (ConfigHash.getHash g.group)).toList

/-- The hash of a state is that of the streams of its groups in name order. -/
def HashTrue (c : ConfigState) : Prop := c.hash = (md5 (ConfigHash.hashConfigs c.groups)).toList

/-- The groups of the transaction have their hashes, and a commit that succeeds makes a current
state whose groups have theirs and that has its own. -/
def HashesTrue (m : HMStateManager) : Prop :=
  GroupsTrue md5 m.newTransactionState ∧
    ∀ hash init openBackend m', commitDaemonConfigs md5 hash init openBackend m = (.success, m') →
      GroupsTrue md5 m'.currentState ∧ HashTrue md5 m'.currentState

def HashesStayTrue (m : HMStateManager) (es : List Event) : Prop :=
  ∀ es₁ m', es₁ <+: es → Runs.runTrace (step md5) m es₁ = some m' → HashesTrue md5 m'

/-- A group that is added takes the place of one of the transaction, and is hashed. -/
def Overwrites (m : HMStateManager) : Event → Prop
  | .addHostGroup name _ init => m.newTransactionState.hostGroups.contains name = true ∧ init = true
  | _ => True

theorem getHash_prepare (s : Settings) (g : HMDataHostGroup) :
    ConfigHash.getHash (s.prepare g) = ConfigHash.getHash g := by
  rw [Settings.prepare]
  dsimp only
  split
  · rfl
  · rfl

variable {md5} {c : ConfigState} {m m' : HMStateManager}

theorem groupsTrue_generateCheckList (h : GroupsTrue md5 c) :
    GroupsTrue md5 (generateCheckList c) := by
  intro name g hg
  rw [generateCheckList, SortedMap.get?_mapVals, Option.map_eq_some_iff] at hg
  rcases hg with ⟨e, he, rfl⟩
  rw [getHash_prepare]
  exact h name e.2 (by rw [SortedMap.get?, he]; rfl)

theorem hashConfigs_generateCheckList (c : ConfigState) :
    ConfigHash.hashConfigs (generateCheckList c).groups = ConfigHash.hashConfigs c.groups := by
  rw [ConfigState.groups, generateCheckList, SortedMap.mapVals_mapVals, ConfigHash.hashConfigs,
    ConfigState.groups, ConfigHash.hashConfigs, SortedMap.mapVals, SortedMap.mapVals,
    List.flatMap_map, List.flatMap_map]
  simp only [getHash_prepare]

theorem hashed_ne_nil (stream : List UInt8) : ([] : HMHash) ≠ (md5 stream).toList := by
  intro h
  have hlength := congrArg List.length h
  rw [Vector.length_toList] at hlength
  cases hlength

/-- A commit hashes the whole, and keeps the hashes of the groups. -/
theorem commit_true {hash : HMHash} {init openBackend : Bool}
    (h : commitDaemonConfigs md5 hash init openBackend m = (.success, m'))
    (hgroups : GroupsTrue md5 m.newTransactionState) :
    m'.newTransactionState = m'.currentState ∧ GroupsTrue md5 m'.currentState ∧
      HashTrue md5 m'.currentState := by
  obtain ⟨newState, hnew, rfl⟩ := commit_success h
  obtain rfl := hashConfigs_eq_some hnew
  refine ⟨rfl, groupsTrue_generateCheckList hgroups, ?_⟩
  rw [HashTrue, hashConfigs_generateCheckList]
  rfl

/-- Both states have the hashes of their groups. -/
structure Hashed (md5 : List UInt8 → Vector UInt8 16) (m : HMStateManager) : Prop where
  transaction : GroupsTrue md5 m.newTransactionState
  current : GroupsTrue md5 m.currentState

theorem Hashed.hashesTrue (h : Hashed md5 m) : HashesTrue md5 m :=
  ⟨h.transaction, fun _ _ _ _ hcommit => (commit_true hcommit h.transaction).2⟩

theorem overwrites_of_add {name : HMString} {group : HMDataHostGroup} {init : Bool}
    (h : GroupsTrue md5 (addHostGroup md5 init name ⟨group, []⟩ m).newTransactionState) :
    m.newTransactionState.hostGroups.contains name = true ∧ init = true := by
  by_cases hold : m.newTransactionState.hostGroups.contains name = true
  · refine ⟨hold, ?_⟩
    by_contra hinit
    have hgroup := h name ⟨group, []⟩
    simp only [addHostGroup, if_pos hold, SortedMap.get?_modify, eqv_refl, if_true, hashHostGroup,
      hinit] at hgroup
    obtain ⟨g, hg⟩ := Option.isSome_iff_exists.mp (SortedMap.contains_eq _ name ▸ hold)
    exact hashed_ne_nil _ (hgroup (by rw [hg]; rfl))
  · have hgroup := h name ⟨group, []⟩
    have hnone : m.newTransactionState.hostGroups.get? name = none := by
      simpa [SortedMap.contains_eq] using hold
    simp only [addHostGroup, if_neg hold, SortedMap.get?_insert, eqv_refl, if_true, hnone,
      Option.getD_none] at hgroup
    exact absurd (hgroup trivial) (hashed_ne_nil _)

theorem groupsTrue_overwrite {name : HMString} {group : HashedGroup}
    (h : GroupsTrue md5 m.newTransactionState)
    (hold : m.newTransactionState.hostGroups.contains name = true) :
    GroupsTrue md5 (addHostGroup md5 true name group m).newTransactionState := by
  intro name' g hg
  simp only [addHostGroup, if_pos hold, SortedMap.get?_modify, hashHostGroup, if_true] at hg
  split at hg
  · rcases Option.map_eq_some_iff.mp hg with ⟨old, -, rfl⟩
    rfl
  · exact h name' g hg

theorem groupsTrue_remove (h : GroupsTrue md5 m.newTransactionState) (name : HMString) :
    GroupsTrue md5 (removeHostGroup name m).newTransactionState := by
  intro name' g hg
  simp only [removeHostGroup, SortedMap.get?_erase] at hg
  split at hg
  · cases hg
  · exact h name' g hg

theorem hostGroups_getTransConfigHash (init : Bool) :
    (getTransConfigHash md5 init m).newTransactionState.hostGroups =
      m.newTransactionState.hostGroups := by
  cases init <;> rfl

theorem hashed_step {e : Event} (h : Hashed md5 m) (hstep : step md5 m e = some m') :
    (HashesTrue md5 m' → Overwrites m e) ∧ (Overwrites m e → Hashed md5 m') := by
  cases e with
  | addHostGroup name group init =>
    obtain rfl := Option.some.inj hstep
    refine ⟨fun htrue => overwrites_of_add htrue.1, ?_⟩
    rintro ⟨hold, rfl⟩
    exact ⟨groupsTrue_overwrite h.transaction hold, h.current⟩
  | removeHostGroup name =>
    obtain rfl := Option.some.inj hstep
    exact ⟨fun _ => trivial, fun _ => ⟨groupsTrue_remove h.transaction name, h.current⟩⟩
  | clearTransaction =>
    obtain rfl := Option.some.inj hstep
    exact ⟨fun _ => trivial, fun _ => ⟨h.current, h.current⟩⟩
  | getTransConfigHash init =>
    obtain rfl := Option.some.inj hstep
    refine ⟨fun _ => trivial, fun _ => ⟨?_, h.current⟩⟩
    rw [GroupsTrue, hostGroups_getTransConfigHash]
    exact h.transaction
  | commitTransaction hash init openBackend =>
    obtain rfl := Option.some.inj hstep
    refine ⟨fun _ => trivial, fun _ => ?_⟩
    by_cases hsuccess : (commitDaemonConfigs md5 hash init openBackend m).1 = .success
    · obtain ⟨hcopy, hgroups, -⟩ := commit_true (Prod.ext hsuccess rfl) h.transaction
      exact ⟨hcopy ▸ hgroups, hgroups⟩
    · rw [commit_unchanged hsuccess]
      exact h

theorem hostGroups_setupDaemonstate (init : HMString → Bool) (initAll : Bool)
    (settings : Settings) (groups : HMDataHostGroupMap) :
    (setupDaemonstate md5 init initAll settings groups).hostGroups =
      groups.mapVals fun name g => hashHostGroup md5 (init name) ⟨settings.prepare g, []⟩ := by
  have hgroups : (setupDaemonstate md5 init initAll settings groups).hostGroups =
      (hashHostGroupMap md5 init
        (generateCheckList ⟨settings, groups.mapVals fun _ g => ⟨g, []⟩, []⟩)).hostGroups := by
    cases initAll <;> rfl
  rw [hgroups, hashHostGroupMap, generateCheckList, SortedMap.mapVals_mapVals,
    SortedMap.mapVals_mapVals]

theorem groupsTrue_setupDaemonstate (init : HMString → Bool) (initAll : Bool)
    (settings : Settings) (groups : HMDataHostGroupMap) :
    GroupsTrue md5 (setupDaemonstate md5 init initAll settings groups) ↔
      ∀ e ∈ groups.entries, init e.1 = true := by
  rw [GroupsTrue, hostGroups_setupDaemonstate]
  constructor
  · intro h e he
    by_contra hinit
    have hfind : groups.find? e.1 = some e := SortedMap.find?_eq_some.mpr ⟨he, eqv_refl e.1⟩
    have hgroup := h e.1 ⟨settings.prepare e.2, []⟩
    rw [SortedMap.get?_mapVals, hfind, Option.map_some, hashHostGroup, if_neg hinit] at hgroup
    exact hashed_ne_nil _ (hgroup rfl)
  · intro h name g hg
    rw [SortedMap.get?_mapVals, Option.map_eq_some_iff] at hg
    rcases hg with ⟨e, he, rfl⟩
    rw [hashHostGroup, if_pos (h e (SortedMap.mem_of_find? he))]

/-- The hashes of a daemon stay true just if every group was hashed when it was loaded, and
every group that is added takes the place of one of the transaction. -/
theorem transaction_hashes_stay_true_iff (md5 : List UInt8 → Vector UInt8 16)
    (init : HMString → Bool) (initAll : Bool) (settings : Settings) (groups : HMDataHostGroupMap)
    (es : List Event) :
    HashesStayTrue md5 (loadDaemonState md5 init initAll settings groups) es ↔
      (∀ e ∈ groups.entries, init e.1 = true) ∧
        Runs.Along (step md5) Overwrites (loadDaemonState md5 init initAll settings groups) es := by
  have hload : GroupsTrue md5 (setupDaemonstate md5 init initAll settings groups) ↔ _ :=
    groupsTrue_setupDaemonstate init initAll settings groups
  have hrun : (∀ e ∈ groups.entries, init e.1 = true) →
      (HashesStayTrue md5 (loadDaemonState md5 init initAll settings groups) es ↔
        Runs.Along (step md5) Overwrites
          (loadDaemonState md5 init initAll settings groups) es) := by
    intro hinit
    refine Runs.observed_iff_along Hashed.hashesTrue hashed_step ?_
      ⟨hload.mpr hinit, hload.mpr hinit⟩ es
    intro m e hnone
    cases e <;> cases hnone
  constructor
  · intro h
    have hinit := hload.mp (h [] _ List.nil_prefix rfl).1
    exact ⟨hinit, (hrun hinit).mp h⟩
  · rintro ⟨hinit, halong⟩
    exact (hrun hinit).mpr halong

/-- A group that is new to the transaction has no hash, whatever the digest. -/
theorem new_group_has_no_hash :
    ¬ ∃ md5, HashesStayTrue md5 (loadDaemonState md5 (fun _ => true) true .default ∅)
      [.addHostGroup (bytes "web") (.new (bytes "web")) true] := by
  rintro ⟨md5, h⟩
  have hadd := (h [.addHostGroup (bytes "web") (.new (bytes "web")) true] _ List.prefix_rfl rfl).1
  exact Bool.false_ne_true (overwrites_of_add hadd).1

end Hashes

end TransactionHashes
