import NetCHASM.DNSCache
import NetCHASM.StorageRecords
import Mathlib.Data.List.Dedup

/-! The host-group store over the record backend: its result caches, the two queues of
updates, the commits that move an update into a cache and a cache into the backend, and
the reads. Locks are not modelled; a commit is cut where it calls the backend, since the
shutdown flag may change there. Check results and aux info share one set of definitions. -/
namespace NetCHASM

open KeyOrder OrderedMap

/-- The configuration and addresses the store looks at. -/
structure StoreEnv where
  hostGroupMap : HMDataHostGroupMap
  dnsCache : HMDNSCache
  deriving DecidableEq, Repr

abbrev GroupCache (ρ : Type) := SortedMultimap HMString (GroupEntry ρ)

structure HMStorageHostGroup where
  readonly : Bool
  shutdown : Bool
  healthCheckCommitPolicy : StorageCommitPolicy
  auxCommitPolicy : StorageCommitPolicy
  storeCheckQueue : List HMGroupCheckUpdate
  storeAuxQueue : List HMGroupAuxUpdate
  hostGroupResults : GroupCache HMDataCheckResult
  hostGroupAux : GroupCache HMAuxInfo
  backend : Backend
  deriving DecidableEq, Repr

section Groups

variable {ρ σ : Type}

/-- An entry takes an update for its host at its address, or for its host if its own
address is still blank. -/
def GroupUpdate.concerns (u : GroupUpdate ρ) (e : GroupEntry ρ) : Bool :=
  e.hostName = u.hostName && (e.address = u.address ||
    (u.address.getType = afInet6 && e.address = .ofType afInet6) ||
    (u.address.getType = afInet && e.address = .ofType afInet))

/-- The entry after an update; `stamp` sets the address inside the payload. -/
def GroupUpdate.replace (stamp : HMIPAddress → ρ → ρ) (u : GroupUpdate ρ) (e : GroupEntry ρ) :
    GroupEntry ρ :=
  { e with address := u.address, payload := stamp u.address u.payload, backendStale := true }

def GroupUpdate.isKnown (u : GroupUpdate ρ) (cache : GroupCache ρ) : Bool :=
  (cache.range u.hostGroup).any u.concerns

def GroupUpdate.applyTo (stamp : HMIPAddress → ρ → ρ) (u : GroupUpdate ρ) (now : HMTimeStamp)
    (cache : GroupCache ρ) : GroupCache ρ :=
  if u.isKnown cache then cache.modifyFirst u.hostGroup u.concerns (u.replace stamp)
  else cache.insert u.hostGroup ⟨u.hostName, u.address, false, now, u.payload⟩

theorem GroupUpdate.range_applyTo (stamp : HMIPAddress → ρ → ρ) (u : GroupUpdate ρ) (now : HMTimeStamp)
    (cache : GroupCache ρ) (g : HMString) :
    (u.applyTo stamp now cache).range g =
      if u.hostGroup = g then
        if u.isKnown cache then
          SortedMultimap.modifyFirstVal u.concerns (u.replace stamp) (cache.range g)
        else cache.range g ++ [⟨u.hostName, u.address, false, now, u.payload⟩]
      else cache.range g := by
  have heqv : eqv u.hostGroup g = true ↔ u.hostGroup = g := eqv_iff_eq
  unfold GroupUpdate.applyTo
  split
  · rw [SortedMultimap.range_modifyFirst]
    simp [heqv]
  · rw [SortedMultimap.range_insert]
    simp [heqv]

/-- The host names with an entry in the group once the update is applied. -/
def hostsReporting (u : GroupUpdate ρ) (cache : GroupCache ρ) : List HMString :=
  (((cache.range u.hostGroup).map fun e => e.hostName) ++
    if u.isKnown cache then [] else [u.hostName]).dedup

def allStale (entries : List (GroupEntry ρ)) : Bool := entries.all fun e => e.backendStale

def oldestCommit (entries : List (GroupEntry ρ)) (now : HMTimeStamp) : HMTimeStamp :=
  entries.foldl (fun t e => if e.commitTime < t then e.commitTime else t) now

/-- Whether the commit policy asks for the group to be written. -/
def commitDue (policy : StorageCommitPolicy) (g : HMDataHostGroup) (u : GroupUpdate ρ)
    (coldStart stale : Bool) (oldest now : HMTimeStamp) : Bool :=
  coldStart || match policy with
    | .always => true
    | .onFirst => g.hosts.head? = some u.hostName
    | .onAllReady => stale
    | .onTtl => decide (g.checkTTL < now.minus oldest)

/-- The address of an update counts for a DNS-flow group only while the cache holds it. -/
def StoreEnv.accepts (env : StoreEnv) (g : HMDataHostGroup) (u : GroupUpdate ρ) : Bool :=
  env.dnsCache.isValidAddress u.hostName g.dualstack
    (.new g.dnsType (u.address.getType == afInet6) g.remoteCheck) u.address ||
    decide (g.flowType ≠ .dnsHealth)

/-- How far a commit got with the update it popped. -/
inductive CommitOutcome where
  | idle
  | unknownGroup
  | applied
  | write (group : HMString)
  deriving DecidableEq, Repr

/-- The boolean a commit returns. -/
def CommitOutcome.result : CommitOutcome → Bool
  | .idle | .unknownGroup => false
  | .applied | .write _ => true

/-- Apply a popped update to its cache and decide whether to write the group. -/
def commitUpdate (env : StoreEnv) (policy : StorageCommitPolicy) (needAllHosts : Bool)
    (stamp : HMIPAddress → ρ → ρ) (now : HMTimeStamp) (u : GroupUpdate ρ)
    (cache : GroupCache ρ) : GroupCache ρ × CommitOutcome :=
  match env.hostGroupMap.get? u.hostGroup with
  | none => (cache, .unknownGroup)
  | some g =>
    if !env.accepts g u then (cache, .applied)
    else
      let cache' := u.applyTo stamp now cache
      let coldStart := !u.isKnown cache
      let seen := if coldStart then cache.range u.hostGroup else cache'.range u.hostGroup
      if needAllHosts && decide ((hostsReporting u cache).length < g.hosts.length) then
        (cache', .applied)
      else if commitDue policy g u coldStart (allStale seen) (oldestCommit seen now) now then
        (cache', .write u.hostGroup)
      else (cache', .applied)

/-- After a commit every entry of the group counts as written. -/
def markCommitted (group : HMString) (now : HMTimeStamp) (cache : GroupCache ρ) : GroupCache ρ :=
  cache.modify group fun e => { e with backendStale := false, commitTime := now }

/-- The record of a group, unless one of its hosts has no name. -/
def groupRecord (ser : ρ → σ) (entries : List (GroupEntry ρ)) : Option (List (StoredEntry σ)) :=
  if entries.any fun e => e.hostName = [] then none
  else some (entries.map fun e => e.store ser)

theorem groupRecord_of_named (ser : ρ → σ) {entries : List (GroupEntry ρ)}
    (hnamed : ∀ e ∈ entries, e.hostName ≠ []) :
    groupRecord ser entries = some (entries.map fun e => e.store ser) := by
  rw [groupRecord, if_neg]
  simpa using hnamed

/-- Read a group record back. -/
def readRecord (de : σ → ρ) (record : Option (List (StoredEntry σ))) :
    Fetch (List (GroupEntry ρ)) :=
  match record with
  | none => .missing
  | some es =>
    match es.mapM fun e => e.fetch de with
    | some rs => .found rs
    | none => .raised

/-- A read through the cache drops the entries of the group and takes those of the backend. -/
def refresh (group : HMString) (results : List (GroupEntry ρ)) (cache : GroupCache ρ) :
    GroupCache ρ :=
  (cache.erase group).insertAll group results

/-- Refresh a group through the cache when its record can be loaded. -/
def refreshGroup (load : HMString → Fetch (List (GroupEntry ρ))) (group : HMString)
    (cache : GroupCache ρ) : GroupCache ρ × Fetch Unit :=
  match load group with
  | .found results => (refresh group results cache, .found ())
  | .missing => (cache, .missing)
  | .raised => (cache, .raised)

def isEntryOf (hostname : HMString) (address : HMIPAddress) (e : GroupEntry ρ) : Bool :=
  e.address = address && e.hostName = hostname

/-- Refresh one group after the other until one of them has the wanted entry. -/
def lookupThrough (load : HMString → Fetch (List (GroupEntry ρ))) (wanted : GroupEntry ρ → Bool) :
    List HMString → GroupCache ρ → GroupCache ρ × Fetch ρ
  | [], cache => (cache, .missing)
  | group :: groups, cache =>
    match refreshGroup load group cache with
    | (cache, .found _) =>
      match (cache.range group).find? wanted with
      | some e => (cache, .found e.payload)
      | none => lookupThrough load wanted groups cache
    | (cache, .missing) => lookupThrough load wanted groups cache
    | (cache, .raised) => (cache, .raised)

end Groups

namespace HMStorageHostGroup

/-- An update of a check result also sets the address stored in the result. -/
def stampResult (address : HMIPAddress) (r : HMDataCheckResult) : HMDataCheckResult :=
  { r with address := address }

def stampAux (_ : HMIPAddress) (a : HMAuxInfo) : HMAuxInfo := a

def storeCheckResult (s : HMStorageHostGroup) (hostname : HMString) (address : HMIPAddress)
    (hostGroups : List HMString) (result : HMDataCheckResult) : HMStorageHostGroup :=
  if s.readonly then s
  else { s with
    storeCheckQueue := s.storeCheckQueue ++
      hostGroups.map fun g => ⟨g, hostname, address, result⟩ }

def storeAuxInfo (s : HMStorageHostGroup) (hostname : HMString) (address : HMIPAddress)
    (hostGroups : List HMString) (info : HMAuxInfo) : HMStorageHostGroup :=
  if s.readonly then s
  else { s with
    storeAuxQueue := s.storeAuxQueue ++ hostGroups.map fun g => ⟨g, hostname, address, info⟩ }

/-- Write the cached check results of a group; nothing is written to a read-only or
closed store. -/
def storeHostGroupCheckResults (s : HMStorageHostGroup) (group : HMString) : HMStorageHostGroup :=
  if s.readonly || s.shutdown then s
  else
    match groupRecord HMDataCheckResult.serialize (s.hostGroupResults.range group) with
    | none => s
    | some record =>
      { s with backend := { s.backend with checks := s.backend.checks.set group record } }

def storeHostGroupAuxInfo (s : HMStorageHostGroup) (group : HMString) : HMStorageHostGroup :=
  if s.readonly || s.shutdown then s
  else
    match groupRecord HMAuxInfo.stored (s.hostGroupAux.range group) with
    | none => s
    | some record =>
      { s with backend := { s.backend with aux := s.backend.aux.set group record } }

@[simp] theorem results_storeHostGroupCheckResults (s : HMStorageHostGroup)
    (group : HMString) :
    (s.storeHostGroupCheckResults group).hostGroupResults = s.hostGroupResults := by
  rw [storeHostGroupCheckResults]
  split
  · rfl
  · split <;> rfl

@[simp] theorem aux_storeHostGroupCheckResults (s : HMStorageHostGroup)
    (group : HMString) :
    (s.storeHostGroupCheckResults group).hostGroupAux = s.hostGroupAux := by
  rw [storeHostGroupCheckResults]
  split
  · rfl
  · split <;> rfl

@[simp] theorem results_storeHostGroupAuxInfo (s : HMStorageHostGroup)
    (group : HMString) :
    (s.storeHostGroupAuxInfo group).hostGroupResults = s.hostGroupResults := by
  rw [storeHostGroupAuxInfo]
  split
  · rfl
  · split <;> rfl

@[simp] theorem aux_storeHostGroupAuxInfo (s : HMStorageHostGroup)
    (group : HMString) :
    (s.storeHostGroupAuxInfo group).hostGroupAux = s.hostGroupAux := by
  rw [storeHostGroupAuxInfo]
  split
  · rfl
  · split <;> rfl

def removeHostGroupCheckResults (s : HMStorageHostGroup) (group : HMString) :
    HMStorageHostGroup :=
  if s.readonly || s.shutdown then s
  else { s with backend := { s.backend with checks := s.backend.checks.erase group } }

/-- The first part of a health-check commit, up to the call of the backend. -/
def beginHealthCheck (s : HMStorageHostGroup) (env : StoreEnv) (now : HMTimeStamp) :
    HMStorageHostGroup × CommitOutcome :=
  match s.storeCheckQueue with
  | [] => (s, .idle)
  | u :: queue =>
    let r := commitUpdate env s.healthCheckCommitPolicy true stampResult now u s.hostGroupResults
    ({ s with storeCheckQueue := queue, hostGroupResults := r.1 }, r.2)

def finishHealthCheck (s : HMStorageHostGroup) (group : HMString) (now : HMTimeStamp) :
    HMStorageHostGroup :=
  let s := s.storeHostGroupCheckResults group
  { s with hostGroupResults := markCommitted group now s.hostGroupResults }

def commitHealthCheck (s : HMStorageHostGroup) (env : StoreEnv) (now : HMTimeStamp) :
    HMStorageHostGroup × Bool :=
  match s.beginHealthCheck env now with
  | (s', .write group) => (s'.finishHealthCheck group now, true)
  | (s', o) => (s', o.result)

/-- The aux commit does not wait for all hosts to report. -/
def beginAuxInfo (s : HMStorageHostGroup) (env : StoreEnv) (now : HMTimeStamp) :
    HMStorageHostGroup × CommitOutcome :=
  match s.storeAuxQueue with
  | [] => (s, .idle)
  | u :: queue =>
    let r := commitUpdate env s.auxCommitPolicy false stampAux now u s.hostGroupAux
    ({ s with storeAuxQueue := queue, hostGroupAux := r.1 }, r.2)

def finishAuxInfo (s : HMStorageHostGroup) (group : HMString) (now : HMTimeStamp) :
    HMStorageHostGroup :=
  let s := s.storeHostGroupAuxInfo group
  { s with hostGroupAux := markCommitted group now s.hostGroupAux }

def commitAuxInfo (s : HMStorageHostGroup) (env : StoreEnv) (now : HMTimeStamp) :
    HMStorageHostGroup × Bool :=
  match s.beginAuxInfo env now with
  | (s', .write group) => (s'.finishAuxInfo group now, true)
  | (s', o) => (s', o.result)

/-- The check results of a group as the backend holds them. -/
def fetchCheckResults (s : HMStorageHostGroup) (group : HMString) :
    Fetch (List HMGroupCheckResult) :=
  if s.shutdown then .missing
  else readRecord HMDataCheckResult.deserialize (s.backend.checks.get? group)

def fetchAuxInfo (s : HMStorageHostGroup) (group : HMString) : Fetch (List HMGroupAuxResult) :=
  if s.shutdown then .missing else readRecord id (s.backend.aux.get? group)

/-- What a refresh of the check results of a group loads: only configured groups count. -/
def loadCheckResults (s : HMStorageHostGroup) (env : StoreEnv) (group : HMString) :
    Fetch (List HMGroupCheckResult) :=
  match s.fetchCheckResults group with
  | .found results => if env.hostGroupMap.contains group then .found results else .missing
  | .missing => .missing
  | .raised => .raised

/-- Look a host and address up in the groups of a check, refreshing each on the way. -/
def getCheckResult (s : HMStorageHostGroup) (env : StoreEnv) (hostname : HMString)
    (address : HMIPAddress) (hostGroups : List HMString) :
    HMStorageHostGroup × Fetch HMDataCheckResult :=
  let r := lookupThrough (s.loadCheckResults env) (isEntryOf hostname address) hostGroups
    s.hostGroupResults
  ({ s with hostGroupResults := r.1 }, r.2)

def getAuxInfo (s : HMStorageHostGroup) (hostname : HMString) (address : HMIPAddress)
    (hostGroups : List HMString) : HMStorageHostGroup × Fetch HMAuxInfo :=
  let r := lookupThrough s.fetchAuxInfo (isEntryOf hostname address) hostGroups s.hostGroupAux
  ({ s with hostGroupAux := r.1 }, r.2)

/-- The results of a group through the cache; unresolved ones are left out on request. -/
def getGroupCheckResults (s : HMStorageHostGroup) (env : StoreEnv) (group : HMString)
    (onlyResolved : Bool) : HMStorageHostGroup × Fetch (List HMGroupCheckResult) :=
  let r := refreshGroup (s.loadCheckResults env) group s.hostGroupResults
  ({ s with hostGroupResults := r.1 }, r.2.map fun _ =>
    (r.1.range group).filter fun e => !onlyResolved ||
      (e.payload.response ≠ .dnsFailed && e.payload.response ≠ .none))

/-- The aux info of a group through the cache; a record that is missing is not reported. -/
def getGroupAuxInfo (s : HMStorageHostGroup) (group : HMString) (onlyResolved : Bool) :
    HMStorageHostGroup × Fetch (List HMGroupAuxResult) :=
  let r := refreshGroup s.fetchAuxInfo group s.hostGroupAux
  let results := (r.1.range group).filter fun e => !onlyResolved ||
    (e.address.getType = afInet6 && e.address ≠ .ofType afInet6) ||
    (e.address.getType = afInet && e.address ≠ .ofType afInet)
  ({ s with hostGroupAux := r.1 }, if r.2 = .raised then .raised else .found results)

end HMStorageHostGroup

/-- A store opened for writing on a backend. -/
def HMStorageHostGroup.openStore (healthCheckCommitPolicy auxCommitPolicy : StorageCommitPolicy)
    (backend : Backend) : HMStorageHostGroup where
  readonly := false
  shutdown := false
  healthCheckCommitPolicy := healthCheckCommitPolicy
  auxCommitPolicy := auxCommitPolicy
  storeCheckQueue := []
  storeAuxQueue := []
  hostGroupResults := ∅
  hostGroupAux := ∅
  backend := backend

/-- A store with one commit policy, opened on an empty backend. -/
def HMStorageHostGroup.opened (policy : StorageCommitPolicy) : HMStorageHostGroup :=
  .openStore policy policy ⟨none, ∅, ∅, ∅⟩

/-- One group of one host, resolved to one address. -/
def StoreEnv.oneHost : StoreEnv where
  hostGroupMap := SortedMap.empty.insert (bytes "web")
    { HMDataHostGroup.new (bytes "web") with hosts := [bytes "a"] }
  dnsCache := (HMDNSCache.empty.insertDNSEntry (bytes "a") (.new .lookup false []) 0 0).updateDNSEntry
    (bytes "a") (.new .lookup false []) (SortedMap.empty.insert (.v4 1) ())

end NetCHASM
