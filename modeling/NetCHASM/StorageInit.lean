import NetCHASM.State
import NetCHASM.StorageHostGroup

/-! The start of the daemon on the backend of an earlier run. The configuration is written
first; then the stored results are read, compared with the stored groups and taken over. -/
namespace NetCHASM

open KeyOrder OrderedMap

abbrev HMAuxKey := HMString × HMIPAddress × HMString

abbrev HMAuxCache := SortedMap HMAuxKey HMAuxInfo

def HMAuxCache.updateAuxInfo (c : HMAuxCache) (hostname sourceURL : HMString)
    (address : HMIPAddress) (auxInfo : HMAuxInfo) : HMAuxCache :=
  c.set (hostname, address, sourceURL) auxInfo

namespace HMStorageHostGroup

def storeGroupInfo (s : HMStorageHostGroup) (name : HMString) (g : HMDataHostGroup) :
    HMStorageHostGroup :=
  if s.readonly || s.shutdown then s
  else { s with backend := { s.backend with groupInfo := s.backend.groupInfo.set name g } }

/-- Write the names of all groups; a copy from an empty name is out of range. -/
def storeHostGroupNames (s : HMStorageHostGroup) (groupNames : List HMString) :
    Option HMStorageHostGroup :=
  if s.readonly || s.shutdown then some s
  else if [] ∈ groupNames then none
  else some { s with backend := { s.backend with groupNames := some (groupNames.map strncpy) } }

def storeConfigs (s : HMStorageHostGroup) (hostGroups : HMDataHostGroupMap) :
    Option HMStorageHostGroup :=
  (hostGroups.entries.foldl (fun s e => s.storeGroupInfo e.1 e.2) s).storeHostGroupNames
    hostGroups.keys

def getHostGroupNames (s : HMStorageHostGroup) : Fetch (SortedSet HMString) :=
  if s.shutdown then .missing
  else
    match s.backend.groupNames with
    | none => .missing
    | some names =>
      if [] ∈ names then .raised else .found (SortedSet.insertAll ∅ (names.map strncpy))

def getGroupInfo (s : HMStorageHostGroup) (name : HMString) : Fetch HMDataHostGroup :=
  if s.shutdown then .missing
  else
    match s.backend.groupInfo.get? name with
    | none => .missing
    | some g => g.restore

/-- Whether the stored group differs from the configured one; a group that is not stored
counts as unchanged. -/
def isChanged (s : HMStorageHostGroup) (name : HMString) (g : HMDataHostGroup) : Option Bool :=
  match s.getGroupInfo name with
  | .found stored => some (!g.beq stored)
  | .missing => some false
  | .raised => none

end HMStorageHostGroup

/-- Bring in the records of the named groups. -/
def fetchGroups {ρ : Type} (load : HMString → Fetch (List (GroupEntry ρ))) :
    List HMString → GroupCache ρ → Option (GroupCache ρ)
  | [], cache => some cache
  | name :: names, cache =>
    match load name with
    | .found results => fetchGroups load names (cache.insertAll name results)
    | .missing => fetchGroups load names cache
    | .raised => none

/-- The loop that purges the stored check results: the store, the results kept so far, and
what is gathered from them. -/
structure Purge where
  store : HMStorageHostGroup
  checkList : HMDataCheckList
  backendChecks : List (HMString × HMGroupCheckResult)
  healthCheckUpdateList : SortedSet HMString
  dnsMap : SortedMap DNSKey (SortedSet HMIPAddress)
  dnsResTimeMap : SortedMap DNSKey HMTimeStamp
  deriving DecidableEq, Repr

namespace Purge

/-- Save the address of a result, with the time of the first one for its lookup. -/
def saveAddress (p : Purge) (g : HMDataHostGroup) (r : HMGroupCheckResult) : Purge :=
  let key : DNSKey := (r.hostName, .new g.dnsType (r.address.getType == afInet6) g.remoteCheck)
  { p with
    dnsMap := (p.dnsMap.insert key ∅).modify key fun addresses => addresses.insert r.address ()
    dnsResTimeMap := p.dnsResTimeMap.insert key r.payload.checkTime }

/-- The address is of a family that the group does not use. -/
def isOtherFamily (g : HMDataHostGroup) (address : HMIPAddress) : Bool :=
  (address.getType = afInet && g.dualstack = .ipv6Only) ||
    (address.getType = afInet6 && g.dualstack = .ipv4Only)

/-- The results of a changed group are dropped, its addresses saved. The loop over the
remaining results of the group saves the address of the current one each time. -/
def saveAddresses (p : Purge) (g : HMDataHostGroup) (e : HMString × HMGroupCheckResult)
    (rest : List (HMString × HMGroupCheckResult)) : Purge :=
  let range := (p.backendChecks ++ e :: rest).filter fun x => x.1 = e.1
  range.foldl (fun p x => if isOtherFamily g x.2.address then p else p.saveAddress g e.2) p

/-- Give the check list a stored result under the check of the configured group. -/
def updateCheck (l : HMDataCheckList) (g : HMDataHostGroup) (r : HMGroupCheckResult) :
    HMDataCheckList :=
  if g.flowType ≠ .remoteHostgroup then
    l.updateCheck ⟨r.hostName, r.address, g.getHostCheck.getD .default, g.getCheckParameters⟩
      r.payload
  else l

/-- One result of the loop, with those that follow it. -/
def purgeCheck (hostGroupMap : HMDataHostGroupMap) (p : Purge) (e : HMString × HMGroupCheckResult)
    (rest : List (HMString × HMGroupCheckResult)) : Option Purge :=
  match hostGroupMap.get? e.1 with
  | none => some { p with store := p.store.removeHostGroupCheckResults e.1 }
  | some g =>
    match p.store.isChanged e.1 g with
    | none => none
    | some true =>
      some { p.saveAddresses g e rest with store := p.store.removeHostGroupCheckResults e.1 }
    | some false =>
      if g.isValidHost e.2.hostName then
        some { p.saveAddress g e.2 with
          checkList := updateCheck p.checkList g e.2
          backendChecks := p.backendChecks ++ [e] }
      else some { p with healthCheckUpdateList := p.healthCheckUpdateList.insert e.1 () }

def purgeChecks (hostGroupMap : HMDataHostGroupMap) (p : Purge) :
    List (HMString × HMGroupCheckResult) → Option Purge
  | [] => some p
  | e :: rest =>
    match p.purgeCheck hostGroupMap e rest with
    | none => none
    | some p => p.purgeChecks hostGroupMap rest

/-- Give the DNS cache the saved addresses of one lookup. -/
def updateDNS (dnsResTimeMap : SortedMap DNSKey HMTimeStamp) (cache : HMDNSCache)
    (e : DNSKey × SortedSet HMIPAddress) : HMDNSCache :=
  if e.1.2.remoteCheckGroup ≠ [] then cache
  else
    let time := (dnsResTimeMap.get? e.1).getD 0
    let result (ipv6 : Bool) : HMDNSResult :=
      { HMDNSResult.default with resultTime := if e.1.2.ipv6 = ipv6 then time else 0 }
    cache.updateReloadDNSEntry e.1.1 e.2 (result false) (result true) e.1.2

end Purge

/-- The aux records that are kept, and the groups that lost one to a removed host. -/
def purgeAux (hostGroupMap : HMDataHostGroupMap) (s : HMStorageHostGroup) :
    List (HMString × HMGroupAuxResult) →
      Option (List (HMString × HMGroupAuxResult) × SortedSet HMString)
  | [] => some ([], ∅)
  | e :: rest =>
    match hostGroupMap.get? e.1 with
    | none => purgeAux hostGroupMap s rest
    | some g =>
      match s.isChanged e.1 g, purgeAux hostGroupMap s rest with
      | some true, some r => some r
      | some false, some r =>
        if g.isValidHost e.2.hostName then some (e :: r.1, r.2) else some (r.1, r.2.insert e.1 ())
      | _, _ => none

/-- The state of the daemon with the parts that only the start and the store use. -/
structure DaemonState where
  state : HMState
  auxCache : HMAuxCache
  store : HMStorageHostGroup
  deriving DecidableEq, Repr

namespace DaemonState

/-- Take over one of the check results that are kept. -/
def takeCheck (d : DaemonState) (e : HMString × HMGroupCheckResult) : DaemonState :=
  match d.state.hostGroups.get? e.1 with
  | none => d
  | some g =>
    { d with
      state := { d.state with
        checkList := Purge.updateCheck d.state.checkList g e.2
        remoteCache :=
          if g.flowType = .remoteHostgroup then
            RemoteCache.updateResultTime d.state.remoteCache e.1 e.2.payload.checkTime
          else d.state.remoteCache
        remoteHostCache :=
          if g.flowType = .remoteHost then
            d.state.remoteHostCache.updateResultTime
              (e.2.hostName, g.getHostCheck.getD .default) e.2.payload.checkTime
          else d.state.remoteHostCache }
      store := { d.store with hostGroupResults := d.store.hostGroupResults.insert e.1 e.2 } }

/-- Take over one of the aux records that are kept. -/
def takeAux (d : DaemonState) (e : HMString × HMGroupAuxResult) : DaemonState :=
  match d.state.hostGroups.get? e.1 with
  | none => d
  | some g =>
    { d with
      auxCache := HMAuxCache.updateAuxInfo d.auxCache e.2.hostName g.checkInfo e.2.address e.2.payload
      store := { d.store with hostGroupAux := d.store.hostGroupAux.insert e.1 e.2 } }

/-- The caches and queues of the store are emptied before the results are read. -/
def clearStore (s : HMStorageHostGroup) : HMStorageHostGroup :=
  { s with
    shutdown := false
    hostGroupResults := ∅
    hostGroupAux := ∅
    storeCheckQueue := []
    storeAuxQueue := [] }

/-- The groups whose records are read: none if there is no list of names. -/
def groupNames (s : HMStorageHostGroup) : Option (List HMString) :=
  match s.getHostGroupNames with
  | .found names => some names.toList
  | .missing => some []
  | .raised => none

def initResultsFromBackend (d : DaemonState) : Option DaemonState :=
  if d.store.readonly then some d
  else do
    let hostGroupMap := d.state.hostGroups
    let store := clearStore d.store
    let names ← groupNames store
    let backendChecks ← fetchGroups store.fetchCheckResults names ∅
    let backendAux ← fetchGroups store.fetchAuxInfo names ∅
    let p ← Purge.purgeChecks hostGroupMap ⟨store, d.state.checkList, [], ∅, ∅, ∅⟩
      backendChecks.entries
    let aux ← purgeAux hostGroupMap p.store backendAux.entries
    let dnsCache := p.dnsMap.entries.foldl (Purge.updateDNS p.dnsResTimeMap) d.state.dnsCache
    let d : DaemonState :=
      { d with
        state := { d.state with checkList := p.checkList, dnsCache := dnsCache }
        store := p.store }
    let d := aux.1.foldl takeAux (p.backendChecks.foldl takeCheck d)
    let store := p.healthCheckUpdateList.toList.foldl
      HMStorageHostGroup.storeHostGroupCheckResults d.store
    let store := aux.2.toList.foldl HMStorageHostGroup.storeHostGroupAuxInfo store
    some { d with store := store }

/-- A load of the configuration on an opened store; the results of the last run are taken
over at its end. -/
def loadDaemonState (store : HMStorageHostGroup) (settings : Settings)
    (hostGroups : HMDataHostGroupMap) : Option DaemonState := do
  let state := HMState.generateCheckList settings hostGroups
  let store ← store.storeConfigs state.hostGroups
  initResultsFromBackend ⟨state, ∅, store⟩

end DaemonState

end NetCHASM
