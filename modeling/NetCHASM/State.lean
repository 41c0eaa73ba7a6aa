import NetCHASM.DataCheckList

/-! The state of the daemon under one configuration, and what a reload carries over from
the state it replaces. The result store is left out: a reload writes to it, and reads from
it only to write to it. -/
namespace NetCHASM

open KeyOrder OrderedMap

/-- The values of the master configuration that decide how checks are carried out. -/
structure Settings where
  dnsLookDefaultPlugin : DnsPluginClass
  dnsStaticDefaultPlugin : DnsPluginClass
  httpDefaultCheckClass : CheckPluginClass
  ftpDefaultCheckClass : CheckPluginClass
  auxDefaultCheckClass : CheckPluginClass
  markDefaultCheckClass : CheckPluginClass
  tcpDefaultCheckClass : CheckPluginClass
  tcpsDefaultCheckClass : CheckPluginClass
  dnsDefaultCheckClass : CheckPluginClass
  noneDefaultCheckClass : CheckPluginClass
  enableSharedConnection : Bool
  enableSecureRemote : Bool
  deriving DecidableEq, Repr

namespace Settings

def default : Settings where
  dnsLookDefaultPlugin := .ares
  dnsStaticDefaultPlugin := .static
  httpDefaultCheckClass := .httpCurl
  ftpDefaultCheckClass := .ftpCurl
  auxDefaultCheckClass := .auxCurl
  markDefaultCheckClass := .markCurl
  tcpDefaultCheckClass := .tcpRaw
  tcpsDefaultCheckClass := .tcpsRaw
  dnsDefaultCheckClass := .dnsAres
  noneDefaultCheckClass := .default
  enableSharedConnection := false
  enableSecureRemote := false

def getDNSPlugin (s : Settings) : DnsType → DnsPluginClass
  | .lookup => s.dnsLookDefaultPlugin
  | .static => s.dnsStaticDefaultPlugin

def remoteCheckType (s : Settings) : RemoteCheckType :=
  if s.enableSecureRemote then if s.enableSharedConnection then .sharedTcps else .tcps
  else if s.enableSharedConnection then .sharedTcp else .tcp

/-- The plugin that a check type is given. -/
def checkPlugin (s : Settings) : CheckType → Option CheckPluginClass
  | .http | .https | .httpsNoPeerCheck | .mtlsHttps | .mtlsHttpsNoPeerCheck =>
    some s.httpDefaultCheckClass
  | .ftp | .ftpsImplicit | .ftpsImplicitNoPeerCheck | .ftpsExplicit | .ftpsExplicitNoPeerCheck =>
    some s.ftpDefaultCheckClass
  | .auxHttp | .auxHttps | .auxHttpsNoPeerCheck | .auxMtlsHttps | .auxMtlsHttpsNoPeerCheck =>
    some s.auxDefaultCheckClass
  | .markHttp | .markHttps | .markHttpsNoPeerCheck => some s.markDefaultCheckClass
  | .tcp => some s.tcpDefaultCheckClass
  | .tcps => some s.tcpsDefaultCheckClass
  | .dns | .dnsvc => some s.dnsDefaultCheckClass
  | .none | .default => some s.noneDefaultCheckClass
  | .invalid => none

/-- Add the plugin and the remote check type to a group. -/
def prepare (s : Settings) (g : HMDataHostGroup) : HMDataHostGroup :=
  let g := { g with checkPlugin := (s.checkPlugin g.checkType).getD g.checkPlugin }
  if g.remoteCheck ≠ [] then { g with remoteCheckType := s.remoteCheckType } else g

end Settings

abbrev HMWaitList := SortedMultimap (HMString × UInt8) HMDataHostCheck

structure HMState where
  settings : Settings
  hostGroups : HMDataHostGroupMap
  checkList : HMDataCheckList
  dnsCache : HMDNSCache
  dnsWaitList : HMWaitList
  remoteCache : HMRemoteHostGroupCache
  remoteHostCache : HMRemoteHostCache
  deriving DecidableEq, Repr

namespace HMState

/-- One entry for every group whose results are fetched as a whole. -/
def generateRemoteCheckList (hostGroups : HMDataHostGroupMap) : HMRemoteHostGroupCache :=
  hostGroups.entries.foldl (fun c e =>
    if e.2.flowType = .remoteHostgroup then
      RemoteCache.insertRemoteEntry c e.1 e.2.checkTTL e.2.checkTimeout
    else c) ∅

/-- A fresh state for the loaded groups; afterwards the check list is guarded. -/
def generateCheckList (settings : Settings) (hostGroups : HMDataHostGroupMap) : HMState :=
  let hostGroups := hostGroups.mapVals fun _ g => settings.prepare g
  let checkList := hostGroups.entries.foldl (fun l e => HMDataCheckList.addHostGroup l e.2) .empty
  { settings := settings
    hostGroups := hostGroups
    checkList := checkList.setGuard true
    dnsCache := checkList.initDNSCache .empty settings.getDNSPlugin
    dnsWaitList := checkList.initWaitList
    remoteCache := generateRemoteCheckList hostGroups
    remoteHostCache := checkList.initRemoteCache ∅ }

/-- The addresses of both families that the cache holds for a check. -/
def dnsAddresses (s : HMState) (h : HMCheckHeader) : SortedSet HMIPAddress :=
  s.dnsCache.bothFamilies h.hostname h.hostCheck.dnsType h.hostCheck.remoteCheck

/-- Whether a result is missing or older than another. -/
def isStale (old : Option HMDataCheckResult) (result : HMDataCheckResult) : Bool :=
  old.all fun r => r.checkTime < result.checkTime

/-- A result as it is carried over: no query is under way. -/
def carried (r : HMDataCheckResult) : HMDataCheckResult := { r with queryState := .inactive }

/-- Carry the result of a check at one address over from `src`. -/
def restoreResult (src : HMState) (h : HMCheckHeader) (dest : HMState) (address : HMIPAddress) :
    HMState :=
  let h := { h with address := address }
  match src.checkList.getCheckResult h with
  | none => dest
  | some result =>
    if isStale (dest.checkList.getCheckResult h) result then
      let key := (h.hostname, h.hostCheck)
      { dest with
        checkList := dest.checkList.updateCheck h (carried result)
        remoteHostCache :=
          if h.hostCheck.flowType = .remoteHost then
            match src.remoteHostCache.get? key with
            | some r => dest.remoteHostCache.updateResultTime key r.resultTime
            | none => dest.remoteHostCache
          else dest.remoteHostCache }
    else dest

/-- The addresses of a check whose results are carried over. -/
def restoredAddresses (src : HMState) (h : HMCheckHeader) : List HMIPAddress :=
  match h.hostCheck.flowType with
  | .dnsHealth => (src.dnsAddresses h).toList
  | .remoteHost =>
    (src.checkList.getCheckResultsAddress h.hostname h.hostCheck h.hostCheck.dualstack).toList
  | .remoteHostgroup => []

/-- Carry the addresses of a DNS-flow check over. A family without an entry has no
addresses either, and its result time is not read. -/
def restoreDNS (src : HMState) (h : HMCheckHeader) (cache : HMDNSCache) : HMDNSCache :=
  let result (ipv6 : Bool) := (src.dnsCache.getDNSResult h.hostname
    (.new h.hostCheck.dnsType ipv6 h.hostCheck.remoteCheck)).getD .default
  cache.updateReloadDNSEntry h.hostname (src.dnsAddresses h) (result false) (result true)
    (.new h.hostCheck.dnsType false h.hostCheck.remoteCheck)

def restoreCheck (src dest : HMState) (h : HMCheckHeader) : HMState :=
  let dest := if h.hostCheck.flowType = .dnsHealth then
      { dest with dnsCache := restoreDNS src h dest.dnsCache }
    else dest
  (restoredAddresses src h).foldl (restoreResult src h) dest

/-- Carry the result time of a remote host group over. -/
def restoreRemoteGroup (src : HMState) (cache : HMRemoteHostGroupCache)
    (e : HMString × HMDataHostGroup) : HMRemoteHostGroupCache :=
  if e.2.flowType = .remoteHostgroup then
    match src.remoteCache.get? e.1 with
    | some r => RemoteCache.updateResultTime cache e.1 r.resultTime
    | none => cache
  else cache

/-- Copy the results of a running state into this one. -/
def restoreRunningCheckState (dest src : HMState) : HMState :=
  let dest := src.checkList.getAllChecks.foldl (restoreCheck src) dest
  { dest with
    remoteCache := dest.hostGroups.entries.foldl (restoreRemoteGroup src) dest.remoteCache
    dnsCache := dest.dnsCache.setStaticDns src.dnsCache.staticDNS }

/-- Two states of the same configuration. -/
structure SameConfiguration (s s' : HMState) : Prop where
  settings : s'.settings = s.settings
  hostGroups : s'.hostGroups = s.hostGroups
  checks : s'.checkList.getAllChecks = s.checkList.getAllChecks

/-- A restore changes results and no configuration. -/
theorem restore_sameConfiguration (src dest : HMState) :
    SameConfiguration dest (dest.restoreRunningCheckState src) := by
  have hresult : ∀ h d a, SameConfiguration dest d →
      SameConfiguration dest (restoreResult src h d a) := by
    intro h d a hd
    unfold restoreResult
    dsimp only
    split
    · exact hd
    · split
      · exact ⟨hd.settings, hd.hostGroups,
          (HMDataCheckList.getAllChecks_updateCheck _ _ _).trans hd.checks⟩
      · exact hd
  have hcheck : ∀ h d, SameConfiguration dest d →
      SameConfiguration dest (restoreCheck src d h) := by
    intro h d hd
    unfold restoreCheck
    refine List.foldlRecOn _ _ ?_ fun d hd a _ => hresult h d a hd
    split
    · exact ⟨hd.settings, hd.hostGroups, hd.checks⟩
    · exact hd
  have hfold : SameConfiguration dest (src.checkList.getAllChecks.foldl (restoreCheck src) dest) :=
    List.foldlRecOn _ _ ⟨rfl, rfl, rfl⟩ fun d hd h _ => hcheck h d hd
  exact ⟨hfold.settings, hfold.hostGroups, hfold.checks⟩

/-- The lookups of a check, one for each address family it uses. -/
def checkLookups (s : HMState) (hostCheck : HMDataHostCheck) : List HMDNSLookup :=
  hostCheck.dualstack.families.map fun ipv6 =>
    ⟨hostCheck.dnsType, ipv6, hostCheck.remoteCheck, s.settings.getDNSPlugin hostCheck.dnsType⟩

/-- Queue the lookups whose time to live has grown. -/
def resheduleDNSChecks (s src : HMState) : HMState × List DnsWork :=
  let lookups := s.checkList.getAllChecks.flatMap fun h =>
    (s.checkLookups h.hostCheck).map fun l => (h.hostname, l)
  let r := lookups.foldl (fun acc (l : DNSKey) =>
    match src.dnsCache.getDNSResult l.1 l.2, acc.1.getDNSResult l.1 l.2 with
    | some old, some new =>
      if old.dnsTimeout < new.dnsTimeout then
        let r := acc.1.queueDNSQuery l.1 l.2
        (r.1, acc.2 ++ r.2)
      else acc
    | _, _ => acc) (s.dnsCache, [])
  ({ s with dnsCache := r.1 }, r.2)

/-- The elements of the first range that the merge of the two ranges does not find in the
second; the ranges are taken to be sorted. -/
def setDifference : List HMString → List HMString → List HMString
  | [], _ => []
  | x :: xs, ys =>
    match ys.dropWhile fun y => decide (y < x) with
    | [] => x :: setDifference xs []
    | y :: ys => if x < y then x :: setDifference xs (y :: ys) else setDifference xs ys

/-- The hosts of a group that are checked again: the added ones if nothing else changed. -/
def hostsToReschedule (g : HMDataHostGroup) (old : Option HMDataHostGroup) : List HMString :=
  match old with
  | none => g.hosts
  | some o =>
    if (o.getHostCheck.getD .default).beq (g.getHostCheck.getD .default) &&
        decide (o.getCheckParameters = g.getCheckParameters) then
      setDifference g.hosts o.hosts
    else g.hosts

/-- Queue the health checks that the new configuration changes. -/
def resheduleHealthChecks (s src : HMState) : HMState × List HealthWork :=
  let checks := s.hostGroups.entries.flatMap fun e =>
    let check := e.2.getHostCheck.getD .default
    (hostsToReschedule e.2 (src.hostGroups.get? e.1)).flatMap fun host =>
      (s.dnsCache.getAddresses host check.dualstack
        (.new check.dnsType false check.remoteCheck)).toList.map fun address =>
          (host, address, check)
  let r := checks.foldl (fun acc c =>
    let r := acc.1.queueCheck c.1 c.2.1 c.2.2
    (r.1, acc.2 ++ r.2)) (s.checkList, [])
  ({ s with checkList := r.1 }, r.2)

/-- Queue the lookups of the given hosts under a group's check. -/
def forceLookups (s : HMState) (hosts : List HMString) (hostCheck : HMDataHostCheck) :
    HMState × List DnsWork :=
  let lookups := hosts.flatMap fun host => (s.checkLookups hostCheck).map fun l => (host, l)
  let r := lookups.foldl (fun acc (l : DNSKey) =>
    let r := acc.1.queueDNSQuery l.1 l.2
    (r.1, acc.2 ++ r.2)) (s.dnsCache, [])
  ({ s with dnsCache := r.1 }, r.2)

/-- Force the lookups of a group, or of one host under a group. -/
def forceDNSCheck (s : HMState) (hostGroup : HMString) (hostName : Option HMString) :
    HMState × List DnsWork :=
  match s.hostGroups.get? hostGroup with
  | none => (s, [])
  | some g =>
    match g.getHostCheck with
    | none => (s, [])
    | some check => s.forceLookups (hostName.elim g.hosts fun host => [host]) check

/-- Check a host at one of its addresses; at a blank one its lookup is forced instead. -/
def forceAddress (g : HMDataHostGroup) (check : HMDataHostCheck) (host : HMString)
    (acc : HMState × List DnsWork × List HealthWork) (address : HMIPAddress) :
    HMState × List DnsWork × List HealthWork :=
  if address.isBlank then
    let r := acc.1.dnsCache.queueDNSQuery host
      (.new check.dnsType (address == .ofType afInet6) g.remoteCheck)
    ({ acc.1 with dnsCache := r.1 }, acc.2.1 ++ r.2, acc.2.2)
  else
    let r := acc.1.checkList.queueCheck host address check
    ({ acc.1 with checkList := r.1 }, acc.2.1, acc.2.2 ++ r.2)

def forceHost (g : HMDataHostGroup) (check : HMDataHostCheck)
    (acc : HMState × List DnsWork × List HealthWork) (host : HMString) :
    HMState × List DnsWork × List HealthWork :=
  (acc.1.dnsCache.getAddresses host check.dualstack
    (.new check.dnsType false g.remoteCheck)).toList.foldl (forceAddress g check host) acc

/-- Force the health checks of a group, or of one host under a group. -/
def forceHealthCheck (s : HMState) (hostGroup : HMString) (hostName : Option HMString) :
    HMState × List DnsWork × List HealthWork :=
  match s.hostGroups.get? hostGroup with
  | none => (s, [], [])
  | some g =>
    match g.getHostCheck with
    | none => (s, [], [])
    | some check =>
      (hostName.elim g.hosts fun host => [host]).foldl (forceHost g check) (s, [], [])

end HMState

end NetCHASM
