import NetCHASM.State

/-! The running daemon: the current state, the queue of works and the heap of timeouts. A
work is carried out at once, with one reading of the clock, and health checks are only
queued. -/
namespace NetCHASM

open KeyOrder OrderedMap

inductive Work where
  | dnsLookup (w : DnsWork)
  | healthCheck (w : HealthWork)
  | remoteCheck (w : RemoteWork)
  | remoteHostCheck (w : RemoteWork)
  deriving DecidableEq, Repr

inductive Timeout where
  | dns (t : DnsTimeout)
  | remoteCheck (name : HMString) (time : HMTimeStamp)
  | remoteHostCheck (key : RemoteHostKey) (time : HMTimeStamp)
  deriving DecidableEq, Repr

def Timeout.time : Timeout → HMTimeStamp
  | .dns t => t.time
  | .remoteCheck _ time => time
  | .remoteHostCheck _ time => time

structure Daemon where
  current : HMState
  works : List Work
  timeouts : List Timeout
  now : HMTimeStamp
  deriving DecidableEq, Repr

/-- What a lookup found, and the report of a failed one. -/
structure DnsOutcome where
  answer : Option (SortedSet HMIPAddress)
  success : Bool
  report : CheckReport
  deriving DecidableEq, Repr

/-- How a remote check ended, with the results it got for a host. -/
structure RemoteOutcome where
  status : WorkStatus
  hostResults : List (CheckParameters × HMDataCheckResult)
  report : CheckReport
  deriving DecidableEq, Repr

namespace Daemon

def addTimeout (d : Daemon) (timeout : Timeout) : Daemon :=
  { d with timeouts := d.timeouts ++ [timeout] }

/-- Take over a DNS cache and the lookups queued from it. -/
def putDNS (d : Daemon) (r : HMDNSCache × List DnsWork) : Daemon :=
  { d with
    current := { d.current with dnsCache := r.1 }
    works := d.works ++ r.2.map .dnsLookup }

def putRemote (d : Daemon) (r : HMRemoteHostGroupCache × List RemoteWork) : Daemon :=
  { d with
    current := { d.current with remoteCache := r.1 }
    works := d.works ++ r.2.map .remoteCheck }

def putRemoteHost (d : Daemon) (r : HMRemoteHostCache × List RemoteWork) : Daemon :=
  { d with
    current := { d.current with remoteHostCache := r.1 }
    works := d.works ++ r.2.map .remoteHostCheck }

/-- Take over a check list and the health checks queued from it. -/
def putHealth (d : Daemon) (r : HMDataCheckList × List HealthWork) : Daemon :=
  { d with
    current := { d.current with checkList := r.1 }
    works := d.works ++ r.2.map .healthCheck }

def queueDNSQuery (d : Daemon) (name : HMString) (lookup : HMDNSLookup) : Daemon :=
  d.putDNS (d.current.dnsCache.queueDNSQuery name lookup)

def queueRemoteCheck (d : Daemon) (name : HMString) : Daemon :=
  let r := d.current.remoteCache.queueRemoteCheck name d.current.hostGroups
  d.putRemote (r.1, r.2.toList)

def queueRemoteHostCheck (d : Daemon) (key : RemoteHostKey) : Daemon :=
  let r := d.current.remoteHostCache.queueRemoteCheck key.1 key.2
  d.putRemoteHost (r.1, r.2.toList)

def queueDNSLookups (d : Daemon) (restart : Bool) : Daemon :=
  let r := d.current.dnsCache.queueDNSLookups restart d.now
  let d := d.putDNS (r.1, r.2.1)
  { d with timeouts := d.timeouts ++ r.2.2.map .dns }

def queueRemoteLookups (d : Daemon) (restart : Bool) : Daemon :=
  let r := d.current.remoteCache.queueRemoteLookups d.current.hostGroups restart d.now
  let d := d.putRemote (r.1, r.2.1)
  { d with timeouts := d.timeouts ++ r.2.2.map fun t => .remoteCheck t.1 t.2 }

def queueRemoteHostLookups (d : Daemon) (restart : Bool) : Daemon :=
  let r := d.current.remoteHostCache.queueRemoteLookups restart d.now
  let d := d.putRemoteHost (r.1, r.2.1)
  { d with timeouts := d.timeouts ++ r.2.2.map fun t => .remoteHostCheck t.1 t.2 }

def queueLookups (d : Daemon) (restart : Bool) : Daemon :=
  ((d.queueDNSLookups restart).queueRemoteLookups restart).queueRemoteHostLookups restart

/-- The start of the daemon on a loaded state. -/
def start (s : HMState) (now : HMTimeStamp) : Daemon :=
  queueLookups ⟨s, [], [], now⟩ true

/-- The event loop handles a timeout. A DNS timeout is set again by the health checks'
schedule, and a remote host's timeout as one of a host group. -/
def handleTimeout (d : Daemon) : Timeout → Daemon
  | .dns t =>
    match d.current.dnsCache.queryNeeded t.name t.lookup d.now with
    | .work => d.queueDNSQuery t.name t.lookup
    | .event => d.addTimeout (.dns
        { t with time := d.current.checkList.nextCheckTime t.name .unset .default d.now })
    | .ignore => d
  | .remoteCheck name _ =>
    match RemoteCache.checkNeeded d.current.remoteCache name d.now with
    | .work => d.queueRemoteCheck name
    | .event => d.addTimeout
        (.remoteCheck name (RemoteCache.nextCheckTime d.current.remoteCache name d.now))
    | .ignore => d
  | .remoteHostCheck key _ =>
    match d.current.remoteHostCache.checkNeeded key d.now with
    | .work => d.queueRemoteHostCheck key
    | .event => d.addTimeout
        (.remoteCheck key.1 (d.current.remoteHostCache.nextCheckTime key d.now))
    | .ignore => d

/-- Queue the next lookup if it is due already, or set its timeout. -/
def rescheduleDNS (d : Daemon) (w : DnsWork) : Daemon :=
  let checkTime := d.current.dnsCache.nextQueryTime w.name w.lookup d.now
  if !w.reschedule then d
  else if checkTime ≤ d.now then d.queueDNSQuery w.name w.lookup
  else d.addTimeout (.dns ⟨w.name, w.lookup, checkTime⟩)

/-- One check that waits for a lookup: drop the results of expired addresses, and queue the
checks that are due at the others. -/
def kickHealthCheck (cache : HMDNSCache) (now : HMTimeStamp) (w : DnsWork) (report : CheckReport)
    (acc : HMDataCheckList × List HealthWork) (check : HMDataHostCheck) :
    HMDataCheckList × List HealthWork :=
  let family := HMDNSCache.familyOnly w.lookup.ipv6
  let ips := cache.getAddresses w.name family w.lookup
  let expiredIps := cache.getExpiredAddresses w.name family w.lookup
  if check.dualstack.families.contains w.lookup.ipv6 then
    let l := expiredIps.toList.foldl (fun l ip => HMDataCheckList.invalidateCheck l w.name ip check)
      acc.1
    ips.toList.foldl (fun acc ip =>
      if ip = .v4 0 || ip = .v6 0 then
        if ip = .ofType (HMDNSCache.familyType w.lookup.ipv6) then
          (acc.1.insertEmptyQuery w.name check ip { report with port := check.port }, acc.2)
        else acc
      else if acc.1.nextCheckTime w.name ip check now ≤ now then
        let r := acc.1.queueCheck w.name ip check
        (r.1, acc.2 ++ r.2)
      else acc) (l, acc.2)
  else acc

def kickHealthChecks (d : Daemon) (w : DnsWork) (report : CheckReport) : Daemon :=
  let checks := d.current.dnsWaitList.range (w.name, w.lookup.type.code)
  d.putHealth (checks.foldl (kickHealthCheck d.current.dnsCache d.now w report)
    (d.current.checkList, []))

/-- A worker carries a lookup out; one whose entry is gone is dropped. -/
def processDNS (d : Daemon) (w : DnsWork) (o : DnsOutcome) : Daemon :=
  if d.current.dnsCache.cache.contains (w.name, w.lookup) then
    let cache := (d.current.dnsCache.startDNSQuery w.name w.lookup d.now).dnsLookup w.name w.lookup
      o.answer o.success d.now
    ((d.putDNS (cache, [])).rescheduleDNS w).kickHealthChecks w o.report
  else d

/-- A remote check that failed and falls back on the lookups of the given hosts. -/
def remoteFallback (d : Daemon) (w : RemoteWork) (o : RemoteOutcome) (hosts : List HMString) :
    Daemon :=
  if o.status = .remoteFallback && w.hostCheck.distributedFallback.hasRemote then
    let r := d.current.forceLookups hosts w.hostCheck
    d.putDNS (r.1.dnsCache, r.2)
  else d

/-- A worker fetches the results of a host group, which go to the result store alone. -/
def processRemote (d : Daemon) (w : RemoteWork) (o : RemoteOutcome) : Daemon :=
  if d.current.remoteCache.contains w.hostname then
    let cache := RemoteCache.finishCheck (RemoteCache.startRemoteCheck d.current.remoteCache
      w.hostname d.now) w.hostname true d.now
    let d := d.putRemote (cache, [])
    let checkTime := RemoteCache.nextCheckTime d.current.remoteCache w.hostname d.now
    let d := if checkTime ≤ d.now then d.queueRemoteCheck w.hostname
      else d.addTimeout (.remoteCheck w.hostname checkTime)
    d.remoteFallback w o (((d.current.hostGroups.get? w.hostname).map fun g => g.hosts).getD [])
  else d

/-- The addresses of one family that a remote daemon no longer reports, if it reports any. -/
def expiredResults (l : HMDataCheckList) (w : RemoteWork) (reported : List HMIPAddress)
    (ipv6 : Bool) : List HMIPAddress :=
  let family := reported.filter fun a => a.getType == HMDNSCache.familyType ipv6
  if family = [] then []
  else
    (l.getCheckResultsAddress w.hostname w.hostCheck (HMDNSCache.familyOnly ipv6)).toList.filter
      fun a => !family.contains a

def updateResults (l : HMDataCheckList) (w : RemoteWork) (o : RemoteOutcome) : HMDataCheckList :=
  let reported := o.hostResults.map fun r => r.2.address
  let drop (ipv6 : Bool) (l : HMDataCheckList) :=
    (expiredResults l w reported ipv6).foldl (fun l ip => l.invalidateCheck w.hostname ip w.hostCheck)
      l
  drop true (drop false (l.updateCheckRemote w.hostname w.hostCheck (.ofType afInet) o.hostResults
    o.report))

/-- Mark the results of a host as out of touch with the remote daemon. -/
def updateResultsNoData (l : HMDataCheckList) (w : RemoteWork) (now : HMTimeStamp) :
    HMDataCheckList :=
  let ips := l.getCheckResultsAddress w.hostname w.hostCheck w.hostCheck.dualstack
  ips.toList.foldl (fun l ip =>
    (l.getCheckResults w.hostname w.hostCheck ip).foldl (fun l r =>
      l.updateCheck ⟨w.hostname, ip, w.hostCheck, r.1⟩
        { r.2 with checkTime := now, reason := .remoteNodata }) l) l

def remoteResults (d : Daemon) (w : RemoteWork) (o : RemoteOutcome) : HMDataCheckList :=
  if o.status = .completeRemote then updateResults d.current.checkList w o
  else if o.status = .remoteFallback && !w.hostCheck.distributedFallback.hasRemote then
    updateResultsNoData d.current.checkList w d.now
  else d.current.checkList

/-- A worker fetches the results of a host. -/
def processRemoteHost (d : Daemon) (w : RemoteWork) (o : RemoteOutcome) : Daemon :=
  let key : RemoteHostKey := (w.hostname, w.hostCheck)
  if d.current.remoteHostCache.contains key then
    let cache := (d.current.remoteHostCache.startRemoteCheck key d.now).finishCheck key true d.now
    let d := d.putRemoteHost (cache, [])
    let d := d.putHealth (d.remoteResults w o, [])
    let checkTime := d.current.remoteHostCache.nextCheckTime key d.now
    let d := if checkTime ≤ d.now then d.queueRemoteHostCheck key
      else d.addTimeout (.remoteHostCheck key checkTime)
    d.remoteFallback w o [w.hostname]
  else d

/-- The current state is replaced by a new one, which takes its results over. -/
def replaceState (d : Daemon) (new : HMState) : Daemon :=
  { d with current := new.restoreRunningCheckState d.current }

def resheduleDNSChecks (d : Daemon) (old : HMState) : Daemon :=
  let r := d.current.resheduleDNSChecks old
  d.putDNS (r.1.dnsCache, r.2)

def resheduleHealthChecks (d : Daemon) (old : HMState) : Daemon :=
  let r := d.current.resheduleHealthChecks old
  d.putHealth (r.1.checkList, r.2)

/-- A reload. The results are taken over once more at the end, when no worker holds the old
state any longer. -/
def swapStates (d : Daemon) (new : HMState) : Daemon :=
  let old := d.current
  let d := d.replaceState new
  let d := (d.resheduleDNSChecks old).resheduleHealthChecks old
  let d := d.queueLookups false
  { d with current := d.current.restoreRunningCheckState old }

inductive Event where
  | pop (i : ℕ)
  | processDNS (i : ℕ) (outcome : DnsOutcome)
  | processRemote (i : ℕ) (outcome : RemoteOutcome)
  | processRemoteHost (i : ℕ) (outcome : RemoteOutcome)
  | forceDNSCheck (hostGroup : HMString) (hostName : Option HMString)
  | reload (settings : Settings) (hostGroups : HMDataHostGroupMap)
  | advance (duration : ℕ)
  deriving DecidableEq, Repr

/-- The timeout at the top of the heap, and due. -/
def isNext (d : Daemon) (t : Timeout) : Bool :=
  t.time ≤ d.now && d.timeouts.all fun t' => t.time ≤ t'.time

def step (d : Daemon) : Event → Option Daemon
  | .pop i =>
    match d.timeouts[i]? with
    | some t =>
      if d.isNext t then some ({ d with timeouts := d.timeouts.eraseIdx i }.handleTimeout t)
      else none
    | none => none
  | .processDNS i outcome =>
    match d.works[i]? with
    | some (.dnsLookup w) => some ({ d with works := d.works.eraseIdx i }.processDNS w outcome)
    | _ => none
  | .processRemote i outcome =>
    match d.works[i]? with
    | some (.remoteCheck w) => some ({ d with works := d.works.eraseIdx i }.processRemote w outcome)
    | _ => none
  | .processRemoteHost i outcome =>
    match d.works[i]? with
    | some (.remoteHostCheck w) =>
      some ({ d with works := d.works.eraseIdx i }.processRemoteHost w outcome)
    | _ => none
  | .forceDNSCheck hostGroup hostName =>
    let r := d.current.forceDNSCheck hostGroup hostName
    some (d.putDNS (r.1.dnsCache, r.2))
  | .reload settings hostGroups =>
    some (d.swapStates (HMState.generateCheckList settings hostGroups))
  | .advance duration => some { d with now := d.now + duration }

/-! What each event that can be refused leads to. -/

variable {d d' : Daemon} {i : ℕ}

theorem due_of_isNext {t : Timeout} (h : d.isNext t = true) : t.time ≤ d.now :=
  of_decide_eq_true ((Bool.and_eq_true _ _).mp h).1

theorem step_pop (h : d.step (.pop i) = some d') :
    ∃ t, d.timeouts[i]? = some t ∧ d.isNext t = true ∧
      d' = { d with timeouts := d.timeouts.eraseIdx i }.handleTimeout t := by
  simp only [step] at h
  split at h
  · rename_i t ht
    split at h
    · rename_i hnext
      exact ⟨t, ht, hnext, (Option.some.inj h).symm⟩
    · cases h
  · cases h

theorem step_processDNS {outcome : DnsOutcome}
    (h : d.step (.processDNS i outcome) = some d') :
    ∃ w, d.works[i]? = some (.dnsLookup w) ∧
      d' = { d with works := d.works.eraseIdx i }.processDNS w outcome := by
  simp only [step] at h
  split at h
  · rename_i w hw
    exact ⟨w, hw, (Option.some.inj h).symm⟩
  · cases h

theorem step_processRemote {outcome : RemoteOutcome}
    (h : d.step (.processRemote i outcome) = some d') :
    ∃ w, d.works[i]? = some (.remoteCheck w) ∧
      d' = { d with works := d.works.eraseIdx i }.processRemote w outcome := by
  simp only [step] at h
  split at h
  · rename_i w hw
    exact ⟨w, hw, (Option.some.inj h).symm⟩
  · cases h

theorem step_processRemoteHost {outcome : RemoteOutcome}
    (h : d.step (.processRemoteHost i outcome) = some d') :
    ∃ w, d.works[i]? = some (.remoteHostCheck w) ∧
      d' = { d with works := d.works.eraseIdx i }.processRemoteHost w outcome := by
  simp only [step] at h
  split at h
  · rename_i w hw
    exact ⟨w, hw, (Option.some.inj h).symm⟩
  · cases h

end Daemon

end NetCHASM
