import NetCHASM.DataHostGroup
import NetCHASM.Scheduling

/-! The caches of remote checks. The cache of remote host groups is keyed by the group
name and the cache of remote hosts by the host name and its check; apart from the work
they queue they are the same. -/
namespace NetCHASM

open KeyOrder OrderedMap

structure HMRemoteResult where
  checkState : WorkState
  checkTime : HMTimeStamp
  resultTime : HMTimeStamp
  remoteTimeout : UInt64
  remoteTTL : UInt64
  deriving DecidableEq, Repr

namespace HMRemoteResult

def new (ttl timeout : UInt64) : HMRemoteResult where
  checkState := .inactive
  checkTime := 0
  resultTime := 0
  remoteTimeout := timeout
  remoteTTL := ttl

def updateTimeouts (r : HMRemoteResult) (ttl timeout : UInt64) : HMRemoteResult :=
  { r with
    remoteTimeout := if timeout < r.remoteTimeout then timeout else r.remoteTimeout
    remoteTTL := if ttl < r.remoteTTL then ttl else r.remoteTTL }

def queueCheck (r : HMRemoteResult) : HMRemoteResult := { r with checkState := .queued }

def startCheck (r : HMRemoteResult) (now : HMTimeStamp) : HMRemoteResult :=
  { r with checkState := .inProgress, checkTime := now.plus r.remoteTimeout }

def finishCheck (r : HMRemoteResult) (success : Bool) (now : HMTimeStamp) : HMRemoteResult :=
  { r with checkState := if success then .inactive else .failed, resultTime := now }

def nextCheckTime (r : HMRemoteResult) (now : HMTimeStamp) : HMTimeStamp :=
  nextTime r.checkState r.checkTime r.remoteTimeout r.resultTime r.remoteTTL now

def setResultTime (r : HMRemoteResult) (resultTime : HMTimeStamp) : HMRemoteResult :=
  { r with resultTime := resultTime }

end HMRemoteResult

/-- The remote check types that a work can be built for. -/
def RemoteCheckType.isSupported : RemoteCheckType → Bool
  | .tcp | .tcps | .sharedTcp | .sharedTcps => true
  | .none | .sharedLinux => false

abbrev RemoteCache (K : Type) [Ordered K] := SortedMap K HMRemoteResult

namespace RemoteCache

variable {K : Type} [Ordered K]

def insertRemoteEntry (c : RemoteCache K) (key : K) (ttl timeout : UInt64) : RemoteCache K :=
  let ttl := if ttl = 0 then defaultDnsTtl else ttl
  let timeout := if timeout = 0 then defaultDnsResolutionTimeout else timeout
  if c.contains key then c.modify key fun r => r.updateTimeouts ttl timeout
  else c.insert key (.new ttl timeout)

def finishCheck (c : RemoteCache K) (key : K) (success : Bool) (now : HMTimeStamp) :
    RemoteCache K :=
  c.modify key fun r => r.finishCheck success now

def checkNeeded (c : RemoteCache K) (key : K) (now : HMTimeStamp) : ScheduleState :=
  scheduleState ((c.get? key).map fun r => (r.checkState, r.nextCheckTime now)) now

def nextCheckTime (c : RemoteCache K) (key : K) (now : HMTimeStamp) : HMTimeStamp :=
  match c.get? key with
  | none => now.plus HMTimeStamp.hourInMs
  | some r => r.nextCheckTime now

def startRemoteCheck (c : RemoteCache K) (key : K) (now : HMTimeStamp) : RemoteCache K :=
  c.modify key fun r => r.startCheck now

def updateResultTime (c : RemoteCache K) (key : K) (resultTime : HMTimeStamp) : RemoteCache K :=
  c.modify key fun r => r.setResultTime resultTime

/-- Queue a check for an entry whose remote check type is supported. The second component
is the stored key of the entry, if a check was queued. -/
def queueRemoteCheck (c : RemoteCache K) (key : K) (supported : K → Bool) :
    RemoteCache K × Option K :=
  match c.find? key with
  | none => (c, none)
  | some e =>
    if supported e.1 then (c.modify key fun r => r.queueCheck, some e.1) else (c, none)

/-- Whether the loop over all entries queues a check for this one. -/
def isCheckQueued (supported : K → Bool) (now : HMTimeStamp) (key : K) (r : HMRemoteResult) :
    Bool :=
  let state := scheduleState (some (r.checkState, r.nextCheckTime now)) now
  (state = .event || state = .work) && supported key

/-- Whether the loop sets a timeout for this entry, which it does only at a restart. -/
def isCheckArmed (restart : Bool) (now : HMTimeStamp) (r : HMRemoteResult) : Bool :=
  restart && scheduleState (some (r.checkState, r.nextCheckTime now)) now = .ignore

/-- Queue the checks that are due among the visited entries, and on a restart set the
timeouts of the others. Each iteration of the loop reads and writes its own entry. -/
def queueRemoteLookups (c : RemoteCache K) (visited supported : K → Bool) (restart : Bool)
    (now : HMTimeStamp) : RemoteCache K × List K × List (K × HMTimeStamp) :=
  (c.mapVals fun k r => if visited k && isCheckQueued supported now k r then r.queueCheck else r,
    (c.entries.filter fun e => visited e.1 && isCheckQueued supported now e.1 e.2).map Prod.fst,
    (c.entries.filter fun e => visited e.1 && isCheckArmed restart now e.2).map fun e =>
      (e.1, e.2.nextCheckTime now))

end RemoteCache

/-- A queued check of a remote host group or of a remote host: its name and check. -/
structure RemoteWork where
  hostname : HMString
  hostCheck : HMDataHostCheck
  deriving DecidableEq, Repr

abbrev HMRemoteHostGroupCache := RemoteCache HMString

namespace HMRemoteHostGroupCache

/-- The remote check type of a group is looked up in the host-group map. -/
def isSupported (hostGroupMap : HMDataHostGroupMap) (name : HMString) : Bool :=
  (hostGroupMap.get? name).any fun g => g.remoteCheckType.isSupported

/-- The work of a group; a group of invalid check type gives a default check. -/
def work (hostGroupMap : HMDataHostGroupMap) (name : HMString) : RemoteWork :=
  ⟨name, ((hostGroupMap.get? name).bind HMDataHostGroup.getHostCheck).getD .default⟩

def queueRemoteCheck (c : HMRemoteHostGroupCache) (name : HMString)
    (hostGroupMap : HMDataHostGroupMap) : HMRemoteHostGroupCache × Option RemoteWork :=
  let r := RemoteCache.queueRemoteCheck c name (isSupported hostGroupMap)
  (r.1, r.2.map (work hostGroupMap))

/-- The loop ends at the first entry whose group is not configured, and passes over the
entries of another flow. -/
def isVisited (c : HMRemoteHostGroupCache) (hostGroupMap : HMDataHostGroupMap)
    (name : HMString) : Bool :=
  ((c.keys.takeWhile hostGroupMap.contains).any fun k => eqv k name) &&
    (hostGroupMap.get? name).any fun g => g.flowType = .remoteHostgroup

def queueRemoteLookups (c : HMRemoteHostGroupCache) (hostGroupMap : HMDataHostGroupMap)
    (restart : Bool) (now : HMTimeStamp) :
    HMRemoteHostGroupCache × List RemoteWork × List (HMString × HMTimeStamp) :=
  let r := RemoteCache.queueRemoteLookups c (c.isVisited hostGroupMap) (isSupported hostGroupMap)
    restart now
  (r.1, r.2.1.map (work hostGroupMap), r.2.2)

end HMRemoteHostGroupCache

abbrev RemoteHostKey := HMString × HMDataHostCheck

abbrev HMRemoteHostCache := RemoteCache RemoteHostKey

namespace HMRemoteHostCache

/-- The type is that of the check the caller passes, which need not be the stored one. -/
def queueRemoteCheck (c : HMRemoteHostCache) (name : HMString) (hostCheck : HMDataHostCheck) :
    HMRemoteHostCache × Option RemoteWork :=
  let r := RemoteCache.queueRemoteCheck c (name, hostCheck) fun _ =>
    hostCheck.remoteCheckType.isSupported
  (r.1, r.2.map fun _ => ⟨name, hostCheck⟩)

def queueRemoteLookups (c : HMRemoteHostCache) (restart : Bool) (now : HMTimeStamp) :
    HMRemoteHostCache × List RemoteWork × List (RemoteHostKey × HMTimeStamp) :=
  let r := RemoteCache.queueRemoteLookups c (fun k => k.2.flowType = .remoteHost)
    (fun k => k.2.remoteCheckType.isSupported) restart now
  (r.1, r.2.1.map fun k => ⟨k.1, k.2⟩, r.2.2)

end HMRemoteHostCache

end NetCHASM
