import NetCHASM.DataHostGroup
import NetCHASM.Library.Decoding

/-! The records the backend keeps: host groups, check results and aux info in the form
in which they are written and read back. A record is modelled field by field, after the
serialisation structures of the source; the bytes between the fields are not. -/
namespace NetCHASM

open OrderedMap

/-- What a read of the backend can do; `raised` is an exception or a memory error. -/
inductive Fetch (α : Type) where
  | found (a : α)
  | missing
  | raised
  deriving DecidableEq, Repr

namespace Fetch

def map {α β : Type} (f : α → β) : Fetch α → Fetch β
  | found a => found (f a)
  | missing => missing
  | raised => raised

end Fetch

/-- A string copied up to its first zero byte and padded with zeros. -/
def strncpy (s : HMString) : HMString := Decoding.padded s.length s

/-- The serialised form of a check result. -/
structure StoredCheckResult where
  address : HMIPAddress
  start : UInt64
  stop : UInt64
  responseTime : UInt32
  totalResponseTime : UInt32
  minResponseTime : UInt32
  maxResponseTime : UInt32
  smoothedResponseTime : UInt32
  sumResponseTime : UInt64
  numChecks : UInt32
  numResponses : UInt32
  numConnectFailures : UInt32
  numFailures : UInt32
  numTimeouts : UInt32
  numFlaps : UInt32
  status : HostStatus
  response : Response
  reason : Reason
  softReason : Reason
  numFailedChecks : UInt8
  numSlowResponses : UInt8
  port : UInt16
  changeTime : UInt64
  prevTime : UInt64
  forceHostDown : Bool
  queueCheckTime : UInt64
  checkTime : UInt64
  remoteCheckTime : UInt64
  deriving DecidableEq, Repr

namespace HMDataCheckResult

def serialize (r : HMDataCheckResult) : StoredCheckResult where
  address := r.address
  start := r.start.getTimeSinceEpoch
  stop := r.stop.getTimeSinceEpoch
  responseTime := r.responseTime
  totalResponseTime := r.totalResponseTime
  minResponseTime := r.minResponseTime
  maxResponseTime := r.maxResponseTime
  smoothedResponseTime := r.smoothedResponseTime
  sumResponseTime := r.sumResponseTime
  numChecks := r.numChecks
  numResponses := r.numResponses
  numConnectFailures := r.numConnectFailures
  numFailures := r.numFailures
  numTimeouts := r.numTimeouts
  numFlaps := r.numFlaps
  status := r.status
  response := r.response
  reason := r.reason
  softReason := r.softReason
  numFailedChecks := r.numFailedChecks
  numSlowResponses := r.numSlowResponses
  port := r.port
  changeTime := r.changeTime.getTimeSinceEpoch
  prevTime := r.flapTime.getTimeSinceEpoch
  forceHostDown := r.forceHostDown
  queueCheckTime := r.queueCheckTime.getTimeSinceEpoch
  checkTime := r.checkTime.getTimeSinceEpoch
  remoteCheckTime := r.remoteCheckTime.getTimeSinceEpoch

/-- Read into a default result: the soft and flap status, the query state and the
change flag are not stored. -/
def deserialize (s : StoredCheckResult) : HMDataCheckResult :=
  { HMDataCheckResult.new 0 with
    address := s.address
    start := .ofUInt64 s.start
    stop := .ofUInt64 s.stop
    responseTime := s.responseTime
    totalResponseTime := s.totalResponseTime
    minResponseTime := s.minResponseTime
    maxResponseTime := s.maxResponseTime
    smoothedResponseTime := s.smoothedResponseTime
    sumResponseTime := s.sumResponseTime
    numChecks := s.numChecks
    numResponses := s.numResponses
    numConnectFailures := s.numConnectFailures
    numFailures := s.numFailures
    numTimeouts := s.numTimeouts
    numFlaps := s.numFlaps
    status := s.status
    response := s.response
    reason := s.reason
    softReason := s.softReason
    numFailedChecks := s.numFailedChecks
    numSlowResponses := s.numSlowResponses
    port := s.port
    changeTime := .ofUInt64 s.changeTime
    flapTime := .ofUInt64 s.prevTime
    forceHostDown := s.forceHostDown
    queueCheckTime := .ofUInt64 s.queueCheckTime
    checkTime := .ofUInt64 s.checkTime
    remoteCheckTime := .ofUInt64 s.remoteCheckTime }

end HMDataCheckResult

inductive OobForcedown where
  | false
  | true
  | none
  deriving DecidableEq, Repr

/-- An aux record. The type tag of a record is that of its class. -/
inductive HMAuxBase where
  | loadFB (host resource : HMString) (ip : HMIPAddress) (ts : HMTimeStamp)
      (datacenter : HMString) (load target max : Int64)
  | oob (host resource : HMString) (ip : HMIPAddress) (ts : HMTimeStamp)
      (forceDown : OobForcedown) (shed : UInt32)
  deriving DecidableEq, Repr

/-- A record written and read back: strings end at a zero byte, times pass through a word. -/
def HMAuxBase.stored : HMAuxBase → HMAuxBase
  | .loadFB host resource ip ts datacenter load target max =>
    .loadFB (strncpy host) (strncpy resource) ip (.ofUInt64 ts.getTimeSinceEpoch)
      (strncpy datacenter) load target max
  | .oob host resource ip ts forceDown shed =>
    .oob (strncpy host) (strncpy resource) ip (.ofUInt64 ts.getTimeSinceEpoch) forceDown shed

structure HMAuxInfo where
  auxData : List HMAuxBase
  ts : HMTimeStamp
  deriving DecidableEq, Repr

def HMAuxInfo.stored (a : HMAuxInfo) : HMAuxInfo :=
  ⟨a.auxData.map HMAuxBase.stored, .ofUInt64 a.ts.getTimeSinceEpoch⟩

/-- The stored form of a group, or an exception: a copy into an empty name is out of range,
and the DNS type, the plugin and the remote check type are not stored. -/
def HMDataHostGroup.restore (g : HMDataHostGroup) : Fetch HMDataHostGroup :=
  if g.groupName = [] ∨ [] ∈ g.hosts ∨ [] ∈ g.hostGroups then .raised
  else .found { g with
    groupName := strncpy g.groupName
    checkInfo := strncpy g.checkInfo
    remoteCheck := strncpy g.remoteCheck
    hosts := g.hosts.map strncpy
    hostGroups := g.hostGroups.map strncpy
    dnsType := .lookup
    remoteCheckType := .none
    checkPlugin := .default }

/-- One result of a group, for one host at one address. The payload is a check result
or aux info. -/
structure GroupEntry (ρ : Type) where
  hostName : HMString
  address : HMIPAddress
  backendStale : Bool
  commitTime : HMTimeStamp
  payload : ρ
  deriving DecidableEq, Repr

/-- A result waiting to be applied to a group. -/
structure GroupUpdate (ρ : Type) where
  hostGroup : HMString
  hostName : HMString
  address : HMIPAddress
  payload : ρ
  deriving DecidableEq, Repr

abbrev HMGroupCheckResult := GroupEntry HMDataCheckResult

abbrev HMGroupCheckUpdate := GroupUpdate HMDataCheckResult

abbrev HMGroupAuxResult := GroupEntry HMAuxInfo

abbrev HMGroupAuxUpdate := GroupUpdate HMAuxInfo

/-- An entry of a stored group record. -/
structure StoredEntry (σ : Type) where
  hostName : HMString
  address : HMIPAddress
  payload : σ
  deriving DecidableEq, Repr

def GroupEntry.store {ρ σ : Type} (ser : ρ → σ) (e : GroupEntry ρ) : StoredEntry σ :=
  ⟨strncpy e.hostName, e.address, ser e.payload⟩

/-- The name is resized by the low byte of its length, read as a signed character: only
names of 1 to 127 bytes come back. The rest of the entry is a default result. -/
def StoredEntry.fetch {ρ σ : Type} (de : σ → ρ) (e : StoredEntry σ) : Option (GroupEntry ρ) :=
  if 0 < e.hostName.length ∧ e.hostName.length < 128 then
    some ⟨strncpy e.hostName, e.address, false, 0, de e.payload⟩
  else none

/-- The keys of the backend, by their prefixes. -/
structure Backend where
  groupNames : Option (List HMString)
  groupInfo : SortedMap HMString HMDataHostGroup
  checks : SortedMap HMString (List (StoredEntry StoredCheckResult))
  aux : SortedMap HMString (List (StoredEntry HMAuxInfo))
  deriving DecidableEq, Repr

end NetCHASM
