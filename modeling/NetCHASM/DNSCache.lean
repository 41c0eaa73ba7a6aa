import NetCHASM.DataHostGroup
import NetCHASM.Scheduling

/-! The DNS cache: one entry for each host name, DNS type, family and remote group,
and the static addresses set by command. The comparator of a lookup ignores its
plugin, so the plugin of an entry is that of the key it was first stored under. An
operation reads the clock once. -/
namespace NetCHASM

open KeyOrder OrderedMap

structure HMDNSLookup where
  type : DnsType
  ipv6 : Bool
  remoteCheckGroup : HMString
  plugin : DnsPluginClass
  deriving DecidableEq, Repr

namespace HMDNSLookup

/-- The constructors leave the plugin unset. -/
def new (type : DnsType) (ipv6 : Bool) (remoteCheckGroup : HMString) : HMDNSLookup :=
  ⟨type, ipv6, remoteCheckGroup, .none⟩

@[simp] theorem new_type (type : DnsType) (ipv6 : Bool) (group : HMString) :
    (new type ipv6 group).type = type := rfl

@[simp] theorem new_ipv6 (type : DnsType) (ipv6 : Bool) (group : HMString) :
    (new type ipv6 group).ipv6 = ipv6 := rfl

@[simp] theorem new_remoteCheckGroup (type : DnsType) (ipv6 : Bool) (group : HMString) :
    (new type ipv6 group).remoteCheckGroup = group := rfl

def lt (a b : HMDNSLookup) : Bool :=
  if a.type.code ≠ b.type.code then a.type.code < b.type.code
  else if a.remoteCheckGroup ≠ b.remoteCheckGroup then a.remoteCheckGroup < b.remoteCheckGroup
  else !a.ipv6 && b.ipv6

theorem lt_eq_lexLt : lt = lexLt (fun a => a.type.code) (lexLt (fun a => a.remoteCheckGroup)
    fun a b => Ordered.lt a.ipv6 b.ipv6) := rfl

instance : Ordered HMDNSLookup where
  lt := lt
  weak := by
    rw [lt_eq_lexLt]
    exact ((Ordered.weak.comap fun a : HMDNSLookup => a.ipv6).lex _).lex _

theorem eqv_iff_fields {a b : HMDNSLookup} : eqv a b = true ↔
    a.type = b.type ∧ a.remoteCheckGroup = b.remoteCheckGroup ∧ a.ipv6 = b.ipv6 := by
  have hipv6 : (Ordered.lt a.ipv6 b.ipv6 = false ∧ Ordered.lt b.ipv6 a.ipv6 = false) ↔
      a.ipv6 = b.ipv6 := eqv_iff.symm.trans eqv_iff_eq
  rw [eqv_iff]
  change lt a b = false ∧ lt b a = false ↔ _
  simp only [lt_eq_lexLt, lexLt_incomparable, hipv6, DnsType.code_inj]

end HMDNSLookup

abbrev DNSKey := HMString × HMDNSLookup

theorem DNSKey.eqv_iff {a b : DNSKey} : eqv a b = true ↔
    a.1 = b.1 ∧ a.2.type = b.2.type ∧ a.2.remoteCheckGroup = b.2.remoteCheckGroup ∧
      a.2.ipv6 = b.2.ipv6 := by
  rw [eqv_pair, Bool.and_eq_true, eqv_iff_eq, HMDNSLookup.eqv_iff_fields]

structure HMDNSResult where
  queryState : WorkState
  queryTime : HMTimeStamp
  resultTime : HMTimeStamp
  queryTimeout : UInt64
  dnsTimeout : UInt64
  addr : SortedSet HMIPAddress
  addrExp : SortedSet HMIPAddress
  deriving DecidableEq, Repr

namespace HMDNSResult

def new (ttl timeout : UInt64) : HMDNSResult where
  queryState := .inactive
  queryTime := 0
  resultTime := 0
  queryTimeout := timeout
  dnsTimeout := ttl
  addr := ∅
  addrExp := ∅

def default : HMDNSResult := new defaultDnsTtl defaultDnsResolutionTimeout

def updateTimeouts (r : HMDNSResult) (ttl timeout : UInt64) : HMDNSResult :=
  { r with
    queryTimeout := if timeout < r.queryTimeout then timeout else r.queryTimeout
    dnsTimeout := if ttl < r.dnsTimeout then ttl else r.dnsTimeout }

def updateQuery (r : HMDNSResult) (addresses : SortedSet HMIPAddress) : HMDNSResult :=
  { r with
    addrExp := SortedSet.insertAll ∅ (r.addr.toList.filter fun a => !addresses.contains a)
    addr := addresses }

def queueQuery (r : HMDNSResult) : HMDNSResult := { r with queryState := .queued }

def startQuery (r : HMDNSResult) (now : HMTimeStamp) : HMDNSResult :=
  { r with queryState := .inProgress, queryTime := now.plus r.queryTimeout }

def finishQuery (r : HMDNSResult) (success : Bool) (now : HMTimeStamp) : HMDNSResult :=
  { r with queryState := if success then .inactive else .failed, resultTime := now }

def setResultTime (r : HMDNSResult) (resultTime : HMTimeStamp) : HMDNSResult :=
  { r with resultTime := resultTime }

def nextQueryTime (r : HMDNSResult) (now : HMTimeStamp) : HMTimeStamp :=
  nextTime r.queryState r.queryTime r.queryTimeout r.resultTime r.dnsTimeout now

def isValidAddress (r : HMDNSResult) (address : HMIPAddress) : Bool := r.addr.contains address

end HMDNSResult

/-- A queued lookup, built from the key its entry is stored under. -/
structure DnsWork where
  name : HMString
  lookup : HMDNSLookup
  reschedule : Bool
  deriving DecidableEq, Repr

/-- A pending timeout for a lookup. -/
structure DnsTimeout where
  name : HMString
  lookup : HMDNSLookup
  time : HMTimeStamp
  deriving DecidableEq, Repr

structure HMDNSCache where
  cache : SortedMap DNSKey HMDNSResult
  staticDNS : SortedMap (HMString × Bool) (SortedSet HMIPAddress)
  deriving DecidableEq, Repr

namespace HMDNSCache

def empty : HMDNSCache := ⟨∅, ∅⟩

def insertDNSEntry (c : HMDNSCache) (name : HMString) (lookup : HMDNSLookup)
    (ttl timeout : UInt64) : HMDNSCache :=
  let ttl := if ttl = 0 then defaultDnsTtl else ttl
  let timeout := if timeout = 0 then defaultDnsResolutionTimeout else timeout
  if c.cache.contains (name, lookup) then
    { c with cache := c.cache.modify (name, lookup) fun r => r.updateTimeouts ttl timeout }
  else { c with cache := c.cache.insert (name, lookup) (.new ttl timeout) }

def addStaticAddress (m : SortedMap (HMString × Bool) (SortedSet HMIPAddress)) (host : HMString)
    (address : HMIPAddress) : SortedMap (HMString × Bool) (SortedSet HMIPAddress) :=
  let key := (host, address.getType == afInet6)
  if m.contains key then m.modify key fun s => s.insert address ()
  else m.insert key (SortedMap.empty.insert address ())

def addStaticDNSAddress (c : HMDNSCache) (host : HMString) (addresses : List HMIPAddress) :
    HMDNSCache :=
  { c with staticDNS := addresses.foldl (fun m a => addStaticAddress m host a) c.staticDNS }

def removeStaticAddress (m : SortedMap (HMString × Bool) (SortedSet HMIPAddress))
    (host : HMString) (address : HMIPAddress) :
    SortedMap (HMString × Bool) (SortedSet HMIPAddress) :=
  m.modify (host, address.getType == afInet6) fun s => s.erase address

def removeStaticDNSAddress (c : HMDNSCache) (host : HMString) (addresses : List HMIPAddress) :
    HMDNSCache :=
  { c with staticDNS := addresses.foldl (fun m a => removeStaticAddress m host a) c.staticDNS }

def setStaticDns (c : HMDNSCache)
    (staticDns : SortedMap (HMString × Bool) (SortedSet HMIPAddress)) : HMDNSCache :=
  { c with staticDNS := staticDns }

/-- The family code of a lookup. -/
def familyType (ipv6 : Bool) : UInt8 := if ipv6 then afInet6 else afInet

/-- One family of a reloaded entry. A missing key is created with default timeouts. -/
def updateReloadFamily (c : HMDNSCache) (name : HMString) (lookup : HMDNSLookup) (ipv6 : Bool)
    (addresses : List HMIPAddress) (resultTime : HMTimeStamp) : HMDNSCache :=
  let key : DNSKey := (name, .new lookup.type ipv6 lookup.remoteCheckGroup)
  let familyAddresses := addresses.filter fun a => a.getType == familyType ipv6
  if familyAddresses = [] then c
  else
    let family := SortedSet.insertAll ∅ familyAddresses
    let c := { c with
      cache := (c.cache.insert key .default).modify key fun r =>
        (r.setResultTime resultTime).updateQuery family }
    if lookup.type = .static then
      c.addStaticDNSAddress name (SortedSet.toList (family.erase (.ofType (familyType ipv6))))
    else c

/-- Store the addresses of each family that has any. -/
def updateReloadDNSEntry (c : HMDNSCache) (name : HMString) (addresses : SortedSet HMIPAddress)
    (v4Result v6Result : HMDNSResult) (lookup : HMDNSLookup) : HMDNSCache :=
  (c.updateReloadFamily name lookup false addresses.toList v4Result.resultTime).updateReloadFamily
    name lookup true addresses.toList v6Result.resultTime

def updateDNSEntry (c : HMDNSCache) (name : HMString) (lookup : HMDNSLookup)
    (addresses : SortedSet HMIPAddress) : HMDNSCache :=
  { c with cache := c.cache.modify (name, lookup) fun r => r.updateQuery addresses }

def startDNSQuery (c : HMDNSCache) (name : HMString) (lookup : HMDNSLookup) (now : HMTimeStamp) :
    HMDNSCache :=
  { c with cache := c.cache.modify (name, lookup) fun r => r.startQuery now }

def finishQuery (c : HMDNSCache) (name : HMString) (lookup : HMDNSLookup) (success : Bool)
    (now : HMTimeStamp) : HMDNSCache :=
  { c with cache := c.cache.modify (name, lookup) fun r => r.finishQuery success now }

def getDNSResult (c : HMDNSCache) (name : HMString) (lookup : HMDNSLookup) : Option HMDNSResult :=
  c.cache.get? (name, lookup)

/-- The lookups that a dual-stack setting selects, IPv4 first. -/
def familyLookups (dualstack : DualStack) (lookup : HMDNSLookup) : List HMDNSLookup :=
  dualstack.families.map fun ipv6 => .new lookup.type ipv6 lookup.remoteCheckGroup

/-- The addresses that a field of the results holds, over the selected families. -/
def collectAddresses (field : HMDNSResult → SortedSet HMIPAddress) (c : HMDNSCache)
    (name : HMString) (dualstack : DualStack) (lookup : HMDNSLookup) : SortedSet HMIPAddress :=
  (familyLookups dualstack lookup).foldl (fun acc l =>
    match c.getDNSResult name l with
    | some r => SortedSet.insertAll acc (field r).toList
    | none => acc) ∅

def getAddresses : HMDNSCache → HMString → DualStack → HMDNSLookup → SortedSet HMIPAddress :=
  collectAddresses fun r => r.addr

def getExpiredAddresses : HMDNSCache → HMString → DualStack → HMDNSLookup →
    SortedSet HMIPAddress :=
  collectAddresses fun r => r.addrExp

/-- The setting that selects the family of a lookup alone. -/
def familyOnly (ipv6 : Bool) : DualStack := if ipv6 then .ipv6Only else .ipv4Only

/-- The end of a lookup. A lookup that timed out has no answer and keeps the addresses
there are; otherwise a blank address stands for a failure. -/
def dnsLookup (c : HMDNSCache) (name : HMString) (lookup : HMDNSLookup)
    (answer : Option (SortedSet HMIPAddress)) (success : Bool) (now : HMTimeStamp) : HMDNSCache :=
  let c := match answer with
    | some addresses => c.updateDNSEntry name lookup addresses
    | none =>
      if (c.getAddresses name (familyOnly lookup.ipv6) lookup).toList = [] then
        c.updateDNSEntry name lookup (SortedMap.empty.insert (.ofType (familyType lookup.ipv6)) ())
      else c
  c.finishQuery name lookup success now

/-- What the end of a lookup does to its entry, apart from the stamp. -/
def takeAnswer (c : HMDNSCache) (name : HMString) (lookup : HMDNSLookup)
    (answer : Option (SortedSet HMIPAddress)) (r : HMDNSResult) : HMDNSResult :=
  match answer with
  | some addresses => r.updateQuery addresses
  | none =>
    if (c.getAddresses name (familyOnly lookup.ipv6) lookup).toList = [] then
      r.updateQuery (SortedMap.empty.insert (.ofType (familyType lookup.ipv6)) ())
    else r

theorem dnsLookup_cache (c : HMDNSCache) (name : HMString) (lookup : HMDNSLookup)
    (answer : Option (SortedSet HMIPAddress)) (success : Bool) (now : HMTimeStamp) :
    (c.dnsLookup name lookup answer success now).cache = c.cache.modify (name, lookup) fun r =>
      (c.takeAnswer name lookup answer r).finishQuery success now := by
  cases answer with
  | some addresses =>
    simp only [dnsLookup, finishQuery, updateDNSEntry, takeAnswer, SortedMap.modify_modify]
  | none =>
    by_cases hempty : (c.getAddresses name (familyOnly lookup.ipv6) lookup).toList = []
    · simp only [dnsLookup, hempty, if_true, finishQuery, updateDNSEntry, takeAnswer,
        SortedMap.modify_modify]
    · simp only [dnsLookup, hempty, if_false, finishQuery, takeAnswer]

/-- The addresses of both families for a host, DNS type and remote group. -/
def bothFamilies (c : HMDNSCache) (name : HMString) (type : DnsType) (remoteCheck : HMString) :
    SortedSet HMIPAddress :=
  SortedSet.insertAll (c.getAddresses name .ipv4Only (.new type false remoteCheck))
    (c.getAddresses name .ipv6Only (.new type true remoteCheck)).toList

def isValidAddress (c : HMDNSCache) (name : HMString) (dualstack : DualStack)
    (lookup : HMDNSLookup) (address : HMIPAddress) : Bool :=
  (familyLookups dualstack lookup).any fun l =>
    match c.getDNSResult name l with
    | some r => r.isValidAddress address
    | none => false

def queryNeeded (c : HMDNSCache) (name : HMString) (lookup : HMDNSLookup) (now : HMTimeStamp) :
    ScheduleState :=
  scheduleState ((c.cache.get? (name, lookup)).map fun r => (r.queryState, r.nextQueryTime now)) now

def nextQueryTime (c : HMDNSCache) (name : HMString) (lookup : HMDNSLookup) (now : HMTimeStamp) :
    HMTimeStamp :=
  match c.cache.get? (name, lookup) with
  | none => now.plus HMTimeStamp.hourInMs
  | some r => r.nextQueryTime now

/-- Queue a lookup unless the caller's lookup has no plugin. -/
def queueDNSQuery (c : HMDNSCache) (name : HMString) (lookup : HMDNSLookup) :
    HMDNSCache × List DnsWork :=
  match c.cache.find? (name, lookup) with
  | none => (c, [])
  | some e =>
    if lookup.plugin = .none then (c, [])
    else
      ({ c with cache := c.cache.modify (name, lookup) fun r => r.queueQuery },
        [⟨e.1.1, e.1.2, e.1.2.remoteCheckGroup = []⟩])

/-- Whether the loop over all entries queues a lookup for this one. -/
def isLookupQueued (now : HMTimeStamp) (key : DNSKey) (r : HMDNSResult) : Bool :=
  let state := scheduleState (some (r.queryState, r.nextQueryTime now)) now
  key.2.remoteCheckGroup = [] && (state = .event || state = .work) && key.2.plugin ≠ .none

/-- Whether the loop sets a timeout for this entry, which it does only at a restart. -/
def isLookupArmed (restart : Bool) (now : HMTimeStamp) (key : DNSKey) (r : HMDNSResult) : Bool :=
  key.2.remoteCheckGroup = [] && restart &&
    scheduleState (some (r.queryState, r.nextQueryTime now)) now = .ignore

/-- Queue the lookups that are due, and on a restart set the timeouts of the others. The
iterations of the loop are independent, since each reads and writes its own entry. -/
def queueDNSLookups (c : HMDNSCache) (restart : Bool) (now : HMTimeStamp) :
    HMDNSCache × List DnsWork × List DnsTimeout :=
  ({ c with cache := c.cache.mapVals fun k r => if isLookupQueued now k r then r.queueQuery else r },
    (c.cache.entries.filter fun e => isLookupQueued now e.1 e.2).map fun e => ⟨e.1.1, e.1.2, true⟩,
    (c.cache.entries.filter fun e => isLookupArmed restart now e.1 e.2).map fun e =>
      ⟨e.1.1, e.1.2, e.2.nextQueryTime now⟩)

end HMDNSCache

end NetCHASM
