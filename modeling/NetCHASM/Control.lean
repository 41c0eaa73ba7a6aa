import NetCHASM.ConfigChange
import NetCHASM.DataPacking
import NetCHASM.HashMessage
import NetCHASM.StorageRecords
import NetCHASM.Library.Decimal

/-! The commands of the control socket. A command is a line of words, a version, a name and its
arguments, and for some commands a payload follows. The socket, the protocol buffers, the thread
pool, the logger and what the backend holds are given with the call. -/
namespace NetCHASM

open KeyOrder OrderedMap Decimal ConfigChange

inductive HMCommandTask where
  | reload
  | refresh
  | hostGroupInfo
  | loadfbInfo
  | loadfbInfoIP
  | loadfbInfoHost
  | threadInfo
  | workQueueInfo
  | schdQueueInfo
  | setHostStatus
  | hostGroupList
  | hostList
  | hostCheck
  | hostResults
  | hostIPResults
  | hostGroupParams
  | hostSchdInfo
  | remoteSchdInfo
  | healthCheck
  | dnsCheck
  | remoteHostGroupCheck
  | setLogLevel
  | getLogLevel
  | setConnectionTimeout
  | getConnectionTimeout
  | setMonFreq
  | getMonFreq
  | setTTLTresh
  | getTTLTresh
  | setStride
  | getStride
  | setWorkPerThread
  | getWorkPerThread
  | getRecycle
  | setRecycle
  | setRemoteQuery
  | getRemoteQuery
  | getHandlerThreadsCount
  | addHostGroup
  | removeHostGroup
  | clearTransaction
  | getHostGroupHash
  | getTransConfigHash
  | commitTransaction
  | addDNSAddresses
  | removeDNSAddresses
  | getDNSAddresses
  | setHostMark
  | removeHostMark
  | getHostMark
  | undefined
  deriving DecidableEq, Repr

def commands : List (HMString × HMCommandTask) :=
  [(bytes "reload", .reload), (bytes "refresh", .refresh), (bytes "hostgroup", .hostGroupInfo),
    (bytes "loadfb", .loadfbInfo), (bytes "loadfbip", .loadfbInfoIP),
    (bytes "loadfbhost", .loadfbInfoHost), (bytes "threadinfo", .threadInfo),
    (bytes "workqueueinfo", .workQueueInfo), (bytes "schdqueueinfo", .schdQueueInfo),
    (bytes "hostset", .setHostStatus), (bytes "hostgrouplist", .hostGroupList),
    (bytes "hostlist", .hostList), (bytes "hostcheck", .hostCheck),
    (bytes "hostresults", .hostResults), (bytes "hostipresults", .hostIPResults),
    (bytes "hostgroupparams", .hostGroupParams), (bytes "hostschdinfo", .hostSchdInfo),
    (bytes "remoteschdinfo", .remoteSchdInfo), (bytes "healthcheck", .healthCheck),
    (bytes "dnscheck", .dnsCheck), (bytes "remotehostgroupcheck", .remoteHostGroupCheck),
    (bytes "setloglevel", .setLogLevel), (bytes "getloglevel", .getLogLevel),
    (bytes "setconnectiontimeout", .setConnectionTimeout),
    (bytes "getconnectiontimeout", .getConnectionTimeout),
    (bytes "setmonitorfrequency", .setMonFreq), (bytes "getmonitorfrequency", .getMonFreq),
    (bytes "setttlthreshold", .setTTLTresh), (bytes "getttlthreshold", .getTTLTresh),
    (bytes "setstride", .setStride), (bytes "getstride", .getStride),
    (bytes "setworkperthreadratio", .setWorkPerThread),
    (bytes "getworkperthreadratio", .getWorkPerThread), (bytes "getrecycle", .getRecycle),
    (bytes "setrecycle", .setRecycle), (bytes "setremotequery", .setRemoteQuery),
    (bytes "getremotequery", .getRemoteQuery),
    (bytes "gethandlerthreadscount", .getHandlerThreadsCount),
    (bytes "addhostgroup", .addHostGroup), (bytes "removehostgroup", .removeHostGroup),
    (bytes "cleartransation", .clearTransaction), (bytes "gethostgrouphash", .getHostGroupHash),
    (bytes "gettransconfighash", .getTransConfigHash),
    (bytes "committransation", .commitTransaction), (bytes "adddnsaddresses", .addDNSAddresses),
    (bytes "removednsaddresses", .removeDNSAddresses),
    (bytes "getdnsaddresses", .getDNSAddresses), (bytes "sethostmark", .setHostMark),
    (bytes "removehostmark", .removeHostMark), (bytes "gethostmark", .getHostMark)]

def convert (task : HMString) : HMCommandTask := (commands.lookup task).getD .undefined

/-- The words between single blanks. Behind a blank at the end there is none. -/
def tokenize (command : HMString) : List HMString :=
  let words := command.splitOn 32
  if words.getLast? = some [] then words.dropLast else words

/-- The control socket speaks one version. -/
def controlSocketVersion : ℕ := 1

/-- What is known of a check at one address. -/
structure HostSchedInfo where
  address : HMIPAddress
  result : Option HMDataCheckResult
  nextCheckTime : HMTimeStamp
  deriving DecidableEq, Repr

/-- The messages that are sent. -/
inductive Message where
  | bool (x : Bool)
  | uint (x : ℕ)
  | int (x : Int)
  | list (items : List HMString)
  | threadInfo (idle threads : ℕ)
  | dataHostGroup (group : HMDataPacking.PDataHostGroup)
  | dataCheckResults (hostname : HMString) (results : List HMDataCheckResult)
  | hostGroupInfo (group : HMDataPacking.PDataHostGroup)
      (results : List (HMString × HMDataCheckResult))
  | hostResults (hostname : HMString) (results : List (CheckParameters × HMDataCheckResult))
  | auxInfo (hostname : HMString) (address : HMIPAddress) (info : HMAuxInfo)
  | auxResults (checkTTL : UInt64) (results : List (HMString × HMIPAddress × HMAuxInfo))
  | dnsSchedInfo (v4 v6 : Option HMDNSResult) (hosts : List HostSchedInfo)
  | hostSchedInfo (result : HMRemoteResult)
  | hash (pair : HMDataPacking.PHashHGPair)
  | hashInfo (items : List HMDataPacking.PHashHGPair)
  | ipAddresses (addresses : List HMDataPacking.PIPAddress)
  | listInt64 (items : List Int)

/-- A reply as it is passed to the socket: a buffer, or the null pointer, and a length, which is
missing if the variable was never assigned. -/
structure Reply where
  returnResult : Option (List UInt8)
  buflen : Option ℕ
  deriving DecidableEq, Repr

namespace Reply

/-- The two variables before anything is assigned. -/
def unset : Reply := ⟨none, none⟩

def nothing : Reply := ⟨none, some 0⟩

/-- The length was assigned, and it is that of the buffer. -/
def Sized (r : Reply) : Prop := r.buflen = some (r.returnResult.getD []).length

end Reply

/-- The numbers of the thread pool and of the work queue that can be set. -/
inductive Tunable where
  | monitorFrequency
  | stridePercent
  | workPerThreadRatio
  | ttlTreshold
  deriving DecidableEq, Repr

/-- The switches that can be set. -/
inductive Switch where
  | recycle
  | enableRemoteQueryReply
  deriving DecidableEq, Repr

abbrev HostMarkKey := HMString × HMIPAddress × HMDataHostCheck

/-- The daemon as the control socket finds it. -/
structure ControlState where
  system : System
  connectionTimeout : UInt64
  transactionTimeout : UInt64
  tunables : Tunable → UInt32
  switches : Switch → Bool
  hostMark : SortedMap HostMarkKey (SortedSet Int)

/-- What a reload finds in the master configuration that it reads. -/
structure ReloadRun where
  change : ChangeRun
  connectionTimeout : UInt64

/-- What a command meets. An exception can leave a reload or a refresh, which parse files and read
and write the backend, and the reading of a record. -/
structure ControlRun where
  receiveMessage : UInt32 → Option (List UInt8)
  serialize : Message → List UInt8
  parseHash : List UInt8 → Option HMDataPacking.PHashHGPair
  parseDataHostCheck : List UInt8 → Option HMDataHostCheck
  parseDataHostGroup : HMString → List UInt8 → Option HMDataHostGroup
  parseIPAddresses : List UInt8 → Option (List HMIPAddress)
  parseListInt64 : List UInt8 → Option (List Int)
  parseAddress : HMString → Option HMIPAddress
  md5 : List UInt8 → Vector UInt8 16
  initMD5 : Bool
  reload : Option HMString → Option ReloadRun
  refresh : Option ChangeRun
  commit : ChangeRun
  /-- The backend has a handle for the names of the groups. -/
  namesHandle : Bool
  idleThreads : ℕ
  nThreads : ℕ
  handlerThreads : ℕ
  logLevel : Int
  /-- The results of a group in the backend, without its cache or through it. -/
  getGroupCheckResults : Bool → HMString → Fetch (List (HMString × HMDataCheckResult))
  getGroupAuxInfo : HMString → Fetch (List (HMString × HMIPAddress × HMAuxInfo))
  getAuxInfo : HMString → HMString → HMIPAddress → Option HMAuxInfo
  getCheckResultsRemoteChecks : HMString → HMDataHostCheck → HMIPAddress →
    List (CheckParameters × HMDataCheckResult)

/-- How a command ends. After a copy that left its buffers nothing is known. -/
inductive Exit where
  | returned
  | threw
  | overran
  deriving DecidableEq, Repr

structure Handled where
  exit : Exit
  replies : List Reply
  state : ControlState

/-- Force a host down at one address, or without an address at all of them. -/
def HMDataCheckParams.setHostStatus (p : HMDataCheckParams) (address : HMIPAddress)
    (forceHostStatus : Bool) : HMDataCheckParams :=
  let force (r : HMDataCheckResult) : HMDataCheckResult :=
    { r with forceHostDown := forceHostStatus }
  { p with
    checkData :=
      if address.isSet then p.checkData.modify address force
      else p.checkData.mapVals fun _ => force }

def HMDataCheckList.setForceHostStatus (l : HMDataCheckList) (hostName : HMString)
    (check : HMDataHostCheck) (address : HMIPAddress) (forceHostStatus : Bool) : HMDataCheckList :=
  { l with
    checklist := l.checklist.modify ⟨hostName, check⟩ fun p =>
      p.setHostStatus address forceHostStatus }

namespace ControlState

variable (s : ControlState)

def daemon : Daemon := s.system.daemon

def current : HMState := s.daemon.current

def setDaemon (d : Daemon) : ControlState := { s with system := { s.system with daemon := d } }

def setCheckList (l : HMDataCheckList) : ControlState := s.setDaemon (s.daemon.putHealth (l, []))

def setDNSCache (c : HMDNSCache) : ControlState := s.setDaemon (s.daemon.putDNS (c, []))

/-- A group of the current state with its hash. -/
def getHostGroupInfo (name : HMString) : Option TransactionHashes.HashedGroup :=
  s.system.currentState.config.hostGroups.get? name

/-- The two states as a transaction sees them. -/
def manager : TransactionHashes.HMStateManager :=
  ⟨s.system.currentState.config, s.system.newTransactionState.config⟩

/-- Take over what a transaction made of its state. -/
def setTransaction (m : TransactionHashes.HMStateManager) : ControlState :=
  { s with system := { s.system with newTransactionState :=
      { s.system.newTransactionState with config := m.newTransactionState } } }

def resetTransactionState : ControlState :=
  { s with
    system := { s.system with newTransactionState := s.system.currentState }
    transactionTimeout := s.connectionTimeout }

/-- Take over a change of the configuration. Its state brings its own timeout. -/
def finishChange (result : Bool × System) (timeout : UInt64) : ControlState :=
  if result.1 then
    { s with system := result.2, connectionTimeout := timeout, transactionTimeout := timeout }
  else { s with system := result.2 }

/-- Force the status of a host, or of an address under every host of the group. -/
def setHostStatus (parseAddress : HMString → Option HMIPAddress) (hostGroupName host : HMString)
    (forceHostStatus : Bool) : ControlState :=
  match s.getHostGroupInfo hostGroupName with
  | none => s
  | some g =>
    let check := g.group.getHostCheck.getD .default
    match parseAddress host with
    | some ip => s.setCheckList (g.group.hosts.foldl (fun l hostname =>
        l.setForceHostStatus hostname check ip forceHostStatus) s.current.checkList)
    | none => s.setCheckList (s.current.checkList.setForceHostStatus host check .unset
        forceHostStatus)

def forceHealthCheck (hostGroup : HMString) (hostName : Option HMString) : ControlState :=
  let r := s.current.forceHealthCheck hostGroup hostName
  s.setDaemon
    { s.daemon with
      current := r.1
      works := s.daemon.works ++ (r.2.1.map .dnsLookup ++ r.2.2.map .healthCheck) }

def forceDNSCheck (hostGroup : HMString) (hostName : Option HMString) : ControlState :=
  let r := s.current.forceDNSCheck hostGroup hostName
  s.setDaemon (s.daemon.putDNS (r.1.dnsCache, r.2))

/-- Force the static lookups of the families that some addresses are of. -/
def forceStaticDNSCheck (hostName : HMString) (addresses : List HMIPAddress) : ControlState :=
  let force (d : Daemon) (ipv6 : Bool) : Daemon :=
    if addresses.any fun a => a.getType == HMDNSCache.familyType ipv6 then
      d.queueDNSQuery hostName (.new .static ipv6 [])
    else d
  s.setDaemon ([false, true].foldl force s.daemon)

def queueRemoteCheck (name : HMString) : ControlState :=
  s.setDaemon (s.daemon.queueRemoteCheck name)

def setTunable (t : Tunable) (value : UInt32) : ControlState :=
  { s with tunables := Function.update s.tunables t value }

/-- Words other than these are ignored. -/
def setSwitch (w : Switch) (word : HMString) : ControlState :=
  if word ∈ [bytes "on", bytes "ON", bytes "On"] then
    { s with switches := Function.update s.switches w true }
  else if word ∈ [bytes "off", bytes "OFF", bytes "Off"] then
    { s with switches := Function.update s.switches w false }
  else s

/-- The key of the marks of a host, if the group is there and its check type is valid. -/
def hostMarkKey (hostGroupName hostName : HMString) (address : HMIPAddress) :
    Option HostMarkKey :=
  (s.getHostGroupInfo hostGroupName).bind fun g =>
    g.group.getHostCheck.map fun check => (hostName, address, check)

def setHostMark (hostGroupName hostName : HMString) (address : HMIPAddress) (values : List Int) :
    Bool × ControlState :=
  match s.hostMarkKey hostGroupName hostName address with
  | none => (false, s)
  | some key =>
    let marks := SortedSet.insertAll ((s.hostMark.get? key).getD ∅) values
    (true, { s with hostMark := s.hostMark.set key marks })

def removeHostMark (hostGroupName hostName : HMString) (address : HMIPAddress)
    (values : List Int) : Bool × ControlState :=
  match s.hostMarkKey hostGroupName hostName address with
  | none => (false, s)
  | some key =>
    match s.hostMark.get? key with
    | none => (false, s)
    | some marks =>
      let marks := values.foldl (fun m v => SortedMap.erase m v) marks
      (true, { s with
        hostMark := if marks.entries = [] then s.hostMark.erase key else s.hostMark.set key marks })

end ControlState

namespace Handled

def send (s : ControlState) (r : Reply) : Handled := ⟨.returned, [r], s⟩

/-- Return without a reply. -/
def silent (s : ControlState) : Handled := ⟨.returned, [], s⟩

/-- Convert a word to a number. A word that is no number is answered with an empty message, and
one that is too large is not caught. -/
def strtoul (s : ControlState) (number : HMString) (next : UInt32 → Handled) : Handled :=
  match stoul number with
  | .ok n => next (.ofNat n)
  | .error .invalidArgument => send s .nothing
  | .error .outOfRange => ⟨.threw, [], s⟩

/-- Commands with too few words return without a reply. -/
def arg1 (s : ControlState) (args : List HMString) (next : HMString → Handled) : Handled :=
  match args with
  | a :: _ => next a
  | _ => silent s

def arg2 (s : ControlState) (args : List HMString) (next : HMString → HMString → Handled) :
    Handled :=
  match args with
  | a :: b :: _ => next a b
  | _ => silent s

def arg3 (s : ControlState) (args : List HMString)
    (next : HMString → HMString → HMString → Handled) : Handled :=
  match args with
  | a :: b :: c :: _ => next a b c
  | _ => silent s

def arg4 (s : ControlState) (args : List HMString)
    (next : HMString → HMString → HMString → HMString → Handled) : Handled :=
  match args with
  | a :: b :: c :: d :: _ => next a b c d
  | _ => silent s

end Handled

namespace ControlRun

open Handled

variable (r : ControlRun) (s : ControlState)

/-- The buffer of a message is allocated with the length that is sent. -/
def pack (m : Message) : Reply :=
  let data := r.serialize m
  ⟨some data, some data.length⟩

def packBool (x : Bool) : Reply := r.pack (.bool x)

def packUInt (x : ℕ) : Reply := r.pack (.uint x)

def packInt (x : Int) : Reply := r.pack (.int x)

def packList (items : List HMString) : Reply := r.pack (.list items)

def packHash (name : HMString) (hash : TransactionHashes.HMHash) : HMDataPacking.PHashHGPair :=
  ⟨name, Int32.ofNat hash.length, hash⟩

/-- The functions that look something up start with a length of zero. -/
def packSome (m : Option Message) : Reply := m.elim .nothing r.pack

/-- A group whose hash is the one that was sent, if one was. Hashes also agree if one of them was
never computed. -/
def verifiedGroup (name : HMString) (hash : Option StoredHash) :
    Option TransactionHashes.HashedGroup :=
  (s.getHostGroupInfo name).filter fun g =>
    hash.all fun h => TransactionHashes.hashEq h.bytes g.hashValue

/-- Answer with what the backend has of a verified group. -/
def withRecords {ρ : Type} (records : HMString → Fetch (List ρ))
    (message : HMDataHostGroup → List ρ → Message) (name : HMString) (hash : Option StoredHash) :
    Handled :=
  match verifiedGroup s name hash with
  | none => send s .nothing
  | some g =>
    match records name with
    | .found results => send s (r.pack (message g.group results))
    | .missing => send s (r.pack (message g.group []))
    | .raised => ⟨.threw, [], s⟩

def createHostGroup (hostGroupName : HMString) (hash : Option StoredHash) : Handled :=
  r.withRecords s (r.getGroupCheckResults true)
    (fun g results => .hostGroupInfo (HMDataPacking.packDataHostGroup g) results) hostGroupName hash

def getloadfbdata (rotationName : HMString) (hash : Option StoredHash) : Handled :=
  r.withRecords s r.getGroupAuxInfo (fun g results => .auxResults g.checkTTL results) rotationName
    hash

def getloadfbdataIP (hostName sourceURL : HMString) (address : HMIPAddress) : Reply :=
  r.packSome ((r.getAuxInfo hostName sourceURL address).map (.auxInfo hostName address))

/-- The addresses of a host under a check. -/
def addresses (hostName : HMString) (check : HMDataHostCheck) : List HMIPAddress :=
  (s.current.dnsCache.getAddresses hostName check.dualstack
    (.new check.dnsType false check.remoteCheck)).toList

def getloadfbhostdata (hostName : HMString) (hostCheck : HMDataHostCheck) : Reply :=
  r.pack (.auxResults 0 ((addresses s hostName hostCheck).filterMap fun address =>
    (r.getAuxInfo hostName hostCheck.checkInfo address).map fun info =>
      (hostName, address, info)))

/-- The results of a host in the backend. To find none is a failure. -/
def getHostCheck (hostGroupName hostName : HMString) : Fetch (List HMDataCheckResult) :=
  if (s.getHostGroupInfo hostGroupName).isNone then .missing
  else
    match r.getGroupCheckResults false hostGroupName with
    | .found records =>
      let results := records.filter fun e => e.1 = hostName
      if results.isEmpty then .missing else .found (results.map Prod.snd)
    | .missing => .missing
    | .raised => .raised

/-- The length is only assigned when there are results. -/
def sendHostCheck (hostGroupName hostName : HMString) : Handled :=
  match r.getHostCheck s hostGroupName hostName with
  | .found results => send s (r.pack (.dataCheckResults hostName results))
  | .missing => send s .unset
  | .raised => ⟨.threw, [], s⟩

/-- The results of the addresses are collected, and those that are there are added again with
each further address. -/
def getHostResults (hostName : HMString) (hostCheck : HMDataHostCheck) : Reply :=
  let collect (acc : List (CheckParameters × HMDataCheckResult) ×
      List (CheckParameters × HMDataCheckResult)) (address : HMIPAddress) :=
    let temp := acc.1 ++ r.getCheckResultsRemoteChecks hostName hostCheck address
    (temp, acc.2 ++ temp)
  r.pack (.hostResults hostName ((addresses s hostName hostCheck).foldl collect ([], [])).2)

def getHostResultsIP (hostName : HMString) (address : HMIPAddress) (hostCheck : HMDataHostCheck) :
    Reply :=
  r.pack (.hostResults hostName (r.getCheckResultsRemoteChecks hostName hostCheck address))

def getHostSchdInfo (hostgroup host : HMString) : Reply :=
  r.packSome ((s.getHostGroupInfo hostgroup).map fun g =>
    let check := g.group.getHostCheck.getD .default
    let family (ipv6 : Bool) : Option HMDNSResult :=
      if ipv6 ∈ check.dualstack.families then
        s.current.dnsCache.getDNSResult host (.new check.dnsType ipv6 check.remoteCheck)
      else none
    .dnsSchedInfo (family false) (family true) ((addresses s host check).map fun ip =>
      ⟨ip, s.current.checkList.getCheckResult ⟨host, ip, check, g.group.getCheckParameters⟩,
        s.current.checkList.nextCheckTime host ip check s.daemon.now⟩))

/-- The schedule of a remote group, or of one host of it. -/
def getRemoteSchdInfo (hostgroup : HMString) (host : Option HMString) : Reply :=
  r.packSome ((s.getHostGroupInfo hostgroup).bind fun g =>
    match host with
    | none => (s.current.remoteCache.get? hostgroup).map .hostSchedInfo
    | some host => (s.current.remoteHostCache.get?
        (host, g.group.getHostCheck.getD .default)).map .hostSchedInfo)

def getHostMark (hostGroupName hostName : HMString) (address : HMIPAddress) : Reply :=
  r.packSome ((s.hostMarkKey hostGroupName hostName address).bind fun key =>
    (s.hostMark.get? key).map fun marks => .listInt64 marks.toList)

/-- Receive a payload and unpack it. -/
def receive {α : Type} (size : UInt32) (unpack : List UInt8 → Option α) (unread unparsed : Handled)
    (next : α → Handled) : Handled :=
  match r.receiveMessage size with
  | none => unread
  | some data =>
    match unpack data with
    | none => unparsed
    | some a => next a

/-- A payload that does not come is answered with an empty message, and one that cannot be
unpacked is not answered. -/
def withPayload {α : Type} (size : HMString) (unpack : List UInt8 → Option α)
    (next : α → Handled) : Handled :=
  strtoul s size fun size => r.receive size unpack (send s .nothing) (silent s) next

/-- A hash is copied into its array as it is unpacked. -/
def withHash (size : HMString) (failed : Reply) (next : StoredHash → Handled) : Handled :=
  strtoul s size fun size =>
    r.receive size r.parseHash (send s failed) (send s failed) fun pair =>
      match HMDataPacking.copied pair with
      | some hash => next hash
      | none => ⟨.overran, [], s⟩

/-- A hash to verify is sent with the size of its message. -/
def withGroup (args : List HMString) (answer : HMString → Option StoredHash → Handled) : Handled :=
  match args with
  | name :: size :: _ => r.withHash s size .nothing fun hash => answer name (some hash)
  | [name] => answer name none
  | [] => silent s

def reloadDaemonConfigs (masterConfig : Option HMString) : Handled :=
  match r.reload masterConfig with
  | none => ⟨.threw, [], s⟩
  | some run =>
    let result := Change.apply r.md5 run.change s.system .reload
    send (s.finishChange result run.connectionTimeout) (r.packBool result.1)

def refreshDaemonConfigs : Handled :=
  match r.refresh with
  | none => ⟨.threw, [], s⟩
  | some run =>
    let result := Change.apply r.md5 run s.system .refresh
    send (s.finishChange result s.connectionTimeout) (r.packBool result.1)

/-- How a commit ends. The backend is opened for the state of the transaction. -/
def commitStatus (hash : TransactionHashes.HMHash) : TransactionHashes.CommitStatus :=
  let params := s.system.newTransactionState.params
  (TransactionHashes.commitDaemonConfigs r.md5 hash r.commit.hashesConfigs
    (r.commit.backend.openStore params.storageClass (s.system.backends params.mdbmPath)).1
    s.manager).1

/-- A commit that succeeds stores the groups and then their names. The records of the backend take
the first character of each name, and an empty one has none. -/
def commitThrows (hash : TransactionHashes.HMHash) : Bool :=
  let transaction := s.system.newTransactionState
  let names := transaction.config.hostGroups.keys
  r.commitStatus s hash = .success && transaction.params.storageClass = .mdbm &&
    names.all (fun name => (r.commit.backend.storesGroup name).ok) && r.namesHandle &&
    names.contains []

def statusCode : TransactionHashes.CommitStatus → ℕ
  | .success => 1
  | .hashMismatch => 2
  | .failure => 3

def commitDaemonConfigs (hash : StoredHash) : Handled :=
  if r.commitThrows s hash.bytes then ⟨.threw, [], s⟩
  else
    let result := Change.apply r.md5 r.commit s.system (.commit hash.bytes)
    send (s.finishChange result s.transactionTimeout)
      (r.packUInt (statusCode (r.commitStatus s hash.bytes)))

def addHostGroup (name : HMString) (group : HMDataHostGroup) : Handled :=
  send (s.setTransaction (TransactionHashes.addHostGroup r.md5 r.initMD5 name ⟨group, []⟩ s.manager))
    (r.packBool true)

def removeHostGroup (name : HMString) : Handled :=
  send (s.setTransaction (TransactionHashes.removeHostGroup name s.manager)) (r.packBool true)

def getTransConfigHash : Handled :=
  let m := TransactionHashes.getTransConfigHash r.md5 r.initMD5 s.manager
  send (s.setTransaction m)
    (r.pack (.hash (packHash (bytes "config") m.newTransactionState.hash)))

/-- Change the static addresses of a host, and force its static lookups. -/
def setStaticAddresses (change : HMDNSCache → HMString → List HMIPAddress → HMDNSCache)
    (host : HMString) (addresses : List HMIPAddress) : Handled :=
  send ((s.setDNSCache (change s.current.dnsCache host addresses)).forceStaticDNSCheck host
    addresses) (r.packBool true)

def getStaticAddresses (host : HMString) : SortedSet HMIPAddress :=
  let static (ipv6 : Bool) := ((s.current.dnsCache.staticDNS.get? (host, ipv6)).getD ∅).toList
  SortedSet.insertAll (SortedSet.insertAll ∅ (static false)) (static true)

/-- Set a number of the thread pool or of the work queue. -/
def setTunable (t : Tunable) (args : List HMString) : Handled :=
  arg1 s args fun number => strtoul s number fun value => silent (s.setTunable t value)

def getTunable (t : Tunable) : Handled := send s (r.packUInt (s.tunables t).toNat)

def setSwitch (w : Switch) (args : List HMString) : Handled :=
  arg1 s args fun word => silent (s.setSwitch w word)

def getSwitch (w : Switch) : Handled := send s (r.packBool (s.switches w))

/-- Change the marks of a host at an address. -/
def changeHostMark (args : List HMString)
    (change : HMString → HMString → HMIPAddress → List Int → Bool × ControlState) : Handled :=
  arg4 s args fun hostGroup host address size =>
    match r.parseAddress address with
    | none => send s .nothing
    | some ip => r.withPayload s size r.parseListInt64 fun values =>
        let result := change hostGroup host ip values
        send result.2 (r.packBool result.1)

/-- Carry out a command with the words behind its name. -/
def handleTask (args : List HMString) : HMCommandTask → Handled
  | .reload => r.reloadDaemonConfigs s args.head?
  | .refresh => r.refreshDaemonConfigs s
  | .hostGroupInfo => r.withGroup s args (r.createHostGroup s)
  | .loadfbInfo => r.withGroup s args (r.getloadfbdata s)
  | .threadInfo => send s (r.pack (.threadInfo r.idleThreads r.nThreads))
  | .workQueueInfo => send s (r.packUInt s.daemon.works.length)
  | .schdQueueInfo => send s (r.packUInt s.daemon.timeouts.length)
  | .setHostStatus => arg3 s args fun hostGroup host status =>
    match stoi status with
    | .error _ => ⟨.threw, [], s⟩
    | .ok hoststatus => silent (s.setHostStatus r.parseAddress hostGroup host (hoststatus ≠ 0))
  | .hostGroupList => send s (r.packList s.system.currentState.config.hostGroups.keys)
  | .hostList => arg1 s args fun name =>
    send s (r.packList ((s.getHostGroupInfo name).elim [] fun g => g.group.hosts))
  | .hostCheck => arg2 s args fun hostGroup host => r.sendHostCheck s hostGroup host
  | .hostResults => arg2 s args fun host size =>
    r.withPayload s size r.parseDataHostCheck fun check => send s (r.getHostResults s host check)
  | .loadfbInfoHost => arg2 s args fun host size =>
    r.withPayload s size r.parseDataHostCheck fun check =>
      send s (r.getloadfbhostdata s host check)
  | .loadfbInfoIP => arg3 s args fun host sourceURL address =>
    send s ((r.parseAddress address).elim .nothing (r.getloadfbdataIP host sourceURL))
  | .hostIPResults => arg3 s args fun host address size =>
    r.withPayload s size r.parseDataHostCheck fun check =>
      send s ((r.parseAddress address).elim .nothing fun ip => r.getHostResultsIP host ip check)
  | .hostGroupParams => arg1 s args fun name =>
    send s (r.packSome ((s.getHostGroupInfo name).map fun g =>
      .dataHostGroup (HMDataPacking.packDataHostGroup g.group)))
  | .hostSchdInfo => arg2 s args fun hostGroup host => send s (r.getHostSchdInfo s hostGroup host)
  | .remoteSchdInfo => arg1 s args fun hostGroup =>
    send s (r.getRemoteSchdInfo s hostGroup args.tail.head?)
  | .setLogLevel => silent s
  | .getLogLevel => send s (r.packInt r.logLevel)
  | .setConnectionTimeout => arg1 s args fun number =>
    silent { s with connectionTimeout := .ofNat (Decimal.strtoul number) }
  | .getConnectionTimeout => send s (r.packUInt s.connectionTimeout.toNat)
  | .healthCheck => arg1 s args fun hostGroup =>
    silent (s.forceHealthCheck hostGroup args.tail.head?)
  | .dnsCheck => arg1 s args fun hostGroup => silent (s.forceDNSCheck hostGroup args.tail.head?)
  | .remoteHostGroupCheck => arg1 s args fun hostGroup => silent (s.queueRemoteCheck hostGroup)
  | .setMonFreq => setTunable s .monitorFrequency args
  | .getMonFreq => r.getTunable s .monitorFrequency
  | .setStride => setTunable s .stridePercent args
  | .getStride => r.getTunable s .stridePercent
  | .setWorkPerThread => setTunable s .workPerThreadRatio args
  | .getWorkPerThread => r.getTunable s .workPerThreadRatio
  | .setTTLTresh => setTunable s .ttlTreshold args
  | .getTTLTresh => r.getTunable s .ttlTreshold
  | .setRecycle => setSwitch s .recycle args
  | .getRecycle => r.getSwitch s .recycle
  | .setRemoteQuery => setSwitch s .enableRemoteQueryReply args
  | .getRemoteQuery => r.getSwitch s .enableRemoteQueryReply
  | .getHandlerThreadsCount => send s (r.packUInt r.handlerThreads)
  | .addHostGroup => arg2 s args fun name size =>
    r.withPayload s size (r.parseDataHostGroup name) (r.addHostGroup s name)
  | .removeHostGroup => arg1 s args (r.removeHostGroup s)
  | .clearTransaction => send s.resetTransactionState (r.packBool true)
  | .getHostGroupHash => send s (r.pack (.hashInfo
      (s.system.newTransactionState.config.hostGroups.entries.map fun e =>
        packHash e.1 e.2.hashValue)))
  | .getTransConfigHash => r.getTransConfigHash s
  | .commitTransaction => arg1 s args fun size =>
    r.withHash s size (r.packUInt (statusCode .failure)) (r.commitDaemonConfigs s)
  | .addDNSAddresses => arg2 s args fun host size =>
    r.withPayload s size r.parseIPAddresses
      (r.setStaticAddresses s HMDNSCache.addStaticDNSAddress host)
  | .removeDNSAddresses => arg2 s args fun host size =>
    r.withPayload s size r.parseIPAddresses
      (r.setStaticAddresses s HMDNSCache.removeStaticDNSAddress host)
  | .getDNSAddresses => arg1 s args fun host =>
    send s (r.pack (.ipAddresses ((getStaticAddresses s host).toList.map
      HMDataPacking.packIPAddress)))
  | .setHostMark => r.changeHostMark s args s.setHostMark
  | .removeHostMark => r.changeHostMark s args s.removeHostMark
  | .getHostMark => arg3 s args fun hostGroup host address =>
    send s ((r.parseAddress address).elim .nothing (r.getHostMark s hostGroup host))
  | .undefined => silent s

/-- Handle a command. A version that is no number, or that is not known, is answered with an
empty message; one that is too large is not caught. -/
def handleCommands (command : HMString) : Handled :=
  match tokenize command with
  | [] => silent s
  | version :: words =>
    match stoul version with
    | .error .outOfRange => ⟨.threw, [], s⟩
    | .error .invalidArgument => send s .nothing
    | .ok v =>
      if v = controlSocketVersion then arg1 s words fun name =>
        r.handleTask s words.tail (convert name)
      else send s .nothing

end ControlRun

end NetCHASM
