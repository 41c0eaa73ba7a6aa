import NetCHASM.Library.KeyOrder

/-! The enumerations and default values of the daemon. Each enumeration lists its
constants in the order of their numeric codes, and flag sets stay machine words. -/
namespace NetCHASM

inductive DnsType where
  | lookup
  | static
  deriving DecidableEq, Repr

inductive DnsPluginClass where
  | ares
  | libevent
  | static
  | none
  deriving DecidableEq, Repr

inductive RemoteCheckType where
  | none
  | tcp
  | tcps
  | sharedTcp
  | sharedTcps
  | sharedLinux
  deriving DecidableEq, Repr

inductive FlowType where
  | dnsHealth
  | remoteHostgroup
  | remoteHost
  deriving DecidableEq, Repr

inductive StorageCommitPolicy where
  | always
  | onFirst
  | onAllReady
  | onTtl
  deriving DecidableEq, Repr

inductive CheckPluginClass where
  | default
  | dnsAres
  | httpCurl
  | ftpCurl
  | tcpRaw
  | auxCurl
  | httpLibevent
  | tcpsRaw
  | markCurl
  deriving DecidableEq, Repr

inductive CheckType where
  | default
  | none
  | http
  | https
  | tcp
  | ftp
  | dns
  | dnsvc
  | httpsNoPeerCheck
  | ftpsExplicit
  | ftpsExplicitNoPeerCheck
  | ftpsImplicit
  | ftpsImplicitNoPeerCheck
  | auxHttp
  | auxHttps
  | auxHttpsNoPeerCheck
  | mtlsHttps
  | mtlsHttpsNoPeerCheck
  | auxMtlsHttps
  | auxMtlsHttpsNoPeerCheck
  | tcps
  | markHttp
  | markHttps
  | markHttpsNoPeerCheck
  | invalid
  deriving DecidableEq, Repr

inductive DualStack where
  | undefined
  | ipv4Only
  | ipv6Only
  | both
  deriving DecidableEq, Repr

inductive DistributedFallback where
  | none
  | local
  | remote
  | both
  deriving DecidableEq, Repr

inductive WorkState where
  | inactive
  | queued
  | inProgress
  | failed
  deriving DecidableEq, Repr

inductive ScheduleState where
  | event
  | work
  | ignore
  deriving DecidableEq, Repr

inductive Response where
  | none
  | connected
  | failed
  | dnsFailed
  | remoteFailed
  deriving DecidableEq, Repr

inductive Reason where
  | none
  | success
  | dnsNotfound
  | dnsTimeout
  | dnsFailure
  | ynetNotfound
  | connectTimeout
  | connectFailure
  | requestFailure
  | responseTimeout
  | responseFailure
  | responseDown
  | response404
  | response403
  | response3XX
  | response5XX
  | internalError
  | remoteNodata
  deriving DecidableEq, Repr

inductive WorkStatus where
  | idle
  | complete
  | inProgress
  | remoteFallback
  | completeRemote
  deriving DecidableEq, Repr

/-- The families of the dual-stack flags, tested bit by bit in the source. -/
def DualStack.hasIpv4 : DualStack → Bool
  | .ipv4Only | .both => true
  | .undefined | .ipv6Only => false

def DualStack.hasIpv6 : DualStack → Bool
  | .ipv6Only | .both => true
  | .undefined | .ipv4Only => false

def DistributedFallback.hasRemote : DistributedFallback → Bool
  | .remote | .both => true
  | .none | .local => false

def CheckType.code (c : CheckType) : UInt8 := c.ctorIdx.toUInt8

def DualStack.code (d : DualStack) : UInt8 := d.ctorIdx.toUInt8

def DistributedFallback.code (f : DistributedFallback) : UInt8 := f.ctorIdx.toUInt8

def FlowType.code (f : FlowType) : UInt8 := f.ctorIdx.toUInt8

def DnsType.code (d : DnsType) : UInt8 := d.ctorIdx.toUInt8

def CheckPluginClass.code (c : CheckPluginClass) : UInt8 := c.ctorIdx.toUInt8

def RemoteCheckType.code (c : RemoteCheckType) : UInt8 := c.ctorIdx.toUInt8

def Response.code (r : Response) : UInt8 := r.ctorIdx.toUInt8

def Reason.code (r : Reason) : UInt8 := r.ctorIdx.toUInt8

theorem CheckType.code_inj {a b : CheckType} : a.code = b.code ↔ a = b := by
  cases a <;> cases b <;> decide

theorem DualStack.code_inj {a b : DualStack} : a.code = b.code ↔ a = b := by
  cases a <;> cases b <;> decide

theorem DistributedFallback.code_inj {a b : DistributedFallback} : a.code = b.code ↔ a = b := by
  cases a <;> cases b <;> decide

theorem FlowType.code_inj {a b : FlowType} : a.code = b.code ↔ a = b := by
  cases a <;> cases b <;> decide

theorem DnsType.code_inj {a b : DnsType} : a.code = b.code ↔ a = b := by
  cases a <;> cases b <;> decide

theorem CheckPluginClass.code_inj {a b : CheckPluginClass} : a.code = b.code ↔ a = b := by
  cases a <;> cases b <;> decide

theorem RemoteCheckType.code_inj {a b : RemoteCheckType} : a.code = b.code ↔ a = b := by
  cases a <;> cases b <;> decide

/-- The constant with a code. A code that no constant has is not a value of the type here. -/
def CheckType.ofCode (n : UInt8) : Option CheckType :=
  [.default, .none, .http, .https, .tcp, .ftp, .dns, .dnsvc, .httpsNoPeerCheck, .ftpsExplicit,
    .ftpsExplicitNoPeerCheck, .ftpsImplicit, .ftpsImplicitNoPeerCheck, .auxHttp, .auxHttps,
    .auxHttpsNoPeerCheck, .mtlsHttps, .mtlsHttpsNoPeerCheck, .auxMtlsHttps,
    .auxMtlsHttpsNoPeerCheck, .tcps, .markHttp, .markHttps, .markHttpsNoPeerCheck,
    .invalid].find? fun c : CheckType => c.code = n

def DualStack.ofCode (n : UInt8) : Option DualStack :=
  [.undefined, .ipv4Only, .ipv6Only, .both].find? fun d : DualStack => d.code = n

def DistributedFallback.ofCode (n : UInt8) : Option DistributedFallback :=
  [.none, .local, .remote, .both].find? fun f : DistributedFallback => f.code = n

def DnsType.ofCode (n : UInt8) : Option DnsType :=
  [.lookup, .static].find? fun d : DnsType => d.code = n

@[simp] theorem CheckType.ofCode_code (c : CheckType) : CheckType.ofCode c.code = some c := by
  cases c <;> rfl

@[simp] theorem DualStack.ofCode_code (d : DualStack) : DualStack.ofCode d.code = some d := by
  cases d <;> rfl

@[simp] theorem DistributedFallback.ofCode_code (f : DistributedFallback) :
    DistributedFallback.ofCode f.code = some f := by
  cases f <;> rfl

@[simp] theorem DnsType.ofCode_code (d : DnsType) : DnsType.ofCode d.code = some d := by
  cases d <;> rfl

/-- The union of two sets of fallback flags. -/
def DistributedFallback.or : DistributedFallback → DistributedFallback → DistributedFallback
  | .none, f | f, .none => f
  | .local, .local => .local
  | .remote, .remote => .remote
  | _, _ => .both

theorem DistributedFallback.code_or (a b : DistributedFallback) :
    (a.or b).code = a.code ||| b.code := by
  cases a <;> cases b <;> rfl

/-- The status word of a host is a set of flags. -/
abbrev HostStatus := UInt16

def hostStatusNone : HostStatus := 0x00

def hostStatusUp : HostStatus := 0x10

def HostStatus.isUp (s : HostStatus) : Bool := s &&& hostStatusUp != 0

@[simp] theorem isUp_or_up (s : HostStatus) : HostStatus.isUp (s ||| hostStatusUp) = true := by
  have habsorb : (s ||| hostStatusUp) &&& hostStatusUp = hostStatusUp := by
    apply UInt16.eq_of_toBitVec_eq
    ext i hi
    simpa using Or.inr
  rw [HostStatus.isUp, habsorb]
  decide

@[simp] theorem isUp_and_not_up (s : HostStatus) :
    HostStatus.isUp (s &&& ~~~hostStatusUp) = false := by
  have hclear : (s &&& ~~~hostStatusUp) &&& hostStatusUp = 0 := by
    apply UInt16.eq_of_toBitVec_eq
    ext i hi
    simp
  rw [HostStatus.isUp, hclear]
  decide

/-- The measurement options word and the bits that select the response time. -/
abbrev MeasurementOptions := UInt16

def rtConnect : MeasurementOptions := 0x0

def rtSmoothedConnect : MeasurementOptions := 0x2

def rtBits : MeasurementOptions := 0x12

def defaultDnsTtl : UInt64 := 360000

def defaultTtl : UInt64 := 30000

def defaultDnsResolutionTimeout : UInt64 := 60000

def defaultCheckTimeout : UInt64 := 10000

def defaultSmoothingWindow : UInt32 := 10

def defaultGroupThreshold : UInt32 := 20

def defaultFlapThreshold : UInt32 := 60000

def defaultSlowThreshold : UInt32 := 20

def defaultMaxFlaps : UInt32 := 4

end NetCHASM
