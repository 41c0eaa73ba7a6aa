import NetCHASM.DataCheckParams

/-! Host checks and host groups. A group carries the fields of a check and of the
check parameters beside its name, hosts and child groups. The cached hash value of a
group is derived data and is left out. -/
namespace NetCHASM

open KeyOrder OrderedMap

structure HMDataHostCheck where
  checkType : CheckType
  port : UInt16
  dualstack : DualStack
  checkInfo : HMString
  remoteCheck : HMString
  distributedFallback : DistributedFallback
  dnsType : DnsType
  checkPlugin : CheckPluginClass
  remoteCheckType : RemoteCheckType
  sourceAddress : HMIPAddress
  tosValue : UInt8
  flowType : FlowType
  deriving DecidableEq, Repr

namespace HMDataHostCheck

def default : HMDataHostCheck where
  checkType := .default
  port := 0
  dualstack := .ipv4Only
  checkInfo := []
  remoteCheck := []
  distributedFallback := .none
  dnsType := .lookup
  checkPlugin := .default
  remoteCheckType := .none
  sourceAddress := .unset
  tosValue := 0
  flowType := .dnsHealth

def lt (a b : HMDataHostCheck) : Bool :=
  if a.checkType.code ≠ b.checkType.code then a.checkType.code < b.checkType.code
  else if a.port ≠ b.port then a.port < b.port
  else if a.dualstack.code ≠ b.dualstack.code then a.dualstack.code < b.dualstack.code
  else if a.checkInfo ≠ b.checkInfo then a.checkInfo < b.checkInfo
  else if a.remoteCheck ≠ b.remoteCheck then a.remoteCheck < b.remoteCheck
  else if a.sourceAddress ≠ b.sourceAddress then a.sourceAddress.lt b.sourceAddress
  else if a.tosValue ≠ b.tosValue then a.tosValue < b.tosValue
  else if a.distributedFallback.code ≠ b.distributedFallback.code then
    a.distributedFallback.code < b.distributedFallback.code
  else a.flowType.code < b.flowType.code

theorem lt_eq_lexLt : lt = lexLt (fun a => a.checkType.code) (lexLt (fun a => a.port)
    (lexLt (fun a => a.dualstack.code) (lexLt (fun a => a.checkInfo)
    (lexLt (fun a => a.remoteCheck) (lexLt (fun a => a.sourceAddress)
    (lexLt (fun a => a.tosValue) (lexLt (fun a => a.distributedFallback.code)
    fun a b => Ordered.lt a.flowType.code b.flowType.code))))))) := rfl

theorem lt_weak : StrictWeak lt := by
  rw [lt_eq_lexLt]
  exact ((((((((Ordered.weak.comap fun a : HMDataHostCheck => a.flowType.code).lex
    _).lex _).lex _).lex _).lex _).lex _).lex _).lex _

/-- The equality operator does not look at the DNS type, the plugin or the remote check type. -/
def beq (a b : HMDataHostCheck) : Bool :=
  a.checkType = b.checkType && a.port = b.port && a.dualstack = b.dualstack &&
    a.checkInfo = b.checkInfo && a.remoteCheck = b.remoteCheck &&
    a.sourceAddress = b.sourceAddress && a.tosValue = b.tosValue &&
    a.distributedFallback = b.distributedFallback && a.flowType = b.flowType

theorem beq_iff {a b : HMDataHostCheck} : a.beq b = true ↔
    a.checkType = b.checkType ∧ a.port = b.port ∧ a.dualstack = b.dualstack ∧
      a.checkInfo = b.checkInfo ∧ a.remoteCheck = b.remoteCheck ∧
      a.sourceAddress = b.sourceAddress ∧ a.tosValue = b.tosValue ∧
      a.distributedFallback = b.distributedFallback ∧ a.flowType = b.flowType := by
  simp [beq, and_assoc]

instance : Ordered HMDataHostCheck := ⟨lt, lt_weak⟩

/-- Two checks compare equal exactly when neither precedes the other. -/
theorem eqv_eq_beq (a b : HMDataHostCheck) : eqv a b = a.beq b := by
  have hflow : (Ordered.lt a.flowType.code b.flowType.code = false ∧
      Ordered.lt b.flowType.code a.flowType.code = false) ↔ a.flowType.code = b.flowType.code :=
    eqv_iff.symm.trans eqv_iff_eq
  rw [Bool.eq_iff_iff, eqv_iff]
  change lt a b = false ∧ lt b a = false ↔ _
  simp only [lt_eq_lexLt, lexLt_incomparable, hflow]
  simp [beq, CheckType.code_inj, DualStack.code_inj, DistributedFallback.code_inj,
    FlowType.code_inj, and_assoc]

end HMDataHostCheck

structure HMDataHostGroup extends HMDataHostCheck, CheckParameters where
  groupName : HMString
  hosts : List HMString
  hostGroups : List HMString
  deriving DecidableEq, Repr

/-- A group as a client describes it, less what the constructor below does not read. -/
structure HMAPICheckInfo extends CheckParameters where
  ipv4 : Bool
  ipv6 : Bool
  checkType : CheckType
  port : UInt16
  checkInfo : HMString
  tosValue : UInt8
  remoteCheck : HMString
  flowType : FlowType
  distributedFallback : DistributedFallback
  remoteCheckType : RemoteCheckType
  hosts : List HMString
  hostGroups : List HMString
  deriving DecidableEq, Repr

namespace HMDataHostGroup

def new (groupName : HMString) : HMDataHostGroup where
  toHMDataHostCheck := .default
  toCheckParameters := .default
  groupName := groupName
  hosts := []
  hostGroups := []

/-- The lists are taken as they are. The fields that the constructor does not set keep what the
memory held. -/
def ofAPICheckInfo (memory : HMDataHostCheck) (groupName : HMString) (checkInfo : HMAPICheckInfo) :
    HMDataHostGroup where
  checkType := checkInfo.checkType
  port := checkInfo.port
  dualstack :=
    if checkInfo.ipv4 && checkInfo.ipv6 then .both
    else if checkInfo.ipv4 then .ipv4Only
    else if checkInfo.ipv6 then .ipv6Only
    else memory.dualstack
  checkInfo := checkInfo.checkInfo
  remoteCheck := checkInfo.remoteCheck
  distributedFallback := checkInfo.distributedFallback
  dnsType := memory.dnsType
  checkPlugin := memory.checkPlugin
  remoteCheckType := checkInfo.remoteCheckType
  sourceAddress := memory.sourceAddress
  tosValue := checkInfo.tosValue
  flowType := checkInfo.flowType
  toCheckParameters := checkInfo.toCheckParameters
  groupName := groupName
  hosts := checkInfo.hosts
  hostGroups := checkInfo.hostGroups

/-- The equality operator looks at the name and at part of the check and its parameters. -/
def beq (a b : HMDataHostGroup) : Bool :=
  a.groupName = b.groupName && a.measurementOptions = b.measurementOptions &&
    a.dualstack = b.dualstack && a.checkType = b.checkType && a.port = b.port &&
    a.checkInfo = b.checkInfo && a.numCheckRetries = b.numCheckRetries &&
    a.checkRetryDelay = b.checkRetryDelay && a.smoothingWindow = b.smoothingWindow &&
    a.groupThreshold = b.groupThreshold && a.slowThreshold = b.slowThreshold &&
    a.maxFlaps = b.maxFlaps && a.checkTimeout = b.checkTimeout && a.checkTTL = b.checkTTL &&
    a.flapThreshold = b.flapThreshold && a.passthroughInfo = b.passthroughInfo &&
    a.tosValue = b.tosValue && a.flowType = b.flowType

def getHostCheck (g : HMDataHostGroup) : Option HMDataHostCheck :=
  if g.checkType ≠ .invalid then some g.toHMDataHostCheck else none

def getCheckParameters (g : HMDataHostGroup) : CheckParameters :=
  g.toCheckParameters.setCheckParameters

def addHost (g : HMDataHostGroup) (host : HMString) : HMDataHostGroup :=
  if host ∈ g.hosts then g else { g with hosts := g.hosts ++ [host] }

def addHostGroup (g : HMDataHostGroup) (hostGroup : HMString) : HMDataHostGroup :=
  if hostGroup ∈ g.hostGroups then g else { g with hostGroups := g.hostGroups ++ [hostGroup] }

/-- Append unless it is there. -/
def appendNew (names : List HMString) (name : HMString) : List HMString :=
  if name ∈ names then names else names ++ [name]

theorem foldl_appendNew_of_nodup {names new : List HMString} (h : (names ++ new).Nodup) :
    new.foldl appendNew names = names ++ new := by
  induction new generalizing names with
  | nil => simp
  | cons name new ih =>
    have hname : name ∉ names := by
      intro hmem
      exact (List.nodup_append.mp h).2.2 name hmem name List.mem_cons_self rfl
    rw [List.append_cons] at h
    rw [List.foldl_cons, appendNew, if_neg hname, ih h]
    simp

theorem mem_foldl_appendNew {names new : List HMString} {name : HMString} :
    name ∈ new.foldl appendNew names ↔ name ∈ names ∨ name ∈ new := by
  induction new generalizing names with
  | nil => simp
  | cons head new ih =>
    have happend : name ∈ appendNew names head ↔ name ∈ names ∨ name = head := by
      rw [appendNew]
      split
      · constructor
        · exact Or.inl
        · rintro (hname | rfl) <;> assumption
      · simp
    rw [List.foldl_cons, ih, happend, List.mem_cons, or_assoc]

theorem nodup_foldl_appendNew {names new : List HMString} (h : names.Nodup) :
    (new.foldl appendNew names).Nodup := by
  induction new generalizing names with
  | nil => exact h
  | cons name new ih =>
    apply ih
    rw [appendNew]
    split
    · exact h
    next hname =>
      rw [List.nodup_append]
      refine ⟨h, by simp, ?_⟩
      intro a ha b hb
      rw [List.mem_singleton.mp hb]
      rintro rfl
      exact hname ha

theorem prefix_foldl_appendNew (names new : List HMString) : names <+: new.foldl appendNew names := by
  induction new generalizing names with
  | nil => exact List.prefix_refl names
  | cons name new ih =>
    have hhead : names <+: appendNew names name := by
      rw [appendNew]
      split
      · exact List.prefix_refl names
      · exact List.prefix_append names [name]
    exact hhead.trans (ih (appendNew names name))

theorem foldl_addHost (g : HMDataHostGroup) (hosts : List HMString) :
    hosts.foldl addHost g = { g with hosts := hosts.foldl appendNew g.hosts } := by
  induction hosts generalizing g with
  | nil => rfl
  | cons host hosts ih =>
    have hadd : g.addHost host = { g with hosts := appendNew g.hosts host } := by
      rw [addHost, appendNew]
      split <;> rfl
    rw [List.foldl_cons, List.foldl_cons, hadd, ih]

theorem foldl_addHostGroup (g : HMDataHostGroup) (hostGroups : List HMString) :
    hostGroups.foldl addHostGroup g =
      { g with hostGroups := hostGroups.foldl appendNew g.hostGroups } := by
  induction hostGroups generalizing g with
  | nil => rfl
  | cons hostGroup hostGroups ih =>
    have hadd : g.addHostGroup hostGroup =
        { g with hostGroups := appendNew g.hostGroups hostGroup } := by
      rw [addHostGroup, appendNew]
      split <;> rfl
    rw [List.foldl_cons, List.foldl_cons, hadd, ih]

def isValidHost (g : HMDataHostGroup) (host : HMString) : Bool := host ∈ g.hosts

end HMDataHostGroup

abbrev HMDataHostGroupMap := SortedMap HMString HMDataHostGroup

end NetCHASM
