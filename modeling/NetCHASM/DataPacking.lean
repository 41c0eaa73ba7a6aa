import NetCHASM.CheckListIndex
import NetCHASM.ConfigHash

/-! The messages that daemons exchange about checks and host groups. Parsing is taken to give
back the message that was serialized, so a buffer is its message, and the words of an address
are kept as numbers in network order. A message with an enumeration code that no constant has
is not unpacked. -/
namespace NetCHASM

namespace HMDataPacking

structure PIPAddress where
  type : UInt32
  addr0 : UInt32
  addr1 : UInt32
  addr2 : UInt32
  addr3 : UInt32
  deriving DecidableEq, Repr

def packIPAddress : HMIPAddress → PIPAddress
  | .unset => ⟨afUnspec.toUInt32, 0, 0, 0, 0⟩
  | .v4 addr => ⟨afInet.toUInt32, addr, 0, 0, 0⟩
  | .v6 addr => ⟨afInet6.toUInt32, ⟨addr.extractLsb' 96 32⟩, ⟨addr.extractLsb' 64 32⟩,
      ⟨addr.extractLsb' 32 32⟩, ⟨addr.extractLsb' 0 32⟩⟩

/-- An address of neither family leaves the one that is there. -/
def unpackIPAddress (p : PIPAddress) (address : HMIPAddress) : HMIPAddress :=
  if p.type = afInet.toUInt32 then .v4 p.addr0
  else if p.type = afInet6.toUInt32 then
    .v6 (p.addr0.toBitVec ++ p.addr1.toBitVec ++ p.addr2.toBitVec ++ p.addr3.toBitVec)
  else address

@[simp] theorem unpackIPAddress_packIPAddress (a : HMIPAddress) :
    unpackIPAddress (packIPAddress a) .unset = a := by
  cases a with
  | unset => rfl
  | v4 addr => rfl
  | v6 addr =>
    have hwords : addr.extractLsb' 96 32 ++ addr.extractLsb' 64 32 ++ addr.extractLsb' 32 32 ++
        addr.extractLsb' 0 32 = addr := by
      rw [BitVec.extractLsb'_append_extractLsb'_eq_extractLsb' (by decide),
        BitVec.extractLsb'_append_extractLsb'_eq_extractLsb' (by decide),
        BitVec.extractLsb'_append_extractLsb'_eq_extractLsb' (by decide)]
      exact BitVec.extractLsb'_eq_self
    exact congrArg HMIPAddress.v6 hwords

structure PDataHostCheck where
  dualstack : UInt32
  checkType : UInt32
  port : UInt32
  checkInfo : HMString
  sourceAddress : PIPAddress
  tosValue : UInt32
  dnsType : UInt32
  deriving DecidableEq, Repr

def packDataHostCheck (c : HMDataHostCheck) : PDataHostCheck where
  dualstack := c.dualstack.code.toUInt32
  checkType := c.checkType.code.toUInt32
  port := c.port.toUInt32
  checkInfo := c.checkInfo
  sourceAddress := packIPAddress c.sourceAddress
  tosValue := c.tosValue.toUInt32
  dnsType := c.dnsType.code.toUInt32

/-- The check is taken from a fresh host group that gets the fields of the message. -/
def unpackDataHostCheck (p : PDataHostCheck) : Option HMDataHostCheck := do
  let checkType ← CheckType.ofCode p.checkType.toUInt8
  let dualstack ← DualStack.ofCode p.dualstack.toUInt8
  let dnsType ← DnsType.ofCode p.dnsType.toUInt8
  let g := { HMDataHostGroup.new (bytes "dummy") with
    checkType := checkType
    port := p.port.toUInt16
    dualstack := dualstack
    checkInfo := p.checkInfo
    dnsType := dnsType
    sourceAddress := unpackIPAddress p.sourceAddress .unset
    tosValue := p.tosValue.toUInt8 }
  return g.toHMDataHostCheck

/-- What of a check a message carries; the rest is as in a fresh group. -/
def sentCheck (c : HMDataHostCheck) : HMDataHostCheck :=
  { HMDataHostCheck.default with
    checkType := c.checkType
    port := c.port
    dualstack := c.dualstack
    checkInfo := c.checkInfo
    dnsType := c.dnsType
    sourceAddress := c.sourceAddress
    tosValue := c.tosValue }

theorem unpackDataHostCheck_packDataHostCheck (c : HMDataHostCheck) :
    unpackDataHostCheck (packDataHostCheck c) = some (sentCheck c) := by
  simp [unpackDataHostCheck, packDataHostCheck, sentCheck, HMDataHostGroup.new]

structure PDataHostGroup where
  measurementOptions : UInt32
  dualstack : UInt32
  checkType : UInt32
  port : UInt32
  numCheckRetries : UInt32
  checkRetryDelay : UInt32
  smoothingWindow : UInt32
  groupThreshold : UInt32
  slowThreshold : UInt32
  maxFlaps : UInt32
  checkTimeout : UInt64
  checkTTL : UInt64
  flapThreshold : UInt32
  passthroughInfo : UInt32
  checkInfo : HMString
  remoteCheckType : UInt32
  remoteCheck : HMString
  distributedFallback : UInt32
  sourceAddress : PIPAddress
  tosValue : UInt32
  dnsType : UInt32
  hosts : List HMString
  hostgroups : List HMString
  deriving DecidableEq, Repr

def packDataHostGroup (g : HMDataHostGroup) : PDataHostGroup where
  measurementOptions := g.measurementOptions.toUInt32
  dualstack := g.dualstack.code.toUInt32
  checkType := g.checkType.code.toUInt32
  port := g.port.toUInt32
  numCheckRetries := g.numCheckRetries.toUInt32
  checkRetryDelay := g.checkRetryDelay
  smoothingWindow := g.smoothingWindow
  groupThreshold := g.groupThreshold
  slowThreshold := g.slowThreshold
  maxFlaps := g.maxFlaps
  checkTimeout := g.checkTimeout
  checkTTL := g.checkTTL
  flapThreshold := g.flapThreshold
  passthroughInfo := g.passthroughInfo
  checkInfo := g.checkInfo
  remoteCheckType := g.remoteCheckType.code.toUInt32
  remoteCheck := g.remoteCheck
  distributedFallback := g.distributedFallback.code.toUInt32
  sourceAddress := packIPAddress g.sourceAddress
  tosValue := g.tosValue.toUInt32
  dnsType := g.dnsType.code.toUInt32
  hosts := g.hosts
  hostgroups := g.hostGroups

/-- The fallback is added to the one that is there, and the remote check, its type and the DNS
type of the message are not read. -/
def unpackDataHostGroup (p : PDataHostGroup) (g : HMDataHostGroup) : Option HMDataHostGroup := do
  let dualstack ← DualStack.ofCode p.dualstack.toUInt8
  let checkType ← CheckType.ofCode p.checkType.toUInt8
  let fallback ← DistributedFallback.ofCode p.distributedFallback.toUInt8
  let g := { g with
    measurementOptions := p.measurementOptions.toUInt16
    dualstack := dualstack
    checkType := checkType
    port := p.port.toUInt16
    numCheckRetries := p.numCheckRetries.toUInt8
    checkRetryDelay := p.checkRetryDelay
    smoothingWindow := p.smoothingWindow
    groupThreshold := p.groupThreshold
    slowThreshold := p.slowThreshold
    maxFlaps := p.maxFlaps
    checkTimeout := p.checkTimeout
    checkTTL := p.checkTTL
    flapThreshold := p.flapThreshold
    passthroughInfo := p.passthroughInfo
    checkInfo := p.checkInfo
    distributedFallback := g.distributedFallback.or fallback
    tosValue := p.tosValue.toUInt8
    sourceAddress := unpackIPAddress p.sourceAddress .unset }
  let g := p.hostgroups.foldl HMDataHostGroup.addHostGroup g
  return p.hosts.foldl HMDataHostGroup.addHost g

/-- What of a group a message brings to a fresh group. -/
def sentGroup (g : HMDataHostGroup) : HMDataHostGroup :=
  { g with
    remoteCheck := []
    remoteCheckType := .none
    dnsType := .lookup
    flowType := .dnsHealth
    checkPlugin := .default }

theorem unpackDataHostGroup_packDataHostGroup {g : HMDataHostGroup} (hhosts : g.hosts.Nodup)
    (hgroups : g.hostGroups.Nodup) :
    unpackDataHostGroup (packDataHostGroup g) (.new g.groupName) = some (sentGroup g) := by
  have hfallback : DistributedFallback.none.or g.distributedFallback = g.distributedFallback := by
    cases g.distributedFallback <;> rfl
  have hhosts' : g.hosts.foldl HMDataHostGroup.appendNew [] = g.hosts :=
    HMDataHostGroup.foldl_appendNew_of_nodup hhosts
  have hgroups' : g.hostGroups.foldl HMDataHostGroup.appendNew [] = g.hostGroups :=
    HMDataHostGroup.foldl_appendNew_of_nodup hgroups
  simp only [unpackDataHostGroup, packDataHostGroup, UInt8.toUInt8_toUInt32,
    DualStack.ofCode_code, CheckType.ofCode_code, DistributedFallback.ofCode_code,
    Option.bind_eq_bind, Option.bind_some, Option.pure_def, HMDataHostGroup.foldl_addHost,
    HMDataHostGroup.foldl_addHostGroup]
  simp [sentGroup, HMDataHostGroup.new, HMDataHostCheck.default, hfallback, hhosts', hgroups']

/-- A group that was packed and unpacked configures what it did, and hashes to the same. -/
def RoundTrips (g : HMDataHostGroup) : Prop :=
  ∃ g', unpackDataHostGroup (packDataHostGroup g) (.new g.groupName) = some g' ∧
    ConfigHash.SameChecks g' g ∧ g'.remoteCheckType = g.remoteCheckType ∧
    ConfigHash.getHash g' = ConfigHash.getHash g

/-- The fields that the message loses have the values of a fresh group. -/
structure LosesNothing (g : HMDataHostGroup) : Prop where
  remoteCheckType : g.remoteCheckType = .none
  checkFields : g.checkType ≠ .invalid →
    g.remoteCheck = [] ∧ g.dnsType = .lookup ∧ g.flowType = .dnsHealth ∧ g.checkPlugin = .default

theorem sentGroup_check_eq_iff (g : HMDataHostGroup) :
    (sentGroup g).toHMDataHostCheck = g.toHMDataHostCheck ↔
      g.remoteCheckType = .none ∧ g.remoteCheck = [] ∧ g.dnsType = .lookup ∧
        g.flowType = .dnsHealth ∧ g.checkPlugin = .default := by
  constructor
  · intro h
    have hfield {α : Type} (f : HMDataHostCheck → α) :
        f g.toHMDataHostCheck = f (sentGroup g).toHMDataHostCheck := (congrArg f h).symm
    exact ⟨hfield HMDataHostCheck.remoteCheckType, hfield HMDataHostCheck.remoteCheck,
      hfield HMDataHostCheck.dnsType, hfield HMDataHostCheck.flowType,
      hfield HMDataHostCheck.checkPlugin⟩
  · rintro ⟨htype, hremote, hdns, hflow, hplugin⟩
    cases hg : g.toHMDataHostCheck with
    | mk => simp_all [sentGroup]

theorem getHostCheck_sentGroup (g : HMDataHostGroup) :
    (sentGroup g).getHostCheck = g.getHostCheck ↔
      (g.checkType ≠ .invalid → g.remoteCheckType = .none ∧ g.remoteCheck = [] ∧
        g.dnsType = .lookup ∧ g.flowType = .dnsHealth ∧ g.checkPlugin = .default) := by
  have htype : (sentGroup g).checkType = g.checkType := rfl
  rw [HMDataHostGroup.getHostCheck, HMDataHostGroup.getHostCheck, htype]
  split
  · rename_i hvalid
    rw [Option.some.injEq, sentGroup_check_eq_iff]
    exact ⟨fun h _ => h, fun h => h hvalid⟩
  · rename_i hinvalid
    exact ⟨fun _ hvalid => absurd hvalid hinvalid, fun _ => rfl⟩

/-- A group survives the trip through a message exactly when it has nothing to lose. -/
theorem roundTrips_iff_losesNothing (g : HMDataHostGroup) (hhosts : g.hosts.Nodup)
    (hgroups : g.hostGroups.Nodup) : RoundTrips g ↔ LosesNothing g := by
  have hsent := unpackDataHostGroup_packDataHostGroup hhosts hgroups
  constructor
  · rintro ⟨g', hg', hchecks, htype, -⟩
    obtain rfl : sentGroup g = g' := Option.some.inj (hsent.symm.trans hg')
    refine ⟨htype.symm, fun hvalid => ?_⟩
    exact ((getHostCheck_sentGroup g).mp hchecks.check hvalid).2
  · intro h
    refine ⟨sentGroup g, hsent, ⟨rfl, ?_, rfl, rfl, rfl⟩, h.remoteCheckType.symm, rfl⟩
    rw [getHostCheck_sentGroup]
    exact fun hvalid => ⟨h.remoteCheckType, h.checkFields hvalid⟩

theorem plain_group_roundTrips :
    RoundTrips { HMDataHostGroup.new (bytes "plain") with
      checkType := .https
      port := 443
      checkInfo := bytes "/ok"
      hosts := [bytes "web", bytes "mail"]
      hostGroups := [bytes "child"]
      distributedFallback := .local } :=
  (roundTrips_iff_losesNothing _ (by decide) (by decide)).mpr
    ⟨rfl, fun _ => ⟨rfl, rfl, rfl, rfl⟩⟩

/-- The receiver of a group with a remote check makes the checks itself. -/
theorem remote_check_lost_in_message :
    ¬ ∀ g : HMDataHostGroup, g.hosts.Nodup → g.hostGroups.Nodup → RoundTrips g := by
  intro h
  obtain ⟨g', hg', hchecks, -, -⟩ := h { HMDataHostGroup.new (bytes "remote") with
    hosts := [bytes "web"], remoteCheck := bytes "peer" } (by decide) (by decide)
  rw [unpackDataHostGroup_packDataHostGroup (by decide) (by decide)] at hg'
  obtain rfl := Option.some.inj hg'
  have hremote := hchecks.check
  rw [getHostCheck_sentGroup] at hremote
  exact absurd (hremote (by decide)).2.1 (by decide)

end HMDataPacking

end NetCHASM
