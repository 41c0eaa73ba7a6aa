import NetCHASM.DataCheckList
import NetCHASM.Library.KeySoundness
import Mathlib.Tactic.MkIffOfInductiveProp

/-! The comparison operators of the key types. Most are a chain of fields beside a
separately written equality test. The operator of host groups is true as soon as one field
is smaller, and the equality test of lookups leaves the remote group out. -/
namespace NetCHASM

open KeyOrder OrderedMap

/-- Two addresses without a family are equal: their bytes are not looked at. -/
def HMIPAddress.beq (a b : HMIPAddress) : Bool := a.getType = b.getType && a.value = b.value

theorem HMIPAddress.beq_iff {a b : HMIPAddress} : a.beq b = true ↔ a = b := by
  simp only [beq, Bool.and_eq_true, decide_eq_true_eq]
  constructor
  · rintro ⟨htype, hvalue⟩
    exact eq_of_getType_value htype hvalue
  · rintro rfl
    exact ⟨rfl, rfl⟩

theorem HMIPAddress.eqv_eq_beq (a b : HMIPAddress) : eqv a b = a.beq b := by
  rw [Bool.eq_iff_iff, beq_iff, eqv_iff_eq]

namespace HMDataCheckParams

def lt (a b : HMDataCheckParams) : Bool :=
  if a.numCheckRetries ≠ b.numCheckRetries then a.numCheckRetries < b.numCheckRetries
  else if a.checkRetryDelay ≠ b.checkRetryDelay then a.checkRetryDelay < b.checkRetryDelay
  else if a.measurementOptions ≠ b.measurementOptions then
    a.measurementOptions < b.measurementOptions
  else if a.smoothingWindow ≠ b.smoothingWindow then a.smoothingWindow < b.smoothingWindow
  else if a.groupThreshold ≠ b.groupThreshold then a.groupThreshold < b.groupThreshold
  else if a.slowThreshold ≠ b.slowThreshold then a.slowThreshold < b.slowThreshold
  else if a.maxFlaps ≠ b.maxFlaps then a.maxFlaps < b.maxFlaps
  else if a.checkTimeout ≠ b.checkTimeout then a.checkTimeout < b.checkTimeout
  else if a.checkTTL ≠ b.checkTTL then a.checkTTL < b.checkTTL
  else if a.flapThreshold ≠ b.flapThreshold then a.flapThreshold < b.flapThreshold
  else a.passthroughInfo < b.passthroughInfo

/-- The results and the groups of the parameters are not compared. -/
def beq (a b : HMDataCheckParams) : Bool :=
  a.numCheckRetries = b.numCheckRetries && a.checkRetryDelay = b.checkRetryDelay &&
    a.measurementOptions = b.measurementOptions && a.smoothingWindow = b.smoothingWindow &&
    a.groupThreshold = b.groupThreshold && a.slowThreshold = b.slowThreshold &&
    a.maxFlaps = b.maxFlaps && a.checkTimeout = b.checkTimeout && a.checkTTL = b.checkTTL &&
    a.flapThreshold = b.flapThreshold && a.passthroughInfo = b.passthroughInfo

theorem lt_eq_lexLt : lt = lexLt (fun a => a.numCheckRetries) (lexLt (fun a => a.checkRetryDelay)
    (lexLt (fun a => a.measurementOptions) (lexLt (fun a => a.smoothingWindow)
    (lexLt (fun a => a.groupThreshold) (lexLt (fun a => a.slowThreshold)
    (lexLt (fun a => a.maxFlaps) (lexLt (fun a => a.checkTimeout)
    (lexLt (fun a => a.checkTTL) (lexLt (fun a => a.flapThreshold)
    fun a b => Ordered.lt a.passthroughInfo b.passthroughInfo))))))))) := rfl

theorem lt_weak : StrictWeak lt := by
  rw [lt_eq_lexLt]
  exact ((((((((((Ordered.weak.comap fun a : HMDataCheckParams => a.passthroughInfo).lex
    _).lex _).lex _).lex _).lex _).lex _).lex _).lex _).lex _).lex _

instance : Ordered HMDataCheckParams := ⟨lt, lt_weak⟩

theorem eqv_eq_beq (a b : HMDataCheckParams) : eqv a b = a.beq b := by
  have hpass : (Ordered.lt a.passthroughInfo b.passthroughInfo = false ∧
      Ordered.lt b.passthroughInfo a.passthroughInfo = false) ↔
      a.passthroughInfo = b.passthroughInfo := eqv_iff.symm.trans eqv_iff_eq
  rw [Bool.eq_iff_iff, eqv_iff]
  change lt a b = false ∧ lt b a = false ↔ _
  simp only [lt_eq_lexLt, lexLt_incomparable, hpass]
  simp [beq, and_assoc]

end HMDataCheckParams

/-- What identifies a kept connection to a remote daemon: a socket path, or an address with
port, source address and type of service. -/
structure HMConnectionCheck where
  port : UInt16
  address : HMIPAddress
  remoteCheckType : RemoteCheckType
  socketPath : HMString
  sourceAddress : HMIPAddress
  tos : UInt8
  deriving DecidableEq, Repr

namespace HMConnectionCheck

def lt (a b : HMConnectionCheck) : Bool :=
  if a.socketPath ≠ b.socketPath then a.socketPath < b.socketPath
  else if a.port ≠ b.port then a.port < b.port
  else if a.address ≠ b.address then a.address.lt b.address
  else if a.remoteCheckType.code ≠ b.remoteCheckType.code then
    a.remoteCheckType.code < b.remoteCheckType.code
  else if a.sourceAddress ≠ b.sourceAddress then a.sourceAddress.lt b.sourceAddress
  else a.tos < b.tos

def beq (a b : HMConnectionCheck) : Bool :=
  a.socketPath = b.socketPath && a.port = b.port && a.address = b.address &&
    a.remoteCheckType = b.remoteCheckType && a.sourceAddress = b.sourceAddress && a.tos = b.tos

theorem lt_eq_lexLt : lt = lexLt (fun a => a.socketPath) (lexLt (fun a => a.port)
    (lexLt (fun a => a.address) (lexLt (fun a => a.remoteCheckType.code)
    (lexLt (fun a => a.sourceAddress) fun a b => Ordered.lt a.tos b.tos)))) := rfl

theorem lt_weak : StrictWeak lt := by
  rw [lt_eq_lexLt]
  exact (((((Ordered.weak.comap fun a : HMConnectionCheck => a.tos).lex
    _).lex _).lex _).lex _).lex _

instance : Ordered HMConnectionCheck := ⟨lt, lt_weak⟩

theorem eqv_eq_beq (a b : HMConnectionCheck) : eqv a b = a.beq b := by
  have htos : (Ordered.lt a.tos b.tos = false ∧ Ordered.lt b.tos a.tos = false) ↔ a.tos = b.tos :=
    eqv_iff.symm.trans eqv_iff_eq
  rw [Bool.eq_iff_iff, eqv_iff]
  change lt a b = false ∧ lt b a = false ↔ _
  simp only [lt_eq_lexLt, lexLt_incomparable, htos]
  simp [beq, RemoteCheckType.code_inj, and_assoc]

end HMConnectionCheck

/-- Keys of the check list with equal host, check and DNS type. -/
def CheckListKey.beq (a b : CheckListKey) : Bool :=
  a.hostname = b.hostname && a.hostCheck.beq b.hostCheck &&
    a.hostCheck.dnsType = b.hostCheck.dnsType

theorem CheckListKey.eqv_eq_beq (a b : CheckListKey) : eqv a b = a.beq b := by
  rw [Bool.eq_iff_iff, eqv_iff_fields]
  simp [beq, and_assoc]

/-- Each of the five comparators is a strict order that is total up to the equality of its
keys, and a search finds an entry exactly when an equal key was inserted. -/
theorem comparators_sound :
    SoundKey HMIPAddress.lt HMIPAddress.beq ∧ SoundKey HMDataHostCheck.lt HMDataHostCheck.beq ∧
      SoundKey HMDataCheckParams.lt HMDataCheckParams.beq ∧
      SoundKey HMConnectionCheck.lt HMConnectionCheck.beq ∧
      SoundKey CheckListKey.compareCheckList CheckListKey.beq := by
  refine ⟨?_, ?_, ?_, ?_, ?_⟩
  · exact SoundKey.of_eqv HMIPAddress.eqv_eq_beq
  · exact SoundKey.of_eqv HMDataHostCheck.eqv_eq_beq
  · exact SoundKey.of_eqv HMDataCheckParams.eqv_eq_beq
  · exact SoundKey.of_eqv HMConnectionCheck.eqv_eq_beq
  · exact SoundKey.of_eqv CheckListKey.eqv_eq_beq

namespace HMDataHostGroup

def lt (a b : HMDataHostGroup) : Bool :=
  a.groupName < b.groupName || a.measurementOptions < b.measurementOptions ||
    a.dualstack.code < b.dualstack.code || a.checkType.code < b.checkType.code ||
    a.port < b.port || a.checkInfo < b.checkInfo || a.numCheckRetries < b.numCheckRetries ||
    a.checkRetryDelay < b.checkRetryDelay || a.smoothingWindow < b.smoothingWindow ||
    a.groupThreshold < b.groupThreshold || a.slowThreshold < b.slowThreshold ||
    a.maxFlaps < b.maxFlaps || a.checkTimeout < b.checkTimeout || a.checkTTL < b.checkTTL ||
    a.flapThreshold < b.flapThreshold || a.passthroughInfo < b.passthroughInfo ||
    a.checkPlugin.code < b.checkPlugin.code || a.tosValue < b.tosValue ||
    a.flowType.code < b.flowType.code

/-- No field of the first group is above that of the second. -/
@[mk_iff] structure FieldsLe (a b : HMDataHostGroup) : Prop where
  groupName : a.groupName ≤ b.groupName
  measurementOptions : a.measurementOptions ≤ b.measurementOptions
  dualstack : a.dualstack.code ≤ b.dualstack.code
  checkType : a.checkType.code ≤ b.checkType.code
  port : a.port ≤ b.port
  checkInfo : a.checkInfo ≤ b.checkInfo
  numCheckRetries : a.numCheckRetries ≤ b.numCheckRetries
  checkRetryDelay : a.checkRetryDelay ≤ b.checkRetryDelay
  smoothingWindow : a.smoothingWindow ≤ b.smoothingWindow
  groupThreshold : a.groupThreshold ≤ b.groupThreshold
  slowThreshold : a.slowThreshold ≤ b.slowThreshold
  maxFlaps : a.maxFlaps ≤ b.maxFlaps
  checkTimeout : a.checkTimeout ≤ b.checkTimeout
  checkTTL : a.checkTTL ≤ b.checkTTL
  flapThreshold : a.flapThreshold ≤ b.flapThreshold
  passthroughInfo : a.passthroughInfo ≤ b.passthroughInfo
  checkPlugin : a.checkPlugin.code ≤ b.checkPlugin.code
  tosValue : a.tosValue ≤ b.tosValue
  flowType : a.flowType.code ≤ b.flowType.code

theorem lt_eq_false_iff {a b : HMDataHostGroup} : a.lt b = false ↔ FieldsLe b a := by
  simp only [lt, fieldsLe_iff, Bool.or_eq_false_iff, decide_eq_false_iff_not, UInt8.not_lt,
    UInt16.not_lt, UInt32.not_lt, UInt64.not_lt, List.not_lt, and_assoc]

theorem FieldsLe.trans {a b c : HMDataHostGroup} (hab : FieldsLe a b) (hbc : FieldsLe b c) :
    FieldsLe a c where
  groupName := List.le_trans hab.groupName hbc.groupName
  measurementOptions := UInt16.le_trans hab.measurementOptions hbc.measurementOptions
  dualstack := UInt8.le_trans hab.dualstack hbc.dualstack
  checkType := UInt8.le_trans hab.checkType hbc.checkType
  port := UInt16.le_trans hab.port hbc.port
  checkInfo := List.le_trans hab.checkInfo hbc.checkInfo
  numCheckRetries := UInt8.le_trans hab.numCheckRetries hbc.numCheckRetries
  checkRetryDelay := UInt32.le_trans hab.checkRetryDelay hbc.checkRetryDelay
  smoothingWindow := UInt32.le_trans hab.smoothingWindow hbc.smoothingWindow
  groupThreshold := UInt32.le_trans hab.groupThreshold hbc.groupThreshold
  slowThreshold := UInt32.le_trans hab.slowThreshold hbc.slowThreshold
  maxFlaps := UInt32.le_trans hab.maxFlaps hbc.maxFlaps
  checkTimeout := UInt64.le_trans hab.checkTimeout hbc.checkTimeout
  checkTTL := UInt64.le_trans hab.checkTTL hbc.checkTTL
  flapThreshold := UInt32.le_trans hab.flapThreshold hbc.flapThreshold
  passthroughInfo := UInt32.le_trans hab.passthroughInfo hbc.passthroughInfo
  checkPlugin := UInt8.le_trans hab.checkPlugin hbc.checkPlugin
  tosValue := UInt8.le_trans hab.tosValue hbc.tosValue
  flowType := UInt8.le_trans hab.flowType hbc.flowType

theorem FieldsLe.beq {a b : HMDataHostGroup} (hab : FieldsLe a b) (hba : FieldsLe b a) :
    a.beq b = true := by
  simp only [HMDataHostGroup.beq, Bool.and_eq_true, decide_eq_true_eq, ← DualStack.code_inj,
    ← CheckType.code_inj, ← FlowType.code_inj, and_assoc]
  exact ⟨List.le_antisymm hab.groupName hba.groupName,
    UInt16.le_antisymm hab.measurementOptions hba.measurementOptions,
    UInt8.le_antisymm hab.dualstack hba.dualstack, UInt8.le_antisymm hab.checkType hba.checkType,
    UInt16.le_antisymm hab.port hba.port, List.le_antisymm hab.checkInfo hba.checkInfo,
    UInt8.le_antisymm hab.numCheckRetries hba.numCheckRetries,
    UInt32.le_antisymm hab.checkRetryDelay hba.checkRetryDelay,
    UInt32.le_antisymm hab.smoothingWindow hba.smoothingWindow,
    UInt32.le_antisymm hab.groupThreshold hba.groupThreshold,
    UInt32.le_antisymm hab.slowThreshold hba.slowThreshold,
    UInt32.le_antisymm hab.maxFlaps hba.maxFlaps,
    UInt64.le_antisymm hab.checkTimeout hba.checkTimeout,
    UInt64.le_antisymm hab.checkTTL hba.checkTTL,
    UInt32.le_antisymm hab.flapThreshold hba.flapThreshold,
    UInt32.le_antisymm hab.passthroughInfo hba.passthroughInfo,
    UInt8.le_antisymm hab.tosValue hba.tosValue, UInt8.le_antisymm hab.flowType hba.flowType⟩

theorem FieldsLe.of_beq {a b : HMDataHostGroup} (h : a.beq b = true)
    (hplugin : a.checkPlugin = b.checkPlugin) : FieldsLe a b := by
  simp only [HMDataHostGroup.beq, Bool.and_eq_true, decide_eq_true_eq] at h
  simp only [fieldsLe_iff, h, hplugin, UInt8.le_refl, UInt16.le_refl, UInt32.le_refl,
    UInt64.le_refl, List.le_refl, and_self]

theorem beq_symm {a b : HMDataHostGroup} (h : a.beq b = true) : b.beq a = true := by
  simp only [beq, Bool.and_eq_true, decide_eq_true_eq] at h ⊢
  simp only [h, and_self]

/-- Any two of the groups are ordered the same way by all nineteen fields, and two that the
equality test identifies have the same plugin. -/
def FieldsAgree (groups : Set HMDataHostGroup) : Prop :=
  ∀ a ∈ groups, ∀ b ∈ groups, (FieldsLe a b ∨ FieldsLe b a) ∧
    (a.beq b = true → a.checkPlugin = b.checkPlugin)

theorem consistentOn_iff (groups : Set HMDataHostGroup) :
    ConsistentOn groups lt beq ↔ FieldsAgree groups := by
  constructor
  · intro h a ha b hb
    constructor
    · cases hab : a.lt b with
      | false => exact Or.inr (lt_eq_false_iff.mp hab)
      | true => exact Or.inl (lt_eq_false_iff.mp (h.asymm a ha b hb hab))
    · intro hbeq
      obtain ⟨hab, hba⟩ := (h.incomparable_iff a ha b hb).mpr hbeq
      have hcode : a.checkPlugin.code = b.checkPlugin.code :=
        UInt8.le_antisymm (lt_eq_false_iff.mp hba).checkPlugin (lt_eq_false_iff.mp hab).checkPlugin
      exact CheckPluginClass.code_inj.mp hcode
  · intro h
    refine ⟨?_, ?_, ?_⟩
    · intro a ha b hb hab
      rcases (h a ha b hb).1 with hle | hle
      · exact lt_eq_false_iff.mpr hle
      · rw [lt_eq_false_iff.mpr hle] at hab
        cases hab
    · intro a _ b _ c _ hab hbc
      exact lt_eq_false_iff.mpr ((lt_eq_false_iff.mp hbc).trans (lt_eq_false_iff.mp hab))
    · intro a ha b hb
      rw [lt_eq_false_iff, lt_eq_false_iff]
      constructor
      · rintro ⟨hba, hab⟩
        exact hab.beq hba
      · intro hbeq
        have hplugin : a.checkPlugin = b.checkPlugin := (h a ha b hb).2 hbeq
        exact ⟨FieldsLe.of_beq (beq_symm hbeq) hplugin.symm, FieldsLe.of_beq hbeq hplugin⟩

end HMDataHostGroup

namespace HMDNSLookup

/-- The equality operator looks neither at the remote group nor at the plugin. -/
def beq (a b : HMDNSLookup) : Bool := a.type = b.type && a.ipv6 = b.ipv6

/-- Lookups of one type and family have one remote group. -/
def GroupsAgree (lookups : Set HMDNSLookup) : Prop :=
  ∀ a ∈ lookups, ∀ b ∈ lookups, a.type = b.type → a.ipv6 = b.ipv6 →
    a.remoteCheckGroup = b.remoteCheckGroup

theorem consistentOn_iff (lookups : Set HMDNSLookup) :
    ConsistentOn lookups lt beq ↔ GroupsAgree lookups := by
  have hincomparable : ∀ a b : HMDNSLookup, (a.lt b = false ∧ b.lt a = false) ↔
      a.type = b.type ∧ a.remoteCheckGroup = b.remoteCheckGroup ∧ a.ipv6 = b.ipv6 :=
    fun a b => eqv_iff.symm.trans eqv_iff_fields
  constructor
  · intro h a ha b hb htype hipv6
    have hbeq : a.beq b = true := by simp [beq, htype, hipv6]
    exact ((hincomparable a b).mp ((h.incomparable_iff a ha b hb).mpr hbeq)).2.1
  · intro h
    refine ⟨?_, ?_, ?_⟩
    · intro a _ b _ hab
      exact (Ordered.weak (K := HMDNSLookup)).asymm hab
    · intro a _ b _ c _ hab hbc
      exact (Ordered.weak (K := HMDNSLookup)).negTrans hab hbc
    · intro a ha b hb
      rw [hincomparable, beq, Bool.and_eq_true, decide_eq_true_eq, decide_eq_true_eq]
      constructor
      · rintro ⟨htype, -, hipv6⟩
        exact ⟨htype, hipv6⟩
      · rintro ⟨htype, hipv6⟩
        exact ⟨htype, h a ha b hb htype hipv6, hipv6⟩

end HMDNSLookup

/-- The comparator and the equality test of host groups agree on the groups in use exactly
when all fields order these the same way and no two differ in the plugin alone; those of
lookups exactly when type and family decide the remote group. -/
theorem group_and_lookup_operators_consistent_iff (groups : Set HMDataHostGroup)
    (lookups : Set HMDNSLookup) :
    (ConsistentOn groups HMDataHostGroup.lt HMDataHostGroup.beq ↔
      HMDataHostGroup.FieldsAgree groups) ∧
    (ConsistentOn lookups HMDNSLookup.lt HMDNSLookup.beq ↔ HMDNSLookup.GroupsAgree lookups) :=
  ⟨HMDataHostGroup.consistentOn_iff groups, HMDNSLookup.consistentOn_iff lookups⟩

/-- Of two groups each can be below the other, and lookups for different remote groups are
equal although one is below the other. -/
theorem group_and_lookup_operators_inconsistent :
    ¬ ConsistentOn Set.univ HMDataHostGroup.lt HMDataHostGroup.beq ∧
      ¬ ConsistentOn Set.univ HMDNSLookup.lt HMDNSLookup.beq := by
  constructor
  · intro h
    -- the first name is smaller, the second port is
    have hasymm := h.asymm { HMDataHostGroup.new [97] with port := 80 } trivial
      { HMDataHostGroup.new [98] with port := 21 } trivial (by decide)
    exact absurd hasymm (by decide)
  · intro h
    have hincomparable := (h.incomparable_iff (.new .lookup false []) trivial
      (.new .lookup false [114]) trivial).mpr (by decide)
    exact absurd hincomparable (by decide)

end NetCHASM
