import NetCHASM.DataHostGroup
import NetCHASM.Library.ByteStream
import Mathlib.Data.List.Forall2

/-! The byte stream fed to the configuration hash. The digest is taken to be
collision free, so two configurations have equal hashes when their streams are equal.
Integers are fed in little-endian order, addresses in network order. -/
namespace ConfigHash

open NetCHASM OrderedMap ByteStream

/-- The fields of fixed width, in the order in which the hash is fed. -/
def fixedFields (g : HMDataHostGroup) : List (ℕ × ℕ) :=
  [(2, g.measurementOptions.toNat), (1, g.dualstack.code.toNat), (1, g.checkType.code.toNat),
    (2, g.port.toNat), (1, g.numCheckRetries.toNat), (4, g.checkRetryDelay.toNat),
    (4, g.smoothingWindow.toNat), (4, g.groupThreshold.toNat), (4, g.slowThreshold.toNat),
    (4, g.maxFlaps.toNat), (8, g.checkTimeout.toNat), (8, g.checkTTL.toNat),
    (4, g.flapThreshold.toNat), (4, g.passthroughInfo.toNat)]

def addressBytes (a : HMIPAddress) : List UInt8 :=
  a.getType :: match a with
    | .unset => []
    | .v4 addr => beBytes 4 addr.toNat
    | .v6 addr => beBytes 16 addr.toNat

def getHash (g : HMDataHostGroup) : List UInt8 :=
  g.groupName ++ (encodeFields (fixedFields g) ++ (addressBytes g.sourceAddress ++
    (g.tosValue :: (g.hosts.flatten ++ g.hostGroups.flatten))))

/-- The hash of a whole configuration is fed group by group in name order. -/
def hashConfigs (m : HMDataHostGroupMap) : List UInt8 := m.entries.flatMap fun e => getHash e.2

/-- What a group says about the checks to make. -/
structure SameChecks (g₁ g₂ : HMDataHostGroup) : Prop where
  name : g₁.groupName = g₂.groupName
  check : g₁.getHostCheck = g₂.getHostCheck
  params : g₁.getCheckParameters = g₂.getCheckParameters
  hosts : g₁.hosts = g₂.hosts
  hostGroups : g₁.hostGroups = g₂.hostGroups

/-- Agreement on what the stream leaves out: the fields that are never fed, and the
lengths of the names, which are fed without separators. -/
structure SameUnfed (g₁ g₂ : HMDataHostGroup) : Prop where
  checkFields : g₁.checkType ≠ .invalid →
    g₁.checkInfo = g₂.checkInfo ∧ g₁.remoteCheck = g₂.remoteCheck ∧
      g₁.distributedFallback = g₂.distributedFallback ∧ g₁.dnsType = g₂.dnsType ∧
      g₁.checkPlugin = g₂.checkPlugin ∧ g₁.remoteCheckType = g₂.remoteCheckType ∧
      g₁.flowType = g₂.flowType
  nameLength : g₁.groupName.length = g₂.groupName.length
  hostLengths : g₁.hosts.map List.length = g₂.hosts.map List.length
  hostGroupLengths : g₁.hostGroups.map List.length = g₂.hostGroups.map List.length

variable {g₁ g₂ : HMDataHostGroup} {s t : List UInt8}

theorem fixedFields_bounded (g : HMDataHostGroup) : ∀ f ∈ fixedFields g, f.2 < 256 ^ f.1 := by
  intro f hf
  simp only [fixedFields, List.mem_cons, List.not_mem_nil, or_false] at hf
  rcases hf with rfl | rfl | rfl | rfl | rfl | rfl | rfl | rfl | rfl | rfl | rfl | rfl | rfl | rfl
  all_goals first
    | exact UInt8.toNat_lt _
    | exact UInt16.toNat_lt _
    | exact UInt32.toNat_lt _
    | exact UInt64.toNat_lt _

theorem addressBytes_append_inj {a b : HMIPAddress}
    (h : addressBytes a ++ s = addressBytes b ++ t) : a = b ∧ s = t := by
  cases a <;> cases b <;>
    simp only [addressBytes, HMIPAddress.getType, afUnspec, afInet, afInet6, List.cons_append,
      List.cons.injEq, List.nil_append, reduceCtorEq, false_and, true_and] at h ⊢
  · exact h
  all_goals first
    | exact absurd h.1 (by decide)
    | skip
  · obtain ⟨haddr, hst⟩ := List.append_inj h (by simp)
    have hnat := beBytes_inj (UInt32.toNat_lt _) (UInt32.toNat_lt _) haddr
    exact ⟨by rw [UInt32.toNat_inj.mp hnat], hst⟩
  · obtain ⟨haddr, hst⟩ := List.append_inj h (by simp)
    have hnat := beBytes_inj (BitVec.isLt _) (BitVec.isLt _) haddr
    exact ⟨by rw [BitVec.eq_of_toNat_eq hnat], hst⟩

/-- The fields of a group that its stream determines once the lengths are known. -/
theorem getHash_append_inj (hname : g₁.groupName.length = g₂.groupName.length)
    (hhosts : g₁.hosts.map List.length = g₂.hosts.map List.length)
    (hgroups : g₁.hostGroups.map List.length = g₂.hostGroups.map List.length)
    (h : getHash g₁ ++ s = getHash g₂ ++ t) :
    g₁.groupName = g₂.groupName ∧ fixedFields g₁ = fixedFields g₂ ∧
      g₁.sourceAddress = g₂.sourceAddress ∧ g₁.tosValue = g₂.tosValue ∧
      g₁.hosts = g₂.hosts ∧ g₁.hostGroups = g₂.hostGroups ∧ s = t := by
  simp only [getHash, List.append_assoc, List.cons_append] at h
  obtain ⟨hn, h⟩ := List.append_inj h hname
  have hwidth : (fixedFields g₁).map Prod.fst = (fixedFields g₂).map Prod.fst := rfl
  obtain ⟨hf, h⟩ := encodeFields_append_inj hwidth (fixedFields_bounded g₁)
    (fixedFields_bounded g₂) h
  obtain ⟨ha, h⟩ := addressBytes_append_inj h
  rcases List.cons.inj h with ⟨ht, h⟩
  obtain ⟨hh, h⟩ := flatten_append_inj hhosts h
  obtain ⟨hg, hst⟩ := flatten_append_inj hgroups h
  exact ⟨hn, hf, ha, ht, hh, hg, hst⟩

theorem fixedFields_inj (h : fixedFields g₁ = fixedFields g₂) :
    g₁.toCheckParameters = g₂.toCheckParameters ∧ g₁.dualstack = g₂.dualstack ∧
      g₁.checkType = g₂.checkType ∧ g₁.port = g₂.port := by
  simp only [fixedFields, List.cons.injEq, Prod.mk.injEq, true_and, UInt8.toNat_inj,
    UInt16.toNat_inj, UInt32.toNat_inj, UInt64.toNat_inj, and_true] at h
  rcases h with ⟨h₁, h₂, h₃, h₄, h₅, h₆, h₇, h₈, h₉, h₁₀, h₁₁, h₁₂, h₁₃, h₁₄⟩
  refine ⟨?_, DualStack.code_inj.mp h₂, CheckType.code_inj.mp h₃, h₄⟩
  rw [CheckParameters.mk.injEq]
  exact ⟨h₅, h₆, h₁, h₇, h₈, h₉, h₁₀, h₁₁, h₁₂, h₁₃, h₁₄⟩

/-- A stream followed by anything determines a group up to what it leaves out. -/
theorem sameChecks_of_sameUnfed (hunfed : SameUnfed g₁ g₂)
    (h : getHash g₁ ++ s = getHash g₂ ++ t) : SameChecks g₁ g₂ ∧ s = t := by
  obtain ⟨hname, hfixed, haddr, htos, hhosts, hgroups, hst⟩ :=
    getHash_append_inj hunfed.nameLength hunfed.hostLengths hunfed.hostGroupLengths h
  obtain ⟨hparams, hdual, htype, hport⟩ := fixedFields_inj hfixed
  have hcheck : g₁.getHostCheck = g₂.getHostCheck := by
    unfold HMDataHostGroup.getHostCheck
    by_cases hvalid : g₁.checkType = .invalid
    · rw [if_neg (by simpa using hvalid), if_neg (by simpa [← htype] using hvalid)]
    · rw [if_pos hvalid, if_pos (htype ▸ hvalid), Option.some.injEq, HMDataHostCheck.mk.injEq]
      obtain ⟨hinfo, hremote, hfallback, hdns, hplugin, hremoteType, hflow⟩ :=
        hunfed.checkFields hvalid
      exact ⟨htype, hport, hdual, hinfo, hremote, hfallback, hdns, hplugin, hremoteType, haddr,
        htos, hflow⟩
  refine ⟨⟨hname, hcheck, ?_, hhosts, hgroups⟩, hst⟩
  rw [HMDataHostGroup.getCheckParameters, HMDataHostGroup.getCheckParameters, hparams]

theorem sameUnfed_of_sameChecks (h : SameChecks g₁ g₂) : SameUnfed g₁ g₂ where
  checkFields hvalid := by
    have hcheck := h.check
    unfold HMDataHostGroup.getHostCheck at hcheck
    rw [if_pos hvalid] at hcheck
    split at hcheck
    · rw [Option.some.injEq, HMDataHostCheck.mk.injEq] at hcheck
      obtain ⟨-, -, -, hinfo, hremote, hfallback, hdns, hplugin, hremoteType, -, -, hflow⟩ :=
        hcheck
      exact ⟨hinfo, hremote, hfallback, hdns, hplugin, hremoteType, hflow⟩
    · cases hcheck
  nameLength := by rw [h.name]
  hostLengths := by rw [h.hosts]
  hostGroupLengths := by rw [h.hostGroups]

/-- Streams of whole configurations determine their groups one after the other. -/
theorem sameChecks_of_flatMap {gs₁ gs₂ : List HMDataHostGroup}
    (hunfed : List.Forall₂ SameUnfed gs₁ gs₂)
    (h : gs₁.flatMap getHash = gs₂.flatMap getHash) : List.Forall₂ SameChecks gs₁ gs₂ := by
  induction hunfed with
  | nil => exact .nil
  | cons hfirst _ ih =>
    simp only [List.flatMap_cons] at h
    obtain ⟨hsame, hrest⟩ := sameChecks_of_sameUnfed hfirst h
    exact .cons hsame (ih hrest)

def groups (m : HMDataHostGroupMap) : List HMDataHostGroup := m.entries.map Prod.snd

/-- Equal hashes describe the same checks exactly for configurations that agree on
what the hash is not fed. -/
theorem sameChecks_iff_sameUnfed_of_hash_eq (g₁ g₂ : HMDataHostGroup)
    (m₁ m₂ : HMDataHostGroupMap) :
    (getHash g₁ = getHash g₂ → (SameChecks g₁ g₂ ↔ SameUnfed g₁ g₂)) ∧
      (hashConfigs m₁ = hashConfigs m₂ →
        (List.Forall₂ SameChecks (groups m₁) (groups m₂) ↔
          List.Forall₂ SameUnfed (groups m₁) (groups m₂))) := by
  constructor
  · intro h
    refine ⟨sameUnfed_of_sameChecks, ?_⟩
    intro hunfed
    exact (sameChecks_of_sameUnfed hunfed (congrArg (· ++ []) h)).1
  · intro h
    refine ⟨List.Forall₂.imp fun _ _ => sameUnfed_of_sameChecks, ?_⟩
    intro hunfed
    apply sameChecks_of_flatMap hunfed
    simpa [groups, hashConfigs, List.flatMap_map] using h

/-- Every group shares its hash with another one that checks something else: the text
of the check is never fed, and an empty host name feeds nothing. -/
theorem exists_same_hash_other_checks (g : HMDataHostGroup) :
    ∃ g', getHash g' = getHash g ∧ g'.hosts ≠ g.hosts ∧
      (g.checkType ≠ .invalid → g'.getHostCheck ≠ g.getHostCheck) := by
  refine ⟨{ g with checkInfo := 0 :: g.checkInfo, hosts := g.hosts ++ [[]] }, ?_, ?_, ?_⟩
  · simp [getHash, fixedFields]
  · simp
  · intro hvalid
    simp only [HMDataHostGroup.getHostCheck, hvalid, ne_eq, not_false_eq_true, if_true,
      Option.some.injEq]
    intro h
    have hinfo := congrArg (fun c => c.checkInfo.length) h
    simp at hinfo

/-- A group whose only host is checked over HTTP for a page. -/
def sampleGroup : HMDataHostGroup :=
  { HMDataHostGroup.new (bytes "web") with
    checkType := .http
    port := 80
    checkInfo := bytes "//a/ok"
    hosts := [bytes "ab", bytes "c"] }

theorem sample_renamed_hosts_same_hash :
    getHash sampleGroup = getHash { sampleGroup with hosts := [bytes "a", bytes "bc"] } ∧
      (SameChecks sampleGroup { sampleGroup with hosts := [bytes "a", bytes "bc"] } ↔
        SameUnfed sampleGroup { sampleGroup with hosts := [bytes "a", bytes "bc"] }) := by
  have h : getHash sampleGroup = getHash { sampleGroup with hosts := [bytes "a", bytes "bc"] } := by
    decide
  exact ⟨h, (sameChecks_iff_sameUnfed_of_hash_eq sampleGroup
    { sampleGroup with hosts := [bytes "a", bytes "bc"] } ∅ ∅).1 h⟩

/-- Two groups with the same hash that request different pages from different hosts. -/
theorem same_hash_different_checks :
    getHash sampleGroup = getHash { sampleGroup with
        checkInfo := bytes "//a/up", hosts := [bytes "a", bytes "bc"] } ∧
      sampleGroup.getHostCheck ≠ { sampleGroup with
        checkInfo := bytes "//a/up", hosts := [bytes "a", bytes "bc"] }.getHostCheck ∧
      sampleGroup.hosts ≠ [bytes "a", bytes "bc"] := by
  decide

end ConfigHash
