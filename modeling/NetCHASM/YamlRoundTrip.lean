import NetCHASM.YamlConfig

/-! Writing the configuration and parsing it again. The two do not know the same keys: what the
writer leaves out comes back as the default. The writer does not quote either: a text that does not
stand for itself is loaded as something else. Loading a file is given with the call. -/
namespace NetCHASM

open KeyOrder OrderedMap Decimal HMConfigParserYAML

section Numbers

/-- Reading a printed number of at most 32 bits keeps its bits. -/
theorem atoi_emod {n : ℕ} (h : n < 2 ^ 63) : atoi (decimal n) % 2 ^ 32 = (n : Int) % 2 ^ 32 := by
  rw [atoi_decimal_of_lt h]
  exact Int.bmod_emod

@[simp] theorem ofInt_atoi_uint32 (u : UInt32) :
    UInt32.ofInt (atoi (decimal u.toNat)) = u := by
  have hlt : u.toNat < 2 ^ 32 := u.toNat_lt
  apply UInt32.toNat_inj.mp
  rw [UInt32.ofInt, UInt32.toNat_ofNat', atoi_emod (by omega)]
  omega

@[simp] theorem ofInt_atoi_uint8 (u : UInt8) : UInt8.ofInt (atoi (decimal u.toNat)) = u := by
  have hlt : u.toNat < 2 ^ 8 := u.toNat_lt
  have hbits := atoi_emod (n := u.toNat) (by omega)
  apply UInt8.toNat_inj.mp
  rw [UInt8.ofInt, UInt8.toNat_ofNat']
  omega

/-- The numbers of 64 bits that survive being read as an int. -/
def fitsInt (u : UInt64) : Prop := u.toNat < 2 ^ 31 ∨ u.toNat = 2 ^ 64 - 1

instance (u : UInt64) : Decidable (fitsInt u) := inferInstanceAs (Decidable (_ ∨ _))

theorem ofInt_atoi_uint64_iff (u : UInt64) :
    UInt64.ofInt (atoi (decimal u.toNat)) = u ↔ fitsInt u := by
  have hlt : u.toNat < 2 ^ 64 := u.toNat_lt
  rw [← UInt64.toNat_inj, UInt64.ofInt, UInt64.toNat_ofNat', fitsInt]
  by_cases h : u.toNat < 2 ^ 63
  · rw [atoi_decimal_of_lt h, Int.bmod_def]
    split <;> omega
  · rw [atoi_decimal_of_ge h]
    omega

theorem atoi_port (u : UInt16) : atoi (decimal u.toNat) = u.toNat := by
  have hlt : u.toNat < 2 ^ 16 := u.toNat_lt
  rw [atoi_decimal_of_lt (by omega), Int.bmod_def]
  split <;> omega

/-- A flap threshold that was read in seconds is written in milliseconds without overflow. -/
theorem ofInt_atoi_flap {u : UInt32} {q : Int} (hlow : -2147483 ≤ q) (hhigh : q ≤ 2147483)
    (hu : u = .ofInt q) :
    UInt32.ofInt ((atoi (decimal (u * 1000).toNat)).tdiv 1000) = u := by
  have hmul : ((u * 1000).toNat : Int) = q * 1000 % 2 ^ 32 := by
    rw [UInt32.toNat_mul, hu, UInt32.ofInt, UInt32.toNat_ofNat']
    have h1000 : (1000 : UInt32).toNat = 1000 := rfl
    rw [h1000]
    omega
  have hlt : (u * 1000).toNat < 2 ^ 32 := (u * 1000).toNat_lt
  have hatoi : atoi (decimal (u * 1000).toNat) = q * 1000 := by
    rw [atoi_decimal_of_lt (by omega), Int.bmod_def]
    split <;> omega
  rw [hatoi, Int.mul_tdiv_cancel q (by decide), hu]

end Numbers

section Reading

variable (parseAddress : HMString → Option HMIPAddress)

/-- Reading the pairs changes the group in one way, whatever else the parser keeps. -/
def Reads (pairs : List (HMString × YamlNode)) (f : HMDataHostGroup → HMDataHostGroup) : Prop :=
  ∀ p : GroupParse, ∃ p', pairs.foldlM (GroupParse.setKey parseAddress) p = some p' ∧
    p'.group = f p.group

variable {parseAddress} {f f' : HMDataHostGroup → HMDataHostGroup}
  {pairs pairs' : List (HMString × YamlNode)}

theorem reads_nil : Reads parseAddress [] id := fun p => ⟨p, rfl, rfl⟩

theorem reads_append (h : Reads parseAddress pairs f) (h' : Reads parseAddress pairs' f') :
    Reads parseAddress (pairs ++ pairs') (f' ∘ f) := by
  intro p
  obtain ⟨q, hq, hgroup⟩ := h p
  obtain ⟨q', hq', hgroup'⟩ := h' q
  refine ⟨q', ?_, ?_⟩
  · rw [List.foldlM_append, hq]
    exact hq'
  · rw [hgroup', hgroup]
    rfl

theorem reads_cons {pair : HMString × YamlNode} (h : Reads parseAddress [pair] f)
    (h' : Reads parseAddress pairs f') : Reads parseAddress (pair :: pairs) (f' ∘ f) :=
  reads_append h h'

/-- Pairs that are written only where they would change the group. -/
theorem reads_if {c : Prop} [Decidable c] (h : c → Reads parseAddress pairs f)
    (hidle : ¬ c → ∀ g, f g = g) : Reads parseAddress (if c then pairs else []) f := by
  by_cases hc : c
  · rw [if_pos hc]
    exact h hc
  · rw [if_neg hc]
    intro p
    exact ⟨p, rfl, (hidle hc p.group).symm⟩

variable {key : GroupKey} {node : YamlNode}

/-- The text of the key is left abstract, so that it need not be looked up again. -/
theorem reads_single (h : ∀ (p : GroupParse) (pair : HMString × YamlNode),
    GroupKey.ofText pair.1 = some key → pair.2 = node →
      ∃ p', p.setKey parseAddress pair = some p' ∧ p'.group = f p.group) :
    Reads parseAddress [(key.text, node)] f := by
  intro p
  obtain ⟨p', hp', hgroup⟩ := h p (key.text, node) (GroupKey.ofText_text key) rfl
  exact ⟨p', by simp [hp'], hgroup⟩

/-- A key that changes the group and nothing else. -/
theorem reads_group (h : ∀ (p : GroupParse) (pair : HMString × YamlNode),
    GroupKey.ofText pair.1 = some key → pair.2 = node →
      p.setKey parseAddress pair = some { p with group := f p.group }) :
    Reads parseAddress [(key.text, node)] f :=
  reads_single fun p pair hkey hnode => ⟨_, h p pair hkey hnode, rfl⟩

theorem reads_name (text : HMString) : Reads parseAddress [line .name text] id :=
  reads_group fun p pair hkey _ => by simp [GroupParse.setKey, hkey]

theorem reads_checkType (type : CheckType) :
    Reads parseAddress [line .checkType (printCheckTypeConfigs type)] fun g =>
      { g with
        checkType := ((checkTypes.lookup (printCheckTypeConfigs type)).map Prod.fst).getD g.checkType
        port := ((checkTypes.lookup (printCheckTypeConfigs type)).map fun t =>
          (GroupParse.setCheckType g t).port).getD g.port } := by
  apply reads_single
  intro p pair hkey hnode
  have hdirect : printCheckTypeConfigs type ≠ bytes "indirect-host" := by
    cases type <;> decide
  refine ⟨p.setOr (checkTypes.lookup (printCheckTypeConfigs type)) GroupParse.setCheckType, ?_, ?_⟩
  · simp [GroupParse.setKey, hkey, hnode, hdirect]
  · cases checkTypes.lookup (printCheckTypeConfigs type) with
    | none => rfl
    | some t => rfl

theorem reads_checkInfo (text : HMString) :
    Reads parseAddress [line .checkInfo text] fun g => { g with checkInfo := text } :=
  reads_single fun p pair hkey hnode =>
    ⟨p.setCheckInfo text, by simp [GroupParse.setKey, hkey, hnode], rfl⟩

theorem reads_checkPort (port : UInt16) :
    Reads parseAddress [line .checkPort (decimal port.toNat)] fun g => { g with port := port } := by
  apply reads_group
  intro p pair hkey hnode
  have hlt : port.toNat < 2 ^ 16 := port.toNat_lt
  have hport : UInt16.ofInt port.toNat = port := by
    apply UInt16.toNat_inj.mp
    rw [UInt16.ofInt, UInt16.toNat_ofNat']
    omega
  have hrange : (0 ≤ (port.toNat : Int) ∧ (port.toNat : Int) ≤ 65535) := by omega
  simp [GroupParse.setKey, hkey, hnode, GroupParse.setPort, atoi_port, hport,
    hrange.2]

theorem reads_dualStack (mode : DualStack) :
    Reads parseAddress [line .dualStackMode (printDualStack mode)] fun g =>
      { g with dualstack := (dualStackModes.lookup (printDualStack mode)).getD g.dualstack } := by
  apply reads_group
  intro p pair hkey hnode
  rw [GroupParse.setKey, hkey, hnode]
  cases mode <;> rfl

theorem reads_rtMode (mode : MeasurementOptions) :
    Reads parseAddress [line .rtMode (printMeasurementOptions mode)] fun g =>
      { g with
        measurementOptions := (rtModes.lookup (printMeasurementOptions mode)).getD rtConnect } := by
  apply reads_single
  intro p pair hkey hnode
  refine ⟨p.setRtMode (printMeasurementOptions mode),
    by simp [GroupParse.setKey, hkey, hnode], ?_⟩
  have hknown : ∃ m, rtModes.lookup (printMeasurementOptions mode) = some m := by
    simp only [printMeasurementOptions]
    repeat' split
    all_goals exact ⟨_, rfl⟩
  rcases hknown with ⟨m, hm⟩
  rw [GroupParse.setRtMode, hm]
  rfl

theorem reads_sourceAddress {text : HMString} {address : HMIPAddress}
    (h : parseAddress text = some address) :
    Reads parseAddress [line .sourceAddress text] fun g => { g with sourceAddress := address } :=
  reads_group fun p pair hkey hnode => by
    simp [GroupParse.setKey, hkey, hnode, GroupParse.setOr, h]

theorem tos_decimal {tos : UInt8} (h : tos ≠ 0) :
    GroupParse.tos (decimal tos.toNat) = tos.toNat := by
  have hlt : tos.toNat < 2 ^ 8 := tos.toNat_lt
  have hne : tos.toNat ≠ 0 := fun hzero => h (UInt8.toNat_inj.mp hzero)
  have hread : (strtoul (decimal tos.toNat) : Int).bmod (2 ^ 32) = tos.toNat := by
    rw [strtoul_decimal hne (by omega), Int.bmod_def]
    split <;> omega
  exact hread

theorem reads_tosValue {tos : UInt8} (h : tos ≠ 0) :
    Reads parseAddress [line .tosValue (decimal tos.toNat)] fun g => { g with tosValue := tos } := by
  apply reads_group
  intro p pair hkey hnode
  have hlt : tos.toNat < 2 ^ 8 := tos.toNat_lt
  have hsmall : (tos.toNat : Int) ≤ 255 := by omega
  have htos : UInt8.ofInt tos.toNat = tos := by
    apply UInt8.toNat_inj.mp
    rw [UInt8.ofInt, UInt8.toNat_ofNat']
    omega
  have hset : p.setTOSValue (decimal tos.toNat) =
      { p with group := { p.group with tosValue := tos } } := by
    rw [GroupParse.setTOSValue, tos_decimal h, if_pos hsmall, htos]
  simp only [GroupParse.setKey, hkey, hnode, YamlNode.text_plain, hset]

theorem reads_flowType (type : FlowType) :
    Reads parseAddress [line .flowType (printFlowType type)] fun g => { g with flowType := type } := by
  apply reads_group
  intro p pair hkey hnode
  rw [GroupParse.setKey, hkey, hnode]
  cases type <;> rfl

theorem texts_sequence (texts : List HMString) :
    (YamlNode.sequence (texts.map .plain)).texts = some texts := by
  rw [YamlNode.texts, List.map_map]
  exact congrArg some ((List.map_congr_left fun s _ => YamlNode.text_plain s).trans
    (List.map_id texts))

theorem reads_hosts (hosts : List HMString) : Reads parseAddress (lines .host hosts) fun g =>
    { g with hosts := hosts.foldl HMDataHostGroup.appendNew g.hosts } := by
  rw [lines]
  split
  · apply reads_group
    intro p pair hkey hnode
    simp [GroupParse.setKey, hkey, hnode, texts_sequence, HMDataHostGroup.foldl_addHost]
  next h =>
    obtain rfl : hosts = [] := by simpa using h
    exact reads_nil

theorem reads_hostGroups (names : List HMString) :
    Reads parseAddress (lines .hostGroup names) fun g =>
      { g with hostGroups := names.foldl HMDataHostGroup.appendNew g.hostGroups } := by
  rw [lines]
  split
  · apply reads_group
    intro p pair hkey hnode
    simp [GroupParse.setKey, hkey, hnode, texts_sequence, HMDataHostGroup.foldl_addHostGroup]
  next h =>
    obtain rfl : names = [] := by simpa using h
    exact reads_nil

/-- The type that the text of a type stands for. One without a text is left at the default. -/
def readCheckType (type : CheckType) : CheckType :=
  ((checkTypes.lookup (printCheckTypeConfigs type)).map Prod.fst).getD .default

/-- A group as it comes back. -/
def readBack (g : HMDataHostGroup) : HMDataHostGroup :=
  { HMDataHostGroup.new g.groupName with
    checkTTL := .ofInt (atoi (decimal g.checkTTL.toNat))
    checkType := readCheckType g.checkType
    checkInfo := g.checkInfo
    checkTimeout := .ofInt (atoi (decimal g.checkTimeout.toNat))
    port := g.port
    dualstack := (dualStackModes.lookup (printDualStack g.dualstack)).getD .ipv4Only
    numCheckRetries := g.numCheckRetries
    checkRetryDelay := if 0 < g.numCheckRetries then g.checkRetryDelay else 0
    groupThreshold := g.groupThreshold
    maxFlaps := g.maxFlaps
    flapThreshold := .ofInt ((atoi (decimal (g.flapThreshold * 1000).toNat)).tdiv 1000)
    slowThreshold := g.slowThreshold
    smoothingWindow := g.smoothingWindow
    measurementOptions := (rtModes.lookup (printMeasurementOptions g.measurementOptions)).getD
      rtConnect
    sourceAddress := g.sourceAddress
    tosValue := g.tosValue
    flowType := g.flowType
    hosts := g.hosts.foldl HMDataHostGroup.appendNew []
    hostGroups := g.hostGroups.foldl HMDataHostGroup.appendNew [] }

variable {printAddress : HMIPAddress → HMString}

/-- The printed form of an address is read as the address. -/
def Rereads (parseAddress : HMString → Option HMIPAddress) (printAddress : HMIPAddress → HMString)
    (address : HMIPAddress) : Prop :=
  address.isSet = true → parseAddress (printAddress address) = some address

instance (parseAddress : HMString → Option HMIPAddress) (printAddress : HMIPAddress → HMString)
    (address : HMIPAddress) : Decidable (Rereads parseAddress printAddress address) :=
  inferInstanceAs (Decidable (_ → _))

/-- The first lines leave the port to the one that is written after them. -/
theorem reads_head (g : HMDataHostGroup) : ∃ port : HMDataHostGroup → UInt16, Reads parseAddress
    [line .name g.groupName, line .ttl (decimal g.checkTTL.toNat),
      line .checkType (printCheckTypeConfigs g.checkType)] fun h =>
        { h with
          checkTTL := .ofInt (atoi (decimal g.checkTTL.toNat))
          checkType := ((checkTypes.lookup (printCheckTypeConfigs g.checkType)).map
            Prod.fst).getD h.checkType
          port := port h } := by
  refine ⟨_, reads_cons (reads_name _) (reads_cons (f := fun h =>
    { h with checkTTL := .ofInt (atoi (decimal g.checkTTL.toNat)) }) ?_
    (reads_checkType g.checkType))⟩
  exact reads_group fun p pair hkey hnode => by
    simp [GroupParse.setKey, hkey, hnode]

theorem reads_info (g : HMDataHostGroup) : Reads parseAddress
    (if 0 < g.checkInfo.length then [line .checkInfo g.checkInfo] else []) fun h =>
      { h with checkInfo := if 0 < g.checkInfo.length then g.checkInfo else h.checkInfo } := by
  refine reads_if (fun hc => ?_) fun hc h => ?_
  · simp only [if_pos hc]
    exact reads_checkInfo g.checkInfo
  · rw [if_neg hc]

theorem reads_middle (g : HMDataHostGroup) : Reads parseAddress
    [line .timeout (decimal g.checkTimeout.toNat), line .checkPort (decimal g.port.toNat),
      line .dualStackMode (printDualStack g.dualstack)] fun h =>
        { h with
          checkTimeout := .ofInt (atoi (decimal g.checkTimeout.toNat))
          port := g.port
          dualstack := (dualStackModes.lookup (printDualStack g.dualstack)).getD h.dualstack } := by
  refine reads_cons (f := fun h =>
    { h with checkTimeout := .ofInt (atoi (decimal g.checkTimeout.toNat)) }) ?_
    (reads_cons (reads_checkPort g.port) (reads_dualStack g.dualstack))
  exact reads_group fun p pair hkey hnode => by
    simp [GroupParse.setKey, hkey, hnode]

theorem reads_retries (g : HMDataHostGroup) : Reads parseAddress
    (if 0 < g.numCheckRetries then
      [line .checkRetries (decimal g.numCheckRetries.toNat),
        line .checkRetryDelay (decimal g.checkRetryDelay.toNat)]
    else []) fun h =>
      { h with
        numCheckRetries := if 0 < g.numCheckRetries then g.numCheckRetries else h.numCheckRetries
        checkRetryDelay :=
          if 0 < g.numCheckRetries then g.checkRetryDelay else h.checkRetryDelay } := by
  refine reads_if (fun hc => ?_) fun hc h => ?_
  · simp only [if_pos hc]
    refine reads_cons (f := fun h => { h with numCheckRetries := g.numCheckRetries }) ?_
      (reads_group (f := fun h => { h with checkRetryDelay := g.checkRetryDelay }) ?_)
    · exact reads_group fun p pair hkey hnode => by
        simp [GroupParse.setKey, hkey, hnode]
    · exact fun p pair hkey hnode => by simp [GroupParse.setKey, hkey, hnode]
  · simp only [if_neg hc]

theorem reads_thresholds (g : HMDataHostGroup) : Reads parseAddress
    [line .groupThreshold (decimal g.groupThreshold.toNat), line .maxFlaps (decimal g.maxFlaps.toNat),
      line .flapThreshold (decimal (g.flapThreshold * 1000).toNat),
      line .slowThreshold (decimal g.slowThreshold.toNat),
      line .smoothingWindow (decimal g.smoothingWindow.toNat),
      line .rtMode (printMeasurementOptions g.measurementOptions)] fun h =>
        { h with
          groupThreshold := g.groupThreshold
          maxFlaps := g.maxFlaps
          flapThreshold := .ofInt ((atoi (decimal (g.flapThreshold * 1000).toNat)).tdiv 1000)
          slowThreshold := g.slowThreshold
          smoothingWindow := g.smoothingWindow
          measurementOptions := (rtModes.lookup (printMeasurementOptions
            g.measurementOptions)).getD rtConnect } := by
  refine reads_cons (f := fun h => { h with groupThreshold := g.groupThreshold }) ?_
    (reads_cons (f := fun h => { h with maxFlaps := g.maxFlaps }) ?_
    (reads_cons (f := fun h => { h with
      flapThreshold := .ofInt ((atoi (decimal (g.flapThreshold * 1000).toNat)).tdiv 1000) }) ?_
    (reads_cons (f := fun h => { h with slowThreshold := g.slowThreshold }) ?_
    (reads_cons (f := fun h => { h with smoothingWindow := g.smoothingWindow }) ?_
    (reads_rtMode g.measurementOptions)))))
  all_goals
    exact reads_group fun p pair hkey hnode => by
      simp [GroupParse.setKey, hkey, hnode]

theorem reads_source {g : HMDataHostGroup}
    (haddress : Rereads parseAddress printAddress g.sourceAddress) : Reads parseAddress
    (if g.sourceAddress.isSet then [line .sourceAddress (printAddress g.sourceAddress)] else [])
    fun h =>
      { h with
        sourceAddress := if g.sourceAddress.isSet then g.sourceAddress else h.sourceAddress } := by
  refine reads_if (fun hc => ?_) fun hc h => ?_
  · simp only [if_pos hc]
    exact reads_sourceAddress (haddress hc)
  · rw [if_neg hc]

theorem reads_tos (g : HMDataHostGroup) : Reads parseAddress
    (if g.tosValue ≠ 0 then [line .tosValue (decimal g.tosValue.toNat)] else []) fun h =>
      { h with tosValue := if g.tosValue ≠ 0 then g.tosValue else h.tosValue } := by
  refine reads_if (fun hc => ?_) fun hc h => ?_
  · simp only [if_pos hc]
    exact reads_tosValue hc
  · rw [if_neg hc]

section Defaults

/-! What is written only under a condition is the default otherwise. -/

theorem info_eq (info : HMString) : (if 0 < info.length then info else []) = info := by
  split
  · rfl
  next hempty => exact (List.length_eq_zero_iff.mp (by omega)).symm

theorem retries_eq (retries : UInt8) : (if 0 < retries then retries else 0) = retries := by
  split
  · rfl
  next hzero =>
    apply UInt8.toNat_inj.mp
    rw [UInt8.lt_iff_toNat_lt] at hzero
    simpa using (Nat.eq_zero_of_not_pos hzero).symm

theorem source_eq (source : HMIPAddress) : (if source.isSet then source else .unset) = source := by
  cases source <;> rfl

theorem tos_eq (tos : UInt8) : (if tos ≠ 0 then tos else 0) = tos := by
  split
  · rfl
  next hzero => exact (not_not.mp hzero).symm

end Defaults

/-- Reading a written group gives it back up to what the writer leaves out. -/
theorem reads_groupLines {g : HMDataHostGroup}
    (haddress : Rereads parseAddress printAddress g.sourceAddress) (p : GroupParse)
    (hnew : p.group = .new g.groupName) :
    ∃ p', (groupLines printAddress g).foldlM (GroupParse.setKey parseAddress) p = some p' ∧
      p'.group = readBack g := by
  obtain ⟨port, hhead⟩ := @reads_head parseAddress g
  obtain ⟨p', hp', hgroup⟩ := (reads_append (reads_append (reads_append (reads_append (reads_append
    (reads_append (reads_append (reads_append (reads_append hhead (reads_info g))
      (reads_middle g)) (reads_retries g)) (reads_thresholds g)) (reads_source haddress))
      (reads_tos g)) (reads_flowType g.flowType)) (reads_hosts g.hosts))
      (reads_hostGroups g.hostGroups)) p
  refine ⟨p', hp', ?_⟩
  have hinfo := info_eq g.checkInfo
  have hretries := retries_eq g.numCheckRetries
  have hsource := source_eq g.sourceAddress
  have htos := tos_eq g.tosValue
  rw [hgroup, hnew]
  simp only [Function.comp_apply, HMDataHostGroup.new, HMDataHostCheck.default,
    CheckParameters.default, hinfo, hretries, hsource, htos]
  rfl

end Reading

section Files

variable {parseAddress : HMString → Option HMIPAddress} {printAddress : HMIPAddress → HMString}

/-- Every line of a written group has one of the keys of a group. -/
theorem key_of_mem_groupLines {g : HMDataHostGroup} {pair : HMString × YamlNode}
    (h : pair ∈ groupLines printAddress g) : ∃ k, GroupKey.ofText pair.1 = some k := by
  have hif : ∀ {c : Prop} [Decidable c] {pairs : List (HMString × YamlNode)},
      (∀ pair ∈ pairs, ∃ k, GroupKey.ofText pair.1 = some k) →
        ∀ pair ∈ (if c then pairs else []), ∃ k, GroupKey.ofText pair.1 = some k := by
    intro c _ pairs hpairs pair hpair
    split at hpair
    · exact hpairs pair hpair
    · cases hpair
  revert pair
  simp only [groupLines, lines, List.forall_mem_append]
  refine ⟨⟨⟨⟨⟨⟨⟨⟨⟨?_, hif ?_⟩, ?_⟩, hif ?_⟩, ?_⟩, hif ?_⟩, hif ?_⟩, ?_⟩, hif ?_⟩, hif ?_⟩
  all_goals simp [line]

theorem lookup_groupLines {s : HMString} (g : HMDataHostGroup) (h : GroupKey.ofText s = none) :
    (groupLines printAddress g).lookup s = none := by
  rw [List.lookup_eq_none_iff]
  intro pair hpair
  obtain ⟨k, hk⟩ := key_of_mem_groupLines hpair
  rw [bne_iff_ne]
  rintro rfl
  rw [h] at hk
  cases hk

/-- A written group is read as a group. -/
theorem setNode_groupLines (p : YamlParse) (g : HMDataHostGroup) :
    p.setNode parseAddress (groupLines printAddress g) =
      p.setGroup parseAddress g.groupName (groupLines printAddress g) := by
  have hname : (groupLines printAddress g).lookup (bytes "name") = some (.plain g.groupName) := by
    rw [groupLines]
    rfl
  rw [YamlParse.setNode, lookup_groupLines g (by decide), lookup_groupLines g (by decide), hname]
  exact congrArg (p.setGroup parseAddress · _) (YamlNode.text_plain g.groupName)

/-- A group with a new name is read into a new group. -/
theorem setNode_new {p : YamlParse} {g : HMDataHostGroup}
    (haddress : Rereads parseAddress printAddress g.sourceAddress)
    (hnew : p.hostGroups.get? g.groupName = none) :
    ∃ p', p.setNode parseAddress (groupLines printAddress g) = some p' ∧
      p'.hostGroups = p.hostGroups.set g.groupName (readBack g) := by
  obtain ⟨r, hr, hgroup⟩ := reads_groupLines haddress
    ⟨.new g.groupName, p.configParams.indirectHost, p.temp, p.nerr⟩ rfl
  rw [setNode_groupLines, YamlParse.setGroup, hnew]
  simp only [Option.getD_none, hr, Option.map_some, Option.some_inj, exists_eq_left']
  rw [hgroup]

/-- Groups in the order of their names are appended one by one. -/
theorem setNodes_written {es : List (HMString × HMDataHostGroup)} {p : YamlParse}
    (haddress : ∀ e ∈ es, Rereads parseAddress printAddress e.2.sourceAddress)
    (hsorted : es.Pairwise fun a b => Ordered.lt a.1 b.1 = true)
    (hname : ∀ e ∈ es, e.2.groupName = e.1)
    (habove : ∀ e ∈ es, ∀ x ∈ p.hostGroups.entries, Ordered.lt x.1 e.1 = true) :
    ∃ p', YamlParse.setNodes parseAddress (es.map fun e => .map (groupLines printAddress e.2)) p =
        some p' ∧
      p'.hostGroups.entries = p.hostGroups.entries ++ es.map fun e => (e.1, readBack e.2) := by
  induction es generalizing p with
  | nil => exact ⟨p, rfl, by simp⟩
  | cons e es ih =>
    rcases List.pairwise_cons.mp hsorted with ⟨hhead, htail⟩
    have hbelow := habove e List.mem_cons_self
    have hnew : p.hostGroups.get? e.2.groupName = none := by
      rw [hname e List.mem_cons_self, SortedMap.get?, SortedMap.find?_eq_none.mpr]
      · rfl
      · exact fun x hx => lt_not_eqv (hbelow x hx)
    obtain ⟨p₁, hp₁, hgroups⟩ := setNode_new (haddress e List.mem_cons_self) hnew
    have hentries : p₁.hostGroups.entries = p.hostGroups.entries ++ [(e.1, readBack e.2)] := by
      rw [hgroups, hname e List.mem_cons_self]
      exact SortedMap.entries_set_of_lt _ hbelow
    obtain ⟨p', hp', happend⟩ := ih (p := p₁)
      (fun x hx => haddress x (List.mem_cons_of_mem e hx)) htail
      (fun x hx => hname x (List.mem_cons_of_mem e hx)) (by
        intro x hx y hy
        rw [hentries, List.mem_append, List.mem_singleton] at hy
        rcases hy with hy | rfl
        · exact habove x (List.mem_cons_of_mem e hx) y hy
        · exact hhead x hx)
    refine ⟨p', ?_, ?_⟩
    · rw [List.map_cons, YamlParse.setNodes, hp₁]
      exact hp'
    · rw [happend, hentries]
      simp

/-- Parsing what the lines stand for gives every group back under its name. -/
theorem parseConfig_written {M : HMDataHostGroupMap}
    (haddress : ∀ e ∈ M.entries, Rereads parseAddress printAddress e.2.sourceAddress)
    (hname : ∀ e ∈ M.entries, e.2.groupName = e.1)
    (params : HMConfigParams) :
    ∃ p, parseConfig parseAddress (spelledOut printAddress M) ∅ params = some p ∧
      p.hostGroups = M.mapVals fun _ g => readBack g := by
  cases hM : M.entries with
  | nil =>
    refine ⟨YamlParse.error ⟨∅, params, rtConnect, 0⟩, ?_, ?_⟩
    · rw [spelledOut, hM]
      rfl
    · apply SortedMap.ext
      have hempty : (M.mapVals fun _ g => readBack g).entries = [] := by
        simp only [SortedMap.mapVals, hM, List.map_nil]
      exact hempty.symm
  | cons e es =>
    obtain ⟨p, hp, hentries⟩ := setNodes_written (p := ⟨∅, params, rtConnect, 0⟩) haddress M.sorted
      hname fun e _ x hx => absurd hx List.not_mem_nil
    refine ⟨p, ?_, ?_⟩
    · rw [hM] at hp
      rw [spelledOut, hM]
      exact hp
    · apply SortedMap.ext
      rw [hentries]
      rfl

end Files

section Invariants

/-! What holds of every new group and is kept by each key holds of the groups that are read. -/

/-- The texts of the value of a key. -/
def valueTexts (pair : HMString × YamlNode) : List HMString := pair.2.text :: pair.2.texts.getD []

def nodeTexts : YamlNode → List HMString
  | .map pairs => pairs.flatMap valueTexts
  | _ => []

/-- The texts of all values in the groups of a file. -/
def fileTexts : YamlNode → List HMString
  | .sequence nodes => nodes.flatMap nodeTexts
  | _ => []

/-- A property of groups under their names, with one of the mode that is kept beside them, where
the texts that are read have a property of their own. -/
structure Invariant (parseAddress : HMString → Option HMIPAddress) (V : HMString → Prop)
    (I : HMString → HMDataHostGroup → Prop) (T : MeasurementOptions → Prop) : Prop where
  new : ∀ name, V name → I name (.new name)
  temp : T rtConnect
  key : ∀ {name : HMString} {p p' : GroupParse} {pair : HMString × YamlNode}, I name p.group →
    T p.temp → (∀ s ∈ valueTexts pair, V s) → p.setKey parseAddress pair = some p' →
      I name p'.group ∧ T p'.temp

/-- The groups of a state have the property. -/
structure Keeps (I : HMString → HMDataHostGroup → Prop) (T : MeasurementOptions → Prop)
    (q : YamlParse) : Prop where
  groups : ∀ name g, q.hostGroups.get? name = some g → I name g
  temp : T q.temp

variable {parseAddress : HMString → Option HMIPAddress} {V : HMString → Prop}
  {I : HMString → HMDataHostGroup → Prop} {T : MeasurementOptions → Prop} {name : HMString}
  {p p' : GroupParse} {q q' : YamlParse} {pairs : List (HMString × YamlNode)}

theorem Invariant.setKeys (h : Invariant parseAddress V I T)
    (htexts : ∀ s ∈ pairs.flatMap valueTexts, V s) (hgroup : I name p.group) (htemp : T p.temp)
    (hp : pairs.foldlM (GroupParse.setKey parseAddress) p = some p') :
    I name p'.group ∧ T p'.temp := by
  induction pairs generalizing p with
  | nil =>
    obtain rfl := Option.some.inj hp
    exact ⟨hgroup, htemp⟩
  | cons pair pairs ih =>
    rw [List.foldlM_cons] at hp
    rw [List.flatMap_cons, List.forall_mem_append] at htexts
    rcases Option.bind_eq_some_iff.mp hp with ⟨p₁, hp₁, htail⟩
    obtain ⟨hgroup₁, htemp₁⟩ := h.key hgroup htemp htexts.1 hp₁
    exact ih htexts.2 hgroup₁ htemp₁ htail

theorem Invariant.setGroup (h : Invariant parseAddress V I T) (hkeeps : Keeps I T q)
    (hname : V name) (htexts : ∀ s ∈ pairs.flatMap valueTexts, V s)
    (hq : q.setGroup parseAddress name pairs = some q') : Keeps I T q' := by
  rw [YamlParse.setGroup, Option.map_eq_some_iff] at hq
  rcases hq with ⟨r, hr, rfl⟩
  have hstart : I name ((q.hostGroups.get? name).getD (.new name)) := by
    cases hget : q.hostGroups.get? name with
    | none => exact h.new name hname
    | some g => exact hkeeps.groups name g hget
  have hread := h.setKeys htexts hstart hkeeps.temp hr
  refine ⟨?_, hread.2⟩
  intro other g hget
  rw [SortedMap.get?_set] at hget
  split at hget
  next heqv =>
    obtain rfl := Option.some.inj hget
    rw [← eqv_iff_eq.mp heqv]
    exact hread.1
  · exact hkeeps.groups other g hget

theorem Keeps.setMasterDomain (hkeeps : Keeps I T q) : Keeps I T (q.setMasterDomain name pairs) := by
  have hfold : ∀ q : YamlParse, Keeps I T q → Keeps I T (pairs.foldl (fun p pair =>
      if pair.1 = bytes "master-check-domain" then p
      else if pair.1 = bytes "master-check-host" then
        { p with
          configParams := { p.configParams with
            remoteChecks := p.configParams.remoteChecks.modify name fun _ => pair.2.text } }
      else p.error) q) := by
    intro q hq
    induction pairs generalizing q with
    | nil => exact hq
    | cons pair pairs ih =>
      apply ih
      dsimp only
      repeat' split
      all_goals exact ⟨hq.groups, hq.temp⟩
  exact hfold _ ⟨hkeeps.groups, hkeeps.temp⟩

theorem mem_of_lookup {α : Type} {s : HMString} {a : α} {table : List (HMString × α)}
    (h : table.lookup s = some a) : (s, a) ∈ table := by
  rw [List.lookup_eq_some_iff] at h
  rcases h with ⟨l₁, l₂, rfl, -⟩
  exact List.mem_append_right l₁ List.mem_cons_self

theorem Invariant.setNode (h : Invariant parseAddress V I T) (hkeeps : Keeps I T q)
    (htexts : ∀ s ∈ pairs.flatMap valueTexts, V s)
    (hq : q.setNode parseAddress pairs = some q') : Keeps I T q' := by
  rw [YamlParse.setNode] at hq
  split at hq
  · obtain rfl := Option.some.inj hq
    rw [YamlParse.setMasterMode]
    repeat' split
    all_goals exact ⟨hkeeps.groups, hkeeps.temp⟩
  · split at hq
    · obtain rfl := Option.some.inj hq
      exact hkeeps.setMasterDomain
    · split at hq
      next node hnode =>
        have hname : node.text ∈ pairs.flatMap valueTexts :=
          List.mem_flatMap.mpr ⟨_, mem_of_lookup hnode, List.mem_cons_self⟩
        exact h.setGroup hkeeps (htexts _ hname) htexts hq
      · obtain rfl := Option.some.inj hq
        exact ⟨hkeeps.groups, hkeeps.temp⟩

theorem Invariant.setNodes (h : Invariant parseAddress V I T) {nodes : List YamlNode}
    (htexts : ∀ s ∈ nodes.flatMap nodeTexts, V s) (hkeeps : Keeps I T q)
    (hq : YamlParse.setNodes parseAddress nodes q = some q') : Keeps I T q' := by
  induction nodes generalizing q with
  | nil =>
    obtain rfl := Option.some.inj hq
    exact hkeeps
  | cons node nodes ih =>
    rw [List.flatMap_cons, List.forall_mem_append] at htexts
    cases node with
    | map pairs =>
      rw [YamlParse.setNodes] at hq
      rcases Option.bind_eq_some_iff.mp hq with ⟨q₁, hq₁, htail⟩
      exact ih htexts.2 (h.setNode hkeeps htexts.1 hq₁) htail
    | null | scalar text | sequence nodes =>
      obtain rfl := Option.some.inj hq
      exact ⟨hkeeps.groups, hkeeps.temp⟩

theorem Invariant.parseConfig (h : Invariant parseAddress V I T) {file : YamlNode}
    {hostGroups : HMDataHostGroupMap} {configParams : HMConfigParams}
    (htexts : ∀ s ∈ fileTexts file, V s)
    (hgroups : ∀ name g, hostGroups.get? name = some g → I name g)
    (hq : HMConfigParserYAML.parseConfig parseAddress file hostGroups configParams = some q) :
    ∀ name g, q.hostGroups.get? name = some g → I name g := by
  cases file with
  | sequence nodes => exact (h.setNodes htexts ⟨hgroups, h.temp⟩ hq).groups
  | null | scalar text | map pairs =>
    obtain rfl := Option.some.inj hq
    exact hgroups

end Invariants

section Parsing

/-- What the parser can make of a group. -/
structure Parsed (name : HMString) (g : HMDataHostGroup) : Prop where
  groupName : g.groupName = name
  remoteCheck : g.remoteCheck = []
  checkPlugin : g.checkPlugin = .default
  remoteCheckType : g.remoteCheckType = .none
  passthroughInfo : g.passthroughInfo = 0
  dualstack : g.dualstack ≠ .undefined
  checkType : g.checkType = .default ∨ ∃ text port, (text, g.checkType, port) ∈ checkTypes
  measurementOptions : ∃ text, (text, g.measurementOptions) ∈ rtModes
  flapThreshold : ∃ q : Int, -2147483 ≤ q ∧ q ≤ 2147483 ∧ g.flapThreshold = .ofInt q
  hosts : g.hosts.Nodup
  hostGroups : g.hostGroups.Nodup

theorem parsed_new (name : HMString) : Parsed name (.new name) where
  groupName := rfl
  remoteCheck := rfl
  checkPlugin := rfl
  remoteCheckType := rfl
  passthroughInfo := rfl
  dualstack := DualStack.noConfusion
  checkType := Or.inl rfl
  measurementOptions := ⟨bytes "connect", List.mem_cons_self⟩
  flapThreshold := ⟨defaultFlapThreshold.toNat, by decide, by decide, rfl⟩
  hosts := List.nodup_nil
  hostGroups := List.nodup_nil

/-- The mode that an invalid one falls back to is a mode. -/
def ParsedState (name : HMString) (p : GroupParse) : Prop :=
  Parsed name p.group ∧ ∃ text, (text, p.temp) ∈ rtModes

variable {parseAddress : HMString → Option HMIPAddress} {name : HMString} {p p' : GroupParse}
  {pair : HMString × YamlNode}

theorem Parsed.setCheckType {g : HMDataHostGroup} {text : HMString}
    {type : CheckType × Option UInt16} (h : Parsed name g) (htype : (text, type) ∈ checkTypes) :
    Parsed name (GroupParse.setCheckType g type) :=
  { h with checkType := Or.inr ⟨text, type.2, htype⟩ }

theorem ParsedState.setRtMode (h : ParsedState name p) (val : HMString) :
    ParsedState name (p.setRtMode val) := by
  rw [GroupParse.setRtMode]
  cases hlookup : rtModes.lookup val with
  | none => exact ⟨{ h.1 with measurementOptions := h.2 }, h.2⟩
  | some mode =>
    have hmode : ∃ text, (text, mode) ∈ rtModes := ⟨val, mem_of_lookup hlookup⟩
    exact ⟨{ h.1 with measurementOptions := hmode }, hmode⟩

theorem ParsedState.setOr {α : Type} (h : ParsedState name p) {value : Option α}
    {set : HMDataHostGroup → α → HMDataHostGroup}
    (hset : ∀ a, value = some a → Parsed name (set p.group a)) :
    ParsedState name (p.setOr value set) := by
  cases value with
  | none => exact h
  | some a => exact ⟨hset a rfl, h.2⟩

theorem ParsedState.setTOSValue (h : ParsedState name p) (val : HMString) :
    ParsedState name (p.setTOSValue val) := by
  have hany : ∀ tos : Int, ParsedState name
      (if tos ≤ 255 then { p with group := { p.group with tosValue := UInt8.ofInt tos } }
      else p.error) := by
    intro tos
    split
    · exact ⟨{ h.1 with }, h.2⟩
    · exact h
  exact hany (GroupParse.tos val)

theorem atoi_bounds (val : HMString) : -2147483648 ≤ atoi val ∧ atoi val ≤ 2147483647 := by
  rw [atoi, Int.bmod_def]
  split <;> omega

/-- Reading a key keeps what is known of the group. -/
theorem ParsedState.setKey (h : ParsedState name p) (hp : p.setKey parseAddress pair = some p') :
    ParsedState name p' := by
  rcases h with ⟨hgroup, htemp⟩
  rw [GroupParse.setKey] at hp
  cases hkey : GroupKey.ofText pair.1 with
  | none =>
    rw [hkey] at hp
    obtain rfl := Option.some.inj hp
    exact ⟨hgroup, htemp⟩
  | some key =>
    rw [hkey] at hp
    cases key with
    | rtMode =>
      obtain rfl := Option.some.inj hp
      exact ParsedState.setRtMode ⟨hgroup, htemp⟩ _
    | host =>
      rcases Option.bind_eq_some_iff.mp hp with ⟨hosts, -, hset⟩
      obtain rfl := Option.some.inj hset
      rw [HMDataHostGroup.foldl_addHost]
      exact ⟨{ hgroup with hosts := HMDataHostGroup.nodup_foldl_appendNew hgroup.hosts }, htemp⟩
    | hostGroup =>
      rcases Option.bind_eq_some_iff.mp hp with ⟨names, -, hset⟩
      obtain rfl := Option.some.inj hset
      rw [HMDataHostGroup.foldl_addHostGroup]
      exact ⟨{ hgroup with hostGroups := HMDataHostGroup.nodup_foldl_appendNew hgroup.hostGroups }, htemp⟩
    | dualStackMode =>
      obtain rfl := Option.some.inj hp
      refine ParsedState.setOr ⟨hgroup, htemp⟩ fun mode hmode => { hgroup with dualstack := ?_ }
      have hmem := mem_of_lookup hmode
      rintro rfl
      simp [dualStackModes] at hmem
    | checkType =>
      simp only at hp
      split at hp
      · obtain rfl := Option.some.inj hp
        exact ⟨hgroup, htemp⟩
      · obtain rfl := Option.some.inj hp
        exact ParsedState.setOr ⟨hgroup, htemp⟩ fun type htype =>
          hgroup.setCheckType (mem_of_lookup htype)
    | uri =>
      obtain rfl := Option.some.inj hp
      have hhttp : (bytes "http", CheckType.http, some 80) ∈ checkTypes := List.mem_cons_self
      exact ⟨{ hgroup.setCheckType hhttp with }, htemp⟩
    | checkPort =>
      obtain rfl := Option.some.inj hp
      rw [GroupParse.setPort]
      split <;> exact ⟨{ hgroup with }, htemp⟩
    | tosValue =>
      obtain rfl := Option.some.inj hp
      exact ParsedState.setTOSValue ⟨hgroup, htemp⟩ _
    | remoteFallback | localFallback =>
      obtain rfl := Option.some.inj hp
      rw [GroupParse.setFallback]
      repeat' split
      all_goals exact ⟨{ hgroup with }, htemp⟩
    | sourceAddress | dnsType | flowType =>
      obtain rfl := Option.some.inj hp
      exact ParsedState.setOr ⟨hgroup, htemp⟩ fun _ _ => { hgroup with }
    | flapThreshold =>
      obtain rfl := Option.some.inj hp
      have hbounds := atoi_bounds pair.2.text
      have habs : ((atoi pair.2.text).tdiv 1000).natAbs = (atoi pair.2.text).natAbs / 1000 :=
        Int.natAbs_tdiv _ _
      refine ⟨{ hgroup with flapThreshold := ⟨_, ?_, ?_, rfl⟩ }, htemp⟩ <;> omega
    | _ =>
      obtain rfl := Option.some.inj hp
      exact ⟨{ hgroup with }, htemp⟩

theorem invariant_parsed : Invariant parseAddress (fun _ => True) Parsed
    fun mode => ∃ text, (text, mode) ∈ rtModes where
  new := fun name _ => parsed_new name
  temp := ⟨bytes "connect", List.mem_cons_self⟩
  key := fun hgroup htemp _ hp => ParsedState.setKey ⟨hgroup, htemp⟩ hp

/-- The texts of a group are texts of the file it was read from. -/
structure Drawn (V : HMString → Prop) (name : HMString) (g : HMDataHostGroup) : Prop where
  name : V name
  checkInfo : 0 < g.checkInfo.length → V g.checkInfo
  hosts : ∀ s ∈ g.hosts, V s
  hostGroups : ∀ s ∈ g.hostGroups, V s

theorem Drawn.setKey {V : HMString → Prop} (h : Drawn V name p.group)
    (htexts : ∀ s ∈ valueTexts pair, V s) (hp : p.setKey parseAddress pair = some p') :
    Drawn V name p'.group := by
  have htext : V pair.2.text := htexts _ List.mem_cons_self
  have hbelow {names : List HMString} (hnames : pair.2.texts = some names) : ∀ s ∈ names, V s :=
    fun s hs => htexts s (List.mem_cons_of_mem _ (by rwa [hnames]))
  rw [GroupParse.setKey] at hp
  cases hkey : GroupKey.ofText pair.1 with
  | none =>
    rw [hkey] at hp
    obtain rfl := Option.some.inj hp
    exact h
  | some key =>
    rw [hkey] at hp
    cases key with
    | host =>
      rcases Option.bind_eq_some_iff.mp hp with ⟨hosts, hnames, hset⟩
      obtain rfl := Option.some.inj hset
      rw [HMDataHostGroup.foldl_addHost]
      exact { h with
        hosts := fun s hs =>
          (HMDataHostGroup.mem_foldl_appendNew.mp hs).elim (h.hosts s) (hbelow hnames s) }
    | hostGroup =>
      rcases Option.bind_eq_some_iff.mp hp with ⟨names, hnames, hset⟩
      obtain rfl := Option.some.inj hset
      rw [HMDataHostGroup.foldl_addHostGroup]
      exact { h with
        hostGroups := fun s hs =>
          (HMDataHostGroup.mem_foldl_appendNew.mp hs).elim (h.hostGroups s) (hbelow hnames s) }
    | uri | checkInfo =>
      obtain rfl := Option.some.inj hp
      exact { h with checkInfo := fun _ => htext }
    | checkType =>
      simp only at hp
      split at hp
      · obtain rfl := Option.some.inj hp
        exact h
      · obtain rfl := Option.some.inj hp
        cases checkTypes.lookup pair.2.text <;> exact { h with }
    | rtMode | checkPort | remoteFallback | localFallback =>
      obtain rfl := Option.some.inj hp
      simp only [GroupParse.setRtMode, GroupParse.setPort, GroupParse.setFallback]
      repeat' split
      all_goals exact { h with }
    | tosValue =>
      obtain rfl := Option.some.inj hp
      have hany : ∀ tos : Int, Drawn V name
          (if tos ≤ 255 then { p with group := { p.group with tosValue := UInt8.ofInt tos } }
          else p.error).group := by
        intro tos
        split <;> exact { h with }
      exact hany (GroupParse.tos pair.2.text)
    | dualStackMode =>
      obtain rfl := Option.some.inj hp
      cases dualStackModes.lookup pair.2.text <;> exact { h with }
    | sourceAddress =>
      obtain rfl := Option.some.inj hp
      cases parseAddress pair.2.text <;> exact { h with }
    | dnsType =>
      obtain rfl := Option.some.inj hp
      cases dnsTypes.lookup pair.2.text <;> exact { h with }
    | flowType =>
      obtain rfl := Option.some.inj hp
      cases flowTypes.lookup pair.2.text <;> exact { h with }
    | _ =>
      obtain rfl := Option.some.inj hp
      exact { h with }

theorem invariant_drawn (V : HMString → Prop) :
    Invariant parseAddress V (Drawn V) fun _ => True where
  new := fun _ hname => ⟨hname, fun hlt => absurd hlt (Nat.lt_irrefl 0),
    fun _ hs => absurd hs List.not_mem_nil, fun _ hs => absurd hs List.not_mem_nil⟩
  temp := trivial
  key := fun hgroup _ htexts hp => ⟨hgroup.setKey htexts hp, trivial⟩

/-- The groups of a configuration that was read, file by file, into an empty one. -/
def parseConfigs (parseAddress : HMString → Option HMIPAddress) (files : List YamlNode) :
    Option (HMDataHostGroupMap × HMConfigParams) :=
  files.foldlM (fun st file => (parseConfig parseAddress file st.1 st.2).map fun p =>
    (p.hostGroups, p.configParams)) (∅, .default)

theorem parsed_of_parseConfigs {files : List YamlNode} {M : HMDataHostGroupMap}
    {params : HMConfigParams} (h : parseConfigs parseAddress files = some (M, params)) :
    ∀ name g, M.get? name = some g → Parsed name g := by
  have hst : ∀ name g, (∅ : HMDataHostGroupMap).get? name = some g → Parsed name g := by simp
  rw [parseConfigs] at h
  -- every file is read into what the files before it left
  generalize (∅ : HMDataHostGroupMap) = groups at h hst
  generalize HMConfigParams.default = configParams at h
  induction files generalizing groups configParams with
  | nil =>
    obtain rfl := congrArg Prod.fst (Option.some.inj h)
    exact hst
  | cons file files ih =>
    rw [List.foldlM_cons] at h
    rcases Option.bind_eq_some_iff.mp h with ⟨st, hfile, htail⟩
    rw [Option.map_eq_some_iff] at hfile
    rcases hfile with ⟨q, hq, rfl⟩
    exact ih _ (invariant_parsed.parseConfig (fun _ _ => trivial) hst hq) _ htail

end Parsing

section RoundTrip

/-- Two groups agree on their check, its parameters, the hosts and the child groups. -/
def SameGroup (g h : HMDataHostGroup) : Prop :=
  g.getHostCheck = h.getHostCheck ∧ g.getCheckParameters = h.getCheckParameters ∧
    g.hosts = h.hosts ∧ g.hostGroups = h.hostGroups

instance (g h : HMDataHostGroup) : Decidable (SameGroup g h) :=
  inferInstanceAs (Decidable (_ ∧ _ ∧ _ ∧ _))

/-- What was written is loaded, and read into an empty state with the same names and the same
groups. -/
def RoundTrips (load : HMString → Option YamlNode) (parseAddress : HMString → Option HMIPAddress)
    (printAddress : HMIPAddress → HMString) (M : HMDataHostGroupMap) : Prop :=
  ∃ file p, load (writeConfigs printAddress M) = some file ∧
    parseConfig parseAddress file ∅ .default = some p ∧ p.hostGroups.keys = M.keys ∧
    ∀ name g, M.get? name = some g → ∃ h, p.hostGroups.get? name = some h ∧ SameGroup g h

/-- The texts of a group that its file is free to choose. -/
def freeTexts (g : HMDataHostGroup) : List HMString :=
  g.groupName :: (if 0 < g.checkInfo.length then [g.checkInfo] else []) ++ g.hosts ++ g.hostGroups

/-- The texts that are printed as they are, with the address of the source. -/
def printedTexts (printAddress : HMIPAddress → HMString) (g : HMDataHostGroup) : List HMString :=
  freeTexts g ++ if g.sourceAddress.isSet then [printAddress g.sourceAddress] else []

/-- A text is loaded as itself where it stands behind a key without quotes. -/
def StandsUnquoted (load : HMString → Option YamlNode) (s : HMString) : Prop :=
  load (bytes "name: " ++ s ++ bytes "\n") = some (.map [(bytes "name", .plain s)])

/-- What loading a written file comes to. Where each text stands for itself, so do the lines. A text
that does not is not found again among the values: it is cut at a comment, stripped of blanks and
quotes, folded, taken for structure, or refused. -/
structure LoadsUnquoted (load : HMString → Option YamlNode) (printAddress : HMIPAddress → HMString)
    (M : HMDataHostGroupMap) : Prop where
  spelled : (∀ e ∈ M.entries, ∀ s ∈ printedTexts printAddress e.2, StandsUnquoted load s) →
    load (writeConfigs printAddress M) = some (spelledOut printAddress M)
  lost : ∀ file, load (writeConfigs printAddress M) = some file →
    (∀ e ∈ M.entries, ∀ s ∈ freeTexts e.2, s ∈ fileTexts file) →
      ∀ e ∈ M.entries, ∀ s ∈ printedTexts printAddress e.2, StandsUnquoted load s

/-- A group that the writer can spell out and the parser can read. -/
structure Survives (g : HMDataHostGroup) : Prop where
  checkType : g.checkType ∉ [.tcps, .auxHttp, .auxHttps, .auxHttpsNoPeerCheck]
  dnsType : g.dnsType = .lookup
  distributedFallback : g.distributedFallback = .none
  checkRetryDelay : g.numCheckRetries = 0 → g.checkRetryDelay = 0
  checkTTL : fitsInt g.checkTTL
  checkTimeout : fitsInt g.checkTimeout

theorem readCheckType_eq_iff {type : CheckType}
    (h : type = .default ∨ ∃ text port, (text, type, port) ∈ checkTypes) :
    readCheckType type = type ↔ type ∉ [.tcps, .auxHttp, .auxHttps, .auxHttpsNoPeerCheck] := by
  have hknown : type ∈ CheckType.default :: checkTypes.map fun t => t.2.1 := by
    rcases h with rfl | ⟨text, port, hmem⟩
    · exact List.mem_cons_self
    · exact List.mem_cons_of_mem _ (List.mem_map.mpr ⟨_, hmem, rfl⟩)
  have hall : ∀ type ∈ CheckType.default :: checkTypes.map fun t => t.2.1, (readCheckType type =
      type ↔ type ∉ [.tcps, .auxHttp, .auxHttps, .auxHttpsNoPeerCheck]) := by decide +kernel
  exact hall type hknown

variable {name : HMString} {g : HMDataHostGroup}

/-- The check of a group loses its fallback and its DNS type. -/
theorem readBack_check (h : Parsed name g) : (readBack g).toHMDataHostCheck =
    { g.toHMDataHostCheck with
      checkType := readCheckType g.checkType
      dnsType := .lookup
      distributedFallback := .none } := by
  have hdual : (dualStackModes.lookup (printDualStack g.dualstack)).getD .ipv4Only =
      g.dualstack := by
    have hne := h.dualstack
    cases hmode : g.dualstack with
    | undefined => exact absurd hmode hne
    | ipv4Only | ipv6Only | both => rfl
  simp only [readBack, hdual, h.remoteCheck, h.checkPlugin, h.remoteCheckType]
  rfl

/-- The parameters of a group lose the delay between retries when there are none. -/
theorem readBack_params (h : Parsed name g) : (readBack g).toCheckParameters =
    { g.toCheckParameters with
      checkTTL := .ofInt (atoi (decimal g.checkTTL.toNat))
      checkTimeout := .ofInt (atoi (decimal g.checkTimeout.toNat))
      checkRetryDelay := if 0 < g.numCheckRetries then g.checkRetryDelay else 0 } := by
  obtain ⟨q, hlow, hhigh, hflap⟩ := h.flapThreshold
  have hmode : (rtModes.lookup (printMeasurementOptions g.measurementOptions)).getD rtConnect =
      g.measurementOptions := by
    obtain ⟨text, hmem⟩ := h.measurementOptions
    have hall : ∀ m ∈ rtModes, (rtModes.lookup (printMeasurementOptions m.2)).getD rtConnect =
        m.2 := by decide
    exact hall _ hmem
  simp only [readBack, hmode, ofInt_atoi_flap hlow hhigh hflap, h.passthroughInfo]
  rfl

theorem readBack_hosts (h : Parsed name g) : (readBack g).hosts = g.hosts :=
  HMDataHostGroup.foldl_appendNew_of_nodup h.hosts

theorem readBack_hostGroups (h : Parsed name g) : (readBack g).hostGroups = g.hostGroups :=
  HMDataHostGroup.foldl_appendNew_of_nodup h.hostGroups

/-- The invalid type is in no file. -/
theorem getHostCheck_readBack (h : Parsed name g) :
    g.getHostCheck = some g.toHMDataHostCheck ∧
      (readBack g).getHostCheck = some (readBack g).toHMDataHostCheck := by
  have hall : ∀ type, (type = .default ∨ ∃ text port, (text, type, port) ∈ checkTypes) →
      type ≠ .invalid ∧ readCheckType type ≠ .invalid := by
    rintro type (rfl | ⟨text, port, hmem⟩)
    · decide
    · have htable : ∀ t ∈ checkTypes, t.2.1 ≠ .invalid ∧ readCheckType t.2.1 ≠ .invalid := by
        decide +kernel
      exact htable _ hmem
  obtain ⟨hvalid, hread⟩ := hall g.checkType h.checkType
  exact ⟨if_pos hvalid, if_pos hread⟩

theorem sameGroup_readBack_iff (h : Parsed name g) : SameGroup g (readBack g) ↔ Survives g := by
  obtain ⟨hvalid, hvalid'⟩ := getHostCheck_readBack h
  rw [SameGroup, readBack_hosts h, readBack_hostGroups h, hvalid, hvalid', readBack_check h]
  rw [HMDataHostGroup.getCheckParameters, HMDataHostGroup.getCheckParameters, readBack_params h]
  constructor
  · rintro ⟨hcheck, hparams, -, -⟩
    have hcheck := Option.some.inj hcheck
    have hdelay : g.checkRetryDelay = if 0 < g.numCheckRetries then g.checkRetryDelay else 0 :=
      congrArg CheckParameters.checkRetryDelay hparams
    constructor
    · exact (readCheckType_eq_iff h.checkType).mp (congrArg HMDataHostCheck.checkType hcheck).symm
    · exact congrArg HMDataHostCheck.dnsType hcheck
    · exact congrArg HMDataHostCheck.distributedFallback hcheck
    · intro hzero
      rw [hdelay, hzero, if_neg (by decide)]
    · exact (ofInt_atoi_uint64_iff _).mp (congrArg CheckParameters.checkTTL hparams).symm
    · exact (ofInt_atoi_uint64_iff _).mp (congrArg CheckParameters.checkTimeout hparams).symm
  · intro hsurvives
    have hdelay : (if 0 < g.numCheckRetries then g.checkRetryDelay else 0) = g.checkRetryDelay := by
      split
      · rfl
      next hzero =>
        refine (hsurvives.checkRetryDelay ?_).symm
        rw [← retries_eq g.numCheckRetries, if_neg hzero]
    rw [(readCheckType_eq_iff h.checkType).mpr hsurvives.checkType,
      (ofInt_atoi_uint64_iff _).mpr hsurvives.checkTTL,
      (ofInt_atoi_uint64_iff _).mpr hsurvives.checkTimeout, hdelay, ← hsurvives.dnsType,
      ← hsurvives.distributedFallback]
    exact ⟨rfl, rfl, rfl, rfl⟩

variable {parseAddress : HMString → Option HMIPAddress} {printAddress : HMIPAddress → HMString}

variable {load : HMString → Option YamlNode}

/-- The file spells out every group, so that the groups have to survive one by one. -/
theorem roundTrips_iff_sameGroup {M : HMDataHostGroupMap}
    (hfile : load (writeConfigs printAddress M) = some (spelledOut printAddress M))
    (haddress : ∀ e ∈ M.entries, Rereads parseAddress printAddress e.2.sourceAddress)
    (hname : ∀ e ∈ M.entries, e.2.groupName = e.1) :
    RoundTrips load parseAddress printAddress M ↔
      ∀ e ∈ M.entries, SameGroup e.2 (readBack e.2) := by
  obtain ⟨p, hp, hgroups⟩ := parseConfig_written haddress hname .default
  have hread : ∀ e ∈ M.entries, p.hostGroups.get? e.1 = some (readBack e.2) := by
    intro e he
    have hmem : (e.1, readBack e.2) ∈ (M.mapVals fun _ g => readBack g).entries :=
      List.mem_map.mpr ⟨e, he, rfl⟩
    rw [hgroups]
    exact SortedMap.get?_of_mem hmem
  constructor
  · rintro ⟨file, p', hfile', hp', -, hsame⟩ e he
    obtain rfl := Option.some.inj (hfile.symm.trans hfile')
    obtain rfl := Option.some.inj (hp.symm.trans hp')
    obtain ⟨h, hget, hsame⟩ := hsame e.1 e.2 (SortedMap.get?_of_mem he)
    rw [hread e he] at hget
    rwa [Option.some.inj hget]
  · intro hsame
    refine ⟨_, p, hfile, hp, ?_, ?_⟩
    · rw [hgroups]
      simp [SortedMap.keys, SortedMap.mapVals]
    · intro name g hget
      have hmem := SortedMap.mem_of_get? hget
      exact ⟨readBack g, hread _ hmem, hsame _ hmem⟩

/-- The texts of a group that comes back are texts of the file. -/
theorem mem_fileTexts_of_sameGroup {file : YamlNode} {p : YamlParse} {h : HMDataHostGroup}
    (hp : parseConfig parseAddress file ∅ .default = some p)
    (hget : p.hostGroups.get? name = some h) (hg : Parsed name g) (hsame : SameGroup g h) :
    ∀ s ∈ freeTexts g, s ∈ fileTexts file := by
  have hempty : ∀ name g, (∅ : HMDataHostGroupMap).get? name = some g →
      Drawn (· ∈ fileTexts file) name g := by simp
  have hdrawn := (invariant_drawn _).parseConfig (fun _ hs => hs) hempty hp name h hget
  obtain ⟨hcheck, -, hhosts, hhostGroups⟩ := hsame
  have hinfo : g.checkInfo = h.checkInfo := by
    rw [(getHostCheck_readBack hg).1, HMDataHostGroup.getHostCheck] at hcheck
    split at hcheck
    · exact congrArg HMDataHostCheck.checkInfo (Option.some.inj hcheck)
    · cases hcheck
  simp only [freeTexts, List.forall_mem_append, List.forall_mem_cons]
  refine ⟨⟨⟨?_, ?_⟩, ?_⟩, ?_⟩
  · rw [hg.groupName]
    exact hdrawn.name
  · intro s hs
    split at hs
    next hset =>
      rw [List.mem_singleton.mp hs, hinfo]
      exact hdrawn.checkInfo (by rwa [← hinfo])
    · cases hs
  · rw [hhosts]
    exact hdrawn.hosts
  · rw [hhostGroups]
    exact hdrawn.hostGroups

/-- A configuration that was read comes back from what is written of it exactly when each of its
groups survives, and each of its texts stands for itself without quotes. -/
theorem written_configuration_roundTrips_iff {files : List YamlNode} {M : HMDataHostGroupMap}
    {params : HMConfigParams} (hM : parseConfigs parseAddress files = some (M, params))
    (haddress : ∀ e ∈ M.entries, Rereads parseAddress printAddress e.2.sourceAddress)
    (hload : LoadsUnquoted load printAddress M) :
    RoundTrips load parseAddress printAddress M ↔ ∀ e ∈ M.entries, Survives e.2 ∧
      ∀ s ∈ printedTexts printAddress e.2, StandsUnquoted load s := by
  have hparsed : ∀ e ∈ M.entries, Parsed e.1 e.2 := fun e he =>
    parsed_of_parseConfigs hM e.1 e.2 (SortedMap.get?_of_mem he)
  have hsurvives (hfile : load (writeConfigs printAddress M) = some (spelledOut printAddress M)) :
      RoundTrips load parseAddress printAddress M ↔ ∀ e ∈ M.entries, Survives e.2 := by
    rw [roundTrips_iff_sameGroup hfile haddress fun e he => (hparsed e he).groupName]
    exact forall₂_congr fun e he => sameGroup_readBack_iff (hparsed e he)
  constructor
  · intro htrips
    have hunquoted : ∀ e ∈ M.entries, ∀ s ∈ printedTexts printAddress e.2,
        StandsUnquoted load s := by
      obtain ⟨file, p, hfile, hp, -, hsame⟩ := htrips
      refine hload.lost file hfile fun e he => ?_
      obtain ⟨h, hget, hsame⟩ := hsame e.1 e.2 (SortedMap.get?_of_mem he)
      exact mem_fileTexts_of_sameGroup hp hget (hparsed e he) hsame
    exact fun e he => ⟨(hsurvives (hload.spelled hunquoted)).mp htrips e he, hunquoted e he⟩
  · intro h
    exact (hsurvives (hload.spelled fun e he => (h e he).2)).mpr fun e he => (h e he).1

/-- The only address that the files below mention, and its text. -/
def dnsAddress : HMIPAddress := .v4 0x01010101

def parseDnsAddress (s : HMString) : Option HMIPAddress :=
  if s = bytes "1.1.1.1" then some dnsAddress else none

def printDnsAddress : HMIPAddress → HMString := fun _ => bytes "1.1.1.1"

/-- A file with one group. -/
def groupFile (texts : List (GroupKey × HMString)) : YamlNode :=
  .sequence [.map (texts.map fun t => line t.1 t.2)]

/-- A group of two hosts. -/
def webGroup : HMDataHostGroup :=
  { HMDataHostGroup.new (bytes "web") with
    checkType := .https
    port := 443
    sourceAddress := dnsAddress
    hosts := [bytes "a", bytes "b"] }

def webGroups : HMDataHostGroupMap := (∅ : HMDataHostGroupMap).set (bytes "web") webGroup

/-- What is loaded from the file that is written of the group, and from its texts one by one. -/
def loadWeb (text : HMString) : Option YamlNode :=
  if text = writeConfigs printDnsAddress webGroups then
    some (spelledOut printDnsAddress webGroups)
  else
    [(bytes "name: web\n", YamlNode.map [line .name (bytes "web")]),
      (bytes "name: a\n", .map [line .name (bytes "a")]),
      (bytes "name: b\n", .map [line .name (bytes "b")]),
      (bytes "name: 1.1.1.1\n", .map [line .name (bytes "1.1.1.1")])].lookup text

/-- A group without a fallback comes back. -/
theorem web_group_roundTrips : RoundTrips loadWeb parseDnsAddress printDnsAddress webGroups := by
  have hparse : parseConfigs parseDnsAddress
      [.sequence [.map ([line .name (bytes "web"), line .checkType (bytes "https"),
        line .sourceAddress (bytes "1.1.1.1")] ++ lines .host [bytes "a", bytes "b"])]] =
      some (webGroups, .default) := by decide +kernel
  have hunquoted : ∀ s ∈ printedTexts printDnsAddress webGroup, StandsUnquoted loadWeb s := by
    have htexts : printedTexts printDnsAddress webGroup =
        [bytes "web", bytes "a", bytes "b", bytes "1.1.1.1"] := by decide
    have hother : ∀ s ∈ printedTexts printDnsAddress webGroup, bytes "name: " ++ s ++ bytes "\n" ≠
        writeConfigs printDnsAddress webGroups := by decide +kernel
    intro s hs
    rw [StandsUnquoted, loadWeb, if_neg (hother s hs)]
    revert s
    rw [htexts]
    simp only [List.forall_mem_cons]
    exact ⟨rfl, rfl, rfl, rfl, fun _ hs => absurd hs List.not_mem_nil⟩
  have hone {e : HMString × HMDataHostGroup} (he : e ∈ webGroups.entries) : e.2 = webGroup :=
    congrArg Prod.snd (List.mem_singleton.mp he)
  refine (written_configuration_roundTrips_iff hparse (by decide +kernel)
    ⟨fun _ => if_pos rfl, ?_⟩).mpr ?_
  · intro file _ _ e he
    rw [hone he]
    exact hunquoted
  · intro e he
    rw [hone he]
    exact ⟨⟨by decide, rfl, rfl, fun _ => rfl, by decide, by decide⟩, hunquoted⟩

/-- The writer has no line for a fallback, however its file is loaded. -/
theorem fallback_not_written : ∃ files st, parseConfigs parseDnsAddress files = some st ∧
    ∀ load, load (writeConfigs printDnsAddress st.1) = some (spelledOut printDnsAddress st.1) →
      ¬ RoundTrips load parseDnsAddress printDnsAddress st.1 := by
  refine ⟨[groupFile [(.name, bytes "web"), (.localFallback, bytes "on")]],
    ((∅ : HMDataHostGroupMap).set (bytes "web")
      { HMDataHostGroup.new (bytes "web") with distributedFallback := .local }, .default),
    by decide +kernel, fun load hfile => ?_⟩
  rw [roundTrips_iff_sameGroup hfile (by decide +kernel) (by decide +kernel)]
  decide +kernel

end RoundTrip

end NetCHASM
