import NetCHASM.FlapLaw
import NetCHASM.ResponseTimes
import NetCHASM.YamlConfig

/-! What becomes of a time that is configured. The value is followed from the file through the
group into the parameters of its check, and to the comparisons the checks make with it. -/
namespace ConfiguredTimes

open NetCHASM Decimal KeyOrder OrderedMap CheckParameters RetryLaw FlapLaw ResponseTimes

/-- The keys whose values are milliseconds. -/
inductive TimeKey where
  | ttl
  | timeout
  | checkRetryDelay
  | slowThreshold
  | groupThreshold
  | flapThreshold
  deriving DecidableEq, Repr

namespace TimeKey

def groupKey : TimeKey → GroupKey
  | .ttl => .ttl
  | .timeout => .timeout
  | .checkRetryDelay => .checkRetryDelay
  | .slowThreshold => .slowThreshold
  | .groupThreshold => .groupThreshold
  | .flapThreshold => .flapThreshold

/-- The field of the parameters that holds the time. -/
def field : TimeKey → CheckParameters → ℕ
  | .ttl, p => p.checkTTL.toNat
  | .timeout, p => p.checkTimeout.toNat
  | .checkRetryDelay, p => p.checkRetryDelay.toNat
  | .slowThreshold, p => p.slowThreshold.toNat
  | .groupThreshold, p => p.groupThreshold.toNat
  | .flapThreshold, p => p.flapThreshold.toNat

/-- What the parser makes of the number it reads; the flap threshold is divided. -/
def reads : TimeKey → Int → ℕ
  | .ttl, z | .timeout, z => (UInt64.ofInt z).toNat
  | .flapThreshold, z => (UInt32.ofInt (z.tdiv 1000)).toNat
  | .checkRetryDelay, z | .slowThreshold, z | .groupThreshold, z => (UInt32.ofInt z).toNat

theorem reads_eq {key : TimeKey} {X : ℕ} (hlt : X < 2 ^ 31) :
    key.reads X = if key = .flapThreshold then X / 1000 else X := by
  have h64 : (UInt64.ofInt (X : Int)).toNat = X := by
    rw [UInt64.ofInt, UInt64.toNat_ofNat']
    omega
  have h32 : ∀ n : ℕ, n < 2 ^ 31 → (UInt32.ofInt (n : Int)).toNat = n := by
    intro n hn
    rw [UInt32.ofInt, UInt32.toNat_ofNat']
    omega
  have hdiv : (X : Int).tdiv 1000 = (X / 1000 : ℕ) := rfl
  cases key with
  | ttl | timeout => exact h64
  | checkRetryDelay | slowThreshold | groupThreshold => exact h32 X hlt
  | flapThreshold =>
    rw [reads, hdiv, if_pos rfl]
    exact h32 _ (by omega)

end TimeKey

section Parsing

variable {parseAddress : HMString → Option HMIPAddress} {p p' : GroupParse}
  {pair : HMString × YamlNode} {key : TimeKey}

/-- No time of the group has changed. -/
def KeepsTimes (p p' : GroupParse) : Prop :=
  ∀ key : TimeKey, key.field p'.group.toCheckParameters = key.field p.group.toCheckParameters

theorem keepsTimes_setOr {α : Type} {value : Option α}
    {set : HMDataHostGroup → α → HMDataHostGroup}
    (hset : ∀ g a, (set g a).toCheckParameters = g.toCheckParameters) :
    KeepsTimes p (p.setOr value set) := by
  intro key
  cases value with
  | none => rfl
  | some a => exact congrArg key.field (hset p.group a)

theorem keepsTimes_setRtMode (val : HMString) : KeepsTimes p (p.setRtMode val) := by
  intro key
  rw [GroupParse.setRtMode]
  split <;> cases key <;> rfl

theorem keepsTimes_setTOSValue (val : HMString) : KeepsTimes p (p.setTOSValue val) := by
  have hany : ∀ tos : Int, KeepsTimes p
      (if tos ≤ 255 then { p with group := { p.group with tosValue := UInt8.ofInt tos } }
      else p.error) := by
    intro tos key
    split <;> rfl
  exact hany (GroupParse.tos val)

theorem keepsTimes_setPort (val : HMString) : KeepsTimes p (p.setPort val) := by
  intro key
  rw [GroupParse.setPort]
  split <;> rfl

/-- Reading a key sets its own time and no other. -/
theorem field_setKey (hp : p.setKey parseAddress pair = some p') (key : TimeKey) :
    key.field p'.group.toCheckParameters =
      if pair.1 = key.groupKey.text then key.reads (atoi pair.2.text)
      else key.field p.group.toCheckParameters := by
  have hown : pair.1 = key.groupKey.text ↔ GroupKey.ofText pair.1 = some key.groupKey :=
    GroupKey.ofText_eq_some_iff.symm
  -- a key that is not one of the six
  have hother : ∀ {k : GroupKey}, k ≠ key.groupKey → KeepsTimes p p' →
      key.field p'.group.toCheckParameters =
        if some k = some key.groupKey then key.reads (atoi pair.2.text)
        else key.field p.group.toCheckParameters := by
    intro k hne hkeeps
    rw [if_neg fun heq => hne (Option.some.inj heq)]
    exact hkeeps key
  simp only [hown]
  rw [GroupParse.setKey] at hp
  cases hkey : GroupKey.ofText pair.1 with
  | none =>
    rw [hkey] at hp
    obtain rfl := Option.some.inj hp
    rfl
  | some k =>
    rw [hkey] at hp
    cases k with
    | rtMode =>
      obtain rfl := Option.some.inj hp
      exact hother (by cases key <;> decide) (keepsTimes_setRtMode _)
    | host =>
      rcases Option.bind_eq_some_iff.mp hp with ⟨hosts, -, hset⟩
      obtain rfl := Option.some.inj hset
      rw [HMDataHostGroup.foldl_addHost] at hother ⊢
      exact hother (by cases key <;> decide) fun _ => rfl
    | hostGroup =>
      rcases Option.bind_eq_some_iff.mp hp with ⟨names, -, hset⟩
      obtain rfl := Option.some.inj hset
      rw [HMDataHostGroup.foldl_addHostGroup] at hother ⊢
      exact hother (by cases key <;> decide) fun _ => rfl
    | checkType =>
      simp only at hp
      split at hp
      · obtain rfl := Option.some.inj hp
        exact hother (by cases key <;> decide) fun _ => rfl
      · obtain rfl := Option.some.inj hp
        exact hother (by cases key <;> decide) (keepsTimes_setOr fun _ _ => rfl)
    | dualStackMode | sourceAddress | dnsType | flowType =>
      obtain rfl := Option.some.inj hp
      exact hother (by cases key <;> decide) (keepsTimes_setOr fun _ _ => rfl)
    | checkPort =>
      obtain rfl := Option.some.inj hp
      exact hother (by cases key <;> decide) (keepsTimes_setPort _)
    | tosValue =>
      obtain rfl := Option.some.inj hp
      exact hother (by cases key <;> decide) (keepsTimes_setTOSValue _)
    | remoteFallback | localFallback =>
      obtain rfl := Option.some.inj hp
      refine hother (by cases key <;> decide) fun key => ?_
      rw [GroupParse.setFallback]
      repeat' split
      all_goals rfl
    | _ =>
      obtain rfl := Option.some.inj hp
      cases key <;> simp only [TimeKey.groupKey, Option.some.injEq, reduceCtorEq, if_true, if_false]
      all_goals rfl

/-- The text a node gives for a key, or the one from before. -/
def given (key : TimeKey) (pairs : List (HMString × YamlNode)) (text : Option HMString) :
    Option HMString :=
  pairs.foldl (fun text pair =>
    if pair.1 = key.groupKey.text then some pair.2.text else text) text

/-- The name of the group a node describes. -/
def groupName (pairs : List (HMString × YamlNode)) : Option HMString :=
  match pairs.lookup (bytes "master-check-mode"), pairs.lookup (bytes "master-check-domain") with
  | none, none => (pairs.lookup (bytes "name")).map YamlNode.text
  | _, _ => none

/-- The last text that the nodes of a group give for a key, up to a node that is no map. -/
def lastGiven (key : TimeKey) (name : HMString) : List YamlNode → Option HMString → Option HMString
  | .map pairs :: nodes, text =>
    lastGiven key name nodes (if groupName pairs = some name then given key pairs text else text)
  | _, text => text

/-- The group has read the text. -/
def Holds (key : TimeKey) (text : Option HMString) (g : HMDataHostGroup) : Prop :=
  ∀ s ∈ text, key.field g.toCheckParameters = key.reads (atoi s)

variable {pairs : List (HMString × YamlNode)} {text : Option HMString} {name : HMString}

theorem holds_setKeys (h : Holds key text p.group)
    (hp : pairs.foldlM (GroupParse.setKey parseAddress) p = some p') :
    Holds key (given key pairs text) p'.group := by
  induction pairs generalizing p text with
  | nil =>
    obtain rfl := Option.some.inj hp
    exact h
  | cons pair pairs ih =>
    rw [List.foldlM_cons] at hp
    rcases Option.bind_eq_some_iff.mp hp with ⟨p₁, hp₁, htail⟩
    rw [given, List.foldl_cons]
    refine ih ?_ htail
    intro s hs
    rw [field_setKey hp₁]
    split
    · rename_i hown
      rw [if_pos hown] at hs
      rw [Option.mem_some.mp hs]
    · rename_i hother
      rw [if_neg hother] at hs
      exact h s hs

/-- The stored group of a name has read the text. -/
def Stored (key : TimeKey) (name : HMString) (text : Option HMString) (q : YamlParse) : Prop :=
  ∀ s ∈ text, ∃ g, q.hostGroups.get? name = some g ∧
    key.field g.toCheckParameters = key.reads (atoi s)

variable {q q' : YamlParse}

theorem stored_setGroup {other : HMString} (h : Stored key name text q)
    (hq : q.setGroup parseAddress other pairs = some q') :
    Stored key name (if some other = some name then given key pairs text else text) q' := by
  rw [YamlParse.setGroup, Option.map_eq_some_iff] at hq
  rcases hq with ⟨r, hr, rfl⟩
  by_cases hname : other = name
  · subst hname
    rw [if_pos rfl]
    have hstart : Holds key text ((q.hostGroups.get? other).getD (.new other)) := by
      intro s hs
      obtain ⟨g, hget, hfield⟩ := h s hs
      rw [hget]
      exact hfield
    intro s hs
    refine ⟨r.group, ?_, holds_setKeys hstart hr s hs⟩
    rw [SortedMap.get?_set, if_pos (eqv_refl other)]
  · rw [if_neg fun heq => hname (Option.some.inj heq)]
    intro s hs
    obtain ⟨g, hget, hfield⟩ := h s hs
    refine ⟨g, ?_, hfield⟩
    rw [SortedMap.get?_set, eqv_of_ne hname]
    exact hget

theorem hostGroups_setMasterDomain {other : HMString} :
    (q.setMasterDomain other pairs).hostGroups = q.hostGroups := by
  have hfold : ∀ q : YamlParse, (pairs.foldl (fun p pair =>
      if pair.1 = bytes "master-check-domain" then p
      else if pair.1 = bytes "master-check-host" then
        { p with
          configParams := { p.configParams with
            remoteChecks := p.configParams.remoteChecks.modify other fun _ => pair.2.text } }
      else p.error) q).hostGroups = q.hostGroups := by
    intro q
    induction pairs generalizing q with
    | nil => rfl
    | cons pair pairs ih =>
      rw [List.foldl_cons, ih]
      repeat' split
      all_goals rfl
  exact hfold _

theorem stored_setNode (h : Stored key name text q)
    (hq : q.setNode parseAddress pairs = some q') :
    Stored key name (if groupName pairs = some name then given key pairs text else text) q' := by
  rw [YamlParse.setNode] at hq
  cases hmode : pairs.lookup (bytes "master-check-mode") with
  | some mode =>
    rw [hmode] at hq
    obtain rfl := Option.some.inj hq
    have hnot : groupName pairs = none := by rw [groupName, hmode]
    have hgroups : (q.setMasterMode mode.text).hostGroups = q.hostGroups := by
      rw [YamlParse.setMasterMode]
      repeat' split
      all_goals rfl
    rw [hnot, if_neg (by simp)]
    intro s hs
    rw [hgroups]
    exact h s hs
  | none =>
    cases hdomain : pairs.lookup (bytes "master-check-domain") with
    | some domain =>
      rw [hmode, hdomain] at hq
      obtain rfl := Option.some.inj hq
      have hnot : groupName pairs = none := by rw [groupName, hmode, hdomain]
      rw [hnot, if_neg (by simp)]
      intro s hs
      rw [hostGroups_setMasterDomain]
      exact h s hs
    | none =>
      rw [hmode, hdomain] at hq
      rw [groupName, hmode, hdomain]
      cases hlookup : pairs.lookup (bytes "name") with
      | some node =>
        rw [hlookup] at hq
        exact stored_setGroup h hq
      | none =>
        rw [hlookup] at hq
        obtain rfl := Option.some.inj hq
        rw [Option.map_none, if_neg (by simp)]
        exact h

theorem stored_setNodes {nodes : List YamlNode} (h : Stored key name text q)
    (hq : YamlParse.setNodes parseAddress nodes q = some q') :
    Stored key name (lastGiven key name nodes text) q' := by
  induction nodes generalizing q text with
  | nil =>
    obtain rfl := Option.some.inj hq
    exact h
  | cons node nodes ih =>
    cases node with
    | map pairs =>
      rw [YamlParse.setNodes] at hq
      rcases Option.bind_eq_some_iff.mp hq with ⟨q₁, hq₁, htail⟩
      exact ih (stored_setNode h hq₁) htail
    | null | scalar s | sequence ns =>
      obtain rfl := Option.some.inj hq
      exact h

/-- A group of the file has read the last text that the file gives for a key. -/
theorem stored_parseConfig {nodes : List YamlNode} {hostGroups : HMDataHostGroupMap}
    {configParams : HMConfigParams} (hq : HMConfigParserYAML.parseConfig parseAddress
      (.sequence nodes) hostGroups configParams = some q) :
    Stored key name (lastGiven key name nodes none) q := by
  have hstart : Stored key name none ⟨hostGroups, configParams, rtConnect, 0⟩ := by
    intro s hs
    cases hs
  exact stored_setNodes hstart hq

end Parsing

section Comparing

variable {P : HMDataCheckParams} {address : HMIPAddress} {rep : CheckReport}
  {r : HMDataCheckResult} {X : ℕ}

/-- A result that is checked again after the retry delay. -/
def Retried (P : HMDataCheckParams) (r : HMDataCheckResult) : Prop :=
  0 < r.numSlowResponses ∨
    (!r.softStatus.isUp && r.status.isUp && decide (r.numFailedChecks ≤ P.numCheckRetries)) = true

instance (P : HMDataCheckParams) (r : HMDataCheckResult) : Decidable (Retried P r) :=
  inferInstanceAs (Decidable (_ ∨ _))

/-- When a result is due, with the times over the integers. -/
def due (P : HMDataCheckParams) (ttl delay : Int) (r : HMDataCheckResult) (now : HMTimeStamp) :
    HMTimeStamp :=
  if r.checkTime + ttl < now then now
  else if Retried P r then r.checkTime + delay
  else r.checkTime + ttl

/-- Which responses are recorded, with the times over the integers. -/
def recordWith (P : HMDataCheckParams) (threshold : ℕ) (rep : CheckReport) (srt : UInt64)
    (r : HMDataCheckResult) : HMDataCheckResult :=
  if 0 < P.numCheckRetries ∧ r.smoothedResponseTime ≠ 0 ∧
      r.smoothedResponseTime.toNat + threshold ≤ (responseTime rep).toNat ∧
      r.numSlowResponses + 1 ≤ P.numCheckRetries then
    { r with numSlowResponses := r.numSlowResponses + 1 }
  else
    { r with
      numSlowResponses := 0
      totalResponseTime := (totalResponseTime rep).toUInt32
      responseTime := (responseTime rep).toUInt32
      smoothedResponseTime := srt.toUInt32 }

/-- The flaps after a check, with the window a number. -/
def flapsWithin (p : CheckParameters) (window : ℕ) (rep : CheckReport) (r : HMDataCheckResult) :
    UInt32 :=
  let gap := (rep.start.minus r.flapTime).toNat
  if decide (outcome p rep = .success) != r.flapStatus.isUp then
    if gap < window then r.numFlaps + 1 else 0
  else if window ≤ gap then 0 else r.numFlaps

/-- The checks compare with the time at a result. -/
def Compares (key : TimeKey) (X : ℕ) (P : HMDataCheckParams) (r : HMDataCheckResult) : Prop :=
  match key with
  | .ttl => ∀ address now, P.getCheckResult address = some r →
      r.queryState = .inactive ∨ r.queryState = .failed →
      P.nextCheckTime address now = due P X (HMTimeStamp.ofUInt64 P.checkRetryDelay.toUInt64) r now
  | .checkRetryDelay => ∀ address now, P.getCheckResult address = some r →
      r.queryState = .inactive ∨ r.queryState = .failed →
      P.nextCheckTime address now = due P (HMTimeStamp.ofUInt64 P.checkTTL) X r now
  | .timeout => ∀ rep, (P.setResponse rep r).reason =
      if (P.selectedResponseTime rep).toNat < X then .success else .responseTimeout
  | .slowThreshold => ∀ rep srt, P.recordSlowResponse rep srt r =
      recordWith P (max P.groupThreshold.toNat X) rep srt r
  | .groupThreshold => ∀ rep srt, P.recordSlowResponse rep srt r =
      recordWith P (max X P.slowThreshold.toNat) rep srt r
  | .flapThreshold => ∀ address rep, outcome P.toCheckParameters rep ≠ .ignored →
      (P.updateResult address rep r).numFlaps = flapsWithin P.toCheckParameters X rep r

/-- A response to the check of a result is compared with its smoothed time: there are retries, a
time has been stored, and not all of them have been used up. -/
def Consulted (p : CheckParameters) (r : HMDataCheckResult) : Prop :=
  0 < p.numCheckRetries ∧ r.smoothedResponseTime ≠ 0 ∧
    r.numSlowResponses + 1 ≤ p.numCheckRetries

instance (p : CheckParameters) (r : HMDataCheckResult) : Decidable (Consulted p r) :=
  inferInstanceAs (Decidable (_ ∧ _ ∧ _))

/-- The sum of the smoothed time and the threshold in force, if it is looked at. -/
def SumFits (p : CheckParameters) (r : HMDataCheckResult) : Prop :=
  Consulted p r → r.smoothedResponseTime.toNat +
    max p.groupThreshold.toNat p.slowThreshold.toNat < 2 ^ 32

/-- No sum that a key takes part in wraps round. -/
def NoWrap : TimeKey → CheckParameters → HMDataCheckResult → Prop
  | .slowThreshold, p, r | .groupThreshold, p, r => SumFits p r
  | .ttl, _, _ | .timeout, _, _ | .checkRetryDelay, _, _ | .flapThreshold, _, _ => True

theorem ofUInt64_eq {u : UInt64} (h : u.toNat < 2 ^ 63) : HMTimeStamp.ofUInt64 u = u.toNat := by
  have hint : u.toBitVec.toInt = u.toBitVec.toNat := BitVec.toInt_eq_toNat_of_lt (by
    have hbits : u.toBitVec.toNat = u.toNat := rfl
    omega)
  exact hint

theorem nextCheckTime_eq_due (address : HMIPAddress) (now : HMTimeStamp)
    (hr : P.getCheckResult address = some r)
    (hidle : r.queryState = .inactive ∨ r.queryState = .failed) :
    P.nextCheckTime address now = due P (HMTimeStamp.ofUInt64 P.checkTTL)
      (HMTimeStamp.ofUInt64 P.checkRetryDelay.toUInt64) r now := by
  have hget : P.checkData.get? address = some r := hr
  rw [HMDataCheckParams.nextCheckTime, hget]
  exact if_pos hidle

/-- The sum that a response is compared with is a word. -/
theorem recordSlowResponse_eq (p : CheckParameters) (rep : CheckReport) (srt : UInt64)
    (r : HMDataCheckResult) : p.recordSlowResponse rep srt r =
      if Consulted p r ∧
          (r.smoothedResponseTime.toNat + max p.groupThreshold.toNat p.slowThreshold.toNat) %
            2 ^ 32 ≤ (responseTime rep).toNat then
        { r with numSlowResponses := r.numSlowResponses + 1 }
      else
        { r with
          numSlowResponses := 0
          totalResponseTime := (totalResponseTime rep).toUInt32
          responseTime := (responseTime rep).toUInt32
          smoothedResponseTime := srt.toUInt32 } := by
  have hslow : (r.smoothedResponseTime + p.effectiveSlowThreshold).toUInt64 ≤ responseTime rep ↔
      (r.smoothedResponseTime.toNat + max p.groupThreshold.toNat p.slowThreshold.toNat) % 2 ^ 32 ≤
        (responseTime rep).toNat := by
    rw [UInt64.le_iff_toNat_le, UInt32.toNat_toUInt64, UInt32.toNat_add,
      toNat_effectiveSlowThreshold]
  simp only [recordSlowResponse, Consulted, Bool.and_eq_true, decide_eq_true_eq, hslow]
  exact if_congr (by tauto) rfl rfl

theorem recordWith_eq (P : HMDataCheckParams) (threshold : ℕ) (rep : CheckReport) (srt : UInt64)
    (r : HMDataCheckResult) : recordWith P threshold rep srt r =
      if Consulted P.toCheckParameters r ∧
          r.smoothedResponseTime.toNat + threshold ≤ (responseTime rep).toNat then
        { r with numSlowResponses := r.numSlowResponses + 1 }
      else
        { r with
          numSlowResponses := 0
          totalResponseTime := (totalResponseTime rep).toUInt32
          responseTime := (responseTime rep).toUInt32
          smoothedResponseTime := srt.toUInt32 } := by
  simp only [recordWith, Consulted]
  exact if_congr (by tauto) rfl rfl

/-- A success after a time. -/
def successAfter (rt : ℕ) : CheckReport := ⟨.connected, .success, 0, rt, 80, 0, rt⟩

theorem responseTime_successAfter {rt : ℕ} (h : rt < 2 ^ 32) :
    (responseTime (successAfter rt)).toNat = rt := by
  have hminus : (successAfter rt).stop - (successAfter rt).start = (rt : Int) := Int.sub_zero _
  rw [responseTime, HMTimeStamp.minus, toNat_ofInt, hminus]
  omega

/-- Responses are skipped as the thresholds say just when the sum they are compared with fits its
word: one that has wrapped round is met by a response that is faster than the sum. -/
theorem recordSlowResponse_eq_recordWith_iff (P : HMDataCheckParams) (r : HMDataCheckResult) :
    (∀ rep srt, P.recordSlowResponse rep srt r =
      recordWith P (max P.groupThreshold.toNat P.slowThreshold.toNat) rep srt r) ↔
        SumFits P.toCheckParameters r := by
  constructor
  · intro hall hconsulted
    by_contra hwraps
    have hsmoothed : r.smoothedResponseTime.toNat < 2 ^ 32 := r.smoothedResponseTime.toNat_lt
    have hgroup : P.groupThreshold.toNat < 2 ^ 32 := P.groupThreshold.toNat_lt
    have hslow : P.slowThreshold.toNat < 2 ^ 32 := P.slowThreshold.toNat_lt
    let word := (r.smoothedResponseTime.toNat + max P.groupThreshold.toNat P.slowThreshold.toNat) %
      2 ^ 32
    have hword : (responseTime (successAfter word)).toNat = word :=
      responseTime_successAfter (Nat.mod_lt _ (by decide))
    have hless : word < r.smoothedResponseTime.toNat +
        max P.groupThreshold.toNat P.slowThreshold.toNat := by omega
    -- the response is skipped, where it was to be recorded with another smoothed time
    have hskipped : Consulted P.toCheckParameters r ∧ word ≤
        (responseTime (successAfter word)).toNat := ⟨hconsulted, Nat.le_of_eq hword.symm⟩
    have hsame := hall (successAfter word) (r.smoothedResponseTime + 1).toUInt64
    rw [recordSlowResponse_eq, if_pos hskipped, recordWith_eq, if_neg fun h => by omega] at hsame
    have htime : r.smoothedResponseTime = (r.smoothedResponseTime + 1).toUInt64.toUInt32 :=
      congrArg HMDataCheckResult.smoothedResponseTime hsame
    rw [UInt32.toUInt32_toUInt64] at htime
    exact absurd htime.symm (by simp)
  · intro hfits rep srt
    rw [recordSlowResponse_eq, recordWith_eq]
    refine if_congr (and_congr_right fun hconsulted => ?_) rfl rfl
    rw [Nat.mod_eq_of_lt (hfits hconsulted)]

theorem numFlaps_updateResult (p : CheckParameters) (address : HMIPAddress) {rep : CheckReport}
    (r : HMDataCheckResult) (hcounted : outcome p rep ≠ .ignored) :
    (p.updateResult address rep r).numFlaps = flapsWithin p p.flapWindow.toNat rep r := by
  have hview := congrArg FlapView.numFlaps (flapView_updateResult p address rep r)
  rw [if_neg hcounted] at hview
  refine hview.trans ?_
  rw [flapStep, isUp_updateResult hcounted, apply_ite FlapView.numFlaps]
  simp only [flapsWithin, flapView, UInt64.lt_iff_toNat_lt, UInt64.le_iff_toNat_le]

/-- What the checks compare with for a key: a flap threshold of zero is replaced. -/
def compared : TimeKey → CheckParameters → ℕ
  | .flapThreshold, p => p.flapWindow.toNat
  | key, p => key.field p

/-- The checks compare with what the parameters hold, unless a sum wraps round. -/
theorem compares_compared_iff (key : TimeKey) (P : HMDataCheckParams)
    (hlt : compared key P.toCheckParameters < 2 ^ 63) (r : HMDataCheckResult) :
    Compares key (compared key P.toCheckParameters) P r ↔ NoWrap key P.toCheckParameters r := by
  cases key with
  | ttl =>
    refine iff_of_true (fun address now hr hidle => ?_) trivial
    rw [nextCheckTime_eq_due address now hr hidle, ofUInt64_eq hlt]
    rfl
  | checkRetryDelay =>
    refine iff_of_true (fun address now hr hidle => ?_) trivial
    have hword : HMTimeStamp.ofUInt64 P.checkRetryDelay.toUInt64 = P.checkRetryDelay.toNat := by
      rw [ofUInt64_eq (by rw [UInt32.toNat_toUInt64]; exact hlt), UInt32.toNat_toUInt64]
    rw [nextCheckTime_eq_due address now hr hidle, hword]
    rfl
  | timeout =>
    refine iff_of_true (fun rep => ?_) trivial
    rw [reason_setResponse]
    simp only [UInt64.lt_iff_toNat_lt]
    rfl
  | slowThreshold | groupThreshold => exact recordSlowResponse_eq_recordWith_iff P r
  | flapThreshold =>
    exact iff_of_true (fun address rep hcounted =>
      numFlaps_updateResult P.toCheckParameters address r hcounted) trivial

/-- A host that was up and has not flapped. -/
def upRecord : HMDataCheckResult := { HMDataCheckResult.new 0 with flapStatus := hostStatusUp }

theorem outcome_failureAt (p : CheckParameters) (start : HMTimeStamp) :
    outcome p (failureAt start) = .failure := by
  simp [outcome, failureAt]

/-- A failed check changes its status, and is a flap if the gap is below the window. -/
theorem flapsWithin_failureAt (p : CheckParameters) (window : ℕ) {gap : ℕ} (hgap : gap < 2 ^ 32) :
    flapsWithin p window (failureAt gap) upRecord = if gap < window then 1 else 0 := by
  have hminus : ((failureAt gap).start.minus upRecord.flapTime).toNat = gap := by
    have hdiff : (failureAt gap).start - upRecord.flapTime = (gap : Int) := Int.sub_zero _
    rw [HMTimeStamp.minus, toNat_ofInt, hdiff]
    omega
  have hchanged : (decide (outcome p (failureAt gap) = .success) != upRecord.flapStatus.isUp) =
      true := by
    rw [outcome_failureAt]
    decide
  simp only [flapsWithin]
  rw [if_pos hchanged, hminus]
  rfl

theorem flapWindow_lt (p : CheckParameters) : p.flapWindow.toNat < 2 ^ 32 := by
  unfold flapWindow
  split
  · rw [UInt32.toNat_toUInt64]
    exact p.flapThreshold.toNat_lt
  · decide

/-- Checks that compare a flap with a number have it as their window: a change between the two
would tell them apart. -/
theorem flapWindow_of_compares {P : HMDataCheckParams} (h : Compares .flapThreshold X P upRecord)
    (hlt : X < 2 ^ 32) : P.flapWindow.toNat = X := by
  have hwindow := flapWindow_lt P.toCheckParameters
  have hgap : min X P.flapWindow.toNat < 2 ^ 32 := by omega
  have hcounted : outcome P.toCheckParameters (failureAt (min X P.flapWindow.toNat : ℕ)) ≠
      .ignored := by
    rw [outcome_failureAt]
    decide
  have hX := h .unset _ hcounted
  rw [numFlaps_updateResult _ _ _ hcounted, flapsWithin_failureAt _ _ hgap,
    flapsWithin_failureAt _ _ hgap] at hX
  by_contra hne
  rcases Nat.lt_or_gt_of_ne hne with hless | hmore
  · rw [if_neg (by omega), if_pos (by omega)] at hX
    exact absurd hX (by decide)
  · rw [if_pos (by omega), if_neg (by omega)] at hX
    exact absurd hX (by decide)

/-- The parameters after some calls. -/
def updates (P : HMDataCheckParams) (calls : List (HMIPAddress × CheckReport)) :
    HMDataCheckParams :=
  calls.foldl (fun P call => P.updateCheck call.1 call.2) P

theorem updates_toCheckParameters (P : HMDataCheckParams)
    (calls : List (HMIPAddress × CheckReport)) :
    (updates P calls).toCheckParameters = P.toCheckParameters := by
  induction calls generalizing P with
  | nil => rfl
  | cons call calls ih => exact ih (P.updateCheck call.1 call.2)

theorem field_getCheckParameters (key : TimeKey) (g : HMDataHostGroup) :
    key.field g.getCheckParameters = key.field g.toCheckParameters := by
  cases key <;> rfl

/-- The window of a threshold that was divided is never the one that was given. -/
theorem flapWindow_ne {p : CheckParameters} (hfield : p.flapThreshold.toNat = X / 1000)
    (hpos : 0 < X) : p.flapWindow.toNat ≠ X := by
  unfold flapWindow
  by_cases hset : p.flapThreshold ≠ 0
  · rw [if_pos hset, UInt32.toNat_toUInt64, hfield]
    omega
  · have hzero : p.flapThreshold.toNat = 0 := by
      rw [not_not.mp hset]
      rfl
    have hdefault : defaultFlapThreshold.toUInt64.toNat = 60000 := by decide
    rw [if_neg hset, hdefault]
    omega

variable {parseAddress : HMString → Option HMIPAddress}

/-- A file with one group and one of its times. -/
def timeFile (key : TimeKey) (text : HMString) : List YamlNode :=
  [.map [HMConfigParserYAML.line .name (bytes "web"), HMConfigParserYAML.line key.groupKey text]]

/-- The parameters that a file with a flap threshold configures. -/
def flapParameters (text : HMString) : Option CheckParameters :=
  (HMConfigParserYAML.parseConfig (fun _ => none) (.sequence (timeFile .flapThreshold text)) ∅
    .default).bind fun q => (q.hostGroups.get? (bytes "web")).map (·.getCheckParameters)

end Comparing

end ConfiguredTimes
