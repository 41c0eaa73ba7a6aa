import NetCHASM.DNSWaiters
import NetCHASM.HealthRuns
import NetCHASM.Schedulers

/-! The DNS cache and the check list of the running daemon. The list learns of a change of
addresses from the end of a lookup alone, which drops the results of the addresses that are
gone; an address that enters the list by another way than the cache stays there. -/
namespace AddressSync

open NetCHASM KeyOrder OrderedMap Runs HMState HealthRuns

/-- Some entry of the check has a result for the address. -/
def HeldAt (l : HMDataCheckList) (k : CheckListKey) (a : HMIPAddress) : Prop :=
  ∃ p ∈ l.checklist.range k, p.isValidIP a = true

/-- Every entry of the check has a result for the address and none is due. -/
def Scheduled (l : HMDataCheckList) (k : CheckListKey) (a : HMIPAddress) (now : HMTimeStamp) :
    Prop :=
  ∀ p ∈ l.checklist.range k, p.isValidIP a = true ∧ ¬ p.nextCheckTime a now ≤ now

/-- What the end of a lookup leaves behind for the checks that wait for it. -/
structure Refreshed (d : Daemon) (w : DnsWork) : Prop where
  current : ∀ check ∈ d.current.dnsWaitList.range (w.name, w.lookup.type.code),
    check.dualstack.families.contains w.lookup.ipv6 = true →
    ∀ r, d.current.dnsCache.cache.get? (w.name, w.lookup) = some r →
    ∀ p ∈ d.current.checkList.checklist.range ⟨w.name, check⟩, ∀ a, p.isValidIP a = true →
      a.getType = HMDNSCache.familyType w.lookup.ipv6 → a ∈ r.addr.toList
  checked : ∀ check ∈ d.current.dnsWaitList.range (w.name, w.lookup.type.code),
    check.dualstack.families.contains w.lookup.ipv6 = true →
    ∀ r, d.current.dnsCache.cache.get? (w.name, w.lookup) = some r →
    ∀ a ∈ r.addr.toList, a.isBlank = false →
    ∀ p ∈ d.current.checkList.checklist.range ⟨w.name, check⟩, p.isValidIP a = true ∧
      ¬ ((p.getQueryState a).isIdle = true ∧ p.nextCheckTime a d.now ≤ d.now)

/-- The expired addresses of an entry are not among its addresses. -/
def ExpiredApart (c : HMDNSCache) : Prop :=
  ∀ k r, c.cache.get? k = some r → ∀ a ∈ r.addrExp.toList, a ∉ r.addr.toList

/-- What every step leads to. -/
def StaysInStep (host : HMString) (h : HealthDaemon) (e : HealthDaemon.Event) : Prop :=
  ∀ h', h.step e = some h' → ExpiredApart h'.current.dnsCache ∧
    ∀ i o w, e = .daemon (.processDNS i o) → h.works[i]? = some (.dnsLookup w) → w.name = host →
      Refreshed h'.toDaemon w

/-- A lookup answers with addresses of its own family. -/
def AnswersFamily (o : DnsOutcome) : Work → Prop
  | .dnsLookup w => ∀ new ∈ o.answer, ∀ a ∈ new.toList,
      a.getType = HMDNSCache.familyType w.lookup.ipv6
  | _ => True

/-- The events within one configuration. -/
def Within (h : HealthDaemon) : HealthDaemon.Event → Prop
  | .daemon (.reload _ _) | .daemon (.processRemote _ _) | .daemon (.processRemoteHost _ _) => False
  | .daemon (.processDNS i o) => ∀ v ∈ h.works[i]?, AnswersFamily o v
  | _ => True

/-- A fetch of auxiliary data that is to be repeated is at an address that the cache holds. -/
def FetchCurrent (host : HMString) (c : HMDNSCache) : Work → Prop
  | .healthCheck w => w.hostname = host → w.reschedule = true →
      w.hostCheck.checkType.isAux = true →
        c.isValidAddress w.hostname w.hostCheck.dualstack
          (.new w.hostCheck.dnsType (w.ipAddress.getType == afInet6) w.hostCheck.remoteCheck)
          w.ipAddress = true
  | _ => True

/-- The condition on a step: a fetch that ends is at an address that the cache still holds. -/
def AuxCurrent (host : HMString) (h : HealthDaemon) : HealthDaemon.Event → Prop
  | .processHealth i _ _ => ∀ v ∈ h.works[i]?, FetchCurrent host h.current.dnsCache v
  | _ => True

section CheckList

variable {l : HMDataCheckList} {k : CheckListKey} {a ip : HMIPAddress} {hostname : HMString}
  {check : HMDataHostCheck} {rep : CheckReport} {now : HMTimeStamp}

/-- Only the results under the key of the check change. -/
theorem heldAt_modify {key : CheckListKey} {f : HMDataCheckParams → HMDataCheckParams} :
    HeldAt { l with checklist := l.checklist.modify key f } k a ↔
      ∃ p ∈ l.checklist.range k, (if eqv key k then f p else p).isValidIP a = true := by
  rw [HeldAt, SortedMultimap.range_modify]
  cases eqv key k <;> simp

/-- A queued check adds its own address alone. -/
theorem heldAt_queueCheck (h : HeldAt (l.queueCheck hostname ip check).1 k a) :
    HeldAt l k a ∨ eqv ⟨hostname, check⟩ k = true ∧ ip = a := by
  rcases heldAt_modify.mp h with ⟨p, hp, hvalid⟩
  split at hvalid
  · rename_i hk
    rw [HMDataCheckParams.isValidIP_queueQuerry, Bool.or_eq_true, eqv_iff_eq] at hvalid
    rcases hvalid with hvalid | heq
    · exact Or.inl ⟨p, hp, hvalid⟩
    · exact Or.inr ⟨hk, heq⟩
  · exact Or.inl ⟨p, hp, hvalid⟩

theorem heldAt_insertEmptyQuery (h : HeldAt (l.insertEmptyQuery hostname check ip rep) k a) :
    HeldAt l k a ∨ eqv ⟨hostname, check⟩ k = true ∧ ip = a := by
  rcases heldAt_modify.mp h with ⟨p, hp, hvalid⟩
  split at hvalid
  · rename_i hk
    rw [HMDataCheckParams.isValidIP_updateCheck, HMDataCheckParams.isValidIP_emptyQuery,
      Bool.or_eq_true, eqv_iff_eq] at hvalid
    rcases hvalid with hvalid | heq
    · exact Or.inl ⟨p, hp, hvalid⟩
    · exact Or.inr ⟨hk, heq⟩
  · exact Or.inl ⟨p, hp, hvalid⟩

theorem heldAt_invalidateCheck (h : HeldAt (l.invalidateCheck hostname ip check) k a) :
    HeldAt l k a ∧ (eqv ⟨hostname, check⟩ k = true → ip ≠ a) := by
  rcases heldAt_modify.mp h with ⟨p, hp, hvalid⟩
  split at hvalid
  · rw [HMDataCheckParams.isValidIP_invalidateResult, Bool.and_eq_true, Bool.not_eq_true'] at hvalid
    refine ⟨⟨p, hp, hvalid.1⟩, ?_⟩
    rintro - rfl
    rw [eqv_refl] at hvalid
    cases hvalid.2
  · rename_i hk
    exact ⟨⟨p, hp, hvalid⟩, fun h => absurd h hk⟩

theorem heldAt_recorded : HeldAt ((l.startCheck hostname check ip now).updateCheckWork hostname
    check ip rep) k a ↔ HeldAt l k a := by
  rw [HMDataCheckList.updateCheckWork, heldAt_modify, HMDataCheckList.startCheck,
    SortedMultimap.range_modify]
  cases heqv : eqv ⟨hostname, check⟩ k <;> simp [HeldAt]

theorem nextCheckTime_congr {p p' : HMDataCheckParams}
    (hparams : p'.toCheckParameters = p.toCheckParameters)
    (hget : p'.checkData.get? a = p.checkData.get? a) :
    p'.nextCheckTime a now = p.nextCheckTime a now := by
  simp only [HMDataCheckParams.nextCheckTime, hget, hparams]

theorem nextCheckTime_queueQuerry (p : HMDataCheckParams) (a : HMIPAddress) (now : HMTimeStamp) :
    (p.queueQuerry a).nextCheckTime a now = now.plus HMTimeStamp.hourInMs := by
  have hget : ∃ r, (p.queueQuerry a).checkData.get? a = some r ∧ r.queryState = .queued := by
    simp only [HMDataCheckParams.queueQuerry, SortedMap.get?_modify, SortedMap.get?_insert,
      eqv_refl, if_true, Option.map_some]
    exact ⟨_, rfl, rfl⟩
  rcases hget with ⟨r, hr, hstate⟩
  simp [HMDataCheckParams.nextCheckTime, hr, hstate]

theorem not_due_of_queued (p : HMDataCheckParams) (a : HMIPAddress) (now : HMTimeStamp) :
    ¬ (p.queueQuerry a).nextCheckTime a now ≤ now := by
  rw [nextCheckTime_queueQuerry, plus_hourInMs]
  grind

/-- A change of results at other addresses leaves the schedule at the address alone. -/
theorem Scheduled.modify (h : Scheduled l k a now) {key : CheckListKey}
    {f : HMDataCheckParams → HMDataCheckParams}
    (hf : ∀ p, (f p).toCheckParameters = p.toCheckParameters ∧
      (f p).checkData.get? a = p.checkData.get? a) :
    Scheduled { l with checklist := l.checklist.modify key f } k a now := by
  intro p hp
  rw [SortedMultimap.range_modify] at hp
  split at hp
  · rcases List.mem_map.mp hp with ⟨q, hq, rfl⟩
    obtain ⟨hparams, hget⟩ := hf q
    rw [nextCheckTime_congr hparams hget, HMDataCheckParams.isValidIP, SortedMap.contains_eq, hget,
      ← SortedMap.contains_eq]
    exact h q hq
  · exact h p hp

theorem Scheduled.queueCheck (h : Scheduled l k a now) (hostname : HMString) (ip : HMIPAddress)
    (check : HMDataHostCheck) : Scheduled (l.queueCheck hostname ip check).1 k a now := by
  by_cases heq : ip = a
  · subst heq
    intro p hp
    simp only [HMDataCheckList.queueCheck, SortedMultimap.range_modify] at hp
    split at hp
    · rcases List.mem_map.mp hp with ⟨q, -, rfl⟩
      rw [HMDataCheckParams.isValidIP_queueQuerry, eqv_refl, Bool.or_true]
      exact ⟨rfl, not_due_of_queued q ip now⟩
    · exact h p hp
  · apply h.modify
    intro p
    refine ⟨rfl, ?_⟩
    simp [HMDataCheckParams.queueQuerry, SortedMap.get?_modify, SortedMap.get?_insert,
      eqv_of_ne heq]

theorem Scheduled.insertEmptyQuery (h : Scheduled l k a now) (hne : ip ≠ a) (hostname : HMString)
    (check : HMDataHostCheck) (rep : CheckReport) :
    Scheduled (l.insertEmptyQuery hostname check ip rep) k a now := by
  apply h.modify
  intro p
  refine ⟨rfl, ?_⟩
  simp [HMDataCheckParams.updateCheck, HMDataCheckParams.emptyQuery, SortedMap.get?_modify,
    SortedMap.get?_insert, eqv_of_ne hne]

theorem Scheduled.invalidateCheck (h : Scheduled l k a now) (hne : ip ≠ a) (hostname : HMString)
    (check : HMDataHostCheck) : Scheduled (l.invalidateCheck hostname ip check) k a now := by
  apply h.modify
  intro p
  refine ⟨rfl, ?_⟩
  simp [HMDataCheckParams.invalidateResult, SortedMap.get?_erase, eqv_of_ne hne]

/-- Once the check at an address is queued if it was due, it is scheduled there. -/
theorem scheduled_of_queued_if_due (l : HMDataCheckList) (hostname : HMString) (a : HMIPAddress)
    (check : HMDataHostCheck) (now : HMTimeStamp) :
    Scheduled (if l.nextCheckTime hostname a check now ≤ now then
      (l.queueCheck hostname a check).1 else l) ⟨hostname, check⟩ a now := by
  by_cases hdue : l.nextCheckTime hostname a check now ≤ now
  · rw [if_pos hdue]
    intro p hp
    simp only [HMDataCheckList.queueCheck, SortedMultimap.range_modify, eqv_refl, if_true] at hp
    rcases List.mem_map.mp hp with ⟨q, -, rfl⟩
    rw [HMDataCheckParams.isValidIP_queueQuerry, eqv_refl, Bool.or_true]
    exact ⟨rfl, not_due_of_queued q a now⟩
  · rw [if_neg hdue]
    rw [HMDataCheckList.nextCheckTime_le_iff] at hdue
    intro p hp
    have hnot : ¬ p.nextCheckTime a now ≤ now := fun hle => hdue ⟨p, hp, hle⟩
    refine ⟨?_, hnot⟩
    -- an entry without a result is due at once
    rw [HMDataCheckParams.isValidIP, SortedMap.contains_eq]
    cases hget : p.checkData.get? a with
    | some r => rfl
    | none => exact absurd (by simp [HMDataCheckParams.nextCheckTime, hget]) hnot

end CheckList

section Kick

variable {cache : HMDNSCache} {now : HMTimeStamp} {w : DnsWork} {report : CheckReport}
  {acc : HMDataCheckList × List HealthWork} {check : HMDataHostCheck} {a : HMIPAddress}

/-- The current addresses that a lookup hands to the checks. -/
def currentIps (cache : HMDNSCache) (w : DnsWork) : List HMIPAddress :=
  (cache.getAddresses w.name (HMDNSCache.familyOnly w.lookup.ipv6) w.lookup).toList

def expiredIps (cache : HMDNSCache) (w : DnsWork) : List HMIPAddress :=
  (cache.getExpiredAddresses w.name (HMDNSCache.familyOnly w.lookup.ipv6) w.lookup).toList

/-- One address of a waiting check. -/
def kickAddress (now : HMTimeStamp) (w : DnsWork) (report : CheckReport) (check : HMDataHostCheck)
    (acc : HMDataCheckList × List HealthWork) (ip : HMIPAddress) :
    HMDataCheckList × List HealthWork :=
  if ip = .v4 0 || ip = .v6 0 then
    if ip = .ofType (HMDNSCache.familyType w.lookup.ipv6) then
      (acc.1.insertEmptyQuery w.name check ip { report with port := check.port }, acc.2)
    else acc
  else if acc.1.nextCheckTime w.name ip check now ≤ now then
    ((acc.1.queueCheck w.name ip check).1, acc.2 ++ (acc.1.queueCheck w.name ip check).2)
  else acc

theorem kickHealthCheck_eq : Daemon.kickHealthCheck cache now w report acc check =
    if check.dualstack.families.contains w.lookup.ipv6 then
      (currentIps cache w).foldl (kickAddress now w report check)
        ((expiredIps cache w).foldl (fun l ip => l.invalidateCheck w.name ip check) acc.1, acc.2)
    else acc := rfl

/-- What each change of one waiting check keeps. -/
structure KeptBy (P : HMDataCheckList → Prop) (current expired : List HMIPAddress) (name : HMString)
    (check : HMDataHostCheck) : Prop where
  invalidate : ∀ l, ∀ ip ∈ expired, P l → P (l.invalidateCheck name ip check)
  insertEmpty : ∀ l rep, ∀ ip ∈ current, ip.isBlank = true → P l →
    P (l.insertEmptyQuery name check ip rep)
  queue : ∀ l, ∀ ip ∈ current, P l → P (l.queueCheck name ip check).1

theorem KeptBy.kickAddress {P : HMDataCheckList → Prop} {current expired : List HMIPAddress}
    (hkept : KeptBy P current expired w.name check) {ip : HMIPAddress} (hip : ip ∈ current)
    (h : P acc.1) : P (kickAddress now w report check acc ip).1 := by
  unfold AddressSync.kickAddress
  split
  · rename_i hblank
    split
    · exact hkept.insertEmpty _ _ ip hip hblank h
    · exact h
  · split
    · exact hkept.queue _ ip hip h
    · exact h

theorem KeptBy.kickHealthCheck {P : HMDataCheckList → Prop}
    (hkept : KeptBy P (currentIps cache w) (expiredIps cache w) w.name check) (h : P acc.1) :
    P (Daemon.kickHealthCheck cache now w report acc check).1 := by
  rw [kickHealthCheck_eq]
  split
  · refine List.foldlRecOn (motive := fun acc : HMDataCheckList × List HealthWork => P acc.1) _ _
      ?_ ?_
    · exact List.foldlRecOn (motive := P) _ _ h fun l hl ip hip => hkept.invalidate l ip hip hl
    · exact fun acc hacc ip hip => hkept.kickAddress hip hacc
  · exact h

theorem keptBy_scheduled {k : CheckListKey} {current expired : List HMIPAddress}
    (hblank : a.isBlank = false) (hnot : a ∉ expired) (name : HMString) :
    KeptBy (fun l => Scheduled l k a now) current expired name check := by
  refine ⟨?_, ?_, ?_⟩
  · intro l ip hip hl
    refine hl.invalidateCheck ?_ _ _
    rintro rfl
    exact hnot hip
  · intro l rep ip _ hip hl
    refine hl.insertEmptyQuery ?_ _ _ _
    rintro rfl
    rw [hblank] at hip
    cases hip
  · exact fun l ip _ hl => hl.queueCheck _ _ _

theorem keptBy_not_heldAt {k : CheckListKey} {current : List HMIPAddress} (hnot : a ∉ current)
    (expired : List HMIPAddress) (name : HMString) :
    KeptBy (fun l => ¬ HeldAt l k a) current expired name check := by
  refine ⟨?_, ?_, ?_⟩
  · exact fun l ip _ hl hheld => hl (heldAt_invalidateCheck hheld).1
  · intro l rep ip hip _ hl hheld
    rcases heldAt_insertEmptyQuery hheld with hheld | ⟨-, rfl⟩
    · exact hl hheld
    · exact hnot hip
  · intro l ip hip hl hheld
    rcases heldAt_queueCheck hheld with hheld | ⟨-, rfl⟩
    · exact hl hheld
    · exact hnot hip

/-- A waiting check of the family is scheduled at every current address. -/
theorem scheduled_kickHealthCheck
    (hfamily : check.dualstack.families.contains w.lookup.ipv6 = true)
    (ha : a ∈ currentIps cache w) (hblank : a.isBlank = false) :
    Scheduled (Daemon.kickHealthCheck cache now w report acc check).1 ⟨w.name, check⟩ a now := by
  rw [kickHealthCheck_eq, if_pos hfamily]
  refine foldl_of_mem (P := fun acc : HMDataCheckList × List HealthWork =>
    Scheduled acc.1 ⟨w.name, check⟩ a now) ha ?_ ?_ _
  · intro acc
    have hown := scheduled_of_queued_if_due acc.1 w.name a check now
    have hnot : ¬ (decide (a = .v4 0) || decide (a = .v6 0)) = true := Bool.eq_false_iff.mp hblank
    rw [kickAddress, if_neg hnot]
    split
    · rename_i hdue
      rwa [if_pos hdue] at hown
    · rename_i hdue
      rwa [if_neg hdue] at hown
  · intro acc ip hip hacc
    exact (keptBy_scheduled hblank List.not_mem_nil w.name).kickAddress hip hacc

/-- A waiting check of the family holds no expired address. -/
theorem not_heldAt_kickHealthCheck
    (hfamily : check.dualstack.families.contains w.lookup.ipv6 = true)
    (ha : a ∈ expiredIps cache w) (hnot : a ∉ currentIps cache w) :
    ¬ HeldAt (Daemon.kickHealthCheck cache now w report acc check).1 ⟨w.name, check⟩ a := by
  rw [kickHealthCheck_eq, if_pos hfamily]
  refine List.foldlRecOn (motive := fun acc : HMDataCheckList × List HealthWork =>
    ¬ HeldAt acc.1 ⟨w.name, check⟩ a) _ _ ?_ ?_
  · refine foldl_of_mem (P := fun l : HMDataCheckList => ¬ HeldAt l ⟨w.name, check⟩ a) ha ?_ ?_
      acc.1
    · exact fun l hheld => (heldAt_invalidateCheck hheld).2 (eqv_refl _) rfl
    · exact fun l ip _ hl hheld => hl (heldAt_invalidateCheck hheld).1
  · exact fun acc hacc ip hip => (keptBy_not_heldAt hnot [] w.name).kickAddress hip hacc

end Kick

section Cache

variable {c c' : HMDNSCache} {k : DNSKey} {a : HMIPAddress} {w : DnsWork} {host : HMString}

/-- The current and the expired addresses of an entry. -/
abbrev Addresses := SortedSet HMIPAddress × SortedSet HMIPAddress

def addresses (c : HMDNSCache) (k : DNSKey) : Option Addresses :=
  (c.cache.get? k).map fun r => (r.addr, r.addrExp)

theorem addresses_congr {k' : DNSKey} (h : eqv k k' = true) : addresses c k = addresses c k' := by
  rw [addresses, addresses, SortedMap.get?_congr _ h]

theorem holds_iff : Holds c k a ↔ ∃ x, addresses c k = some x ∧ a ∈ x.1.toList := by
  simp [Holds, addresses]

/-- Queued lookups leave the addresses alone. -/
theorem addresses_queues {works : List DnsWork} (hq : DNSChain.Queues c c' works) (k : DNSKey) :
    addresses c' k = addresses c k := by
  rw [addresses, addresses, SortedMap.get?, SortedMap.get?]
  cases hfind : c'.cache.find? k with
  | none =>
    cases hbefore : c.cache.find? k with
    | none => rfl
    | some e =>
      obtain ⟨e', he'⟩ := hq.keeps hbefore
      rw [hfind] at he'
      cases he'
  | some e' =>
    obtain ⟨e, he, -, hvalue⟩ := hq.entry hfind
    rw [he]
    rcases hvalue with hsame | ⟨hqueued, -⟩
    · simp only [Option.map_some, hsame]
    · simp only [Option.map_some, hqueued]
      rfl

theorem isValidAddress_iff {name : HMString} {dualstack : DualStack} {lookup : HMDNSLookup} :
    c.isValidAddress name dualstack lookup a = true ↔ ∃ ipv6 ∈ dualstack.families,
      Holds c (name, .new lookup.type ipv6 lookup.remoteCheckGroup) a := by
  rw [HMDNSCache.isValidAddress, HMDNSCache.familyLookups, List.any_map, List.any_eq_true]
  simp only [Function.comp_apply, HMDNSCache.getDNSResult, Holds]
  refine exists_congr fun ipv6 => and_congr_right fun _ => ?_
  cases c.cache.get? (name, HMDNSLookup.new lookup.type ipv6 lookup.remoteCheckGroup) with
  | none => simp
  | some r => simp [HMDNSResult.isValidAddress, SortedSet.contains_iff_mem]

theorem mem_currentIps {x : Addresses} (hx : addresses c (w.name, w.lookup) = some x) :
    a ∈ currentIps c w ↔ a ∈ x.1.toList := by
  rcases Option.map_eq_some_iff.mp hx with ⟨r, hr, rfl⟩
  rw [currentIps, ← SortedSet.contains_iff_mem, ReloadDNS.contains_getAddresses]
  simp [hr]

theorem mem_expiredIps {x : Addresses} (hx : addresses c (w.name, w.lookup) = some x) :
    a ∈ expiredIps c w ↔ a ∈ x.2.toList := by
  rcases Option.map_eq_some_iff.mp hx with ⟨r, hr, rfl⟩
  rw [expiredIps, HMDNSCache.getExpiredAddresses, DNSWaiters.collectAddresses_single hr,
    ← SortedSet.contains_iff_mem, SortedSet.contains_insertAll]
  simp [SortedMap.contains, eqv_iff_eq]

/-- An entry with new addresses: those it had and lost are expired. -/
def renewed (x : Addresses) (new : SortedSet HMIPAddress) : Addresses :=
  (new, SortedSet.insertAll ∅ (x.1.toList.filter fun a => !new.contains a))

theorem mem_renewed {x : Addresses} {new : SortedSet HMIPAddress} :
    a ∈ (renewed x new).2.toList ↔ a ∈ x.1.toList ∧ a ∉ new.toList := by
  rw [renewed, ← SortedSet.contains_iff_mem, SortedSet.contains_insertAll]
  simp [SortedMap.contains, eqv_iff_eq, ← SortedSet.contains_iff_mem]

/-- What the end of a lookup does to the addresses of its entry. -/
def answered (lookup : HMDNSLookup) (answer : Option (SortedSet HMIPAddress)) (x : Addresses) :
    Addresses :=
  match answer with
  | some new => renewed x new
  | none =>
    if x.1.toList = [] then
      renewed x (SortedMap.empty.insert (.ofType (HMDNSCache.familyType lookup.ipv6)) ())
    else x

theorem addresses_dnsLookup (name : HMString) (lookup : HMDNSLookup)
    (answer : Option (SortedSet HMIPAddress)) (success : Bool) (now : HMTimeStamp) :
    addresses (c.dnsLookup name lookup answer success now) k =
      if eqv (name, lookup) k then (addresses c k).map (answered lookup answer)
      else addresses c k := by
  rw [addresses, addresses, HMDNSCache.dnsLookup_cache, SortedMap.get?_modify]
  split
  · rename_i hk
    rw [← SortedMap.get?_congr _ hk, Option.map_map, Option.map_map]
    apply Option.map_congr
    intro r hr
    have hempty : (c.getAddresses name (HMDNSCache.familyOnly lookup.ipv6) lookup).toList = [] ↔
        r.addr.toList = [] := by
      simp only [List.eq_nil_iff_forall_not_mem, ← SortedSet.contains_iff_mem,
        ReloadDNS.contains_getAddresses, Option.mem_def.mp hr, Option.some.injEq, exists_eq_left']
    cases answer with
    | some new => rfl
    | none =>
      simp only [Function.comp_apply, HMDNSCache.takeAnswer, answered, hempty]
      split <;> rfl
  · rfl

/-- The cache after a lookup has been recorded and scheduled again. -/
theorem addresses_afterLookup (d : Daemon) (w : DnsWork) (o : DnsOutcome) (k : DNSKey) :
    addresses (DNSWaiters.afterLookup d w o).current.dnsCache k =
      if eqv (w.name, w.lookup) k then
        (addresses d.current.dnsCache k).map (answered w.lookup o.answer)
      else addresses d.current.dnsCache k := by
  have hstart : ∀ k, addresses (d.current.dnsCache.startDNSQuery w.name w.lookup d.now) k =
      addresses d.current.dnsCache k := by
    intro k
    rw [addresses, addresses, HMDNSCache.startDNSQuery, SortedMap.get?_modify]
    split
    · rw [Option.map_map]
      rfl
    · rfl
  have hreschedule : ∀ d : Daemon, addresses (d.rescheduleDNS w).current.dnsCache k =
      addresses d.current.dnsCache k := by
    intro d
    unfold Daemon.rescheduleDNS
    dsimp only
    split
    · rfl
    · split
      · exact addresses_queues (DNSChain.queues_queueDNSQuery _ _ _) k
      · rfl
  rw [DNSWaiters.afterLookup, hreschedule, Daemon.putDNS]
  dsimp only
  rw [addresses_dnsLookup, hstart]

/-- The condition on the addresses of an entry. The lookups of the host are made for no remote
group. -/
structure EntryOk (host : HMString) (k : DNSKey) (x : Addresses) : Prop where
  apart : ∀ a ∈ x.2.toList, a ∉ x.1.toList
  family : ∀ a ∈ x.1.toList, a.getType = HMDNSCache.familyType k.2.ipv6
  group : k.1 = host → k.2.remoteCheckGroup = []

theorem EntryOk.renewed {x : Addresses} (h : EntryOk host k x) {new : SortedSet HMIPAddress}
    (hnew : ∀ a ∈ new.toList, a.getType = HMDNSCache.familyType k.2.ipv6) :
    EntryOk host k (renewed x new) where
  apart := fun _ ha => (mem_renewed.mp ha).2
  family := hnew
  group := h.group

theorem EntryOk.answered {x : Addresses} (h : EntryOk host k x) {lookup : HMDNSLookup}
    {answer : Option (SortedSet HMIPAddress)} (hlookup : lookup.ipv6 = k.2.ipv6)
    (hanswer : ∀ new, answer = some new →
      ∀ a ∈ new.toList, a.getType = HMDNSCache.familyType lookup.ipv6) :
    EntryOk host k (answered lookup answer x) := by
  cases answer with
  | some new =>
    apply h.renewed
    rw [← hlookup]
    exact hanswer new rfl
  | none =>
    unfold AddressSync.answered
    dsimp only
    split
    · apply h.renewed
      intro a ha
      rw [List.mem_singleton.mp ha, hlookup]
      cases k.2.ipv6 <;> decide
    · exact h

/-- No address is lost without a trace. -/
theorem mem_answered {x : Addresses} (ha : a ∈ x.1.toList) (lookup : HMDNSLookup)
    (answer : Option (SortedSet HMIPAddress)) :
    a ∈ (answered lookup answer x).1.toList ∨ a ∈ (answered lookup answer x).2.toList := by
  have hrenewed : ∀ new, a ∈ (renewed x new).1.toList ∨ a ∈ (renewed x new).2.toList := by
    intro new
    by_cases hnew : a ∈ new.toList
    · exact Or.inl hnew
    · exact Or.inr (mem_renewed.mpr ⟨ha, hnew⟩)
  cases answer with
  | some new => exact hrenewed new
  | none =>
    unfold answered
    dsimp only
    split
    · exact hrenewed _
    · exact Or.inl ha

end Cache

section Lookup

variable {host : HMString} {l : HMDataCheckList} {k : CheckListKey} {a : HMIPAddress} {d : Daemon}
  {w : DnsWork} {o : DnsOutcome}

def listed (l : HMDataCheckList) : List CheckListKey := l.checklist.entries.map Prod.fst

theorem listed_modify (l : HMDataCheckList) (key : CheckListKey)
    (f : HMDataCheckParams → HMDataCheckParams) :
    listed { l with checklist := l.checklist.modify key f } = listed l := by
  rw [listed, listed, SortedMultimap.modify, SortedMultimap.mapVals, List.map_map]
  rfl

theorem exists_listed (h : HeldAt l k a) : ∃ k' ∈ listed l, eqv k' k = true := by
  rcases h with ⟨p, hp, -⟩
  rcases List.mem_map.mp hp with ⟨e, he, -⟩
  rcases List.mem_filter.mp he with ⟨hmem, hk⟩
  exact ⟨e.1, List.mem_map_of_mem hmem, hk⟩

theorem heldAt_congr {k' : CheckListKey} (h : eqv k k' = true) : HeldAt l k a ↔ HeldAt l k' a := by
  rw [HeldAt, HeldAt, SortedMultimap.range_congr _ h]

/-- The checks of the host wait for its lookups, and none has a remote group. -/
structure Configured (host : HMString) (waitList : HMWaitList) (keys : List CheckListKey) :
    Prop where
  waits : ∀ k ∈ keys, k.hostname = host →
    k.hostCheck ∈ waitList.range (host, k.hostCheck.dnsType.code)
  waiter : ∀ type check, check ∈ waitList.range (host, DnsType.code type) →
    check.dnsType = type ∧ check.remoteCheck = []

/-- The key that a check finds its addresses of a family under. -/
def dnsKey (k : CheckListKey) (ipv6 : Bool) : DNSKey :=
  (k.hostname, .new k.hostCheck.dnsType ipv6 k.hostCheck.remoteCheck)

/-- The list holds no address of the host that the cache does not hold. -/
structure InSync (host : HMString) (d : Daemon) : Prop where
  entries : ∀ k x, addresses d.current.dnsCache k = some x → EntryOk host k x
  configured : Configured host d.current.dnsWaitList (listed d.current.checkList)
  held : ∀ k ipv6 a, k.hostname = host → HeldAt d.current.checkList k a →
    ipv6 ∈ k.hostCheck.dualstack.families → a.getType = HMDNSCache.familyType ipv6 →
      Holds d.current.dnsCache (dnsKey k ipv6) a

theorem InSync.expiredApart (h : InSync host d) : ExpiredApart d.current.dnsCache := by
  intro k r hr
  exact (h.entries k (r.addr, r.addrExp) (by rw [addresses, hr]; rfl)).apart

theorem dnsKey_congr {k' : CheckListKey} (h : eqv k k' = true) (ipv6 : Bool) :
    dnsKey k ipv6 = dnsKey k' ipv6 ∧ k.hostCheck.dualstack = k'.hostCheck.dualstack := by
  rcases CheckListKey.eqv_iff_fields.mp h with ⟨hname, hcheck, htype⟩
  have hfields := HMDataHostCheck.beq_iff.mp hcheck
  refine ⟨?_, hfields.2.2.1⟩
  rw [dnsKey, dnsKey, hname, htype, hfields.2.2.2.2.1]

/-- The addresses that the loop over the wait list adds are those of the lookup. -/
theorem heldAt_kickHealthChecks {cache : HMDNSCache} {now : HMTimeStamp} {report : CheckReport}
    {checks : List HMDataHostCheck} {acc : HMDataCheckList × List HealthWork}
    (h : HeldAt (checks.foldl (Daemon.kickHealthCheck cache now w report) acc).1 k a) :
    HeldAt acc.1 k a ∨ a ∈ currentIps cache w ∧
      ∃ check ∈ checks, check.dualstack.families.contains w.lookup.ipv6 = true ∧
        eqv ⟨w.name, check⟩ k = true := by
  revert h
  refine List.foldlRecOn (motive := fun acc' : HMDataCheckList × List HealthWork =>
    HeldAt acc'.1 k a → HeldAt acc.1 k a ∨ a ∈ currentIps cache w ∧ ∃ check ∈ checks,
      check.dualstack.families.contains w.lookup.ipv6 = true ∧ eqv ⟨w.name, check⟩ k = true) _ _
    Or.inl ?_
  intro acc' hacc' check hcheck
  cases hfamily : check.dualstack.families.contains w.lookup.ipv6 with
  | false =>
    rw [DNSWaiters.kickHealthCheck_of_other_family hfamily]
    exact hacc'
  | true =>
    refine KeptBy.kickHealthCheck (P := fun l => HeldAt l k a → _) ⟨?_, ?_, ?_⟩ hacc'
    · exact fun l ip _ hl hheld => hl (heldAt_invalidateCheck hheld).1
    · intro l rep ip hip _ hl hheld
      rcases heldAt_insertEmptyQuery hheld with hheld | ⟨hk, rfl⟩
      · exact hl hheld
      · exact Or.inr ⟨hip, check, hcheck, hfamily, hk⟩
    · intro l ip hip hl hheld
      rcases heldAt_queueCheck hheld with hheld | ⟨hk, rfl⟩
      · exact hl hheld
      · exact Or.inr ⟨hip, check, hcheck, hfamily, hk⟩

theorem listed_kickHealthChecks (cache : HMDNSCache) (now : HMTimeStamp) (report : CheckReport)
    (checks : List HMDataHostCheck) (acc : HMDataCheckList × List HealthWork) :
    listed (checks.foldl (Daemon.kickHealthCheck cache now w report) acc).1 = listed acc.1 := by
  refine List.foldlRecOn (motive := fun acc' : HMDataCheckList × List HealthWork =>
    listed acc'.1 = listed acc.1) _ _ rfl ?_
  intro acc' hacc' check _
  refine KeptBy.kickHealthCheck (P := fun l => listed l = listed acc.1) ⟨?_, ?_, ?_⟩ hacc'
  · exact fun l ip _ hl => (listed_modify l _ _).trans hl
  · exact fun l rep ip _ _ hl => (listed_modify l _ _).trans hl
  · exact fun l ip _ hl => (listed_modify l _ _).trans hl

/-- No check of the family that the loop comes to holds an expired address afterwards. -/
theorem not_heldAt_kickHealthChecks {cache : HMDNSCache} {check : HMDataHostCheck}
    {checks : List HMDataHostCheck} (hcheck : check ∈ checks)
    (hfamily : check.dualstack.families.contains w.lookup.ipv6 = true)
    (ha : a ∈ expiredIps cache w) (hnot : a ∉ currentIps cache w) (now : HMTimeStamp)
    (report : CheckReport) (acc : HMDataCheckList × List HealthWork) :
    ¬ HeldAt (checks.foldl (Daemon.kickHealthCheck cache now w report) acc).1
      ⟨w.name, check⟩ a := by
  refine foldl_of_mem (P := fun acc : HMDataCheckList × List HealthWork =>
    ¬ HeldAt acc.1 ⟨w.name, check⟩ a) hcheck
    (fun acc => not_heldAt_kickHealthCheck hfamily ha hnot) ?_ acc
  exact fun acc check' _ hacc => (keptBy_not_heldAt hnot _ w.name).kickHealthCheck hacc

theorem scheduled_kickHealthChecks {cache : HMDNSCache} {check : HMDataHostCheck}
    {checks : List HMDataHostCheck} (hcheck : check ∈ checks)
    (hfamily : check.dualstack.families.contains w.lookup.ipv6 = true)
    (ha : a ∈ currentIps cache w) (hnot : a ∉ expiredIps cache w) (hblank : a.isBlank = false)
    (now : HMTimeStamp) (report : CheckReport) (acc : HMDataCheckList × List HealthWork) :
    Scheduled (checks.foldl (Daemon.kickHealthCheck cache now w report) acc).1
      ⟨w.name, check⟩ a now := by
  refine foldl_of_mem (P := fun acc : HMDataCheckList × List HealthWork =>
    Scheduled acc.1 ⟨w.name, check⟩ a now) hcheck
    (fun acc => scheduled_kickHealthCheck hfamily ha hblank) ?_ acc
  exact fun acc check' _ hacc => (keptBy_scheduled hblank hnot w.name).kickHealthCheck hacc

/-- The key of a check of the host is that of the lookup it waits for. -/
theorem eqv_dnsKey (h : InSync host d) (hname : w.name = host) {x : Addresses}
    (hx : addresses d.current.dnsCache (w.name, w.lookup) = some x) {check : HMDataHostCheck}
    (hcheck : check ∈ d.current.dnsWaitList.range (w.name, w.lookup.type.code)) :
    eqv (w.name, w.lookup) (dnsKey ⟨w.name, check⟩ w.lookup.ipv6) = true := by
  rw [hname] at hcheck
  obtain ⟨htype, hremote⟩ := h.configured.waiter w.lookup.type check hcheck
  have hgroup := (h.entries _ x hx).group hname
  exact DNSKey.eqv_iff.mpr ⟨rfl, htype.symm, hgroup.trans hremote.symm, rfl⟩

/-- A check with results is one that waits for the lookups of its host. -/
theorem exists_waiter (h : InSync host d) (hhost : k.hostname = host)
    (hheld : HeldAt d.current.checkList k a) :
    ∃ check ∈ d.current.dnsWaitList.range (host, k.hostCheck.dnsType.code),
      eqv ⟨host, check⟩ k = true ∧ check.dualstack = k.hostCheck.dualstack := by
  obtain ⟨k', hk', heqv⟩ := exists_listed hheld
  rcases CheckListKey.eqv_iff_fields.mp heqv with ⟨hname, -, htype⟩
  have hhost' : k'.hostname = host := hname.trans hhost
  have hwaits := h.configured.waits k' hk' hhost'
  rw [htype] at hwaits
  refine ⟨k'.hostCheck, hwaits, ?_, (dnsKey_congr heqv false).2⟩
  rw [← hhost']
  exact heqv

section Completion

variable (h : InSync host d)
  (hanswer : AnswersFamily o (.dnsLookup w))
  {x : Addresses} (hx : addresses d.current.dnsCache (w.name, w.lookup) = some x)

include h hanswer

theorem entries_afterLookup (k : DNSKey) (y : Addresses)
    (hy : addresses (DNSWaiters.afterLookup d w o).current.dnsCache k = some y) :
    EntryOk host k y := by
  rw [addresses_afterLookup] at hy
  split at hy
  · rename_i hk
    rcases Option.map_eq_some_iff.mp hy with ⟨z, hz, rfl⟩
    exact (h.entries k z hz).answered (DNSKey.eqv_iff.mp hk).2.2.2 hanswer
  · exact h.entries k y hy

omit h hanswer in
include hx in
theorem addresses_looked_up :
    addresses (DNSWaiters.afterLookup d w o).current.dnsCache (w.name, w.lookup) =
      some (answered w.lookup o.answer x) := by
  rw [addresses_afterLookup, if_pos (eqv_refl _), hx, Option.map_some]

include hx

/-- After a lookup the cache still holds the addresses that the list holds. -/
theorem held_processDNS {ipv6 : Bool} (hhost : k.hostname = host)
    (hheld : HeldAt ((DNSWaiters.afterLookup d w o).kickHealthChecks w o.report).current.checkList
      k a) (hipv6 : ipv6 ∈ k.hostCheck.dualstack.families)
    (htype : a.getType = HMDNSCache.familyType ipv6) :
    Holds (DNSWaiters.afterLookup d w o).current.dnsCache (dnsKey k ipv6) a := by
  obtain ⟨hlist, hwait, -, -⟩ := DNSWaiters.afterLookup_frame d w o
  have hx' := addresses_looked_up (o := o) hx
  rcases heldAt_kickHealthChecks hheld with hold | ⟨hcurrent, check, hcheck, -, hk⟩
  · rw [hlist] at hold
    obtain ⟨y, hy, hay⟩ := holds_iff.mp (h.held k ipv6 a hhost hold hipv6 htype)
    by_cases hkey : eqv (w.name, w.lookup) (dnsKey k ipv6) = true
    · rw [addresses_congr hkey, hy] at hx
      obtain rfl := Option.some.inj hx
      rcases mem_answered hay w.lookup o.answer with hcurrent | hexpired
      · rw [holds_iff, ← addresses_congr hkey]
        exact ⟨_, hx', hcurrent⟩
      · -- the entries of the check have lost the address
        obtain ⟨check, hcheck, heqv, hdualstack⟩ := exists_waiter h hhost hold
        rcases DNSKey.eqv_iff.mp hkey with ⟨hname, hdns, -, hfamily⟩
        have hhost' : w.name = host := hname.trans hhost
        have hdns' : w.lookup.type = k.hostCheck.dnsType := hdns
        rw [← hwait, ← hhost', ← hdns'] at hcheck
        have hcontains : check.dualstack.families.contains w.lookup.ipv6 = true := by
          rw [hdualstack, show w.lookup.ipv6 = ipv6 from hfamily]
          exact List.contains_iff_mem.mpr hipv6
        have happart := (entries_afterLookup h hanswer _ _ hx').apart a hexpired
        rw [← hhost'] at heqv
        exact absurd ((heldAt_congr heqv).mpr hheld) (not_heldAt_kickHealthChecks hcheck hcontains
          ((mem_expiredIps hx').mpr hexpired) (fun hmem => happart ((mem_currentIps hx').mp hmem))
          (DNSWaiters.afterLookup d w o).now o.report
          ((DNSWaiters.afterLookup d w o).current.checkList, []))
    · rw [holds_iff, addresses_afterLookup, if_neg hkey]
      exact ⟨y, hy, hay⟩
  · have hname : w.name = host := by
      rw [← hhost]
      exact (CheckListKey.eqv_iff_fields.mp hk).1
    have hmem := (mem_currentIps hx').mp hcurrent
    have hfamily := (entries_afterLookup h hanswer _ _ hx').family a hmem
    obtain rfl : ipv6 = w.lookup.ipv6 := ReloadDNS.familyType_inj (htype.symm.trans hfamily)
    rw [hwait] at hcheck
    rw [← (dnsKey_congr hk _).1, holds_iff, ← addresses_congr (eqv_dnsKey h hname hx hcheck)]
    exact ⟨_, hx', hmem⟩

omit hx in
/-- A lookup keeps the two in step. -/
theorem InSync.processDNS : InSync host (d.processDNS w o) := by
  rw [DNSWaiters.processDNS_eq]
  split
  · rename_i hcontains
    rw [SortedMap.contains_eq, Option.isSome_iff_exists] at hcontains
    rcases hcontains with ⟨r, hr⟩
    obtain ⟨hlist, hwait, -, -⟩ := DNSWaiters.afterLookup_frame d w o
    refine ⟨entries_afterLookup h hanswer, ?_, ?_⟩
    · have hlisted : listed ((DNSWaiters.afterLookup d w o).kickHealthChecks w
          o.report).current.checkList = listed (DNSWaiters.afterLookup d w o).current.checkList :=
        listed_kickHealthChecks _ _ _ _ _
      rw [hlisted, hlist]
      exact hwait.symm ▸ h.configured
    · intro k ipv6 a hhost hheld hipv6 htype
      exact held_processDNS h hanswer (congrArg (Option.map _) hr) hhost hheld hipv6 htype
  · exact h

omit hx in
/-- A lookup of the host leaves its checks with the addresses found. -/
theorem refreshed_processDNS (hname : w.name = host) : Refreshed (d.processDNS w o) w := by
  have hsync : InSync host (d.processDNS w o) := h.processDNS hanswer
  refine ⟨?_, ?_⟩
  · intro check hcheck hfamily r hr p hp a hvalid htype
    have hr' : addresses (d.processDNS w o).current.dnsCache (w.name, w.lookup) =
        some (r.addr, r.addrExp) := congrArg (Option.map _) hr
    obtain ⟨y, hy, hay⟩ := holds_iff.mp (hsync.held ⟨w.name, check⟩ w.lookup.ipv6 a hname
      ⟨p, hp, hvalid⟩ (List.contains_iff_mem.mp hfamily) htype)
    rw [← addresses_congr (eqv_dnsKey hsync hname hr' hcheck), hr'] at hy
    obtain rfl := Option.some.inj hy
    exact hay
  · intro check hcheck hfamily r hr a ha hblank p hp
    have hr' : addresses (d.processDNS w o).current.dnsCache (w.name, w.lookup) =
        some (r.addr, r.addrExp) := congrArg (Option.map _) hr
    have happart : a ∉ r.addrExp.toList := fun hexp => (hsync.entries _ _ hr').apart a hexp ha
    rw [DNSWaiters.processDNS_eq] at hcheck hr hr' hp ⊢
    split at hr
    · rename_i hcontains
      rw [if_pos hcontains] at hcheck hr' hp ⊢
      have hscheduled := scheduled_kickHealthChecks hcheck hfamily ((mem_currentIps hr').mpr ha)
        (fun hexp => happart ((mem_expiredIps hr').mp hexp)) hblank
        (DNSWaiters.afterLookup d w o).now o.report
        ((DNSWaiters.afterLookup d w o).current.checkList, []) p hp
      exact ⟨hscheduled.1, fun hdue => hscheduled.2 hdue.2⟩
    · rename_i hcontains
      rw [SortedMap.contains_eq, hr] at hcontains
      exact absurd rfl hcontains

end Completion

end Lookup

section Steps

variable {host : HMString} {d d' : Daemon} {h h' : HealthDaemon}

/-- A step that changes no addresses of the cache keeps the two in step if the list takes its new
addresses from the cache. -/
theorem InSync.update (hsync : InSync host d)
    (haddresses : ∀ k, addresses d'.current.dnsCache k = addresses d.current.dnsCache k)
    (hwait : d'.current.dnsWaitList = d.current.dnsWaitList)
    (hlisted : listed d'.current.checkList = listed d.current.checkList)
    (hheld : ∀ k a, k.hostname = host → HeldAt d'.current.checkList k a →
      HeldAt d.current.checkList k a ∨
        ∃ ipv6 ∈ k.hostCheck.dualstack.families, Holds d.current.dnsCache (dnsKey k ipv6) a) :
    InSync host d' := by
  refine ⟨?_, ?_, ?_⟩
  · intro k x hx
    exact hsync.entries k x ((haddresses k).symm.trans hx)
  · rw [hwait, hlisted]
    exact hsync.configured
  · intro k ipv6 a hhost ha hipv6 htype
    rw [holds_iff, haddresses, ← holds_iff]
    rcases hheld k a hhost ha with hbefore | ⟨ipv6', -, hholds⟩
    · exact hsync.held k ipv6 a hhost hbefore hipv6 htype
    · rcases holds_iff.mp hholds with ⟨x, hx, hmem⟩
      have hfamily := (hsync.entries _ x hx).family a hmem
      obtain rfl : ipv6 = ipv6' := ReloadDNS.familyType_inj (htype.symm.trans hfamily)
      exact hholds

theorem InSync.frame (hsync : InSync host d)
    (haddresses : ∀ k, addresses d'.current.dnsCache k = addresses d.current.dnsCache k)
    (hwait : d'.current.dnsWaitList = d.current.dnsWaitList)
    (hlist : d'.current.checkList = d.current.checkList) : InSync host d' := by
  refine hsync.update haddresses hwait (by rw [hlist]) ?_
  intro k a _ hheld
  rw [hlist] at hheld
  exact Or.inl hheld

theorem InSync.putDNS (hsync : InSync host d) {r : HMDNSCache × List DnsWork}
    (hq : DNSChain.Queues d.current.dnsCache r.1 r.2) : InSync host (d.putDNS r) :=
  hsync.frame (addresses_queues hq) rfl rfl

theorem InSync.handleTimeout (hsync : InSync host d) (t : Timeout) :
    InSync host (d.handleTimeout t) := by
  cases t with
  | dns t =>
    simp only [Daemon.handleTimeout]
    split
    · exact hsync.putDNS (DNSChain.queues_queueDNSQuery _ _ _)
    · exact hsync.frame (fun _ => rfl) rfl rfl
    · exact hsync
  | remoteCheck name time =>
    simp only [Daemon.handleTimeout]
    split
    · exact hsync.frame (fun _ => rfl) rfl rfl
    · exact hsync.frame (fun _ => rfl) rfl rfl
    · exact hsync
  | remoteHostCheck key time =>
    simp only [Daemon.handleTimeout]
    split
    · exact hsync.frame (fun _ => rfl) rfl rfl
    · exact hsync.frame (fun _ => rfl) rfl rfl
    · exact hsync

/-- A check is queued at an address that the list or the cache holds. -/
theorem InSync.queueCheck (hsync : InSync host h.toDaemon) (hostname : HMString) (ip : HMIPAddress)
    (check : HMDataHostCheck)
    (hip : hostname = host → HeldAt h.current.checkList ⟨hostname, check⟩ ip ∨
      ∃ ipv6 ∈ check.dualstack.families,
        Holds h.current.dnsCache (dnsKey ⟨hostname, check⟩ ipv6) ip) :
    InSync host (h.queueCheck hostname ip check).toDaemon := by
  refine hsync.update (fun _ => rfl) rfl (listed_modify _ _ _) ?_
  intro k a hhost hheld
  rcases heldAt_queueCheck hheld with hheld | ⟨hk, rfl⟩
  · exact Or.inl hheld
  · have hname : hostname = host := (CheckListKey.eqv_iff_fields.mp hk).1.trans hhost
    rcases hip hname with hheld | ⟨ipv6, hipv6, hholds⟩
    · exact Or.inl ((heldAt_congr hk).mp hheld)
    · obtain ⟨hkey, hdualstack⟩ := dnsKey_congr hk ipv6
      exact Or.inr ⟨ipv6, hdualstack ▸ hipv6, hkey ▸ hholds⟩

/-- A timeout has work only where every entry has a result and one of them is due. -/
theorem heldAt_of_checkNeeded {l : HMDataCheckList} {hostname : HMString} {ip : HMIPAddress}
    {check : HMDataHostCheck} {now : HMTimeStamp}
    (hneeded : l.checkNeeded hostname ip check now = .work) : HeldAt l ⟨hostname, check⟩ ip := by
  by_cases hskip : (ip.isBlank || (l.checklist.range ⟨hostname, check⟩).any fun p =>
      !p.isValidIP ip) = true
  · rw [HMDataCheckList.checkNeeded] at hneeded
    simp only [hskip, if_true] at hneeded
    cases hneeded
  · rw [Bool.or_eq_true, not_or, Bool.not_eq_true, List.any_eq_true] at hskip
    have hvalid : ∀ p ∈ l.checklist.range ⟨hostname, check⟩, p.isValidIP ip = true := by
      intro p hp
      by_contra hnot
      exact hskip.2 ⟨p, hp, by simpa using hnot⟩
    rw [HMDataCheckList.checkNeeded_eq_work_iff hskip.1 hvalid,
      HMDataCheckList.nextCheckTime_le_iff] at hneeded
    rcases hneeded with ⟨p, hp, -⟩
    exact ⟨p, hp, hvalid p hp⟩

theorem InSync.handleHealthTimeout (hsync : InSync host h.toDaemon) (t : HealthTimeout) :
    InSync host (h.handleHealthTimeout t).toDaemon := by
  rw [HealthDaemon.handleHealthTimeout]
  split
  · rename_i hneeded
    exact hsync.queueCheck _ _ _ fun _ => Or.inl (heldAt_of_checkNeeded hneeded)
  · exact hsync.frame (fun _ => rfl) rfl rfl
  · exact hsync

theorem InSync.recordCheck (hsync : InSync host h.toDaemon) (hostname : HMString)
    (ip : HMIPAddress) (check : HMDataHostCheck) (report : CheckReport) :
    InSync host (h.recordCheck hostname ip check report).toDaemon := by
  refine hsync.update (fun _ => rfl) rfl ?_ ?_
  · exact (listed_modify _ _ _).trans (listed_modify _ _ _)
  · exact fun k a _ hheld => Or.inl (heldAt_recorded.mp hheld)

/-- A check is repeated at an address that the cache holds, unless it fetches auxiliary data. -/
theorem InSync.reschedule (hsync : InSync host h.toDaemon) {w : HealthWork}
    (haux : FetchCurrent host h.current.dnsCache (.healthCheck w)) :
    InSync host (h.reschedule w).toDaemon := by
  unfold HealthDaemon.reschedule
  dsimp only
  split
  · exact hsync
  · rename_i hrepeated
    split
    · apply hsync.queueCheck
      intro hname
      rw [Bool.not_eq_true', Bool.not_eq_false, HealthDaemon.isRepeated, Bool.and_eq_true,
        Bool.or_eq_true] at hrepeated
      have hvalid : h.current.dnsCache.isValidAddress w.hostname w.hostCheck.dualstack
          (.new w.hostCheck.dnsType (w.ipAddress.getType == afInet6) w.hostCheck.remoteCheck)
          w.ipAddress = true := by
        rcases hrepeated.2 with hfetch | hvalid
        · exact haux hname hrepeated.1 hfetch
        · exact hvalid
      rw [isValidAddress_iff] at hvalid
      exact Or.inr hvalid
    · exact hsync.frame (fun _ => rfl) rfl rfl

theorem InSync.processHealth (hsync : InSync host h.toDaemon) {w : HealthWork}
    (haux : FetchCurrent host h.current.dnsCache (.healthCheck w)) (report : CheckReport)
    (marks : List Int) : InSync host (h.processHealth w report marks).toDaemon := by
  have hmarks : ∀ works : List MarkWork, InSync host
      (({ h with markWorks := works } : HealthDaemon).recordCheck w.hostname w.ipAddress w.hostCheck
        report |>.reschedule w).toDaemon := by
    intro works
    apply InSync.reschedule
    · apply InSync.recordCheck
      exact hsync
    · exact haux
  rw [HealthDaemon.processHealth]
  split
  · exact hmarks _
  · exact hmarks h.markWorks

/-- The second state has new results only at addresses that the cache of the first holds. -/
structure Draws (s s' : HMState) : Prop where
  addresses : ∀ k, addresses s'.dnsCache k = addresses s.dnsCache k
  listed : listed s'.checkList = listed s.checkList
  held : ∀ k a, HeldAt s'.checkList k a → HeldAt s.checkList k a ∨
    ∃ ipv6 ∈ k.hostCheck.dualstack.families, Holds s.dnsCache (dnsKey k ipv6) a

/-- A forced check is queued at an address that the cache holds. -/
theorem Draws.forceAddress {s : HMState} {g : HMDataHostGroup} {check : HMDataHostCheck}
    {name : HMString} {acc : HMState × List DnsWork × List HealthWork} (hdraws : Draws s acc.1)
    {ip : HMIPAddress}
    (hip : ∃ ipv6 ∈ check.dualstack.families, Holds s.dnsCache (dnsKey ⟨name, check⟩ ipv6) ip) :
    Draws s (HMState.forceAddress g check name acc ip).1 := by
  rw [HMState.forceAddress]
  split
  · refine ⟨fun k => ?_, hdraws.listed, hdraws.held⟩
    exact (addresses_queues (DNSChain.queues_queueDNSQuery _ _ _) k).trans (hdraws.addresses k)
  · refine ⟨hdraws.addresses, (listed_modify _ _ _).trans hdraws.listed, ?_⟩
    intro k a hheld
    rcases heldAt_queueCheck hheld with hheld | ⟨hk, rfl⟩
    · exact hdraws.held k a hheld
    · rcases hip with ⟨ipv6, hipv6, hholds⟩
      obtain ⟨hkey, hdualstack⟩ := dnsKey_congr hk ipv6
      exact Or.inr ⟨ipv6, hdualstack ▸ hipv6, hkey ▸ hholds⟩

theorem Draws.forceHost {s : HMState} {g : HMDataHostGroup}
    {acc : HMState × List DnsWork × List HealthWork} (hdraws : Draws s acc.1) (name : HMString) :
    Draws s (HMState.forceHost g g.toHMDataHostCheck acc name).1 := by
  refine List.foldlRecOn (motive := fun acc : HMState × List DnsWork × List HealthWork =>
    Draws s acc.1) _ _ hdraws ?_
  intro acc' hacc' ip hip
  apply hacc'.forceAddress
  rcases mem_getAddresses.mp hip with ⟨ipv6, hipv6, hholds⟩
  rw [holds_iff, hdraws.addresses, ← holds_iff] at hholds
  exact ⟨ipv6, hipv6, hholds⟩

theorem draws_forceHealthCheck (s : HMState) (hostGroup : HMString) (hostName : Option HMString) :
    Draws s (s.forceHealthCheck hostGroup hostName).1 := by
  have hself : Draws s s := ⟨fun _ => rfl, rfl, fun _ _ hheld => Or.inl hheld⟩
  rw [HMState.forceHealthCheck]
  split
  · exact hself
  · rename_i g _
    rw [HMDataHostGroup.getHostCheck]
    split
    · exact hself
    · rename_i check hcheck
      split at hcheck
      · obtain rfl := Option.some.inj hcheck
        exact List.foldlRecOn (motive := fun acc : HMState × List DnsWork × List HealthWork =>
          Draws s acc.1) _ _ hself fun acc hacc name _ => hacc.forceHost name
      · cases hcheck

theorem InSync.forceHealthCheck (hsync : InSync host h.toDaemon) (hostGroup : HMString)
    (hostName : Option HMString) :
    InSync host (h.forceHealthCheck hostGroup hostName).toDaemon := by
  have hdraws := draws_forceHealthCheck h.current hostGroup hostName
  exact hsync.update hdraws.addresses rfl hdraws.listed fun k a _ => hdraws.held k a

/-- One step of the daemon without its health checks. -/
theorem InSync.daemonStep {e : Daemon.Event} (hsync : InSync host h.toDaemon)
    (hwithin : Within h (.daemon e)) (hstep : h.toDaemon.step e = some d') : InSync host d' := by
  cases e with
  | pop i =>
    obtain ⟨t, -, -, rfl⟩ := Daemon.step_pop hstep
    apply InSync.handleTimeout
    exact hsync.frame (fun _ => rfl) rfl rfl
  | processDNS i outcome =>
    obtain ⟨w, hw, rfl⟩ := Daemon.step_processDNS hstep
    exact InSync.processDNS (hsync.frame (fun _ => rfl) rfl rfl) (hwithin _ hw)
  | processRemote i outcome => cases hwithin
  | processRemoteHost i outcome => cases hwithin
  | forceDNSCheck hostGroup hostName =>
    obtain rfl := Option.some.inj hstep
    exact hsync.putDNS (DNSChain.queues_forceDNSCheck _ _ _)
  | reload settings hostGroups => cases hwithin
  | advance duration =>
    obtain rfl := Option.some.inj hstep
    exact hsync.frame (fun _ => rfl) rfl rfl

/-- One step. -/
theorem InSync.step {e : HealthDaemon.Event} (hsync : InSync host h.toDaemon) (hwithin : Within h e)
    (haux : AuxCurrent host h e) (hstep : h.step e = some h') : InSync host h'.toDaemon := by
  cases e with
  | daemon e =>
    obtain ⟨-, d', hd', rfl⟩ := HealthDaemon.step_daemon hstep
    exact hsync.daemonStep hwithin hd'
  | popHealth i =>
    obtain ⟨t, -, -, rfl⟩ := HealthDaemon.step_popHealth hstep
    apply InSync.handleHealthTimeout
    exact hsync
  | processHealth i report marks =>
    obtain ⟨w, hw, rfl⟩ := HealthDaemon.step_processHealth hstep
    apply InSync.processHealth
    · exact hsync.frame (fun _ => rfl) rfl rfl
    · exact haux _ hw
  | processMark i report =>
    obtain ⟨w, -, rfl⟩ := HealthDaemon.step_processMark hstep
    apply InSync.recordCheck
    exact hsync
  | forceHealthCheck hostGroup hostName =>
    obtain rfl := Option.some.inj hstep
    exact hsync.forceHealthCheck hostGroup hostName

/-- A step within the configuration does what is asked of it. -/
theorem staysInStep {e : HealthDaemon.Event} (hsync : InSync host h.toDaemon)
    (hwithin : Within h e) (haux : AuxCurrent host h e) : StaysInStep host h e := by
  intro h' hstep
  refine ⟨(hsync.step hwithin haux hstep).expiredApart, ?_⟩
  rintro i o w rfl hw hname
  simp only [HealthDaemon.step, HealthDaemon.isAllowed, if_true, Daemon.step, hw, Option.map_some]
    at hstep
  obtain rfl := Option.some.inj hstep
  exact refreshed_processDNS (hsync.frame (fun _ => rfl) rfl rfl) (hwithin _ hw) hname

end Steps

section Start

variable {host : HMString}

/-- The list of a new configuration has no results yet. -/
theorem unfilled_foldl_addHostGroup (groups : List (HMString × HMDataHostGroup)) :
    (groups.foldl (fun l e => HMDataCheckList.addHostGroup l e.2) .empty).guard = false ∧
      ∀ k, ∀ p ∈ (groups.foldl (fun l e => HMDataCheckList.addHostGroup l e.2)
        .empty).checklist.range k, p.checkData = ∅ := by
  refine List.foldlRecOn (motive := fun l : HMDataCheckList => l.guard = false ∧
    ∀ k, ∀ p ∈ l.checklist.range k, p.checkData = ∅) _ _
    ⟨rfl, fun _ _ hp => absurd hp List.not_mem_nil⟩ ?_
  intro l hl e _
  rw [HMDataCheckList.addHostGroup, if_neg (by simp [hl.1])]
  split
  · exact hl
  · refine ⟨hl.1, List.foldlRecOn (motive := fun m : SortedMultimap CheckListKey HMDataCheckParams =>
      ∀ k, ∀ p ∈ m.range k, p.checkData = ∅) _ _ hl.2 ?_⟩
    intro m hm name _ k p hp
    rw [HMDataCheckList.addHost] at hp
    split at hp
    · rw [SortedMultimap.range_modifyFirst] at hp
      split at hp
      · rcases SortedMultimap.mem_modifyFirstVal hp with hp | ⟨q, hq, -, rfl⟩
        · exact hm k p hp
        · exact hm k q hq
      · exact hm k p hp
    · rw [SortedMultimap.range_insert] at hp
      split at hp
      · rcases List.mem_append.mp hp with hp | hp
        · exact hm k p hp
        · rw [List.mem_singleton.mp hp]
          rfl
      · exact hm k p hp

/-- Every check of the list is on the wait list. -/
theorem mem_initWaitList_of_mem {l : HMDataCheckList} (hguard : l.guard = false)
    {e : CheckListKey × HMDataCheckParams} (he : e ∈ l.checklist.entries) :
    e.1.hostCheck ∈ l.initWaitList.range (e.1.hostname, e.1.hostCheck.dnsType.code) :=
  (HMDataCheckList.mem_range_initWaitList hguard).mpr ⟨e, he, rfl, rfl⟩

/-- The lookups of the host are made for no remote group if its checks have none. -/
theorem entries_generateCheckList (settings : Settings) (hostGroups : HMDataHostGroupMap)
    (hremote : ∀ k ∈ listed (generateCheckList settings hostGroups).checkList, k.hostname = host →
      k.hostCheck.remoteCheck = []) (k : DNSKey) (x : Addresses)
    (hx : addresses (generateCheckList settings hostGroups).dnsCache k = some x) :
    EntryOk host k x := by
  have hfresh := DNSChain.forall_generateCheckList (P := fun k r => (k.1 = host →
    k.2.remoteCheckGroup = []) ∧ r.addr = ∅ ∧ r.addrExp = ∅) settings hostGroups
    (fun _ _ _ _ hr => hr) (by
      intro k hk _ _
      refine ⟨fun hhost => ?_, rfl, rfl⟩
      rcases List.mem_flatMap.mp hk with ⟨header, hheader, hmem⟩
      rcases List.mem_map.mp hheader with ⟨entry, hentry, rfl⟩
      rcases List.mem_map.mp hmem with ⟨lookup, hlookup, rfl⟩
      rcases List.mem_map.mp hlookup with ⟨ipv6, -, rfl⟩
      exact hremote entry.1 (List.mem_map_of_mem hentry) hhost)
  rcases Option.map_eq_some_iff.mp hx with ⟨r, hr, rfl⟩
  rcases SortedMap.get?_eq_some.mp hr with ⟨k', hk', heqv⟩
  obtain ⟨hgroup, haddr, hexp⟩ := hfresh (k', r) hk'
  rcases DNSKey.eqv_iff.mp heqv with ⟨hname, -, hremote', -⟩
  refine ⟨?_, ?_, ?_⟩
  · rw [hexp]
    exact fun _ ha => absurd ha List.not_mem_nil
  · rw [haddr]
    exact fun _ ha => absurd ha List.not_mem_nil
  · intro hhost
    rw [← hremote']
    exact hgroup (hname.trans hhost)

theorem inSync_start (settings : Settings) (hostGroups : HMDataHostGroupMap)
    (hremote : ∀ k ∈ listed (generateCheckList settings hostGroups).checkList, k.hostname = host →
      k.hostCheck.remoteCheck = []) (now : HMTimeStamp) :
    InSync host (Daemon.start (generateCheckList settings hostGroups) now) := by
  obtain ⟨hguard, hunfilled⟩ := unfilled_foldl_addHostGroup
    (hostGroups.mapVals fun _ g => settings.prepare g).entries
  have hloaded : InSync host ⟨generateCheckList settings hostGroups, [], [], now⟩ := by
    refine ⟨entries_generateCheckList settings hostGroups hremote, ⟨?_, ?_⟩, ?_⟩
    · rintro k hk rfl
      rcases List.mem_map.mp hk with ⟨e, he, rfl⟩
      exact mem_initWaitList_of_mem hguard he
    · intro type check hcheck
      obtain ⟨htype, p, hp⟩ := DNSWaiters.mem_initWaitList hcheck
      exact ⟨htype, hremote ⟨host, check⟩ (List.mem_map_of_mem hp) rfl⟩
    · rintro k ipv6 a - ⟨p, hp, hvalid⟩
      rw [HMDataCheckParams.isValidIP, hunfilled k p hp] at hvalid
      cases hvalid
  exact hloaded.frame (addresses_queues (DNSChain.queues_queueDNSLookups _ true now)) rfl rfl

/-- In a run within one configuration the cache and the check list stay in step for a host
without remote groups, as long as no fetch of auxiliary data is repeated at an address that the
cache no longer holds. -/
theorem cache_and_checks_stay_in_step (settings : Settings) (hostGroups : HMDataHostGroupMap)
    (now : HMTimeStamp) (host : HMString)
    (hremote : ∀ k ∈ listed (generateCheckList settings hostGroups).checkList, k.hostname = host →
      k.hostCheck.remoteCheck = []) (es : List HealthDaemon.Event)
    (hwithin : Along HealthDaemon.step Within
      (.start (generateCheckList settings hostGroups) now) es)
    (haux : Along HealthDaemon.step (AuxCurrent host)
      (.start (generateCheckList settings hostGroups) now) es) :
    Along HealthDaemon.step (StaysInStep host)
      (.start (generateCheckList settings hostGroups) now) es := by
  have hsides := along_and hwithin haux
  have hsync : InSync host (HealthDaemon.start (generateCheckList settings hostGroups) now).toDaemon :=
    inSync_start settings hostGroups hremote now
  have hstay : ∀ {h : HealthDaemon} {e}, InSync host h.toDaemon →
      Within h e ∧ AuxCurrent host h e → (StaysInStep host h e ↔ True) :=
    fun hsync hside => iff_true_intro (staysInStep hsync hside.1 hside.2)
  have hall := (along_iff_along @hstay
    (fun hsync hside _ hstep => hsync.step hside.1 hside.2 hstep) hsync hsides).mpr
  exact hall (along_of_forall (fun _ _ => trivial) _ es)

end Start

section Samples

open DNSChain

instance (o : DnsOutcome) (v : Work) : Decidable (AnswersFamily o v) :=
  match v with
  | .dnsLookup w => inferInstanceAs (Decidable (∀ new ∈ o.answer, ∀ a ∈ new.toList,
      a.getType = HMDNSCache.familyType w.lookup.ipv6))
  | .healthCheck _ | .remoteCheck _ | .remoteHostCheck _ => inferInstanceAs (Decidable True)

instance (h : HealthDaemon) (e : HealthDaemon.Event) : Decidable (Within h e) :=
  match e with
  | .daemon (.reload _ _) | .daemon (.processRemote _ _) | .daemon (.processRemoteHost _ _) =>
    inferInstanceAs (Decidable False)
  | .daemon (.processDNS i o) =>
    inferInstanceAs (Decidable (∀ v ∈ h.works[i]?, AnswersFamily o v))
  | .daemon (.pop _) | .daemon (.forceDNSCheck _ _) | .daemon (.advance _) | .popHealth _
  | .processHealth _ _ _ | .processMark _ _ | .forceHealthCheck _ _ =>
    inferInstanceAs (Decidable True)

instance (host : HMString) (c : HMDNSCache) (v : Work) : Decidable (FetchCurrent host c v) :=
  match v with
  | .healthCheck w => inferInstanceAs (Decidable (w.hostname = host → w.reschedule = true →
      w.hostCheck.checkType.isAux = true → _))
  | .dnsLookup _ | .remoteCheck _ | .remoteHostCheck _ => inferInstanceAs (Decidable True)

instance (host : HMString) (h : HealthDaemon) (e : HealthDaemon.Event) :
    Decidable (AuxCurrent host h e) :=
  match e with
  | .processHealth i _ _ =>
    inferInstanceAs (Decidable (∀ v ∈ h.works[i]?, FetchCurrent host h.current.dnsCache v))
  | .daemon _ | .popHealth _ | .processMark _ _ | .forceHealthCheck _ _ =>
    inferInstanceAs (Decidable True)

/-- A group whose only host is asked for auxiliary data. -/
def auxGroups : HMDataHostGroupMap :=
  SortedMap.empty.insert (bytes "web")
    { HMDataHostGroup.new (bytes "web") with hosts := [bytes "a"], checkType := .auxHttp }

def auxStart : HealthDaemon := .start (generateCheckList .default auxGroups) 1000000

def fetched : CheckReport := ⟨.connected, .success, 1000000, 1000000, 80, 1000000, 1000000⟩

/-- The host is looked up, its data are fetched, and it is looked up again at a new address. -/
def auxRun : List HealthDaemon.Event :=
  [.daemon (.processDNS 0 (sampleOutcome (.v4 1))), .processHealth 0 fetched [],
    .forceHealthCheck (bytes "web") none, .daemon (.advance 30000), .daemon (.pop 0),
    .daemon (.processDNS 1 (sampleOutcome (.v4 2)))]

theorem auxRun_stays_in_step :
    (runTrace HealthDaemon.step auxStart auxRun).isSome = true ∧
    Along HealthDaemon.step (AuxCurrent (bytes "a")) auxStart auxRun ∧
    Along HealthDaemon.step (StaysInStep (bytes "a")) auxStart auxRun := by
  have haux : Along HealthDaemon.step (AuxCurrent (bytes "a")) auxStart auxRun := by
    decide +kernel
  refine ⟨by decide +kernel, haux, ?_⟩
  exact cache_and_checks_stay_in_step .default auxGroups 1000000 (bytes "a") (by decide +kernel)
    auxRun (by decide +kernel) haux

/-- A waiting check holds an address that the entry of its lookup does not. -/
def strays (d : Daemon) (w : DnsWork) (a : HMIPAddress) : Bool :=
  ((d.current.dnsWaitList.range (w.name, w.lookup.type.code)).any fun check =>
    check.dualstack.families.contains w.lookup.ipv6 &&
      (d.current.checkList.checklist.range ⟨w.name, check⟩).any fun p => p.isValidIP a) &&
  decide (a.getType = HMDNSCache.familyType w.lookup.ipv6) &&
  (d.current.dnsCache.cache.get? (w.name, w.lookup)).any fun r => !r.addr.contains a

theorem not_refreshed_of_strays {d : Daemon} {w : DnsWork} {a : HMIPAddress}
    (h : strays d w a = true) : ¬ Refreshed d w := by
  intro hrefreshed
  simp only [strays, Bool.and_eq_true, List.any_eq_true, Option.any_eq_true,
    decide_eq_true_eq] at h
  rcases h with ⟨⟨⟨check, hcheck, hfamily, p, hp, hvalid⟩, htype⟩, r, hr, hnot⟩
  have hmem := hrefreshed.current check hcheck hfamily r hr p hp a hvalid htype
  rw [SortedSet.contains_iff_mem.mpr hmem] at hnot
  cases hnot

/-- The old address is gone when the fetch at it ends and is queued again; the next lookup finds
it held. -/
def strayingRun : List HealthDaemon.Event :=
  [.daemon (.processDNS 0 (sampleOutcome (.v4 1))), .daemon (.advance 30000), .daemon (.pop 0),
    .daemon (.processDNS 1 (sampleOutcome (.v4 2))), .processHealth 0 fetched [],
    .daemon (.advance 30000), .daemon (.pop 0)]

/-- The last lookup queued for the host ends with the old address held. -/
def endsStraying (h : HealthDaemon) : Bool :=
  match (h.works[2]? : Option Work) with
  | some (.dnsLookup w) => w.name = bytes "a" &&
      (h.step (.daemon (.processDNS 2 (sampleOutcome (.v4 2))))).any fun h' =>
        strays h'.toDaemon w (.v4 1)
  | _ => false

theorem fetch_brings_old_address_back :
    Along HealthDaemon.step Within auxStart
      (strayingRun ++ [.daemon (.processDNS 2 (sampleOutcome (.v4 2)))]) ∧
    ¬ Along HealthDaemon.step (StaysInStep (bytes "a")) auxStart
      (strayingRun ++ [.daemon (.processDNS 2 (sampleOutcome (.v4 2)))]) := by
  refine ⟨by decide +kernel, ?_⟩
  intro halong
  have hstrays : (runTrace HealthDaemon.step auxStart strayingRun).any endsStraying = true := by
    decide +kernel
  rw [Option.any_eq_true] at hstrays
  rcases hstrays with ⟨h, hrun, hlast⟩
  rw [endsStraying] at hlast
  split at hlast
  · rename_i w hw
    rw [Bool.and_eq_true, decide_eq_true_eq, Option.any_eq_true] at hlast
    rcases hlast with ⟨hname, h', hstep, hstrays⟩
    have hstays := (along_append hrun halong).2.1 h' hstep
    exact not_refreshed_of_strays hstrays (hstays.2 2 _ w rfl hw hname)
  · cases hlast

end Samples

end AddressSync
