import NetCHASM.Daemon
import NetCHASM.ReloadDNS
import NetCHASM.Schedulers

/-! The checks that the end of a lookup touches. The wait list is ordered by host name and
DNS type alone, so a lookup made for one remote group also reaches the checks of the
others. -/
namespace DNSWaiters

open NetCHASM KeyOrder OrderedMap HMState

/-- The check of a host is one that the lookup was made for. -/
def IsWaiter (w : DnsWork) (hostname : HMString) (check : HMDataHostCheck) : Prop :=
  hostname = w.name ∧ check.dnsType = w.lookup.type ∧
    check.remoteCheck = w.lookup.remoteCheckGroup

instance (w : DnsWork) (hostname : HMString) (check : HMDataHostCheck) :
    Decidable (IsWaiter w hostname check) :=
  inferInstanceAs (Decidable (_ ∧ _ ∧ _))

/-- Between the two states the entries of other checks are unchanged, and health checks are
queued for the waiters of the lookup alone. -/
structure TouchesOnly (w : DnsWork) (d d' : Daemon) : Prop where
  entries : ∀ k : CheckListKey, ¬ IsWaiter w k.hostname k.hostCheck →
    d'.current.checkList.checklist.range k = d.current.checkList.checklist.range k
  queued : ∃ works, d'.works = d.works ++ works ∧
    ∀ v, Work.healthCheck v ∈ works → IsWaiter w v.hostname v.hostCheck

/-- A daemon that runs on a check list, with any results and any cache. -/
structure RunsOn (l : HMDataCheckList) (d : Daemon) : Prop where
  waitList : d.current.dnsWaitList = l.initWaitList
  checks : d.current.checkList.getAllChecks = l.getAllChecks

theorem mem_initWaitList {l : HMDataCheckList} {name : HMString} {type : DnsType}
    {check : HMDataHostCheck} (h : check ∈ l.initWaitList.range (name, type.code)) :
    check.dnsType = type ∧ ∃ p, (⟨name, check⟩, p) ∈ l.checklist.entries := by
  cases hguard : l.guard with
  | true =>
    rw [HMDataCheckList.initWaitList, if_pos hguard] at h
    cases h
  | false =>
    obtain ⟨e, he, hkey, rfl⟩ := (HMDataCheckList.mem_range_initWaitList hguard).mp h
    rcases Prod.mk.inj hkey with ⟨rfl, hcode⟩
    exact ⟨DnsType.code_inj.mp hcode, e.2, he⟩

variable {cache : HMDNSCache} {now : HMTimeStamp} {w : DnsWork} {report : CheckReport}
  {acc : HMDataCheckList × List HealthWork} {check : HMDataHostCheck}

/-- One waiting check: its entries alone change, and it alone is queued. -/
theorem kickHealthCheck_frame :
    (∀ k, eqv ⟨w.name, check⟩ k = false →
      (Daemon.kickHealthCheck cache now w report acc check).1.checklist.range k =
        acc.1.checklist.range k) ∧
    ∀ v ∈ (Daemon.kickHealthCheck cache now w report acc check).2,
      v ∈ acc.2 ∨ v.hostname = w.name ∧ v.hostCheck = check := by
  have hmodify : ∀ (l : HMDataCheckList) (f : HMDataCheckParams → HMDataCheckParams) k,
      eqv ⟨w.name, check⟩ k = false →
        (l.checklist.modify ⟨w.name, check⟩ f).range k = l.checklist.range k := by
    intro l f k hk
    rw [SortedMultimap.range_modify, hk]
    rfl
  rw [Daemon.kickHealthCheck]
  dsimp only
  split
  · refine List.foldlRecOn (motive := fun a : HMDataCheckList × List HealthWork =>
      (∀ k, eqv ⟨w.name, check⟩ k = false → a.1.checklist.range k = acc.1.checklist.range k) ∧
        ∀ v ∈ a.2, v ∈ acc.2 ∨ v.hostname = w.name ∧ v.hostCheck = check) _ _ ⟨?_, ?_⟩ ?_
    · intro k hk
      refine List.foldlRecOn (motive := fun l : HMDataCheckList =>
        l.checklist.range k = acc.1.checklist.range k) _ _ rfl ?_
      intro l hl ip _
      exact (hmodify l _ k hk).trans hl
    · exact fun v hv => Or.inl hv
    · intro a ha ip _
      split
      · split
        · exact ⟨fun k hk => (hmodify a.1 _ k hk).trans (ha.1 k hk), ha.2⟩
        · exact ha
      · split
        · refine ⟨fun k hk => (hmodify a.1 _ k hk).trans (ha.1 k hk), ?_⟩
          intro v hv
          rcases List.mem_append.mp hv with hv | hv
          · exact ha.2 v hv
          · simp only [HMDataCheckList.queueCheck] at hv
            split at hv
            · obtain rfl := List.mem_singleton.mp hv
              exact Or.inr ⟨rfl, rfl⟩
            · cases hv
        · exact ha
  · exact ⟨fun _ _ => rfl, fun v hv => Or.inl hv⟩

/-- A check without the family of the lookup is skipped. -/
theorem kickHealthCheck_of_other_family
    (h : check.dualstack.families.contains w.lookup.ipv6 = false) :
    Daemon.kickHealthCheck cache now w report acc check = acc := by
  simp only [Daemon.kickHealthCheck, h]
  rfl

theorem isWaiter_of_eqv {k : CheckListKey} (h : IsWaiter w w.name check)
    (hk : eqv ⟨w.name, check⟩ k = true) : IsWaiter w k.hostname k.hostCheck := by
  rcases CheckListKey.eqv_iff_fields.mp hk with ⟨hname, hcheck, htype⟩
  simp only [HMDataHostCheck.beq, Bool.and_eq_true, decide_eq_true_eq] at hcheck
  exact ⟨hname.symm, htype.symm.trans h.2.1, hcheck.1.1.1.1.2.symm.trans h.2.2⟩

/-- The loop over the wait list touches its own waiters, if no other check of the family is
listed with them. -/
theorem touches_kickHealthChecks (cache : HMDNSCache) (now : HMTimeStamp) (report : CheckReport)
    {checks : List HMDataHostCheck}
    (h : ∀ check ∈ checks, check.dualstack.families.contains w.lookup.ipv6 = true →
      IsWaiter w w.name check) (acc : HMDataCheckList × List HealthWork) :
    (∀ k : CheckListKey, ¬ IsWaiter w k.hostname k.hostCheck →
      (checks.foldl (Daemon.kickHealthCheck cache now w report) acc).1.checklist.range k =
        acc.1.checklist.range k) ∧
    ∀ v ∈ (checks.foldl (Daemon.kickHealthCheck cache now w report) acc).2,
      v ∈ acc.2 ∨ IsWaiter w v.hostname v.hostCheck := by
  refine List.foldlRecOn (motive := fun a : HMDataCheckList × List HealthWork =>
    (∀ k : CheckListKey, ¬ IsWaiter w k.hostname k.hostCheck →
      a.1.checklist.range k = acc.1.checklist.range k) ∧
    ∀ v ∈ a.2, v ∈ acc.2 ∨ IsWaiter w v.hostname v.hostCheck) _ _
    ⟨fun _ _ => rfl, fun v hv => Or.inl hv⟩ ?_
  intro a ha check hcheck
  cases hfamily : check.dualstack.families.contains w.lookup.ipv6 with
  | false =>
    rw [kickHealthCheck_of_other_family hfamily]
    exact ha
  | true =>
    have hwaiter := h check hcheck hfamily
    constructor
    · intro k hk
      rw [← ha.1 k hk]
      apply kickHealthCheck_frame.1
      cases heqv : eqv ⟨w.name, check⟩ k with
      | false => rfl
      | true => exact absurd (isWaiter_of_eqv hwaiter heqv) hk
    · intro v hv
      rcases kickHealthCheck_frame.2 v hv with hv | ⟨hname, hcheck⟩
      · exact ha.2 v hv
      · rw [hname, hcheck]
        exact Or.inr hwaiter

/-! The end of a lookup before it comes to the wait list. -/

variable {d : Daemon} {o : DnsOutcome}

/-- The daemon when a lookup has been recorded and scheduled again. -/
def afterLookup (d : Daemon) (w : DnsWork) (o : DnsOutcome) : Daemon :=
  (d.putDNS ((d.current.dnsCache.startDNSQuery w.name w.lookup d.now).dnsLookup w.name w.lookup
    o.answer o.success d.now, [])).rescheduleDNS w

theorem processDNS_eq : d.processDNS w o =
    if d.current.dnsCache.cache.contains (w.name, w.lookup) then
      (afterLookup d w o).kickHealthChecks w o.report
    else d := rfl

theorem rescheduleDNS_frame (d : Daemon) (w : DnsWork) :
    (d.rescheduleDNS w).current.checkList = d.current.checkList ∧
    (d.rescheduleDNS w).current.dnsWaitList = d.current.dnsWaitList ∧
    (d.rescheduleDNS w).now = d.now ∧
    ∃ works : List DnsWork, (d.rescheduleDNS w).works = d.works ++ works.map .dnsLookup := by
  unfold Daemon.rescheduleDNS
  dsimp only
  split
  · exact ⟨rfl, rfl, rfl, [], (List.append_nil _).symm⟩
  · split
    · exact ⟨rfl, rfl, rfl, _, rfl⟩
    · exact ⟨rfl, rfl, rfl, [], (List.append_nil _).symm⟩

theorem afterLookup_frame (d : Daemon) (w : DnsWork) (o : DnsOutcome) :
    (afterLookup d w o).current.checkList = d.current.checkList ∧
    (afterLookup d w o).current.dnsWaitList = d.current.dnsWaitList ∧
    (afterLookup d w o).now = d.now ∧
    ∃ works : List DnsWork, (afterLookup d w o).works = d.works ++ works.map .dnsLookup := by
  obtain ⟨hlist, hwait, hnow, works, hworks⟩ := rescheduleDNS_frame (d.putDNS
    ((d.current.dnsCache.startDNSQuery w.name w.lookup d.now).dnsLookup w.name w.lookup
      o.answer o.success d.now, [])) w
  refine ⟨hlist, hwait, hnow, works, hworks.trans ?_⟩
  rw [Daemon.putDNS, List.map_nil, List.append_nil]

theorem touchesOnly_processDNS
    (h : ∀ check ∈ d.current.dnsWaitList.range (w.name, w.lookup.type.code),
      check.dualstack.families.contains w.lookup.ipv6 = true → IsWaiter w w.name check) :
    TouchesOnly w d (d.processDNS w o) := by
  rw [processDNS_eq]
  split
  · obtain ⟨hlist, hwait, -, works, hworks⟩ := afterLookup_frame d w o
    rw [← hwait] at h
    obtain ⟨hentries, hqueued⟩ := touches_kickHealthChecks (afterLookup d w o).current.dnsCache
      (afterLookup d w o).now o.report h ((afterLookup d w o).current.checkList, [])
    constructor
    · intro k hk
      exact (hentries k hk).trans (by rw [hlist])
    · refine ⟨_, (List.append_assoc _ _ _ ▸ congrArg (· ++ _) hworks :), ?_⟩
      intro v hv
      rcases List.mem_append.mp hv with hv | hv
      · simp at hv
      · rcases List.mem_map.mp hv with ⟨v', hv', heq⟩
        obtain rfl := Work.healthCheck.inj heq
        exact (hqueued v' hv').resolve_left List.not_mem_nil
  · exact ⟨fun _ _ => rfl, [], (List.append_nil _).symm, fun v hv => absurd hv List.not_mem_nil⟩

/-! A lookup that finds one address, on a check list without results. -/

theorem nextCheckTime_le {l : HMDataCheckList} {hostname : HMString} {a : HMIPAddress}
    {p : HMDataCheckParams} (hp : p ∈ l.checklist.range ⟨hostname, check⟩)
    (hvalid : p.isValidIP a = false) : l.nextCheckTime hostname a check now ≤ now := by
  rw [HMDataCheckParams.isValidIP_eq, Option.isSome_eq_false_iff, Option.isNone_iff_eq_none,
    HMDataCheckParams.getCheckResult] at hvalid
  have hnow : p.nextCheckTime a now = now := by rw [HMDataCheckParams.nextCheckTime, hvalid]
  have hdue : p.nextCheckTime a now ≤ now := by grind
  exact HMDataCheckList.nextCheckTime_le_iff.mpr ⟨p, hp, hdue⟩

/-- Every entry of a check has a result for the address. -/
def HasAddress (l : HMDataCheckList) (k : CheckListKey) (a : HMIPAddress) : Prop :=
  ∀ p ∈ l.checklist.range k, p.isValidIP a = true

theorem HasAddress.queueCheck {l : HMDataCheckList} {k : CheckListKey} {a : HMIPAddress}
    (h : HasAddress l k a) (hostname : HMString) (a' : HMIPAddress) (check : HMDataHostCheck) :
    HasAddress (l.queueCheck hostname a' check).1 k a := by
  intro p hp
  simp only [HMDataCheckList.queueCheck, SortedMultimap.range_modify] at hp
  split at hp
  · rcases List.mem_map.mp hp with ⟨q, hq, rfl⟩
    rw [HMDataCheckParams.isValidIP_queueQuerry, h q hq, Bool.true_or]
  · exact h p hp

section Single

variable {a : HMIPAddress}
  (haddresses : (cache.getAddresses w.name (HMDNSCache.familyOnly w.lookup.ipv6)
    w.lookup).toList = [a])
  (hexpired : (cache.getExpiredAddresses w.name (HMDNSCache.familyOnly w.lookup.ipv6)
    w.lookup).toList = [])
  (hblank : a.isBlank = false)

include haddresses hexpired hblank

theorem kickHealthCheck_single : Daemon.kickHealthCheck cache now w report acc check =
    if check.dualstack.families.contains w.lookup.ipv6 then
      if acc.1.nextCheckTime w.name a check now ≤ now then
        ((acc.1.queueCheck w.name a check).1, acc.2 ++ (acc.1.queueCheck w.name a check).2)
      else acc
    else acc := by
  have hnot : ¬ (decide (a = .v4 0) || decide (a = .v6 0)) = true := by
    simpa [HMIPAddress.isBlank, HMIPAddress.ofType, afInet, afInet6] using hblank
  rw [Daemon.kickHealthCheck]
  simp only [haddresses, hexpired, List.foldl_cons, List.foldl_nil, if_neg hnot]

/-- A check of the family that the loop comes to gets a result for the address. -/
theorem hasAddress_kickHealthChecks {checks : List HMDataHostCheck} (hcheck : check ∈ checks)
    (hfamily : check.dualstack.families.contains w.lookup.ipv6 = true)
    (acc : HMDataCheckList × List HealthWork) :
    HasAddress (checks.foldl (Daemon.kickHealthCheck cache now w report) acc).1
      ⟨w.name, check⟩ a := by
  have hkeeps : ∀ (acc : HMDataCheckList × List HealthWork) (c : HMDataHostCheck),
      HasAddress acc.1 ⟨w.name, check⟩ a →
        HasAddress (Daemon.kickHealthCheck cache now w report acc c).1 ⟨w.name, check⟩ a := by
    intro acc c h
    rw [kickHealthCheck_single haddresses hexpired hblank]
    split
    · split
      · exact h.queueCheck w.name a c
      · exact h
    · exact h
  have hown : ∀ acc : HMDataCheckList × List HealthWork,
      HasAddress (Daemon.kickHealthCheck cache now w report acc check).1 ⟨w.name, check⟩ a := by
    intro acc
    rw [kickHealthCheck_single haddresses hexpired hblank, if_pos hfamily]
    by_cases hdue : acc.1.nextCheckTime w.name a check now ≤ now
    · rw [if_pos hdue]
      intro p hp
      simp only [HMDataCheckList.queueCheck, SortedMultimap.range_modify, eqv_refl, if_true] at hp
      rcases List.mem_map.mp hp with ⟨q, -, rfl⟩
      rw [HMDataCheckParams.isValidIP_queueQuerry, eqv_refl, Bool.or_true]
    · rw [if_neg hdue]
      intro p hp
      by_contra hvalid
      exact hdue (nextCheckTime_le hp (Bool.not_eq_true _ ▸ hvalid))
  exact Runs.foldl_of_mem (P := fun acc : HMDataCheckList × List HealthWork =>
    HasAddress acc.1 ⟨w.name, check⟩ a) hcheck hown (fun acc c _ h => hkeeps acc c h) acc

end Single

/-- A check list without its results. -/
def clearResults (l : HMDataCheckList) : HMDataCheckList :=
  { l with checklist := l.checklist.mapVals fun _ p => { p with checkData := ∅ } }

/-- A daemon on a check list without results that is about to make a lookup. -/
def probe (l : HMDataCheckList) (w : DnsWork) : Daemon where
  current :=
    { settings := .default
      hostGroups := ∅
      checkList := clearResults l
      dnsCache := ⟨SortedMap.empty.insert (w.name, w.lookup) .default, ∅⟩
      dnsWaitList := l.initWaitList
      remoteCache := ∅
      remoteHostCache := ∅ }
  works := []
  timeouts := []
  now := 0

def probeAddress (ipv6 : Bool) : HMIPAddress := if ipv6 then .v6 1 else .v4 1

/-- The lookup finds one address. -/
def probeOutcome (w : DnsWork) : DnsOutcome :=
  ⟨some (SortedMap.empty.insert (probeAddress w.lookup.ipv6) ()), true,
    ⟨.connected, .success, 0, 0, 0, 0, 0⟩⟩

theorem runsOn_probe (l : HMDataCheckList) (w : DnsWork) : RunsOn l (probe l w) where
  waitList := rfl
  checks := by
    simp only [probe, clearResults, HMDataCheckList.getAllChecks, SortedMultimap.mapVals,
      List.map_map]
    rfl

theorem collectAddresses_single {field : HMDNSResult → SortedSet HMIPAddress} {c : HMDNSCache}
    {r : HMDNSResult} (hr : c.cache.get? (w.name, w.lookup) = some r) :
    HMDNSCache.collectAddresses field c w.name (HMDNSCache.familyOnly w.lookup.ipv6) w.lookup =
      SortedSet.insertAll ∅ (field r).toList := by
  have hfamilies : ∀ ipv6, (HMDNSCache.familyOnly ipv6).families = [ipv6] := by decide
  have hkey : eqv (w.name, HMDNSLookup.new w.lookup.type w.lookup.ipv6 w.lookup.remoteCheckGroup)
      (w.name, w.lookup) = true := DNSKey.eqv_iff.mpr ⟨rfl, rfl, rfl, rfl⟩
  simp only [HMDNSCache.collectAddresses, HMDNSCache.familyLookups, hfamilies, List.map_cons,
    List.map_nil, List.foldl_cons, List.foldl_nil, HMDNSCache.getDNSResult,
    SortedMap.get?_congr _ hkey, hr]

/-- After the lookup of the probe the cache holds its address, and none is expired. -/
theorem entry_afterLookup_probe (l : HMDataCheckList) (w : DnsWork) :
    ∃ r, (afterLookup (probe l w) w (probeOutcome w)).current.dnsCache.cache.get?
        (w.name, w.lookup) = some r ∧
      r.addr = SortedMap.empty.insert (probeAddress w.lookup.ipv6) () ∧ r.addrExp = ∅ := by
  have hqueue : ∀ (c : HMDNSCache) (r : HMDNSResult), c.cache.get? (w.name, w.lookup) = some r →
      ∃ r', (c.queueDNSQuery w.name w.lookup).1.cache.get? (w.name, w.lookup) = some r' ∧
        r'.addr = r.addr ∧ r'.addrExp = r.addrExp := by
    intro c r hr
    rw [HMDNSCache.queueDNSQuery]
    split
    · exact ⟨r, hr, rfl, rfl⟩
    · split
      · exact ⟨r, hr, rfl, rfl⟩
      · rw [SortedMap.get?_modify, eqv_refl, if_pos rfl, hr]
        exact ⟨_, rfl, rfl, rfl⟩
  have hlookup : ((probe l w).current.dnsCache.startDNSQuery w.name w.lookup 0 |>.dnsLookup w.name
      w.lookup (probeOutcome w).answer true 0).cache.get? (w.name, w.lookup) =
      some ((((HMDNSResult.default.startQuery 0).updateQuery
        (SortedMap.empty.insert (probeAddress w.lookup.ipv6) ())).finishQuery true 0)) := by
    rw [HMDNSCache.dnsLookup_cache, SortedMap.get?_modify, HMDNSCache.startDNSQuery,
      SortedMap.get?_modify, eqv_refl]
    simp only [probe, SortedMap.get?_insert, eqv_refl]
    rfl
  unfold afterLookup Daemon.rescheduleDNS
  dsimp only
  split
  · exact ⟨_, hlookup, rfl, rfl⟩
  · split
    · obtain ⟨r, hr, haddr, hexp⟩ := hqueue _ _ hlookup
      exact ⟨r, hr, haddr, hexp⟩
    · exact ⟨_, hlookup, rfl, rfl⟩

theorem not_touchesOnly_probe {l : HMDataCheckList} {check : HMDataHostCheck}
    (hcheck : check ∈ l.initWaitList.range (w.name, w.lookup.type.code))
    (hfamily : check.dualstack.families.contains w.lookup.ipv6 = true)
    (hgroup : check.remoteCheck ≠ w.lookup.remoteCheckGroup) :
    ¬ TouchesOnly w (probe l w) ((probe l w).processDNS w (probeOutcome w)) := by
  intro htouches
  have hother : ¬ IsWaiter w w.name check := fun hwaiter => hgroup hwaiter.2.2
  have hcontains : (probe l w).current.dnsCache.cache.contains (w.name, w.lookup) = true := by
    simp [probe, SortedMap.contains_eq, SortedMap.get?_insert]
  have hsame := htouches.entries ⟨w.name, check⟩ hother
  rw [processDNS_eq, if_pos hcontains] at hsame
  obtain ⟨r, hr, haddr, hexp⟩ := entry_afterLookup_probe l w
  have haddresses : ((afterLookup (probe l w) w (probeOutcome w)).current.dnsCache.getAddresses
      w.name (HMDNSCache.familyOnly w.lookup.ipv6) w.lookup).toList =
        [probeAddress w.lookup.ipv6] := by
    rw [HMDNSCache.getAddresses, collectAddresses_single hr, haddr]
    cases w.lookup.ipv6 <;> rfl
  have hexpired : ((afterLookup (probe l w) w
      (probeOutcome w)).current.dnsCache.getExpiredAddresses w.name
        (HMDNSCache.familyOnly w.lookup.ipv6) w.lookup).toList = [] := by
    rw [HMDNSCache.getExpiredAddresses, collectAddresses_single hr, hexp]
    rfl
  have hblank : (probeAddress w.lookup.ipv6).isBlank = false := by
    cases w.lookup.ipv6 <;> decide
  obtain ⟨-, hwait, -, -⟩ := afterLookup_frame (probe l w) w (probeOutcome w)
  have hlisted : check ∈ (afterLookup (probe l w) w (probeOutcome w)).current.dnsWaitList.range
      (w.name, w.lookup.type.code) := hwait ▸ hcheck
  have hhas : HasAddress (clearResults l) ⟨w.name, check⟩ (probeAddress w.lookup.ipv6) := by
    intro p hp
    exact hasAddress_kickHealthChecks haddresses hexpired hblank hlisted hfamily _ p (hsame ▸ hp)
  -- the list without results has no result for the address
  obtain ⟨-, p, hp⟩ := mem_initWaitList hcheck
  have hmem : { p with checkData := ∅ } ∈ (clearResults l).checklist.range ⟨w.name, check⟩ := by
    refine List.mem_map.mpr ⟨(⟨w.name, check⟩, { p with checkData := ∅ }), ?_, rfl⟩
    exact List.mem_filter.mpr ⟨List.mem_map.mpr ⟨_, hp, rfl⟩, eqv_refl _⟩
  cases hhas _ hmem

/-- A lookup touches its own waiters alone, in every daemon on the check list, just when no
check of another remote group waits for the same host, DNS type and family. -/
theorem lookup_touches_only_waiters_iff (l : HMDataCheckList) (w : DnsWork) :
    (∀ d o, RunsOn l d → TouchesOnly w d (d.processDNS w o)) ↔
      ∀ check ∈ l.initWaitList.range (w.name, w.lookup.type.code),
        check.dualstack.families.contains w.lookup.ipv6 = true →
          check.remoteCheck = w.lookup.remoteCheckGroup := by
  constructor
  · intro hall check hcheck hfamily
    by_contra hgroup
    exact not_touchesOnly_probe hcheck hfamily hgroup (hall _ _ (runsOn_probe l w))
  · intro h d o hruns
    apply touchesOnly_processDNS
    rw [hruns.waitList]
    intro check hcheck hfamily
    exact ⟨rfl, (mem_initWaitList hcheck).1, h check hcheck hfamily⟩

/-- One host in two groups, one of which has its checks made by another daemon. -/
def sharedGroups : HMDataHostGroupMap :=
  (SortedMap.empty.insert (bytes "web")
    { HMDataHostGroup.new (bytes "web") with hosts := [bytes "a"] }).insert (bytes "remote")
    { HMDataHostGroup.new (bytes "remote") with
      hosts := [bytes "a"]
      remoteCheck := bytes "peers"
      flowType := .remoteHost }

def sharedStart : Daemon := Daemon.start (generateCheckList .default sharedGroups) 1000000

def sharedLookup : DnsWork := ⟨bytes "a", ⟨.lookup, false, [], .ares⟩, true⟩

/-- The host is looked up for the group without a remote group, and the check of the other
one is queued at the address found. -/
theorem shared_lookup_touches_other_group :
    Work.dnsLookup sharedLookup ∈ sharedStart.works ∧
    sharedStart.current.dnsWaitList =
      { sharedStart.current.checkList with guard := false }.initWaitList ∧
    ¬ TouchesOnly sharedLookup sharedStart
      (sharedStart.processDNS sharedLookup (probeOutcome sharedLookup)) := by
  refine ⟨by decide +kernel, by decide +kernel, ?_⟩
  intro htouches
  obtain ⟨works, hworks, hqueued⟩ := htouches.queued
  have hother : ((sharedStart.processDNS sharedLookup (probeOutcome sharedLookup)).works.drop
      sharedStart.works.length).any (fun v =>
        match v with
        | .healthCheck v => v.hostCheck.remoteCheck = bytes "peers"
        | _ => false) = true := by
    decide +kernel
  rw [hworks, List.drop_left] at hother
  rcases List.any_eq_true.mp hother with ⟨v, hv, hgroup⟩
  cases v with
  | healthCheck v =>
    have hnone : v.hostCheck.remoteCheck = [] := (hqueued v hv).2.2
    simp [hnone, bytes] at hgroup
  | dnsLookup v => cases hgroup
  | remoteCheck v => cases hgroup
  | remoteHostCheck v => cases hgroup

end DNSWaiters
