import NetCHASM.State

/-! Checks queued on request. A health check is marked as queued before its type and plugin
are looked at, and a lookup is queued only if the caller has set its plugin, which the
requests for blank addresses and for given addresses do not. -/
namespace NetCHASM

open KeyOrder OrderedMap

/-- The parameters hold an address whose check is in the queue. -/
def HMDataCheckParams.isQueuedAt (p : HMDataCheckParams) (address : HMIPAddress) : Bool :=
  (p.checkData.get? address).any fun r => r.queryState = .queued

theorem HMDataCheckParams.isQueuedAt_queueQuerry (p : HMDataCheckParams) (address : HMIPAddress) :
    (p.queueQuerry address).isQueuedAt address = true := by
  simp [isQueuedAt, queueQuerry, SortedMap.get?_modify, SortedMap.get?_insert]

/-- Queueing what is queued changes nothing. -/
theorem HMDataCheckParams.queueQuerry_of_isQueuedAt {p : HMDataCheckParams}
    {address : HMIPAddress} (h : p.isQueuedAt address = true) : p.queueQuerry address = p := by
  have hfound : p.checkData.find? address ≠ none := by
    intro hnone
    simp [isQueuedAt, SortedMap.get?, hnone] at h
  have hinsert : p.checkData.insert address (.new p.checkTimeout) = p.checkData := by
    simp [SortedMap.insert, hfound]
  have hmodify : p.checkData.modify address (fun r => { r with queryState := .queued }) =
      p.checkData := by
    apply SortedMap.ext
    refine (List.map_congr_left fun e he => ?_).trans (List.map_id _)
    by_cases hk : eqv e.1 address = true
    · have hget : p.checkData.get? address = some e.2 :=
        SortedMap.get?_eq_some.mpr ⟨e.1, he, hk⟩
      rw [isQueuedAt, hget, Option.any_some, decide_eq_true_eq] at h
      simp [hk, ← h]
    · simp [hk]
  rw [queueQuerry, hinsert, hmodify]

namespace HMDataCheckList

/-- A work for the check is queued and every set of its parameters is marked, or nothing
has changed. -/
def QueuesAllOrNothing (l : HMDataCheckList) (hostname : HMString) (ip : HMIPAddress)
    (check : HMDataHostCheck) : Prop :=
  let r := l.queueCheck hostname ip check
  ((∃ reschedule, r.2 = [⟨hostname, ip, check, reschedule⟩]) ∧
    ∀ p ∈ r.1.checklist.range ⟨hostname, check⟩, p.isQueuedAt ip = true) ∨
    (r.2 = [] ∧ r.1 = l)

theorem range_queueCheck (l : HMDataCheckList) (hostname : HMString) (ip : HMIPAddress)
    (check : HMDataHostCheck) :
    (l.queueCheck hostname ip check).1.checklist.range ⟨hostname, check⟩ =
      (l.checklist.range ⟨hostname, check⟩).map fun p => p.queueQuerry ip := by
  simp [queueCheck, SortedMultimap.range_modify]

theorem queueCheck_eq_self {l : HMDataCheckList} {hostname : HMString} {ip : HMIPAddress}
    {check : HMDataHostCheck}
    (h : ∀ p ∈ l.checklist.range ⟨hostname, check⟩, p.isQueuedAt ip = true) :
    (l.queueCheck hostname ip check).1 = l := by
  have hlist : l.checklist.modify ⟨hostname, check⟩ (fun p => p.queueQuerry ip) = l.checklist := by
    apply SortedMultimap.ext
    refine (List.map_congr_left fun e he => ?_).trans (List.map_id _)
    by_cases hk : eqv e.1 ⟨hostname, check⟩ = true
    · have hp : e.2 ∈ l.checklist.range ⟨hostname, check⟩ :=
        List.mem_map_of_mem (List.mem_filter.mpr ⟨he, hk⟩)
      simp [hk, HMDataCheckParams.queueQuerry_of_isQueuedAt (h e.2 hp)]
    · simp [hk]
  rw [queueCheck, hlist]

/-- Queueing is all or nothing exactly when the plugin fits the check type, or every set of
parameters had the address in the queue already. -/
theorem queueCheck_all_or_nothing_iff (l : HMDataCheckList) (hostname : HMString)
    (ip : HMIPAddress) (check : HMDataHostCheck) :
    l.QueuesAllOrNothing hostname ip check ↔
      check.checkType.runsOn check.checkPlugin = true ∨
        ∀ p ∈ l.checklist.range ⟨hostname, check⟩, p.isQueuedAt ip = true := by
  have hmarked : ∀ p ∈ (l.queueCheck hostname ip check).1.checklist.range ⟨hostname, check⟩,
      p.isQueuedAt ip = true := by
    intro p hp
    rw [range_queueCheck] at hp
    rcases List.mem_map.mp hp with ⟨q, -, rfl⟩
    exact q.isQueuedAt_queueQuerry ip
  by_cases hruns : check.checkType.runsOn check.checkPlugin = true
  · have hwork : (l.queueCheck hostname ip check).2 =
        [⟨hostname, ip, check, check.flowType = .dnsHealth⟩] := by
      simp [queueCheck, hruns]
    exact iff_of_true (Or.inl ⟨⟨_, hwork⟩, hmarked⟩) (Or.inl hruns)
  · have hnone : (l.queueCheck hostname ip check).2 = [] := by simp [queueCheck, hruns]
    constructor
    · rintro (⟨⟨reschedule, hwork⟩, -⟩ | ⟨-, hself⟩)
      · rw [hnone] at hwork
        cases hwork
      · rw [hself] at hmarked
        exact Or.inr hmarked
    · intro hqueued
      exact Or.inr ⟨hnone, queueCheck_eq_self (hqueued.resolve_left hruns)⟩

/-- A check of type HTTP with the plugin of TCP checks: no work is queued, and the address is
left behind as queued. -/
theorem mismatched_plugin_left_queued :
    let check := { HMDataHostCheck.default with checkType := .http, checkPlugin := .tcpRaw }
    let l : HMDataCheckList := ⟨SortedMultimap.empty.insert ⟨[104], check⟩
      (.ofParameters .default), false⟩
    ¬ l.QueuesAllOrNothing [104] (.v4 1) check ∧
      (l.queueCheck [104] (.v4 1) check).2 = [] ∧
      ((l.queueCheck [104] (.v4 1) check).1.checklist.range ⟨[104], check⟩).map
        (fun p => p.isQueuedAt (.v4 1)) = [true] := by
  intro check l
  refine ⟨?_, by decide, by decide⟩
  rintro (⟨⟨reschedule, hwork⟩, -⟩ | ⟨-, hself⟩)
  · exact absurd hwork (List.cons_ne_nil _ _).symm
  · exact absurd hself (by decide)

end HMDataCheckList

namespace HMState

/-- The addresses that the cache holds for a host under the check of a group. -/
def checkedAddresses (s : HMState) (g : HMDataHostGroup) (check : HMDataHostCheck)
    (host : HMString) : List HMIPAddress :=
  (s.dnsCache.getAddresses host check.dualstack (.new check.dnsType false g.remoteCheck)).toList

/-- The lookups that are to be forced: one for each blank address, of its family. -/
def expectedLookups (s : HMState) (g : HMDataHostGroup) (check : HMDataHostCheck)
    (hosts : List HMString) : List DNSKey :=
  hosts.flatMap fun host => ((s.checkedAddresses g check host).filter fun a => a.isBlank).map
    fun a => (host, .new check.dnsType (a == .ofType afInet6) g.remoteCheck)

/-- The health checks that are to be forced: one for each resolved address. -/
def expectedChecks (s : HMState) (g : HMDataHostGroup) (check : HMDataHostCheck)
    (hosts : List HMString) : List HealthWork :=
  hosts.flatMap fun host => ((s.checkedAddresses g check host).filter fun a => !a.isBlank).map
    fun a => ⟨host, a, check, check.flowType = .dnsHealth⟩

/-- The lookup of a queued work, without its plugin. -/
def lookupOf (w : DnsWork) : DNSKey :=
  (w.name, .new w.lookup.type w.lookup.ipv6 w.lookup.remoteCheckGroup)

theorem queueDNSQuery_new (c : HMDNSCache) (name : HMString) (type : DnsType) (ipv6 : Bool)
    (group : HMString) : c.queueDNSQuery name (.new type ipv6 group) = (c, []) := by
  rw [HMDNSCache.queueDNSQuery]
  split
  · rfl
  · rfl

section Forced

variable (g : HMDataHostGroup) (check : HMDataHostCheck)

/-- The works for the addresses of one host: nothing at a blank one, a health check at any
other if the plugin fits. -/
theorem foldl_forceAddress (host : HMString) (addresses : List HMIPAddress)
    (acc : HMState × List DnsWork × List HealthWork) :
    let r := addresses.foldl (forceAddress g check host) acc
    r.1.dnsCache = acc.1.dnsCache ∧ r.2.1 = acc.2.1 ∧
      r.2.2 = acc.2.2 ++ if check.checkType.runsOn check.checkPlugin then
        (addresses.filter fun a => !a.isBlank).map fun a =>
          ⟨host, a, check, check.flowType = .dnsHealth⟩
        else [] := by
  induction addresses generalizing acc with
  | nil => simp
  | cons a addresses ih =>
    obtain ⟨hcache, hdns, hhealth⟩ := ih (forceAddress g check host acc a)
    rw [List.foldl_cons]
    by_cases hblank : a.isBlank = true
    · have hstep : (forceAddress g check host acc a).1.dnsCache = acc.1.dnsCache ∧
          (forceAddress g check host acc a).2 = acc.2 := by
        simp [forceAddress, hblank, queueDNSQuery_new]
      rw [hstep.1] at hcache
      rw [hstep.2] at hdns hhealth
      refine ⟨hcache, hdns, ?_⟩
      rw [hhealth, List.filter_cons]
      simp [hblank]
    · have hstep : (forceAddress g check host acc a).1.dnsCache = acc.1.dnsCache ∧
          (forceAddress g check host acc a).2.1 = acc.2.1 ∧
          (forceAddress g check host acc a).2.2 = acc.2.2 ++
            if check.checkType.runsOn check.checkPlugin then
              [⟨host, a, check, check.flowType = .dnsHealth⟩] else [] := by
        simp [forceAddress, hblank, HMDataCheckList.queueCheck]
      rw [hstep.1] at hcache
      rw [hstep.2.1] at hdns
      rw [hstep.2.2] at hhealth
      refine ⟨hcache, hdns, ?_⟩
      rw [hhealth, List.filter_cons]
      by_cases hruns : check.checkType.runsOn check.checkPlugin = true
      · simp [hblank, hruns]
      · simp [hruns]

theorem foldl_forceHost (hosts : List HMString)
    (acc : HMState × List DnsWork × List HealthWork) :
    let r := hosts.foldl (forceHost g check) acc
    r.1.dnsCache = acc.1.dnsCache ∧ r.2.1 = acc.2.1 ∧
      r.2.2 = acc.2.2 ++ if check.checkType.runsOn check.checkPlugin then
        acc.1.expectedChecks g check hosts else [] := by
  induction hosts generalizing acc with
  | nil => simp [expectedChecks]
  | cons host hosts ih =>
    obtain ⟨hcache, hdns, hhealth⟩ := ih (forceHost g check acc host)
    obtain ⟨hcache', hdns', hhealth'⟩ := foldl_forceAddress g check host
      (acc.1.checkedAddresses g check host) acc
    rw [List.foldl_cons]
    refine ⟨hcache.trans hcache', hdns.trans hdns', hhealth.trans ?_⟩
    -- the addresses are read from a cache that the hosts before have left as it was
    have hrest : (forceHost g check acc host).1.expectedChecks g check hosts =
        acc.1.expectedChecks g check hosts := by
      simp only [expectedChecks, checkedAddresses]
      rw [show (forceHost g check acc host).1.dnsCache = acc.1.dnsCache from hcache']
    have hfirst : (forceHost g check acc host).2.2 = acc.2.2 ++
        if check.checkType.runsOn check.checkPlugin then
          acc.1.expectedChecks g check [host] else [] := by
      rw [expectedChecks, List.flatMap_singleton]
      exact hhealth'
    rw [hrest, hfirst, List.append_assoc]
    by_cases hruns : check.checkType.runsOn check.checkPlugin = true
    · simp [hruns, expectedChecks]
    · simp [hruns]

/-- All the addresses are resolved, and the plugin fits the check type if there are any. -/
def CanForce (s : HMState) (hosts : List HMString) : Prop :=
  (∀ host ∈ hosts, ∀ a ∈ s.checkedAddresses g check host, a.isBlank = false) ∧
    (check.checkType.runsOn check.checkPlugin = true ∨
      ∀ host ∈ hosts, s.checkedAddresses g check host = [])

theorem expected_iff (s : HMState) (hosts : List HMString) :
    (s.expectedLookups g check hosts = [] ∧
      (if check.checkType.runsOn check.checkPlugin then s.expectedChecks g check hosts else []) =
        s.expectedChecks g check hosts) ↔ s.CanForce g check hosts := by
  have hlookups : s.expectedLookups g check hosts = [] ↔
      ∀ host ∈ hosts, ∀ a ∈ s.checkedAddresses g check host, a.isBlank = false := by
    simp [expectedLookups, List.filter_eq_nil_iff]
  rw [CanForce, hlookups]
  refine and_congr_right fun hresolved => ?_
  by_cases hruns : check.checkType.runsOn check.checkPlugin = true
  · simp [hruns]
  · rw [if_neg hruns, or_iff_right hruns]
    constructor
    · intro hnone host hhost
      rw [eq_comm, expectedChecks, List.flatMap_eq_nil_iff] at hnone
      have hempty := hnone host hhost
      rw [List.map_eq_nil_iff, List.filter_eq_nil_iff] at hempty
      rw [List.eq_nil_iff_forall_not_mem]
      intro a ha
      exact absurd (hresolved host hhost a ha) (by simpa using hempty a ha)
    · intro hempty
      rw [eq_comm, expectedChecks, List.flatMap_eq_nil_iff]
      intro host hhost
      rw [hempty host hhost]
      rfl

end Forced

/-- Force the lookups of a host for the families of some addresses. The lookup is built
without a remote group and without a plugin. -/
def forceDNSCheckAddresses (s : HMState) (hostName : HMString) (dnsType : DnsType)
    (addresses : SortedSet HMIPAddress) : HMState × List DnsWork :=
  [false, true].foldl (fun acc ipv6 =>
    let lookup : HMDNSLookup := .new dnsType ipv6 []
    if (addresses.toList.any fun a => a.getType == HMDNSCache.familyType ipv6) &&
        (acc.1.dnsCache.getDNSResult hostName lookup).isSome then
      let r := acc.1.dnsCache.queueDNSQuery hostName lookup
      ({ acc.1 with dnsCache := r.1 }, acc.2 ++ r.2)
    else acc) (s, [])

/-- The families of some addresses for which a host has an entry without a remote group. -/
def familiesToForce (s : HMState) (hostName : HMString) (dnsType : DnsType)
    (addresses : SortedSet HMIPAddress) : List Bool :=
  [false, true].filter fun ipv6 =>
    (addresses.toList.any fun a => a.getType == HMDNSCache.familyType ipv6) &&
      (s.dnsCache.getDNSResult hostName (.new dnsType ipv6 [])).isSome

theorem forceDNSCheckAddresses_eq (s : HMState) (hostName : HMString) (dnsType : DnsType)
    (addresses : SortedSet HMIPAddress) :
    s.forceDNSCheckAddresses hostName dnsType addresses = (s, []) := by
  simp [forceDNSCheckAddresses, queueDNSQuery_new]

/-- A forced health check queues one work for each address exactly when no address is blank
and the plugin fits; lookups forced for given addresses are queued exactly when there are
none to queue. -/
theorem forced_checks_queued_iff (s : HMState) (hostGroup : HMString) (hostName : Option HMString)
    (g : HMDataHostGroup) (check : HMDataHostCheck) (hg : s.hostGroups.get? hostGroup = some g)
    (hcheck : g.getHostCheck = some check) (host : HMString) (dnsType : DnsType)
    (addresses : SortedSet HMIPAddress) :
    (let hosts := hostName.elim g.hosts fun host => [host]
     let r := s.forceHealthCheck hostGroup hostName
     (r.2.1.map lookupOf = s.expectedLookups g check hosts ∧
      r.2.2 = s.expectedChecks g check hosts) ↔ s.CanForce g check hosts) ∧
    ((s.forceDNSCheckAddresses host dnsType addresses).2.map lookupOf =
      ((s.familiesToForce host dnsType addresses).map fun ipv6 => (host, .new dnsType ipv6 [])) ↔
      s.familiesToForce host dnsType addresses = []) := by
  constructor
  · intro hosts r
    obtain ⟨-, hdns, hhealth⟩ := foldl_forceHost g check hosts (s, [], [])
    have hr : r = hosts.foldl (forceHost g check) (s, [], []) := by
      simp only [r, forceHealthCheck, hg, hcheck]
      rfl
    rw [hr, hdns, hhealth, List.map_nil, List.nil_append, ← expected_iff, eq_comm]
  · rw [forceDNSCheckAddresses_eq, List.map_nil, eq_comm, List.map_eq_nil_iff]

/-- A group with one host that is checked by HTTP under both families. -/
def dualGroup : HMDataHostGroup :=
  { HMDataHostGroup.new [103] with
    checkType := .http
    dualstack := .both
    hosts := [[104]] }

/-- The state for that group, whose host resolves to the given addresses of IPv4. -/
def resolvedState (addresses : List HMIPAddress) : HMState :=
  let s := generateCheckList .default (SortedMap.empty.insert [103] dualGroup)
  { s with
    dnsCache := s.dnsCache.updateDNSEntry [104] (.new .lookup false [])
      (SortedSet.insertAll ∅ addresses) }

theorem forced_checks_of_resolved_host :
    let s := resolvedState [.v4 1, .v4 2]
    let g := Settings.default.prepare dualGroup
    (s.forceHealthCheck [103] none).2.2 = s.expectedChecks g g.toHMDataHostCheck [[104]] ∧
      (s.forceDNSCheckAddresses [104] .static (SortedSet.insertAll ∅ [.v4 1])).2 = [] := by
  intro s g
  obtain ⟨hhealth, hdns⟩ := forced_checks_queued_iff s [103] none g g.toHMDataHostCheck (by decide)
    (by decide) [104] .static (SortedSet.insertAll ∅ [.v4 1])
  exact ⟨(hhealth.mpr ⟨by decide, by decide⟩).2, List.map_eq_nil_iff.mp (hdns.mpr (by decide))⟩

/-- A host that is not resolved: forcing its health check queues nothing, and neither does
forcing its lookup for an address of the family that has an entry. -/
theorem forced_lookups_lost :
    let s := resolvedState [.v4 0]
    let g := Settings.default.prepare dualGroup
    s.expectedLookups g g.toHMDataHostCheck [[104]] = [([104], .new .lookup false [])] ∧
      (s.forceHealthCheck [103] none).2 = ([], []) ∧
      s.familiesToForce [104] .lookup (SortedSet.insertAll ∅ [.v4 1]) = [false] ∧
      (s.forceDNSCheckAddresses [104] .lookup (SortedSet.insertAll ∅ [.v4 1])).2 = [] := by
  decide

end HMState

end NetCHASM
