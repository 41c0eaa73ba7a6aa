import NetCHASM.DNSChain
import NetCHASM.ReloadDNS

/-! The lookups over whole runs. The start queues or arms every entry; a reload queues what
is due and what has a longer time to live, and leaves the rest to the works and timeouts
that are there. -/
namespace DNSChain

open NetCHASM OrderedMap KeyOrder Runs PendingWork HMState ReloadDNS

variable {c c' : HMDNSCache} {works : List DnsWork} {d d' : Daemon} {k : DNSKey}
  {e e' : DNSKey × HMDNSResult}

/-! The reload. -/

section Reschedule

variable {s src : HMState}

/-- One lookup of the rescheduling loop. -/
def rescheduleOne (src : HMState) (acc : HMDNSCache × List DnsWork) (l : DNSKey) :
    HMDNSCache × List DnsWork :=
  match src.dnsCache.getDNSResult l.1 l.2, acc.1.getDNSResult l.1 l.2 with
  | some old, some new =>
    if old.dnsTimeout < new.dnsTimeout then
      ((acc.1.queueDNSQuery l.1 l.2).1, acc.2 ++ (acc.1.queueDNSQuery l.1 l.2).2)
    else acc
  | _, _ => acc

/-- The lookups of the checks of a state. -/
def configured (s : HMState) : List DNSKey :=
  s.checkList.getAllChecks.flatMap fun h => (s.checkLookups h.hostCheck).map fun l => (h.hostname, l)

theorem resheduleDNSChecks_eq (s src : HMState) : s.resheduleDNSChecks src =
    ({ s with dnsCache := ((configured s).foldl (rescheduleOne src) (s.dnsCache, [])).1 },
      ((configured s).foldl (rescheduleOne src) (s.dnsCache, [])).2) := rfl

theorem queues_rescheduleOne (src : HMState) (acc : HMDNSCache × List DnsWork) (l : DNSKey) :
    ∃ works, (rescheduleOne src acc l).2 = acc.2 ++ works ∧
      Queues acc.1 (rescheduleOne src acc l).1 works := by
  have hsame : ∃ works, acc.2 = acc.2 ++ works ∧ Queues acc.1 acc.1 works :=
    ⟨[], (List.append_nil _).symm, Queues.refl _⟩
  unfold rescheduleOne
  split
  · split
    · exact ⟨_, rfl, queues_queueDNSQuery _ _ _⟩
    · exact hsame
  · exact hsame

theorem queues_resheduleDNSChecks (s src : HMState) :
    Queues s.dnsCache (s.resheduleDNSChecks src).1.dnsCache (s.resheduleDNSChecks src).2 := by
  obtain ⟨works, hworks, hqueues⟩ :=
    queues_fold (queues_rescheduleOne src) (configured s) (s.dnsCache, [])
  rw [List.nil_append] at hworks
  rw [resheduleDNSChecks_eq, hworks]
  exact hqueues

/-- A configured lookup whose time to live has grown is queued. -/
theorem mem_resheduleDNSChecks {l : DNSKey} {e : DNSKey × HMDNSResult} {old : HMDNSResult}
    (hl : l ∈ configured s) (hplugin : l.2.plugin ≠ .none) (he : s.dnsCache.cache.find? l = some e)
    (hold : src.dnsCache.cache.get? l = some old) (hlt : old.dnsTimeout < e.2.dnsTimeout) :
    ∃ w ∈ (s.resheduleDNSChecks src).2, (w.name, w.lookup) = e.1 := by
  obtain ⟨before, after, hsplit⟩ := List.append_of_mem hl
  rw [resheduleDNSChecks_eq, hsplit, List.foldl_append, List.foldl_cons]
  obtain ⟨works, -, hqueues⟩ := queues_fold (queues_rescheduleOne src) before (s.dnsCache, [])
  generalize before.foldl (rescheduleOne src) (s.dnsCache, []) = acc at hqueues
  -- Earlier lookups of the loop leave the key and the time to live of the entry.
  obtain ⟨e₁, he₁⟩ := hqueues.keeps he
  obtain ⟨e₀, he₀, hkey, hvalue⟩ := hqueues.entry he₁
  obtain rfl := Option.some.inj (he.symm.trans he₀)
  have httl : e₁.2.dnsTimeout = e.2.dnsTimeout := by
    rcases hvalue with hsame | ⟨hqueued, -⟩
    · rw [hsame]
    · rw [hqueued]
      rfl
  have hget : acc.1.getDNSResult l.1 l.2 = some e₁.2 := by
    simp [HMDNSCache.getDNSResult, SortedMap.get?, he₁]
  have hstep : rescheduleOne src acc l =
      ((acc.1.queueDNSQuery l.1 l.2).1, acc.2 ++ (acc.1.queueDNSQuery l.1 l.2).2) := by
    have hold' : src.dnsCache.getDNSResult l.1 l.2 = some old := hold
    simp [rescheduleOne, hold', hget, httl, hlt]
  obtain ⟨w, hw, hwkey⟩ := mem_queueDNSQuery he₁ hplugin
  obtain ⟨works', hworks', -⟩ := queues_fold (queues_rescheduleOne src) after
    (rescheduleOne src acc l)
  refine ⟨w, ?_, hwkey.trans hkey⟩
  rw [hworks', hstep]
  exact List.mem_append_left _ (List.mem_append_right _ hw)

end Reschedule

/-- The entries of a fresh cache: of configured lookups, idle and never looked up. -/
def FreshFor (keys : List DNSKey) (c : HMDNSCache) : Prop :=
  ∀ e ∈ c.cache.entries, e.1 ∈ keys ∧ e.2.queryState = .inactive ∧ e.2.resultTime = 0

theorem forall_insertDNSEntry {P : DNSKey → HMDNSResult → Prop}
    (hupdate : ∀ k r ttl timeout, P k r → P k (r.updateTimeouts ttl timeout))
    (h : ∀ e ∈ c.cache.entries, P e.1 e.2) {name : HMString} {lookup : HMDNSLookup}
    (hnew : ∀ ttl timeout, P (name, lookup) (.new ttl timeout)) (ttl timeout : UInt64) :
    ∀ e ∈ (c.insertDNSEntry name lookup ttl timeout).cache.entries, P e.1 e.2 := by
  unfold HMDNSCache.insertDNSEntry
  dsimp only
  split
  · intro e he
    rcases List.mem_map.mp he with ⟨e', he', rfl⟩
    dsimp only
    split
    · exact hupdate _ _ _ _ (h e' he')
    · exact h e' he'
  · rename_i hmissing
    intro e he
    have hnone : c.cache.find? (name, lookup) = none := by
      simpa [SortedMap.contains] using hmissing
    simp only [SortedMap.insert, hnone, dif_pos] at he
    rcases mem_insertUpper.mp he with rfl | he
    · exact hnew _ _
    · exact h e he

/-- What a new entry has and its timeouts do not touch holds of a fresh cache. -/
theorem forall_generateCheckList {P : DNSKey → HMDNSResult → Prop} (settings : Settings)
    (hostGroups : HMDataHostGroupMap)
    (hupdate : ∀ k r ttl timeout, P k r → P k (r.updateTimeouts ttl timeout))
    (hnew : ∀ k ∈ configured (generateCheckList settings hostGroups), ∀ ttl timeout,
      P k (.new ttl timeout)) :
    ∀ e ∈ (generateCheckList settings hostGroups).dnsCache.cache.entries, P e.1 e.2 := by
  obtain ⟨l, hchecks, hdns⟩ : ∃ l : HMDataCheckList,
      (generateCheckList settings hostGroups).checkList.getAllChecks = l.getAllChecks ∧
      (generateCheckList settings hostGroups).dnsCache =
        l.initDNSCache .empty settings.getDNSPlugin :=
    ⟨(hostGroups.mapVals fun _ g => settings.prepare g).entries.foldl
      (fun l e => HMDataCheckList.addHostGroup l e.2) .empty, rfl, rfl⟩
  have hempty : ∀ e ∈ HMDNSCache.empty.cache.entries, P e.1 e.2 :=
    fun e he => absurd he List.not_mem_nil
  rw [hdns]
  unfold HMDataCheckList.initDNSCache
  split
  · exact hempty
  · refine List.foldlRecOn (motive := fun c : HMDNSCache => ∀ e ∈ c.cache.entries, P e.1 e.2) _ _
      hempty ?_
    intro c hc e he
    refine List.foldlRecOn (motive := fun c : HMDNSCache => ∀ e ∈ c.cache.entries, P e.1 e.2) _ _
      hc ?_
    intro c hc ipv6 hipv6
    apply forall_insertDNSEntry hupdate hc
    apply hnew
    rw [configured, hchecks, List.mem_flatMap]
    exact ⟨_, List.mem_map_of_mem he, List.mem_map_of_mem (List.mem_map_of_mem hipv6)⟩

theorem freshFor_generateCheckList (settings : Settings) (hostGroups : HMDataHostGroupMap) :
    FreshFor (configured (generateCheckList settings hostGroups))
      (generateCheckList settings hostGroups).dnsCache :=
  forall_generateCheckList
    (P := fun k r => k ∈ configured (generateCheckList settings hostGroups) ∧
      r.queryState = .inactive ∧ r.resultTime = 0)
    settings hostGroups (fun _ _ _ _ h => h) fun _ hk _ _ => ⟨hk, rfl, rfl⟩

/-- The result time of an entry after a restore. -/
def restoredTime (src : HMState) (e : DNSKey × HMDNSResult) : HMTimeStamp :=
  if carries src e.1 then offeredTime src.dnsCache e.1 else e.2.resultTime

theorem restoredTime_congr {src : HMState} {e e' : DNSKey × HMDNSResult} (hkey : e'.1 = e.1)
    (htime : e'.2.resultTime = e.2.resultTime) : restoredTime src e' = restoredTime src e := by
  rw [restoredTime, hkey, htime, restoredTime]

theorem carries_congr (src : HMState) {k k' : DNSKey} (hk : eqv k k' = true) :
    carries src k = carries src k' ∧ offeredTime src.dnsCache k = offeredTime src.dnsCache k' := by
  rcases DNSKey.eqv_iff.mp hk with ⟨h₁, h₂, h₃, h₄⟩
  have huses : ∀ h, usesKey h k = usesKey h k' := by
    intro h
    simp only [usesKey, h₁, h₂, h₃]
  have hoffered : offered src.dnsCache k = offered src.dnsCache k' := by
    simp only [offered, h₁, h₂, h₃, h₄]
  exact ⟨by simp only [carries, huses, hoffered],
    by rw [offeredTime, SortedMap.get?_congr _ hk, offeredTime]⟩

/-- An entry with a plugin was there before a restore, which changes its addresses and its
result time alone. -/
theorem entry_before_restore {src dest : HMState}
    (he' : (dest.restoreRunningCheckState src).dnsCache.cache.find? k = some e')
    (hplugin : e'.1.2.plugin ≠ .none) :
    ∃ e, dest.dnsCache.cache.find? k = some e ∧ e'.1 = e.1 ∧
      e'.2.queryState = e.2.queryState ∧ e'.2.dnsTimeout = e.2.dnsTimeout ∧
      e'.2.resultTime = restoredTime src e := by
  have hfind := find?_restore src dest k
  rw [he', Option.map_some] at hfind
  cases hbefore : dest.dnsCache.cache.find? k with
  | none =>
    rw [hbefore] at hfind
    split at hfind
    · have hkey := congrArg Prod.fst (Option.some.inj hfind)
      have hkey' : e'.1 = (freshEntry k).1 := hkey
      rw [hkey'] at hplugin
      exact absurd rfl hplugin
    · cases hfind
  | some e =>
    rw [hbefore] at hfind
    obtain ⟨hcarries, htime⟩ := carries_congr src (SortedMap.find?_eqv hbefore)
    refine ⟨e, rfl, ?_⟩
    simp only [restoredTime, hcarries, htime]
    split at hfind
    · rename_i hc
      simp only [core, reloaded, Option.getD_some, Option.some.injEq, Prod.mk.injEq,
        HMDNSResult.mk.injEq] at hfind
      rcases hfind with ⟨hkey, hstate, -, hresult, -, httl, -⟩
      exact ⟨hkey, hstate, httl, by rw [if_pos hc]; exact hresult⟩
    · rename_i hc
      simp only [core, Option.map_some, Option.some.injEq, Prod.mk.injEq,
        HMDNSResult.mk.injEq] at hfind
      rcases hfind with ⟨hkey, hstate, -, hresult, -, httl, -⟩
      exact ⟨hkey, hstate, httl, by rw [if_neg hc]; exact hresult⟩

/-- The time at which a reloaded entry is due. -/
def reloadedDue (src : HMState) (e : DNSKey × HMDNSResult) : HMTimeStamp :=
  (restoredTime src e).plus e.2.dnsTimeout

instance (k : DNSKey) (w : Work) : Decidable (IsLookup k w) :=
  match w with
  | .dnsLookup w => inferInstanceAs (Decidable (eqv (w.name, w.lookup) k = true ∧ _))
  | .healthCheck _ | .remoteCheck _ | .remoteHostCheck _ => isFalse id

/-- What keeps a fresh entry going across a reload: a longer time to live, a due time that
is past or more than a day off, a queued lookup, or an entry that was kept before and due no
earlier. -/
def survivesReload (d : Daemon) (e : DNSKey × HMDNSResult) : Bool :=
  ((d.current.dnsCache.cache.get? e.1).any fun o => o.dnsTimeout < e.2.dnsTimeout) ||
  decide (QueuedAt d.now (reloadedDue d.current e)) ||
  (d.works.any fun w => IsLookup e.1 w) ||
  (d.current.dnsCache.cache.find? e.1).any fun o =>
    enabled o.1 && decide (reloadedDue d.current e ≤ dueTime o.2)

theorem isLookupQueued_of_due {now : HMTimeStamp} (henabled : enabled e.1 = true)
    (hidle : e.2.queryState.isIdle = true) (hdue : QueuedAt now (dueTime e.2)) :
    HMDNSCache.isLookupQueued now e.1 e.2 = true := by
  rcases (Bool.and_eq_true _ _).mp henabled with ⟨hgroup, hplugin⟩
  have hstate : scheduleState (some (e.2.queryState, e.2.nextQueryTime now)) now = .event ∨
      scheduleState (some (e.2.queryState, e.2.nextQueryTime now)) now = .work :=
    scheduleState_of_queuedAt hidle hdue
  simp only [HMDNSCache.isLookupQueued, hgroup, hplugin]
  rcases hstate with h | h
  · simp [h]
  · simp [h]

section Swap

variable {src new : HMState}

/-- The entries that the rescheduling loop queues. -/
def Longer (src : HMState) (keys : List DNSKey) (e : DNSKey × HMDNSResult) : Prop :=
  e.1 ∈ keys ∧ ∃ o, src.dnsCache.cache.get? e.1 = some o ∧ o.dnsTimeout < e.2.dnsTimeout

/-- The entries that the loop over all entries queues. -/
def DueNow (now : HMTimeStamp) (e : DNSKey × HMDNSResult) : Prop :=
  e.2.queryState.isIdle = true ∧ QueuedAt now (dueTime e.2)

/-- The result time of an entry is the one that a restore gives it. -/
def Restored (src : HMState) (c : HMDNSCache) : Prop :=
  ∀ k e, c.cache.find? k = some e → enabled e.1 = true → restoredTime src e = e.2.resultTime

theorem restored_restore (src dest : HMState) :
    Restored src (dest.restoreRunningCheckState src).dnsCache := by
  intro k e he henabled
  have hplugin : e.1.2.plugin ≠ .none := of_decide_eq_true ((Bool.and_eq_true _ _).mp henabled).2
  obtain ⟨e₀, -, hkey, -, -, htime⟩ := entry_before_restore he hplugin
  rw [htime, restoredTime, restoredTime, hkey, htime, restoredTime]
  split <;> rfl

theorem Restored.queues (h : Restored src c) (hq : Queues c c' works) : Restored src c' := by
  intro k e' he' henabled
  obtain ⟨e, he, hkey, hvalue⟩ := hq.entry he'
  have htime : e'.2.resultTime = e.2.resultTime := by
    rcases hvalue with hsame | ⟨hqueued, -⟩
    · rw [hsame]
    · rw [hqueued]
      rfl
  rw [restoredTime_congr hkey htime, htime]
  exact h k e he (hkey ▸ henabled)

/-- After the swap an entry is kept as before, or it is about to be queued. -/
theorem chainBut_replaceState (h : Chain d) (hfresh : FreshFor (configured new) new.dnsCache)
    (hsurvive : ∀ e ∈ new.dnsCache.cache.entries, enabled e.1 = true →
      survivesReload d e = true) :
    ChainBut (fun e => Longer d.current (configured (d.replaceState new).current) e ∨
      DueNow d.now e) (d.replaceState new) where
  kept := by
    intro k e he henabled
    have hplugin : e.1.2.plugin ≠ .none := of_decide_eq_true ((Bool.and_eq_true _ _).mp henabled).2
    obtain ⟨e₀, he₀, hkey, hstate, httl, htime⟩ := entry_before_restore he hplugin
    have hmem := SortedMap.mem_of_find? he₀
    obtain ⟨hconfigured, hinactive, -⟩ := hfresh e₀ hmem
    have hsame := restore_sameConfiguration d.current new
    have hidle : e.2.queryState.isIdle = true := by rw [hstate, hinactive]; rfl
    have hdue : dueTime e.2 = reloadedDue d.current e₀ := by rw [dueTime, htime, httl, reloadedDue]
    have hcases := hsurvive e₀ hmem (hkey ▸ henabled)
    simp only [survivesReload, Bool.or_eq_true, Option.any_eq_true, List.any_eq_true,
      Bool.and_eq_true, decide_eq_true_eq] at hcases
    rcases hcases with ((⟨o, ho, hlt⟩ | hnow) | ⟨w, hw, hown⟩) | ⟨o, ho, hoenabled, hle⟩
    · refine Or.inr (Or.inl ⟨?_, o, hkey ▸ ho, httl ▸ hlt⟩)
      have hlookups : configured (d.replaceState new).current = configured new := by
        simp only [configured, checkLookups, Daemon.replaceState, hsame.checks, hsame.settings]
      rw [hlookups, hkey]
      exact hconfigured
    · exact Or.inr (Or.inr ⟨hidle, by rwa [hdue]⟩)
    · exact Or.inl (Kept.of_work hw (hkey ▸ hown))
    · have heqv : eqv o.1 e.1 = true := hkey ▸ SortedMap.find?_eqv ho
      rw [← hdue] at hle
      exact Or.inl (Kept.mono (h.lookupKept ho hoenabled) (fun _ => IsLookup.congr heqv)
        (fun _ => IsDnsTimeout.congr heqv hle) (fun _ => hidle) (List.Subset.refl _)
        (List.Subset.refl _))
  reschedules := h.reschedules

/-- The rescheduling loop leaves only the entries that are due. -/
theorem ChainBut.resheduleDNSChecks {now : HMTimeStamp}
    (h : ChainBut (fun e => Longer src (configured d.current) e ∨ DueNow now e) d) :
    ChainBut (DueNow now) (d.resheduleDNSChecks src) := by
  apply ChainBut.putDNS h (queues_resheduleDNSChecks d.current src)
  intro k e he henabled howed
  rcases howed with ⟨hmem, o, ho, hlt⟩ | hdue
  · have hplugin : e.1.2.plugin ≠ .none :=
      of_decide_eq_true ((Bool.and_eq_true _ _).mp henabled).2
    have hself : d.current.dnsCache.cache.find? e.1 = some e :=
      SortedMap.find?_eq_some.mpr ⟨SortedMap.mem_of_find? he, eqv_refl _⟩
    exact Or.inr (mem_resheduleDNSChecks hmem hplugin hself ho hlt)
  · exact Or.inl hdue

/-- The loop over all entries leaves none. -/
theorem ChainBut.queueDNSLookups {now : HMTimeStamp} (h : ChainBut (DueNow now) d)
    (hnow : d.now = now) (restart : Bool) : Chain (d.queueDNSLookups restart) := by
  subst hnow
  have hput : Chain (d.putDNS ((d.current.dnsCache.queueDNSLookups restart d.now).1,
      (d.current.dnsCache.queueDNSLookups restart d.now).2.1)) := by
    refine ChainBut.putDNS h (queues_queueDNSLookups d.current.dnsCache restart d.now) ?_
    intro k e he henabled hdue
    exact Or.inr (mem_queueDNSLookups restart he (isLookupQueued_of_due henabled hdue.1 hdue.2))
  exact ChainBut.frame hput rfl (List.Subset.refl _) (List.subset_append_left _ _) fun _ => id

theorem Chain.queueRemoteLookups (h : Chain d) (restart : Bool) :
    Chain (d.queueRemoteLookups restart) :=
  ChainBut.frame (h.putRemote _) rfl (List.Subset.refl _) (List.subset_append_left _ _) fun _ => id

theorem Chain.queueRemoteHostLookups (h : Chain d) (restart : Bool) :
    Chain (d.queueRemoteHostLookups restart) :=
  ChainBut.frame (h.putRemoteHost _) rfl (List.Subset.refl _) (List.subset_append_left _ _)
    fun _ => id

/-- A restore of what was restored before changes nothing that the chain depends on. -/
theorem Chain.restore (h : Chain d) (hrestored : Restored src d.current.dnsCache) :
    Chain { d with current := d.current.restoreRunningCheckState src } := by
  refine Chain.intro ?_ h.reschedules
  intro k e he henabled
  have hplugin : e.1.2.plugin ≠ .none := of_decide_eq_true ((Bool.and_eq_true _ _).mp henabled).2
  obtain ⟨e₀, he₀, hkey, hstate, httl, htime⟩ := entry_before_restore he hplugin
  have henabled₀ : enabled e₀.1 = true := hkey ▸ henabled
  have hdue : dueTime e.2 = dueTime e₀.2 := by
    rw [dueTime, htime, httl, hrestored k e₀ he₀ henabled₀, dueTime]
  have hkept := h.lookupKept he₀ henabled₀
  unfold LookupKept at hkept ⊢
  rw [hkey, hdue, hstate]
  exact hkept

theorem chain_swapStates (h : Chain d) (hfresh : FreshFor (configured new) new.dnsCache)
    (hsurvive : ∀ e ∈ new.dnsCache.cache.entries, enabled e.1 = true →
      survivesReload d e = true) :
    Chain (d.swapStates new) := by
  have hdns := (chainBut_replaceState h hfresh hsurvive).resheduleDNSChecks
  have hhealth : ChainBut (DueNow d.now)
      (((d.replaceState new).resheduleDNSChecks d.current).resheduleHealthChecks d.current) :=
    hdns.putHealth _
  have hqueued := ((hhealth.queueDNSLookups rfl false).queueRemoteLookups
    false).queueRemoteHostLookups false
  refine Chain.restore hqueued ?_
  have hfirst := restored_restore d.current new
  have hsecond := hfirst.queues (queues_resheduleDNSChecks _ d.current)
  exact hsecond.queues (queues_queueDNSLookups _ false d.now)

end Swap

/-- The start queues or arms every entry. -/
theorem chain_start {s : HMState}
    (hidle : ∀ e ∈ s.dnsCache.cache.entries, e.2.queryState.isIdle = true) (now : HMTimeStamp) :
    Chain (Daemon.start s now) := by
  have hqueues := queues_queueDNSLookups s.dnsCache true now
  have hput : ChainBut (fun e => e ∈ s.dnsCache.cache.entries ∧ ¬ QueuedAt now (dueTime e.2))
      (Daemon.putDNS ⟨s, [], [], now⟩ ((s.dnsCache.queueDNSLookups true now).1,
        (s.dnsCache.queueDNSLookups true now).2.1)) := by
    have hnothing : ChainBut (fun e => e ∈ s.dnsCache.cache.entries) ⟨s, [], [], now⟩ :=
      ⟨fun he _ => Or.inr (SortedMap.mem_of_find? he), fun hw => absurd hw List.not_mem_nil⟩
    refine hnothing.putDNS hqueues ?_
    intro k e he henabled hmem
    by_cases hdue : QueuedAt now (dueTime e.2)
    · exact Or.inr (mem_queueDNSLookups true he
        (isLookupQueued_of_due henabled (hidle e hmem) hdue))
    · exact Or.inl ⟨hmem, hdue⟩
  have hdns : Chain (Daemon.queueDNSLookups ⟨s, [], [], now⟩ true) := by
    refine Chain.intro ?_ hput.reschedules
    intro k e he henabled
    rcases hput.kept he henabled with hkept | ⟨hmem, hlate⟩
    · exact Kept.mono hkept (fun _ => id) (fun _ => id) id (List.Subset.refl _)
        (List.subset_append_left _ _)
    · rcases (Bool.and_eq_true _ _).mp henabled with ⟨hgroup, hplugin⟩
      have hi := hidle e hmem
      have hnot : ¬ dueTime e.2 ≤ now := fun h => hlate (Or.inl h)
      have harmed : HMDNSCache.isLookupArmed true now e.1 e.2 = true := by
        have hstate : scheduleState (some (e.2.queryState, e.2.nextQueryTime now)) now = .ignore :=
          scheduleState_of_not_queuedAt hi hlate
        simp [HMDNSCache.isLookupArmed, of_decide_eq_true hgroup, hstate]
      refine Kept.of_timeout (t := .dns ⟨e.1.1, e.1.2, e.2.nextQueryTime now⟩) hi ?_
        ⟨eqv_refl _, of_decide_eq_true hplugin, Int.le_of_eq (nextTime_of_not_due hi hnot).symm⟩
      exact List.mem_append_right _ (List.mem_map_of_mem (List.mem_map_of_mem
        (List.mem_filter.mpr ⟨hmem, harmed⟩)))
  exact (hdns.queueRemoteLookups true).queueRemoteHostLookups true

/-- A step does not break the chain. -/
def unbroken (d : Daemon) : Daemon.Event → Bool
  | .processDNS i _ => d.works[i]?.all fun w =>
    match w with
    | .dnsLookup w => pluginFits d w
    | _ => true
  | .reload settings hostGroups =>
    (generateCheckList settings hostGroups).dnsCache.cache.entries.all fun e =>
      !enabled e.1 || survivesReload d e
  | _ => true

theorem step_chain {ev : Daemon.Event} (h : Chain d) (hcond : unbroken d ev = true)
    (hstep : d.step ev = some d') : Chain d' := by
  cases ev with
  | pop i =>
    obtain ⟨t, ht, hnext, rfl⟩ := Daemon.step_pop hstep
    have hdue := Daemon.due_of_isNext hnext
    cases t with
    | dns t => exact h.pop_dns ht hdue
    | remoteCheck name time => exact h.pop_remote ht fun _ => Timeout.noConfusion
    | remoteHostCheck key time => exact h.pop_remote ht fun _ => Timeout.noConfusion
  | processDNS i outcome =>
    obtain ⟨w, hw, rfl⟩ := Daemon.step_processDNS hstep
    simp only [unbroken, hw, Option.all_some] at hcond
    exact h.processDNS hw hcond outcome
  | processRemote i outcome =>
    obtain ⟨w, hw, rfl⟩ := Daemon.step_processRemote hstep
    exact (h.eraseOther hw fun _ => Work.noConfusion).processRemote w outcome
  | processRemoteHost i outcome =>
    obtain ⟨w, hw, rfl⟩ := Daemon.step_processRemoteHost hstep
    exact (h.eraseOther hw fun _ => Work.noConfusion).processRemoteHost w outcome
  | forceDNSCheck hostGroup hostName =>
    obtain rfl := Option.some.inj hstep
    exact h.putDNS (queues_forceDNSCheck d.current hostGroup hostName)
  | reload settings hostGroups =>
    obtain rfl := Option.some.inj hstep
    refine chain_swapStates h (freshFor_generateCheckList settings hostGroups) ?_
    intro e he henabled
    have hall := List.all_eq_true.mp hcond e he
    simpa [henabled] using hall
  | advance duration =>
    obtain rfl := Option.some.inj hstep
    exact ChainBut.frame h rfl (List.Subset.refl _) (List.Subset.refl _) fun _ => id

/-- Every entry that the daemon looks up has a lookup queued, or a timeout that is not
earlier than its next query and leads to a lookup when it is popped. -/
def NeverLost (d : Daemon) : Prop :=
  ∀ e ∈ d.current.dnsCache.cache.entries, e.1.2.remoteCheckGroup = [] → e.1.2.plugin ≠ .none →
    (∃ w, Work.dnsLookup w ∈ d.works ∧ eqv (w.name, w.lookup) e.1 = true) ∨
    ∃ t, Timeout.dns t ∈ d.timeouts ∧ eqv (t.name, t.lookup) e.1 = true ∧
      e.2.nextQueryTime d.now ≤ max t.time d.now ∧
      ∀ now, max t.time d.now ≤ now → d.current.dnsCache.queryNeeded t.name t.lookup now = .work

theorem Chain.neverLost (h : Chain d) : NeverLost d := by
  intro e he hgroup hplugin
  have henabled : enabled e.1 = true := by simp [enabled, hgroup, hplugin]
  have hself : d.current.dnsCache.cache.find? e.1 = some e :=
    SortedMap.find?_eq_some.mpr ⟨he, eqv_refl _⟩
  rcases h.lookupKept hself henabled with ⟨w, hw, hown⟩ | ⟨hidle, t, ht, hown⟩
  · cases w with
    | dnsLookup w => exact Or.inl ⟨w, hw, hown.1⟩
    | healthCheck w => exact hown.elim
    | remoteCheck w => exact hown.elim
    | remoteHostCheck w => exact hown.elim
  · cases t with
    | dns t =>
      rcases hown with ⟨hkey, -, hdue⟩
      refine Or.inr ⟨t, ht, hkey, ?_, ?_⟩
      · by_cases hnow : dueTime e.2 ≤ d.now
        · exact Int.le_trans ((nextTime_le_iff hidle).mpr hnow) (Int.le_max_right _ _)
        · have hnext : e.2.nextQueryTime d.now = dueTime e.2 := nextTime_of_not_due hidle hnow
          rw [hnext]
          exact Int.le_trans hdue (Int.le_max_left _ _)
      · intro now hnow
        have hle : dueTime e.2 ≤ now :=
          Int.le_trans hdue (Int.le_trans (Int.le_max_left _ _) hnow)
        exact queryNeeded_of_due ((SortedMap.find?_congr _ hkey).trans hself) hidle hle
    | remoteCheck name time => exact hown.elim
    | remoteHostCheck key time => exact hown.elim

/-- In every run from a start on idle entries whose steps do not break the chain, no lookup
is ever lost. -/
theorem lookups_never_lost {s : HMState} {now : HMTimeStamp} {es : List Daemon.Event}
    {d : Daemon} (hidle : ∀ e ∈ s.dnsCache.cache.entries, e.2.queryState.isIdle = true)
    (halong : Along Daemon.step (fun d ev => unbroken d ev = true) (Daemon.start s now) es)
    (hrun : runTrace Daemon.step (Daemon.start s now) es = some d) : NeverLost d := by
  have hchain : Chain d :=
    invariant_of_step (fun h hcond hstep => step_chain h hcond hstep) (chain_start hidle now)
      halong hrun
  exact hchain.neverLost

/-- One group of one host, with the given families and time to live. -/
def sampleGroups (dualstack : DualStack) (ttl : UInt64) : HMDataHostGroupMap :=
  SortedMap.empty.insert (bytes "web")
    { HMDataHostGroup.new (bytes "web") with
      hosts := [bytes "a"], dualstack := dualstack, checkTTL := ttl }

def sampleStart : HMState := generateCheckList .default (sampleGroups .both 30000)

/-- A lookup that finds one address. -/
def sampleOutcome (address : HMIPAddress) : DnsOutcome :=
  ⟨some (SortedMap.empty.insert address ()), true, ⟨.connected, .success, 0, 0, 0, 0, 0⟩⟩

/-- Both families are looked up, the first timeout is popped, a lookup is forced, and a
reload gives the group a longer time to live. -/
def sampleRun : List Daemon.Event :=
  [.processDNS 0 (sampleOutcome (.v4 1)), .processDNS 0 (sampleOutcome (.v6 1)), .advance 30000,
    .pop 0, .forceDNSCheck (bytes "web") none, .reload .default (sampleGroups .both 60000),
    .advance 5000]

theorem sampleRun_never_lost :
    Along Daemon.step (fun d ev => unbroken d ev = true) (Daemon.start sampleStart 1000000)
      sampleRun ∧
    ∃ d, runTrace Daemon.step (Daemon.start sampleStart 1000000) sampleRun = some d ∧
      NeverLost d := by
  have hidle : ∀ e ∈ sampleStart.dnsCache.cache.entries, e.2.queryState.isIdle = true := by
    decide +kernel
  have halong : Along Daemon.step (fun d ev => unbroken d ev = true)
      (Daemon.start sampleStart 1000000) sampleRun := by
    decide +kernel
  have hsome : (runTrace Daemon.step (Daemon.start sampleStart 1000000) sampleRun).isSome =
      true := by
    decide +kernel
  rcases Option.isSome_iff_exists.mp hsome with ⟨d, hd⟩
  exact ⟨halong, d, hd, lookups_never_lost hidle halong hd⟩

/-- An entry with a plugin for which nothing is queued and nothing is on the heap. -/
def isLost (d : Daemon) (k : DNSKey) : Bool :=
  ((d.current.dnsCache.cache.find? k).any fun e => enabled e.1) &&
  (d.works.all fun w =>
    match w with
    | .dnsLookup w => !eqv (w.name, w.lookup) k
    | _ => true) &&
  d.timeouts.all fun t =>
    match t with
    | .dns t => !eqv (t.name, t.lookup) k
    | _ => true

theorem not_neverLost_of_isLost (h : isLost d k = true) : ¬ NeverLost d := by
  intro hnever
  simp only [isLost, Bool.and_eq_true, Option.any_eq_true, List.all_eq_true] at h
  rcases h with ⟨⟨⟨e, he, henabled⟩, hworks⟩, htimeouts⟩
  rcases (Bool.and_eq_true _ _).mp henabled with ⟨hgroup, hplugin⟩
  have hk := SortedMap.find?_eqv he
  rcases hnever e (SortedMap.mem_of_find? he) (of_decide_eq_true hgroup)
    (of_decide_eq_true hplugin) with ⟨w, hw, hown⟩ | ⟨t, ht, hown, -⟩
  · simpa [eqv_trans hown hk] using hworks _ hw
  · simpa [eqv_trans hown hk] using htimeouts _ ht

/-- A reload drops the IPv6 lookups, whose timeout is then popped for an entry that the
restore created; a second reload brings them back with a longer time to live, which is no
longer than the default that entry was given. -/
def losingRun : List Daemon.Event :=
  [.processDNS 0 (sampleOutcome (.v4 1)), .processDNS 0 (sampleOutcome (.v6 1)),
    .reload .default (sampleGroups .ipv4Only 30000), .advance 30000, .pop 1, .advance 20000,
    .reload .default (sampleGroups .both 100000)]

theorem losingRun_loses_lookups :
    (∀ e ∈ sampleStart.dnsCache.cache.entries, e.2.queryState.isIdle = true) ∧
    ∃ d, runTrace Daemon.step (Daemon.start sampleStart 1000000) losingRun = some d ∧
      ¬ NeverLost d := by
  refine ⟨by decide +kernel, ?_⟩
  have hlost : (runTrace Daemon.step (Daemon.start sampleStart 1000000) losingRun).any
      (fun d => isLost d (bytes "a", .new .lookup true [])) = true := by
    decide +kernel
  rw [Option.any_eq_true] at hlost
  rcases hlost with ⟨d, hd, hd'⟩
  exact ⟨d, hd, not_neverLost_of_isLost hd'⟩

end DNSChain
