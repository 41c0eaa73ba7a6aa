import Mathlib.Data.List.TakeWhile
import NetCHASM.RemoteChain
import NetCHASM.RemoteReload
import NetCHASM.Library.Runs

/-! The remote checks over whole runs. The start queues or arms every entry; a reload queues
what is due, and leaves the rest to the timeouts of the old configuration. -/
namespace RemoteChain

open NetCHASM OrderedMap KeyOrder Runs PendingWork HMState RemoteReload

variable {d d' : Daemon} {groupOwed : HMString × HMRemoteResult → Prop}
  {hostOwed : RemoteHostKey × HMRemoteResult → Prop}

/-! The loops over all entries, at the start and at a reload. -/

section Lookups

variable {K : Type} [Ordered K] {L : Lane K} {c c' : RemoteCache K} {supported : K → Bool}
  {ks : List K} {works works' : List Work} {timeouts timeouts' : List Timeout}
  {owed : K × HMRemoteResult → Prop} {now : HMTimeStamp} {time : K → Option HMTimeStamp}

/-- A loop queues the idle entries that are due and, at a restart, arms the others. -/
theorem ChainBut.lookups (visited : K → Bool) (restart : Bool)
    (h : ChainBut L c supported works timeouts owed)
    (howed : ∀ k e, c.find? k = some e → supported e.1 = true → owed e →
      visited e.1 = true ∧ e.2.checkState.isIdle = true ∧
        (QueuedAt now (dueTime e.2) ∨ restart = true))
    (hworks : works ⊆ works') (htimeouts : timeouts ⊆ timeouts')
    (hks : ∀ k ∈ (c.queueRemoteLookups visited supported restart now).2.1,
      ∃ w ∈ works', L.isWork k w)
    (hts : ∀ x ∈ (c.queueRemoteLookups visited supported restart now).2.2,
      supported x.1 = true → ∃ t ∈ timeouts', L.isTimeout x.1 x.2 t) :
    ChainBut L (c.queueRemoteLookups visited supported restart now).1 supported works' timeouts'
      fun _ => False := by
  have hqueued : ChainBut L (c.queueRemoteLookups visited supported restart now).1 supported works'
      timeouts fun e => e.2.checkState.isIdle = true ∧
        ∃ t ∈ timeouts', L.isTimeout e.1 (dueTime e.2) t := by
    refine h.queue (queues_queueRemoteLookups c visited supported restart now) hworks hks ?_
    intro k e he hsupported ho
    obtain ⟨hvisited, hidle, hdue⟩ := howed k e he hsupported ho
    by_cases hnow : QueuedAt now (dueTime e.2)
    · exact Or.inr (mem_queueRemoteLookups restart he hvisited hsupported hidle hnow)
    · have hrestart : restart = true := hdue.resolve_left hnow
      have hlate : ¬ dueTime e.2 ≤ now := fun hle => hnow (Or.inl hle)
      have hstate : scheduleState (some (e.2.checkState, e.2.nextCheckTime now)) now = .ignore :=
        scheduleState_of_not_queuedAt hidle hnow
      have htime : e.2.nextCheckTime now = dueTime e.2 := nextTime_of_not_due hidle hlate
      have harmed : (e.1, e.2.nextCheckTime now) ∈
          (c.queueRemoteLookups visited supported restart now).2.2 := by
        refine List.mem_map.mpr ⟨e, List.mem_filter.mpr ⟨SortedMap.mem_of_find? he, ?_⟩, rfl⟩
        simp [hvisited, RemoteCache.isCheckArmed, hrestart, hstate]
      obtain ⟨t, ht, hown⟩ := hts _ harmed hsupported
      rw [htime] at hown
      exact Or.inl ⟨hidle, t, ht, hown⟩
  intro k e he hsupported
  rcases hqueued k e he hsupported with hkept | ⟨hidle, t, ht, hown⟩
  · exact Or.inl (Kept.mono hkept (fun _ => id) (fun _ => id) id (List.Subset.refl _) htimeouts)
  · exact Or.inl (Kept.of_timeout hidle ht hown)

/-- The entries of a cache have the result times that a restore gives them. -/
def Stamped (time : K → Option HMTimeStamp) (c : RemoteCache K) : Prop :=
  ∀ k e, c.find? k = some e → (time k).getD e.2.resultTime = e.2.resultTime

theorem Stamped.queues (h : Stamped time c) (hq : Queues c c' ks) : Stamped time c' := by
  intro k e' he'
  obtain ⟨e, he, -, hvalue⟩ := hq k e' he'
  have htime : e'.2.resultTime = e.2.resultTime := by
    rcases hvalue with hsame | ⟨hqueued, -⟩
    · rw [hsame]
    · rw [hqueued]
      rfl
  rw [htime]
  exact h k e he

theorem stamped_of_map {c₀ : RemoteCache K}
    (h : ∀ k, c.find? k = (c₀.find? k).map (stamped (time k))) : Stamped time c := by
  intro k e he
  rw [h] at he
  rcases Option.map_eq_some_iff.mp he with ⟨e₀, -, rfl⟩
  cases htime : time k with
  | none => rfl
  | some t => simp [stamped, HMRemoteResult.setResultTime]

/-- Restoring them once more changes nothing. -/
theorem find?_of_stamped {c₀ : RemoteCache K} (hstamped : Stamped time c₀)
    (h : ∀ k, c.find? k = c₀.find? k ∨ c.find? k = (c₀.find? k).map (stamped (time k))) (k : K) :
    c.find? k = c₀.find? k := by
  rcases h k with hsame | hset
  · exact hsame
  · rw [hset]
    cases he : c₀.find? k with
    | none => rfl
    | some e =>
      have htime := hstamped k e he
      simp [stamped, HMRemoteResult.setResultTime, htime]

theorem ChainBut.congr (h : ChainBut L c supported works timeouts owed)
    (hfind : ∀ k, c'.find? k = c.find? k) : ChainBut L c' supported works timeouts owed :=
  fun k e he hsupported => h k e ((hfind k).symm.trans he) hsupported

/-- Every entry is one that the configuration asks for, and idle. -/
def IdleFor (listed : K → Prop) (c : RemoteCache K) : Prop :=
  ∀ e ∈ c.entries, listed e.1 ∧ e.2.checkState.isIdle = true

theorem idleFor_insertRemoteEntry {listed : K → Prop} (h : IdleFor listed c) {key : K}
    (hkey : listed key) (ttl timeout : UInt64) :
    IdleFor listed (c.insertRemoteEntry key ttl timeout) := by
  unfold RemoteCache.insertRemoteEntry
  dsimp only
  split
  · intro e he
    rcases List.mem_map.mp he with ⟨e', he', rfl⟩
    obtain ⟨hlisted, hidle⟩ := h e' he'
    dsimp only
    split
    · exact ⟨hlisted, hidle⟩
    · exact ⟨hlisted, hidle⟩
  · rename_i hmissing
    intro e he
    have hnone : c.find? key = none := by simpa [SortedMap.contains] using hmissing
    simp only [SortedMap.insert, hnone, dif_pos] at he
    rcases mem_insertUpper.mp he with rfl | he
    · exact ⟨hkey, rfl⟩
    · exact h e he

theorem IdleFor.of_map {listed : K → Prop} {c₀ : RemoteCache K} (h : IdleFor listed c₀)
    (hmap : ∀ k, c.find? k = (c₀.find? k).map (stamped (time k))) : IdleFor listed c := by
  intro e he
  have hself : c.find? e.1 = some e := SortedMap.find?_eq_some.mpr ⟨he, eqv_refl _⟩
  rw [hmap] at hself
  rcases Option.map_eq_some_iff.mp hself with ⟨e₀, he₀, heq⟩
  rw [← heq]
  exact h e₀ (SortedMap.mem_of_find? he₀)

/-- What keeps an entry going across a reload: it is due, or more than a day off; a check of
it is queued; or it was there before, of a supported type and due no earlier. -/
def Survives (L : Lane K) (old : RemoteCache K) (oldSupported : K → Bool) (works : List Work)
    (now due : HMTimeStamp) (key : K) : Prop :=
  QueuedAt now due ∨ (∃ w ∈ works, L.isWork key w) ∨
    ∃ o ∈ old.find? key, oldSupported o.1 = true ∧ due ≤ dueTime o.2

instance [∀ k w, Decidable (L.isWork k w)] (old : RemoteCache K) (oldSupported : K → Bool)
    (works : List Work) (now due : HMTimeStamp) (key : K) :
    Decidable (Survives L old oldSupported works now due key) :=
  inferInstanceAs (Decidable (_ ∨ _ ∨ _))

/-- The time at which an entry is due that a restore gives a result time. -/
def reloadedDue (time : Option HMTimeStamp) (r : HMRemoteResult) : HMTimeStamp :=
  (time.getD r.resultTime).plus r.remoteTTL

/-- After the swap an entry is kept as before, or it is about to be queued. -/
theorem ChainBut.reload {old fresh : RemoteCache K} {oldSupported : K → Bool} {listed : K → Prop}
    (h : ChainBut L old oldSupported works timeouts fun _ => False) (hidle : IdleFor listed fresh)
    (hcongr : ∀ k k', eqv k k' = true → time k = time k')
    (hmap : ∀ k, c.find? k = (fresh.find? k).map (stamped (time k)))
    (hsurvives : ∀ e ∈ fresh.entries, supported e.1 = true →
      Survives L old oldSupported works now (reloadedDue (time e.1) e.2) e.1) :
    ChainBut L c supported works timeouts fun e => QueuedAt now (dueTime e.2) := by
  intro k e he hsupported
  rw [hmap] at he
  rcases Option.map_eq_some_iff.mp he with ⟨e₀, he₀, rfl⟩
  have hmem := SortedMap.mem_of_find? he₀
  have hdue : dueTime (stamped (time k) e₀).2 = reloadedDue (time e₀.1) e₀.2 := by
    rw [hcongr e₀.1 k (SortedMap.find?_eqv he₀)]
    rfl
  have hstill : (stamped (time k) e₀).2.checkState.isIdle = true := (hidle e₀ hmem).2
  dsimp only
  rw [hdue]
  rcases hsurvives e₀ hmem hsupported with hnow | ⟨w, hw, hown⟩ | ⟨o, ho, hosupported, hle⟩
  · exact Or.inr hnow
  · exact Or.inl (Kept.of_work hw hown)
  · have hkey : eqv o.1 e₀.1 = true := SortedMap.find?_eqv ho
    rw [← hdue] at hle
    exact Or.inl (Kept.mono ((h _ o ho hosupported).resolve_right id)
      (fun _ => L.work_congr hkey) (fun _ => L.timeout_congr hkey hle) (fun _ => hstill)
      (List.Subset.refl _) (List.Subset.refl _))

end Lookups

/-- A group that is configured to be fetched as a whole. -/
def GroupListed (hostGroups : HMDataHostGroupMap) (name : HMString) : Prop :=
  ∃ g, hostGroups.get? name = some g ∧ g.flowType = .remoteHostgroup

/-- A host that is configured to be fetched on its own. -/
def HostListed (k : RemoteHostKey) : Prop := k.2.flowType = .remoteHost

theorem isVisited_of_listed {s : HMState} (h : IdleFor (GroupListed s.hostGroups) s.remoteCache)
    {e : HMString × HMRemoteResult} (he : e ∈ s.remoteCache.entries) :
    s.remoteCache.isVisited s.hostGroups e.1 = true := by
  have hall : s.remoteCache.keys.takeWhile s.hostGroups.contains = s.remoteCache.keys := by
    rw [List.takeWhile_eq_self_iff]
    intro name hname
    rcases List.mem_map.mp hname with ⟨x, hx, rfl⟩
    obtain ⟨⟨g, hg, -⟩, -⟩ := h x hx
    simp [SortedMap.contains_eq, hg]
  obtain ⟨⟨g, hg, hflow⟩, -⟩ := h e he
  have hmem : e.1 ∈ s.remoteCache.keys := List.mem_map_of_mem he
  simp only [HMRemoteHostGroupCache.isVisited, hall, hg, Option.any_some, hflow, decide_true,
    Bool.and_true, List.any_eq_true]
  exact ⟨e.1, hmem, eqv_refl _⟩

/-- The loop over the groups. -/
theorem ChainOwing.queueRemoteLookups (h : ChainOwing groupOwed hostOwed d)
    (hidle : IdleFor (GroupListed d.current.hostGroups) d.current.remoteCache) {restart : Bool}
    (howed : ∀ e, groupOwed e → QueuedAt d.now (dueTime e.2) ∨ restart = true) :
    ChainOwing (fun _ => False) hostOwed (d.queueRemoteLookups restart) := by
  have hworks : d.works ⊆ (d.queueRemoteLookups restart).works := List.subset_append_left _ _
  have htimeouts : d.timeouts ⊆ (d.queueRemoteLookups restart).timeouts :=
    List.subset_append_left _ _
  refine ⟨?_, h.hosts.mono hworks htimeouts, fun hw => h.supported (mem_of_append (by simp) hw)⟩
  refine ChainBut.lookups (d.current.remoteCache.isVisited d.current.hostGroups) restart h.groups ?_
    hworks htimeouts ?_ ?_
  · intro k e he _ ho
    have hmem := SortedMap.mem_of_find? he
    exact ⟨isVisited_of_listed hidle hmem, (hidle e hmem).2, howed e ho⟩
  · intro k hk
    exact ⟨.remoteCheck (HMRemoteHostGroupCache.work d.current.hostGroups k),
      List.mem_append_right _ (List.mem_map_of_mem (List.mem_map_of_mem hk)), rfl⟩
  · intro x hx _
    exact ⟨.remoteCheck x.1 x.2, List.mem_append_right _ (List.mem_map_of_mem hx),
      rfl, Int.le_refl _⟩

/-- The loop over the hosts. -/
theorem ChainOwing.queueRemoteHostLookups (h : ChainOwing groupOwed hostOwed d)
    (hidle : IdleFor HostListed d.current.remoteHostCache) {restart : Bool}
    (howed : ∀ e, hostOwed e → QueuedAt d.now (dueTime e.2) ∨ restart = true) :
    ChainOwing groupOwed (fun _ => False) (d.queueRemoteHostLookups restart) := by
  have hworks : d.works ⊆ (d.queueRemoteHostLookups restart).works := List.subset_append_left _ _
  have htimeouts : d.timeouts ⊆ (d.queueRemoteHostLookups restart).timeouts :=
    List.subset_append_left _ _
  refine ⟨h.groups.mono hworks htimeouts, ?_, ?_⟩
  · refine ChainBut.lookups (fun k => k.2.flowType = .remoteHost) restart h.hosts ?_ hworks htimeouts
      ?_ ?_
    · intro k e he _ ho
      obtain ⟨hlisted, hstate⟩ := hidle e (SortedMap.mem_of_find? he)
      exact ⟨decide_eq_true hlisted, hstate, howed e ho⟩
    · intro k hk
      exact ⟨.remoteHostCheck ⟨k.1, k.2⟩,
        List.mem_append_right _ (List.mem_map_of_mem (List.mem_map_of_mem hk)), eqv_refl k⟩
    · intro x hx hsupported
      exact ⟨.remoteHostCheck x.1 x.2, List.mem_append_right _ (List.mem_map_of_mem hx),
        eqv_refl x.1, hsupported, Int.le_refl _⟩
  · intro w hw
    rcases List.mem_append.mp hw with hw | hw
    · exact h.supported hw
    · rcases List.mem_map.mp hw with ⟨w', hw', heq⟩
      obtain rfl := Work.remoteHostCheck.inj heq
      rcases List.mem_map.mp hw' with ⟨k, hk, rfl⟩
      rcases List.mem_map.mp hk with ⟨x, hx, rfl⟩
      have hqueued := (List.mem_filter.mp hx).2
      simp only [RemoteCache.isCheckQueued, Bool.and_eq_true] at hqueued
      exact hqueued.2.2

/-- A loaded state: every entry is one that the configuration asks for, and idle. -/
structure Idle (s : HMState) : Prop where
  groups : IdleFor (GroupListed s.hostGroups) s.remoteCache
  hosts : IdleFor HostListed s.remoteHostCache

theorem Idle.frame (h : Idle d.current) (hf : Frame d d') : Idle d'.current where
  groups := by
    rw [hf.hostGroups, hf.remoteCache]
    exact h.groups
  hosts := by
    rw [hf.remoteHostCache]
    exact h.hosts

theorem ChainOwing.queueLookups (h : ChainOwing groupOwed hostOwed d) (hidle : Idle d.current)
    {restart : Bool} (hgroups : ∀ e, groupOwed e → QueuedAt d.now (dueTime e.2) ∨ restart = true)
    (hhosts : ∀ e, hostOwed e → QueuedAt d.now (dueTime e.2) ∨ restart = true) :
    Chain (d.queueLookups restart) := by
  have hframe := frame_queueDNSLookups d restart
  have hidle' := hidle.frame hframe
  exact ((h.frame hframe).queueRemoteLookups hidle'.groups hgroups).queueRemoteHostLookups
    hidle'.hosts hhosts

/-- The start queues or arms every entry. -/
theorem chain_start {s : HMState} (hidle : Idle s) (now : HMTimeStamp) :
    Chain (Daemon.start s now) := by
  have hnothing : ChainOwing (fun _ => True) (fun _ => True) ⟨s, [], [], now⟩ :=
    ⟨fun _ _ _ _ => Or.inr trivial, fun _ _ _ _ => Or.inr trivial,
      fun hw => absurd hw List.not_mem_nil⟩
  exact hnothing.queueLookups hidle (fun _ _ => Or.inr rfl) fun _ _ => Or.inr rfl

/-! The fresh state of a configuration. -/

/-- Nothing has been checked yet. -/
structure Fresh (s : HMState) : Prop extends Idle s where
  results : ∀ h, s.checkList.getCheckResult h = none

theorem idleFor_generateRemoteCheckList (settings : Settings) (hostGroups : HMDataHostGroupMap) :
    IdleFor (GroupListed (generateCheckList settings hostGroups).hostGroups)
      (generateCheckList settings hostGroups).remoteCache := by
  refine List.foldlRecOn
    (motive := IdleFor (GroupListed (generateCheckList settings hostGroups).hostGroups)) _ _
    (fun e he => absurd he List.not_mem_nil) fun c hc e he => ?_
  split
  · rename_i hflow
    exact idleFor_insertRemoteEntry hc ⟨e.2, SortedMap.get?_of_mem he, hflow⟩ _ _
  · exact hc

theorem idleFor_initRemoteCache (settings : Settings) (hostGroups : HMDataHostGroupMap) :
    IdleFor HostListed (generateCheckList settings hostGroups).remoteHostCache := by
  have hempty : IdleFor HostListed (∅ : HMRemoteHostCache) :=
    fun e he => absurd he List.not_mem_nil
  simp only [generateCheckList, HMDataCheckList.initRemoteCache]
  split
  · exact hempty
  · refine List.foldlRecOn (motive := IdleFor HostListed) _ _ hempty ?_
    intro c hc e _
    split
    · rename_i hflow
      have hlisted : HostListed (e.1.hostname, e.1.hostCheck) := hflow
      exact idleFor_insertRemoteEntry hc hlisted _ _
    · exact hc

/-- No check of a list has a result. -/
def NoResults (m : SortedMultimap CheckListKey HMDataCheckParams) : Prop :=
  ∀ k, ∀ results ∈ (m.range k).map fun p => p.checkData, results = ∅

theorem noResults_addHost {m : SortedMultimap CheckListKey HMDataCheckParams} (h : NoResults m)
    (key : CheckListKey) (check : CheckParameters) (group : HMString) :
    NoResults (HMDataCheckList.addHost m key check group) := by
  intro k results hresults
  have hsame : ∀ p : HMDataCheckParams, (p.addHostGroup group).checkData = p.checkData := fun _ => rfl
  unfold HMDataCheckList.addHost at hresults
  dsimp only at hresults
  split at hresults
  · rw [SortedMultimap.range_modifyFirst] at hresults
    split at hresults
    · rw [SortedMultimap.map_modifyFirstVal_of_eq hsame] at hresults
      exact h k results hresults
    · exact h k results hresults
  · rw [SortedMultimap.range_insert] at hresults
    split at hresults
    · rw [List.map_append, List.mem_append] at hresults
      rcases hresults with hold | hnew
      · exact h k results hold
      · exact List.mem_singleton.mp hnew
    · exact h k results hresults

theorem getCheckResult_generateCheckList (settings : Settings) (hostGroups : HMDataHostGroupMap)
    (h : HMCheckHeader) :
    (generateCheckList settings hostGroups).checkList.getCheckResult h = none := by
  have hnone : NoResults (generateCheckList settings hostGroups).checkList.checklist := by
    have hempty : NoResults HMDataCheckList.empty.checklist :=
      fun k results hresults => absurd hresults List.not_mem_nil
    refine List.foldlRecOn (motive := fun l : HMDataCheckList => NoResults l.checklist) _ _ hempty
      fun l hl e _ => ?_
    unfold HMDataCheckList.addHostGroup
    split
    · exact hl
    · split
      · exact hl
      · exact List.foldlRecOn (motive := NoResults) _ _ hl fun m hm host _ =>
          noResults_addHost hm _ _ _
  rw [HMDataCheckList.getCheckResult, List.findSome?_eq_none_iff]
  intro p hp
  split
  · have hempty := hnone h.key p.checkData (List.mem_map_of_mem hp)
    simp [HMDataCheckParams.getCheckResult, hempty]
  · rfl

theorem fresh_generateCheckList (settings : Settings) (hostGroups : HMDataHostGroupMap) :
    Fresh (generateCheckList settings hostGroups) where
  groups := idleFor_generateRemoteCheckList settings hostGroups
  hosts := idleFor_initRemoteCache settings hostGroups
  results := getCheckResult_generateCheckList settings hostGroups

/-! The reload. -/

section Swap

variable {old new : HMState}

theorem find?_restored_group (old : HMState)
    (hidle : IdleFor (GroupListed new.hostGroups) new.remoteCache) (k : HMString) :
    (new.restoreRunningCheckState old).remoteCache.find? k =
      (new.remoteCache.find? k).map (stamped (groupTime old k)) := by
  rcases Option.eq_none_or_eq_some (new.remoteCache.find? k) with hnone | ⟨e, he⟩
  · rcases find?_restore_group_again old new k with hsame | hset
    · rw [hsame, hnone, Option.map_none]
    · exact hset
  · obtain ⟨⟨g, hg, hflow⟩, -⟩ := hidle e (SortedMap.mem_of_find? he)
    rw [SortedMap.get?_congr _ (SortedMap.find?_eqv he)] at hg
    exact find?_restore_group old new hg hflow

theorem find?_restored_host (old : HMState) (hidle : IdleFor HostListed new.remoteHostCache)
    (hresults : ∀ h, new.checkList.getCheckResult h = none) (k : RemoteHostKey) :
    (new.restoreRunningCheckState old).remoteHostCache.find? k =
      (new.remoteHostCache.find? k).map (stamped (carriedTime old k)) := by
  rcases Option.eq_none_or_eq_some (new.remoteHostCache.find? k) with hnone | ⟨e, he⟩
  · rcases find?_restore_host_again (k := k) new with hsame | hset
    · rw [hsame, hnone, Option.map_none]
    · exact hset
  · have hflow : k.2.flowType = .remoteHost :=
      (flowType_of_eqv (SortedMap.find?_eqv he)).symm.trans (hidle e (SortedMap.mem_of_find? he)).1
    exact find?_restore_host hflow new hresults

/-- A restore of what was restored before changes neither cache. -/
theorem Chain.restore (h : Chain d) (hgroups : Stamped (groupTime old) d.current.remoteCache)
    (hhosts : Stamped (carriedTime old) d.current.remoteHostCache) :
    Chain { d with current := d.current.restoreRunningCheckState old } where
  groups := by
    have hsame : groupSupported (d.current.restoreRunningCheckState old) =
        groupSupported d.current := by
      simp only [groupSupported, (restore_sameConfiguration old d.current).hostGroups]
    dsimp only
    rw [hsame]
    exact h.groups.congr (find?_of_stamped hgroups (find?_restore_group_again old d.current))
  hosts := h.hosts.congr
    (find?_of_stamped hhosts fun k => find?_restore_host_again (k := k) d.current)
  supported := h.supported

/-- Every entry of a supported type in the new configuration survives the reload. -/
structure ReloadKeeps (d : Daemon) (new : HMState) : Prop where
  groups : ∀ e ∈ new.remoteCache.entries, groupSupported new e.1 = true →
    Survives groupLane d.current.remoteCache (groupSupported d.current) d.works d.now
      (reloadedDue (groupTime d.current e.1) e.2) e.1
  hosts : ∀ e ∈ new.remoteHostCache.entries, hostSupported e.1 = true →
    Survives hostLane d.current.remoteHostCache hostSupported d.works d.now
      (reloadedDue (carriedTime d.current e.1) e.2) e.1

theorem chain_swapStates (h : Chain d) (hfresh : Fresh new) (hkeeps : ReloadKeeps d new) :
    Chain (d.swapStates new) := by
  have hgroups := find?_restored_group d.current hfresh.groups
  have hhosts := find?_restored_host d.current hfresh.hosts hfresh.results
  have hconfig := (restore_sameConfiguration d.current new).hostGroups
  have hidle : Idle (d.replaceState new).current := by
    refine ⟨?_, hfresh.hosts.of_map hhosts⟩
    simp only [Daemon.replaceState, hconfig]
    exact hfresh.groups.of_map hgroups
  have hreplaced : ChainOwing (fun e => QueuedAt d.now (dueTime e.2))
      (fun e => QueuedAt d.now (dueTime e.2)) (d.replaceState new) := by
    refine ⟨?_, ?_, h.supported⟩
    · simp only [groupSupported, Daemon.replaceState, hconfig]
      exact h.groups.reload hfresh.groups (fun k k' hk => by rw [eqv_iff_eq.mp hk]) hgroups
        hkeeps.groups
    · exact h.hosts.reload hfresh.hosts (fun k k' hk => carriedTime_congr hk) hhosts hkeeps.hosts
  have hframe : Frame (d.replaceState new)
      (((d.replaceState new).resheduleDNSChecks d.current).resheduleHealthChecks d.current) :=
    (frame_putDNS _ _).trans (frame_putHealth _ _)
  refine Chain.restore ((hreplaced.frame hframe).queueLookups (hidle.frame hframe)
    (fun _ => Or.inl) fun _ => Or.inl) ?_ ?_
  · exact (stamped_of_map hgroups).queues (queues_queueRemoteLookups _ _ _ false _)
  · exact (stamped_of_map hhosts).queues (queues_queueRemoteLookups _ _ _ false _)

end Swap

instance (k : HMString) (w : Work) : Decidable (groupLane.isWork k w) :=
  match w with
  | .remoteCheck w => inferInstanceAs (Decidable (w.hostname = k))
  | .dnsLookup _ | .healthCheck _ | .remoteHostCheck _ => isFalse id

instance (k : RemoteHostKey) (w : Work) : Decidable (hostLane.isWork k w) :=
  match w with
  | .remoteHostCheck w =>
    inferInstanceAs (Decidable (eqv ((w.hostname, w.hostCheck) : RemoteHostKey) k = true))
  | .dnsLookup _ | .healthCheck _ | .remoteCheck _ => isFalse id

instance (d : Daemon) (new : HMState) : Decidable (ReloadKeeps d new) :=
  decidable_of_iff (_ ∧ _) ⟨fun h => ⟨h.1, h.2⟩, fun h => ⟨h.groups, h.hosts⟩⟩

/-- A step does not break the chain; only a reload can. -/
def Unbroken (d : Daemon) : Daemon.Event → Prop
  | .reload settings hostGroups => ReloadKeeps d (generateCheckList settings hostGroups)
  | _ => True

instance (d : Daemon) (ev : Daemon.Event) : Decidable (Unbroken d ev) :=
  match ev with
  | .reload settings hostGroups =>
    inferInstanceAs (Decidable (ReloadKeeps d (generateCheckList settings hostGroups)))
  | .pop _ | .processDNS _ _ | .processRemote _ _ | .processRemoteHost _ _ | .forceDNSCheck _ _
  | .advance _ => isTrue trivial

theorem step_chain {ev : Daemon.Event} (h : Chain d) (hcond : Unbroken d ev)
    (hstep : d.step ev = some d') : Chain d' := by
  cases ev with
  | pop i =>
    obtain ⟨t, ht, hnext, rfl⟩ := Daemon.step_pop hstep
    exact h.pop ht (Daemon.due_of_isNext hnext)
  | processDNS i outcome =>
    obtain ⟨w, hw, rfl⟩ := Daemon.step_processDNS hstep
    have herased := h.eraseOther hw (fun _ => Work.noConfusion) fun _ => Work.noConfusion
    exact herased.frame (frame_processDNS _ w outcome)
  | processRemote i outcome =>
    obtain ⟨w, hw, rfl⟩ := Daemon.step_processRemote hstep
    exact h.processRemote hw outcome
  | processRemoteHost i outcome =>
    obtain ⟨w, hw, rfl⟩ := Daemon.step_processRemoteHost hstep
    exact h.processRemoteHost hw outcome
  | forceDNSCheck hostGroup hostName =>
    obtain rfl := Option.some.inj hstep
    exact h.frame (frame_putDNS d _)
  | reload settings hostGroups =>
    obtain rfl := Option.some.inj hstep
    exact chain_swapStates h (fresh_generateCheckList settings hostGroups) hcond
  | advance duration =>
    obtain rfl := Option.some.inj hstep
    exact ⟨h.groups, h.hosts, h.supported⟩

/-- Every entry of a supported type has a check queued, or a timeout of its own kind that is
not earlier than its next check. -/
structure NeverLost (d : Daemon) : Prop where
  groups : ∀ e ∈ d.current.remoteCache.entries, ∀ g, d.current.hostGroups.get? e.1 = some g →
    g.remoteCheckType.isSupported = true →
    (∃ w, Work.remoteCheck w ∈ d.works ∧ w.hostname = e.1) ∨
    ∃ time, Timeout.remoteCheck e.1 time ∈ d.timeouts ∧ e.2.nextCheckTime d.now ≤ max time d.now
  hosts : ∀ e ∈ d.current.remoteHostCache.entries, e.1.2.remoteCheckType.isSupported = true →
    (∃ w, Work.remoteHostCheck w ∈ d.works ∧
      eqv ((w.hostname, w.hostCheck) : RemoteHostKey) e.1 = true) ∨
    ∃ key time, Timeout.remoteHostCheck key time ∈ d.timeouts ∧ eqv key e.1 = true ∧
      e.2.nextCheckTime d.now ≤ max time d.now

/-- An idle entry is checked no later than a timeout that is not before its due time. -/
theorem nextCheckTime_le_max {r : HMRemoteResult} {time now : HMTimeStamp}
    (hidle : r.checkState.isIdle = true) (hdue : dueTime r ≤ time) :
    r.nextCheckTime now ≤ max time now := by
  by_cases hnow : dueTime r ≤ now
  · exact Int.le_trans ((nextTime_le_iff hidle).mpr hnow) (Int.le_max_right _ _)
  · have hnext : r.nextCheckTime now = dueTime r := nextTime_of_not_due hidle hnow
    rw [hnext]
    exact Int.le_trans hdue (Int.le_max_left _ _)

theorem Chain.neverLost (h : Chain d) : NeverLost d where
  groups := by
    intro e he g hg hsupported
    have hself : d.current.remoteCache.find? e.1 = some e :=
      SortedMap.find?_eq_some.mpr ⟨he, eqv_refl _⟩
    have hgroup : groupSupported d.current e.1 = true := by
      simp [groupSupported, HMRemoteHostGroupCache.isSupported, hg, hsupported]
    rcases (h.groups _ e hself hgroup).resolve_right id with ⟨w, hw, hown⟩ | ⟨hidle, t, ht, hown⟩
    · cases w with
      | remoteCheck w => exact Or.inl ⟨w, hw, hown⟩
      | dnsLookup w => exact hown.elim
      | healthCheck w => exact hown.elim
      | remoteHostCheck w => exact hown.elim
    · cases t with
      | remoteCheck name time =>
        rcases hown with ⟨rfl, hdue⟩
        exact Or.inr ⟨time, ht, nextCheckTime_le_max hidle hdue⟩
      | dns t => exact hown.elim
      | remoteHostCheck key time => exact hown.elim
  hosts := by
    intro e he hsupported
    have hself : d.current.remoteHostCache.find? e.1 = some e :=
      SortedMap.find?_eq_some.mpr ⟨he, eqv_refl _⟩
    rcases (h.hosts _ e hself hsupported).resolve_right id with ⟨w, hw, hown⟩ | ⟨hidle, t, ht, hown⟩
    · cases w with
      | remoteHostCheck w => exact Or.inl ⟨w, hw, hown⟩
      | dnsLookup w => exact hown.elim
      | healthCheck w => exact hown.elim
      | remoteCheck w => exact hown.elim
    · cases t with
      | remoteHostCheck key time =>
        exact Or.inr ⟨key, time, ht, hown.1, nextCheckTime_le_max hidle hown.2.2⟩
      | dns t => exact hown.elim
      | remoteCheck name time => exact hown.elim

/-- In every run from a loaded state whose reloads all keep the entries of the new
configuration, no remote check is ever lost. -/
theorem remote_checks_never_lost {s : HMState} {now : HMTimeStamp} {es : List Daemon.Event}
    {d : Daemon} (hidle : Idle s) (halong : Along Daemon.step Unbroken (Daemon.start s now) es)
    (hrun : runTrace Daemon.step (Daemon.start s now) es = some d) : NeverLost d := by
  have hchain : Chain d :=
    invariant_of_step (fun h hcond hstep => step_chain h hcond hstep) (chain_start hidle now)
      halong hrun
  exact hchain.neverLost

/-- A group that is fetched as a whole and one whose hosts are fetched one by one. -/
def sampleGroups (ttl : UInt64) : HMDataHostGroupMap :=
  (SortedMap.empty.insert (bytes "pool")
    { HMDataHostGroup.new (bytes "pool") with
      hosts := [bytes "a"], remoteCheck := bytes "r", flowType := .remoteHostgroup,
      checkTTL := ttl }).insert (bytes "web")
    { HMDataHostGroup.new (bytes "web") with
      hosts := [bytes "b"], remoteCheck := bytes "r", flowType := .remoteHost, checkTTL := ttl }

def sampleStart : HMState := generateCheckList .default (sampleGroups 30000)

/-- A remote check that gets no results. -/
def sampleOutcome : RemoteOutcome := ⟨.completeRemote, [], ⟨.failed, .none, 0, 0, 0, 0, 0⟩⟩

/-- Both entries are checked and their timeouts popped; a reload gives them a longer time to
live while their checks are queued, and another one a shorter. -/
def sampleRun : List Daemon.Event :=
  [.processRemote 0 sampleOutcome, .processRemoteHost 0 sampleOutcome, .advance 30000, .pop 0,
    .pop 0, .reload .default (sampleGroups 60000), .processRemote 0 sampleOutcome,
    .processRemoteHost 0 sampleOutcome, .reload .default (sampleGroups 20000), .advance 20000]

theorem sampleRun_never_loses :
    Along Daemon.step Unbroken (Daemon.start sampleStart 1000000) sampleRun ∧
    ∃ d, runTrace Daemon.step (Daemon.start sampleStart 1000000) sampleRun = some d ∧
      NeverLost d := by
  have hidle : Idle sampleStart := (fresh_generateCheckList .default (sampleGroups 30000)).toIdle
  have halong : Along Daemon.step Unbroken (Daemon.start sampleStart 1000000) sampleRun := by
    decide +kernel
  have hsome : (runTrace Daemon.step (Daemon.start sampleStart 1000000) sampleRun).isSome =
      true := by
    decide +kernel
  rcases Option.isSome_iff_exists.mp hsome with ⟨d, hd⟩
  exact ⟨halong, d, hd, remote_checks_never_lost hidle halong hd⟩

/-- A group of a supported type for which nothing is queued and nothing is on the heap. -/
def isGroupLost (d : Daemon) (name : HMString) : Bool :=
  d.current.remoteCache.contains name && groupSupported d.current name &&
  (d.works.all fun w =>
    match w with
    | .remoteCheck w => w.hostname ≠ name
    | _ => true) &&
  d.timeouts.all fun t =>
    match t with
    | .remoteCheck name' _ => name' ≠ name
    | _ => true

theorem not_neverLost_of_isGroupLost {name : HMString} (h : isGroupLost d name = true) :
    ¬ NeverLost d := by
  intro hnever
  simp only [isGroupLost, Bool.and_eq_true, List.all_eq_true] at h
  rcases h with ⟨⟨⟨hcontains, hsupported⟩, hworks⟩, htimeouts⟩
  rcases Option.isSome_iff_exists.mp hcontains with ⟨e, he⟩
  obtain rfl : e.1 = name := eqv_iff_eq.mp (SortedMap.find?_eqv he)
  simp only [groupSupported, HMRemoteHostGroupCache.isSupported, Option.any_eq_true] at hsupported
  rcases hsupported with ⟨g, hg, htype⟩
  rcases hnever.groups e (SortedMap.mem_of_find? he) g hg htype with ⟨w, hw, hname⟩ | ⟨time, ht, -⟩
  · simpa [hname] using hworks _ hw
  · simpa using htimeouts _ ht

/-- A reload gives a checked group a longer time to live; its timeout is then popped before
the group is due. -/
def losingRun : List Daemon.Event :=
  [.processRemote 0 sampleOutcome, .processRemoteHost 0 sampleOutcome,
    .reload .default (sampleGroups 60000), .advance 30000, .pop 0]

theorem losingRun_loses_remote_checks :
    Idle sampleStart ∧
    ∃ d, runTrace Daemon.step (Daemon.start sampleStart 1000000) losingRun = some d ∧
      ¬ NeverLost d := by
  refine ⟨(fresh_generateCheckList .default (sampleGroups 30000)).toIdle, ?_⟩
  have hlost : (runTrace Daemon.step (Daemon.start sampleStart 1000000) losingRun).any
      (fun d => isGroupLost d (bytes "pool")) = true := by
    decide +kernel
  rw [Option.any_eq_true] at hlost
  rcases hlost with ⟨d, hd, hd'⟩
  exact ⟨d, hd, not_neverLost_of_isGroupLost hd'⟩

end RemoteChain
