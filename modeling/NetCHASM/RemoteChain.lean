import NetCHASM.Daemon
import NetCHASM.Library.PendingWork

/-! The chains of remote checks. Both caches keep their entries going as the DNS cache does,
by a queued work or by a timeout that is not earlier than the next check. Nothing queues
the entries whose time to live grows at a reload, so there the old timeout may be too
early, and is dropped when it is popped. -/
namespace RemoteChain

open NetCHASM OrderedMap KeyOrder PendingWork HMState

def dueTime (r : HMRemoteResult) : HMTimeStamp := r.resultTime.plus r.remoteTTL

/-! One cache. -/

section Cache

variable {K : Type} [Ordered K]

/-- The works and the timeouts that concern the entries of a cache. -/
structure Lane (K : Type) [Ordered K] where
  isWork : K → Work → Prop
  isTimeout : K → HMTimeStamp → Timeout → Prop
  work_congr : ∀ {k k' w}, eqv k k' = true → isWork k w → isWork k' w
  timeout_congr : ∀ {k k' due due' t}, eqv k k' = true → due' ≤ due → isTimeout k due t →
    isTimeout k' due' t

def CheckKept (L : Lane K) (works : List Work) (timeouts : List Timeout) (e : K × HMRemoteResult) :
    Prop :=
  Kept (L.isWork e.1) (L.isTimeout e.1 (dueTime e.2)) (e.2.checkState.isIdle = true) works timeouts

/-- Every entry of a supported type is kept, or is one of those that are still to be queued. -/
def ChainBut (L : Lane K) (c : RemoteCache K) (supported : K → Bool) (works : List Work)
    (timeouts : List Timeout) (owed : K × HMRemoteResult → Prop) : Prop :=
  ∀ k e, c.find? k = some e → supported e.1 = true → CheckKept L works timeouts e ∨ owed e

/-- The second cache is the first with some entries queued, those of the listed keys. -/
def Queues (c c' : RemoteCache K) (ks : List K) : Prop :=
  ∀ k e', c'.find? k = some e' → ∃ e, c.find? k = some e ∧ e'.1 = e.1 ∧
    (e'.2 = e.2 ∨ e'.2 = e.2.queueCheck ∧ e.1 ∈ ks)

variable {L : Lane K} {c c' : RemoteCache K} {supported visited : K → Bool} {ks : List K}
  {works works' : List Work} {timeouts timeouts' : List Timeout}
  {owed owed' : K × HMRemoteResult → Prop} {key k : K} {e : K × HMRemoteResult} {now : HMTimeStamp}

theorem queues_queueRemoteCheck (c : RemoteCache K) (key : K) (supported : K → Bool) :
    Queues c (c.queueRemoteCheck key supported).1 (c.queueRemoteCheck key supported).2.toList := by
  have hsame : ∀ ks, Queues c c ks := fun ks k e he => ⟨e, he, rfl, Or.inl rfl⟩
  unfold RemoteCache.queueRemoteCheck
  split
  · exact hsame _
  · rename_i e he
    split
    · intro k e' he'
      rw [SortedMap.find?_modify] at he'
      split at he'
      · rename_i hk
        rw [← SortedMap.find?_congr _ hk, he] at he'
        obtain rfl := Option.some.inj he'
        refine ⟨e, (SortedMap.find?_congr _ hk).symm.trans he, rfl, Or.inr ⟨rfl, ?_⟩⟩
        exact List.mem_singleton_self _
      · exact ⟨e', he', rfl, Or.inl rfl⟩
    · exact hsame _

theorem mem_queueRemoteCheck (he : c.find? key = some e) (hsupported : supported e.1 = true) :
    e.1 ∈ (c.queueRemoteCheck key supported).2.toList := by
  simp [RemoteCache.queueRemoteCheck, he, hsupported]

theorem queues_queueRemoteLookups (c : RemoteCache K) (visited supported : K → Bool)
    (restart : Bool) (now : HMTimeStamp) :
    Queues c (c.queueRemoteLookups visited supported restart now).1
      (c.queueRemoteLookups visited supported restart now).2.1 := by
  intro k e' he'
  simp only [RemoteCache.queueRemoteLookups, SortedMap.find?_mapVals] at he'
  rcases Option.map_eq_some_iff.mp he' with ⟨e, he, rfl⟩
  refine ⟨e, he, rfl, ?_⟩
  dsimp only
  split
  · rename_i hqueued
    refine Or.inr ⟨rfl, ?_⟩
    exact List.mem_map_of_mem (List.mem_filter.mpr ⟨SortedMap.mem_of_find? he, hqueued⟩)
  · exact Or.inl rfl

theorem mem_queueRemoteLookups (restart : Bool) (he : c.find? k = some e)
    (hvisited : visited e.1 = true) (hsupported : supported e.1 = true)
    (hidle : e.2.checkState.isIdle = true) (hdue : QueuedAt now (dueTime e.2)) :
    e.1 ∈ (c.queueRemoteLookups visited supported restart now).2.1 := by
  have hstate : scheduleState (some (e.2.checkState, e.2.nextCheckTime now)) now = .event ∨
      scheduleState (some (e.2.checkState, e.2.nextCheckTime now)) now = .work :=
    scheduleState_of_queuedAt hidle hdue
  have hqueued : RemoteCache.isCheckQueued supported now e.1 e.2 = true := by
    simp only [RemoteCache.isCheckQueued, hsupported, Bool.and_true]
    rcases hstate with h | h
    · simp [h]
    · simp [h]
  exact List.mem_map_of_mem (List.mem_filter.mpr
    ⟨SortedMap.mem_of_find? he, by simp [hvisited, hqueued]⟩)

theorem ChainBut.mono (h : ChainBut L c supported works timeouts owed) (hworks : works ⊆ works')
    (htimeouts : timeouts ⊆ timeouts') : ChainBut L c supported works' timeouts' owed := by
  intro k e he hsupported
  rcases h k e he hsupported with hkept | ho
  · exact Or.inl (Kept.mono hkept (fun _ => id) (fun _ => id) id hworks htimeouts)
  · exact Or.inr ho

/-- Queueing keeps the chain, and pays for the entries it queues. -/
theorem ChainBut.queue (h : ChainBut L c supported works timeouts owed) (hq : Queues c c' ks)
    (hworks : works ⊆ works') (hks : ∀ k ∈ ks, ∃ w ∈ works', L.isWork k w)
    (howed : ∀ k e, c.find? k = some e → supported e.1 = true → owed e → owed' e ∨ e.1 ∈ ks) :
    ChainBut L c' supported works' timeouts owed' := by
  intro k e' he' hsupported
  obtain ⟨e, he, hkey, hvalue⟩ := hq k e' he'
  have hqueued : e.1 ∈ ks → CheckKept L works' timeouts e' := by
    intro hmem
    obtain ⟨w, hw, hown⟩ := hks e.1 hmem
    exact Kept.of_work hw (hkey ▸ hown)
  rcases hvalue with hsame | ⟨-, hmem⟩
  · obtain rfl : e' = e := Prod.ext hkey hsame
    rcases h k e' he hsupported with hkept | ho
    · exact Or.inl (Kept.mono hkept (fun _ => id) (fun _ => id) id hworks (List.Subset.refl _))
    · rcases howed k e' he hsupported ho with hstill | hmem
      · exact Or.inr hstill
      · exact Or.inl (hqueued hmem)
  · exact Or.inl (hqueued hmem)

/-- Taking a work from the queue leaves the entries it is for. -/
theorem ChainBut.eraseWork (h : ChainBut L c supported works timeouts fun _ => False) {i : ℕ}
    {w : Work} (hw : works[i]? = some w) :
    ChainBut L c supported (works.eraseIdx i) timeouts fun e => L.isWork e.1 w := by
  intro k e he hsupported
  have hkept := (h k e he hsupported).resolve_right id
  by_cases hown : L.isWork e.1 w
  · exact Or.inr hown
  · exact Or.inl (Kept.eraseWork hkept hw hown)

/-- Taking a timeout from the heap leaves the idle entries it is for. -/
theorem ChainBut.eraseTimeout (h : ChainBut L c supported works timeouts fun _ => False) {i : ℕ}
    {t : Timeout} (ht : timeouts[i]? = some t) :
    ChainBut L c supported works (timeouts.eraseIdx i) fun e =>
      e.2.checkState.isIdle = true ∧ L.isTimeout e.1 (dueTime e.2) t := by
  intro k e he hsupported
  have hkept := (h k e he hsupported).resolve_right id
  by_cases hown : e.2.checkState.isIdle = true ∧ L.isTimeout e.1 (dueTime e.2) t
  · exact Or.inr hown
  · exact Or.inl (Kept.eraseTimeout hkept ht hown)

theorem ChainBut.none_owed (h : ChainBut L c supported works timeouts owed)
    (howed : ∀ k e, c.find? k = some e → supported e.1 = true → ¬ owed e) :
    ChainBut L c supported works timeouts fun _ => False := by
  intro k e he hsupported
  exact (h k e he hsupported).imp id (howed k e he hsupported)

theorem find?_finishCheck (c : RemoteCache K) (key k : K) (now : HMTimeStamp) :
    ((c.startRemoteCheck key now).finishCheck key true now).find? k =
      if eqv key k then (c.find? k).map fun e => (e.1, (e.2.startCheck now).finishCheck true now)
      else c.find? k := by
  rw [RemoteCache.finishCheck, RemoteCache.startRemoteCheck, SortedMap.modify_modify,
    SortedMap.find?_modify]

/-- A check that ends leaves its entry idle. -/
theorem ChainBut.finish (h : ChainBut L c supported works timeouts fun e => eqv key e.1 = true)
    (now : HMTimeStamp) :
    ChainBut L ((c.startRemoteCheck key now).finishCheck key true now) supported works timeouts
      fun e => eqv key e.1 = true ∧ e.2.checkState.isIdle = true := by
  intro k e' he' hsupported
  rw [find?_finishCheck] at he'
  split at he'
  · rename_i hk
    rcases Option.map_eq_some_iff.mp he' with ⟨e, he, rfl⟩
    have hkey : eqv key e.1 = true := eqv_trans hk (eqv_symm (SortedMap.find?_eqv he))
    exact Or.inr ⟨hkey, rfl⟩
  · rename_i hk
    rcases h k e' he' hsupported with hkept | hown
    · exact Or.inl hkept
    · exact absurd (eqv_trans hown (SortedMap.find?_eqv he')) hk

theorem find?_of_eqv (he : c.find? k = some e) (hkey : eqv key e.1 = true) :
    c.find? key = some e :=
  (SortedMap.find?_congr _ (eqv_trans hkey (SortedMap.find?_eqv he))).trans he

/-- A check that is not due yet is given a timeout. -/
theorem ChainBut.arm (h : ChainBut L c supported works timeouts fun e =>
      eqv key e.1 = true ∧ e.2.checkState.isIdle = true)
    (hlate : ¬ c.nextCheckTime key now ≤ now) {t : Timeout}
    (ht : ∀ k e, c.find? k = some e → supported e.1 = true → eqv key e.1 = true →
      L.isTimeout key (c.nextCheckTime key now) t) :
    ChainBut L c supported works (timeouts ++ [t]) fun _ => False := by
  intro k e he hsupported
  rcases h k e he hsupported with hkept | ⟨hkey, hidle⟩
  · exact Or.inl (Kept.mono hkept (fun _ => id) (fun _ => id) id (List.Subset.refl _)
      (List.subset_append_left _ _))
  · have hnext : c.nextCheckTime key now = e.2.nextCheckTime now := by
      have hget : SortedMap.get? c key = some e.2 := by
        simp [SortedMap.get?, find?_of_eqv he hkey]
      simp [RemoteCache.nextCheckTime, hget]
    have htimeout := ht k e he hsupported hkey
    rw [hnext] at hlate htimeout
    have hdue : ¬ dueTime e.2 ≤ now := fun hle => hlate ((nextTime_le_iff hidle).mpr hle)
    have htime : e.2.nextCheckTime now = dueTime e.2 := nextTime_of_not_due hidle hdue
    rw [htime] at htimeout
    exact Or.inl (Kept.of_timeout hidle (List.mem_append_right _ (List.mem_singleton_self _))
      (L.timeout_congr hkey (Int.le_refl _) htimeout))

/-- An idle entry that is due is checked. -/
theorem checkNeeded_of_due (he : c.find? key = some e) (hidle : e.2.checkState.isIdle = true)
    (hdue : dueTime e.2 ≤ now) : c.checkNeeded key now = .work := by
  have hget : SortedMap.get? c key = some e.2 := by simp [SortedMap.get?, he]
  rw [RemoteCache.checkNeeded, hget]
  exact (scheduleState_of_idle hidle).trans (if_pos hdue)

end Cache

/-! The two caches of the daemon. -/

def IsGroupWork (name : HMString) : Work → Prop
  | .remoteCheck w => w.hostname = name
  | _ => False

def IsGroupTimeout (name : HMString) (due : HMTimeStamp) : Timeout → Prop
  | .remoteCheck name' time => name' = name ∧ due ≤ time
  | _ => False

def groupLane : Lane HMString where
  isWork := IsGroupWork
  isTimeout := IsGroupTimeout
  work_congr := by
    intro k k' w hk h
    rwa [← eqv_iff_eq.mp hk]
  timeout_congr := by
    intro k k' due due' t hk hdue h
    rw [← eqv_iff_eq.mp hk]
    cases t with
    | remoteCheck name time => exact ⟨h.1, Int.le_trans hdue h.2⟩
    | dns t => exact h
    | remoteHostCheck key time => exact h

def IsHostWork (k : RemoteHostKey) : Work → Prop
  | .remoteHostCheck w => eqv ((w.hostname, w.hostCheck) : RemoteHostKey) k = true
  | _ => False

/-- A timeout whose check is of no supported type leads to no work. -/
def IsHostTimeout (k : RemoteHostKey) (due : HMTimeStamp) : Timeout → Prop
  | .remoteHostCheck key time =>
    eqv key k = true ∧ key.2.remoteCheckType.isSupported = true ∧ due ≤ time
  | _ => False

def hostLane : Lane RemoteHostKey where
  isWork := IsHostWork
  isTimeout := IsHostTimeout
  work_congr := by
    intro k k' w hk h
    cases w with
    | remoteHostCheck w => exact eqv_trans (b := k) h hk
    | dnsLookup w => exact h
    | healthCheck w => exact h
    | remoteCheck w => exact h
  timeout_congr := by
    intro k k' due due' t hk hdue h
    cases t with
    | remoteHostCheck key time => exact ⟨eqv_trans h.1 hk, h.2.1, Int.le_trans hdue h.2.2⟩
    | dns t => exact h
    | remoteCheck name time => exact h

def groupSupported (s : HMState) : HMString → Bool :=
  HMRemoteHostGroupCache.isSupported s.hostGroups

def hostSupported (k : RemoteHostKey) : Bool := k.2.remoteCheckType.isSupported

structure ChainOwing (groupOwed : HMString × HMRemoteResult → Prop)
    (hostOwed : RemoteHostKey × HMRemoteResult → Prop) (d : Daemon) : Prop where
  groups : ChainBut groupLane d.current.remoteCache (groupSupported d.current) d.works d.timeouts
    groupOwed
  hosts : ChainBut hostLane d.current.remoteHostCache hostSupported d.works d.timeouts hostOwed
  supported : ∀ {w}, Work.remoteHostCheck w ∈ d.works → w.hostCheck.remoteCheckType.isSupported = true

abbrev Chain : Daemon → Prop := ChainOwing (fun _ => False) fun _ => False

/-- A step that leaves the remote caches alone and takes nothing away. -/
structure Frame (d d' : Daemon) : Prop where
  hostGroups : d'.current.hostGroups = d.current.hostGroups
  remoteCache : d'.current.remoteCache = d.current.remoteCache
  remoteHostCache : d'.current.remoteHostCache = d.current.remoteHostCache
  works : d.works ⊆ d'.works
  timeouts : d.timeouts ⊆ d'.timeouts
  noNew : ∀ w, Work.remoteHostCheck w ∈ d'.works → Work.remoteHostCheck w ∈ d.works

variable {d d' d'' : Daemon} {groupOwed : HMString × HMRemoteResult → Prop}
  {hostOwed : RemoteHostKey × HMRemoteResult → Prop}

theorem Frame.refl (d : Daemon) : Frame d d :=
  ⟨rfl, rfl, rfl, List.Subset.refl _, List.Subset.refl _, fun _ => id⟩

theorem Frame.trans (h : Frame d d') (h' : Frame d' d'') : Frame d d'' where
  hostGroups := h'.hostGroups.trans h.hostGroups
  remoteCache := h'.remoteCache.trans h.remoteCache
  remoteHostCache := h'.remoteHostCache.trans h.remoteHostCache
  works := List.Subset.trans h.works h'.works
  timeouts := List.Subset.trans h.timeouts h'.timeouts
  noNew := fun w hw => h.noNew w (h'.noNew w hw)

theorem ChainOwing.frame (h : ChainOwing groupOwed hostOwed d) (hf : Frame d d') :
    ChainOwing groupOwed hostOwed d' where
  groups := by
    rw [groupSupported, hf.hostGroups, hf.remoteCache]
    exact h.groups.mono hf.works hf.timeouts
  hosts := by
    rw [hf.remoteHostCache]
    exact h.hosts.mono hf.works hf.timeouts
  supported := fun hw => h.supported (hf.noNew _ hw)

theorem mem_of_append {ws : List Work} (hnot : ∀ w, Work.remoteHostCheck w ∉ ws) {w : RemoteWork}
    (hw : Work.remoteHostCheck w ∈ d.works ++ ws) : Work.remoteHostCheck w ∈ d.works := by
  rcases List.mem_append.mp hw with hw | hw
  · exact hw
  · exact absurd hw (hnot w)

theorem frame_putDNS (d : Daemon) (r : HMDNSCache × List DnsWork) : Frame d (d.putDNS r) :=
  ⟨rfl, rfl, rfl, List.subset_append_left _ _, List.Subset.refl _,
    fun _ hw => mem_of_append (by simp) hw⟩

theorem frame_addTimeout (d : Daemon) (t : Timeout) : Frame d (d.addTimeout t) :=
  ⟨rfl, rfl, rfl, List.Subset.refl _, List.subset_append_left _ _, fun _ => id⟩

theorem frame_queueDNSLookups (d : Daemon) (restart : Bool) :
    Frame d (d.queueDNSLookups restart) :=
  (frame_putDNS d _).trans
    ⟨rfl, rfl, rfl, List.Subset.refl _, List.subset_append_left _ _, fun _ => id⟩

theorem frame_rescheduleDNS (d : Daemon) (w : DnsWork) : Frame d (d.rescheduleDNS w) := by
  unfold Daemon.rescheduleDNS
  dsimp only
  split
  · exact Frame.refl d
  · split
    · exact frame_putDNS d _
    · exact frame_addTimeout d _

theorem frame_putHealth (d : Daemon) (r : HMDataCheckList × List HealthWork) :
    Frame d (d.putHealth r) :=
  ⟨rfl, rfl, rfl, List.subset_append_left _ _, List.Subset.refl _,
    fun _ hw => mem_of_append (by simp) hw⟩

theorem frame_processDNS (d : Daemon) (w : DnsWork) (o : DnsOutcome) :
    Frame d (d.processDNS w o) := by
  unfold Daemon.processDNS
  dsimp only
  split
  · exact ((frame_putDNS d _).trans (frame_rescheduleDNS _ w)).trans (frame_putHealth _ _)
  · exact Frame.refl d

theorem frame_remoteFallback (d : Daemon) (w : RemoteWork) (o : RemoteOutcome)
    (hosts : List HMString) : Frame d (d.remoteFallback w o hosts) := by
  unfold Daemon.remoteFallback
  split
  · exact frame_putDNS d _
  · exact Frame.refl d

/-- Queueing the check of a group. -/
theorem ChainOwing.queueRemoteCheck (h : ChainOwing groupOwed hostOwed d) {name : HMString}
    (howed : ∀ k e, d.current.remoteCache.find? k = some e → groupSupported d.current e.1 = true →
      groupOwed e → e.1 = name) :
    ChainOwing (fun _ => False) hostOwed (d.queueRemoteCheck name) := by
  have hworks : d.works ⊆ (d.queueRemoteCheck name).works := List.subset_append_left _ _
  refine ⟨?_, h.hosts.mono hworks (List.Subset.refl _), ?_⟩
  · refine h.groups.queue (queues_queueRemoteCheck d.current.remoteCache name
      (groupSupported d.current)) hworks ?_ ?_
    · intro k hk
      refine ⟨.remoteCheck (HMRemoteHostGroupCache.work d.current.hostGroups k), ?_, rfl⟩
      refine List.mem_append_right _ (List.mem_map_of_mem ?_)
      simp only [HMRemoteHostGroupCache.queueRemoteCheck, Option.mem_toList] at hk ⊢
      exact Option.map_eq_some_iff.mpr ⟨k, hk, rfl⟩
    · intro k e he hsupported ho
      have hname := howed k e he hsupported ho
      have hkey : eqv name e.1 = true := by
        rw [hname]
        exact eqv_refl _
      exact Or.inr (mem_queueRemoteCheck (find?_of_eqv he hkey) hsupported)
  · intro w hw
    exact h.supported (mem_of_append (by simp) hw)

/-- Queueing the check of a host, of a supported type. -/
theorem ChainOwing.queueRemoteHostCheck (h : ChainOwing groupOwed hostOwed d) {key : RemoteHostKey}
    (howed : ∀ k e, d.current.remoteHostCache.find? k = some e → hostSupported e.1 = true →
      hostOwed e → eqv key e.1 = true ∧ hostSupported key = true) :
    ChainOwing groupOwed (fun _ => False) (d.queueRemoteHostCheck key) := by
  have hworks : d.works ⊆ (d.queueRemoteHostCheck key).works := List.subset_append_left _ _
  have hnew : ∀ k ∈ (RemoteCache.queueRemoteCheck d.current.remoteHostCache key
        fun _ => hostSupported key).2,
      Work.remoteHostCheck ⟨key.1, key.2⟩ ∈ (d.queueRemoteHostCheck key).works ∧
        eqv key k = true ∧ hostSupported key = true := by
    intro k hk
    refine ⟨List.mem_append_right _ (List.mem_map_of_mem ?_), ?_⟩
    · simp only [HMRemoteHostCache.queueRemoteCheck, Option.mem_toList, Option.mem_def] at hk ⊢
      exact Option.map_eq_some_iff.mpr ⟨k, hk, rfl⟩
    · unfold RemoteCache.queueRemoteCheck at hk
      split at hk
      · cases hk
      · rename_i e he
        split at hk
        · rename_i hsupported
          obtain rfl := Option.some.inj hk
          exact ⟨eqv_symm (SortedMap.find?_eqv he), hsupported⟩
        · cases hk
  refine ⟨h.groups.mono hworks (List.Subset.refl _), ?_, ?_⟩
  · refine h.hosts.queue (queues_queueRemoteCheck d.current.remoteHostCache key
      fun _ => hostSupported key) hworks ?_ ?_
    · intro k hk
      rcases hnew k (Option.mem_toList.mp hk) with ⟨hmem, hkey, -⟩
      exact ⟨_, hmem, hkey⟩
    · intro k e he hsupported ho
      obtain ⟨hkey, htype⟩ := howed k e he hsupported ho
      exact Or.inr (mem_queueRemoteCheck (find?_of_eqv he hkey) htype)
  · intro w hw
    rcases List.mem_append.mp hw with hw | hw
    · exact h.supported hw
    · rcases List.mem_map.mp hw with ⟨w', hw', heq⟩
      obtain rfl := Work.remoteHostCheck.inj heq
      simp only [HMRemoteHostCache.queueRemoteCheck, Option.mem_toList, Option.map_eq_some_iff]
        at hw'
      rcases hw' with ⟨k, hk, rfl⟩
      exact (hnew k hk).2.2

/-- Popping a timeout leaves an entry to it only if the entry is then checked. -/
theorem Chain.pop {t : Timeout} {i : ℕ} (h : Chain d) (ht : d.timeouts[i]? = some t)
    (hdue : t.time ≤ d.now) :
    Chain ({ d with timeouts := d.timeouts.eraseIdx i }.handleTimeout t) := by
  have hgroups := h.groups.eraseTimeout ht
  have hhosts := h.hosts.eraseTimeout ht
  cases t with
  | dns t =>
    have hchain : Chain { d with timeouts := d.timeouts.eraseIdx i } :=
      ⟨hgroups.none_owed fun _ _ _ _ ho => ho.2, hhosts.none_owed fun _ _ _ _ ho => ho.2, h.supported⟩
    simp only [Daemon.handleTimeout]
    split
    · exact hchain.frame (frame_putDNS _ _)
    · exact hchain.frame (frame_addTimeout _ _)
    · exact hchain
  | remoteCheck name time =>
    have howing : ChainOwing (fun e => e.2.checkState.isIdle = true ∧
        IsGroupTimeout e.1 (dueTime e.2) (.remoteCheck name time)) (fun _ => False)
        { d with timeouts := d.timeouts.eraseIdx i } :=
      ⟨hgroups, hhosts.none_owed fun _ _ _ _ ho => ho.2, h.supported⟩
    have hwork : ∀ k e, d.current.remoteCache.find? k = some e → e.2.checkState.isIdle = true ∧
        IsGroupTimeout e.1 (dueTime e.2) (.remoteCheck name time) →
        RemoteCache.checkNeeded d.current.remoteCache name d.now = .work := by
      rintro k e he ⟨hidle, hname, hle⟩
      have hkey : eqv name e.1 = true := by
        rw [hname]
        exact eqv_refl _
      exact checkNeeded_of_due (find?_of_eqv he hkey) hidle (Int.le_trans hle hdue)
    have hnone : RemoteCache.checkNeeded d.current.remoteCache name d.now ≠ .work →
        Chain { d with timeouts := d.timeouts.eraseIdx i } := fun hnot =>
      ⟨howing.groups.none_owed fun k e he _ ho => hnot (hwork k e he ho), howing.hosts, h.supported⟩
    simp only [Daemon.handleTimeout]
    split
    · exact howing.queueRemoteCheck fun _ _ _ _ ho => ho.2.1.symm
    · rename_i hevent
      exact (hnone (by simp [hevent])).frame (frame_addTimeout _ _)
    · rename_i hignore
      exact hnone (by simp [hignore])
  | remoteHostCheck key time =>
    have howing : ChainOwing (fun _ => False) (fun e => e.2.checkState.isIdle = true ∧
        IsHostTimeout e.1 (dueTime e.2) (.remoteHostCheck key time))
        { d with timeouts := d.timeouts.eraseIdx i } :=
      ⟨hgroups.none_owed fun _ _ _ _ ho => ho.2, hhosts, h.supported⟩
    have hwork : ∀ k e, d.current.remoteHostCache.find? k = some e →
        e.2.checkState.isIdle = true ∧
        IsHostTimeout e.1 (dueTime e.2) (.remoteHostCheck key time) →
        d.current.remoteHostCache.checkNeeded key d.now = .work := by
      rintro k e he ⟨hidle, hkey, -, hle⟩
      exact checkNeeded_of_due (find?_of_eqv he hkey) hidle (Int.le_trans hle hdue)
    have hnone : d.current.remoteHostCache.checkNeeded key d.now ≠ .work →
        Chain { d with timeouts := d.timeouts.eraseIdx i } := fun hnot =>
      ⟨howing.groups, howing.hosts.none_owed fun k e he _ ho => hnot (hwork k e he ho), h.supported⟩
    simp only [Daemon.handleTimeout]
    split
    · exact howing.queueRemoteHostCheck fun _ _ _ _ ho => ⟨ho.2.1, ho.2.2.1⟩
    · rename_i hevent
      exact (hnone (by simp [hevent])).frame (frame_addTimeout _ _)
    · rename_i hignore
      exact hnone (by simp [hignore])

/-- Taking a work of another kind from the queue. -/
theorem Chain.eraseOther {w : Work} {i : ℕ} (h : Chain d) (hw : d.works[i]? = some w)
    (hgroup : ∀ v, w ≠ .remoteCheck v) (hhost : ∀ v, w ≠ .remoteHostCheck v) :
    Chain { d with works := d.works.eraseIdx i } := by
  refine ⟨(h.groups.eraseWork hw).none_owed ?_, (h.hosts.eraseWork hw).none_owed ?_,
    fun hv => h.supported (List.mem_of_mem_eraseIdx hv)⟩
  · intro k e _ _ ho
    cases w with
    | remoteCheck w => exact hgroup w rfl
    | dnsLookup w => exact ho
    | healthCheck w => exact ho
    | remoteHostCheck w => exact ho
  · intro k e _ _ ho
    cases w with
    | remoteHostCheck w => exact hhost w rfl
    | dnsLookup w => exact ho
    | healthCheck w => exact ho
    | remoteCheck w => exact ho

theorem Chain.processRemote {w : RemoteWork} {i : ℕ} (h : Chain d)
    (hw : d.works[i]? = some (.remoteCheck w)) (o : RemoteOutcome) :
    Chain ({ d with works := d.works.eraseIdx i }.processRemote w o) := by
  have hsupported : ∀ {v}, Work.remoteHostCheck v ∈ d.works.eraseIdx i →
      v.hostCheck.remoteCheckType.isSupported = true :=
    fun hv => h.supported (List.mem_of_mem_eraseIdx hv)
  have hhosts := (h.hosts.eraseWork hw).none_owed fun _ _ _ _ ho => ho
  have hgroups : ChainBut groupLane d.current.remoteCache (groupSupported d.current)
      (d.works.eraseIdx i) d.timeouts fun e => eqv w.hostname e.1 = true := by
    intro k e he hs
    apply (h.groups.eraseWork hw k e he hs).imp id
    intro ho
    have hname : w.hostname = e.1 := ho
    rw [hname]
    exact eqv_refl _
  unfold Daemon.processRemote
  dsimp only
  split
  · refine ChainOwing.frame ?_ (frame_remoteFallback _ _ _ _)
    have howing : ChainOwing (fun e => eqv w.hostname e.1 = true ∧ e.2.checkState.isIdle = true)
        (fun _ => False) ({ d with works := d.works.eraseIdx i }.putRemote
          ((RemoteCache.finishCheck (RemoteCache.startRemoteCheck d.current.remoteCache w.hostname
            d.now) w.hostname true d.now), [])) := by
      refine ⟨?_, ?_, ?_⟩
      · exact (hgroups.finish d.now).mono (List.subset_append_left _ _) (List.Subset.refl _)
      · exact hhosts.mono (List.subset_append_left _ _) (List.Subset.refl _)
      · exact fun hv => hsupported (mem_of_append (by simp) hv)
    split
    · exact howing.queueRemoteCheck fun _ _ _ _ ho => (eqv_iff_eq.mp ho.1).symm
    · rename_i hlate
      refine ⟨?_, ?_, howing.supported⟩
      · exact howing.groups.arm hlate fun _ _ _ _ _ => ⟨rfl, Int.le_refl _⟩
      · exact howing.hosts.mono (List.Subset.refl _) (List.subset_append_left _ _)
  · rename_i hmissing
    refine ⟨hgroups.none_owed ?_, hhosts, hsupported⟩
    intro k e he _ hkey
    simp [SortedMap.contains, find?_of_eqv he hkey] at hmissing

theorem Chain.processRemoteHost {w : RemoteWork} {i : ℕ} (h : Chain d)
    (hw : d.works[i]? = some (.remoteHostCheck w)) (o : RemoteOutcome) :
    Chain ({ d with works := d.works.eraseIdx i }.processRemoteHost w o) := by
  have htype : w.hostCheck.remoteCheckType.isSupported = true :=
    h.supported (List.mem_of_getElem? hw)
  have hsupported : ∀ {v}, Work.remoteHostCheck v ∈ d.works.eraseIdx i →
      v.hostCheck.remoteCheckType.isSupported = true :=
    fun hv => h.supported (List.mem_of_mem_eraseIdx hv)
  have hgroups := (h.groups.eraseWork hw).none_owed fun _ _ _ _ ho => ho
  have hhosts : ChainBut hostLane d.current.remoteHostCache hostSupported (d.works.eraseIdx i)
      d.timeouts fun e => eqv ((w.hostname, w.hostCheck) : RemoteHostKey) e.1 = true :=
    h.hosts.eraseWork hw
  unfold Daemon.processRemoteHost
  dsimp only
  split
  · refine ChainOwing.frame ?_ (frame_remoteFallback _ _ _ _)
    have hput : ChainOwing (fun _ => False)
        (fun e => eqv ((w.hostname, w.hostCheck) : RemoteHostKey) e.1 = true ∧
          e.2.checkState.isIdle = true)
        ({ d with works := d.works.eraseIdx i }.putRemoteHost
          ((d.current.remoteHostCache.startRemoteCheck (w.hostname, w.hostCheck) d.now).finishCheck
            (w.hostname, w.hostCheck) true d.now, [])) := by
      refine ⟨?_, ?_, ?_⟩
      · exact hgroups.mono (List.subset_append_left _ _) (List.Subset.refl _)
      · exact (hhosts.finish d.now).mono (List.subset_append_left _ _) (List.Subset.refl _)
      · intro v hv
        simp only [Daemon.putRemoteHost, List.map_nil, List.append_nil] at hv
        exact hsupported hv
    have howing := fun r => hput.frame (frame_putHealth _ r)
    split
    · exact (howing _).queueRemoteHostCheck fun _ _ _ _ ho => ⟨ho.1, htype⟩
    · rename_i hlate
      refine ⟨?_, ?_, ?_⟩
      · exact (howing (_, [])).groups.mono (List.Subset.refl _) (List.subset_append_left _ _)
      · exact (howing (_, [])).hosts.arm hlate fun _ _ _ _ _ => ⟨eqv_refl _, htype, Int.le_refl _⟩
      · intro v hv
        exact (howing (_, [])).supported hv
  · rename_i hmissing
    refine ⟨hgroups, hhosts.none_owed ?_, hsupported⟩
    intro k e he _ hkey
    simp [SortedMap.contains, find?_of_eqv he hkey] at hmissing

end RemoteChain
