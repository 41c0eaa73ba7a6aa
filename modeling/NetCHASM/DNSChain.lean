import NetCHASM.Daemon
import NetCHASM.ReloadDNS
import NetCHASM.Library.PendingWork

/-! The chain of lookups of a host. An entry with a plugin is kept going by a queued lookup
or by a timeout that is not earlier than its next query; every step keeps it so, except a
reload that leaves an entry to a timeout it does not have, and a lookup whose work was
built from an entry without a plugin. -/
namespace DNSChain

open NetCHASM OrderedMap KeyOrder Runs PendingWork HMState ReloadDNS

/-- The entries that the daemon looks up on its own. -/
def enabled (k : DNSKey) : Bool := k.2.remoteCheckGroup = [] && k.2.plugin ≠ .none

def dueTime (r : HMDNSResult) : HMTimeStamp := r.resultTime.plus r.dnsTimeout

def IsLookup (k : DNSKey) : Work → Prop
  | .dnsLookup w => eqv (w.name, w.lookup) k = true ∧ w.lookup.plugin ≠ .none
  | _ => False

def IsDnsTimeout (k : DNSKey) (due : HMTimeStamp) : Timeout → Prop
  | .dns t => eqv (t.name, t.lookup) k = true ∧ t.lookup.plugin ≠ .none ∧ due ≤ t.time
  | _ => False

theorem IsLookup.congr {k k' : DNSKey} {w : Work} (hk : eqv k k' = true) (h : IsLookup k w) :
    IsLookup k' w := by
  cases w with
  | dnsLookup w => exact ⟨eqv_trans h.1 hk, h.2⟩
  | healthCheck w => exact h
  | remoteCheck w => exact h
  | remoteHostCheck w => exact h

theorem IsDnsTimeout.congr {k k' : DNSKey} {due due' : HMTimeStamp} {t : Timeout}
    (hk : eqv k k' = true) (hdue : due' ≤ due) (h : IsDnsTimeout k due t) :
    IsDnsTimeout k' due' t := by
  cases t with
  | dns t => exact ⟨eqv_trans h.1 hk, h.2.1, Int.le_trans hdue h.2.2⟩
  | remoteCheck name time => exact h
  | remoteHostCheck key time => exact h

/-- The next lookup of an entry is queued or on the heap. -/
def LookupKept (d : Daemon) (e : DNSKey × HMDNSResult) : Prop :=
  Kept (IsLookup e.1) (IsDnsTimeout e.1 (dueTime e.2)) (e.2.queryState.isIdle = true) d.works
    d.timeouts

/-- Lookups without a remote group are rescheduled when they end. -/
def Reschedules (w : DnsWork) : Prop := w.lookup.remoteCheckGroup = [] → w.reschedule = true

/-- Every entry is kept, or is one of those that are still to be queued. -/
structure ChainBut (owed : DNSKey × HMDNSResult → Prop) (d : Daemon) : Prop where
  kept : ∀ {k e}, d.current.dnsCache.cache.find? k = some e → enabled e.1 = true →
    LookupKept d e ∨ owed e
  reschedules : ∀ {w}, Work.dnsLookup w ∈ d.works → Reschedules w

abbrev Chain : Daemon → Prop := ChainBut fun _ => False

theorem Chain.intro {d : Daemon} (hkept : ∀ {k e}, d.current.dnsCache.cache.find? k = some e →
      enabled e.1 = true → LookupKept d e)
    (hworks : ∀ {w}, Work.dnsLookup w ∈ d.works → Reschedules w) : Chain d :=
  ⟨fun he henabled => Or.inl (hkept he henabled), hworks⟩

theorem Chain.lookupKept {d : Daemon} (h : Chain d) {k : DNSKey} {e : DNSKey × HMDNSResult}
    (he : d.current.dnsCache.cache.find? k = some e) (henabled : enabled e.1 = true) :
    LookupKept d e :=
  (h.kept he henabled).resolve_right id

/-- The second cache is the first with some entries queued, each with its work. -/
structure Queues (c c' : HMDNSCache) (works : List DnsWork) : Prop where
  entry : ∀ {k e'}, c'.cache.find? k = some e' → ∃ e, c.cache.find? k = some e ∧ e'.1 = e.1 ∧
    (e'.2 = e.2 ∨ e'.2 = e.2.queueQuery ∧ ∃ w ∈ works, (w.name, w.lookup) = e.1)
  keeps : ∀ {k e}, c.cache.find? k = some e → ∃ e', c'.cache.find? k = some e'
  reschedules : ∀ w ∈ works, Reschedules w

variable {c c' c'' : HMDNSCache} {works works' : List DnsWork}

theorem Queues.refl (c : HMDNSCache) : Queues c c [] where
  entry := fun {_ e'} h => ⟨e', h, rfl, Or.inl rfl⟩
  keeps := fun {_ e} h => ⟨e, h⟩
  reschedules := by simp

theorem Queues.trans (h₁ : Queues c c' works) (h₂ : Queues c' c'' works') :
    Queues c c'' (works ++ works') where
  entry := by
    intro k e'' he''
    obtain ⟨e', he', hkey', hvalue'⟩ := h₂.entry he''
    obtain ⟨e, he, hkey, hvalue⟩ := h₁.entry he'
    refine ⟨e, he, hkey'.trans hkey, ?_⟩
    rcases hvalue' with hsame' | ⟨hqueued', w, hw, hwkey⟩
    · rcases hvalue with hsame | ⟨hqueued, w, hw, hwkey⟩
      · exact Or.inl (hsame'.trans hsame)
      · exact Or.inr ⟨hsame'.trans hqueued, w, List.mem_append_left _ hw, hwkey⟩
    · have hagain : e''.2 = e.2.queueQuery := by
        rcases hvalue with hsame | ⟨hqueued, -⟩
        · rw [hqueued', hsame]
        · rw [hqueued', hqueued]
          rfl
      exact Or.inr ⟨hagain, w, List.mem_append_right _ hw, hwkey.trans hkey⟩
  keeps := by
    intro k e he
    obtain ⟨e', he'⟩ := h₁.keeps he
    exact h₂.keeps he'
  reschedules := by
    intro w hw
    rcases List.mem_append.mp hw with hw | hw
    · exact h₁.reschedules w hw
    · exact h₂.reschedules w hw

theorem queues_queueDNSQuery (c : HMDNSCache) (name : HMString) (lookup : HMDNSLookup) :
    Queues c (c.queueDNSQuery name lookup).1 (c.queueDNSQuery name lookup).2 := by
  unfold HMDNSCache.queueDNSQuery
  split
  · exact Queues.refl c
  · rename_i e he
    split
    · exact Queues.refl c
    · constructor
      · intro k e' he'
        rw [SortedMap.find?_modify] at he'
        split at he'
        · rename_i hk
          rw [← SortedMap.find?_congr _ hk, he] at he'
          obtain rfl := Option.some.inj he'
          refine ⟨e, (SortedMap.find?_congr _ hk).symm.trans he, rfl, Or.inr ⟨rfl, ?_⟩⟩
          exact ⟨_, List.mem_singleton_self _, rfl⟩
        · exact ⟨e', he', rfl, Or.inl rfl⟩
      · intro k e' he'
        rw [SortedMap.find?_modify, he']
        split
        · exact ⟨_, rfl⟩
        · exact ⟨_, rfl⟩
      · intro w hw hgroup
        obtain rfl := List.mem_singleton.mp hw
        exact decide_eq_true hgroup

/-- The lookup of an entry is queued unless the caller has no plugin. -/
theorem mem_queueDNSQuery {name : HMString} {lookup : HMDNSLookup} {e : DNSKey × HMDNSResult}
    (he : c.cache.find? (name, lookup) = some e) (hplugin : lookup.plugin ≠ .none) :
    ∃ w ∈ (c.queueDNSQuery name lookup).2, (w.name, w.lookup) = e.1 := by
  simp only [HMDNSCache.queueDNSQuery, he, hplugin, if_false]
  exact ⟨_, List.mem_singleton_self _, rfl⟩

/-- Queueing one lookup after another. -/
theorem queues_fold {f : HMDNSCache × List DnsWork → DNSKey → HMDNSCache × List DnsWork}
    (hf : ∀ acc l, ∃ works, (f acc l).2 = acc.2 ++ works ∧ Queues acc.1 (f acc l).1 works)
    (ls : List DNSKey) (acc : HMDNSCache × List DnsWork) :
    ∃ works, (ls.foldl f acc).2 = acc.2 ++ works ∧ Queues acc.1 (ls.foldl f acc).1 works := by
  induction ls generalizing acc with
  | nil => exact ⟨[], (List.append_nil _).symm, Queues.refl _⟩
  | cons l ls ih =>
    obtain ⟨works₁, hworks₁, hqueues₁⟩ := hf acc l
    obtain ⟨works₂, hworks₂, hqueues₂⟩ := ih (f acc l)
    refine ⟨works₁ ++ works₂, ?_, hqueues₁.trans hqueues₂⟩
    rw [List.foldl_cons, hworks₂, hworks₁, List.append_assoc]

theorem queues_forceLookups (s : HMState) (hosts : List HMString) (hostCheck : HMDataHostCheck) :
    Queues s.dnsCache (s.forceLookups hosts hostCheck).1.dnsCache
      (s.forceLookups hosts hostCheck).2 := by
  obtain ⟨works, hworks, hqueues⟩ := queues_fold
    (f := fun acc l => ((acc.1.queueDNSQuery l.1 l.2).1, acc.2 ++ (acc.1.queueDNSQuery l.1 l.2).2))
    (fun acc l => ⟨_, rfl, queues_queueDNSQuery acc.1 l.1 l.2⟩)
    (hosts.flatMap fun host => (s.checkLookups hostCheck).map fun l => (host, l)) (s.dnsCache, [])
  rw [List.nil_append] at hworks
  rw [← hworks] at hqueues
  exact hqueues

theorem queues_forceDNSCheck (s : HMState) (hostGroup : HMString) (hostName : Option HMString) :
    Queues s.dnsCache (s.forceDNSCheck hostGroup hostName).1.dnsCache
      (s.forceDNSCheck hostGroup hostName).2 := by
  unfold HMState.forceDNSCheck
  split
  · exact Queues.refl _
  · split
    · exact Queues.refl _
    · exact queues_forceLookups _ _ _

theorem queues_queueDNSLookups (c : HMDNSCache) (restart : Bool) (now : HMTimeStamp) :
    Queues c (c.queueDNSLookups restart now).1 (c.queueDNSLookups restart now).2.1 where
  entry := by
    intro k e' he'
    simp only [HMDNSCache.queueDNSLookups, SortedMap.find?_mapVals] at he'
    rcases Option.map_eq_some_iff.mp he' with ⟨e, he, rfl⟩
    refine ⟨e, he, rfl, ?_⟩
    dsimp only
    split
    · rename_i hqueued
      refine Or.inr ⟨rfl, ⟨e.1.1, e.1.2, true⟩, ?_, rfl⟩
      exact List.mem_map_of_mem (List.mem_filter.mpr ⟨SortedMap.mem_of_find? he, hqueued⟩)
    · exact Or.inl rfl
  keeps := by
    intro k e he
    simp only [HMDNSCache.queueDNSLookups, SortedMap.find?_mapVals, he]
    exact ⟨_, rfl⟩
  reschedules := by
    intro w hw _
    rcases List.mem_map.mp hw with ⟨e, -, rfl⟩
    rfl

/-- The loop over all entries queues the lookup of an entry that asks for it. -/
theorem mem_queueDNSLookups {k : DNSKey} {e : DNSKey × HMDNSResult} {now : HMTimeStamp}
    (restart : Bool) (he : c.cache.find? k = some e)
    (hqueued : HMDNSCache.isLookupQueued now e.1 e.2 = true) :
    ∃ w ∈ (c.queueDNSLookups restart now).2.1, (w.name, w.lookup) = e.1 :=
  ⟨⟨e.1.1, e.1.2, true⟩,
    List.mem_map_of_mem (List.mem_filter.mpr ⟨SortedMap.mem_of_find? he, hqueued⟩), rfl⟩

variable {d d' : Daemon} {r : HMDNSCache × List DnsWork} {k : DNSKey} {e e' : DNSKey × HMDNSResult}

/-- An entry stays kept if it was, or if its lookup is queued now. -/
theorem lookupKept_putDNS (hq : Queues d.current.dnsCache r.1 r.2)
    (he' : r.1.cache.find? k = some e') (henabled : enabled e'.1 = true)
    (hkept : d.current.dnsCache.cache.find? k = some e' →
      LookupKept d e' ∨ ∃ w ∈ r.2, (w.name, w.lookup) = e'.1) : LookupKept (d.putDNS r) e' := by
  obtain ⟨e, he, hkey, hvalue⟩ := hq.entry he'
  have hplugin : e'.1.2.plugin ≠ .none :=
    of_decide_eq_true ((Bool.and_eq_true _ _).mp henabled).2
  have hwork : (∃ w ∈ r.2, (w.name, w.lookup) = e'.1) → LookupKept (d.putDNS r) e' := by
    rintro ⟨w, hw, hwkey⟩
    refine Kept.of_work (w := .dnsLookup w) ?_ ⟨?_, ?_⟩
    · exact List.mem_append_right _ (List.mem_map_of_mem hw)
    · rw [hwkey]
      exact eqv_refl _
    · rw [← hwkey] at hplugin
      exact hplugin
  rcases hvalue with hsame | ⟨-, hqueued⟩
  · obtain rfl : e' = e := Prod.ext hkey hsame
    rcases hkept he with hbefore | hqueued
    · exact Kept.mono hbefore (fun _ => id) (fun _ => id) id (List.subset_append_left _ _)
        (List.Subset.refl _)
    · exact hwork hqueued
  · rw [← hkey] at hqueued
    exact hwork hqueued

theorem reschedules_putDNS (h : ∀ {w}, Work.dnsLookup w ∈ d.works → Reschedules w)
    (hq : ∀ w ∈ r.2, Reschedules w) {w : DnsWork} (hw : Work.dnsLookup w ∈ (d.putDNS r).works) :
    Reschedules w := by
  rcases List.mem_append.mp hw with hw | hw
  · exact h hw
  · rcases List.mem_map.mp hw with ⟨w', hw', heq⟩
    obtain rfl := Work.dnsLookup.inj heq
    exact hq w' hw'

variable {owed owed' : DNSKey × HMDNSResult → Prop}

theorem ChainBut.putDNS (h : ChainBut owed d) (hq : Queues d.current.dnsCache r.1 r.2)
    (howed : ∀ {k e}, d.current.dnsCache.cache.find? k = some e → enabled e.1 = true → owed e →
      owed' e ∨ ∃ w ∈ r.2, (w.name, w.lookup) = e.1) : ChainBut owed' (d.putDNS r) where
  kept := by
    intro k e he henabled
    by_cases hstill : owed' e
    · exact Or.inr hstill
    · refine Or.inl (lookupKept_putDNS hq he henabled ?_)
      intro hbefore
      rcases h.kept hbefore henabled with hkept | ho
      · exact Or.inl hkept
      · exact Or.inr ((howed hbefore henabled ho).resolve_left hstill)
  reschedules := reschedules_putDNS h.reschedules hq.reschedules

theorem Chain.putDNS (h : Chain d) (hq : Queues d.current.dnsCache r.1 r.2) :
    Chain (d.putDNS r) :=
  ChainBut.putDNS h hq fun _ _ => False.elim

/-- A step that leaves the DNS cache alone and takes nothing away keeps the chain. -/
theorem ChainBut.frame (h : ChainBut owed d)
    (hcache : d'.current.dnsCache.cache = d.current.dnsCache.cache)
    (hworks : d.works ⊆ d'.works) (htimeouts : d.timeouts ⊆ d'.timeouts)
    (hnew : ∀ w, Work.dnsLookup w ∈ d'.works → Work.dnsLookup w ∈ d.works) :
    ChainBut owed d' where
  kept := by
    intro k e he henabled
    rw [hcache] at he
    rcases h.kept he henabled with hkept | ho
    · exact Or.inl (Kept.mono hkept (fun _ => id) (fun _ => id) id hworks htimeouts)
    · exact Or.inr ho
  reschedules := fun hw => h.reschedules (hnew _ hw)

theorem Chain.addTimeout (h : Chain d) (t : Timeout) : Chain (d.addTimeout t) :=
  ChainBut.frame h rfl (List.Subset.refl _) (List.subset_append_left _ _) fun _ => id

theorem mem_works_append {ws : List Work} (hnot : ∀ w, Work.dnsLookup w ∉ ws) {w : DnsWork}
    (hw : Work.dnsLookup w ∈ d.works ++ ws) : Work.dnsLookup w ∈ d.works := by
  rcases List.mem_append.mp hw with hw | hw
  · exact hw
  · exact absurd hw (hnot w)

theorem ChainBut.putHealth (h : ChainBut owed d) (r : HMDataCheckList × List HealthWork) :
    ChainBut owed (d.putHealth r) :=
  h.frame rfl (List.subset_append_left _ _) (List.Subset.refl _) fun _ hw =>
    mem_works_append (by simp) hw

theorem Chain.putRemote (h : Chain d) (r : HMRemoteHostGroupCache × List RemoteWork) :
    Chain (d.putRemote r) :=
  ChainBut.frame h rfl (List.subset_append_left _ _) (List.Subset.refl _) fun _ hw =>
    mem_works_append (by simp) hw

theorem Chain.putRemoteHost (h : Chain d) (r : HMRemoteHostCache × List RemoteWork) :
    Chain (d.putRemoteHost r) :=
  ChainBut.frame h rfl (List.subset_append_left _ _) (List.Subset.refl _) fun _ hw =>
    mem_works_append (by simp) hw

/-- An idle entry that is due is looked up. -/
theorem queryNeeded_of_due {name : HMString} {lookup : HMDNSLookup} {now : HMTimeStamp}
    (he : d.current.dnsCache.cache.find? (name, lookup) = some e)
    (hidle : e.2.queryState.isIdle = true) (hdue : dueTime e.2 ≤ now) :
    d.current.dnsCache.queryNeeded name lookup now = .work := by
  have hget : d.current.dnsCache.cache.get? (name, lookup) = some e.2 := by
    simp [SortedMap.get?, he]
  rw [HMDNSCache.queryNeeded, hget]
  exact (scheduleState_of_idle hidle).trans (if_pos hdue)

/-- Popping a timeout leaves an entry to it only if the entry is then looked up. -/
theorem Chain.pop_dns {t : DnsTimeout} {i : ℕ} (h : Chain d)
    (ht : d.timeouts[i]? = some (.dns t)) (hdue : t.time ≤ d.now) :
    Chain ({ d with timeouts := d.timeouts.eraseIdx i }.handleTimeout (.dns t)) := by
  have herase : ∀ {k e}, d.current.dnsCache.cache.find? k = some e → enabled e.1 = true →
      LookupKept { d with timeouts := d.timeouts.eraseIdx i } e ∨
        (eqv (t.name, t.lookup) k = true ∧ t.lookup.plugin ≠ .none ∧
          d.current.dnsCache.queryNeeded t.name t.lookup d.now = .work) := by
    intro k e he henabled
    by_cases hown : e.2.queryState.isIdle = true ∧ IsDnsTimeout e.1 (dueTime e.2) (.dns t)
    · rcases hown with ⟨hidle, hkey, hplugin, htime⟩
      have hk : eqv (t.name, t.lookup) k = true := eqv_trans hkey (SortedMap.find?_eqv he)
      refine Or.inr ⟨hk, hplugin, queryNeeded_of_due ?_ hidle (Int.le_trans htime hdue)⟩
      rw [SortedMap.find?_congr _ hk]
      exact he
    · exact Or.inl (Kept.eraseTimeout (h.lookupKept he henabled) ht hown)
  have hchain : d.current.dnsCache.queryNeeded t.name t.lookup d.now ≠ .work →
      Chain { d with timeouts := d.timeouts.eraseIdx i } := by
    intro hnot
    refine Chain.intro ?_ h.reschedules
    intro k e he henabled
    rcases herase he henabled with hkept | ⟨-, -, hwork⟩
    · exact hkept
    · exact absurd hwork hnot
  simp only [Daemon.handleTimeout]
  split
  · apply Chain.intro
    · intro k e' he' henabled
      refine lookupKept_putDNS (queues_queueDNSQuery _ _ _) he' henabled ?_
      intro he
      rcases herase he henabled with hkept | ⟨hk, hplugin, -⟩
      · exact Or.inl hkept
      · exact Or.inr (mem_queueDNSQuery ((SortedMap.find?_congr _ hk).trans he) hplugin)
    · exact reschedules_putDNS h.reschedules (queues_queueDNSQuery _ _ _).reschedules
  · rename_i hevent
    exact (hchain (by simp [hevent])).addTimeout _
  · rename_i hignore
    exact hchain (by simp [hignore])

/-- The other timeouts do not concern lookups. -/
theorem Chain.pop_remote {t : Timeout} {i : ℕ} (h : Chain d) (ht : d.timeouts[i]? = some t)
    (hnot : ∀ t', t ≠ .dns t') :
    Chain ({ d with timeouts := d.timeouts.eraseIdx i }.handleTimeout t) := by
  have hchain : Chain { d with timeouts := d.timeouts.eraseIdx i } := by
    refine Chain.intro ?_ h.reschedules
    intro k e he henabled
    apply Kept.eraseTimeout (h.lookupKept he henabled) ht
    intro hown
    cases t with
    | dns t => exact hnot t rfl
    | remoteCheck name time => exact hown.2
    | remoteHostCheck key time => exact hown.2
  cases t with
  | dns t => exact absurd rfl (hnot t)
  | remoteCheck name time =>
    simp only [Daemon.handleTimeout]
    split
    · exact hchain.putRemote _
    · exact hchain.addTimeout _
    · exact hchain
  | remoteHostCheck key time =>
    simp only [Daemon.handleTimeout]
    split
    · exact hchain.putRemoteHost _
    · exact hchain.addTimeout _
    · exact hchain

/-- A lookup that ends is queued again or given a timeout, if its work has a plugin. -/
theorem chain_rescheduleDNS {w : DnsWork} (hworks : ∀ {w}, Work.dnsLookup w ∈ d.works → Reschedules w)
    (hother : ∀ {k e}, d.current.dnsCache.cache.find? k = some e → enabled e.1 = true →
      eqv (w.name, w.lookup) k = false → LookupKept d e)
    (hown : ∀ {e}, d.current.dnsCache.cache.find? (w.name, w.lookup) = some e →
      enabled e.1 = true → w.reschedule = true ∧ w.lookup.plugin ≠ .none ∧
        e.2.queryState.isIdle = true) : Chain (d.rescheduleDNS w) := by
  have hkey : ∀ {k e}, d.current.dnsCache.cache.find? k = some e →
      eqv (w.name, w.lookup) k = true → d.current.dnsCache.cache.find? (w.name, w.lookup) = some e :=
    fun he hk => (SortedMap.find?_congr _ hk).trans he
  unfold Daemon.rescheduleDNS
  dsimp only
  split
  · rename_i hnot
    refine Chain.intro ?_ hworks
    intro k e he henabled
    cases hk : eqv (w.name, w.lookup) k with
    | false => exact hother he henabled hk
    | true => simp [(hown (hkey he hk) henabled).1] at hnot
  · split
    · apply Chain.intro
      · intro k e' he' henabled
        refine lookupKept_putDNS (queues_queueDNSQuery _ _ _) he' henabled ?_
        intro he
        cases hk : eqv (w.name, w.lookup) k with
        | false => exact Or.inl (hother he henabled hk)
        | true => exact Or.inr (mem_queueDNSQuery (hkey he hk) (hown (hkey he hk) henabled).2.1)
      · exact reschedules_putDNS hworks (queues_queueDNSQuery _ _ _).reschedules
    · rename_i hlate
      refine Chain.intro ?_ hworks
      intro k e he henabled
      cases hk : eqv (w.name, w.lookup) k with
      | false =>
        exact Kept.mono (hother he henabled hk) (fun _ => id) (fun _ => id) id
          (List.Subset.refl _) (List.subset_append_left _ _)
      | true =>
        obtain ⟨-, hplugin, hidle⟩ := hown (hkey he hk) henabled
        have hget : d.current.dnsCache.cache.get? (w.name, w.lookup) = some e.2 := by
          simp [SortedMap.get?, hkey he hk]
        have hnext : d.current.dnsCache.nextQueryTime w.name w.lookup d.now =
            e.2.nextQueryTime d.now := by
          rw [HMDNSCache.nextQueryTime, hget]
        rw [hnext] at hlate ⊢
        have hdue : ¬ dueTime e.2 ≤ d.now := fun h => hlate ((nextTime_le_iff hidle).mpr h)
        refine Kept.of_timeout hidle (List.mem_append_right _ (List.mem_singleton_self _))
          ⟨?_, hplugin, ?_⟩
        · exact eqv_trans hk (eqv_symm (SortedMap.find?_eqv he))
        · exact Int.le_of_eq (nextTime_of_not_due hidle hdue).symm

/-- A work without a plugin is not for an entry that has one. -/
def pluginFits (d : Daemon) (w : DnsWork) : Bool :=
  w.lookup.plugin ≠ .none ||
    (d.current.dnsCache.cache.find? (w.name, w.lookup)).all fun e => !enabled e.1

theorem Chain.processDNS {w : DnsWork} {i : ℕ} (h : Chain d)
    (hw : d.works[i]? = some (.dnsLookup w)) (hfits : pluginFits d w = true) (o : DnsOutcome) :
    Chain ({ d with works := d.works.eraseIdx i }.processDNS w o) := by
  have hmem : Work.dnsLookup w ∈ d.works := List.mem_of_getElem? hw
  have hworks : ∀ {v}, Work.dnsLookup v ∈ d.works.eraseIdx i → Reschedules v :=
    fun hv => h.reschedules (List.mem_of_mem_eraseIdx hv)
  have herase : ∀ {k e}, d.current.dnsCache.cache.find? k = some e → enabled e.1 = true →
      eqv (w.name, w.lookup) k = false →
        LookupKept { d with works := d.works.eraseIdx i } e := by
    intro k e he henabled hk
    apply Kept.eraseWork (h.lookupKept he henabled) hw
    intro hown
    have : eqv (w.name, w.lookup) k = true := eqv_trans hown.1 (SortedMap.find?_eqv he)
    rw [hk] at this
    cases this
  unfold Daemon.processDNS
  dsimp only
  split
  · refine ChainBut.putHealth ?_ _
    -- Only the entry of the work changes: it is idle again and stamped with the clock.
    have hcache : ∀ k, (((d.current.dnsCache.startDNSQuery w.name w.lookup d.now).dnsLookup w.name
        w.lookup o.answer o.success d.now).cache.find? k) =
          if eqv (w.name, w.lookup) k then (d.current.dnsCache.cache.find? k).map fun e =>
            (e.1, ((d.current.dnsCache.startDNSQuery w.name w.lookup d.now).takeAnswer w.name w.lookup
              o.answer (e.2.startQuery d.now)).finishQuery o.success d.now)
          else d.current.dnsCache.cache.find? k := by
      intro k
      rw [HMDNSCache.dnsLookup_cache, HMDNSCache.startDNSQuery, SortedMap.modify_modify,
        SortedMap.find?_modify]
    apply chain_rescheduleDNS
    · intro v hv
      simp only [Daemon.putDNS, List.map_nil, List.append_nil] at hv
      exact hworks hv
    · intro k e he henabled hk
      rw [Daemon.putDNS] at he
      dsimp only at he
      rw [hcache, if_neg (by simp [hk])] at he
      exact Kept.mono (herase he henabled hk) (fun _ => id) (fun _ => id) id
        (List.subset_append_left _ _) (List.Subset.refl _)
    · intro e' he' henabled
      rw [Daemon.putDNS] at he'
      dsimp only at he'
      rw [hcache, if_pos (eqv_refl _)] at he'
      rcases Option.map_eq_some_iff.mp he' with ⟨e, he, rfl⟩
      have hgroup : w.lookup.remoteCheckGroup = [] := by
        rw [← (DNSKey.eqv_iff.mp (SortedMap.find?_eqv he)).2.2.1]
        exact of_decide_eq_true ((Bool.and_eq_true _ _).mp henabled).1
      refine ⟨h.reschedules hmem hgroup, ?_, ?_⟩
      · intro hnone
        have henabled' : enabled e.1 = true := henabled
        simp [pluginFits, hnone, he, henabled'] at hfits
      · cases o.success <;> rfl
  · rename_i hmissing
    refine Chain.intro (fun {k e} he henabled => herase he henabled ?_) hworks
    cases hk : eqv (w.name, w.lookup) k with
    | false => rfl
    | true =>
      rw [← SortedMap.find?_congr _ hk] at he
      simp [SortedMap.contains, he] at hmissing

theorem Chain.remoteFallback (h : Chain d) (w : RemoteWork) (o : RemoteOutcome)
    (hosts : List HMString) : Chain (d.remoteFallback w o hosts) := by
  unfold Daemon.remoteFallback
  split
  · exact h.putDNS (queues_forceLookups _ _ _)
  · exact h

/-- Taking a work of another kind from the queue. -/
theorem Chain.eraseOther {w : Work} {i : ℕ} (h : Chain d) (hw : d.works[i]? = some w)
    (hnot : ∀ w', w ≠ .dnsLookup w') : Chain { d with works := d.works.eraseIdx i } := by
  refine Chain.intro ?_ fun hv => h.reschedules (List.mem_of_mem_eraseIdx hv)
  intro k e he henabled
  apply Kept.eraseWork (h.lookupKept he henabled) hw
  intro hown
  cases w with
  | dnsLookup w => exact hnot w rfl
  | healthCheck w => exact hown
  | remoteCheck w => exact hown
  | remoteHostCheck w => exact hown

theorem Chain.processRemote (h : Chain d) (w : RemoteWork) (o : RemoteOutcome) :
    Chain (d.processRemote w o) := by
  unfold Daemon.processRemote
  dsimp only
  split
  · apply Chain.remoteFallback
    split
    · exact (h.putRemote _).putRemote _
    · exact (h.putRemote _).addTimeout _
  · exact h

theorem Chain.processRemoteHost (h : Chain d) (w : RemoteWork) (o : RemoteOutcome) :
    Chain (d.processRemoteHost w o) := by
  unfold Daemon.processRemoteHost
  dsimp only
  split
  · apply Chain.remoteFallback
    split
    · exact Chain.putRemoteHost (ChainBut.putHealth (h.putRemoteHost _) _) _
    · exact Chain.addTimeout (ChainBut.putHealth (h.putRemoteHost _) _) _
  · exact h

end DNSChain
