import NetCHASM.StorageHostGroup
import NetCHASM.Library.Runs
import Mathlib.Data.List.Perm.Subperm

/-! When a commit of a check result writes its group. A group is written only once as many
hosts have an entry as its list is long; the list may name a host twice, the hosts with an
entry are a set. What the commits have done to one group is kept beside the store as a
history; only the statements read it. -/
namespace CommitPolicy

open NetCHASM KeyOrder OrderedMap Runs HMStorageHostGroup

/-- What a commit did to the group: the position of the entry it changed or added, the number
of entries then, and whether the group was written. -/
structure Touch where
  index : ℕ
  isNew : Bool
  count : ℕ
  stored : Bool
  time : Int64
  deriving DecidableEq, Repr

/-- The store, and what its commits have done to the group, the latest first. -/
structure Observed where
  store : HMStorageHostGroup
  history : List Touch
  deriving DecidableEq, Repr

/-- Results are queued and committed. The addresses may change between two commits, and the
clock counts in a signed word. -/
inductive Event where
  | storeCheckResult (hostname : HMString) (address : HMIPAddress) (hostGroups : List HMString)
      (result : HMDataCheckResult)
  | commitHealthCheck (dnsCache : HMDNSCache) (now : Int64)
  deriving DecidableEq, Repr

section History

/-- The entry was changed after the group was last written. -/
def UpdatedSince (history : List Touch) (i : ℕ) : Prop :=
  ∃ t ∈ history.takeWhile fun t => !t.stored, t.index = i

/-- When the group was last written with the entry in it. -/
def lastStored (history : List Touch) (i : ℕ) : Option Int64 :=
  (history.find? fun t => t.stored && decide (i < t.count)).map fun t => t.time

/-- Every host of the list has an entry. -/
def Complete (g : HMDataHostGroup) (entries : List HMGroupCheckResult) : Prop :=
  ∀ host ∈ g.hosts, ∃ e ∈ entries, e.hostName = host

/-- What is asked of a commit to the group: once all hosts have an entry it writes the group as
the policy says, and a write leaves the cached entries in the backend. -/
structure StepMet (group : HMString) (g : HMDataHostGroup) (policy : StorageCommitPolicy)
    (history : List Touch) (t : Touch) (after : HMStorageHostGroup) : Prop where
  always : Complete g (after.hostGroupResults.range group) → policy = .always → t.stored = true
  onAllReady : Complete g (after.hostGroupResults.range group) → policy = .onAllReady →
    t.isNew = false → (t.stored = true ↔
      ∀ i < t.count, i = t.index ∨ UpdatedSince history i)
  onTtl : Complete g (after.hostGroupResults.range group) → policy = .onTtl → t.isNew = false →
    (t.stored = true ↔ ∃ i < t.count, ∃ time, lastStored history i = some time ∧
      (g.checkTTL.toNat : Int) < t.time.toInt - time.toInt)
  coldStart : Complete g (after.hostGroupResults.range group) → t.isNew = true → t.stored = true
  content : t.stored = true → after.backend.checks.get? group =
    some ((after.hostGroupResults.range group).map fun e => e.store HMDataCheckResult.serialize)

theorem updatedSince_cons (t : Touch) (history : List Touch) (i : ℕ) :
    UpdatedSince (t :: history) i ↔ t.stored = false ∧ (i = t.index ∨ UpdatedSince history i) := by
  cases hstored : t.stored with
  | true => simp [UpdatedSince, hstored]
  | false => simp [UpdatedSince, hstored, eq_comm]

theorem lastStored_of_find? {history : List Touch} {t : Touch}
    (h : history.find? (fun t => t.stored) = some t) {i : ℕ} (hi : i < t.count) :
    lastStored history i = some t.time := by
  induction history with
  | nil => cases h
  | cons t' history ih =>
    cases hstored : t'.stored with
    | true =>
      obtain rfl : t' = t := by simpa [hstored] using h
      simp [lastStored, hstored, hi]
    | false =>
      rw [List.find?_cons_of_neg (by simp [hstored])] at h
      rw [← ih h]
      simp [lastStored, hstored]

/-- Two lists of entries for the same hosts are complete together. -/
theorem complete_congr {g : HMDataHostGroup} {entries entries' : List HMGroupCheckResult}
    (h : entries'.map (fun e => e.hostName) = entries.map fun e => e.hostName) :
    Complete g entries' ↔ Complete g entries := by
  have hiff : ∀ es : List HMGroupCheckResult, Complete g es ↔
      ∀ host ∈ g.hosts, host ∈ es.map fun e => e.hostName := by
    simp [Complete]
  rw [hiff, hiff, h]

end History

section Steps

variable (hostGroupMap : HMDataHostGroupMap) (group : HMString) (g : HMDataHostGroup)

/-- The update that a commit applies to the group. -/
def applied (s : HMStorageHostGroup) (dnsCache : HMDNSCache) : Option HMGroupCheckUpdate :=
  s.storeCheckQueue.head?.filter fun u =>
    u.hostGroup = group && StoreEnv.accepts ⟨hostGroupMap, dnsCache⟩ g u

def touch (s : HMStorageHostGroup) (dnsCache : HMDNSCache) (now : Int64) : Option Touch :=
  (applied hostGroupMap group g s dnsCache).map fun u =>
    { index := (s.hostGroupResults.range group).findIdx u.concerns
      isNew := !u.isKnown s.hostGroupResults
      count := ((u.applyTo stampResult now.toInt s.hostGroupResults).range group).length
      stored := (s.beginHealthCheck ⟨hostGroupMap, dnsCache⟩ now.toInt).2 = .write group
      time := now }

def step (o : Observed) : Event → Option Observed
  | .storeCheckResult hostname address hostGroups result =>
    some { o with store := o.store.storeCheckResult hostname address hostGroups result }
  | .commitHealthCheck dnsCache now =>
    some ⟨(o.store.commitHealthCheck ⟨hostGroupMap, dnsCache⟩ now.toInt).1,
      (touch hostGroupMap group g o.store dnsCache now).toList ++ o.history⟩

def PolicyMet (o : Observed) : Event → Prop
  | .storeCheckResult .. => True
  | .commitHealthCheck dnsCache now => ∀ t, touch hostGroupMap group g o.store dnsCache now = some t →
      StepMet group g o.store.healthCheckCommitPolicy o.history t
        (o.store.commitHealthCheck ⟨hostGroupMap, dnsCache⟩ now.toInt).1

/-- Once all hosts of the list have an entry, at least as many hosts have one as the list is
long. -/
def Counted (o : Observed) : Event → Prop
  | .storeCheckResult .. => True
  | .commitHealthCheck dnsCache _ => ∀ u, applied hostGroupMap group g o.store dnsCache = some u →
      (∀ host ∈ g.hosts, host ∈ hostsReporting u o.store.hostGroupResults) →
      g.hosts.length ≤ (hostsReporting u o.store.hostGroupResults).length

/-- A commit is for a host with a name; the backend refuses others. -/
def Named (o : Observed) : Event → Prop
  | .storeCheckResult .. => True
  | .commitHealthCheck dnsCache _ => ∀ u, applied hostGroupMap group g o.store dnsCache = some u →
      u.hostName ≠ []

/-- A list without duplicates is no longer than the set of its hosts. -/
theorem counted_of_nodup (h : g.hosts.Nodup) (o : Observed) (e : Event) :
    Counted hostGroupMap group g o e := by
  cases e with
  | storeCheckResult => trivial
  | commitHealthCheck dnsCache now =>
    intro u _ hall
    exact (List.subperm_of_subset h hall).length_le

theorem applied_eq_some {s : HMStorageHostGroup} {dnsCache : HMDNSCache}
    {u : HMGroupCheckUpdate} (h : applied hostGroupMap group g s dnsCache = some u) :
    ∃ queue, s.storeCheckQueue = u :: queue ∧ u.hostGroup = group ∧
      StoreEnv.accepts ⟨hostGroupMap, dnsCache⟩ g u = true := by
  rw [applied, Option.filter_eq_some_iff, Bool.and_eq_true, decide_eq_true_eq] at h
  rcases h with ⟨hhead, hgroup, haccepts⟩
  rcases List.head?_eq_some_iff.mp hhead with ⟨queue, hqueue⟩
  exact ⟨queue, hqueue, hgroup, haccepts⟩

end Steps

section Commit

variable {hostGroupMap : HMDataHostGroupMap} {group : HMString} {g : HMDataHostGroup}
  {s : HMStorageHostGroup} {dnsCache : HMDNSCache} {u : HMGroupCheckUpdate} {now : HMTimeStamp}

/-- The entries that the policy looks at. -/
def seen (u : HMGroupCheckUpdate) (now : HMTimeStamp) (cache : GroupCache HMDataCheckResult) :
    List HMGroupCheckResult :=
  if u.isKnown cache then (u.applyTo stampResult now cache).range u.hostGroup
  else cache.range u.hostGroup

/-- Enough hosts have an entry, and the policy asks for a write. -/
def isStored (g : HMDataHostGroup) (policy : StorageCommitPolicy) (u : HMGroupCheckUpdate)
    (now : HMTimeStamp) (cache : GroupCache HMDataCheckResult) : Bool :=
  decide (g.hosts.length ≤ (hostsReporting u cache).length) &&
    commitDue policy g u (!u.isKnown cache) (allStale (seen u now cache))
      (oldestCommit (seen u now cache) now) now

theorem beginHealthCheck_eq (hg : hostGroupMap.get? group = some g)
    (h : applied hostGroupMap group g s dnsCache = some u) (now : HMTimeStamp) :
    ∃ queue, s.beginHealthCheck ⟨hostGroupMap, dnsCache⟩ now =
      ({ s with
          storeCheckQueue := queue
          hostGroupResults := u.applyTo stampResult now s.hostGroupResults },
        if isStored g s.healthCheckCommitPolicy u now s.hostGroupResults then .write group
        else .applied) := by
  obtain ⟨queue, hqueue, rfl, haccepts⟩ := applied_eq_some hostGroupMap group g h
  refine ⟨queue, ?_⟩
  have hseen : (if (!u.isKnown s.hostGroupResults) = true then s.hostGroupResults.range u.hostGroup
      else (u.applyTo stampResult now s.hostGroupResults).range u.hostGroup) =
      seen u now s.hostGroupResults := by
    rw [seen]
    cases u.isKnown s.hostGroupResults <;> rfl
  rw [beginHealthCheck, hqueue]
  simp only [commitUpdate, hg, haccepts, Bool.not_true, Bool.false_eq_true, if_false, Bool.true_and,
    decide_eq_true_eq, hseen, isStored]
  by_cases hcount : g.hosts.length ≤ (hostsReporting u s.hostGroupResults).length
  · simp only [Nat.not_lt.mpr hcount, if_false, hcount, decide_true, Bool.true_and]
    split <;> rfl
  · simp only [Nat.lt_of_not_le hcount, if_true, hcount, decide_false, Bool.false_and,
      Bool.false_eq_true, if_false]

theorem touch_eq (hg : hostGroupMap.get? group = some g)
    (h : applied hostGroupMap group g s dnsCache = some u) (time : Int64) :
    touch hostGroupMap group g s dnsCache time = some
      { index := (s.hostGroupResults.range group).findIdx u.concerns
        isNew := !u.isKnown s.hostGroupResults
        count := ((u.applyTo stampResult time.toInt s.hostGroupResults).range group).length
        stored := isStored g s.healthCheckCommitPolicy u time.toInt s.hostGroupResults
        time := time } := by
  obtain ⟨queue, hbegin⟩ := beginHealthCheck_eq hg h time.toInt
  rw [touch, h, Option.map_some, hbegin]
  cases isStored g s.healthCheckCommitPolicy u time.toInt s.hostGroupResults <;> simp

/-- What a write does to the bookkeeping of an entry. -/
def mark (now : HMTimeStamp) (e : HMGroupCheckResult) : HMGroupCheckResult :=
  { e with backendStale := false, commitTime := now }

/-- What every commit keeps. -/
structure SameSettings (s s' : HMStorageHostGroup) : Prop where
  readonly : s'.readonly = s.readonly
  shutdown : s'.shutdown = s.shutdown
  policy : s'.healthCheckCommitPolicy = s.healthCheckCommitPolicy

theorem sameSettings_finishHealthCheck (s : HMStorageHostGroup) (group : HMString)
    (now : HMTimeStamp) : SameSettings s (s.finishHealthCheck group now) := by
  have hstore : SameSettings s (s.storeHostGroupCheckResults group) := by
    rw [storeHostGroupCheckResults]
    split
    · exact ⟨rfl, rfl, rfl⟩
    · split <;> exact ⟨rfl, rfl, rfl⟩
  exact ⟨hstore.readonly, hstore.shutdown, hstore.policy⟩

/-- A commit that applies an update to the group. -/
theorem commitHealthCheck_applied (hg : hostGroupMap.get? group = some g)
    (h : applied hostGroupMap group g s dnsCache = some u) (now : HMTimeStamp) :
    SameSettings s (s.commitHealthCheck ⟨hostGroupMap, dnsCache⟩ now).1 ∧
      (s.commitHealthCheck ⟨hostGroupMap, dnsCache⟩ now).1.hostGroupResults.range group =
        if isStored g s.healthCheckCommitPolicy u now s.hostGroupResults then
          ((u.applyTo stampResult now s.hostGroupResults).range group).map (mark now)
        else (u.applyTo stampResult now s.hostGroupResults).range group := by
  obtain ⟨queue, hbegin⟩ := beginHealthCheck_eq hg h now
  rw [commitHealthCheck, hbegin]
  cases isStored g s.healthCheckCommitPolicy u now s.hostGroupResults with
  | true =>
    refine ⟨?_, ?_⟩
    · have hfinish := sameSettings_finishHealthCheck { s with
        storeCheckQueue := queue
        hostGroupResults := u.applyTo stampResult now s.hostGroupResults } group now
      exact ⟨hfinish.readonly, hfinish.shutdown, hfinish.policy⟩
    · simp [finishHealthCheck, markCommitted, SortedMultimap.range_modify, mark]
  | false => exact ⟨⟨rfl, rfl, rfl⟩, rfl⟩

/-- A write leaves the entries of the group in the backend if all of them have a name. -/
theorem backend_commitHealthCheck (hg : hostGroupMap.get? group = some g)
    (h : applied hostGroupMap group g s dnsCache = some u)
    (hstored : isStored g s.healthCheckCommitPolicy u now s.hostGroupResults = true)
    (hreadonly : s.readonly = false) (hshutdown : s.shutdown = false)
    (hnamed : ∀ e ∈ (u.applyTo stampResult now s.hostGroupResults).range group, e.hostName ≠ []) :
    (s.commitHealthCheck ⟨hostGroupMap, dnsCache⟩ now).1.backend.checks.get? group =
      some (((u.applyTo stampResult now s.hostGroupResults).range group).map fun e =>
        e.store HMDataCheckResult.serialize) := by
  obtain ⟨queue, hbegin⟩ := beginHealthCheck_eq hg h now
  rw [commitHealthCheck, hbegin, hstored]
  simp [finishHealthCheck, storeHostGroupCheckResults, hreadonly, hshutdown,
    groupRecord_of_named _ hnamed, SortedMap.get?_set]

/-- An update of another group leaves the group alone, and asks for a write of its own. -/
theorem commitUpdate_of_ne (env : StoreEnv) (policy : StorageCommitPolicy) (now : HMTimeStamp)
    (cache : GroupCache HMDataCheckResult) (hne : u.hostGroup ≠ group) :
    (commitUpdate env policy true stampResult now u cache).1.range group = cache.range group ∧
      (commitUpdate env policy true stampResult now u cache).2 ≠ .write group := by
  have hrange : (u.applyTo stampResult now cache).range group = cache.range group := by
    rw [GroupUpdate.range_applyTo, if_neg hne]
  rw [commitUpdate]
  split
  · exact ⟨rfl, nofun⟩
  · split
    · exact ⟨rfl, nofun⟩
    · dsimp only
      generalize commitDue policy _ u _ _ _ now = due
      split
      · exact ⟨hrange, nofun⟩
      · cases due with
        | true => exact ⟨hrange, fun heq => hne (CommitOutcome.write.inj heq)⟩
        | false => exact ⟨hrange, nofun⟩

/-- A commit to another group, or none at all. -/
theorem commitHealthCheck_not_applied (hg : hostGroupMap.get? group = some g)
    (h : applied hostGroupMap group g s dnsCache = none) (now : HMTimeStamp) :
    SameSettings s (s.commitHealthCheck ⟨hostGroupMap, dnsCache⟩ now).1 ∧
      (s.commitHealthCheck ⟨hostGroupMap, dnsCache⟩ now).1.hostGroupResults.range group =
        s.hostGroupResults.range group := by
  rw [commitHealthCheck, beginHealthCheck]
  cases hqueue : s.storeCheckQueue with
  | nil => exact ⟨⟨rfl, rfl, rfl⟩, rfl⟩
  | cons u queue =>
    simp only [applied, hqueue, List.head?_cons, Option.filter_eq_none_iff, Bool.and_eq_true,
      decide_eq_true_eq] at h
    have hnot := h u rfl
    by_cases hgroup : u.hostGroup = group
    · have hrejected : StoreEnv.accepts ⟨hostGroupMap, dnsCache⟩ g u = false := by
        rw [Bool.eq_false_iff]
        exact fun haccepts => hnot ⟨hgroup, haccepts⟩
      rw [hgroup.symm] at hg
      have hdropped : commitUpdate ⟨hostGroupMap, dnsCache⟩ s.healthCheckCommitPolicy true
          stampResult now u s.hostGroupResults = (s.hostGroupResults, .applied) := by
        simp [commitUpdate, hg, hrejected]
      dsimp only
      rw [hdropped]
      exact ⟨⟨rfl, rfl, rfl⟩, rfl⟩
    · obtain ⟨hrange, hwrite⟩ := commitUpdate_of_ne ⟨hostGroupMap, dnsCache⟩
        s.healthCheckCommitPolicy now s.hostGroupResults hgroup
      dsimp only
      rcases hcommit : commitUpdate ⟨hostGroupMap, dnsCache⟩ s.healthCheckCommitPolicy true
        stampResult now u s.hostGroupResults with ⟨cache, outcome⟩
      rw [hcommit] at hrange hwrite
      cases outcome with
      | write other =>
        have hother : eqv other group = false :=
          eqv_of_ne fun heq => hwrite (congrArg CommitOutcome.write heq)
        have hfinish := sameSettings_finishHealthCheck { s with
          storeCheckQueue := queue
          hostGroupResults := cache } other now
        refine ⟨⟨hfinish.readonly, hfinish.shutdown, hfinish.policy⟩, ?_⟩
        simpa [finishHealthCheck, markCommitted, SortedMultimap.range_modify, hother] using hrange
      | idle => exact ⟨⟨rfl, rfl, rfl⟩, hrange⟩
      | unknownGroup => exact ⟨⟨rfl, rfl, rfl⟩, hrange⟩
      | applied => exact ⟨⟨rfl, rfl, rfl⟩, hrange⟩

end Commit

section Ledger

variable {g : HMDataHostGroup} {u : HMGroupCheckUpdate} {now : HMTimeStamp}
  {cache : GroupCache HMDataCheckResult}

/-- The flags and times of the entries say what the history says. -/
def Tracks (history : List Touch) (entries : List HMGroupCheckResult) : Prop :=
  ∃ last, history.find? (fun t => t.stored) = some last ∧ last.count = entries.length ∧
    ∀ i e, entries[i]? = some e →
      (e.backendStale = true ↔ UpdatedSince history i) ∧ e.commitTime = last.time.toInt

/-- The hosts with an entry stay the same when a known one is changed. -/
theorem hostNames_replace (u : HMGroupCheckUpdate) (entries : List HMGroupCheckResult) :
    (SortedMultimap.modifyFirstVal u.concerns (u.replace stampResult) entries).map
      (fun e => e.hostName) = entries.map fun e => e.hostName := by
  apply SortedMultimap.map_modifyFirstVal_of_eq
  exact fun _ => rfl

/-- The hosts that report are those with an entry after the update. -/
theorem hostsReporting_eq (now : HMTimeStamp) : hostsReporting u cache =
    (((u.applyTo stampResult now cache).range u.hostGroup).map fun e => e.hostName).dedup := by
  rw [hostsReporting, GroupUpdate.range_applyTo, if_pos rfl]
  by_cases hknown : u.isKnown cache = true
  · rw [if_pos hknown, if_pos hknown, List.append_nil, hostNames_replace]
  · rw [if_neg hknown, if_neg hknown, List.map_append, List.map_singleton]

theorem mem_hostsReporting (now : HMTimeStamp) :
    (∀ host ∈ g.hosts, host ∈ hostsReporting u cache) ↔
      Complete g ((u.applyTo stampResult now cache).range u.hostGroup) := by
  rw [hostsReporting_eq now]
  simp [Complete]

theorem tracks_mark {history : List Touch} {t : Touch} {entries : List HMGroupCheckResult}
    (hstored : t.stored = true) (hcount : t.count = entries.length) :
    Tracks (t :: history) (entries.map (mark t.time.toInt)) := by
  refine ⟨t, List.find?_cons_of_pos hstored, by rw [hcount, List.length_map], ?_⟩
  intro i e he
  obtain ⟨e', -, rfl⟩ := List.mem_map.mp (List.mem_of_getElem? he)
  rw [updatedSince_cons, hstored]
  simp [mark]

/-- An update of a known entry that is not written is kept track of. -/
theorem tracks_replace {history : List Touch} {t : Touch} {entries : List HMGroupCheckResult}
    (h : Tracks history entries) (hstored : t.stored = false)
    (hindex : t.index = entries.findIdx u.concerns) :
    Tracks (t :: history)
      (SortedMultimap.modifyFirstVal u.concerns (u.replace stampResult) entries) := by
  rcases h with ⟨last, hlast, hcount, hentries⟩
  refine ⟨last, ?_, ?_, ?_⟩
  · rw [List.find?_cons_of_neg (by simp [hstored]), hlast]
  · rw [hcount, SortedMultimap.length_modifyFirstVal]
  · intro i e he
    rw [SortedMultimap.getElem?_modifyFirstVal, ← hindex] at he
    rw [updatedSince_cons, hstored]
    by_cases hi : i = t.index
    · rw [if_pos hi, Option.map_eq_some_iff] at he
      rcases he with ⟨e', he', rfl⟩
      exact ⟨by simp [GroupUpdate.replace, hi], (hentries i e' he').2⟩
    · rw [if_neg hi] at he
      simpa [hi] using hentries i e he

/-- The entries are all stale after an update if the others were. -/
theorem allStale_replace {history : List Touch} {entries : List HMGroupCheckResult}
    (h : Tracks history entries) :
    allStale (SortedMultimap.modifyFirstVal u.concerns (u.replace stampResult) entries) = true ↔
      ∀ i < entries.length, i = entries.findIdx u.concerns ∨ UpdatedSince history i := by
  rcases h with ⟨last, -, -, hentries⟩
  rw [allStale, List.all_eq_true]
  constructor
  · intro hall i hi
    by_cases hindex : i = entries.findIdx u.concerns
    · exact Or.inl hindex
    · have hget : entries[i]? = some entries[i] := List.getElem?_eq_getElem hi
      refine Or.inr ((hentries i entries[i] hget).1.mp (hall entries[i] ?_))
      apply List.mem_of_getElem? (i := i)
      rw [SortedMultimap.getElem?_modifyFirstVal, if_neg hindex, hget]
  · intro hall e he
    rcases List.mem_iff_getElem?.mp he with ⟨i, hi⟩
    rw [SortedMultimap.getElem?_modifyFirstVal] at hi
    by_cases hindex : i = entries.findIdx u.concerns
    · rw [if_pos hindex, Option.map_eq_some_iff] at hi
      rcases hi with ⟨e', -, rfl⟩
      rfl
    · rw [if_neg hindex] at hi
      have hlt : i < entries.length := (List.getElem?_eq_some_iff.mp hi).1
      exact (hentries i e hi).1.mpr ((hall i hlt).resolve_left hindex)

/-- Where all entries were written together, the oldest commit is that one. -/
theorem oldestCommit_eq {time : HMTimeStamp} (entries : List HMGroupCheckResult)
    (hne : entries ≠ []) (h : ∀ e ∈ entries, e.commitTime = time) (now : HMTimeStamp) :
    oldestCommit entries now = if time < now then time else now := by
  have hfixed : ∀ es : List HMGroupCheckResult, (∀ e ∈ es, e.commitTime = time) →
      ∀ t ≤ time, es.foldl (fun t e => if e.commitTime < t then e.commitTime else t) t = t := by
    intro es
    induction es with
    | nil => exact fun _ _ _ => rfl
    | cons e es ih =>
      intro hes t ht
      have he := hes e List.mem_cons_self
      rw [List.foldl_cons, if_neg (by grind)]
      exact ih (fun e' he' => hes e' (List.mem_cons_of_mem e he')) t ht
  cases entries with
  | nil => exact absurd rfl hne
  | cons e es =>
    have he := h e List.mem_cons_self
    rw [oldestCommit, List.foldl_cons, he]
    apply hfixed es (fun e' he' => h e' (List.mem_cons_of_mem e he'))
    split
    · exact le_refl time
    · grind

/-- The clock's differences are exact, since it counts in a signed word. -/
theorem ttl_lt_minus_iff (ttl : UInt64) (now time : Int64) :
    ttl < HMTimeStamp.minus now.toInt (if time.toInt < now.toInt then time.toInt else now.toInt) ↔
      (ttl.toNat : Int) < now.toInt - time.toInt := by
  have hnow := now.toInt_lt
  have htime := time.le_toInt
  rw [UInt64.lt_iff_toNat_lt, HMTimeStamp.minus, toNat_ofInt]
  split <;> omega

/-- After an update the time to live has passed if it had since the last write of an entry. -/
theorem ttl_lt_oldestCommit_replace {history : List Touch} {entries : List HMGroupCheckResult}
    (h : Tracks history entries) (hne : entries ≠ []) (ttl : UInt64) (time : Int64) :
    ttl < HMTimeStamp.minus time.toInt (oldestCommit
        (SortedMultimap.modifyFirstVal u.concerns (u.replace stampResult) entries) time.toInt) ↔
      ∃ i < entries.length, ∃ stored, lastStored history i = some stored ∧
        (ttl.toNat : Int) < time.toInt - stored.toInt := by
  rcases h with ⟨last, hlast, hlen, hentries⟩
  have hwritten : ∀ e ∈ entries, e.commitTime = last.time.toInt := by
    intro e he
    rcases List.mem_iff_getElem?.mp he with ⟨i, hi⟩
    exact (hentries i e hi).2
  have hsame : ∀ e ∈ SortedMultimap.modifyFirstVal u.concerns (u.replace stampResult) entries,
      e.commitTime = last.time.toInt := by
    intro e he
    rcases SortedMultimap.mem_modifyFirstVal he with he | ⟨e', he', -, rfl⟩
    · exact hwritten e he
    · exact hwritten e' he'
  have hpos : 0 < entries.length := List.length_pos_iff.mpr hne
  have hreplacedNe : SortedMultimap.modifyFirstVal u.concerns (u.replace stampResult) entries ≠
      [] := by
    rwa [← List.length_pos_iff, SortedMultimap.length_modifyFirstVal]
  rw [oldestCommit_eq _ hreplacedNe hsame, ttl_lt_minus_iff]
  constructor
  · intro hlt
    exact ⟨0, hpos, last.time, lastStored_of_find? hlast (hlen ▸ hpos), hlt⟩
  · rintro ⟨i, hi, stored, hstored, hlt⟩
    rw [lastStored_of_find? hlast (hlen ▸ hi), Option.some.injEq] at hstored
    rwa [hstored]

end Ledger

section Invariant

variable {hostGroupMap : HMDataHostGroupMap} {group : HMString} {g : HMDataHostGroup}
  {o : Observed} {dnsCache : HMDNSCache} {u : HMGroupCheckUpdate} {time : Int64}

/-- The store can write, and from the write that completed the group on its bookkeeping follows
the history. -/
structure Settled (group : HMString) (g : HMDataHostGroup) (o : Observed) : Prop where
  readonly : o.store.readonly = false
  shutdown : o.store.shutdown = false
  named : ∀ e ∈ o.store.hostGroupResults.range group, e.hostName ≠ []
  tracked : o.store.hostGroupResults.range group ≠ [] →
    Complete g (o.store.hostGroupResults.range group) →
    g.hosts.length ≤ ((o.store.hostGroupResults.range group).map fun e => e.hostName).dedup.length ∧
      Tracks o.history (o.store.hostGroupResults.range group)

/-- A new entry is written as soon as enough hosts report. -/
theorem isStored_of_new {policy : StorageCommitPolicy} {now : HMTimeStamp}
    {cache : GroupCache HMDataCheckResult} (hnew : u.isKnown cache = false) :
    isStored g policy u now cache = decide (g.hosts.length ≤ (hostsReporting u cache).length) := by
  simp [isStored, hnew, commitDue]

theorem named_applyTo (h : ∀ e ∈ o.store.hostGroupResults.range group, e.hostName ≠ [])
    (hu : u.hostName ≠ []) (now : HMTimeStamp) :
    ∀ e ∈ (u.applyTo stampResult now o.store.hostGroupResults).range group, e.hostName ≠ [] := by
  intro e he
  rw [GroupUpdate.range_applyTo] at he
  split at he
  · split at he
    · rcases SortedMultimap.mem_modifyFirstVal he with he | ⟨e', he', -, rfl⟩
      · exact h e he
      · exact h e' he'
    · rcases List.mem_append.mp he with he | he
      · exact h e he
      · rw [List.mem_singleton.mp he]
        exact hu
  · exact h e he

/-- What a write leaves in the backend is the cache after it. -/
theorem content_commitHealthCheck (hg : hostGroupMap.get? group = some g)
    (h : applied hostGroupMap group g o.store dnsCache = some u) (hs : Settled group g o)
    (hu : u.hostName ≠ []) (now : HMTimeStamp)
    (hstored : isStored g o.store.healthCheckCommitPolicy u now o.store.hostGroupResults = true) :
    (o.store.commitHealthCheck ⟨hostGroupMap, dnsCache⟩ now).1.backend.checks.get? group =
      some (((o.store.commitHealthCheck ⟨hostGroupMap, dnsCache⟩ now).1.hostGroupResults.range
        group).map fun e => e.store HMDataCheckResult.serialize) := by
  have hnamed := named_applyTo hs.named hu now
  rw [backend_commitHealthCheck hg h hstored hs.readonly hs.shutdown hnamed,
    (commitHealthCheck_applied hg h now).2, if_pos hstored, List.map_map]
  rfl

/-- The hosts with an entry after a commit are those of the updated cache. -/
theorem hostNames_commitHealthCheck (hg : hostGroupMap.get? group = some g)
    (h : applied hostGroupMap group g o.store dnsCache = some u) (now : HMTimeStamp) :
    ((o.store.commitHealthCheck ⟨hostGroupMap, dnsCache⟩ now).1.hostGroupResults.range group).map
      (fun e => e.hostName) =
      ((u.applyTo stampResult now o.store.hostGroupResults).range group).map
        fun e => e.hostName := by
  rw [(commitHealthCheck_applied hg h now).2]
  split
  · rw [List.map_map]
    rfl
  · rfl

/-- A commit that changes an entry of a complete group follows the policy. -/
theorem isStored_iff_of_known {cache : GroupCache HMDataCheckResult} {history : List Touch}
    (hgroup : u.hostGroup = group) (hknown : u.isKnown cache = true)
    (hcount : g.hosts.length ≤ (hostsReporting u cache).length)
    (htracks : Tracks history (cache.range group)) (policy : StorageCommitPolicy) :
    (policy = .always → isStored g policy u time.toInt cache = true) ∧
      (policy = .onAllReady → (isStored g policy u time.toInt cache = true ↔
        ∀ i < (cache.range group).length,
          i = (cache.range group).findIdx u.concerns ∨ UpdatedSince history i)) ∧
      (policy = .onTtl → (isStored g policy u time.toInt cache = true ↔
        ∃ i < (cache.range group).length, ∃ stored, lastStored history i = some stored ∧
          (g.checkTTL.toNat : Int) < time.toInt - stored.toInt)) := by
  subst hgroup
  have hseen : seen u time.toInt cache = SortedMultimap.modifyFirstVal u.concerns
      (u.replace stampResult) (cache.range u.hostGroup) := by
    rw [seen, if_pos hknown, GroupUpdate.range_applyTo, if_pos rfl, if_pos hknown]
  have hdue : ∀ p, isStored g p u time.toInt cache = commitDue p g u false
      (allStale (seen u time.toInt cache)) (oldestCommit (seen u time.toInt cache) time.toInt)
      time.toInt := by
    intro p
    rw [isStored, hknown, decide_eq_true hcount, Bool.true_and, Bool.not_true]
  refine ⟨?_, ?_, ?_⟩
  · rintro rfl
    simp [hdue, commitDue]
  · rintro rfl
    rw [hdue, hseen, commitDue, Bool.false_or, allStale_replace htracks]
  · rintro rfl
    have hne : cache.range u.hostGroup ≠ [] := by
      rintro hnil
      rw [GroupUpdate.isKnown, hnil] at hknown
      cases hknown
    rw [hdue, hseen, commitDue, Bool.false_or, decide_eq_true_eq]
    exact ttl_lt_oldestCommit_replace htracks hne g.checkTTL time

/-- A known update leaves the same hosts with an entry, so the group was already complete. -/
theorem tracked_of_known (hs : Settled group g o) (hgroup : u.hostGroup = group)
    (hknown : u.isKnown o.store.hostGroupResults = true) {now : HMTimeStamp}
    (hcomplete : Complete g ((u.applyTo stampResult now o.store.hostGroupResults).range group)) :
    g.hosts.length ≤ (hostsReporting u o.store.hostGroupResults).length ∧
      Tracks o.history (o.store.hostGroupResults.range group) := by
  subst hgroup
  have hrange : (u.applyTo stampResult now o.store.hostGroupResults).range u.hostGroup =
      SortedMultimap.modifyFirstVal u.concerns (u.replace stampResult)
        (o.store.hostGroupResults.range u.hostGroup) := by
    rw [GroupUpdate.range_applyTo, if_pos rfl, if_pos hknown]
  have hne : o.store.hostGroupResults.range u.hostGroup ≠ [] := by
    intro hnil
    rw [GroupUpdate.isKnown, hnil] at hknown
    cases hknown
  rw [hrange, complete_congr (hostNames_replace u _)] at hcomplete
  rw [hostsReporting_eq now, hrange, hostNames_replace]
  exact hs.tracked hne hcomplete

theorem stepMet_iff (hg : hostGroupMap.get? group = some g)
    (h : applied hostGroupMap group g o.store dnsCache = some u) (hs : Settled group g o)
    (hu : u.hostName ≠ []) :
    PolicyMet hostGroupMap group g o (.commitHealthCheck dnsCache time) ↔
      Counted hostGroupMap group g o (.commitHealthCheck dnsCache time) := by
  obtain ⟨-, -, hgroup, -⟩ := applied_eq_some hostGroupMap group g h
  have hcomplete : Complete g ((o.store.commitHealthCheck ⟨hostGroupMap, dnsCache⟩
      time.toInt).1.hostGroupResults.range group) ↔
      Complete g ((u.applyTo stampResult time.toInt o.store.hostGroupResults).range group) :=
    complete_congr (hostNames_commitHealthCheck hg h time.toInt)
  have hcounted : Counted hostGroupMap group g o (.commitHealthCheck dnsCache time) ↔
      (Complete g ((u.applyTo stampResult time.toInt o.store.hostGroupResults).range group) →
        g.hosts.length ≤ (hostsReporting u o.store.hostGroupResults).length) := by
    simp only [Counted, h, Option.some.injEq, forall_eq', mem_hostsReporting time.toInt, hgroup]
  rw [hcounted, PolicyMet]
  simp only [touch_eq hg h, Option.some.injEq, forall_eq']
  constructor
  · intro hmet hall
    cases hknown : u.isKnown o.store.hostGroupResults with
    | true => exact (tracked_of_known hs hgroup hknown hall).1
    | false =>
      have hstored := hmet.coldStart (hcomplete.mpr hall) (by simp [hknown])
      simpa [isStored_of_new hknown] using hstored
  · intro hcount
    have hcontent := content_commitHealthCheck hg h hs hu time.toInt
    cases hknown : u.isKnown o.store.hostGroupResults with
    | true =>
      have hlength : ((u.applyTo stampResult time.toInt o.store.hostGroupResults).range
          group).length = (o.store.hostGroupResults.range group).length := by
        rw [GroupUpdate.range_applyTo, if_pos hgroup, if_pos hknown,
          SortedMultimap.length_modifyFirstVal]
      refine ⟨?_, ?_, ?_, ?_, hcontent⟩
      · intro hall hpolicy
        rcases tracked_of_known hs hgroup hknown (hcomplete.mp hall) with ⟨hcount, htracks⟩
        exact (isStored_iff_of_known hgroup hknown hcount htracks _).1 hpolicy
      · intro hall hpolicy _
        rcases tracked_of_known hs hgroup hknown (hcomplete.mp hall) with ⟨hcount, htracks⟩
        rw [hlength]
        exact (isStored_iff_of_known hgroup hknown hcount htracks _).2.1 hpolicy
      · intro hall hpolicy _
        rcases tracked_of_known hs hgroup hknown (hcomplete.mp hall) with ⟨hcount, htracks⟩
        rw [hlength]
        exact (isStored_iff_of_known hgroup hknown hcount htracks _).2.2 hpolicy
      · intro _ hnew
        simp at hnew
    | false =>
      have hstored : Complete g ((o.store.commitHealthCheck ⟨hostGroupMap, dnsCache⟩
          time.toInt).1.hostGroupResults.range group) →
          isStored g o.store.healthCheckCommitPolicy u time.toInt o.store.hostGroupResults =
            true := by
        intro hall
        rw [isStored_of_new hknown, decide_eq_true_eq]
        exact hcount (hcomplete.mp hall)
      refine ⟨fun hall _ => hstored hall, ?_, ?_, fun hall _ => hstored hall, hcontent⟩
      · intro _ _ hold
        simp at hold
      · intro _ _ hold
        simp at hold

/-- What a commit that applies an update to the group keeps. -/
theorem settled_applied (hg : hostGroupMap.get? group = some g)
    (h : applied hostGroupMap group g o.store dnsCache = some u) (hs : Settled group g o)
    (hu : u.hostName ≠ []) {t : Touch}
    (ht : touch hostGroupMap group g o.store dnsCache time = some t)
    (hcounted : Counted hostGroupMap group g o (.commitHealthCheck dnsCache time)) :
    Settled group g
      ⟨(o.store.commitHealthCheck ⟨hostGroupMap, dnsCache⟩ time.toInt).1, t :: o.history⟩ := by
  obtain ⟨-, -, hgroup, -⟩ := applied_eq_some hostGroupMap group g h
  obtain ⟨hsettings, hrange⟩ := commitHealthCheck_applied hg h time.toInt
  have hnames := hostNames_commitHealthCheck hg h time.toInt
  rw [touch_eq hg h, Option.some.injEq] at ht
  refine ⟨hsettings.readonly.trans hs.readonly, hsettings.shutdown.trans hs.shutdown, ?_, ?_⟩
  · intro e he
    have hmem := List.mem_map_of_mem (f := fun e : HMGroupCheckResult => e.hostName) he
    rw [hnames] at hmem
    rcases List.mem_map.mp hmem with ⟨e', he', heq⟩
    rw [← heq]
    exact named_applyTo hs.named hu time.toInt e' he'
  · intro _ hall
    rw [complete_congr hnames] at hall
    have hcount : g.hosts.length ≤ (hostsReporting u o.store.hostGroupResults).length := by
      apply hcounted u h
      rw [mem_hostsReporting time.toInt, hgroup]
      exact hall
    refine ⟨?_, ?_⟩
    · rw [hnames]
      rwa [hostsReporting_eq time.toInt, hgroup] at hcount
    · rw [hrange]
      by_cases hstored : isStored g o.store.healthCheckCommitPolicy u time.toInt
          o.store.hostGroupResults = true
      · rw [if_pos hstored]
        subst ht
        exact tracks_mark hstored rfl
      · rw [if_neg hstored]
        cases hknown : u.isKnown o.store.hostGroupResults with
        | true =>
          obtain ⟨-, htracks⟩ := tracked_of_known hs hgroup hknown hall
          rw [GroupUpdate.range_applyTo, if_pos hgroup, if_pos hknown]
          subst ht
          exact tracks_replace htracks (Bool.eq_false_iff.mpr hstored) rfl
        | false =>
          rw [isStored_of_new hknown, decide_eq_true_eq] at hstored
          exact absurd hcount hstored

/-- One step: the policy is met just when enough hosts are counted, and then the bookkeeping goes
on. -/
theorem settled_step (hg : hostGroupMap.get? group = some g) {e : Event} (hs : Settled group g o)
    (hnamed : Named hostGroupMap group g o e) :
    (PolicyMet hostGroupMap group g o e ↔ Counted hostGroupMap group g o e) ∧
      ∀ o', Counted hostGroupMap group g o e → step hostGroupMap group g o e = some o' →
        Settled group g o' := by
  cases e with
  | storeCheckResult hostname address hostGroups result =>
    refine ⟨Iff.rfl, fun o' _ hstep => ?_⟩
    obtain rfl := Option.some.inj hstep
    rw [storeCheckResult, if_neg (by simp [hs.readonly])]
    exact ⟨hs.readonly, hs.shutdown, hs.named, hs.tracked⟩
  | commitHealthCheck dnsCache time =>
    cases happlied : applied hostGroupMap group g o.store dnsCache with
    | some u =>
      have hu := hnamed u happlied
      refine ⟨stepMet_iff hg happlied hs hu, fun o' hcounted hstep => ?_⟩
      obtain rfl := Option.some.inj hstep
      have htouch := touch_eq hg happlied time
      rw [htouch]
      exact settled_applied hg happlied hs hu htouch hcounted
    | none =>
      have htouch : touch hostGroupMap group g o.store dnsCache time = none := by
        rw [touch, happlied, Option.map_none]
      refine ⟨?_, fun o' _ hstep => ?_⟩
      · simp [PolicyMet, Counted, htouch, happlied]
      · obtain rfl := Option.some.inj hstep
        obtain ⟨hsettings, hrange⟩ := commitHealthCheck_not_applied hg happlied time.toInt
        rw [htouch]
        refine ⟨hsettings.readonly.trans hs.readonly, hsettings.shutdown.trans hs.shutdown, ?_, ?_⟩
        · rw [hrange]
          exact hs.named
        · rw [hrange]
          exact hs.tracked

end Invariant

section Policy

variable (hostGroupMap : HMDataHostGroupMap) (group : HMString) (g : HMDataHostGroup)

instance (o : Observed) (e : Event) : Decidable (Named hostGroupMap group g o e) :=
  match e with
  | .storeCheckResult .. => inferInstanceAs (Decidable True)
  | .commitHealthCheck dnsCache _ => inferInstanceAs
      (Decidable (∀ u ∈ applied hostGroupMap group g o.store dnsCache, u.hostName ≠ []))

end Policy

section Described

instance (g : HMDataHostGroup) (entries : List HMGroupCheckResult) :
    Decidable (Complete g entries) :=
  inferInstanceAs (Decidable (∀ host ∈ g.hosts, ∃ e ∈ entries, e.hostName = host))

/-- A client's description of a group with the given hosts. -/
def described (hosts : List HMString) : HMDataHostGroup :=
  .ofAPICheckInfo .default (bytes "g")
    { toCheckParameters := .default
      ipv4 := true
      ipv6 := false
      checkType := .tcp
      port := 80
      checkInfo := []
      tosValue := 0
      remoteCheck := []
      flowType := .dnsHealth
      distributedFallback := .none
      remoteCheckType := .none
      hosts := hosts
      hostGroups := [] }

/-- The cache holds one address of the host. -/
def resolved : HMDNSCache :=
  let lookup := HMDNSLookup.new .lookup false []
  (HMDNSCache.empty.insertDNSEntry (bytes "a") lookup 1000 1000).updateDNSEntry (bytes "a") lookup
    (SortedSet.insertAll ∅ [.v4 7])

def checkedTwice : List Event :=
  [.storeCheckResult (bytes "a") (.v4 7) [bytes "g"] (.new 0), .commitHealthCheck resolved 5,
    .storeCheckResult (bytes "a") (.v4 7) [bytes "g"] (.new 0), .commitHealthCheck resolved 6]

end Described

end CommitPolicy
