import NetCHASM.StorageInit

/-! A restart with another configuration. The start compares every group that has stored
results with the group the backend holds, which by then is the group of the new
configuration, and visits only the groups of the new configuration. -/
namespace StorageRestart

open NetCHASM OrderedMap KeyOrder HMState DaemonState

/-! What the backend holds once the configuration is stored. -/

@[simp] theorem length_strncpy (s : HMString) : (strncpy s).length = s.length :=
  Decoding.length_padded s

@[simp] theorem strncpy_strncpy (s : HMString) : strncpy (strncpy s) = strncpy s := by
  rw [strncpy, length_strncpy, strncpy, Decoding.padded_padded]

/-- The copy of a group that the backend returns compares equal to it: its name and check
info have nothing after a zero byte. -/
def HasStableTexts (g : HMDataHostGroup) : Prop :=
  strncpy g.groupName = g.groupName ∧ strncpy g.checkInfo = g.checkInfo

theorem beq_restore {g stored : HMDataHostGroup} (h : g.restore = .found stored) :
    g.beq stored = true ↔ HasStableTexts g := by
  unfold HMDataHostGroup.restore at h
  split at h
  · cases h
  · obtain rfl := Fetch.found.inj h
    simp only [HMDataHostGroup.beq, HasStableTexts, decide_true, Bool.and_true, Bool.and_eq_true,
      decide_eq_true_eq]
    exact and_congr eq_comm eq_comm

variable {s s' : HMStorageHostGroup} {m : HMDataHostGroupMap}

theorem storeConfigs_eq (hreadonly : s.readonly = false) (hshutdown : s.shutdown = false)
    (h : s.storeConfigs m = some s') : [] ∉ m.keys ∧ s' = { s with
      backend := { s.backend with
        groupInfo := m.entries.foldl (fun i e => i.set e.1 e.2) s.backend.groupInfo
        groupNames := some (m.keys.map strncpy) } } := by
  have hfold : ∀ (es : List (HMString × HMDataHostGroup)) (i : SortedMap HMString HMDataHostGroup),
      es.foldl (fun (s : HMStorageHostGroup) e => s.storeGroupInfo e.1 e.2)
        { s with backend := { s.backend with groupInfo := i } } =
      { s with backend := { s.backend with groupInfo := es.foldl (fun i e => i.set e.1 e.2) i } } := by
    intro es
    induction es with
    | nil => exact fun _ => rfl
    | cons e es ih =>
      intro i
      rw [List.foldl_cons, List.foldl_cons, ← ih]
      congr 1
      simp [HMStorageHostGroup.storeGroupInfo, hreadonly, hshutdown]
  have hstored := hfold m.entries s.backend.groupInfo
  rw [HMStorageHostGroup.storeConfigs, hstored, HMStorageHostGroup.storeHostGroupNames] at h
  rw [if_neg (by simp [hreadonly, hshutdown])] at h
  split at h
  · cases h
  · rename_i hnames
    exact ⟨hnames, (Option.some.inj h).symm⟩

theorem get?_storedInfo {i : SortedMap HMString HMDataHostGroup} {name : HMString}
    {g : HMDataHostGroup} (h : m.get? name = some g) :
    (m.entries.foldl (fun i e => i.set e.1 e.2) i).get? name = some g := by
  have hmem := SortedMap.mem_of_get? h
  refine SortedMap.get?_foldl_set (fun e he hk => ?_) (Or.inr ⟨_, hmem, eqv_refl name⟩)
  exact congrArg Prod.snd (SortedMap.eq_of_mem he hmem hk)

/-- The names that the start reads back. -/
theorem groupNames_of_stored (hshutdown : s.shutdown = false) (hnames : [] ∉ m.keys)
    (hstored : s.backend.groupNames = some (m.keys.map strncpy)) :
    ∃ names, groupNames s = some names ∧ ∀ n, n ∈ names ↔ ∃ k ∈ m.keys, strncpy k = n := by
  have hnotEmpty : [] ∉ m.keys.map strncpy := by
    intro hmem
    rcases List.mem_map.mp hmem with ⟨k, hk, heq⟩
    have hlength : k.length = 0 := by rw [← length_strncpy, heq, List.length_nil]
    rw [List.eq_nil_of_length_eq_zero hlength] at hk
    exact hnames hk
  refine ⟨(SortedSet.insertAll ∅ ((m.keys.map strncpy).map strncpy)).toList, ?_, ?_⟩
  · simp only [groupNames, HMStorageHostGroup.getHostGroupNames, hshutdown, hstored, hnotEmpty,
      Bool.false_eq_true, if_false]
  · intro n
    rw [← SortedSet.contains_iff_mem, SortedSet.contains_insertAll]
    simp [SortedMap.contains, eqv_iff_eq]

/-! The records that are read. -/

section Records

variable {ρ σ : Type} {de : σ → ρ} {load : HMString → Fetch (List (GroupEntry ρ))}
  {names : List HMString} {cache cache' : GroupCache ρ}

theorem mapM_eq_some {es : List (StoredEntry σ)} {rs : List (GroupEntry ρ)}
    (h : (es.mapM fun e => e.fetch de) = some rs) :
    (∀ e ∈ es, ∃ r, e.fetch de = some r) ∧ ∀ r, r ∈ rs ↔ ∃ e ∈ es, e.fetch de = some r := by
  induction es generalizing rs with
  | nil =>
    obtain rfl : [] = rs := by simpa using h
    simp
  | cons e es ih =>
    simp only [List.mapM_cons, Option.bind_eq_bind, Option.pure_def, Option.bind_eq_some_iff,
      Option.some.injEq] at h
    rcases h with ⟨x, hx, xs, hxs, rfl⟩
    obtain ⟨hall, hmem⟩ := ih hxs
    refine ⟨?_, ?_⟩
    · intro e' he'
      rcases List.mem_cons.mp he' with rfl | he'
      · exact ⟨x, hx⟩
      · exact hall e' he'
    · intro r
      rw [List.mem_cons, hmem r]
      simp [hx, eq_comm]

/-- A record that can be read gives one result for each of its entries. -/
theorem mem_readRecord {record : Option (List (StoredEntry σ))}
    (h : readRecord de record ≠ .raised) :
    (∀ e ∈ record.getD [], ∃ r, e.fetch de = some r) ∧
    ∀ r, (∃ rs, readRecord de record = .found rs ∧ r ∈ rs) ↔
      ∃ e ∈ record.getD [], e.fetch de = some r := by
  unfold readRecord at h ⊢
  cases record with
  | none => simp
  | some es =>
    dsimp only at h ⊢
    split at h
    · rename_i rs hes
      obtain ⟨hall, hmem⟩ := mapM_eq_some hes
      refine ⟨hall, ?_⟩
      intro r
      simp [hmem]
    · exact absurd rfl h

theorem hostName_of_fetch {e : StoredEntry σ} {r : GroupEntry ρ} (h : e.fetch de = some r) :
    r.hostName = strncpy e.hostName := by
  unfold StoredEntry.fetch at h
  split at h
  · obtain rfl := Option.some.inj h
    rfl
  · cases h

theorem mem_fetchGroups (h : fetchGroups load names cache = some cache')
    (x : HMString × GroupEntry ρ) :
    x ∈ cache'.entries ↔
      x ∈ cache.entries ∨ x.1 ∈ names ∧ ∃ rs, load x.1 = .found rs ∧ x.2 ∈ rs := by
  induction names generalizing cache with
  | nil =>
    obtain rfl := Option.some.inj h
    simp
  | cons name names ih =>
    unfold fetchGroups at h
    split at h
    · rename_i rs hload
      rw [ih h, SortedMultimap.mem_insertAll, List.mem_cons]
      constructor
      · rintro ((hx | ⟨hname, hmem⟩) | ⟨hname, hrs⟩)
        · exact Or.inl hx
        · exact Or.inr ⟨Or.inl hname, rs, hname ▸ hload, hmem⟩
        · exact Or.inr ⟨Or.inr hname, hrs⟩
      · rintro (hx | ⟨hname | hname, rs', hload', hmem⟩)
        · exact Or.inl (Or.inl hx)
        · rw [hname, hload] at hload'
          obtain rfl := Fetch.found.inj hload'
          exact Or.inl (Or.inr ⟨hname, hmem⟩)
        · exact Or.inr ⟨hname, rs', hload', hmem⟩
    · rename_i hload
      rw [ih h, List.mem_cons]
      constructor
      · rintro (hx | ⟨hname, hrs⟩)
        · exact Or.inl hx
        · exact Or.inr ⟨Or.inr hname, hrs⟩
      · rintro (hx | ⟨hname | hname, rs, hload', hmem⟩)
        · exact Or.inl hx
        · rw [hname, hload] at hload'
          cases hload'
        · exact Or.inr ⟨hname, rs, hload', hmem⟩
    · cases h

theorem load_ne_raised (h : fetchGroups load names cache = some cache') {name : HMString}
    (hname : name ∈ names) : load name ≠ .raised := by
  induction names generalizing cache with
  | nil => exact absurd hname List.not_mem_nil
  | cons x names ih =>
    unfold fetchGroups at h
    split at h
    · rename_i rs hload
      rcases List.mem_cons.mp hname with rfl | hname
      · simp [hload]
      · exact ih h hname
    · rename_i hload
      rcases List.mem_cons.mp hname with rfl | hname
      · simp [hload]
      · exact ih h hname
    · cases h

end Records

/-! The loop over the stored results. -/

/-- A store with other check records. -/
def withChecks (s : HMStorageHostGroup)
    (checks : SortedMap HMString (List (StoredEntry StoredCheckResult))) : HMStorageHostGroup :=
  { s with backend := { s.backend with checks := checks } }

/-- A result that the loop keeps: of a configured and unchanged group, for one of its hosts. -/
def isKept (m : HMDataHostGroupMap) (s : HMStorageHostGroup) (e : HMString × HMGroupCheckResult) :
    Bool :=
  (m.get? e.1).any fun g => decide (s.isChanged e.1 g = some false) && g.isValidHost e.2.hostName

/-- A group whose record is removed because of one of its results. -/
def isRemoved (m : HMDataHostGroupMap) (s : HMStorageHostGroup) (name : HMString) : Bool :=
  (m.get? name).all fun g => s.isChanged name g = some true

variable {p p' : Purge} {e : HMString × HMGroupCheckResult}
  {es : List (HMString × HMGroupCheckResult)}

theorem saveAddresses_frame (p : Purge) (g : HMDataHostGroup) (e : HMString × HMGroupCheckResult)
    (rest : List (HMString × HMGroupCheckResult)) :
    (p.saveAddresses g e rest).backendChecks = p.backendChecks ∧
      (p.saveAddresses g e rest).healthCheckUpdateList = p.healthCheckUpdateList := by
  refine List.foldlRecOn (motive := fun q : Purge => q.backendChecks = p.backendChecks ∧
    q.healthCheckUpdateList = p.healthCheckUpdateList) _ _ ⟨rfl, rfl⟩ fun q hq x _ => ?_
  split
  · exact hq
  · exact hq

/-- What the loop does with one result. -/
theorem purgeCheck_cases (h : p.purgeCheck m e es = some p') :
    (∀ g, m.get? e.1 = some g → p.store.isChanged e.1 g ≠ none) ∧
    p'.store = (if isRemoved m p.store e.1 then p.store.removeHostGroupCheckResults e.1
      else p.store) ∧
    p'.backendChecks = (if isKept m p.store e then p.backendChecks ++ [e] else p.backendChecks) ∧
    (p'.healthCheckUpdateList = p.healthCheckUpdateList ∨
      m.contains e.1 = true ∧
        p'.healthCheckUpdateList = p.healthCheckUpdateList.insert e.1 ()) := by
  unfold Purge.purgeCheck at h
  split at h
  · rename_i hget
    obtain rfl := Option.some.inj h
    simp [isRemoved, isKept, hget]
  · rename_i g hget
    split at h
    · cases h
    · rename_i hchanged
      obtain rfl := Option.some.inj h
      obtain ⟨hkept, hlist⟩ := saveAddresses_frame p g e es
      simp [isRemoved, isKept, hget, hchanged, hkept, hlist]
    · rename_i hsame
      split at h
      · rename_i hvalid
        obtain rfl := Option.some.inj h
        simp [isRemoved, isKept, hget, hsame, hvalid, Purge.saveAddress]
      · rename_i hvalid
        obtain rfl := Option.some.inj h
        simp [isRemoved, isKept, hget, hsame, hvalid, SortedMap.contains_eq]

theorem removeHostGroupCheckResults_eq (hreadonly : s.readonly = false)
    (hshutdown : s.shutdown = false) (name : HMString) :
    s.removeHostGroupCheckResults name = withChecks s (s.backend.checks.erase name) := by
  simp [HMStorageHostGroup.removeHostGroupCheckResults, hreadonly, hshutdown, withChecks]

/-- The loop keeps the results that `isKept` selects, removes the records of changed and
unknown groups that have a result, and lists only configured groups for an update. -/
structure Purged (m : HMDataHostGroupMap) (es : List (HMString × HMGroupCheckResult))
    (p p' : Purge) : Prop where
  fetched : ∀ e ∈ es, ∀ g, m.get? e.1 = some g → p.store.isChanged e.1 g ≠ none
  kept : p'.backendChecks = p.backendChecks ++ es.filter (isKept m p.store)
  store : ∃ checks, p'.store = withChecks p.store checks ∧ ∀ name, checks.get? name =
    if isRemoved m p.store name && es.any (fun e => e.1 = name) then none
    else p.store.backend.checks.get? name
  listed : ∀ name, p'.healthCheckUpdateList.contains name = true →
    p.healthCheckUpdateList.contains name = true ∨ m.contains name = true

theorem Purged.refl (p : Purge) : Purged m [] p p :=
  ⟨by simp, by simp, ⟨p.store.backend.checks, rfl, by simp⟩, fun _ => Or.inl⟩

theorem Purged.trans {es' : List (HMString × HMGroupCheckResult)} {q : Purge}
    (h : Purged m es p q) (h' : Purged m es' q p') : Purged m (es ++ es') p p' := by
  obtain ⟨checks, hstore, hget⟩ := h.store
  obtain ⟨checks', hstore', hget'⟩ := h'.store
  -- The loop reads nothing of the store that it changes.
  have hkept : isKept m q.store = isKept m p.store := by
    rw [hstore]
    rfl
  have hremoved : isRemoved m q.store = isRemoved m p.store := by
    rw [hstore]
    rfl
  refine ⟨?_, ?_, ⟨checks', ?_, ?_⟩, ?_⟩
  · intro e he
    rcases List.mem_append.mp he with he | he
    · exact h.fetched e he
    · have hfetched := h'.fetched e he
      rw [hstore] at hfetched
      exact hfetched
  · rw [h'.kept, h.kept, hkept, List.filter_append, List.append_assoc]
  · rw [hstore', hstore]
    rfl
  · intro name
    rw [hget', hremoved, hstore]
    simp only [withChecks, hget, List.any_append]
    cases isRemoved m p.store name with
    | false => simp
    | true =>
      cases es.any fun e => decide (e.1 = name) with
      | false => rfl
      | true => simp
  · intro name hname
    rcases h'.listed name hname with hin | hconfigured
    · exact h.listed name hin
    · exact Or.inr hconfigured

theorem purged_purgeCheck (hreadonly : p.store.readonly = false)
    (hshutdown : p.store.shutdown = false) (h : p.purgeCheck m e es = some p') :
    Purged m [e] p p' := by
  obtain ⟨hfetched, hstore, hkept, hlist⟩ := purgeCheck_cases h
  refine ⟨by simpa using hfetched, ?_, ?_, ?_⟩
  · rw [hkept, List.filter_singleton]
    split
    · rename_i hkeep
      rw [hkeep]
      rfl
    · rename_i hdrop
      rw [Bool.not_eq_true] at hdrop
      simp [hdrop]
  · by_cases hremoved : isRemoved m p.store e.1 = true
    · rw [if_pos hremoved, removeHostGroupCheckResults_eq hreadonly hshutdown] at hstore
      refine ⟨_, hstore, ?_⟩
      intro name
      rw [SortedMap.get?_erase]
      by_cases hname : e.1 = name
      · subst hname
        simp [hremoved]
      · have hne : ¬ eqv e.1 name = true := fun heqv => hname (eqv_iff_eq.mp heqv)
        simp [hne, hname]
    · rw [if_neg hremoved] at hstore
      refine ⟨p.store.backend.checks, hstore, ?_⟩
      intro name
      by_cases hname : e.1 = name
      · subst hname
        simp [hremoved]
      · simp [hname]
  · intro name hname
    rcases hlist with hsame | ⟨hcontains, hinsert⟩
    · exact Or.inl (hsame ▸ hname)
    · rw [hinsert, SortedMap.contains_insert, Bool.or_eq_true] at hname
      rcases hname with heqv | hin
      · rw [eqv_iff_eq.mp heqv] at hcontains
        exact Or.inr hcontains
      · exact Or.inl hin

theorem purged_purgeChecks (hreadonly : p.store.readonly = false)
    (hshutdown : p.store.shutdown = false) (h : p.purgeChecks m es = some p') :
    Purged m es p p' := by
  induction es generalizing p with
  | nil =>
    obtain rfl := Option.some.inj h
    exact Purged.refl p
  | cons e es ih =>
    unfold Purge.purgeChecks at h
    split at h
    · cases h
    · rename_i q hq
      have hone := purged_purgeCheck hreadonly hshutdown hq
      obtain ⟨checks, hstore, -⟩ := hone.store
      have hrest := ih (by rw [hstore]; exact hreadonly) (by rw [hstore]; exact hshutdown) h
      exact hone.trans hrest

/-! The results that are taken over. -/

variable {d r : DaemonState}

theorem takeCheck_spec (d : DaemonState) (e : HMString × HMGroupCheckResult) :
    (d.takeCheck e).state.hostGroups = d.state.hostGroups ∧
    ∃ results, (d.takeCheck e).store = { d.store with hostGroupResults := results } ∧
      ∀ x, x ∈ results.entries ↔ x ∈ d.store.hostGroupResults.entries ∨
        x = e ∧ d.state.hostGroups.contains x.1 = true := by
  rw [takeCheck]
  cases hget : d.state.hostGroups.get? e.1 with
  | none =>
    have hmissing : d.state.hostGroups.contains e.1 = false := by
      simp [SortedMap.contains_eq, hget]
    refine ⟨rfl, d.store.hostGroupResults, rfl, ?_⟩
    intro x
    rw [or_iff_left]
    rintro ⟨rfl, hcontains⟩
    rw [hmissing] at hcontains
    cases hcontains
  | some g =>
    have hfound : d.state.hostGroups.contains e.1 = true := by
      simp [SortedMap.contains_eq, hget]
    refine ⟨rfl, _, rfl, ?_⟩
    intro x
    rw [SortedMultimap.insert, mem_insertUpper, or_comm]
    refine or_congr Iff.rfl ⟨?_, fun hx => hx.1⟩
    rintro rfl
    exact ⟨rfl, hfound⟩

theorem foldl_takeCheck (es : List (HMString × HMGroupCheckResult)) (d : DaemonState) :
    (es.foldl takeCheck d).state.hostGroups = d.state.hostGroups ∧
    ∃ results, (es.foldl takeCheck d).store = { d.store with hostGroupResults := results } ∧
      ∀ x, x ∈ results.entries ↔ x ∈ d.store.hostGroupResults.entries ∨
        x ∈ es ∧ d.state.hostGroups.contains x.1 = true := by
  induction es generalizing d with
  | nil => exact ⟨rfl, d.store.hostGroupResults, rfl, by simp⟩
  | cons e es ih =>
    obtain ⟨hgroups, first, hstore, hfirst⟩ := takeCheck_spec d e
    obtain ⟨hgroups', results, hstore', hmem⟩ := ih (d.takeCheck e)
    rw [List.foldl_cons]
    refine ⟨hgroups'.trans hgroups, results, ?_, ?_⟩
    · rw [hstore', hstore]
    · intro x
      rw [hmem, hstore, hgroups, hfirst, List.mem_cons, or_and_right, or_assoc]

theorem foldl_takeAux (es : List (HMString × HMGroupAuxResult)) (d : DaemonState) :
    ∃ aux, (es.foldl takeAux d).store = { d.store with hostGroupAux := aux } := by
  refine List.foldlRecOn (motive := fun d' : DaemonState => ∃ aux,
    d'.store = { d.store with hostGroupAux := aux }) _ _ ⟨d.store.hostGroupAux, rfl⟩
    fun d' hd e _ => ?_
  rcases hd with ⟨aux, haux⟩
  unfold takeAux
  split
  · exact ⟨aux, haux⟩
  · exact ⟨_, by rw [haux]⟩

/-- Writing some groups leaves the records of the others. -/
theorem foldl_storeChecks (names : List HMString) (s : HMStorageHostGroup) :
    (names.foldl HMStorageHostGroup.storeHostGroupCheckResults s).hostGroupResults =
      s.hostGroupResults ∧
    ∀ n, n ∉ names →
      (names.foldl HMStorageHostGroup.storeHostGroupCheckResults s).backend.checks.get? n =
        s.backend.checks.get? n := by
  refine List.foldlRecOn (motive := fun s' : HMStorageHostGroup =>
    s'.hostGroupResults = s.hostGroupResults ∧
    ∀ n, n ∉ names → s'.backend.checks.get? n = s.backend.checks.get? n) _ _
    ⟨rfl, fun _ _ => rfl⟩ fun s' hs name hname => ?_
  unfold HMStorageHostGroup.storeHostGroupCheckResults
  split
  · exact hs
  · split
    · exact hs
    · refine ⟨hs.1, ?_⟩
      intro n hn
      have hne : ¬ eqv name n = true := by
        intro heqv
        rw [eqv_iff_eq.mp heqv] at hname
        exact hn hname
      dsimp only
      rw [SortedMap.get?_set, if_neg hne]
      exact hs.2 n hn

theorem foldl_storeAux (names : List HMString) (s : HMStorageHostGroup) :
    (names.foldl HMStorageHostGroup.storeHostGroupAuxInfo s).hostGroupResults =
      s.hostGroupResults ∧
    (names.foldl HMStorageHostGroup.storeHostGroupAuxInfo s).backend.checks = s.backend.checks := by
  refine List.foldlRecOn (motive := fun s' : HMStorageHostGroup =>
    s'.hostGroupResults = s.hostGroupResults ∧ s'.backend.checks = s.backend.checks) _ _ ⟨rfl, rfl⟩
    fun s' hs name _ => ?_
  unfold HMStorageHostGroup.storeHostGroupAuxInfo
  split
  · exact hs
  · split
    · exact hs
    · exact hs

/-- The start takes over the results that are kept, and leaves no record of an unknown group
that it visits. -/
theorem initResultsFromBackend_spec (hreadonly : d.store.readonly = false)
    (h : initResultsFromBackend d = some r) :
    ∃ names backendChecks, groupNames (clearStore d.store) = some names ∧
      fetchGroups (clearStore d.store).fetchCheckResults names ∅ = some backendChecks ∧
      (∀ e ∈ backendChecks.entries, ∀ g, d.state.hostGroups.get? e.1 = some g →
        (clearStore d.store).isChanged e.1 g ≠ none) ∧
      (∀ x, x ∈ r.store.hostGroupResults.entries ↔
        x ∈ backendChecks.entries ∧ isKept d.state.hostGroups (clearStore d.store) x = true) ∧
      ∀ n, d.state.hostGroups.contains n = false → r.store.backend.checks.get? n =
        if backendChecks.entries.any (fun e => e.1 = n) then none
        else d.store.backend.checks.get? n := by
  unfold initResultsFromBackend at h
  rw [if_neg (by simp [hreadonly])] at h
  simp only [Option.bind_eq_bind, Option.bind_eq_some_iff] at h
  rcases h with ⟨names, hnames, backendChecks, hchecks, backendAux, -, p, hp, aux, -, hr⟩
  have hpurged := purged_purgeChecks hreadonly rfl hp
  obtain ⟨checks, hstore, hget⟩ := hpurged.store
  have hkept : p.backendChecks = backendChecks.entries.filter
      (isKept d.state.hostGroups (clearStore d.store)) := hpurged.kept
  -- The store after the results, the aux records and the updates, one after the other.
  obtain ⟨-, results, hresults, hmem⟩ := foldl_takeCheck p.backendChecks
    { d with
      state := { d.state with
        checkList := p.checkList
        dnsCache := p.dnsMap.entries.foldl (Purge.updateDNS p.dnsResTimeMap) d.state.dnsCache }
      store := p.store }
  obtain ⟨hostGroupAux, haux⟩ := foldl_takeAux aux.1 (p.backendChecks.foldl takeCheck
    { d with
      state := { d.state with
        checkList := p.checkList
        dnsCache := p.dnsMap.entries.foldl (Purge.updateDNS p.dnsResTimeMap) d.state.dnsCache }
      store := p.store })
  rw [hresults] at haux
  obtain rfl := Option.some.inj hr
  refine ⟨names, backendChecks, hnames, hchecks, hpurged.fetched, ?_, ?_⟩
  · intro x
    dsimp only
    rw [(foldl_storeAux _ _).1, (foldl_storeChecks _ _).1, haux]
    dsimp only
    rw [hmem x, hstore, hkept, List.mem_filter]
    constructor
    · rintro (hx | ⟨hx, -⟩)
      · exact absurd hx List.not_mem_nil
      · exact hx
    · rintro ⟨hx, hkeep⟩
      rcases (Option.any_eq_true _ _).mp hkeep with ⟨g, hg, -⟩
      exact Or.inr ⟨⟨hx, hkeep⟩, by simp [SortedMap.contains_eq, hg]⟩
  · intro n hn
    have hunlisted : n ∉ p.healthCheckUpdateList.toList := by
      intro hlisted
      rcases hpurged.listed n (SortedSet.contains_iff_mem.mpr hlisted) with hempty | hconfigured
      · cases hempty
      · rw [hn] at hconfigured
        cases hconfigured
    have hremoved : isRemoved d.state.hostGroups (clearStore d.store) n = true := by
      rw [SortedMap.contains_eq, Option.isSome_eq_false_iff, Option.isNone_iff_eq_none] at hn
      simp [isRemoved, hn]
    dsimp only
    rw [(foldl_storeAux _ _).2, (foldl_storeChecks _ _).2 n hunlisted, haux]
    dsimp only
    rw [hstore]
    dsimp only [withChecks]
    rw [hget n]
    dsimp only
    rw [hremoved, Bool.true_and]
    rfl

/-! The restart. -/

/-- After the restart no changed group has a result in the cache, and the backend has none
for a removed group. -/
structure Clean (c₁ c₂ : HMDataHostGroupMap) (s : HMStorageHostGroup) : Prop where
  changed : ∀ e ∈ c₁.entries, ∀ g ∈ c₂.get? e.1, e.2.beq g = false →
    s.hostGroupResults.range e.1 = []
  removed : ∀ e ∈ c₁.entries, c₂.contains e.1 = false → (s.backend.checks.get? e.1).getD [] = []

/-- Nothing is stored that the restart would have to drop: no result of a changed group for
a host that it still has, and no result of a removed group. Names and texts that the backend
does not return as they were stored are apart. -/
structure NothingStale (c₁ c₂ : HMDataHostGroupMap) (b : Backend) : Prop where
  changed : ∀ e ∈ c₁.entries, ∀ g ∈ c₂.get? e.1, e.2.beq g = false →
    strncpy e.1 = e.1 ∧ HasStableTexts g →
    ∀ r ∈ (b.checks.get? e.1).getD [], strncpy r.hostName ∉ g.hosts
  removed : ∀ e ∈ c₁.entries, c₂.contains e.1 = false → (∀ k ∈ c₂.keys, strncpy k ≠ e.1) →
    (b.checks.get? e.1).getD [] = []

theorem get?_prepared (settings : Settings) (c : HMDataHostGroupMap) (n : HMString) :
    (generateCheckList settings c).hostGroups.get? n = (c.get? n).map settings.prepare := by
  simp only [generateCheckList, SortedMap.get?, SortedMap.find?_mapVals, Option.map_map]
  rfl

theorem keys_prepared (settings : Settings) (c : HMDataHostGroupMap) :
    (generateCheckList settings c).hostGroups.keys = c.keys := by
  simp [generateCheckList, SortedMap.keys, SortedMap.mapVals]

theorem contains_prepared (settings : Settings) (c : HMDataHostGroupMap) (n : HMString) :
    (generateCheckList settings c).hostGroups.contains n = c.contains n := by
  rw [SortedMap.contains_eq, get?_prepared, Option.isSome_map, SortedMap.contains_eq]

theorem prepare_texts (settings : Settings) (g : HMDataHostGroup) :
    (HasStableTexts (settings.prepare g) ↔ HasStableTexts g) ∧
      (settings.prepare g).hosts = g.hosts := by
  unfold Settings.prepare
  dsimp only
  split
  · exact ⟨Iff.rfl, rfl⟩
  · exact ⟨Iff.rfl, rfl⟩

/-- The comparison with the stored group, which is the configured one. -/
theorem isChanged_of_stored {n : HMString} {g : HMDataHostGroup} (hshutdown : s.shutdown = false)
    (hinfo : s.backend.groupInfo.get? n = some g) (hfetched : s.isChanged n g ≠ none) :
    s.isChanged n g = some false ↔ HasStableTexts g := by
  have hget : s.getGroupInfo n = g.restore := by
    simp [HMStorageHostGroup.getGroupInfo, hshutdown, hinfo]
  unfold HMStorageHostGroup.isChanged at hfetched ⊢
  rw [hget] at hfetched ⊢
  cases hrestore : g.restore with
  | found stored =>
    rw [← beq_restore hrestore]
    simp
  | missing =>
    unfold HMDataHostGroup.restore at hrestore
    split at hrestore
    · cases hrestore
    · cases hrestore
  | raised => simp [hrestore] at hfetched

/-- The results that a load reads: those of the groups whose name comes back. -/
structure Reads (b : Backend) (c : HMDataHostGroupMap)
    (backendChecks : GroupCache HMDataCheckResult) : Prop where
  entries : ∀ x, x ∈ backendChecks.entries ↔ (∃ k ∈ c.keys, strncpy k = x.1) ∧
    ∃ e ∈ (b.checks.get? x.1).getD [], e.fetch HMDataCheckResult.deserialize = some x.2
  readable : ∀ n, (∃ k ∈ c.keys, strncpy k = n) → ∀ e ∈ (b.checks.get? n).getD [],
    ∃ x, e.fetch HMDataCheckResult.deserialize = some x

theorem reads_fetchGroups {names : List HMString} {c : HMDataHostGroupMap}
    {backendChecks : GroupCache HMDataCheckResult} (hshutdown : s.shutdown = false)
    (hnames : ∀ n, n ∈ names ↔ ∃ k ∈ c.keys, strncpy k = n)
    (h : fetchGroups s.fetchCheckResults names ∅ = some backendChecks) :
    Reads s.backend c backendChecks := by
  have hrecord : ∀ n, s.fetchCheckResults n =
      readRecord HMDataCheckResult.deserialize (s.backend.checks.get? n) := by
    intro n
    simp [HMStorageHostGroup.fetchCheckResults, hshutdown]
  have hreadable : ∀ n, (∃ k ∈ c.keys, strncpy k = n) →
      readRecord HMDataCheckResult.deserialize (s.backend.checks.get? n) ≠ .raised := by
    intro n hn
    rw [← hrecord]
    exact load_ne_raised h ((hnames n).mpr hn)
  refine ⟨?_, fun n hn => (mem_readRecord (hreadable n hn)).1⟩
  intro x
  rw [mem_fetchGroups h, hnames]
  constructor
  · rintro (hx | ⟨hk, hrs⟩)
    · exact absurd hx List.not_mem_nil
    · rw [hrecord] at hrs
      exact ⟨hk, ((mem_readRecord (hreadable _ hk)).2 x.2).mp hrs⟩
  · rintro ⟨hk, hrs⟩
    rw [hrecord]
    exact Or.inr ⟨hk, ((mem_readRecord (hreadable _ hk)).2 x.2).mpr hrs⟩

variable {healthPolicy auxPolicy : StorageCommitPolicy} {b : Backend} {settings : Settings}
  {c : HMDataHostGroupMap}

/-- A load keeps, of the results it reads, those whose group has stable texts and still has
the host; of the records of unknown groups it removes those it reads a result of. -/
theorem load_spec (h : loadDaemonState (.openStore healthPolicy auxPolicy b) settings c = some r) :
    ∃ backendChecks, Reads b c backendChecks ∧
      (∀ x g, c.get? x.1 = some g → (x ∈ r.store.hostGroupResults.entries ↔
        x ∈ backendChecks.entries ∧ HasStableTexts g ∧ x.2.hostName ∈ g.hosts)) ∧
      ∀ n, c.contains n = false → r.store.backend.checks.get? n =
        if backendChecks.entries.any (fun e => e.1 = n) then none else b.checks.get? n := by
  simp only [loadDaemonState, Option.bind_eq_bind, Option.bind_eq_some_iff] at h
  rcases h with ⟨store, hstored, hinit⟩
  obtain ⟨hnames, hstore⟩ := storeConfigs_eq rfl rfl hstored
  have hreadonly : store.readonly = false := by
    rw [hstore]
    rfl
  have hnamed : (clearStore store).backend.groupNames =
      some ((generateCheckList settings c).hostGroups.keys.map strncpy) := by
    rw [hstore]
    rfl
  have hchecks : store.backend.checks = b.checks := by
    rw [hstore]
    rfl
  have hinfo : ∀ {n g}, (generateCheckList settings c).hostGroups.get? n = some g →
      (clearStore store).backend.groupInfo.get? n = some g := by
    rw [hstore]
    exact get?_storedInfo
  obtain ⟨names, backendChecks, hread, hfetch, hfetched, hresults, hrecords⟩ :=
    initResultsFromBackend_spec hreadonly hinit
  obtain ⟨names', hread', hmem⟩ := groupNames_of_stored rfl hnames hnamed
  obtain rfl := Option.some.inj (hread.symm.trans hread')
  rw [keys_prepared] at hmem
  obtain ⟨hentries, hreadable⟩ := reads_fetchGroups rfl hmem hfetch
  have hsame : (clearStore store).backend.checks = b.checks := hchecks
  simp only [hsame] at hentries hreadable
  refine ⟨backendChecks, ⟨hentries, hreadable⟩, ?_, ?_⟩
  · intro x g hg
    have hprepared := get?_prepared settings c x.1
    rw [hg, Option.map_some] at hprepared
    rw [hresults]
    refine and_congr_right ?_
    intro hx
    have hunchanged := isChanged_of_stored rfl (hinfo hprepared) (hfetched x hx _ hprepared)
    obtain ⟨htexts, hhosts⟩ := prepare_texts settings g
    rw [isKept, hprepared, Option.any_some, Bool.and_eq_true, decide_eq_true_eq, hunchanged, htexts,
      HMDataHostGroup.isValidHost, hhosts, decide_eq_true_eq]
  · intro n hn
    rw [hrecords n ((contains_prepared settings c n).trans hn), hchecks]

/-- A restart leaves nothing of the changed and removed groups behind exactly when nothing
is stored that it would have to drop. -/
theorem restart_clean_iff {c₁ c₂ : HMDataHostGroupMap}
    (h : loadDaemonState (.openStore healthPolicy auxPolicy b) settings c₂ = some r) :
    Clean c₁ c₂ r.store ↔ NothingStale c₁ c₂ b := by
  obtain ⟨backendChecks, hreads, hresults, hrecords⟩ := load_spec h
  constructor
  · intro hclean
    refine ⟨?_, ?_⟩
    · rintro e he g hg hbeq ⟨hname, htexts⟩ x hx hhost
      have hkey : ∃ k ∈ c₂.keys, strncpy k = e.1 := by
        exact ⟨_, List.mem_map_of_mem (SortedMap.mem_of_get? hg), hname⟩
      obtain ⟨y, hy⟩ := hreads.readable e.1 hkey x hx
      have hread : (e.1, y) ∈ backendChecks.entries :=
        (hreads.entries (e.1, y)).mpr ⟨hkey, x, hx, hy⟩
      have hmem : (e.1, y) ∈ r.store.hostGroupResults.entries :=
        (hresults (e.1, y) g hg).mpr ⟨hread, htexts, hostName_of_fetch hy ▸ hhost⟩
      have hne := SortedMultimap.range_eq_nil.mp (hclean.changed e he g hg hbeq) _ hmem
      rw [eqv_refl] at hne
      cases hne
    · intro e he hmissing hnames
      have hrecord := hclean.removed e he hmissing
      rw [hrecords e.1 hmissing, if_neg] at hrecord
      · exact hrecord
      · intro hany
        rcases List.any_eq_true.mp hany with ⟨x, hx, hkey⟩
        rcases (hreads.entries x).mp hx with ⟨⟨k, hk, hcopy⟩, -⟩
        exact hnames k hk (hcopy.trans (of_decide_eq_true hkey))
  · intro hstale
    refine ⟨fun e he g hg hbeq => SortedMultimap.range_eq_nil.mpr ?_,
      ?_⟩
    · intro x hx
      cases heqv : eqv x.1 e.1 with
      | false => rfl
      | true =>
        have hkey : x.1 = e.1 := eqv_iff_eq.mp heqv
        rcases (hresults x g (hkey ▸ hg)).mp hx with ⟨hread, htexts, hhost⟩
        rcases (hreads.entries x).mp hread with ⟨⟨k, -, hcopy⟩, y, hy, hfetch⟩
        have hname : strncpy e.1 = e.1 := by rw [← hkey, ← hcopy, strncpy_strncpy]
        rw [hkey] at hy
        exact absurd (hostName_of_fetch hfetch ▸ hhost)
          (hstale.changed e he g hg hbeq ⟨hname, htexts⟩ y hy)
    · intro e he hmissing
      rw [hrecords e.1 hmissing]
      split
      · rfl
      · rename_i hnone
        by_cases hvisited : ∃ k ∈ c₂.keys, strncpy k = e.1
        · refine List.eq_nil_iff_forall_not_mem.mpr fun x hx => hnone ?_
          obtain ⟨y, hy⟩ := hreads.readable e.1 hvisited x hx
          exact List.any_eq_true.mpr
            ⟨(e.1, y), (hreads.entries (e.1, y)).mpr ⟨hvisited, x, hx, hy⟩, by simp⟩
        · exact hstale.removed e he hmissing fun k hk hcopy => hvisited ⟨k, hk, hcopy⟩

instance (g : HMDataHostGroup) : Decidable (HasStableTexts g) :=
  inferInstanceAs (Decidable (_ ∧ _))

instance (c₁ c₂ : HMDataHostGroupMap) (s : HMStorageHostGroup) : Decidable (Clean c₁ c₂ s) :=
  decidable_of_iff (_ ∧ _) ⟨fun h => ⟨h.1, h.2⟩, fun h => ⟨h.changed, h.removed⟩⟩

set_option synthInstance.maxSize 256 in
instance (c₁ c₂ : HMDataHostGroupMap) (b : Backend) : Decidable (NothingStale c₁ c₂ b) :=
  decidable_of_iff (_ ∧ _) ⟨fun h => ⟨h.1, h.2⟩, fun h => ⟨h.changed, h.removed⟩⟩

/-- Two groups of one host each. -/
def sampleGroups : HMDataHostGroupMap :=
  (SortedMap.empty.insert (bytes "old")
    { HMDataHostGroup.new (bytes "old") with hosts := [bytes "a"] }).insert (bytes "web")
    { HMDataHostGroup.new (bytes "web") with hosts := [bytes "b"] }

/-- The second group alone, at another port and with the given host. -/
def changedGroups (host : HMString) : HMDataHostGroupMap :=
  SortedMap.empty.insert (bytes "web")
    { HMDataHostGroup.new (bytes "web") with hosts := [host], port := 8080 }

def sampleResult (host : HMString) : HMGroupCheckResult :=
  ⟨host, .v4 1, false, 0, { HMDataCheckResult.new 0 with address := .v4 1, checkTime := 100 }⟩

/-- The backend after a run under the two groups, with the results of the given ones. -/
def sampleBackend (results : List (HMString × HMGroupCheckResult)) : Backend :=
  let store := HMStorageHostGroup.openStore .always .always ⟨none, ∅, ∅, ∅⟩
  let store := (store.storeConfigs sampleGroups).getD store
  let store := { store with
    hostGroupResults := results.foldl (fun c (e : HMString × HMGroupCheckResult) =>
      c.insert e.1 e.2) store.hostGroupResults }
  ((results.map Prod.fst).foldl HMStorageHostGroup.storeHostGroupCheckResults store).backend

/-- The changed group has another host than the stored result. -/
theorem restart_with_other_host_clean :
    ∃ r, loadDaemonState (.openStore .always .always
        (sampleBackend [(bytes "web", sampleResult (bytes "b"))])) .default
        (changedGroups (bytes "c")) = some r ∧
      Clean sampleGroups (changedGroups (bytes "c")) r.store := by
  have hsome : (loadDaemonState (.openStore .always .always
      (sampleBackend [(bytes "web", sampleResult (bytes "b"))])) .default
      (changedGroups (bytes "c"))).isSome = true := by
    decide +kernel
  rcases Option.isSome_iff_exists.mp hsome with ⟨r, hr⟩
  exact ⟨r, hr, (restart_clean_iff hr).mpr (by decide +kernel)⟩

/-- One group is removed and the other changed: the restart keeps the results of both. -/
theorem restart_keeps_stale_results :
    ∃ r, loadDaemonState (.openStore .always .always (sampleBackend
        [(bytes "old", sampleResult (bytes "a")), (bytes "web", sampleResult (bytes "b"))]))
        .default (changedGroups (bytes "b")) = some r ∧
      r.store.hostGroupResults.range (bytes "web") ≠ [] ∧
      (r.store.backend.checks.get? (bytes "old")).getD [] ≠ [] ∧
      ¬ Clean sampleGroups (changedGroups (bytes "b")) r.store := by
  have hkept : (loadDaemonState (.openStore .always .always (sampleBackend
      [(bytes "old", sampleResult (bytes "a")), (bytes "web", sampleResult (bytes "b"))]))
      .default (changedGroups (bytes "b"))).any (fun r => decide
        (r.store.hostGroupResults.range (bytes "web") ≠ [] ∧
        (r.store.backend.checks.get? (bytes "old")).getD [] ≠ [] ∧
        ¬ Clean sampleGroups (changedGroups (bytes "b")) r.store)) = true := by
    decide +kernel
  rcases (Option.any_eq_true _ _).mp hkept with ⟨r, hr, hstale⟩
  exact ⟨r, hr, of_decide_eq_true hstale⟩

end StorageRestart
