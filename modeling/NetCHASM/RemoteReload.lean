import NetCHASM.ReloadMerge

/-! The caches of remote checks across a reload. A restore changes their result times and
nothing else: those of the groups that both states fetch as a whole, and those of the
hosts for which the old state has a result. -/
namespace RemoteReload

open NetCHASM OrderedMap KeyOrder HMState ReloadMerge HMDataCheckList

/-- An entry with the result time of the old state, if that has the entry. -/
def stamped {K : Type} (time : Option HMTimeStamp) (e : K × HMRemoteResult) : K × HMRemoteResult :=
  (e.1, e.2.setResultTime (time.getD e.2.resultTime))

@[simp] theorem stamped_stamped {K : Type} (time : Option HMTimeStamp) (e : K × HMRemoteResult) :
    stamped time (stamped time e) = stamped time e := by
  cases time <;> rfl

theorem find?_updateResultTime {K : Type} [Ordered K] (c : RemoteCache K) (key k : K)
    (time : HMTimeStamp) : (RemoteCache.updateResultTime c key time).find? k =
      if eqv key k then (c.find? k).map (stamped (some time)) else c.find? k := by
  rw [RemoteCache.updateResultTime, SortedMap.find?_modify]
  rfl

/-- The result time of a remote host group in a state. -/
def groupTime (src : HMState) (name : HMString) : Option HMTimeStamp :=
  (src.remoteCache.get? name).map fun r => r.resultTime

theorem find?_restoreRemoteGroup (src : HMState) (c : HMRemoteHostGroupCache)
    (e : HMString × HMDataHostGroup) (name : HMString) :
    (restoreRemoteGroup src c e).find? name =
      if e.1 = name ∧ e.2.flowType = .remoteHostgroup then
        (c.find? name).map (stamped (groupTime src name))
      else c.find? name := by
  unfold restoreRemoteGroup
  by_cases hflow : e.2.flowType = .remoteHostgroup
  · by_cases hname : e.1 = name
    · subst hname
      cases hsrc : src.remoteCache.get? e.1 with
      | none =>
        have hid : (fun x : HMString × HMRemoteResult => stamped none x) = id := rfl
        simp [hflow, groupTime, hsrc, hid]
      | some r => simp [hflow, groupTime, hsrc, find?_updateResultTime]
    · have hne : eqv e.1 name = false := eqv_of_ne hname
      cases src.remoteCache.get? e.1 with
      | none => simp [hname]
      | some r => simp [hflow, hname, find?_updateResultTime, hne]
  · simp [hflow]

theorem find?_restoreRemoteGroups (src : HMState) (es : List (HMString × HMDataHostGroup))
    (c : HMRemoteHostGroupCache) (name : HMString) :
    (es.foldl (restoreRemoteGroup src) c).find? name =
      if ∃ e ∈ es, e.1 = name ∧ e.2.flowType = .remoteHostgroup then
        (c.find? name).map (stamped (groupTime src name))
      else c.find? name := by
  induction es generalizing c with
  | nil => simp
  | cons e es ih =>
    rw [List.foldl_cons, ih, find?_restoreRemoteGroup]
    by_cases he : e.1 = name ∧ e.2.flowType = .remoteHostgroup
    · have hcons : ∃ x ∈ e :: es, x.1 = name ∧ x.2.flowType = .remoteHostgroup :=
        ⟨e, List.mem_cons_self, he⟩
      rw [if_pos he, if_pos hcons]
      split
      · simp [Function.comp_def]
      · rfl
    · have hcons : (∃ x ∈ e :: es, x.1 = name ∧ x.2.flowType = .remoteHostgroup) ↔
          ∃ x ∈ es, x.1 = name ∧ x.2.flowType = .remoteHostgroup := by
        constructor
        · rintro ⟨x, hx, hprop⟩
          rcases List.mem_cons.mp hx with rfl | hx
          · exact absurd hprop he
          · exact ⟨x, hx, hprop⟩
        · rintro ⟨x, hx, hprop⟩
          exact ⟨x, List.mem_cons_of_mem e hx, hprop⟩
      rw [if_neg he]
      simp only [hcons]

/-- The rest of a restore leaves the cache of groups alone. -/
theorem remoteCache_restore (src dest : HMState) :
    (dest.restoreRunningCheckState src).remoteCache =
      dest.hostGroups.entries.foldl (restoreRemoteGroup src) dest.remoteCache := by
  have hresult : ∀ h d a, (restoreResult src h d a).remoteCache = d.remoteCache ∧
      (restoreResult src h d a).hostGroups = d.hostGroups := by
    intro h d a
    unfold restoreResult
    dsimp only
    split
    · exact ⟨rfl, rfl⟩
    · split
      · exact ⟨rfl, rfl⟩
      · exact ⟨rfl, rfl⟩
  have hfold : (src.checkList.getAllChecks.foldl (restoreCheck src) dest).remoteCache =
      dest.remoteCache ∧
      (src.checkList.getAllChecks.foldl (restoreCheck src) dest).hostGroups = dest.hostGroups := by
    refine List.foldlRecOn (motive := fun d : HMState => d.remoteCache = dest.remoteCache ∧
      d.hostGroups = dest.hostGroups) _ _ ⟨rfl, rfl⟩ fun d hd h _ => ?_
    refine List.foldlRecOn (motive := fun d : HMState => d.remoteCache = dest.remoteCache ∧
      d.hostGroups = dest.hostGroups) _ _ ?_ fun d hd a _ => ?_
    · split
      · exact hd
      · exact hd
    · obtain ⟨hcache, hgroups⟩ := hresult h d a
      exact ⟨hcache.trans hd.1, hgroups.trans hd.2⟩
  rw [restoreRunningCheckState]
  dsimp only
  rw [hfold.1, hfold.2]

/-- A restore gives a group that is fetched as a whole its old result time. -/
theorem find?_restore_group (src dest : HMState) {name : HMString} {g : HMDataHostGroup}
    (hg : dest.hostGroups.get? name = some g) (hflow : g.flowType = .remoteHostgroup) :
    (dest.restoreRunningCheckState src).remoteCache.find? name =
      (dest.remoteCache.find? name).map (stamped (groupTime src name)) := by
  rw [remoteCache_restore, find?_restoreRemoteGroups, if_pos]
  exact ⟨(name, g), SortedMap.mem_of_get? hg, rfl, hflow⟩

/-- The result time of a remote host in a state. -/
def hostTime (src : HMState) (k : RemoteHostKey) : Option HMTimeStamp :=
  (src.remoteHostCache.get? k).map fun r => r.resultTime

/-- Give a host its old result time, if there is one. -/
def stampHost (src : HMState) (c : HMRemoteHostCache) (key : RemoteHostKey) : HMRemoteHostCache :=
  match src.remoteHostCache.get? key with
  | some r => RemoteCache.updateResultTime c key r.resultTime
  | none => c

theorem find?_stampHost (src : HMState) (c : HMRemoteHostCache) (key k : RemoteHostKey) :
    (stampHost src c key).find? k =
      if eqv key k then (c.find? k).map (stamped (hostTime src k)) else c.find? k := by
  have htime : eqv key k = true → hostTime src k = hostTime src key := by
    intro hk
    rw [hostTime, ← SortedMap.get?_congr _ hk, hostTime]
  rcases Option.eq_none_or_eq_some (src.remoteHostCache.get? key) with hget | ⟨r, hget⟩
  · simp only [stampHost, hget]
    split
    · rename_i hk
      have hid : (stamped none : RemoteHostKey × HMRemoteResult → _) = id := rfl
      rw [htime hk, hostTime, hget, Option.map_none, hid, Option.map_id]
      rfl
    · rfl
  · simp only [stampHost, hget, find?_updateResultTime]
    split
    · rename_i hk
      rw [htime hk, hostTime, hget, Option.map_some]
    · rfl

/-- The old state has a result for a header that is newer than the one there is. -/
def isNewer (src : HMState) (l : HMDataCheckList) (h : HMCheckHeader) : Bool :=
  (src.checkList.getCheckResult h).any fun result => isStale (l.getCheckResult h) result

/-- The merge of one result, as a step on the check list and the cache of remote hosts. -/
def mergeHost (src : HMState) (p : HMDataCheckList × HMRemoteHostCache) (h : HMCheckHeader) :
    HMDataCheckList × HMRemoteHostCache :=
  (mergeResult src.checkList p.1 h,
    if isNewer src p.1 h && h.hostCheck.flowType = .remoteHost then
      stampHost src p.2 (h.hostname, h.hostCheck)
    else p.2)

theorem restoreResult_pair (src dest : HMState) (h : HMCheckHeader) (a : HMIPAddress) :
    ((restoreResult src h dest a).checkList, (restoreResult src h dest a).remoteHostCache) =
      mergeHost src (dest.checkList, dest.remoteHostCache) { h with address := a } := by
  apply Prod.ext (restoreResult_checkList src dest h a)
  rcases Option.eq_none_or_eq_some (src.checkList.getCheckResult { h with address := a })
    with hsrc | ⟨result, hsrc⟩
  · simp [restoreResult, mergeHost, isNewer, hsrc]
  · by_cases hstale :
      isStale (dest.checkList.getCheckResult { h with address := a }) result = true
    · by_cases hflow : h.hostCheck.flowType = .remoteHost
      · have hmerge : (mergeHost src (dest.checkList, dest.remoteHostCache)
            { h with address := a }).2 =
              stampHost src dest.remoteHostCache (h.hostname, h.hostCheck) := by
          simp [mergeHost, isNewer, hsrc, hstale, hflow]
        have hrestore : (restoreResult src h dest a).remoteHostCache =
            stampHost src dest.remoteHostCache (h.hostname, h.hostCheck) := by
          unfold restoreResult
          dsimp only
          rw [hsrc]
          dsimp only
          rw [if_pos hstale]
          exact if_pos hflow
        exact hrestore.trans hmerge.symm
      · simp [restoreResult, mergeHost, isNewer, hsrc, hstale, hflow]
    · simp [restoreResult, mergeHost, isNewer, hsrc, hstale]

theorem restore_pair (src dest : HMState) :
    ((dest.restoreRunningCheckState src).checkList,
      (dest.restoreRunningCheckState src).remoteHostCache) =
      (visited src).foldl (mergeHost src) (dest.checkList, dest.remoteHostCache) := by
  have haddresses : ∀ (h : HMCheckHeader) (as : List HMIPAddress) (d : HMState),
      ((as.foldl (restoreResult src h) d).checkList,
        (as.foldl (restoreResult src h) d).remoteHostCache) =
        (as.map fun a => { h with address := a }).foldl (mergeHost src)
          (d.checkList, d.remoteHostCache) := by
    intro h as
    induction as with
    | nil => exact fun _ => rfl
    | cons a as ih =>
      intro d
      rw [List.foldl_cons, ih, restoreResult_pair]
      rfl
  have hchecks : ∀ (hs : List HMCheckHeader) (d : HMState),
      ((hs.foldl (restoreCheck src) d).checkList,
        (hs.foldl (restoreCheck src) d).remoteHostCache) =
        (hs.flatMap fun h => (restoredAddresses src h).map fun a => { h with address := a }).foldl
          (mergeHost src) (d.checkList, d.remoteHostCache) := by
    intro hs
    induction hs with
    | nil => exact fun _ => rfl
    | cons h hs ih =>
      intro d
      rw [List.foldl_cons, ih, List.flatMap_cons, List.foldl_append]
      congr 1
      rw [restoreCheck, haddresses]
      split <;> rfl
  exact hchecks _ _

/-- The header is one of a remote host, with a result in the old state. -/
def hasResult (src : HMState) (k : RemoteHostKey) (h : HMCheckHeader) : Bool :=
  eqv ((h.hostname, h.hostCheck) : RemoteHostKey) k && (src.checkList.getCheckResult h).isSome

/-- The old state has a result for some address of a remote host. -/
def carriesHost (src : HMState) (k : RemoteHostKey) : Bool := (visited src).any (hasResult src k)

theorem eqv_hostKey_iff {a b : RemoteHostKey} :
    eqv a b = true ↔ a.1 = b.1 ∧ a.2.beq b.2 = true := by
  rw [eqv_pair, Bool.and_eq_true, eqv_iff_eq, HMDataHostCheck.eqv_eq_beq]

theorem flowType_of_eqv {a b : RemoteHostKey} (h : eqv a b = true) :
    a.2.flowType = b.2.flowType := by
  have hbeq := (eqv_hostKey_iff.mp h).2
  simp only [HMDataHostCheck.beq, Bool.and_eq_true, decide_eq_true_eq] at hbeq
  exact hbeq.2

/-- A merge that takes a result over finds one. -/
theorem hasResult_of_isNewer {src : HMState} {k : RemoteHostKey} {l : HMDataCheckList}
    {h : HMCheckHeader}
    (hnew : (eqv ((h.hostname, h.hostCheck) : RemoteHostKey) k && isNewer src l h) = true) :
    hasResult src k h = true := by
  rcases (Bool.and_eq_true _ _).mp hnew with ⟨hk, hnewer⟩
  rw [isNewer, Option.any_eq_true] at hnewer
  rcases hnewer with ⟨result, hresult, -⟩
  simp [hasResult, hk, hresult]

/-- A merge leaves a remote host alone, or gives it the old result time. -/
theorem find?_mergeHost (src : HMState) (p : HMDataCheckList × HMRemoteHostCache)
    (h : HMCheckHeader) (k : RemoteHostKey) : (mergeHost src p h).2.find? k =
      if (eqv ((h.hostname, h.hostCheck) : RemoteHostKey) k && isNewer src p.1 h) &&
          k.2.flowType = .remoteHost then
        (p.2.find? k).map (stamped (hostTime src k))
      else p.2.find? k := by
  simp only [mergeHost]
  by_cases hk : eqv ((h.hostname, h.hostCheck) : RemoteHostKey) k = true
  · have hflow : h.hostCheck.flowType = k.2.flowType := flowType_of_eqv hk
    cases isNewer src p.1 h with
    | false => simp
    | true =>
      by_cases hremote : k.2.flowType = .remoteHost
      · simp [hflow, hremote, hk, find?_stampHost]
      · simp [hflow, hremote]
  · split
    · simp [find?_stampHost, hk]
    · simp [hk]

section Hosts

variable {src : HMState} {k : RemoteHostKey}

theorem find?_mergeHosts (src : HMState) (k : RemoteHostKey)
    (p : HMDataCheckList × HMRemoteHostCache) (hs : List HMCheckHeader) :
    (hs.foldl (mergeHost src) p).2.find? k = p.2.find? k ∨
      hs.any (hasResult src k) = true ∧ (hs.foldl (mergeHost src) p).2.find? k =
        (p.2.find? k).map (stamped (hostTime src k)) := by
  induction hs generalizing p with
  | nil => exact Or.inl rfl
  | cons h hs ih =>
    have hagain : ((p.2.find? k).map (stamped (hostTime src k))).map (stamped (hostTime src k)) =
        (p.2.find? k).map (stamped (hostTime src k)) := by
      simp [Function.comp_def]
    rw [List.foldl_cons]
    have hone := find?_mergeHost src p h k
    rcases ih (mergeHost src p h) with hsame | ⟨hany, hset⟩
    · rw [hsame]
      split at hone
      · rename_i hhit
        have hresult := hasResult_of_isNewer ((Bool.and_eq_true _ _).mp hhit).1
        exact Or.inr ⟨by rw [List.any_cons, hresult, Bool.true_or], hone⟩
      · exact Or.inl hone
    · refine Or.inr ⟨by rw [List.any_cons, hany, Bool.or_true], ?_⟩
      rw [hset, hone]
      split
      · exact hagain
      · rfl

/-- On a list without results every merge that finds an old result takes its time over. -/
theorem find?_mergeHosts_of_fresh (hflow : k.2.flowType = .remoteHost)
    (p : HMDataCheckList × HMRemoteHostCache) (hs : List HMCheckHeader)
    (hfresh : ∀ t : HMCheckHeader,
      eqv ((t.hostname, t.hostCheck) : RemoteHostKey) k = true → p.1.getCheckResult t = none)
    (hany : hs.any (hasResult src k) = true) :
    (hs.foldl (mergeHost src) p).2.find? k = (p.2.find? k).map (stamped (hostTime src k)) := by
  induction hs generalizing p with
  | nil => cases hany
  | cons h hs ih =>
    rw [List.foldl_cons]
    have hone := find?_mergeHost src p h k
    cases hhit : hasResult src k h with
    | true =>
      rcases (Bool.and_eq_true _ _).mp hhit with ⟨hkey, hsome⟩
      have hnewer : isNewer src p.1 h = true := by
        rcases Option.isSome_iff_exists.mp hsome with ⟨result, hresult⟩
        simp [isNewer, hresult, hfresh h hkey, isStale]
      have hset : (mergeHost src p h).2.find? k = (p.2.find? k).map (stamped (hostTime src k)) := by
        rw [hone, if_pos]
        simp [hkey, hnewer, hflow]
      rcases find?_mergeHosts src k (mergeHost src p h) hs with hsame | ⟨-, hagain⟩
      · rw [hsame, hset]
      · rw [hagain, hset]
        simp [Function.comp_def]
    | false =>
      rw [List.any_cons, hhit, Bool.false_or] at hany
      have hsame : (mergeHost src p h).2.find? k = p.2.find? k := by
        rw [hone, if_neg]
        intro hnew
        rw [hasResult_of_isNewer ((Bool.and_eq_true _ _).mp hnew).1] at hhit
        cases hhit
      rw [ih (mergeHost src p h) ?_ hany, hsame]
      intro t ht
      change (mergeResult src.checkList p.1 h).getCheckResult t = none
      cases hsrc : src.checkList.getCheckResult h with
      | none =>
        simp only [mergeResult, hsrc]
        exact hfresh t ht
      | some result =>
        -- The header is for another host, so its merge is not one of these results.
        have hother : sameResult h t = false := by
          cases hsame : sameResult h t with
          | false => rfl
          | true =>
            simp only [sameResult, Bool.and_eq_true] at hsame
            rcases CheckListKey.eqv_iff_fields.mp hsame.1.1 with ⟨hhost, hbeq, -⟩
            have hkey : eqv ((h.hostname, h.hostCheck) : RemoteHostKey) k = true :=
              eqv_trans (b := (t.hostname, t.hostCheck)) (eqv_hostKey_iff.mpr ⟨hhost, hbeq⟩) ht
            simp [hasResult, hkey, hsrc] at hhit
        rw [getCheckResult_mergeResult, hother]
        exact hfresh t ht

/-- The result time that a restore gives a remote host. -/
def carriedTime (src : HMState) (k : RemoteHostKey) : Option HMTimeStamp :=
  if carriesHost src k then hostTime src k else none

theorem carriedTime_congr {k' : RemoteHostKey} (hk : eqv k k' = true) :
    carriedTime src k = carriedTime src k' := by
  have hresult : hasResult src k = hasResult src k' := by
    funext h
    rw [hasResult, eqv_congr_right hk, hasResult]
  have htime : hostTime src k = hostTime src k' := by
    rw [hostTime, SortedMap.get?_congr _ hk, hostTime]
  rw [carriedTime, carriesHost, hresult, htime, carriedTime, carriesHost]

theorem map_stamped_none {K : Type} (o : Option (K × HMRemoteResult)) :
    o.map (stamped none) = o := by
  cases o <;> rfl

/-- A restore into a state without results gives the hosts that the old state has results
for their old result time, and leaves the others. -/
theorem find?_restore_host (hflow : k.2.flowType = .remoteHost) (dest : HMState)
    (hfresh : ∀ t, dest.checkList.getCheckResult t = none) :
    (dest.restoreRunningCheckState src).remoteHostCache.find? k =
      (dest.remoteHostCache.find? k).map (stamped (carriedTime src k)) := by
  have hpair := congrArg Prod.snd (restore_pair src dest)
  dsimp only at hpair
  rw [hpair, carriedTime]
  split
  · rename_i hcarries
    exact find?_mergeHosts_of_fresh hflow _ _ (fun t _ => hfresh t) hcarries
  · rename_i hnot
    rw [map_stamped_none]
    rcases find?_mergeHosts src k (dest.checkList, dest.remoteHostCache)
      (visited src) with hsame | ⟨hany, -⟩
    · exact hsame
    · exact absurd hany hnot

/-- Any restore leaves a host alone or gives it that time. -/
theorem find?_restore_host_again (dest : HMState) :
    (dest.restoreRunningCheckState src).remoteHostCache.find? k = dest.remoteHostCache.find? k ∨
      (dest.restoreRunningCheckState src).remoteHostCache.find? k =
        (dest.remoteHostCache.find? k).map (stamped (carriedTime src k)) := by
  have hpair := congrArg Prod.snd (restore_pair src dest)
  dsimp only at hpair
  rw [hpair]
  rcases find?_mergeHosts src k (dest.checkList, dest.remoteHostCache)
    (visited src) with hsame | ⟨hany, hset⟩
  · exact Or.inl hsame
  · have hcarries : carriesHost src k = true := hany
    rw [carriedTime, if_pos hcarries]
    exact Or.inr hset

end Hosts

/-- Likewise for the groups. -/
theorem find?_restore_group_again (src dest : HMState) (name : HMString) :
    (dest.restoreRunningCheckState src).remoteCache.find? name = dest.remoteCache.find? name ∨
      (dest.restoreRunningCheckState src).remoteCache.find? name =
        (dest.remoteCache.find? name).map (stamped (groupTime src name)) := by
  rw [remoteCache_restore, find?_restoreRemoteGroups]
  split
  · exact Or.inr rfl
  · exact Or.inl rfl

end RemoteReload
