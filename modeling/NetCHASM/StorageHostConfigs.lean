import NetCHASM.DNSInit
import NetCHASM.StorageHost
import Mathlib.Data.Multiset.Basic

/-! The configuration in the store by host. It is stored twice, by group and by host, and the
check list is built from both when it is read back. -/
namespace NetCHASM

open KeyOrder OrderedMap

/-- Add a check with its results for the given addresses. An entry that is there already is not
looked for. -/
def HMDataCheckList.insertCheck (l : HMDataCheckList) (hostGroup host : HMString)
    (hostCheck : HMDataHostCheck) (checkParams : CheckParameters) (ips : SortedSet HMIPAddress) :
    HMDataCheckList :=
  if l.guard then l
  else
    let p := ips.toList.foldl (fun p ip => p.emptyQuery ip) (HMDataCheckParams.ofParameters checkParams)
    let p := if hostGroup ≠ [] then p.addHostGroup hostGroup else p
    { l with checklist := l.checklist.insert ⟨host, hostCheck⟩ p }

namespace HMStorageHost

variable {σ α : Type} (b : HostBackend σ)

/-- Stores one after the other, up to the first that fails. -/
def storeEach (store : σ → α → σ × Bool) : σ → List α → σ × Bool
  | s, [] => (s, true)
  | s, x :: xs =>
    match store s x with
    | (s, false) => (s, false)
    | (s, true) => storeEach store s xs

def storeConfigs (s : σ) (checkState : HMState) : σ × Bool :=
  let allChecks := checkState.checkList.getAllChecks
  let allHosts := SortedSet.insertAll ∅ (allChecks.map fun h => h.hostname)
  match b.storeHostNames s allHosts with
  | (s, false) => (s, false)
  | (s, true) =>
    let storeChecks (s : σ) (host : HMString) : σ × Bool :=
      b.storeNameChecks s host (allChecks.filter fun h => h.hostname = host)
    match storeEach storeChecks s allHosts.toList with
    | (s, false) => (s, false)
    | (s, true) =>
      match storeEach (fun s e => b.storeGroupInfo s e.1 e.2) s checkState.hostGroups.entries with
      | (s, false) => (s, false)
      | (s, true) =>
        b.storeHostGroupNames s (SortedSet.insertAll ∅ checkState.hostGroups.keys)

/-- Add the stored groups to the state, up to the first that is missing. -/
def loadGroups (s : σ) : List HMString → HMState → HMState × Bool
  | [], checkState => (checkState, true)
  | name :: names, checkState =>
    match b.getGroupInfo s name with
    | none => (checkState, false)
    | some hostGroup => loadGroups s names
      { checkState with
        hostGroups := checkState.hostGroups.insert name hostGroup
        checkList := checkState.checkList.addHostGroup hostGroup }

/-- Add the stored checks of the hosts to the check list. -/
def loadChecks (s : σ) : List HMString → HMDataCheckList → HMDataCheckList × Bool
  | [], l => (l, true)
  | host :: hosts, l =>
    match b.getNameChecks s host with
    | none => (l, false)
    | some checks => loadChecks s hosts (checks.foldl (fun l check =>
        l.insertCheck [] check.hostname check.hostCheck check.checkParams ∅) l)

def getConfigs (s : σ) (checkState : HMState) : HMState × Bool :=
  match b.getHostGroupNames s with
  | none => (checkState, false)
  | some hostGroupNames =>
    match loadGroups b s hostGroupNames.toList checkState with
    | (checkState, false) => (checkState, false)
    | (checkState, true) =>
      match b.getHostNames s with
      | none => (checkState, false)
      | some hostNames =>
        let loaded := loadChecks b s hostNames.toList checkState.checkList
        ({ checkState with checkList := loaded.1 }, loaded.2)

end HMStorageHost

end NetCHASM

namespace StorageHostConfigs

open NetCHASM KeyOrder OrderedMap HMStorageHost DNSInit

variable {σ : Type} {b : HostBackend σ} {view : σ → HostRecords}

/-- The check list has the entries that the host groups give in some order, with any results. -/
def BuiltFromGroups (checkState : HMState) : Prop :=
  ∃ groups : List HMDataHostGroup,
    groups.Perm (checkState.hostGroups.entries.map Prod.snd) ∧
      checkState.checkList.checklist.entries.map
          (fun e => (e.1, e.2.toCheckParameters, e.2.hostGroups)) =
        (checkListOf groups).checklist.entries.map
          (fun e => (e.1, e.2.toCheckParameters, e.2.hostGroups))

/-- What is to be restored of an entry: host, check and parameters, and the names of its groups
in any order. -/
def restorable (e : ListEntry) :
    HMString × HMDataHostCheck × CheckParameters × Multiset HMString :=
  (e.1.hostname, compared e.1.hostCheck, e.2.toCheckParameters, e.2.hostGroups)

def emptied (checkState : HMState) : HMState :=
  { checkState with hostGroups := ∅, checkList := .empty }

/-- The state that is read back after a state was stored. -/
def reloaded (b : HostBackend σ) (s : σ) (checkState other : HMState) : HMState × Bool :=
  getConfigs b (storeConfigs b s checkState).1 (emptied other)

/-- An empty state into which the configuration is read has the host groups and the entries of
the state that was stored. -/
structure Restores (b : HostBackend σ) (s : σ) (checkState other : HMState) : Prop where
  stored : (storeConfigs b s checkState).2 = true
  loaded : (reloaded b s checkState other).2 = true
  hostGroups : (reloaded b s checkState other).1.hostGroups = checkState.hostGroups
  entries : ((reloaded b s checkState other).1.checkList.checklist.entries.map restorable).Perm
    (checkState.checkList.checklist.entries.map restorable)

/-! What is stored. -/

theorem exists_stored {p : σ × Bool} {r : HostRecords} (h : p.2 = true ∧ view p.1 = r) :
    ∃ s, p = (s, true) ∧ view s = r :=
  ⟨p.1, Prod.ext rfl h.1, h.2⟩

/-- Stores that succeed update the view one after the other. -/
theorem view_storeEach {α : Type} (store : σ → α → σ × Bool) (put : HostRecords → α → HostRecords)
    (hstore : ∀ s x, (store s x).2 = true ∧ view (store s x).1 = put (view s) x) (s : σ)
    (xs : List α) : (storeEach store s xs).2 = true ∧
      view (storeEach store s xs).1 = xs.foldl put (view s) := by
  induction xs generalizing s with
  | nil => exact ⟨rfl, rfl⟩
  | cons x xs ih =>
    obtain ⟨s', hs', hview⟩ := exists_stored (hstore s x)
    simp only [storeEach, hs', List.foldl_cons, ← hview]
    exact ih s'

theorem foldl_nameChecks (f : HMString → List HMCheckHeader) (hosts : List HMString)
    (r : HostRecords) : hosts.foldl (fun r host =>
        { r with nameChecks := Function.update r.nameChecks host (some (f host)) }) r =
      { r with nameChecks :=
          hosts.foldl (fun m host => Function.update m host (some (f host))) r.nameChecks } := by
  induction hosts generalizing r with
  | nil => rfl
  | cons host hosts ih => rw [List.foldl_cons, List.foldl_cons, ih]

theorem foldl_groupInfo (es : List (HMString × HMDataHostGroup)) (r : HostRecords) :
    es.foldl (fun r e =>
        { r with groupInfo := Function.update r.groupInfo e.1 (some e.2) }) r =
      { r with groupInfo :=
          es.foldl (fun m e => Function.update m e.1 (some e.2)) r.groupInfo } := by
  induction es generalizing r with
  | nil => rfl
  | cons e es ih => rw [List.foldl_cons, List.foldl_cons, ih]

/-- A key that is updated always to one value has it in the end. -/
theorem foldl_update {α κ V : Type} [DecidableEq κ] (key : α → κ) (value : α → V) {k : κ} {v : V}
    {xs : List α} (hsame : ∀ x ∈ xs, key x = k → value x = v) {m : κ → Option V}
    (h : m k = some v ∨ ∃ x ∈ xs, key x = k) :
    (xs.foldl (fun m x => Function.update m (key x) (some (value x))) m) k = some v := by
  induction xs generalizing m with
  | nil => exact h.resolve_right fun ⟨x, hx, _⟩ => absurd hx List.not_mem_nil
  | cons x xs ih =>
    rw [List.foldl_cons]
    refine ih (fun y hy => hsame y (List.mem_cons_of_mem x hy)) ?_
    by_cases hk : key x = k
    · refine Or.inl ?_
      rw [← hk, Function.update_self, hsame x List.mem_cons_self hk]
    · refine h.imp (fun hm => ?_) fun ⟨y, hy, hyk⟩ => ?_
      · rw [Function.update_of_ne (Ne.symm hk), hm]
      · rcases List.mem_cons.mp hy with rfl | hy
        · exact absurd hyk hk
        · exact ⟨y, hy, hyk⟩

/-- The hosts of a check list. -/
def hostsOf (checkState : HMState) : SortedSet HMString :=
  SortedSet.insertAll ∅ (checkState.checkList.getAllChecks.map fun h => h.hostname)

def checksOf (checkState : HMState) (host : HMString) : List HMCheckHeader :=
  checkState.checkList.getAllChecks.filter fun h => h.hostname = host

/-- Storing succeeds, and then the names, the checks of each host and the groups are there. -/
theorem view_storeConfigs (hmaps : ActsAsMaps b view) (s : σ) (checkState : HMState) :
    (storeConfigs b s checkState).2 = true ∧ view (storeConfigs b s checkState).1 =
      { view s with
        hostNames := some (hostsOf checkState)
        nameChecks := (hostsOf checkState).toList.foldl (fun m host =>
          Function.update m host (some (checksOf checkState host))) (view s).nameChecks
        groupInfo := checkState.hostGroups.entries.foldl (fun m e =>
          Function.update m e.1 (some e.2)) (view s).groupInfo
        hostGroupNames := some (SortedSet.insertAll ∅ checkState.hostGroups.keys) } := by
  have hchecks (s : σ) := view_storeEach
    (fun s host => b.storeNameChecks s host (checksOf checkState host))
    (fun r host =>
      { r with nameChecks :=
          Function.update r.nameChecks host (some (checksOf checkState host)) })
    (fun s host => hmaps.storeNameChecks s host (checksOf checkState host)) s
    (hostsOf checkState).toList
  have hgroups (s : σ) := view_storeEach (fun s e => b.storeGroupInfo s e.1 e.2)
    (fun r e => { r with groupInfo := Function.update r.groupInfo e.1 (some e.2) })
    (fun s e => hmaps.storeGroupInfo s e.1 e.2) s checkState.hostGroups.entries
  simp only [foldl_nameChecks] at hchecks
  simp only [foldl_groupInfo] at hgroups
  obtain ⟨s₁, hs₁, hview₁⟩ := exists_stored (hmaps.storeHostNames s (hostsOf checkState))
  obtain ⟨s₂, hs₂, hview₂⟩ := exists_stored (hchecks s₁)
  obtain ⟨s₃, hs₃, hview₃⟩ := exists_stored (hgroups s₂)
  obtain ⟨hok, hview⟩ := hmaps.storeHostGroupNames s₃
    (SortedSet.insertAll ∅ checkState.hostGroups.keys)
  have hrun : storeConfigs b s checkState =
      b.storeHostGroupNames s₃ (SortedSet.insertAll ∅ checkState.hostGroups.keys) := by
    simp only [hostsOf, checksOf] at hs₁ hs₂
    simp only [storeConfigs, hs₁, hs₂, hs₃]
  rw [hrun, hview, hview₃, hview₂, hview₁]
  exact ⟨hok, rfl⟩

/-! What is read back. -/

/-- A check that is inserted again, without groups and without results. -/
def bareEntry (h : HMCheckHeader) : ListEntry :=
  (h.key, HMDataCheckParams.ofParameters h.checkParams)

def insertChecks (l : HMDataCheckList) (checks : List HMCheckHeader) : HMDataCheckList :=
  checks.foldl (fun l check => l.insertCheck [] check.hostname check.hostCheck check.checkParams ∅) l

theorem insertChecks_eq {l : HMDataCheckList} (hguard : l.guard = false)
    (checks : List HMCheckHeader) : insertChecks l checks =
      { l with
        checklist := checks.foldl (fun m h => m.insert (bareEntry h).1 (bareEntry h).2)
          l.checklist } := by
  induction checks generalizing l with
  | nil => rfl
  | cons h checks ih =>
    have hinsert : l.insertCheck [] h.hostname h.hostCheck h.checkParams ∅ =
        { l with checklist := l.checklist.insert (bareEntry h).1 (bareEntry h).2 } := by
      rw [HMDataCheckList.insertCheck, if_neg (by simp [hguard])]
      rfl
    rw [insertChecks, List.foldl_cons, hinsert]
    exact ih hguard

theorem entries_insertChecks {l : HMDataCheckList} (hguard : l.guard = false)
    (checks : List HMCheckHeader) : (insertChecks l checks).checklist.entries.Perm
      (checks.map bareEntry ++ l.checklist.entries) := by
  rw [insertChecks_eq hguard]
  exact SortedMultimap.entries_foldl_insert bareEntry checks l.checklist

/-- Groups that are all stored are added in their order. -/
theorem loadGroups_eq {s : σ} {es : List (HMString × HMDataHostGroup)}
    (h : ∀ e ∈ es, b.getGroupInfo s e.1 = some e.2) (checkState : HMState) :
    loadGroups b s (es.map Prod.fst) checkState =
      ({ checkState with
          hostGroups := es.foldl (fun m e => m.insert e.1 e.2) checkState.hostGroups
          checkList := (es.map Prod.snd).foldl HMDataCheckList.addHostGroup checkState.checkList },
        true) := by
  induction es generalizing checkState with
  | nil => rfl
  | cons e es ih =>
    simp only [List.map_cons, loadGroups, h e List.mem_cons_self, List.foldl_cons]
    exact ih (fun e' he' => h e' (List.mem_cons_of_mem e he')) _

theorem loadChecks_eq {s : σ} {checks : HMString → List HMCheckHeader} {hosts : List HMString}
    (h : ∀ host ∈ hosts, b.getNameChecks s host = some (checks host)) (l : HMDataCheckList) :
    loadChecks b s hosts l = (insertChecks l (hosts.flatMap checks), true) := by
  induction hosts generalizing l with
  | nil => rfl
  | cons host hosts ih =>
    simp only [loadChecks, h host List.mem_cons_self, List.flatMap_cons, insertChecks,
      List.foldl_append]
    exact ih (fun host' hhost' => h host' (List.mem_cons_of_mem host hhost')) _

/-- The items of each key, one key after the other. -/
theorem flatMap_filter_perm {α : Type} (key : α → HMString) (xs : List α) {keys : List HMString}
    (hkeys : keys.Nodup) : (keys.flatMap fun k => xs.filter fun x => key x = k).Perm
      (xs.filter fun x => key x ∈ keys) := by
  induction keys with
  | nil => simp
  | cons k keys ih =>
    obtain ⟨hk, hkeys⟩ := List.nodup_cons.mp hkeys
    have hfirst : (xs.filter fun x => key x ∈ k :: keys).filter (fun x => key x = k) =
        xs.filter fun x => key x = k := by
      rw [List.filter_filter]
      refine List.filter_congr fun x _ => ?_
      by_cases hx : key x = k
      · simp [hx]
      · simp [hx]
    have hrest : (xs.filter fun x => key x ∈ k :: keys).filter (fun x => !decide (key x = k)) =
        xs.filter fun x => key x ∈ keys := by
      rw [List.filter_filter]
      refine List.filter_congr fun x _ => ?_
      by_cases hx : key x = k
      · simp [hx, hk]
      · simp [hx]
    have hsplit := List.filter_append_perm (fun x => decide (key x = k))
      (xs.filter fun x => key x ∈ k :: keys)
    rw [hfirst, hrest] at hsplit
    exact ((ih hkeys).append_left _).trans hsplit

/-- The checks of the hosts are all checks. -/
theorem checks_perm (checkState : HMState) :
    ((hostsOf checkState).toList.flatMap (checksOf checkState)).Perm
      checkState.checkList.getAllChecks := by
  have hall : ∀ h ∈ checkState.checkList.getAllChecks, h.hostname ∈ (hostsOf checkState).toList := by
    intro h hh
    rw [← SortedSet.contains_iff_mem, hostsOf, SortedSet.contains_insertAll, Bool.or_eq_true,
      List.any_eq_true]
    exact Or.inr ⟨h.hostname, List.mem_map_of_mem hh, eqv_refl _⟩
  refine (flatMap_filter_perm _ _ (SortedMap.keys_nodup (hostsOf checkState))).trans ?_
  exact List.Perm.of_eq (List.filter_eq_self.mpr fun h hh => decide_eq_true (hall h hh))

/-- The groups come back as they were, and the check list has the checks of the groups and, beside
them, each stored check once more. -/
theorem reloaded_eq (hmaps : ActsAsMaps b view) (s : σ) (checkState other : HMState) :
    reloaded b s checkState other =
      ({ other with
          hostGroups := checkState.hostGroups
          checkList := insertChecks (checkListOf (checkState.hostGroups.entries.map Prod.snd))
            ((hostsOf checkState).toList.flatMap (checksOf checkState)) }, true) := by
  have hview := (view_storeConfigs hmaps s checkState).2
  rw [reloaded]
  generalize (storeConfigs b s checkState).1 = s' at hview ⊢
  have hnames : b.getHostGroupNames s' =
      some (SortedSet.insertAll ∅ checkState.hostGroups.keys) := by
    rw [hmaps.getHostGroupNames, hview]
  have hhosts : b.getHostNames s' = some (hostsOf checkState) := by
    rw [hmaps.getHostNames, hview]
  have hgroups : ∀ e ∈ checkState.hostGroups.entries, b.getGroupInfo s' e.1 = some e.2 := by
    intro e he
    rw [hmaps.getGroupInfo, hview]
    refine foldl_update Prod.fst Prod.snd (fun e' he' hkey => ?_) (Or.inr ⟨e, he, rfl⟩)
    rw [SortedMap.eq_of_mem he' he (eqv_iff_eq.mpr hkey)]
  have hchecks : ∀ host ∈ (hostsOf checkState).toList,
      b.getNameChecks s' host = some (checksOf checkState host) := by
    intro host hhost
    rw [hmaps.getNameChecks, hview]
    refine foldl_update (fun host => host) (checksOf checkState) (fun host' _ hkey => ?_)
      (Or.inr ⟨host, hhost, rfl⟩)
    rw [hkey]
  have hkeys : (SortedSet.insertAll ∅ checkState.hostGroups.keys).toList =
      checkState.hostGroups.entries.map Prod.fst :=
    SortedSet.toList_insertAll_keys checkState.hostGroups
  have hempty : (emptied other).hostGroups = ∅ := rfl
  simp only [getConfigs, hnames, hkeys, loadGroups_eq hgroups, hhosts, loadChecks_eq hchecks,
    hempty, SortedMap.foldl_insert_entries]
  rfl

/-! The check list of the groups, in the order in which they were added and in that of the map. -/

open IndexedCheckList in
theorem hostGroups_checkListOf {groups : List HMDataHostGroup} {e : ListEntry}
    (h : e ∈ (checkListOf groups).checklist.entries) : e.2.hostGroups =
      ((groups.flatMap placements).filter fun p => (entryId e).same p.id).map Placement.group := by
  rw [checkListOf_eq] at h
  rcases List.mem_map.mp h with ⟨x, hx, rfl⟩
  exact (holds_ofGroups groups).groups x hx

theorem restorable_perm {groups groups' : List HMDataHostGroup} (hperm : groups.Perm groups') :
    ((checkListOf groups).checklist.entries.map restorable).Perm
      ((checkListOf groups').checklist.entries.map restorable) := by
  refine perm_map_of_perm hperm (fun e e' heq => ?_) fun e he e' he' hsame => ?_
  · simp only [restorable, Prod.mk.injEq] at heq
    exact (same_iff_compared e e').mpr ⟨heq.1, heq.2.1, heq.2.2.1⟩
  · obtain ⟨hhost, hcheck, hparams⟩ := (same_iff_compared e e').mp hsame
    have hgroups : e.2.hostGroups.Perm e'.2.hostGroups := by
      rw [hostGroups_checkListOf he, hostGroups_checkListOf he']
      simp only [CheckId.same_congr hsame]
      exact ((hperm.flatMap_right _).filter _).map _
    rw [restorable, restorable, hhost, hcheck, hparams, Multiset.coe_eq_coe.mpr hgroups]

theorem BuiltFromGroups.restorable_perm {checkState : HMState} (h : BuiltFromGroups checkState) :
    (checkState.checkList.checklist.entries.map restorable).Perm
      ((checkListOf (checkState.hostGroups.entries.map Prod.snd)).checklist.entries.map
        restorable) := by
  rcases h with ⟨groups, hperm, hentries⟩
  have hmap := congrArg (List.map fun t : CheckListKey × CheckParameters × List HMString =>
    (t.1.hostname, compared t.1.hostCheck, t.2.1, (t.2.2 : Multiset HMString))) hentries
  simp only [List.map_map] at hmap
  have hrestorable : (checkState.checkList.checklist.entries.map restorable) =
      (checkListOf groups).checklist.entries.map restorable := hmap
  rw [hrestorable]
  exact StorageHostConfigs.restorable_perm hperm

/-- The list is empty when no group can be checked. -/
theorem checkListOf_eq_nil_iff {groups : List HMDataHostGroup} :
    (checkListOf groups).checklist.entries = [] ↔
      ∀ g ∈ groups, g.checkType = .invalid ∨ g.hosts = [] := by
  rw [checkListOf_eq]
  have hmap : (IndexedCheckList.ofGroups groups).toCheckList.checklist.entries = [] ↔
      (IndexedCheckList.ofGroups groups).checklist.entries = [] := List.map_eq_nil_iff
  rw [hmap]
  have hholds := IndexedCheckList.holds_ofGroups groups
  constructor
  · intro hnil g hg
    by_contra! hg'
    obtain ⟨hvalid, hhosts⟩ := hg'
    obtain ⟨host, hhost⟩ := List.exists_mem_of_ne_nil _ hhosts
    obtain ⟨e, he, -⟩ := hholds.listed ⟨⟨⟨host, g.toHMDataHostCheck⟩, g.getCheckParameters⟩,
      g.groupName⟩ (List.mem_flatMap.mpr ⟨g, hg, IndexedCheckList.mem_placements.mpr
        ⟨host, hhost, _, IndexedCheckList.getHostCheck_of_valid hvalid, rfl⟩⟩)
    rw [hnil] at he
    cases he
  · intro h
    refine List.eq_nil_iff_forall_not_mem.mpr fun e he => ?_
    obtain ⟨p, hp, -⟩ := hholds.origin e he
    rcases List.mem_flatMap.mp hp with ⟨g, hg, hp⟩
    obtain ⟨host, hhost, c, hc, -⟩ := IndexedCheckList.mem_placements.mp hp
    rcases h g hg with hinvalid | hhosts
    · rw [HMDataHostGroup.getHostCheck, if_neg (not_not.mpr hinvalid)] at hc
      cases hc
    · rw [hhosts] at hhost
      cases hhost

/-- The entries that are read back: those of the state and, beside them, one without groups for
each. -/
theorem entries_reloaded (hmaps : ActsAsMaps b view) (s : σ) {checkState : HMState}
    (hbuilt : BuiltFromGroups checkState) (other : HMState) :
    ((reloaded b s checkState other).1.checkList.checklist.entries.map restorable).Perm
      (checkState.checkList.getAllChecks.map (fun h => restorable (bareEntry h)) ++
        checkState.checkList.checklist.entries.map restorable) := by
  have hguard := checkListOf_guard (checkState.hostGroups.entries.map Prod.snd)
  have hentries := (entries_insertChecks hguard
    ((hostsOf checkState).toList.flatMap (checksOf checkState))).map restorable
  rw [List.map_append, List.map_map] at hentries
  rw [reloaded_eq hmaps]
  exact hentries.trans (((checks_perm checkState).map _).append hbuilt.restorable_perm.symm)

/-- The configuration is restored just when no host group has anything to check: every other
entry comes back twice. -/
theorem configs_restored_iff (hmaps : ActsAsMaps b view) (s : σ) (checkState other : HMState)
    (hbuilt : BuiltFromGroups checkState) : Restores b s checkState other ↔
      ∀ e ∈ checkState.hostGroups.entries, e.2.checkType = .invalid ∨ e.2.hosts = [] := by
  have hreloaded := entries_reloaded hmaps s hbuilt other
  have hnil : checkState.checkList.checklist.entries = [] ↔
      ∀ e ∈ checkState.hostGroups.entries, e.2.checkType = .invalid ∨ e.2.hosts = [] := by
    have hlength := hbuilt.restorable_perm.length_eq
    rw [List.length_map, List.length_map] at hlength
    rw [← List.length_eq_zero_iff, hlength, List.length_eq_zero_iff, checkListOf_eq_nil_iff,
      List.forall_mem_map]
  rw [← hnil]
  constructor
  · intro h
    have hlength := hreloaded.length_eq.symm.trans h.entries.length_eq
    rw [List.length_append, List.length_map, List.length_map, HMDataCheckList.getAllChecks,
      List.length_map] at hlength
    exact List.length_eq_zero_iff.mp (by omega)
  · intro hempty
    constructor
    · exact (view_storeConfigs hmaps s checkState).1
    · rw [reloaded_eq hmaps]
    · rw [reloaded_eq hmaps]
    · rw [HMDataCheckList.getAllChecks, hempty] at hreloaded
      rw [hempty]
      exact hreloaded

theorem builtFromGroups_generateCheckList (settings : Settings) (hostGroups : HMDataHostGroupMap) :
    BuiltFromGroups (HMState.generateCheckList settings hostGroups) := by
  refine ⟨_, List.Perm.refl _, ?_⟩
  rw [checkListOf, List.foldl_map]
  rfl

/-- A group that has only a child group has nothing to check. -/
def parentGroups : HMDataHostGroupMap :=
  SortedMap.set ∅ [112] { HMDataHostGroup.new [112] with checkType := .tcp, hostGroups := [[119]] }

theorem parent_group_restored :
    BuiltFromGroups (.generateCheckList .default parentGroups) ∧
      Restores mapBackend .empty (.generateCheckList .default parentGroups)
        (.generateCheckList .default ∅) :=
  ⟨builtFromGroups_generateCheckList _ _, (configs_restored_iff mapBackend_actsAsMaps .empty _ _
    (builtFromGroups_generateCheckList _ _)).mpr (by decide)⟩

/-- The one check of one group comes back as two entries. -/
theorem one_check_comes_back_twice :
    BuiltFromGroups (.generateCheckList .default StorageHost.webGroups) ∧
      ¬ Restores mapBackend .empty (.generateCheckList .default StorageHost.webGroups)
        (.generateCheckList .default ∅) := by
  refine ⟨builtFromGroups_generateCheckList _ _, fun h => ?_⟩
  have hlength := h.entries.length_eq
  rw [List.length_map, List.length_map] at hlength
  revert hlength
  decide

end StorageHostConfigs
