import NetCHASM.LoadConfigs

/-! The two ways to a check list for the same stored groups: a commit generates it from the groups
of the transaction, and a daemon that starts loads them from the backend first. -/
namespace NetCHASM

open KeyOrder OrderedMap IndexedCheckList

/-- Preparing a group sets its plugin and its remote check type. -/
theorem Settings.prepare_eq (s : Settings) (g : HMDataHostGroup) :
    ∃ plugin type, s.prepare g = { g with checkPlugin := plugin, remoteCheckType := type } := by
  rw [Settings.prepare]
  dsimp only
  split
  · exact ⟨_, _, rfl⟩
  · exact ⟨_, g.remoteCheckType, rfl⟩

/-- Neither of the two is compared, so a prepared group is placed where the group itself is. -/
theorem placements_prepare (s : Settings) (g : HMDataHostGroup) (id : CheckId) :
    (placements (s.prepare g)).map (fun p => (id.same p.id, p.group)) =
      (placements g).map fun p => (id.same p.id, p.group) := by
  obtain ⟨plugin, type, hprepare⟩ := s.prepare_eq g
  rw [hprepare, placements, placements, HMDataHostGroup.getHostCheck, HMDataHostGroup.getHostCheck]
  by_cases hvalid : g.checkType ≠ .invalid
  · simp only [if_pos hvalid, List.map_map]
    apply List.map_congr_left
    intro host _
    simp only [Function.comp_apply, same_mk]
    rfl
  · simp only [if_neg hvalid]

theorem placements_eq_nil_iff {g : HMDataHostGroup} :
    placements g = [] ↔ (g.checkType ≠ .invalid → g.hosts = []) := by
  rw [placements, HMDataHostGroup.getHostCheck]
  by_cases hvalid : g.checkType ≠ .invalid
  · simp only [if_pos hvalid, List.map_eq_nil_iff]
    exact ⟨fun h _ => h, fun h => h hvalid⟩
  · simp only [if_neg hvalid]
    exact ⟨fun _ h => absurd h hvalid, fun _ => trivial⟩

theorem placements_prepare_eq_nil (s : Settings) (g : HMDataHostGroup) :
    placements (s.prepare g) = [] ↔ placements g = [] := by
  obtain ⟨plugin, type, hprepare⟩ := s.prepare_eq g
  rw [hprepare, placements_eq_nil_iff, placements_eq_nil_iff]

theorem countP_placements_prepare (s : Settings) (gs : List HMDataHostGroup) (id : CheckId) :
    ((gs.map s.prepare).flatMap placements).countP (fun p => id.same p.id) =
      (gs.flatMap placements).countP fun p => id.same p.id := by
  induction gs with
  | nil => rfl
  | cons g gs ih =>
    have hcount : ∀ ps : List Placement, ps.countP (fun p => id.same p.id) =
        (ps.map fun p => (id.same p.id, p.group)).countP Prod.fst := by
      intro ps
      rw [List.countP_map]
      rfl
    rw [List.map_cons, List.flatMap_cons, List.flatMap_cons, List.countP_append, List.countP_append,
      ih, hcount, hcount (placements g), placements_prepare]

namespace HMState

variable (settings : Settings) (flowType : FlowType) (groups : HMDataHostGroupMap)

def rawGroups : List HMDataHostGroup := groups.entries.map fun e => e.2

/-- The groups as they are when their checks are generated after loading. -/
def loadedGroups : List HMDataHostGroup := (rawGroups groups).map (completed groups)

theorem foldl_addHostGroup_toCheckList (l : IndexedCheckList)
    (es : List (HMString × HMDataHostGroup)) :
    es.foldl (fun l e => HMDataCheckList.addHostGroup l e.2) l.toCheckList =
      ((es.map fun e => e.2).foldl IndexedCheckList.addHostGroup l).toCheckList := by
  induction es generalizing l with
  | nil => rfl
  | cons e es ih =>
    rw [List.foldl_cons, ← toCheckList_addHostGroup, ih]
    rfl

/-- The state has the given checks, and what is generated from them. -/
structure HasChecks (checkList : HMDataCheckList) (s : HMState) : Prop where
  checks : s.checkList = checkList.setGuard true
  cache : s.dnsCache = checkList.initDNSCache .empty settings.getDNSPlugin
  waitList : s.dnsWaitList = checkList.initWaitList

theorem hasChecks_generate (checkList : HMDataCheckList) : HasChecks settings
    ((groups.mapVals fun _ g => settings.prepare g).entries.foldl
      (fun l e => HMDataCheckList.addHostGroup l e.2) checkList)
    (generateCheckListFrom checkList settings groups) :=
  ⟨rfl, rfl, rfl⟩

/-- A commit lists the groups of the transaction. -/
theorem hasChecks_commit : HasChecks settings
    (ofGroups ((rawGroups groups).map settings.prepare)).toCheckList
    (generateCheckList settings groups) := by
  have hfold := foldl_addHostGroup_toCheckList .empty
    (groups.mapVals fun _ g => settings.prepare g).entries
  have hgenerate := hasChecks_generate settings groups .empty
  rw [SortedMap.mapVals, List.map_map] at hfold
  rw [ofGroups, rawGroups, List.map_map, generateCheckList_eq_from]
  exact Eq.mp (congrArg (fun l => HasChecks settings l _) hfold) hgenerate

/-- A load lists the stored groups, and then the loaded ones on top of them. -/
theorem hasChecks_setup (hplain : ChildrenPlain groups) :
    ∃ s, setupDaemonstate settings flowType groups = some s ∧ HasChecks settings
      (ofGroups (rawGroups groups ++
        (loadedGroups groups).map settings.prepare)).toCheckList s := by
  rw [setupDaemonstate, getConfigs]
  dsimp only
  rw [loadAllConfigs_default flowType hplain]
  refine ⟨_, rfl, ?_⟩
  have hstored : groups.entries.foldl (fun l e => HMDataCheckList.addHostGroup l e.2) .empty =
      (ofGroups (rawGroups groups)).toCheckList :=
    foldl_addHostGroup_toCheckList .empty groups.entries
  have hloaded := foldl_addHostGroup_toCheckList (ofGroups (rawGroups groups))
    ((groups.mapVals fun _ g => completed groups g).mapVals fun _ g => settings.prepare g).entries
  have hgenerate := hasChecks_generate settings (groups.mapVals fun _ g => completed groups g)
    (ofGroups (rawGroups groups)).toCheckList
  rw [hloaded] at hgenerate
  rw [hstored, ofGroups, List.foldl_append, loadedGroups, rawGroups, List.map_map, List.map_map]
  simp only [SortedMap.mapVals, List.map_map] at hgenerate
  exact hgenerate

/-- What a commit generates is what a daemon has after it loads the same groups. -/
def CommitAgreesWithLoad : Prop :=
  ∃ s, setupDaemonstate settings flowType groups = some s ∧
    s.checkList = (generateCheckList settings groups).checkList ∧
    s.dnsCache.cache.keys = (generateCheckList settings groups).dnsCache.cache.keys ∧
    s.dnsWaitList = (generateCheckList settings groups).dnsWaitList

/-- No group has a host to check, neither of its own nor of a child. -/
def NothingToCheck : Prop :=
  ∀ e ∈ groups.entries, e.2.checkType ≠ .invalid →
    e.2.hosts = [] ∧ childHosts groups e.2 = []

instance : Decidable (NothingToCheck groups) :=
  inferInstanceAs (Decidable (∀ e ∈ groups.entries, e.2.checkType ≠ .invalid → _))

theorem completed_checkType (g : HMDataHostGroup) :
    (completed groups g).checkType = g.checkType := by
  rw [completed, HMDataHostGroup.setDefaultPort]
  split <;> rfl

theorem mem_completed_hosts {g : HMDataHostGroup} {host : HMString} :
    host ∈ (completed groups g).hosts ↔ host ∈ g.hosts ∨ host ∈ childHosts groups g :=
  HMDataHostGroup.mem_foldl_appendNew

theorem mem_loadedGroups {g : HMDataHostGroup} :
    g ∈ loadedGroups groups ↔ ∃ e ∈ groups.entries, completed groups e.2 = g := by
  simp only [loadedGroups, rawGroups, List.mem_map, exists_exists_and_eq_and]

/-- Nothing is placed for the loaded groups exactly when there is nothing to check. -/
theorem loaded_placements_eq_nil :
    (loadedGroups groups).flatMap placements = [] ↔ NothingToCheck groups := by
  have hhosts : ∀ g, (completed groups g).hosts = [] ↔ g.hosts = [] ∧ childHosts groups g = [] := by
    intro g
    simp only [List.eq_nil_iff_forall_not_mem, mem_completed_hosts, not_or, forall_and]
  rw [List.flatMap_eq_nil_iff]
  simp only [placements_eq_nil_iff]
  constructor
  · intro h e he hvalid
    rw [← hhosts]
    exact h _ ((mem_loadedGroups groups).mpr ⟨e, he, rfl⟩) (by rwa [completed_checkType])
  · intro h g hg hvalid
    rcases (mem_loadedGroups groups).mp hg with ⟨e, he, rfl⟩
    rw [hhosts]
    exact h e he (by rwa [completed_checkType] at hvalid)

/-- Each loaded group is named once more in the entry of each of its checks, so the lists differ
as soon as there is a check. -/
theorem nothingToCheck_of_checkList_eq (h : (ofGroups (rawGroups groups ++
    (loadedGroups groups).map settings.prepare)).toCheckList.setGuard true =
      (ofGroups ((rawGroups groups).map settings.prepare)).toCheckList.setGuard true) :
    NothingToCheck groups := by
  have hload := holds_ofGroups (rawGroups groups ++ (loadedGroups groups).map settings.prepare)
  have hcommit := holds_ofGroups ((rawGroups groups).map settings.prepare)
  have hentries := congrArg (fun l => l.checklist.entries) h
  rw [← loaded_placements_eq_nil, List.eq_nil_iff_forall_not_mem]
  intro p hp
  have hcount : 0 < ((loadedGroups groups).flatMap placements).countP fun r => p.id.same r.id :=
    List.countP_pos_iff.mpr ⟨p, hp, CheckId.same_refl p.id⟩
  rw [← countP_placements_prepare settings] at hcount
  rcases List.countP_pos_iff.mp hcount with ⟨q, hq, hsame⟩
  obtain ⟨e, he, heq⟩ := hload.listed q (by
    rw [List.flatMap_append]
    exact List.mem_append_right _ hq)
  have hmem : (e.1, e.2.params) ∈ ((ofGroups ((rawGroups groups).map
      settings.prepare)).toCheckList.setGuard true).checklist.entries := by
    rw [← hentries]
    exact List.mem_map.mpr ⟨e, he, rfl⟩
  rcases List.mem_map.mp hmem with ⟨e', he', hsplit⟩
  obtain ⟨hkey, hparams⟩ : e'.1 = e.1 ∧ e'.2.params = e.2.params := Prod.mk.inj hsplit
  have hid : CheckEntry.id e' = CheckEntry.id e := by rw [CheckEntry.id, CheckEntry.id, hkey, hparams]
  have hlength : ∀ ps : List Placement,
      ((ps.filter fun r => (CheckEntry.id e).same r.id).map Placement.group).length =
        ps.countP fun r => p.id.same r.id := by
    intro ps
    have hep : (CheckEntry.id e).same p.id = true :=
      CheckId.same_of_common heq hsame
    rw [List.length_map, ← List.countP_eq_length_filter]
    simp only [CheckId.same_congr hep]
  have hnames : e'.2.params.hostGroups.length = e.2.params.hostGroups.length := by rw [hparams]
  rw [hcommit.groups e' he', hload.groups e he, hid, hlength, hlength, List.flatMap_append,
    List.countP_append, countP_placements_prepare] at hnames
  omega

theorem ofGroups_of_unplaced {gs : List HMDataHostGroup} (h : ∀ g ∈ gs, placements g = []) :
    ofGroups gs = .empty := by
  rw [ofGroups, foldl_addHostGroup_eq_place rfl, List.flatMap_eq_nil_iff.mpr h]
  rfl

theorem commitAgreesWithLoad_iff (hplain : ChildrenPlain groups) :
    CommitAgreesWithLoad settings flowType groups ↔ NothingToCheck groups := by
  obtain ⟨s, hs, hload⟩ := hasChecks_setup settings flowType groups hplain
  have hcommit := hasChecks_commit settings groups
  constructor
  · rintro ⟨s', hs', hchecks, -, -⟩
    rw [hs] at hs'
    obtain rfl : s = s' := Option.some.inj hs'
    rw [hload.checks, hcommit.checks] at hchecks
    exact nothingToCheck_of_checkList_eq settings groups hchecks
  · intro h
    have hraw : ∀ g ∈ rawGroups groups, placements g = [] := by
      intro g hg
      rcases List.mem_map.mp hg with ⟨e, he, rfl⟩
      exact placements_eq_nil_iff.mpr fun hvalid => (h e he hvalid).1
    have hprepared : ∀ gs : List HMDataHostGroup, (∀ g ∈ gs, placements g = []) →
        ∀ g ∈ gs.map settings.prepare, placements g = [] := by
      intro gs hgs g hg
      rcases List.mem_map.mp hg with ⟨g', hg', rfl⟩
      rw [placements_prepare_eq_nil]
      exact hgs g' hg'
    have hloaded := List.flatMap_eq_nil_iff.mp ((loaded_placements_eq_nil groups).mpr h)
    rw [ofGroups_of_unplaced (hprepared _ hraw)] at hcommit
    rw [ofGroups_of_unplaced (List.forall_mem_append.mpr ⟨hraw, hprepared _ hloaded⟩)] at hload
    refine ⟨s, hs, ?_, ?_, ?_⟩
    · rw [hload.checks, hcommit.checks]
    · rw [hload.cache, hcommit.cache]
    · rw [hload.waitList, hcommit.waitList]

/-- The checks of one list are among those of the other, with the same groups. -/
def ChecksIn (l l' : HMDataCheckList) : Prop :=
  ∀ e ∈ l.checklist.entries, ∃ e' ∈ l'.checklist.entries, eqv e.1 e'.1 = true ∧
    e.2.toCheckParameters = e'.2.toCheckParameters ∧
    ∀ group, group ∈ e.2.hostGroups ↔ group ∈ e'.2.hostGroups

/-- Whatever a list repeats, both ways lead to the same checks of the same groups. -/
def SameChecks : Prop :=
  ∃ s, setupDaemonstate settings flowType groups = some s ∧
    ChecksIn s.checkList (generateCheckList settings groups).checkList ∧
    ChecksIn (generateCheckList settings groups).checkList s.checkList

/-- A group is placed under an id. -/
def PlacedAs (ps : List Placement) (id : CheckId) (group : HMString) : Prop :=
  ∃ p ∈ ps, id.same p.id = true ∧ p.group = group

theorem placedAs_prepare (gs : List HMDataHostGroup) (id : CheckId) (group : HMString) :
    PlacedAs ((gs.map settings.prepare).flatMap placements) id group ↔
      PlacedAs (gs.flatMap placements) id group := by
  have hmap : ∀ g, PlacedAs (placements g) id group ↔
      (true, group) ∈ (placements g).map fun p => (id.same p.id, p.group) := by
    intro g
    simp only [PlacedAs, List.mem_map, Prod.mk.injEq]
  have hflat : ∀ gs : List HMDataHostGroup, PlacedAs (gs.flatMap placements) id group ↔
      ∃ g ∈ gs, PlacedAs (placements g) id group := by
    intro gs
    simp only [PlacedAs, List.mem_flatMap]
    constructor
    · rintro ⟨p, ⟨g, hg, hp⟩, h⟩
      exact ⟨g, hg, p, hp, h⟩
    · rintro ⟨g, hg, p, hp, h⟩
      exact ⟨p, ⟨g, hg, hp⟩, h⟩
  have hprepare : ∀ g, PlacedAs (placements (settings.prepare g)) id group ↔
      PlacedAs (placements g) id group := by
    intro g
    rw [hmap, hmap, placements_prepare]
  simp only [hflat, List.mem_map, exists_exists_and_eq_and, hprepare]

theorem placedAs_congr {ps : List Placement} {id id' : CheckId} (h : id.same id' = true)
    (group : HMString) : PlacedAs ps id group ↔ PlacedAs ps id' group := by
  simp only [PlacedAs, CheckId.same_congr h]

theorem mem_hostGroups_iff {gs : List HMDataHostGroup} {e : CheckEntry}
    (he : e ∈ (ofGroups gs).checklist.entries) (group : HMString) :
    group ∈ e.2.params.hostGroups ↔ PlacedAs (gs.flatMap placements) (CheckEntry.id e) group := by
  rw [(holds_ofGroups gs).groups e he]
  simp only [PlacedAs, List.mem_map, List.mem_filter, and_assoc]

/-- The checks of two lists, entry by entry. -/
theorem checksIn_ofGroups {gs gs' : List HMDataHostGroup} :
    ChecksIn ((ofGroups gs).toCheckList.setGuard true) ((ofGroups gs').toCheckList.setGuard true) ↔
      ∀ e ∈ (ofGroups gs).checklist.entries, ∃ e' ∈ (ofGroups gs').checklist.entries,
        (CheckEntry.id e).same (CheckEntry.id e') = true ∧
        ∀ group, PlacedAs (gs.flatMap placements) (CheckEntry.id e) group ↔
          PlacedAs (gs'.flatMap placements) (CheckEntry.id e') group := by
  have hentries : ∀ gs : List HMDataHostGroup,
      ((ofGroups gs).toCheckList.setGuard true).checklist.entries =
        (ofGroups gs).checklist.entries.map fun e => (e.1, e.2.params) := fun _ => rfl
  simp only [ChecksIn, hentries, List.mem_map, exists_exists_and_eq_and, forall_exists_index,
    and_imp, forall_apply_eq_imp_iff₂]
  refine forall₂_congr fun e he => exists_congr fun e' => and_congr_right fun he' => ?_
  simp only [mem_hostGroups_iff he, mem_hostGroups_iff he', CheckId.same_iff, CheckEntry.id,
    and_assoc]

theorem placedAs_of_checksIn {gs gs' : List HMDataHostGroup}
    (h : ChecksIn ((ofGroups gs).toCheckList.setGuard true)
      ((ofGroups gs').toCheckList.setGuard true)) {id : CheckId} {group : HMString}
    (hplaced : PlacedAs (gs.flatMap placements) id group) :
    PlacedAs (gs'.flatMap placements) id group := by
  rcases hplaced with ⟨p, hp, hsame, hgroup⟩
  obtain ⟨e, he, hep⟩ := (holds_ofGroups gs).listed p hp
  obtain ⟨e', -, hee', hgroups⟩ := checksIn_ofGroups.mp h e he
  have hide : id.same (CheckEntry.id e) = true :=
    CheckId.same_of_common hsame hep
  rw [placedAs_congr (CheckId.same_trans hide hee'), ← hgroups]
  exact ⟨p, hp, hep, hgroup⟩

theorem checksIn_of_placedAs {gs gs' : List HMDataHostGroup}
    (h : ∀ id group, PlacedAs (gs.flatMap placements) id group ↔
      PlacedAs (gs'.flatMap placements) id group) :
    ChecksIn ((ofGroups gs).toCheckList.setGuard true)
      ((ofGroups gs').toCheckList.setGuard true) := by
  rw [checksIn_ofGroups]
  intro e he
  obtain ⟨p, hp, hid⟩ := (holds_ofGroups gs).origin e he
  obtain ⟨q, hq, hsame, -⟩ := (h (CheckEntry.id e) p.group).mp
    ⟨p, hp, by rw [hid, CheckId.same_refl], rfl⟩
  obtain ⟨e', he', heq⟩ := (holds_ofGroups gs').listed q hq
  have hee' := CheckId.same_of_common hsame heq
  refine ⟨e', he', hee', fun group => ?_⟩
  rw [h, placedAs_congr hee']

/-- Loading changes nothing that is compared: the hosts of the children are already there, and no
group with hosts is given a default port. -/
def LoadingIdle : Prop :=
  ∀ e ∈ groups.entries, e.2.checkType ≠ .invalid →
    (∀ host ∈ childHosts groups e.2, host ∈ e.2.hosts) ∧
    (e.2.hosts ≠ [] → e.2.port ≠ 0 ∨ e.2.checkType.defaultPort = none)

instance : Decidable (LoadingIdle groups) :=
  inferInstanceAs (Decidable (∀ e ∈ groups.entries, e.2.checkType ≠ .invalid → _))

theorem setDefaultPort_eq_self {g : HMDataHostGroup}
    (h : g.port ≠ 0 ∨ g.checkType.defaultPort = none) : g.setDefaultPort = g := by
  rw [HMDataHostGroup.setDefaultPort]
  split
  · rcases h with h | h
    · contradiction
    · rw [h]
      rfl
  · rfl

/-- No default port is zero. -/
theorem port_of_setDefaultPort {g : HMDataHostGroup} (h : g.setDefaultPort.port = g.port) :
    g.port ≠ 0 ∨ g.checkType.defaultPort = none := by
  have hnonzero : ∀ t : CheckType, t.defaultPort.getD 0 = 0 → t.defaultPort = none := by
    intro t
    cases t <;> decide
  rw [HMDataHostGroup.setDefaultPort] at h
  split at h
  next hport =>
    rw [hport] at h
    exact Or.inr (hnonzero _ h)
  next hport => exact Or.inl hport

theorem completed_port (g : HMDataHostGroup) :
    (completed groups g).port = g.setDefaultPort.port := rfl

theorem completed_groupName (g : HMDataHostGroup) :
    (completed groups g).groupName = g.groupName := by
  rw [completed, HMDataHostGroup.setDefaultPort]
  split <;> rfl

/-- A placement of a loaded group that the stored groups have too is one of the same group. -/
theorem stored_of_placedAs (hnames : ∀ e ∈ groups.entries, e.2.groupName = e.1)
    {e : HMString × HMDataHostGroup} (he : e ∈ groups.entries) {host : HMString}
    {c : HMDataHostCheck} {params : CheckParameters}
    (hplaced : PlacedAs ((rawGroups groups).flatMap placements) ⟨⟨host, c⟩, params⟩
      e.2.groupName) : host ∈ e.2.hosts ∧ c.port = e.2.port := by
  rcases hplaced with ⟨q, hq, hsame, hgroup⟩
  rcases List.mem_flatMap.mp hq with ⟨g', hg', hq⟩
  rcases List.mem_map.mp hg' with ⟨e', he', rfl⟩
  rcases mem_placements.mp hq with ⟨host', hhost', c', hc', rfl⟩
  have hkey : e'.1 = e.1 := by
    rw [← hnames e he, ← hnames e' he']
    exact hgroup
  obtain rfl : e' = e := SortedMap.eq_of_mem he' he (by rw [hkey]; exact eqv_refl e.1)
  rw [same_mk] at hsame
  simp only [Bool.and_eq_true, decide_eq_true_eq, HMDataHostCheck.beq_iff] at hsame
  rcases hsame with ⟨⟨rfl, hbeq, -⟩, -⟩
  refine ⟨hhost', ?_⟩
  rw [hbeq.2.1, ← eq_of_getHostCheck hc']

/-- All loaded placements are those of the stored groups exactly when loading is idle. -/
theorem placedAs_loaded_iff (hnames : ∀ e ∈ groups.entries, e.2.groupName = e.1) :
    (∀ id group, PlacedAs ((loadedGroups groups).flatMap placements) id group →
      PlacedAs ((rawGroups groups).flatMap placements) id group) ↔ LoadingIdle groups := by
  constructor
  · intro h e he hvalid
    have hstored : ∀ host ∈ (completed groups e.2).hosts,
        host ∈ e.2.hosts ∧ (completed groups e.2).port = e.2.port := by
      intro host hhost
      have hcheck : (completed groups e.2).getHostCheck = some _ :=
        getHostCheck_of_valid (by rwa [completed_checkType])
      refine stored_of_placedAs groups hnames he
        (h ⟨⟨host, _⟩, (completed groups e.2).getCheckParameters⟩ _ ?_)
      refine ⟨_, List.mem_flatMap.mpr ⟨_, (mem_loadedGroups groups).mpr ⟨e, he, rfl⟩,
        mem_placements.mpr ⟨host, hhost, _, hcheck, rfl⟩⟩, CheckId.same_refl _, ?_⟩
      exact completed_groupName groups e.2
    constructor
    · intro host hhost
      exact (hstored host ((mem_completed_hosts groups).mpr (Or.inr hhost))).1
    · intro hhosts
      obtain ⟨host, hhost⟩ := List.exists_mem_of_ne_nil _ hhosts
      apply port_of_setDefaultPort
      rw [← completed_port groups]
      exact (hstored host ((mem_completed_hosts groups).mpr (Or.inl hhost))).2
  · rintro h id group ⟨p, hp, hsame, hgroup⟩
    rcases List.mem_flatMap.mp hp with ⟨g, hg, hp⟩
    rcases (mem_loadedGroups groups).mp hg with ⟨e, he, rfl⟩
    rcases mem_placements.mp hp with ⟨host, hhost, c, hc, rfl⟩
    have hvalid : e.2.checkType ≠ .invalid := by
      rw [← completed_checkType groups]
      intro hinvalid
      rw [HMDataHostGroup.getHostCheck, if_neg (by simp [hinvalid])] at hc
      cases hc
    obtain ⟨hchildren, hport⟩ := h e he hvalid
    have hown : host ∈ e.2.hosts := by
      rcases (mem_completed_hosts groups).mp hhost with hhost | hhost
      · exact hhost
      · exact hchildren host hhost
    have hsetPort : e.2.setDefaultPort = e.2 :=
      setDefaultPort_eq_self (hport (List.ne_nil_of_mem hown))
    rw [completed, hsetPort] at hc hsame hgroup
    refine ⟨_, List.mem_flatMap.mpr ⟨e.2, List.mem_map_of_mem he,
      mem_placements.mpr ⟨host, hown, c, hc, rfl⟩⟩, hsame, hgroup⟩

theorem sameChecks_iff (hplain : ChildrenPlain groups)
    (hnames : ∀ e ∈ groups.entries, e.2.groupName = e.1) :
    SameChecks settings flowType groups ↔ LoadingIdle groups := by
  obtain ⟨s, hs, hload⟩ := hasChecks_setup settings flowType groups hplain
  have hcommit := hasChecks_commit settings groups
  have hsame : SameChecks settings flowType groups ↔ ∀ id group,
      PlacedAs ((rawGroups groups ++ (loadedGroups groups).map settings.prepare).flatMap
        placements) id group ↔
      PlacedAs (((rawGroups groups).map settings.prepare).flatMap placements) id group := by
    constructor
    · rintro ⟨s', hs', hin, hin'⟩ id group
      rw [hs] at hs'
      obtain rfl : s = s' := Option.some.inj hs'
      rw [hload.checks, hcommit.checks] at hin hin'
      exact ⟨placedAs_of_checksIn hin, placedAs_of_checksIn hin'⟩
    · intro h
      refine ⟨s, hs, ?_⟩
      rw [hload.checks, hcommit.checks]
      exact ⟨checksIn_of_placedAs h, checksIn_of_placedAs fun id group => (h id group).symm⟩
  have happend : ∀ (ps ps' : List Placement) id group,
      PlacedAs (ps ++ ps') id group ↔ PlacedAs ps id group ∨ PlacedAs ps' id group := by
    intro ps ps' id group
    simp only [PlacedAs, List.mem_append, or_and_right, exists_or]
  rw [hsame, ← placedAs_loaded_iff groups hnames]
  simp only [List.flatMap_append, happend, placedAs_prepare, or_iff_left_iff_imp]

/-- One HTTP group with one host. -/
def webGroup (port : UInt16) : HMDataHostGroupMap :=
  (∅ : HMDataHostGroupMap).set (bytes "web")
    { HMDataHostGroup.new (bytes "web") with
      checkType := .http
      port := port
      hosts := [bytes "host"] }

/-- An HTTP group with a host of its own and a child group, whose host it has too. -/
def webWithChild : HMDataHostGroupMap :=
  (webGroup 8080).set (bytes "all")
    { HMDataHostGroup.new (bytes "all") with
      checkType := .http
      port := 8080
      hosts := [bytes "other", bytes "host"]
      hostGroups := [bytes "web"] }

end HMState

end NetCHASM
