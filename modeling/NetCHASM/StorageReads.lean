import NetCHASM.StorageHostGroup

/-! What the reads of the store do to its caches. A read that goes through the cache
replaces the entries of each group it loads by those of the backend; the theorems say
which groups are loaded and when nothing is lost by it. -/
namespace StorageReads

open NetCHASM OrderedMap KeyOrder

variable {ρ : Type} {load : HMString → Fetch (List (GroupEntry ρ))}
  {wanted : GroupEntry ρ → Bool} {cache : GroupCache ρ}

/-- The cache holds a payload for a host and address of a group. -/
def HasEntry (cache : GroupCache ρ) (group host : HMString) (address : HMIPAddress)
    (payload : ρ) : Prop :=
  ∃ e ∈ cache.range group, e.hostName = host ∧ e.address = address ∧ e.payload = payload

def SameEntries (c c' : GroupCache ρ) : Prop :=
  ∀ group host address payload,
    HasEntry c group host address payload ↔ HasEntry c' group host address payload

/-- Two lists of results hold the same payloads for the same hosts and addresses. -/
def SameResults (es es' : List (GroupEntry ρ)) : Prop :=
  ∀ host address payload,
    (∃ e ∈ es, e.hostName = host ∧ e.address = address ∧ e.payload = payload) ↔
      ∃ e ∈ es', e.hostName = host ∧ e.address = address ∧ e.payload = payload

theorem sameEntries_iff {c c' : GroupCache ρ} :
    SameEntries c c' ↔ ∀ group, SameResults (c.range group) (c'.range group) := Iff.rfl

/-- The groups a lookup refreshes: it stops at the first whose record has the wanted
entry or cannot be decoded. -/
def visited (load : HMString → Fetch (List (GroupEntry ρ))) (wanted : GroupEntry ρ → Bool) :
    List HMString → List HMString
  | [] => []
  | group :: groups =>
    match load group with
    | .found rs => if rs.any wanted then [group] else group :: visited load wanted groups
    | .missing => group :: visited load wanted groups
    | .raised => [group]

/-- The entries of a group once its record has been loaded. -/
def loadedRange (load : HMString → Fetch (List (GroupEntry ρ))) (cache : GroupCache ρ)
    (group : HMString) : List (GroupEntry ρ) :=
  match load group with
  | .found rs => rs
  | .missing | .raised => cache.range group

theorem range_refresh (group g : HMString) (rs : List (GroupEntry ρ)) :
    (refresh group rs cache).range g = if group = g then rs else cache.range g := by
  rw [refresh, SortedMultimap.range_insertAll, SortedMultimap.range_erase]
  by_cases h : group = g
  · simp [h]
  · simp [h, eqv_of_ne h]

theorem range_refreshGroup (load : HMString → Fetch (List (GroupEntry ρ)))
    (cache : GroupCache ρ) (group g : HMString) :
    (refreshGroup load group cache).1.range g =
      if group = g then loadedRange load cache g else cache.range g := by
  unfold refreshGroup loadedRange
  by_cases h : group = g
  · subst h
    cases hl : load group with
    | found rs => simp [range_refresh]
    | missing => simp
    | raised => simp
  · cases hl : load group with
    | found rs => simp [range_refresh, h]
    | missing => simp [h]
    | raised => simp [h]

theorem loadedRange_refreshGroup (group g : HMString) :
    loadedRange load (refreshGroup load group cache).1 g = loadedRange load cache g := by
  by_cases h : group = g
  · subst h
    cases hl : load group with
    | found rs => simp [loadedRange, hl]
    | missing => simp [loadedRange, refreshGroup, hl]
    | raised => simp [loadedRange, refreshGroup, hl]
  · cases hl : load g with
    | found rs => simp [loadedRange, hl]
    | missing => simp [loadedRange, hl, range_refreshGroup, h]
    | raised => simp [loadedRange, hl, range_refreshGroup, h]

/-- A lookup leaves the loaded record in every group it visits and nothing else changed. -/
theorem range_lookupThrough (groups : List HMString) (cache : GroupCache ρ) (g : HMString) :
    (lookupThrough load wanted groups cache).1.range g =
      if g ∈ visited load wanted groups then loadedRange load cache g else cache.range g := by
  induction groups generalizing cache with
  | nil => simp [lookupThrough, visited]
  | cons group groups ih =>
    -- going on with the refreshed cache visits the remaining groups
    have hgoOn : (lookupThrough load wanted groups (refreshGroup load group cache).1).1.range g =
        if g ∈ group :: visited load wanted groups then loadedRange load cache g
        else cache.range g := by
      rw [ih, loadedRange_refreshGroup, range_refreshGroup]
      by_cases hmem : g ∈ visited load wanted groups
      · simp [hmem]
      · by_cases heq : group = g
        · simp [heq]
        · simp [hmem, heq, Ne.symm heq]
    have hstop : (refreshGroup load group cache).1.range g =
        if g ∈ [group] then loadedRange load cache g else cache.range g := by
      rw [range_refreshGroup]
      simp [eq_comm]
    cases hl : load group with
    | found rs =>
      have hgroup : (refresh group rs cache).range group = rs := by simp [range_refresh]
      simp only [lookupThrough, visited, refreshGroup, hl, hgroup] at hgoOn hstop ⊢
      cases hfind : rs.find? wanted with
      | some e =>
        have hany : rs.any wanted = true :=
          List.any_eq_true.mpr ⟨e, List.mem_of_find?_eq_some hfind, List.find?_some hfind⟩
        simp only [hany, if_true]
        exact hstop
      | none =>
        have hany : rs.any wanted = false := by
          rw [List.any_eq_false]
          exact fun e he => List.find?_eq_none.mp hfind e he
        simp only [hany]
        exact hgoOn
    | missing =>
      simp only [lookupThrough, visited, refreshGroup, hl] at hgoOn ⊢
      exact hgoOn
    | raised =>
      simp only [lookupThrough, visited, refreshGroup, hl] at hstop ⊢
      exact hstop

/-- The record of a group, if it can be loaded, holds what the cache holds. -/
def RecordAgrees (load : HMString → Fetch (List (GroupEntry ρ))) (cache : GroupCache ρ)
    (group : HMString) : Prop :=
  ∀ rs, load group = .found rs → SameResults (cache.range group) rs

theorem sameResults_refl (es : List (GroupEntry ρ)) : SameResults es es := fun _ _ _ => Iff.rfl

theorem recordAgrees_iff (group : HMString) :
    RecordAgrees load cache group ↔
      SameResults (cache.range group) (loadedRange load cache group) := by
  unfold RecordAgrees loadedRange
  cases hl : load group with
  | found rs => simp
  | missing => simpa using sameResults_refl _
  | raised => simpa using sameResults_refl _

/-- A cache that took over the records of some groups kept its entries exactly when
those records agree with it. -/
theorem sameEntries_iff_recordAgrees {cache' : GroupCache ρ} {groups : List HMString}
    (hrange : ∀ g, cache'.range g =
      if g ∈ groups then loadedRange load cache g else cache.range g) :
    SameEntries cache cache' ↔ ∀ g ∈ groups, RecordAgrees load cache g := by
  rw [sameEntries_iff]
  constructor
  · intro h g hg
    have hsame := h g
    rw [hrange g, if_pos hg] at hsame
    exact (recordAgrees_iff g).mpr hsame
  · intro h g
    rw [hrange g]
    split
    · rename_i hg
      exact (recordAgrees_iff g).mp (h g hg)
    · exact sameResults_refl _

/-- The reads that go through the cache. -/
inductive Read where
  | checkResult (hostname : HMString) (address : HMIPAddress) (hostGroups : List HMString)
  | groupCheckResults (group : HMString) (onlyResolved : Bool)
  | auxInfo (hostname : HMString) (address : HMIPAddress) (hostGroups : List HMString)
  | groupAuxInfo (group : HMString) (onlyResolved : Bool)
  deriving DecidableEq, Repr

def Read.run (env : StoreEnv) (s : HMStorageHostGroup) : Read → HMStorageHostGroup
  | .checkResult hostname address hostGroups =>
    (s.getCheckResult env hostname address hostGroups).1
  | .groupCheckResults group onlyResolved => (s.getGroupCheckResults env group onlyResolved).1
  | .auxInfo hostname address hostGroups => (s.getAuxInfo hostname address hostGroups).1
  | .groupAuxInfo group onlyResolved => (s.getGroupAuxInfo group onlyResolved).1

/-- The groups whose check results, and those whose aux info, a read refreshes. -/
def Read.checkGroups (env : StoreEnv) (s : HMStorageHostGroup) : Read → List HMString
  | .checkResult hostname address hostGroups =>
    visited (s.loadCheckResults env) (isEntryOf hostname address) hostGroups
  | .groupCheckResults group _ => [group]
  | .auxInfo .. | .groupAuxInfo .. => []

def Read.auxGroups (s : HMStorageHostGroup) : Read → List HMString
  | .auxInfo hostname address hostGroups =>
    visited s.fetchAuxInfo (isEntryOf hostname address) hostGroups
  | .groupAuxInfo group _ => [group]
  | .checkResult .. | .groupCheckResults .. => []

variable (env : StoreEnv) (s : HMStorageHostGroup)

theorem range_run_checks (read : Read) (g : HMString) :
    (read.run env s).hostGroupResults.range g =
      if g ∈ read.checkGroups env s then
        loadedRange (s.loadCheckResults env) s.hostGroupResults g
      else s.hostGroupResults.range g := by
  cases read with
  | checkResult hostname address hostGroups => exact range_lookupThrough hostGroups _ g
  | groupCheckResults group onlyResolved =>
    have h := range_refreshGroup (s.loadCheckResults env) s.hostGroupResults group g
    simp only [Read.run, Read.checkGroups, HMStorageHostGroup.getGroupCheckResults, h]
    simp [eq_comm]
  | auxInfo hostname address hostGroups => simp [Read.run, Read.checkGroups,
      HMStorageHostGroup.getAuxInfo]
  | groupAuxInfo group onlyResolved => simp [Read.run, Read.checkGroups,
      HMStorageHostGroup.getGroupAuxInfo]

theorem range_run_aux (read : Read) (g : HMString) :
    (read.run env s).hostGroupAux.range g =
      if g ∈ read.auxGroups s then loadedRange s.fetchAuxInfo s.hostGroupAux g
      else s.hostGroupAux.range g := by
  cases read with
  | checkResult hostname address hostGroups => simp [Read.run, Read.auxGroups,
      HMStorageHostGroup.getCheckResult]
  | groupCheckResults group onlyResolved => simp [Read.run, Read.auxGroups,
      HMStorageHostGroup.getGroupCheckResults]
  | auxInfo hostname address hostGroups => exact range_lookupThrough hostGroups _ g
  | groupAuxInfo group onlyResolved =>
    have h := range_refreshGroup s.fetchAuxInfo s.hostGroupAux group g
    simp only [Read.run, Read.auxGroups, HMStorageHostGroup.getGroupAuxInfo, h]
    simp [eq_comm]

/-- A read changes nothing but the entries of the groups it loads, which become those of
the backend. So it keeps the entries of both caches exactly when the records of these
groups agree with the caches. -/
theorem read_takes_over_loaded_records (env : StoreEnv) (s : HMStorageHostGroup) (read : Read) :
    (read.run env s).backend = s.backend ∧
      (read.run env s).storeCheckQueue = s.storeCheckQueue ∧
      (read.run env s).storeAuxQueue = s.storeAuxQueue ∧
      (∀ g, (read.run env s).hostGroupResults.range g =
        if g ∈ read.checkGroups env s then
          loadedRange (s.loadCheckResults env) s.hostGroupResults g
        else s.hostGroupResults.range g) ∧
      (∀ g, (read.run env s).hostGroupAux.range g =
        if g ∈ read.auxGroups s then loadedRange s.fetchAuxInfo s.hostGroupAux g
        else s.hostGroupAux.range g) ∧
      ((SameEntries s.hostGroupResults (read.run env s).hostGroupResults ∧
          SameEntries s.hostGroupAux (read.run env s).hostGroupAux) ↔
        (∀ g ∈ read.checkGroups env s,
          RecordAgrees (s.loadCheckResults env) s.hostGroupResults g) ∧
          ∀ g ∈ read.auxGroups s, RecordAgrees s.fetchAuxInfo s.hostGroupAux g) := by
  refine ⟨by cases read <;> rfl, by cases read <;> rfl, by cases read <;> rfl,
    range_run_checks env s read, range_run_aux env s read, ?_⟩
  exact and_congr (sameEntries_iff_recordAgrees (range_run_checks env s read))
    (sameEntries_iff_recordAgrees (range_run_aux env s read))

/-- A store that commits when the time to live has passed, with two updates queued. -/
def sampleStore : HMStorageHostGroup :=
  { HMStorageHostGroup.opened .onTtl with
    storeCheckQueue :=
      [⟨bytes "web", bytes "a", .v4 1, { HMDataCheckResult.new 0 with numChecks := 1 }⟩,
        ⟨bytes "web", bytes "a", .v4 1, { HMDataCheckResult.new 0 with numChecks := 2 }⟩] }

/-- Both updates applied: the first was written when the group was new, the second waits. -/
def sampleCommitted : HMStorageHostGroup :=
  ((sampleStore.commitHealthCheck StoreEnv.oneHost 0).1.commitHealthCheck StoreEnv.oneHost 1).1

/-- A read of the group rolls the second result back to the first. -/
theorem read_rolls_back_uncommitted_result :
    (sampleCommitted.hostGroupResults.range (bytes "web")).map (fun e => e.payload.numChecks) =
        [2] ∧
      (((Read.groupCheckResults (bytes "web") false).run StoreEnv.oneHost
        sampleCommitted).hostGroupResults.range (bytes "web")).map
          (fun e => e.payload.numChecks) = [1] := by
  decide +kernel

end StorageReads
