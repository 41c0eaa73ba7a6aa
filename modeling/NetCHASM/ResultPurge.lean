import NetCHASM.ResultUniqueness

/-! What a purge removes. The groups are visited one after the other, and the last one in which
the address was found is written again with every later one. -/
namespace NetCHASM

open KeyOrder OrderedMap

namespace ResultPurge

open HMStorageHostGroup ResultUniqueness

variable {s s' : HMStorageHostGroup} {hostname : HMString} {address : HMIPAddress}
  {groups : List HMString} {group : HMString}

/-- The entries of a group without the one of the address. -/
def remaining (s : HMStorageHostGroup) (hostname : HMString) (address : HMIPAddress)
    (group : HMString) : List HMGroupCheckResult :=
  (s.hostGroupResults.range group).filter fun e => !isEntryOf hostname address e

/-- The address has an entry in the group. -/
def Listed (s : HMStorageHostGroup) (hostname : HMString) (address : HMIPAddress)
    (group : HMString) : Prop :=
  ∃ e ∈ s.hostGroupResults.range group, isEntryOf hostname address e = true

instance : Decidable (Listed s hostname address group) :=
  inferInstanceAs (Decidable (∃ e ∈ s.hostGroupResults.range group, _))

/-- The store after the address was purged from some groups: nothing else of a group is lost, and
the record of a group is written when it lost an entry, and only then. -/
structure Purged (s : HMStorageHostGroup) (hostname : HMString) (address : HMIPAddress)
    (groups : List HMString) (s' : HMStorageHostGroup) : Prop where
  results : ∀ group, s'.hostGroupResults.range group =
    if group ∈ groups then remaining s hostname address group else s.hostGroupResults.range group
  written : ∀ group ∈ groups, Listed s hostname address group →
    s'.backend.checks.get? group =
      some ((s'.hostGroupResults.range group).map (·.store HMDataCheckResult.serialize))
  untouched : ∀ group, ¬ (group ∈ groups ∧ Listed s hostname address group) →
    s'.backend.checks.get? group = s.backend.checks.get? group
  frame : s' = { s with
    hostGroupResults := s'.hostGroupResults
    backend := { s.backend with checks := s'.backend.checks } }

/-- Every cached host has a name. -/
def Named (s : HMStorageHostGroup) : Prop :=
  ∀ group, ∀ e ∈ s.hostGroupResults.range group, e.hostName ≠ []

/-- What is known after some of the groups were visited: the last group with an entry of the
address is the one that is written. -/
structure Visited (s : HMStorageHostGroup) (hostname : HMString) (address : HMIPAddress)
    (groups : List HMString) (acc : HMStorageHostGroup × Option HMString) : Prop
    extends Purged s hostname address groups acc.1 where
  last : ∀ group ∈ acc.2, group ∈ groups ∧ Listed s hostname address group

theorem not_listed_remaining (s : HMStorageHostGroup) (hostname : HMString) (address : HMIPAddress)
    (group : HMString) :
    (remaining s hostname address group).any (isEntryOf hostname address) = false := by
  rw [List.any_eq_false]
  intro e he
  have hnot := (List.mem_filter.mp he).2
  simpa using hnot

/-- The entry is found where it was listed, unless the group was visited before. -/
theorem any_visited {acc : HMStorageHostGroup × Option HMString}
    (h : Visited s hostname address groups acc) :
    (acc.1.hostGroupResults.range group).any (isEntryOf hostname address) = true ↔
      group ∉ groups ∧ Listed s hostname address group := by
  rw [h.results]
  by_cases hvisited : group ∈ groups
  · rw [if_pos hvisited, not_listed_remaining]
    simp [hvisited]
  · rw [if_neg hvisited]
    simp [hvisited, Listed]

theorem storeHostGroupCheckResults_eq (hwritable : s.readonly = false)
    (hopen : s.shutdown = false)
    (hnamed : ∀ e ∈ s.hostGroupResults.range group, e.hostName ≠ []) :
    s.storeHostGroupCheckResults group =
      { s with
        backend := { s.backend with
          checks := s.backend.checks.set group ((s.hostGroupResults.range group).map
            (·.store HMDataCheckResult.serialize)) } } := by
  rw [HMStorageHostGroup.storeHostGroupCheckResults, hwritable, hopen, groupRecord_of_named _ hnamed]
  rfl

/-- The cache of a visit: the group has lost its entry of the address, if it had one left. -/
theorem range_visit {acc : HMStorageHostGroup × Option HMString}
    (h : Visited s hostname address groups acc) (hunique : UniqueEntries s.hostGroupResults)
    (group group' : HMString) :
    (acc.1.hostGroupResults.eraseFirst group (isEntryOf hostname address)).range group' =
      if group' ∈ groups ++ [group] then remaining s hostname address group'
      else s.hostGroupResults.range group' := by
  rw [SortedMultimap.range_eraseFirst, h.results]
  simp only [eqv_iff_eq, List.mem_append, List.mem_singleton]
  by_cases hgroup : group = group'
  · rw [if_pos hgroup, if_pos (Or.inr hgroup.symm)]
    split
    · apply List.eraseP_of_forall_not
      intro e he
      have hnot := List.any_eq_false.mp (not_listed_remaining s hostname address group') e he
      exact hnot
    · exact eraseP_eq_filter (hunique group' hostname address)
  · have hother : ¬ group' = group := Ne.symm hgroup
    rw [if_neg hgroup]
    simp only [hother, or_false]

/-- The records after a visit: that of the last group with an entry is written. -/
def visitRecords (s : HMStorageHostGroup) (hostname : HMString) (address : HMIPAddress)
    (acc : HMStorageHostGroup × Option HMString) (written : Option HMString) :
    SortedMap HMString (List (StoredEntry StoredCheckResult)) :=
  written.elim acc.1.backend.checks fun group =>
    acc.1.backend.checks.set group ((remaining s hostname address group).map
      (·.store HMDataCheckResult.serialize))

theorem purgeGroup_eq {acc : HMStorageHostGroup × Option HMString}
    (h : Visited s hostname address groups acc) (hunique : UniqueEntries s.hostGroupResults)
    (hnamed : Named s) (hwritable : s.readonly = false) (hopen : s.shutdown = false)
    {written : Option HMString}
    (hwritten : written = if (acc.1.hostGroupResults.range group).any (isEntryOf hostname address)
      then some group else acc.2)
    (hlast : ∀ g ∈ written, g ∈ groups ++ [group] ∧ Listed s hostname address g) :
    purgeGroup hostname address acc group =
      ({ acc.1 with
        hostGroupResults := acc.1.hostGroupResults.eraseFirst group (isEntryOf hostname address)
        backend := { acc.1.backend with checks := visitRecords s hostname address acc written } },
        written) := by
  rw [purgeGroup, ← hwritten]
  cases written with
  | none => rfl
  | some g =>
    obtain ⟨hmem, -⟩ := hlast g rfl
    have hrange := range_visit h hunique group g
    rw [if_pos hmem] at hrange
    have hreadonly : acc.1.readonly = false := by rw [h.frame, hwritable]
    have hshutdown : acc.1.shutdown = false := by rw [h.frame, hopen]
    have hentries : ∀ e ∈ (acc.1.hostGroupResults.eraseFirst group
        (isEntryOf hostname address)).range g, e.hostName ≠ [] := by
      intro e he
      rw [hrange] at he
      exact hnamed g e (List.mem_filter.mp he).1
    have hstore := storeHostGroupCheckResults_eq (s := { acc.1 with
      hostGroupResults := acc.1.hostGroupResults.eraseFirst group (isEntryOf hostname address) })
      hreadonly hshutdown hentries
    rw [hrange] at hstore
    exact congrArg (·, some g) hstore

/-- A visit goes on from what is known after those before it. -/
theorem visited_purgeGroup {acc : HMStorageHostGroup × Option HMString}
    (h : Visited s hostname address groups acc) (hunique : UniqueEntries s.hostGroupResults)
    (hnamed : Named s) (hwritable : s.readonly = false) (hopen : s.shutdown = false)
    (group : HMString) : Visited s hostname address (groups ++ [group])
      (purgeGroup hostname address acc group) := by
  have hrange := range_visit h hunique group
  obtain ⟨written, hwritten⟩ : ∃ written, written =
      if (acc.1.hostGroupResults.range group).any (isEntryOf hostname address) then some group
      else acc.2 := ⟨_, rfl⟩
  have hlast : ∀ g ∈ written, g ∈ groups ++ [group] ∧ Listed s hostname address g := by
    intro g hg
    rw [hwritten] at hg
    split at hg
    · rename_i hfound
      obtain rfl := Option.some.inj hg
      exact ⟨by simp, (any_visited h).mp hfound |>.2⟩
    · exact ⟨List.mem_append_left _ (h.last g hg).1, (h.last g hg).2⟩
  -- a group with an entry that was not visited before is the one that is written
  have hnew : ∀ g ∈ groups ++ [group], Listed s hostname address g → written ≠ some g →
      g ∈ groups := by
    intro g hg hlisted hother
    rcases List.mem_append.mp hg with hbefore | hself
    · exact hbefore
    · obtain rfl := List.mem_singleton.mp hself
      by_contra hvisited
      rw [if_pos ((any_visited h).mpr ⟨hvisited, hlisted⟩)] at hwritten
      exact hother hwritten
  have hget : ∀ g, (visitRecords s hostname address acc written).get? g =
      if written = some g then some ((remaining s hostname address g).map
        (·.store HMDataCheckResult.serialize))
      else acc.1.backend.checks.get? g := by
    intro g
    cases written with
    | none => rfl
    | some g' =>
      simp only [visitRecords, Option.elim_some, SortedMap.get?_set, eqv_iff_eq, Option.some.injEq]
      split
      · rename_i hsame
        rw [hsame]
      · rfl
  rw [purgeGroup_eq h hunique hnamed hwritable hopen hwritten hlast]
  constructor
  · constructor
    · exact hrange
    · intro g hg hlisted
      rw [hrange, if_pos hg]
      refine (hget g).trans ?_
      split
      · rfl
      · rename_i hother
        have hbefore := hnew g hg hlisted hother
        rw [h.written g hbefore hlisted, h.results, if_pos hbefore]
    · intro g hnot
      refine (hget g).trans ?_
      rw [if_neg (fun hsome : written = some g => hnot (hlast g hsome))]
      apply h.untouched
      rintro ⟨hbefore, hlisted⟩
      exact hnot ⟨List.mem_append_left _ hbefore, hlisted⟩
    · have hframe := h.frame
      generalize acc.1 = s₁ at hframe ⊢
      rw [hframe]
  · exact hlast

/-- A purge removes the entries of one address and writes the groups that lost one. -/
theorem purge_removes_one_address (s : HMStorageHostGroup) (hostname : HMString)
    (address : HMIPAddress) (hostGroups : List HMString)
    (hunique : UniqueEntries s.hostGroupResults) (hnamed : Named s)
    (hwritable : s.readonly = false) (hopen : s.shutdown = false) :
    Purged s hostname address hostGroups (s.purgeCheckResult hostname address hostGroups) := by
  have hfold : ∀ groups acc, Visited s hostname address groups acc →
      Visited s hostname address (groups ++ hostGroups)
        (hostGroups.foldl (purgeGroup hostname address) acc) := by
    induction hostGroups with
    | nil =>
      intro groups acc h
      rw [List.append_nil]
      exact h
    | cons group hostGroups ih =>
      intro groups acc h
      rw [List.append_cons, List.foldl_cons]
      exact ih _ _ (visited_purgeGroup h hunique hnamed hwritable hopen group)
  have hstart : Visited s hostname address [] (s, none) := by
    refine ⟨⟨fun group => ?_, fun group hmem => ?_, fun group _ => rfl, rfl⟩, fun group hmem => ?_⟩
    · rw [if_neg List.not_mem_nil]
    · cases hmem
    · cases hmem
  exact (hfold [] (s, none) hstart).toPurged

/-- A store with one host in one group. -/
def oneEntryStore : HMStorageHostGroup :=
  { HMStorageHostGroup.opened .always with
    hostGroupResults := SortedMultimap.empty.insert (bytes "web")
      ⟨bytes "host", .v4 7, false, 0, .new 0⟩ }

theorem range_oneEntryStore (group : HMString) :
    oneEntryStore.hostGroupResults.range group =
      if bytes "web" = group then [⟨bytes "host", .v4 7, false, 0, .new 0⟩] else [] := by
  rw [oneEntryStore, SortedMultimap.range_insert]
  simp only [eqv_iff_eq]
  rfl

theorem one_entry_purged :
    Purged oneEntryStore (bytes "host") (.v4 7) [bytes "api", bytes "web", bytes "app"]
      (oneEntryStore.purgeCheckResult (bytes "host") (.v4 7)
        [bytes "api", bytes "web", bytes "app"]) := by
  have hunique : UniqueEntries oneEntryStore.hostGroupResults := by
    intro group hostname address
    rw [range_oneEntryStore]
    split
    · exact List.countP_le_length
    · exact Nat.zero_le 1
  have hnamed : Named oneEntryStore := by
    intro group e he
    rw [range_oneEntryStore] at he
    split at he
    · rw [List.mem_singleton.mp he]
      decide
    · cases he
  exact purge_removes_one_address oneEntryStore (bytes "host") (.v4 7) _ hunique hnamed rfl rfl

end ResultPurge

end NetCHASM
