import NetCHASM.DataCheckList
import NetCHASM.ResultUniqueness

/-! Results that a restored state puts into the caches of the store, one entry for each group
of their check. The flag that says an entry was found is not reset from one group to the
next, so a group that lacks the entry gets none after a group that has it. -/
namespace NetCHASM

open KeyOrder OrderedMap

section Groups

variable {ρ : Type}

/-- One group of an update: replace the payload of the entries of a host at an address, or
insert one if none was found so far. -/
def updateGroupEntries (hostname : HMString) (address : HMIPAddress) (new : GroupEntry ρ)
    (acc : GroupCache ρ × Bool) (group : HMString) : GroupCache ρ × Bool :=
  let found := acc.2 || (acc.1.range group).any (isEntryOf hostname address)
  let cache := acc.1.modify group fun e =>
    if isEntryOf hostname address e then { e with address := address, payload := new.payload }
    else e
  (if found then cache else cache.insert group new, found)

def updateGroupCache (hostname : HMString) (address : HMIPAddress) (new : GroupEntry ρ)
    (hostGroups : List HMString) (cache : GroupCache ρ) : GroupCache ρ :=
  (hostGroups.foldl (updateGroupEntries hostname address new) (cache, false)).1

end Groups

namespace HMStorageHostGroup

/-- Put the result of a check into its groups. -/
def updateCheckResultCache (s : HMStorageHostGroup) (header : HMCheckHeader)
    (hostGroups : List HMString) (result : HMDataCheckResult) (now : HMTimeStamp) :
    HMStorageHostGroup :=
  { s with
    hostGroupResults := updateGroupCache header.hostname result.address
      ⟨header.hostname, header.address, false, now, result⟩ hostGroups s.hostGroupResults }

/-- The same under the name that the store uses itself. -/
def updateCheckResultsCache (s : HMStorageHostGroup) (header : HMCheckHeader)
    (hostGroups : List HMString) (result : HMDataCheckResult) (now : HMTimeStamp) :
    HMStorageHostGroup :=
  { s with
    hostGroupResults := updateGroupCache header.hostname result.address
      ⟨header.hostname, header.address, false, now, result⟩ hostGroups s.hostGroupResults }

def updateAuxInfoCache (s : HMStorageHostGroup) (header : HMCheckHeader)
    (hostGroups : List HMString) (aux : HMAuxInfo) (now : HMTimeStamp) : HMStorageHostGroup :=
  { s with
    hostGroupAux := updateGroupCache header.hostname header.address
      ⟨header.hostname, header.address, false, now, aux⟩ hostGroups s.hostGroupAux }

end HMStorageHostGroup

namespace RestoredResults

open HMStorageHostGroup ResultUniqueness

variable {ρ : Type} {hostname : HMString} {address : HMIPAddress} {new : GroupEntry ρ}

/-- Every group has one entry of the host at the address, with the payload. -/
def HasOne (hostname : HMString) (address : HMIPAddress) (payload : ρ)
    (cache : GroupCache ρ) (group : HMString) : Prop :=
  ∃ e, (cache.range group).filter (isEntryOf hostname address) = [e] ∧ e.payload = payload

/-- Every group of the update has the payload, and nothing else has changed. -/
structure ReachesAll (hostname : HMString) (address : HMIPAddress) (payload : ρ)
    (hostGroups : List HMString) (cache cache' : GroupCache ρ) : Prop where
  reached : ∀ group ∈ hostGroups, HasOne hostname address payload cache' group
  others : ∀ group, ((cache'.range group).filter fun e => !isEntryOf hostname address e) =
    (cache.range group).filter fun e => !isEntryOf hostname address e
  outside : ∀ group, group ∉ hostGroups → cache'.range group = cache.range group

/-- The group has an entry of the host at the address. -/
def Has (hostname : HMString) (address : HMIPAddress) (cache : GroupCache ρ)
    (group : HMString) : Prop :=
  (cache.range group).any (isEntryOf hostname address) = true

/-- A group without the entry does not come after one with it. -/
def MissingFirst (hostname : HMString) (address : HMIPAddress) (hostGroups : List HMString)
    (cache : GroupCache ρ) : Prop :=
  hostGroups.Pairwise fun group later =>
    Has hostname address cache group → Has hostname address cache later

/-! One group of the update. -/

theorem range_updateGroupEntries_of_ne {acc : GroupCache ρ × Bool} {group group' : HMString}
    (hne : group ≠ group') :
    (updateGroupEntries hostname address new acc group).1.range group' = acc.1.range group' := by
  have hkey : eqv group group' = false := eqv_of_ne hne
  rw [updateGroupEntries]
  split
  · simp [SortedMultimap.range_modify, hkey]
  · simp [SortedMultimap.range_insert, SortedMultimap.range_modify, hkey]

theorem range_updateGroupEntries (acc : GroupCache ρ × Bool) (group : HMString) :
    (updateGroupEntries hostname address new acc group).1.range group =
      ((acc.1.range group).map fun e => if isEntryOf hostname address e then
        { e with address := address, payload := new.payload } else e) ++
      if acc.2 || (acc.1.range group).any (isEntryOf hostname address) then [] else [new] := by
  rw [updateGroupEntries]
  dsimp only
  split
  · simp [SortedMultimap.range_modify]
  · simp [SortedMultimap.range_insert, SortedMultimap.range_modify]

/-- Replacing the payload of an entry keeps it an entry of its host and address. -/
theorem isEntryOf_replaced (e : GroupEntry ρ) :
    isEntryOf hostname address (if isEntryOf hostname address e then
      { e with address := address, payload := new.payload } else e) =
      isEntryOf hostname address e := by
  by_cases he : isEntryOf hostname address e = true
  · have hname : e.hostName = hostname := by
      simp only [isEntryOf, Bool.and_eq_true, decide_eq_true_eq] at he
      exact he.2
    rw [if_pos he, he]
    simp [isEntryOf, hname]
  · rw [if_neg he]

theorem filter_replaced (es : List (GroupEntry ρ)) :
    ((es.map fun e => if isEntryOf hostname address e then
      { e with address := address, payload := new.payload } else e).filter
        fun e => !isEntryOf hostname address e) =
      es.filter fun e => !isEntryOf hostname address e := by
  induction es with
  | nil => rfl
  | cons e es ih =>
    rw [List.map_cons, List.filter_cons, isEntryOf_replaced, ih, List.filter_cons]
    by_cases he : isEntryOf hostname address e = true
    · simp [he]
    · simp [he]

/-- The entries of a group for the host and address after the update. -/
theorem filter_updateGroupEntries (acc : GroupCache ρ × Bool) (group : HMString)
    (hnew : isEntryOf hostname address new = true) :
    ((updateGroupEntries hostname address new acc group).1.range group).filter
        (isEntryOf hostname address) =
      (((acc.1.range group).filter (isEntryOf hostname address)).map fun e =>
        { e with address := address, payload := new.payload }) ++
      if acc.2 || (acc.1.range group).any (isEntryOf hostname address) then [] else [new] := by
  rw [range_updateGroupEntries, List.filter_append, List.filter_map]
  congr 1
  · have hsame : (isEntryOf hostname address ∘ fun e => if isEntryOf hostname address e then
        { e with address := address, payload := new.payload } else e) =
        isEntryOf hostname address := funext isEntryOf_replaced
    rw [hsame]
    apply List.map_congr_left
    intro e he
    rw [if_pos (List.mem_filter.mp he).2]
  · split
    · rfl
    · simp [hnew]

/-- A group ends with one entry unless it lacks the entry and an earlier one was found. -/
theorem hasOne_updateGroupEntries_iff {acc : GroupCache ρ × Bool} {group : HMString}
    (hnew : isEntryOf hostname address new = true)
    (hunique : ((acc.1.range group).countP (isEntryOf hostname address)) ≤ 1) :
    HasOne hostname address new.payload
        (updateGroupEntries hostname address new acc group).1 group ↔
      (acc.2 = true → Has hostname address acc.1 group) := by
  have hhas : Has hostname address acc.1 group ↔
      (acc.1.range group).filter (isEntryOf hostname address) ≠ [] := by
    simp [Has, List.filter_eq_nil_iff]
  rw [List.countP_eq_length_filter] at hunique
  rw [HasOne, filter_updateGroupEntries acc group hnew]
  cases hm : (acc.1.range group).filter (isEntryOf hostname address) with
  | nil =>
    have hnone : (acc.1.range group).any (isEntryOf hostname address) = false := by
      simpa [List.filter_eq_nil_iff] using hm
    rw [hhas, hm, hnone]
    cases acc.2 with
    | true => simp
    | false => simp
  | cons e es =>
    obtain rfl : es = [] := by
      rw [hm] at hunique
      exact List.length_eq_zero_iff.mp (by simpa using hunique)
    have hsome : Has hostname address acc.1 group := by
      rw [hhas, hm]
      exact List.cons_ne_nil e []
    have hany : (acc.1.range group).any (isEntryOf hostname address) = true := hsome
    rw [hany]
    refine iff_of_true ⟨{ e with address := address, payload := new.payload }, ?_, rfl⟩
      fun _ => hsome
    simp

/-! All groups of the update. -/

theorem range_foldl_of_not_mem (hostGroups : List HMString) (acc : GroupCache ρ × Bool)
    {group : HMString} (hnot : group ∉ hostGroups) :
    (hostGroups.foldl (updateGroupEntries hostname address new) acc).1.range group =
      acc.1.range group := by
  induction hostGroups generalizing acc with
  | nil => rfl
  | cons g hostGroups ih =>
    have hne : g ≠ group := fun heq => hnot (heq ▸ List.mem_cons_self)
    rw [List.foldl_cons, ih _ fun hmem => hnot (List.mem_cons_of_mem g hmem),
      range_updateGroupEntries_of_ne hne]

theorem others_foldl (hnew : isEntryOf hostname address new = true) (hostGroups : List HMString)
    (acc : GroupCache ρ × Bool) (group : HMString) :
    (((hostGroups.foldl (updateGroupEntries hostname address new) acc).1.range group).filter
      fun e => !isEntryOf hostname address e) =
      (acc.1.range group).filter fun e => !isEntryOf hostname address e := by
  induction hostGroups generalizing acc with
  | nil => rfl
  | cons g hostGroups ih =>
    rw [List.foldl_cons, ih]
    by_cases hg : g = group
    · subst hg
      rw [range_updateGroupEntries, List.filter_append, filter_replaced]
      split <;> simp [hnew]
    · rw [range_updateGroupEntries_of_ne hg]

theorem has_updateGroupEntries_of_ne {acc : GroupCache ρ × Bool} {group group' : HMString}
    (hne : group ≠ group') :
    Has hostname address (updateGroupEntries hostname address new acc group).1 group' ↔
      Has hostname address acc.1 group' := by
  rw [Has, Has, range_updateGroupEntries_of_ne hne]

/-- Once an entry was found, every group must have the entry; before that, the groups without
it must come first. -/
theorem reached_foldl_iff (hnew : isEntryOf hostname address new = true)
    (hostGroups : List HMString) (hnodup : hostGroups.Nodup) (acc : GroupCache ρ × Bool)
    (hunique : ∀ group ∈ hostGroups,
      ((acc.1.range group).countP (isEntryOf hostname address)) ≤ 1) :
    (∀ group ∈ hostGroups, HasOne hostname address new.payload
      (hostGroups.foldl (updateGroupEntries hostname address new) acc).1 group) ↔
      (acc.2 = true → ∀ group ∈ hostGroups, Has hostname address acc.1 group) ∧
        MissingFirst hostname address hostGroups acc.1 := by
  induction hostGroups generalizing acc with
  | nil => simp [MissingFirst]
  | cons g hostGroups ih =>
    rcases List.nodup_cons.mp hnodup with ⟨hg, hnodup⟩
    have hne : ∀ {group}, group ∈ hostGroups → g ≠ group := fun hmem heq => hg (heq ▸ hmem)
    have hfirst : HasOne hostname address new.payload
        ((g :: hostGroups).foldl (updateGroupEntries hostname address new) acc).1 g ↔
        (acc.2 = true → Has hostname address acc.1 g) := by
      rw [← hasOne_updateGroupEntries_iff hnew (hunique g List.mem_cons_self), List.foldl_cons,
        HasOne, HasOne, range_foldl_of_not_mem hostGroups _ hg]
    have hrest := ih hnodup (updateGroupEntries hostname address new acc g) (by
      intro group hgroup
      rw [range_updateGroupEntries_of_ne (hne hgroup)]
      exact hunique group (List.mem_cons_of_mem g hgroup))
    have hfound : (updateGroupEntries hostname address new acc g).2 = true ↔
        acc.2 = true ∨ Has hostname address acc.1 g := by
      simp [updateGroupEntries, Has]
    have hmissing : MissingFirst hostname address hostGroups
        (updateGroupEntries hostname address new acc g).1 ↔
        MissingFirst hostname address hostGroups acc.1 := by
      apply List.Pairwise.iff_of_mem
      intro group later hgroup hlater
      rw [has_updateGroupEntries_of_ne (hne hgroup), has_updateGroupEntries_of_ne (hne hlater)]
    have hall : (∀ group ∈ hostGroups, Has hostname address
        (updateGroupEntries hostname address new acc g).1 group) ↔
        ∀ group ∈ hostGroups, Has hostname address acc.1 group :=
      forall₂_congr fun group hgroup => has_updateGroupEntries_of_ne (hne hgroup)
    rw [List.forall_mem_cons, hfirst, List.foldl_cons, hrest, hfound, hall, hmissing,
      List.forall_mem_cons, MissingFirst, MissingFirst, List.pairwise_cons]
    constructor
    · rintro ⟨hhead, htail, hpairs⟩
      exact ⟨fun hacc => ⟨hhead hacc, htail (Or.inl hacc)⟩,
        fun later hlater hhas => htail (Or.inr hhas) later hlater, hpairs⟩
    · rintro ⟨hboth, hlater, hpairs⟩
      refine ⟨fun hacc => (hboth hacc).1, ?_, hpairs⟩
      rintro (hacc | hhas)
      · exact (hboth hacc).2
      · intro later hmem
        exact hlater later hmem hhas

theorem reachesAll_iff (hnew : isEntryOf hostname address new = true)
    {hostGroups : List HMString} (hnodup : hostGroups.Nodup) {cache : GroupCache ρ}
    (hunique : UniqueEntries cache) :
    ReachesAll hostname address new.payload hostGroups cache
        (updateGroupCache hostname address new hostGroups cache) ↔
      MissingFirst hostname address hostGroups cache := by
  have hreached := reached_foldl_iff hnew hostGroups hnodup (cache, false)
    fun group _ => hunique group hostname address
  constructor
  · intro h
    exact (hreached.mp h.reached).2
  · intro h
    refine ⟨hreached.mpr ⟨nofun, h⟩, ?_, ?_⟩
    · exact others_foldl hnew hostGroups (cache, false)
    · intro group hgroup
      exact range_foldl_of_not_mem hostGroups (cache, false) hgroup

/-- A restored result reaches every group of its check, and nothing else, exactly when no
group that lacks its entry comes after one that has it. -/
theorem restored_results_reach_all_iff (s : HMStorageHostGroup) (header : HMCheckHeader)
    (hostGroups : List HMString) (result : HMDataCheckResult) (aux : HMAuxInfo)
    (now : HMTimeStamp) (hresults : UniqueEntries s.hostGroupResults)
    (haux : UniqueEntries s.hostGroupAux) (hnodup : hostGroups.Nodup)
    (haddress : result.address = header.address) :
    (ReachesAll header.hostname header.address result hostGroups s.hostGroupResults
        (s.updateCheckResultCache header hostGroups result now).hostGroupResults ↔
      MissingFirst header.hostname header.address hostGroups s.hostGroupResults) ∧
    (ReachesAll header.hostname header.address result hostGroups s.hostGroupResults
        (s.updateCheckResultsCache header hostGroups result now).hostGroupResults ↔
      MissingFirst header.hostname header.address hostGroups s.hostGroupResults) ∧
    (ReachesAll header.hostname header.address aux hostGroups s.hostGroupAux
        (s.updateAuxInfoCache header hostGroups aux now).hostGroupAux ↔
      MissingFirst header.hostname header.address hostGroups s.hostGroupAux) := by
  have hnew : ∀ {ρ : Type} (payload : ρ), isEntryOf header.hostname header.address
      ⟨header.hostname, header.address, false, now, payload⟩ = true := by
    intro ρ payload
    simp [isEntryOf]
  refine ⟨?_, ?_, ?_⟩
  · rw [updateCheckResultCache, haddress]
    exact reachesAll_iff (hnew result) hnodup hresults
  · rw [updateCheckResultsCache, haddress]
    exact reachesAll_iff (hnew result) hnodup hresults
  · exact reachesAll_iff (hnew aux) hnodup haux

/-- The header of a check of one host at one address. -/
def hostHeader : HMCheckHeader := ⟨bytes "host", .v4 7, .default, .default⟩

def hostResult : HMDataCheckResult := { HMDataCheckResult.new 0 with address := .v4 7 }

/-- A store that has an entry of the host in one group. -/
def halfRestored : HMStorageHostGroup :=
  { HMStorageHostGroup.opened .always with
    hostGroupResults := SortedMultimap.empty.insert (bytes "b")
      ⟨bytes "host", .v4 7, false, 0, .new 0⟩ }

/-- The group that lacks the entry comes before the one that has it. -/
theorem restored_result_reaches_both_groups :
    ReachesAll (bytes "host") (.v4 7) hostResult [bytes "a", bytes "b"]
      halfRestored.hostGroupResults (halfRestored.updateCheckResultCache hostHeader
        [bytes "a", bytes "b"] hostResult 5).hostGroupResults := by
  have hrange : ∀ group, halfRestored.hostGroupResults.range group =
      if bytes "b" = group then [⟨bytes "host", .v4 7, false, 0, .new 0⟩] else [] := by
    intro group
    rw [halfRestored, SortedMultimap.range_insert]
    simp only [eqv_iff_eq]
    rfl
  have hunique : UniqueEntries halfRestored.hostGroupResults := by
    intro group hostname address
    rw [hrange]
    split
    · exact List.countP_le_length
    · exact Nat.zero_le 1
  have hmissing : ¬ Has (bytes "host") (.v4 7) halfRestored.hostGroupResults (bytes "a") := by
    rw [Has, hrange]
    decide
  refine (restored_results_reach_all_iff halfRestored hostHeader [bytes "a", bytes "b"] hostResult
    ⟨[], 0⟩ 5 hunique (fun _ _ _ => Nat.zero_le 1) (by decide) rfl).1.mpr ?_
  exact List.pairwise_pair.mpr fun hhas => absurd hhas hmissing

/-- Of two groups the first has an entry of the host; the second one gets none. -/
theorem restored_result_lost :
    let s := { HMStorageHostGroup.opened .always with
      hostGroupResults := SortedMultimap.empty.insert (bytes "a")
        ⟨bytes "host", .v4 7, false, 0, .new 0⟩
      hostGroupAux := SortedMultimap.empty.insert (bytes "a")
        ⟨bytes "host", .v4 7, false, 0, ⟨[], 0⟩⟩ }
    let groups := [bytes "a", bytes "b"]
    (s.updateCheckResultCache hostHeader groups hostResult 5).hostGroupResults.range (bytes "b") =
        [] ∧
      (s.updateCheckResultsCache hostHeader groups hostResult 5).hostGroupResults.range
        (bytes "b") = [] ∧
      (s.updateAuxInfoCache hostHeader groups ⟨[], 9⟩ 5).hostGroupAux.range (bytes "b") = [] := by
  decide

end RestoredResults

end NetCHASM
