import NetCHASM.DataPacking
import Mathlib.Data.List.Nodup

/-! How a daemon answers a peer that asks for the results of a check of a host. The peer sends
the check as a message, and the answer is looked up in the index of the check list. -/
namespace NetCHASM

open KeyOrder OrderedMap HMDataPacking

namespace IndexedCheckList

/-- The node that an iterator points to. -/
def deref (l : IndexedCheckList) (node : ℕ) : Option HMDataCheckParams :=
  (l.checklist.entries.find? fun e => e.2.node = node).map fun e => e.2.params

/-- The parameters with the result that they hold for an address. -/
def resultAt (address : HMIPAddress) (p : HMDataCheckParams) :
    Option (HMDataCheckParams × HMDataCheckResult) :=
  (p.getCheckResult address).map fun r => (p, r)

def getCheckResultsRemoteChecks (l : IndexedCheckList) (hostname : HMString)
    (check : HMDataHostCheck) (address : HMIPAddress) :
    List (HMDataCheckParams × HMDataCheckResult) :=
  (l.checklistReference.range (hostname, check)).filterMap fun node =>
    (l.deref node).bind (resultAt address)

/-- The list once results have come in, whatever they are. -/
def withResults (l : IndexedCheckList)
    (results : CheckId → SortedMap HMIPAddress HMDataCheckResult) : IndexedCheckList :=
  { l with
    checklist := l.checklist.mapVals fun k n =>
      { n with
        params := { n.params with checkData := results ⟨k, n.params.toCheckParameters⟩ } } }

/-- The results of the entries that pass a test of their keys. -/
def resultsOf (l : IndexedCheckList) (p : CheckListKey → Bool) (address : HMIPAddress) :
    List (HMDataCheckParams × HMDataCheckResult) :=
  (l.checklist.entries.filter fun e => p e.1).filterMap fun e => resultAt address e.2.params

/-- The entry is for the host, and its check agrees with a check on all that a message carries. -/
def packsAlike (hostname : HMString) (c : HMDataHostCheck) (k : CheckListKey) : Bool :=
  k.hostname = hostname && packDataHostCheck k.hostCheck = packDataHostCheck c

/-- The index has one reference for each entry. -/
structure Indexed (l : IndexedCheckList) : Prop where
  reference : l.checklistReference.entries.Perm (l.checklist.entries.map CheckEntry.reference)
  nodes : (l.checklist.entries.map fun e => e.2.node).Nodup

theorem indexed_withResults {l : IndexedCheckList} (h : Indexed l)
    (results : CheckId → SortedMap HMIPAddress HMDataCheckResult) :
    Indexed (l.withResults results) := by
  constructor
  · have hmap : (l.withResults results).checklist.entries.map CheckEntry.reference =
        l.checklist.entries.map CheckEntry.reference := by
      simp only [withResults, SortedMultimap.mapVals, List.map_map]
      rfl
    rw [hmap]
    exact h.reference
  · have hmap : (l.withResults results).checklist.entries.map (fun e => e.2.node) =
        l.checklist.entries.map fun e => e.2.node := by
      simp only [withResults, SortedMultimap.mapVals, List.map_map]
      rfl
    rw [hmap]
    exact h.nodes

theorem deref_of_mem {l : IndexedCheckList} (h : Indexed l) {e : CheckEntry}
    (he : e ∈ l.checklist.entries) : l.deref e.2.node = some e.2.params := by
  cases hf : l.checklist.entries.find? fun e' => e'.2.node = e.2.node with
  | none =>
    have hnone := List.find?_eq_none.mp hf e he
    simp at hnone
  | some e' =>
    have hnode : e'.2.node = e.2.node := by simpa using List.find?_some hf
    have hmem : e' ∈ l.checklist.entries := List.mem_of_find?_eq_some hf
    obtain rfl : e' = e := List.inj_on_of_nodup_map h.nodes hmem he hnode
    rw [deref, hf]
    rfl

/-- A remote query gets the results of the entries whose reference it cannot tell from its own. -/
theorem getCheckResultsRemoteChecks_perm {l : IndexedCheckList} (h : Indexed l)
    (hostname : HMString) (check : HMDataHostCheck) (address : HMIPAddress) :
    (l.getCheckResultsRemoteChecks hostname check address).Perm
      (l.resultsOf (fun k => eqv k.referenceKey (hostname, check)) address) := by
  have hrange : (l.checklistReference.range (hostname, check)).Perm
      ((l.checklist.entries.filter fun e => eqv e.1.referenceKey (hostname, check)).map
        fun e => e.2.node) := by
    have hperm := (h.reference.filter fun e => eqv e.1 (hostname, check)).map Prod.snd
    rw [List.filter_map, List.map_map] at hperm
    exact hperm
  refine (hrange.filterMap _).trans ?_
  rw [List.filterMap_map, resultsOf]
  have hderef : ∀ e ∈ l.checklist.entries.filter fun e => eqv e.1.referenceKey (hostname, check),
      ((fun node => (l.deref node).bind (resultAt address)) ∘ fun e : CheckEntry => e.2.node) e =
        resultAt address e.2.params := by
    intro e he
    rw [Function.comp_apply, deref_of_mem h (List.mem_filter.mp he).1]
    rfl
  rw [List.filterMap_congr hderef]

/-- The fields that the message, the index and the comparison of checks have in common. -/
def sameTarget (a b : HMDataHostCheck) : Bool :=
  a.checkType = b.checkType && a.port = b.port && a.dualstack = b.dualstack &&
    a.checkInfo = b.checkInfo && a.sourceAddress = b.sourceAddress && a.tosValue = b.tosValue

theorem sentCheck_inj {a b : HMDataHostCheck} : sentCheck a = sentCheck b ↔
    sameTarget a b = true ∧ a.dnsType = b.dnsType := by
  simp only [sentCheck, HMDataHostCheck.mk.injEq, sameTarget, Bool.and_eq_true, decide_eq_true_eq,
    true_and, and_true]
  tauto

theorem packDataHostCheck_inj {a b : HMDataHostCheck} :
    packDataHostCheck a = packDataHostCheck b ↔ sameTarget a b = true ∧ a.dnsType = b.dnsType := by
  rw [← sentCheck_inj]
  constructor
  · intro h
    have hsent := unpackDataHostCheck_packDataHostCheck a
    rw [h, unpackDataHostCheck_packDataHostCheck] at hsent
    exact (Option.some.inj hsent).symm
  · intro h
    have htarget := sentCheck_inj.mp h
    simp only [sameTarget, Bool.and_eq_true, decide_eq_true_eq] at htarget
    simp only [packDataHostCheck, htarget]

theorem packsAlike_iff {hostname : HMString} {c : HMDataHostCheck} {k : CheckListKey} :
    packsAlike hostname c k = true ↔ k.hostname = hostname ∧ sameTarget k.hostCheck c = true ∧
      k.hostCheck.dnsType = c.dnsType := by
  rw [packsAlike, Bool.and_eq_true, decide_eq_true_eq, decide_eq_true_eq, packDataHostCheck_inj]

/-- What a reference has to look like for a peer's query to find it. -/
theorem found_iff {hostname : HMString} {c : HMDataHostCheck} {k : CheckListKey} :
    eqv k.referenceKey (hostname, sentCheck c) = true ↔ k.hostname = hostname ∧
      sameTarget k.hostCheck c = true ∧
        k.hostCheck.distributedFallback = .none ∧ k.hostCheck.flowType = .dnsHealth := by
  rw [eqv_pair, Bool.and_eq_true, eqv_iff_eq, HMDataHostCheck.eqv_eq_beq, HMDataHostCheck.beq_iff]
  simp [CheckListKey.referenceKey, sentCheck, HMDataHostCheck.default, sameTarget, and_assoc]

/-- A result for the checks of one entry and for no others. -/
def resultOnlyAt (e : CheckEntry) (id : CheckId) : SortedMap HMIPAddress HMDataCheckResult :=
  if id = CheckEntry.id e then (∅ : SortedMap _ _).insert .unset (.new 0) else ∅

/-- Whether a test of the keys selects the entry is seen from a result that only it has. -/
theorem resultsOf_resultOnlyAt {l : IndexedCheckList} {e : CheckEntry}
    (he : e ∈ l.checklist.entries) (p : CheckListKey → Bool) :
    (l.withResults (resultOnlyAt e)).resultsOf p .unset = [] ↔ p e.1 = false := by
  rw [resultsOf, List.filterMap_eq_nil_iff]
  constructor
  · intro hnone
    by_contra hp
    have hfilled : resultOnlyAt e ⟨e.1, e.2.params.toCheckParameters⟩ =
        (∅ : SortedMap _ _).insert .unset (.new 0) := if_pos rfl
    have hentry := hnone _ (List.mem_filter.mpr ⟨List.mem_map_of_mem he, by simpa using hp⟩)
    simp [resultAt, HMDataCheckParams.getCheckResult, hfilled, SortedMap.get?_insert] at hentry
  · intro hp x hx
    rcases List.mem_filter.mp hx with ⟨hx, hpx⟩
    rcases List.mem_map.mp hx with ⟨e', -, rfl⟩
    have hid : CheckEntry.id e' ≠ CheckEntry.id e := by
      intro hid
      have hkey : e'.1 = e.1 := congrArg CheckId.key hid
      simp [hkey, hp] at hpx
    have hempty : resultOnlyAt e ⟨e'.1, e'.2.params.toCheckParameters⟩ = ∅ := if_neg hid
    simp [resultAt, HMDataCheckParams.getCheckResult, hempty]

/-- Two tests of the keys select the same results, whatever these are, when they agree on the
keys that are there. -/
theorem resultsOf_perm_iff (l : IndexedCheckList) (p q : CheckListKey → Bool) :
    (∀ results address, ((l.withResults results).resultsOf p address).Perm
      ((l.withResults results).resultsOf q address)) ↔
        ∀ e ∈ l.checklist.entries, p e.1 = q e.1 := by
  constructor
  · intro h e he
    have hperm := h (resultOnlyAt e) .unset
    have hnil : (l.withResults (resultOnlyAt e)).resultsOf p .unset = [] ↔
        (l.withResults (resultOnlyAt e)).resultsOf q .unset = [] :=
      ⟨fun hp => List.nil_perm.mp (hp ▸ hperm), fun hq => List.perm_nil.mp (hq ▸ hperm)⟩
    rw [resultsOf_resultOnlyAt he, resultsOf_resultOnlyAt he] at hnil
    cases hp : p e.1 <;> cases hq : q e.1 <;> simp_all
  · intro h results address
    have hfilter : ((l.withResults results).checklist.entries.filter fun e => p e.1) =
        (l.withResults results).checklist.entries.filter fun e => q e.1 := by
      apply List.filter_congr
      intro e he
      rcases List.mem_map.mp he with ⟨e', he', rfl⟩
      exact h e' he'
    rw [resultsOf, resultsOf, hfilter]

/-- A peer that sends the check of a host gets the results of all entries for the host whose
checks it could have meant, whatever results the list holds. -/
def FindsEveryMatch (groups : List HMDataHostGroup) (hostname : HMString) (c : HMDataHostCheck) :
    Prop :=
  ∃ check, unpackDataHostCheck (packDataHostCheck c) = some check ∧
    ∀ results address,
      (((ofGroups groups).withResults results).getCheckResultsRemoteChecks hostname check
        address).Perm
          (((ofGroups groups).withResults results).resultsOf (packsAlike hostname c) address)

/-- Among the checks of the host that agree with `c` on what message and index share, those with
its DNS type are those without fallback in the DNS flow. -/
def IndexTellsApart (groups : List HMDataHostGroup) (hostname : HMString) (c : HMDataHostCheck) :
    Prop :=
  ∀ g ∈ groups, hostname ∈ g.hosts → ∀ c', g.getHostCheck = some c' → sameTarget c' c = true →
    (c'.distributedFallback = .none ∧ c'.flowType = .dnsHealth ↔ c'.dnsType = c.dnsType)

/-- What is asked of the groups is asked of the entries that they make. -/
theorem indexTellsApart_iff (groups : List HMDataHostGroup) (hostname : HMString)
    (c : HMDataHostCheck) : IndexTellsApart groups hostname c ↔
      ∀ e ∈ (ofGroups groups).checklist.entries,
        eqv e.1.referenceKey (hostname, sentCheck c) = packsAlike hostname c e.1 := by
  have hkey : ∀ k : CheckListKey,
      eqv k.referenceKey (hostname, sentCheck c) = packsAlike hostname c k ↔
        (k.hostname = hostname → sameTarget k.hostCheck c = true →
          (k.hostCheck.distributedFallback = .none ∧ k.hostCheck.flowType = .dnsHealth ↔
            k.hostCheck.dnsType = c.dnsType)) := by
    intro k
    rw [Bool.eq_iff_iff, found_iff, packsAlike_iff]
    tauto
  have h := holds_ofGroups groups
  simp only [hkey]
  constructor
  · intro htells e he hhost hsame
    obtain ⟨p, hp, hid⟩ := h.origin e he
    rcases List.mem_flatMap.mp hp with ⟨g, hg, hp⟩
    rcases mem_placements.mp hp with ⟨host, hmem, c', hc', rfl⟩
    have hek : e.1 = ⟨host, c'⟩ := congrArg CheckId.key hid
    rw [hek] at hhost hsame ⊢
    subst hhost
    exact htells g hg hmem c' hc' hsame
  · intro hentries g hg hmem c' hc' hsame
    obtain ⟨e, he, hid⟩ := h.listed ⟨⟨⟨hostname, c'⟩, g.getCheckParameters⟩, g.groupName⟩
      (List.mem_flatMap.mpr ⟨g, hg, mem_placements.mpr ⟨hostname, hmem, c', hc', rfl⟩⟩)
    have hkeys : eqv e.1 ⟨hostname, c'⟩ = true := (CheckId.same_iff.mp hid).1
    rcases CheckListKey.eqv_iff_fields.mp hkeys with ⟨hhost, hbeq, hdns⟩
    obtain ⟨htype, hport, hstack, hinfo, -, hsource, htos, hfallback, hflow⟩ :=
      HMDataHostCheck.beq_iff.mp hbeq
    have htarget : sameTarget e.1.hostCheck c = sameTarget c' c := by
      simp only [sameTarget, htype, hport, hstack, hinfo, hsource, htos]
    rw [← hfallback, ← hflow, ← hdns]
    exact hentries e he hhost (htarget.trans hsame)

/-- A peer's query finds every matching check just when the fallback and the flow, which the index
keeps and the message does not carry, never stand in the way of the DNS type. -/
theorem remote_lookup_finds_every_match_iff (groups : List HMDataHostGroup) (hostname : HMString)
    (c : HMDataHostCheck) : FindsEveryMatch groups hostname c ↔
      IndexTellsApart groups hostname c := by
  have hindexed : Indexed (ofGroups groups) :=
    ⟨(holds_ofGroups groups).indexed, (holds_ofGroups groups).nodes⟩
  have hfound : ∀ results address,
      (((ofGroups groups).withResults results).getCheckResultsRemoteChecks hostname (sentCheck c)
        address).Perm (((ofGroups groups).withResults results).resultsOf
          (fun k => eqv k.referenceKey (hostname, sentCheck c)) address) :=
    fun results address =>
      getCheckResultsRemoteChecks_perm (indexed_withResults hindexed results) _ _ _
  rw [indexTellsApart_iff]
  refine Iff.trans ?_ (resultsOf_perm_iff _
    (fun k => eqv k.referenceKey (hostname, sentCheck c)) (packsAlike hostname c))
  rw [FindsEveryMatch, unpackDataHostCheck_packDataHostCheck]
  constructor
  · rintro ⟨check, hcheck, hperm⟩ results address
    obtain rfl := Option.some.inj hcheck
    exact (hfound results address).symm.trans (hperm results address)
  · intro hperm
    exact ⟨sentCheck c, rfl, fun results address =>
      (hfound results address).trans (hperm results address)⟩

/-- A check with a fallback is configured for the host, and a peer that asks for it gets nothing. -/
theorem lookup_misses_check_with_fallback :
    ¬ ∀ (groups : List HMDataHostGroup) (hostname : HMString) (c : HMDataHostCheck),
      (∃ g ∈ groups, hostname ∈ g.hosts ∧ g.getHostCheck = some c) →
        FindsEveryMatch groups hostname c := by
  intro h
  have hfinds := h
    [{ HMDataHostGroup.new (bytes "web") with
      hosts := [bytes "host"], distributedFallback := .local }] (bytes "host")
    { HMDataHostCheck.default with distributedFallback := .local }
    ⟨_, List.mem_singleton.mpr rfl, by decide, rfl⟩
  rcases hfinds with ⟨check, hcheck, hperm⟩
  obtain rfl := Option.some.inj ((unpackDataHostCheck_packDataHostCheck _).symm.trans hcheck)
  have hresults := hperm (fun _ => (∅ : SortedMap _ _).insert .unset (.new 0)) .unset
  exact absurd hresults.length_eq (by decide)

end IndexedCheckList

end NetCHASM
