import NetCHASM.HealthRuns
import NetCHASM.StorageHostGroup
import NetCHASM.Library.MergeDifference

/-! What a reload does about the hosts of a group. The hosts that were added are checked at once,
and a group with other hosts is written to the backend again. Both differences are computed by a
merge, but the lists of hosts are kept in the order of the configuration. -/
namespace NetCHASM

open KeyOrder OrderedMap

namespace HMState

/-- The checks and parameters of a group before and after a reload compare equal. -/
def checkedAlike (o g : HMDataHostGroup) : Bool :=
  (o.getHostCheck.getD .default).beq (g.getHostCheck.getD .default) &&
    decide (o.getCheckParameters = g.getCheckParameters)

/-- The addresses at which a host of a group is checked. -/
def resolvedAddresses (s : HMState) (g : HMDataHostGroup) (host : HMString) :
    List HMIPAddress :=
  let check := g.getHostCheck.getD .default
  (s.dnsCache.getAddresses host check.dualstack
    (.new check.dnsType false check.remoteCheck)).toList

/-- The checks that a reload queues for one group. -/
def checksToQueue (s src : HMState) (e : HMString × HMDataHostGroup) :
    List (HMString × HMIPAddress × HMDataHostCheck) :=
  (hostsToReschedule e.2 (src.hostGroups.get? e.1)).flatMap fun host =>
    (s.resolvedAddresses e.2 host).map fun address =>
      (host, address, e.2.getHostCheck.getD .default)

/-- A reload queues the checks of one group after the other. -/
theorem resheduleHealthChecks_eq (s src : HMState) : s.resheduleHealthChecks src =
    let r := (s.hostGroups.entries.flatMap (s.checksToQueue src)).foldl (fun acc c =>
      let r := acc.1.queueCheck c.1 c.2.1 c.2.2
      (r.1, acc.2 ++ r.2)) (s.checkList, [])
    ({ s with checkList := r.1 }, r.2) := rfl

/-- The hosts in which the versions of a group differ; the second part is inserted at the front. -/
def hostDiff (o g : HMDataHostGroup) : List HMString :=
  setDifference g.hosts o.hosts ++ setDifference o.hosts g.hosts

/-- An old group is written again if it is gone or has changed. -/
def backendChanged (s : HMState) (e : HMString × HMDataHostGroup) : Bool :=
  match s.hostGroups.get? e.1 with
  | none => true
  | some g => decide (e.2.passthroughInfo ≠ g.passthroughInfo) || decide (hostDiff e.2 g ≠ [])

/-- The groups that the store is asked to write again after a reload. -/
def updateBackend (s src : HMState) : SortedSet HMString :=
  src.hostGroups.entries.foldl (fun mHosts e =>
    if s.backendChanged e then mHosts.insert e.1 () else mHosts) ∅

end HMState

namespace HMStorageHostGroup

/-- Write a group that has cached results, and remove one that has none. -/
def updateHostGroup (s : HMStorageHostGroup) (group : HMString) : HMStorageHostGroup :=
  if s.hostGroupResults.range group ≠ [] then s.storeHostGroupCheckResults group
  else s.removeHostGroupCheckResults group

def updateHostGroups (s : HMStorageHostGroup) (hostGroups : SortedSet HMString) :
    HMStorageHostGroup :=
  hostGroups.toList.foldl updateHostGroup s

/-- Writing a group leaves the records of the others alone. -/
theorem checks_updateHostGroup (s : HMStorageHostGroup) {group name : HMString}
    (h : name ≠ group) :
    (s.updateHostGroup group).backend.checks.get? name = s.backend.checks.get? name := by
  have hne : eqv group name = false := eqv_of_ne h.symm
  rw [updateHostGroup]
  split
  · rw [storeHostGroupCheckResults]
    split
    · rfl
    · split
      · rfl
      · simp [SortedMap.get?_set, hne]
  · rw [removeHostGroupCheckResults]
    split
    · rfl
    · simp [SortedMap.get?_erase, hne]

/-- Only the groups that the store is asked for are written. -/
theorem checks_updateHostGroups (s : HMStorageHostGroup) {hostGroups : SortedSet HMString}
    {name : HMString} (h : name ∉ hostGroups.toList) :
    (s.updateHostGroups hostGroups).backend.checks.get? name = s.backend.checks.get? name := by
  rw [updateHostGroups]
  refine List.foldlRecOn (motive := fun s' : HMStorageHostGroup =>
    s'.backend.checks.get? name = s.backend.checks.get? name) _ _ rfl ?_
  intro s' hs' group hgroup
  have hne : name ≠ group := by
    rintro rfl
    exact h hgroup
  rw [checks_updateHostGroup s' hne, hs']

end HMStorageHostGroup

end NetCHASM

namespace ReloadDiff

open NetCHASM KeyOrder OrderedMap HMState MergeDifference HealthRuns

/-- The reload works with the merge. -/
theorem setDifference_eq (xs ys : List HMString) :
    setDifference xs ys = mergeDifference xs ys := by
  induction xs generalizing ys with
  | nil => rfl
  | cons x xs ih =>
    have hdrop : (ys.dropWhile fun y => decide (y < x)) =
        ys.dropWhile fun y => Ordered.lt y x := rfl
    rw [setDifference, mergeDifference, hdrop]
    cases ys.dropWhile fun y => Ordered.lt y x with
    | nil => simp [ih]
    | cons y ys =>
      have hlt : (x < y) ↔ Ordered.lt x y = true := decide_eq_true_iff.symm
      simp [ih, hlt]

/-- What a reload has to do for the groups before and after it: it checks the added hosts of a group
that is checked as before, it writes the groups that are gone or have changed, and another order of
the hosts makes no difference. -/
structure UsesDifference (new old : HMDataHostGroupMap) : Prop where
  queued : ∀ s src : HMState, s.hostGroups = new → src.hostGroups = old →
    ∀ e ∈ new.entries, ∀ o, old.get? e.1 = some o → checkedAlike o e.2 = true →
      ∀ host address check, (host, address, check) ∈ s.checksToQueue src e ↔
        (host ∈ e.2.hosts ∧ host ∉ o.hosts) ∧ address ∈ s.resolvedAddresses e.2 host ∧
          check = e.2.getHostCheck.getD .default
  updated : ∀ s src : HMState, s.hostGroups = new → src.hostGroups = old →
    ∀ name, name ∈ (s.updateBackend src).toList ↔ ∃ o, old.get? name = some o ∧
      ∀ g, new.get? name = some g → o.passthroughInfo ≠ g.passthroughInfo ∨
        ¬ ∀ host, host ∈ o.hosts ↔ host ∈ g.hosts
  reordered : ∀ s src : HMState, s.hostGroups = new → src.hostGroups = old →
    ∀ name o g, old.get? name = some o → new.get? name = some g → checkedAlike o g = true →
      o.hosts.Perm g.hosts →
        s.checksToQueue src (name, g) = [] ∧ name ∉ (s.updateBackend src).toList

/-- The merges meet what the lists share. In a group that is checked as before, the shared hosts come
in the same order in the old and the new list, and whatever stands between two of them in either
list is smaller than the later one; a group that keeps its hosts keeps their order, too. A group
whose check uses no address family is never checked. -/
structure MergesMeet (new old : HMDataHostGroupMap) : Prop where
  aligned : ∀ e ∈ new.entries, ∀ o, old.get? e.1 = some o → checkedAlike o e.2 = true →
    (e.2.getHostCheck.getD .default).dualstack ≠ .undefined →
      Aligned (· ∈ o.hosts) e.2.hosts o.hosts
  inOrder : ∀ e ∈ old.entries, ∀ g, new.get? e.1 = some g →
    e.2.passthroughInfo = g.passthroughInfo → (∀ host, host ∈ e.2.hosts ↔ host ∈ g.hosts) →
      e.2.hosts = g.hosts

section Diff

variable {s src : HMState} {new old : HMDataHostGroupMap}

theorem mem_updateBackend {name : HMString} : name ∈ (s.updateBackend src).toList ↔
    ∃ o, src.hostGroups.get? name = some o ∧ s.backendChanged (name, o) = true := by
  have hfold : ∀ (es : List (HMString × HMDataHostGroup)) (acc : SortedSet HMString),
      name ∈ (es.foldl (fun mHosts e =>
        if s.backendChanged e then mHosts.insert e.1 () else mHosts) acc).toList ↔
      name ∈ acc.toList ∨ ∃ e ∈ es, e.1 = name ∧ s.backendChanged e = true := by
    intro es
    induction es with
    | nil => simp
    | cons e es ih =>
      intro acc
      rw [List.foldl_cons, ih, List.exists_mem_cons_iff, ← or_assoc]
      by_cases hchanged : s.backendChanged e = true
      · simp [hchanged, ← SortedSet.contains_iff_mem, SortedMap.contains_insert, eqv_iff_eq,
          or_comm]
      · simp [hchanged]
  rw [updateBackend, hfold]
  constructor
  · rintro (hmem | ⟨e, he, rfl, hchanged⟩)
    · exact absurd hmem (by rw [← SortedSet.contains_iff_mem]; simp [SortedMap.contains])
    · exact ⟨e.2, SortedMap.get?_of_mem he, hchanged⟩
  · rintro ⟨o, ho, hchanged⟩
    exact Or.inr ⟨(name, o), SortedMap.mem_of_get? ho, rfl, hchanged⟩

/-- The lists of hosts have no difference only if they are the same list. -/
theorem hostDiff_eq_nil_iff {o g : HMDataHostGroup} : hostDiff o g = [] ↔ o.hosts = g.hosts := by
  rw [hostDiff, List.append_eq_nil_iff, setDifference_eq, setDifference_eq, and_comm,
    mergeDifference_eq_nil_iff]

/-- A group is written again unless it is still there with the same list of hosts. -/
theorem backendChanged_iff {e : HMString × HMDataHostGroup} : s.backendChanged e = true ↔
    ∀ g, s.hostGroups.get? e.1 = some g →
      e.2.passthroughInfo ≠ g.passthroughInfo ∨ e.2.hosts ≠ g.hosts := by
  rw [backendChanged]
  cases s.hostGroups.get? e.1 with
  | none => simp
  | some g => simp [hostDiff_eq_nil_iff]

theorem mem_checksToQueue {e : HMString × HMDataHostGroup} {host : HMString}
    {address : HMIPAddress} {check : HMDataHostCheck} :
    (host, address, check) ∈ s.checksToQueue src e ↔
      host ∈ hostsToReschedule e.2 (src.hostGroups.get? e.1) ∧
        address ∈ s.resolvedAddresses e.2 host ∧ check = e.2.getHostCheck.getD .default := by
  rw [checksToQueue, List.mem_flatMap]
  constructor
  · rintro ⟨host', hhost, hmem⟩
    rcases List.mem_map.mp hmem with ⟨address', haddress, heq⟩
    obtain ⟨rfl, rfl, rfl⟩ : host' = host ∧ address' = address ∧ _ = check := by simpa using heq
    exact ⟨hhost, haddress, rfl⟩
  · rintro ⟨hhost, haddress, rfl⟩
    exact ⟨host, hhost, List.mem_map.mpr ⟨address, haddress, rfl⟩⟩

theorem passthroughInfo_of_alike {o g : HMDataHostGroup} (h : checkedAlike o g = true) :
    o.passthroughInfo = g.passthroughInfo := by
  rw [checkedAlike, Bool.and_eq_true, decide_eq_true_iff] at h
  have hinfo := congrArg (fun p : CheckParameters => p.passthroughInfo) h.2
  exact hinfo

theorem hostsToReschedule_of_alike {o g : HMDataHostGroup} (h : checkedAlike o g = true) :
    hostsToReschedule g (some o) = setDifference g.hosts o.hosts := by
  rw [hostsToReschedule]
  exact if_pos h

/-- Some state with the given groups has an address for a host. -/
theorem exists_resolved (new : HMDataHostGroupMap) {g : HMDataHostGroup}
    (hused : (g.getHostCheck.getD .default).dualstack ≠ .undefined) (host : HMString) :
    ∃ s : HMState, s.hostGroups = new ∧ .unset ∈ s.resolvedAddresses g host := by
  let check := g.getHostCheck.getD .default
  obtain ⟨ipv6, hipv6⟩ : ∃ ipv6, ipv6 ∈ check.dualstack.families := by
    cases hdual : check.dualstack with
    | undefined => exact absurd hdual hused
    | ipv4Only => exact ⟨false, by decide⟩
    | ipv6Only => exact ⟨true, by decide⟩
    | both => exact ⟨true, by decide⟩
  let result : HMDNSResult := { HMDNSResult.new 0 0 with addr := SortedMap.insert ∅ .unset () }
  let cache : HMDNSCache :=
    ⟨SortedMap.insert ∅ (host, .new check.dnsType ipv6 check.remoteCheck) result, ∅⟩
  refine ⟨{ generateCheckList .default ∅ with hostGroups := new, dnsCache := cache }, rfl, ?_⟩
  rw [resolvedAddresses, mem_getAddresses]
  refine ⟨ipv6, hipv6, result, ?_, by decide⟩
  rw [SortedMap.get?_insert]
  simp [check]

theorem resolvedAddresses_of_unused {g : HMDataHostGroup}
    (h : (g.getHostCheck.getD .default).dualstack = .undefined) (host : HMString) :
    s.resolvedAddresses g host = [] := by
  rw [resolvedAddresses, h]
  rfl

/-- Where the merge meets the shared hosts, the added hosts of a group are queued, and no others. -/
theorem mem_checksToQueue_of_aligned {e : HMString × HMDataHostGroup} {o : HMDataHostGroup}
    (ho : src.hostGroups.get? e.1 = some o) (halike : checkedAlike o e.2 = true)
    (haligned : (e.2.getHostCheck.getD .default).dualstack ≠ .undefined →
      Aligned (· ∈ o.hosts) e.2.hosts o.hosts)
    (host : HMString) (address : HMIPAddress) (check : HMDataHostCheck) :
    (host, address, check) ∈ s.checksToQueue src e ↔
      (host ∈ e.2.hosts ∧ host ∉ o.hosts) ∧ address ∈ s.resolvedAddresses e.2 host ∧
        check = e.2.getHostCheck.getD .default := by
  rw [mem_checksToQueue, ho, hostsToReschedule_of_alike halike, setDifference_eq]
  apply and_congr_left
  rintro ⟨haddress, -⟩
  constructor
  · intro hmem
    have hused : (e.2.getHostCheck.getD .default).dualstack ≠ .undefined := by
      intro hunused
      rw [resolvedAddresses_of_unused hunused] at haddress
      exact absurd haddress List.not_mem_nil
    have hexact := (mergeDifference_exact_iff fun _ hy => hy).mpr (haligned hused)
    exact ⟨(mergeDifference_sublist _ _).subset hmem, hexact host hmem⟩
  · rintro ⟨hnew, hold⟩
    exact mem_mergeDifference_of_not_mem hnew hold

/-- Where a group that keeps its hosts keeps their order, too, the groups that have changed are
written, and no others. -/
theorem mem_updateBackend_of_inOrder
    (hinOrder : ∀ e ∈ src.hostGroups.entries, ∀ g, s.hostGroups.get? e.1 = some g →
      e.2.passthroughInfo = g.passthroughInfo → (∀ host, host ∈ e.2.hosts ↔ host ∈ g.hosts) →
        e.2.hosts = g.hosts) (name : HMString) :
    name ∈ (s.updateBackend src).toList ↔ ∃ o, src.hostGroups.get? name = some o ∧
      ∀ g, s.hostGroups.get? name = some g → o.passthroughInfo ≠ g.passthroughInfo ∨
        ¬ ∀ host, host ∈ o.hosts ↔ host ∈ g.hosts := by
  rw [mem_updateBackend]
  refine exists_congr fun o => and_congr_right fun ho => ?_
  rw [backendChanged_iff]
  refine forall₂_congr fun g hg => or_congr_right' fun hinfo => not_congr ?_
  constructor
  · intro hsame host
    rw [hsame]
  · exact hinOrder (name, o) (SortedMap.mem_of_get? ho) g hg (not_not.mp hinfo)

theorem usesDifference_of_mergesMeet (h : MergesMeet new old) : UsesDifference new old := by
  have hqueued : ∀ s src : HMState, s.hostGroups = new → src.hostGroups = old →
      ∀ e ∈ new.entries, ∀ o, old.get? e.1 = some o → checkedAlike o e.2 = true →
        ∀ host address check, (host, address, check) ∈ s.checksToQueue src e ↔
          (host ∈ e.2.hosts ∧ host ∉ o.hosts) ∧ address ∈ s.resolvedAddresses e.2 host ∧
            check = e.2.getHostCheck.getD .default := by
    rintro s src rfl rfl e he o ho halike
    exact mem_checksToQueue_of_aligned ho halike (h.aligned e he o ho halike)
  have hupdated : ∀ s src : HMState, s.hostGroups = new → src.hostGroups = old →
      ∀ name, name ∈ (s.updateBackend src).toList ↔ ∃ o, old.get? name = some o ∧
        ∀ g, new.get? name = some g → o.passthroughInfo ≠ g.passthroughInfo ∨
          ¬ ∀ host, host ∈ o.hosts ↔ host ∈ g.hosts := by
    rintro s src rfl rfl
    exact mem_updateBackend_of_inOrder h.inOrder
  refine ⟨hqueued, hupdated, ?_⟩
  intro s src hs hsrc name o g ho hg halike hperm
  constructor
  · rw [List.eq_nil_iff_forall_not_mem]
    rintro ⟨host, address, check⟩ hmem
    have he := SortedMap.mem_of_get? hg
    obtain ⟨⟨hnew, hold⟩, -⟩ :=
      (hqueued s src hs hsrc (name, g) he o ho halike host address check).mp hmem
    exact hold (hperm.mem_iff.mpr hnew)
  · rw [hupdated s src hs hsrc name]
    rintro ⟨o', ho', hchanged⟩
    obtain rfl := Option.some.inj (ho.symm.trans ho')
    rcases hchanged g hg with hinfo | hhosts
    · exact hinfo (passthroughInfo_of_alike halike)
    · exact hhosts fun host => hperm.mem_iff

/-- A reload uses the differences of the sets of hosts exactly when the merges meet what the lists
share. -/
theorem usesDifference_iff : UsesDifference new old ↔ MergesMeet new old := by
  refine ⟨?_, usesDifference_of_mergesMeet⟩
  intro h
  constructor
  · intro e he o ho halike hused
    rw [← mergeDifference_exact_iff fun _ hy => hy]
    intro host hmem hheld
    obtain ⟨s, hs, haddress⟩ := exists_resolved new hused host
    have hqueued := h.queued s { s with hostGroups := old } hs rfl e he o ho halike host .unset
      (e.2.getHostCheck.getD .default)
    rw [mem_checksToQueue, ho, hostsToReschedule_of_alike halike, setDifference_eq] at hqueued
    exact (hqueued.mp ⟨hmem, haddress, rfl⟩).1.2 hheld
  · intro e he g hg hinfo hsame
    let s : HMState := { generateCheckList .default ∅ with hostGroups := new }
    have hget := SortedMap.get?_of_mem he
    have hupdated := h.updated s { s with hostGroups := old } rfl rfl e.1
    have hkept : e.1 ∉ (s.updateBackend { s with hostGroups := old }).toList := by
      rw [hupdated]
      rintro ⟨o, ho, hchanged⟩
      obtain rfl := Option.some.inj (hget.symm.trans ho)
      rcases hchanged g hg with hdiffer | hdiffer
      · exact hdiffer hinfo
      · exact hdiffer hsame
    rw [mem_updateBackend] at hkept
    by_contra hhosts
    refine hkept ⟨e.2, hget, backendChanged_iff.mpr ?_⟩
    intro g' hg'
    obtain rfl := Option.some.inj (hg.symm.trans hg')
    exact Or.inr hhosts

/-- Sorted lists with the same elements are the same. -/
theorem hosts_eq_of_sorted {xs ys : List HMString}
    (hxs : xs.Pairwise fun a b => Ordered.lt a b = true)
    (hys : ys.Pairwise fun a b => Ordered.lt a b = true) (h : ∀ host, host ∈ xs ↔ host ∈ ys) :
    xs = ys := by
  rw [← mergeDifference_eq_nil_iff]
  constructor <;> rw [List.eq_nil_iff_forall_not_mem] <;> intro host hmem
  · exact not_mem_of_mem_mergeDifference hxs hys hmem
      ((h host).mp ((mergeDifference_sublist _ _).subset hmem))
  · exact not_mem_of_mem_mergeDifference hys hxs hmem
      ((h host).mpr ((mergeDifference_sublist _ _).subset hmem))

/-- Groups that keep their hosts sorted are reloaded by the differences. -/
theorem mergesMeet_of_sorted
    (hnew : ∀ e ∈ new.entries, e.2.hosts.Pairwise fun a b => Ordered.lt a b = true)
    (hold : ∀ e ∈ old.entries, e.2.hosts.Pairwise fun a b => Ordered.lt a b = true) :
    MergesMeet new old := by
  constructor
  · intro e he o ho _ _
    exact aligned_of_sorted (hnew e he) (hold (e.1, o) (SortedMap.mem_of_get? ho))
  · intro e he g hg _ hsame
    have hg' := hnew (e.1, g) (SortedMap.mem_of_get? hg)
    exact hosts_eq_of_sorted (hold e he) hg' hsame

end Diff

/-- One group with the given hosts. -/
def webHosts (hosts : List HMString) : HMDataHostGroupMap :=
  (∅ : HMDataHostGroupMap).set (bytes "web")
    { HMDataHostGroup.new (bytes "web") with hosts := hosts }

/-- The two hosts of a group change places: one of them is checked again, and the group is written
again. -/
theorem reordered_hosts_differ :
    ¬ UsesDifference (webHosts [bytes "b", bytes "a"]) (webHosts [bytes "a", bytes "b"]) := by
  intro h
  have hkept := h.reordered
    { generateCheckList .default ∅ with hostGroups := webHosts [bytes "b", bytes "a"] }
    { generateCheckList .default ∅ with hostGroups := webHosts [bytes "a", bytes "b"] } rfl rfl
    (bytes "web") { HMDataHostGroup.new (bytes "web") with hosts := [bytes "a", bytes "b"] }
    { HMDataHostGroup.new (bytes "web") with hosts := [bytes "b", bytes "a"] }
    (by decide) (by decide) (by decide) (by decide)
  exact hkept.2 (by decide)

example : hostsToReschedule { HMDataHostGroup.new (bytes "web") with hosts := [bytes "b", bytes "a"] }
    (some { HMDataHostGroup.new (bytes "web") with hosts := [bytes "a", bytes "b"] }) =
      [bytes "a"] := by decide

end ReloadDiff
