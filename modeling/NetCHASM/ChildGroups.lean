import NetCHASM.LoadConfigs
import NetCHASM.Library.Decoding

/-! The hosts of child groups. The last loop of loading completes the groups in place while later
groups read them as children. No group that is read as a child has hosts added to it, so the order
of the groups does not matter. The names of the children are looked up as C strings, though: a
child whose name holds a zero byte stands for another group, or for none. -/
namespace NetCHASM

open KeyOrder OrderedMap

namespace HMState

/-- The last loop of loading, with the groups visited in the given order. -/
def completeGroups (groups : HMDataHostGroupMap) (names : List HMString) :
    Option HMDataHostGroupMap :=
  names.foldlM completeGroup groups

/-- Every child named by a group exists and has no children of its own. -/
def NamedChildrenPlain (groups : HMDataHostGroupMap) : Prop :=
  ∀ e ∈ groups.entries, ∀ child ∈ e.2.hostGroups,
    ∃ c, groups.get? child = some c ∧ c.hostGroups = []

instance (groups : HMDataHostGroupMap) : Decidable (NamedChildrenPlain groups) :=
  inferInstanceAs (Decidable (∀ e ∈ groups.entries, ∀ child ∈ e.2.hostGroups,
    ∃ c ∈ groups.get? child, c.hostGroups = []))

/-- The hosts of the groups that a group names as its children. -/
def namedChildHosts (groups : HMDataHostGroupMap) (g : HMDataHostGroup) : List HMString :=
  g.hostGroups.flatMap fun child => ((groups.get? child).map fun c => c.hosts).getD []

/-- What loading has to make of the hosts of a group. -/
structure HostsExpanded (groups : HMDataHostGroupMap) (g g' : HMDataHostGroup) : Prop where
  nodup : g'.hosts.Nodup
  own : g.hosts <+: g'.hosts
  members : ∀ host, host ∈ g'.hosts ↔ host ∈ g.hosts ∨ host ∈ namedChildHosts groups g
  childless : g.hostGroups = [] → g'.hosts = g.hosts

/-- What loading has to make of the child groups. -/
structure ExpandsChildren (groups : HMDataHostGroupMap) : Prop where
  succeeds : (completeGroups groups groups.keys).isSome ↔ NamedChildrenPlain groups
  expanded : ∀ after, completeGroups groups groups.keys = some after →
    after.keys = groups.keys ∧ ∀ name g g', groups.get? name = some g →
      after.get? name = some g' → HostsExpanded groups g g'
  order : ∀ names, names.Perm groups.keys →
    completeGroups groups names = completeGroups groups groups.keys

/-- Cutting the names of the children at their first zero byte changes neither whether all of them
stand for groups without children, nor the hosts that they then add to a group. -/
def CutNamesAgree (groups : HMDataHostGroupMap) : Prop :=
  (ChildrenPlain groups ↔ NamedChildrenPlain groups) ∧
    (ChildrenPlain groups → ∀ e ∈ groups.entries, ∀ host, host ∉ e.2.hosts →
      (host ∈ childHosts groups e.2 ↔ host ∈ namedChildHosts groups e.2))

section Shape

variable {groups m m' : HMDataHostGroupMap} {name : HMString}

/-- Completing groups changes neither which groups there are nor their children. -/
def SameShape (groups m : HMDataHostGroupMap) : Prop :=
  ∀ name, (m.get? name).map (fun g => g.hostGroups) =
    (groups.get? name).map fun g => g.hostGroups

/-- A child that is looked up exists and has no children in every map of the same shape. -/
theorem SameShape.plain_iff (h : SameShape groups m) (child : HMString) :
    (∃ c, m.get? child = some c ∧ c.hostGroups = []) ↔
      ∃ c, groups.get? child = some c ∧ c.hostGroups = [] := by
  have hshape : ∀ m : HMDataHostGroupMap,
      (∃ c, m.get? child = some c ∧ c.hostGroups = []) ↔
        (m.get? child).map (fun g => g.hostGroups) = some [] := by
    intro m
    rw [Option.map_eq_some_iff]
  rw [hshape m, hshape groups, h child]

/-- When the children of a group are added, they exist, have no children, and stay as they are. -/
theorem addChildHosts_succeeds {children : List HMString} {g g' : HMDataHostGroup}
    (h : children.foldlM (addChildHosts m) g = some g') : g'.hostGroups = g.hostGroups ∧
      ∀ child ∈ children, ∃ c, m.get? (cStr child) = some c ∧ c.hostGroups = [] := by
  induction children generalizing g with
  | nil =>
    obtain rfl : g = g' := Option.some.inj h
    exact ⟨rfl, fun child hchild => absurd hchild List.not_mem_nil⟩
  | cons child children ih =>
    rw [List.foldlM_cons, Option.bind_eq_bind, Option.bind_eq_some_iff] at h
    rcases h with ⟨g₁, hadd, hrest⟩
    rw [addChildHosts] at hadd
    split at hadd
    · exact absurd hadd (by simp)
    next c hc =>
      split at hadd
      next hempty =>
        obtain rfl := Option.some.inj hadd
        obtain ⟨hgroups, hchildren⟩ := ih hrest
        refine ⟨by rw [hgroups, HMDataHostGroup.foldl_addHost], ?_⟩
        intro child' hchild'
        rcases List.mem_cons.mp hchild' with rfl | hchild'
        · exact ⟨c, hc, hempty⟩
        · exact hchildren child' hchild'
      · exact absurd hadd (by simp)

/-- A completed group had plain children, and the shape is kept. -/
theorem completeGroup_succeeds (h : completeGroup m name = some m') : SameShape m m' ∧
    ∀ g, m.get? name = some g → ∀ child ∈ g.hostGroups,
      ∃ c, m.get? (cStr child) = some c ∧ c.hostGroups = [] := by
  rw [completeGroup] at h
  split at h
  next hnone =>
    obtain rfl := Option.some.inj h
    exact ⟨fun name => rfl, fun g hg => absurd (hnone.symm.trans hg) (by simp)⟩
  next g hg =>
    rcases Option.map_eq_some_iff.mp h with ⟨g', hadd, rfl⟩
    obtain ⟨hgroups, hchildren⟩ := addChildHosts_succeeds hadd
    constructor
    · intro other
      rw [SortedMap.get?_set]
      by_cases hother : eqv name other = true
      · rw [if_pos hother, ← eqv_iff_eq.mp hother, hg]
        simp [hgroups, setDefaultPort_hostGroups]
      · rw [if_neg hother]
    · intro g₀ hg₀
      obtain rfl : g = g₀ := Option.some.inj (hg.symm.trans hg₀)
      exact hchildren

/-- Every group that was visited by a loop that succeeds has plain children. -/
theorem completeGroups_succeeds {names : List HMString} (hshape : SameShape groups m)
    (h : completeGroups m names = some m') : SameShape groups m' ∧
      ∀ name ∈ names, ∀ g, groups.get? name = some g → ∀ child ∈ g.hostGroups,
        ∃ c, groups.get? (cStr child) = some c ∧ c.hostGroups = [] := by
  induction names generalizing m with
  | nil =>
    obtain rfl : m = m' := Option.some.inj h
    exact ⟨hshape, fun name hname => absurd hname List.not_mem_nil⟩
  | cons name names ih =>
    rw [completeGroups, List.foldlM_cons, Option.bind_eq_bind, Option.bind_eq_some_iff] at h
    rcases h with ⟨m₁, hstep, hrest⟩
    obtain ⟨hkept, hhead⟩ := completeGroup_succeeds hstep
    obtain ⟨hlast, htail⟩ := ih (fun other => (hkept other).trans (hshape other)) hrest
    refine ⟨hlast, ?_⟩
    intro name' hname' g hg child hchild
    rcases List.mem_cons.mp hname' with rfl | hname'
    · -- the group may have been completed before, but its children are the configured ones
      have hgroups := hshape name'
      rw [hg, Option.map_some, Option.map_eq_some_iff] at hgroups
      rcases hgroups with ⟨g₁, hg₁, hsame⟩
      rw [← hshape.plain_iff]
      exact hhead g₁ hg₁ child (hsame ▸ hchild)
    · exact htail name' hname' g hg child hchild

end Shape

section Expansion

variable {groups : HMDataHostGroupMap} {names : List HMString}

/-- The loop completes every group when the children are plain, and fails otherwise. -/
theorem completeGroups_eq (hperm : names.Perm groups.keys) :
    completeGroups groups names =
      if ChildrenPlain groups then some (groups.mapVals fun _ g => completed groups g)
      else none := by
  split
  next hplain =>
    have hnone : completedUpTo groups [] = groups := SortedMap.ext (List.map_id groups.entries)
    have hnodup : ([] ++ names).Nodup := hperm.nodup_iff.mpr groups.keys_nodup
    have hrun := foldlM_completeGroup hplain hnodup fun name hname => hperm.subset hname
    rw [hnone, List.nil_append,
      completedUpTo_keys fun name hname => hperm.symm.subset hname] at hrun
    exact hrun
  next hplain =>
    rw [← Option.not_isSome_iff_eq_none]
    intro hsome
    rcases Option.isSome_iff_exists.mp hsome with ⟨after, hafter⟩
    obtain ⟨-, hchildren⟩ := completeGroups_succeeds (fun name => rfl) hafter
    apply hplain
    intro e he
    exact hchildren e.1 (hperm.symm.subset (List.mem_map_of_mem he)) e.2
      (SortedMap.get?_of_mem he)

theorem isSome_completeGroups_iff (hperm : names.Perm groups.keys) :
    (completeGroups groups names).isSome ↔ ChildrenPlain groups := by
  rw [completeGroups_eq hperm]
  split <;> simp [*]

theorem mem_completed {g : HMDataHostGroup} {host : HMString} :
    host ∈ (completed groups g).hosts ↔ host ∈ g.hosts ∨ host ∈ childHosts groups g :=
  HMDataHostGroup.mem_foldl_appendNew

theorem get?_completed (groups : HMDataHostGroupMap) (name : HMString) :
    (groups.mapVals fun _ g => completed groups g).get? name =
      (groups.get? name).map (completed groups) := by
  rw [SortedMap.get?_mapVals, SortedMap.get?, Option.map_map]
  rfl

/-- A completed group has its own hosts first, then those of its children, each of them once. -/
theorem hostsExpanded_completed_iff {g : HMDataHostGroup} (hnodup : g.hosts.Nodup) :
    HostsExpanded groups g (completed groups g) ↔
      ∀ host, host ∉ g.hosts → (host ∈ childHosts groups g ↔ host ∈ namedChildHosts groups g) := by
  constructor
  · intro h host hnew
    have hmembers := h.members host
    rw [mem_completed] at hmembers
    simpa [hnew] using hmembers
  · intro h
    refine ⟨HMDataHostGroup.nodup_foldl_appendNew hnodup,
      HMDataHostGroup.prefix_foldl_appendNew g.hosts (childHosts groups g), ?_, ?_⟩
    · intro host
      rw [mem_completed]
      by_cases hown : host ∈ g.hosts
      · simp [hown]
      · simp [hown, h host hown]
    · intro hempty
      rw [completed, childHosts, hempty]
      rfl

/-- Names without a zero byte are looked up as they are. -/
theorem cutNamesAgree_of_noZero
    (h : ∀ e ∈ groups.entries, ∀ child ∈ e.2.hostGroups, 0 ∉ child) : CutNamesAgree groups := by
  have hcut : ∀ e ∈ groups.entries, ∀ child ∈ e.2.hostGroups, cStr child = child := by
    intro e he child hchild
    exact (Decoding.takeWhile_eq_self_iff child).mpr (h e he child hchild)
  constructor
  · constructor <;> intro hplain e he child hchild
    · rw [← hcut e he child hchild]
      exact hplain e he child hchild
    · rw [hcut e he child hchild]
      exact hplain e he child hchild
  · intro _ e he host _
    have hhosts : childHosts groups e.2 = namedChildHosts groups e.2 := by
      apply List.flatMap_congr
      intro child hchild
      rw [hcut e he child hchild]
    rw [hhosts]

/-- The children add what they are configured to add exactly when their names, cut at a zero byte,
stand for the same. -/
theorem expandsChildren_iff (hnodup : ∀ e ∈ groups.entries, e.2.hosts.Nodup) :
    ExpandsChildren groups ↔ CutNamesAgree groups := by
  have hsucceeds := isSome_completeGroups_iff (List.Perm.refl groups.keys)
  constructor
  · intro h
    refine ⟨hsucceeds.symm.trans h.succeeds, ?_⟩
    intro hplain e he
    have hafter := completeGroups_eq (List.Perm.refl groups.keys)
    rw [if_pos hplain] at hafter
    have hget := SortedMap.get?_of_mem he
    rw [← hostsExpanded_completed_iff (hnodup e he)]
    refine (h.expanded _ hafter).2 e.1 e.2 _ hget ?_
    rw [get?_completed, hget, Option.map_some]
  · rintro ⟨hsame, hhosts⟩
    refine ⟨hsucceeds.trans hsame, ?_, ?_⟩
    · intro after hafter
      rw [completeGroups_eq (List.Perm.refl groups.keys)] at hafter
      split at hafter
      next hplain =>
        obtain rfl := Option.some.inj hafter
        refine ⟨by simp [SortedMap.keys, SortedMap.mapVals, Function.comp_def], ?_⟩
        intro name g g' hg hg'
        have he := SortedMap.mem_of_get? hg
        rw [get?_completed, hg, Option.map_some] at hg'
        obtain rfl := Option.some.inj hg'
        exact (hostsExpanded_completed_iff (hnodup (name, g) he)).mpr (hhosts hplain (name, g) he)
      · exact absurd hafter (by simp)
    · intro names hperm
      rw [completeGroups_eq hperm, completeGroups_eq (List.Perm.refl groups.keys)]

end Expansion

/-- A group with one child and a host of its own. -/
def parentOf (child : HMString) : HMDataHostGroupMap :=
  ((∅ : HMDataHostGroupMap).set child
    { HMDataHostGroup.new child with hosts := [bytes "a", bytes "b"] }).set (bytes "top")
    { HMDataHostGroup.new (bytes "top") with hosts := [bytes "b"], hostGroups := [child] }

theorem parentOf_web_expands : ExpandsChildren (parentOf (bytes "web")) :=
  (expandsChildren_iff (by decide)).mpr (cutNamesAgree_of_noZero (by decide))

/-- The child exists, but loading looks for a group with a shorter name. -/
theorem zero_byte_child_not_found :
    (∀ e ∈ (parentOf [119, 0, 98]).entries, e.2.hosts.Nodup) ∧
      ¬ ExpandsChildren (parentOf [119, 0, 98]) := by
  refine ⟨by decide, ?_⟩
  intro h
  have hsome : (completeGroups (parentOf [119, 0, 98]) (parentOf [119, 0, 98]).keys).isSome :=
    h.succeeds.mpr (by decide)
  exact absurd hsome (by decide)

end HMState

end NetCHASM
