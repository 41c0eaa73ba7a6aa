import NetCHASM.CheckListIndex
import NetCHASM.State
import Mathlib.Data.List.Infix

/-! Loading the configuration of the host groups. What the parsers read, or what the backend has
stored, is completed here: remote checks and indirect hosts are resolved, default ports are set,
and the hosts of child groups are added. -/
namespace NetCHASM

open KeyOrder OrderedMap

/-- What the configuration files say outside of the host groups. -/
structure HMConfigParams where
  masterMode : Bool
  remoteChecks : SortedMap HMString HMString
  indirectHost : SortedMap HMString HMString
  deriving DecidableEq, Repr

def HMConfigParams.default : HMConfigParams := ⟨false, ∅, ∅⟩

/-- The port that a check type is given when none is configured. -/
def CheckType.defaultPort : CheckType → Option UInt16
  | .none | .invalid => Option.none
  | .default | .http | .auxHttp | .markHttp => some 80
  | .https | .httpsNoPeerCheck | .auxHttps | .auxHttpsNoPeerCheck | .mtlsHttps
  | .mtlsHttpsNoPeerCheck | .auxMtlsHttps | .auxMtlsHttpsNoPeerCheck | .markHttps
  | .markHttpsNoPeerCheck => some 443
  | .tcp | .tcps => some 80
  | .dns | .dnsvc => some 53
  | .ftp => some 21
  | .ftpsImplicit | .ftpsImplicitNoPeerCheck | .ftpsExplicit | .ftpsExplicitNoPeerCheck => some 990

namespace HMDataHostGroup

/-- Copy the parameters of another group; its hosts and its remote check are not taken over. -/
def setHostGroupParameters (g other : HMDataHostGroup) : HMDataHostGroup :=
  { g with
    toCheckParameters := other.toCheckParameters
    dualstack := other.dualstack
    port := other.port
    checkType := other.checkType
    checkInfo := other.checkInfo }

def setDefaultPort (g : HMDataHostGroup) : HMDataHostGroup :=
  if g.port = 0 then { g with port := g.checkType.defaultPort.getD g.port } else g

end HMDataHostGroup

namespace HMState

/-- Give a group the remote checks whose names occur in its own. -/
def setRemoteChecks (flowType : FlowType) (remoteChecks : SortedMap HMString HMString)
    (name : HMString) (g : HMDataHostGroup) : HMDataHostGroup :=
  remoteChecks.entries.foldl (fun g remote =>
    if remote.1 <:+: name then
      { g with
        remoteCheck := remote.2
        flowType := if flowType = .dnsHealth then g.flowType else flowType }
    else g) g

/-- Resolve an indirect host: it takes the parameters of the group it stands for, and is dropped
when that group is missing. -/
def setIndirectHost (groups : HMDataHostGroupMap) (indirect : HMString × HMString) :
    HMDataHostGroupMap :=
  match groups.get? indirect.2 with
  | none => groups.erase indirect.1
  | some mapped => groups.modify indirect.1 fun g => g.setHostGroupParameters mapped

/-- Add the hosts of a child group, which must exist and have no children of its own. It is looked
up by its name as a C string. -/
def addChildHosts (groups : HMDataHostGroupMap) (g : HMDataHostGroup) (child : HMString) :
    Option HMDataHostGroup :=
  match groups.get? (cStr child) with
  | none => none
  | some c => if c.hostGroups = [] then some (c.hosts.foldl HMDataHostGroup.addHost g) else none

/-- Complete one group in place. -/
def completeGroup (groups : HMDataHostGroupMap) (name : HMString) : Option HMDataHostGroupMap :=
  match groups.get? name with
  | none => some groups
  | some g =>
    (g.hostGroups.foldlM (addChildHosts groups) g.setDefaultPort).map fun g => groups.set name g

/-- What is done with the groups once they have been read. -/
def loadAllConfigs (flowType : FlowType) (params : HMConfigParams) (groups : HMDataHostGroupMap) :
    Option HMDataHostGroupMap :=
  let groups :=
    if params.masterMode then groups
    else groups.mapVals (setRemoteChecks flowType params.remoteChecks)
  let groups := params.indirectHost.entries.foldl setIndirectHost groups
  groups.keys.foldlM completeGroup groups

/-- Generate the checks of the groups on top of the checks that are already listed. -/
def generateCheckListFrom (checkList : HMDataCheckList) (settings : Settings)
    (hostGroups : HMDataHostGroupMap) : HMState :=
  let hostGroups := hostGroups.mapVals fun _ g => settings.prepare g
  let checkList := hostGroups.entries.foldl (fun l e => HMDataCheckList.addHostGroup l e.2) checkList
  { settings := settings
    hostGroups := hostGroups
    checkList := checkList.setGuard true
    dnsCache := checkList.initDNSCache .empty settings.getDNSPlugin
    dnsWaitList := checkList.initWaitList
    remoteCache := generateRemoteCheckList hostGroups
    remoteHostCache := checkList.initRemoteCache ∅ }

theorem generateCheckList_eq_from (settings : Settings) (hostGroups : HMDataHostGroupMap) :
    generateCheckList settings hostGroups =
      generateCheckListFrom .empty settings hostGroups := rfl

/-- Reading the stored groups from the backend also lists their checks. -/
def getConfigs (stored : HMDataHostGroupMap) : HMDataHostGroupMap × HMDataCheckList :=
  (stored, stored.entries.foldl (fun l e => HMDataCheckList.addHostGroup l e.2) .empty)

/-- The state of a daemon that takes its groups from the backend. -/
def setupDaemonstate (settings : Settings) (flowType : FlowType) (stored : HMDataHostGroupMap) :
    Option HMState :=
  let loaded := getConfigs stored
  (loadAllConfigs flowType .default loaded.1).map fun groups =>
    generateCheckListFrom loaded.2 settings groups

end HMState

/-- Every child of a group, as loading looks it up, exists and has no children of its own. -/
def ChildrenPlain (groups : HMDataHostGroupMap) : Prop :=
  ∀ e ∈ groups.entries, ∀ child ∈ e.2.hostGroups,
    ∃ c, groups.get? (cStr child) = some c ∧ c.hostGroups = []

instance (groups : HMDataHostGroupMap) : Decidable (ChildrenPlain groups) :=
  inferInstanceAs (Decidable (∀ e ∈ groups.entries, ∀ child ∈ e.2.hostGroups,
    ∃ c ∈ groups.get? (cStr child), c.hostGroups = []))

namespace HMState

/-- The hosts of the children of a group. -/
def childHosts (groups : HMDataHostGroupMap) (g : HMDataHostGroup) : List HMString :=
  g.hostGroups.flatMap fun child => ((groups.get? (cStr child)).map fun c => c.hosts).getD []

/-- A group as loading completes it. -/
def completed (groups : HMDataHostGroupMap) (g : HMDataHostGroup) : HMDataHostGroup :=
  { g.setDefaultPort with
    hosts := (childHosts groups g).foldl HMDataHostGroup.appendNew g.hosts }

theorem setDefaultPort_hostGroups (g : HMDataHostGroup) :
    g.setDefaultPort.hostGroups = g.hostGroups := by
  rw [HMDataHostGroup.setDefaultPort]
  split <;> rfl

theorem setDefaultPort_hosts (g : HMDataHostGroup) : g.setDefaultPort.hosts = g.hosts := by
  rw [HMDataHostGroup.setDefaultPort]
  split <;> rfl

/-- The children of a group are read one after the other. -/
theorem foldlM_addChildHosts {groups : HMDataHostGroupMap} {children : List HMString}
    (hplain : ∀ child ∈ children, ∃ c, groups.get? (cStr child) = some c ∧ c.hostGroups = [])
    (g : HMDataHostGroup) :
    children.foldlM (addChildHosts groups) g =
      some { g with
        hosts := (children.flatMap fun child =>
          ((groups.get? (cStr child)).map fun c => c.hosts).getD []).foldl
            HMDataHostGroup.appendNew g.hosts } := by
  induction children generalizing g with
  | nil => rfl
  | cons child children ih =>
    obtain ⟨c, hc, hempty⟩ := hplain child List.mem_cons_self
    have hadd : addChildHosts groups g child =
        some { g with hosts := c.hosts.foldl HMDataHostGroup.appendNew g.hosts } := by
      rw [addChildHosts, hc]
      simp only [if_pos hempty, HMDataHostGroup.foldl_addHost]
    rw [List.foldlM_cons, hadd, List.flatMap_cons, List.foldl_append]
    simp only [Option.bind_eq_bind, Option.bind_some]
    rw [ih fun child' hchild' => hplain child' (List.mem_cons_of_mem child hchild')]
    simp [hc]

/-- The groups when those with some names have been completed. -/
def completedUpTo (groups : HMDataHostGroupMap) (names : List HMString) : HMDataHostGroupMap :=
  groups.mapVals fun name g => if name ∈ names then completed groups g else g

theorem get?_completedUpTo (groups : HMDataHostGroupMap) (names : List HMString)
    (name : HMString) : (completedUpTo groups names).get? name =
      (groups.get? name).map fun g => if name ∈ names then completed groups g else g := by
  rw [completedUpTo, SortedMap.get?_mapVals, SortedMap.get?]
  cases hf : groups.find? name with
  | none => rfl
  | some e =>
    have hname : e.1 = name := eqv_iff_eq.mp (SortedMap.find?_eqv hf)
    simp [hname]

/-- A child is not changed by what was completed before it, except for its port. -/
theorem child_of_completedUpTo {groups : HMDataHostGroupMap} (names : List HMString)
    {child : HMString} {c : HMDataHostGroup} (hc : groups.get? child = some c)
    (hempty : c.hostGroups = []) :
    ∃ c', (completedUpTo groups names).get? child = some c' ∧ c'.hostGroups = [] ∧
      c'.hosts = c.hosts := by
  rw [get?_completedUpTo, hc]
  refine ⟨_, rfl, ?_⟩
  dsimp only
  split
  · have hchildren : childHosts groups c = [] := by rw [childHosts, hempty]; rfl
    refine ⟨?_, ?_⟩
    · exact (setDefaultPort_hostGroups c).trans hempty
    · rw [completed, hchildren]
      rfl
  · exact ⟨hempty, rfl⟩

/-- The children of a group give the same hosts, whether they are completed or not. -/
theorem foldlM_addChildHosts_completedUpTo {groups : HMDataHostGroupMap} {g : HMDataHostGroup}
    (hchildren : ∀ child ∈ g.hostGroups, ∃ c, groups.get? (cStr child) = some c ∧ c.hostGroups = [])
    (names : List HMString) :
    g.hostGroups.foldlM (addChildHosts (completedUpTo groups names)) g.setDefaultPort =
      some (completed groups g) := by
  have hplain : ∀ child ∈ g.hostGroups,
      ∃ c, (completedUpTo groups names).get? (cStr child) = some c ∧ c.hostGroups = [] := by
    intro child hchild
    obtain ⟨c, hc, hempty⟩ := hchildren child hchild
    obtain ⟨c', hc', hempty', -⟩ := child_of_completedUpTo names hc hempty
    exact ⟨c', hc', hempty'⟩
  have hhosts : childHosts (completedUpTo groups names) g = childHosts groups g := by
    apply List.flatMap_congr
    intro child hchild
    obtain ⟨c, hc, hempty⟩ := hchildren child hchild
    obtain ⟨c', hc', -, hsame⟩ := child_of_completedUpTo names hc hempty
    rw [hc, hc']
    simp [hsame]
  rw [childHosts] at hhosts
  rw [foldlM_addChildHosts hplain, setDefaultPort_hosts, hhosts]
  rfl

/-- Completing one more group of the map. -/
theorem modify_completedUpTo {groups : HMDataHostGroupMap} {name : HMString}
    {g : HMDataHostGroup} (hg : (name, g) ∈ groups.entries) (names : List HMString) :
    (completedUpTo groups names).modify name (fun _ => completed groups g) =
      completedUpTo groups (names ++ [name]) := by
  rw [SortedMap.modify, completedUpTo, SortedMap.mapVals_mapVals, completedUpTo]
  apply SortedMap.mapVals_congr
  intro e he
  by_cases hname : e.1 = name
  · have he' : e = (name, g) := SortedMap.eq_of_mem he hg (by rw [hname]; exact eqv_refl name)
    rw [he']
    simp
  · simp [eqv_of_ne hname, hname]

theorem completeGroup_completedUpTo {groups : HMDataHostGroupMap} (hplain : ChildrenPlain groups)
    {names : List HMString} {name : HMString} {g : HMDataHostGroup}
    (hg : (name, g) ∈ groups.entries) (hnew : name ∉ names) :
    completeGroup (completedUpTo groups names) name =
      some (completedUpTo groups (names ++ [name])) := by
  have hget : (completedUpTo groups names).get? name = some g := by
    rw [get?_completedUpTo, SortedMap.get?_of_mem hg]
    simp [hnew]
  have hfind : (completedUpTo groups names).find? name ≠ none := by
    intro hnone
    rw [SortedMap.get?, hnone] at hget
    cases hget
  have hcompleted := foldlM_addChildHosts_completedUpTo (hplain (name, g) hg) names
  rw [completeGroup, hget]
  simp only [hcompleted, Option.map_some, SortedMap.set_of_contains _ hfind]
  rw [modify_completedUpTo hg]

/-- The groups are completed one after the other, whatever their order. -/
theorem foldlM_completeGroup {groups : HMDataHostGroupMap} (hplain : ChildrenPlain groups)
    {names rest : List HMString} (hnodup : (names ++ rest).Nodup)
    (hkeys : ∀ name ∈ rest, name ∈ groups.keys) :
    rest.foldlM completeGroup (completedUpTo groups names) =
      some (completedUpTo groups (names ++ rest)) := by
  induction rest generalizing names with
  | nil => simp
  | cons name rest ih =>
    have hnew : name ∉ names := by
      rw [List.nodup_append] at hnodup
      exact fun hold => hnodup.2.2 name hold name List.mem_cons_self rfl
    obtain ⟨e, he, rfl⟩ := List.mem_map.mp (hkeys name List.mem_cons_self)
    rw [List.foldlM_cons, completeGroup_completedUpTo hplain he hnew]
    rw [List.append_cons names e.1 rest] at hnodup ⊢
    exact ih hnodup fun name hname => hkeys name (List.mem_cons_of_mem e.1 hname)

/-- Once every name has come, every group is completed. -/
theorem completedUpTo_keys {groups : HMDataHostGroupMap} {names : List HMString}
    (h : ∀ name ∈ groups.keys, name ∈ names) :
    completedUpTo groups names = groups.mapVals fun _ g => completed groups g := by
  apply SortedMap.mapVals_congr
  intro e he
  exact if_pos (h e.1 (List.mem_map_of_mem he))

/-- Loading groups whose children are plain completes every group. -/
theorem loadAllConfigs_default (flowType : FlowType) {groups : HMDataHostGroupMap}
    (hplain : ChildrenPlain groups) : loadAllConfigs flowType .default groups =
      some (groups.mapVals fun _ g => completed groups g) := by
  have hremote : groups.mapVals (setRemoteChecks flowType ∅) = groups := by
    apply SortedMap.ext
    exact List.map_id groups.entries
  have hnone : completedUpTo groups [] = groups := by
    apply SortedMap.ext
    exact List.map_id groups.entries
  have hrun := foldlM_completeGroup hplain (List.nil_append groups.keys ▸ groups.keys_nodup)
    fun name hname => hname
  rw [hnone, List.nil_append, completedUpTo_keys fun name hname => hname] at hrun
  simp only [loadAllConfigs, HMConfigParams.default]
  exact (congrArg (fun m => m.keys.foldlM completeGroup m) hremote).trans hrun

end HMState

end NetCHASM
