import NetCHASM.DataCheckList

/-! The check list together with the index that remote queries use. The index holds
iterators into the list, and an iterator stays with its node whatever is inserted later,
so each node is given a number when it is created. -/
namespace NetCHASM

open KeyOrder OrderedMap

structure CheckNode where
  node : ℕ
  params : HMDataCheckParams
  deriving DecidableEq, Repr

/-- What an entry of the check list is for: a host with its check, and the parameters. -/
structure CheckId where
  key : CheckListKey
  params : CheckParameters
  deriving DecidableEq, Repr

namespace CheckId

/-- The same host, check, DNS type and parameters, as far as the operators of the source tell. -/
def same (a b : CheckId) : Bool := eqv a.key b.key && a.params = b.params

theorem same_iff {a b : CheckId} :
    a.same b = true ↔ eqv a.key b.key = true ∧ a.params = b.params := by
  simp [same]

theorem same_refl (a : CheckId) : a.same a = true := same_iff.mpr ⟨eqv_refl a.key, rfl⟩

theorem same_comm (a b : CheckId) : a.same b = b.same a := by
  simp only [same, eqv_comm a.key b.key, eq_comm (a := a.params)]

theorem same_trans {a b c : CheckId} (hab : a.same b = true) (hbc : b.same c = true) :
    a.same c = true := by
  rw [same_iff] at *
  exact ⟨eqv_trans hab.1 hbc.1, hab.2.trans hbc.2⟩

theorem same_of_common {a b c : CheckId} (hac : a.same c = true) (hbc : b.same c = true) :
    a.same b = true :=
  same_trans hac ((same_comm c b).trans hbc)

theorem same_congr {a b : CheckId} (h : a.same b = true) (c : CheckId) :
    a.same c = b.same c := by
  rw [Bool.eq_iff_iff]
  exact ⟨fun hac => same_trans ((same_comm b a).trans h) hac, fun hbc => same_trans h hbc⟩

end CheckId

/-- The key of the index: the check as a peer would ask for it, without its remote check. -/
def CheckListKey.referenceKey (k : CheckListKey) : HMString × HMDataHostCheck :=
  (k.hostname, { k.hostCheck with remoteCheck := [] })

abbrev CheckEntry := CheckListKey × CheckNode

namespace CheckEntry

def id (e : CheckEntry) : CheckId := ⟨e.1, e.2.params.toCheckParameters⟩

def reference (e : CheckEntry) : (HMString × HMDataHostCheck) × ℕ := (e.1.referenceKey, e.2.node)

def addHostGroup (group : HMString) (e : CheckEntry) : CheckEntry :=
  (e.1, { e.2 with params := e.2.params.addHostGroup group })

end CheckEntry

structure IndexedCheckList where
  checklist : SortedMultimap CheckListKey CheckNode
  checklistReference : SortedMultimap (HMString × HMDataHostCheck) ℕ
  created : ℕ
  guard : Bool
  deriving DecidableEq, Repr

namespace IndexedCheckList

def empty : IndexedCheckList := ⟨∅, ∅, 0, false⟩

/-- Add one host of a group: share the entry with equal parameters, or insert and index one. -/
def addHost (l : IndexedCheckList) (id : CheckId) (group : HMString) : IndexedCheckList :=
  let same (n : CheckNode) : Bool := n.params.toCheckParameters = id.params
  if (l.checklist.range id.key).any same then
    { l with
      checklist := l.checklist.modifyFirst id.key same fun n =>
        { n with params := n.params.addHostGroup group } }
  else
    { l with
      checklist := l.checklist.insert id.key
        ⟨l.created, (HMDataCheckParams.ofParameters id.params).addHostGroup group⟩
      checklistReference := l.checklistReference.insert id.key.referenceKey l.created
      created := l.created + 1 }

def addHostGroup (l : IndexedCheckList) (g : HMDataHostGroup) : IndexedCheckList :=
  if l.guard then l
  else
    match g.getHostCheck with
    | none => l
    | some hostCheck =>
      g.hosts.foldl (fun l host => l.addHost ⟨⟨host, hostCheck⟩, g.getCheckParameters⟩ g.groupName) l

/-- The list that a sequence of groups builds. -/
def ofGroups (groups : List HMDataHostGroup) : IndexedCheckList := groups.foldl addHostGroup empty

/-- The list without its index. -/
def toCheckList (l : IndexedCheckList) : HMDataCheckList :=
  ⟨l.checklist.mapVals fun _ n => n.params, l.guard⟩

theorem toCheckList_addHost (l : IndexedCheckList) (id : CheckId) (group : HMString) :
    (l.addHost id group).toCheckList =
      { l.toCheckList with
        checklist := HMDataCheckList.addHost l.toCheckList.checklist id.key id.params group } := by
  have hany : ((l.checklist.mapVals fun _ n => n.params).range id.key).any
      (fun p : HMDataCheckParams => decide (p.toCheckParameters = id.params)) =
      (l.checklist.range id.key).any
        fun n : CheckNode => decide (n.params.toCheckParameters = id.params) := by
    rw [SortedMultimap.range_mapVals (fun n : CheckNode => n.params), List.any_map]
    rfl
  simp only [addHost, HMDataCheckList.addHost, toCheckList, hany]
  split
  · congr 1
    apply SortedMultimap.ext
    exact SortedMultimap.map_modifyFirstEntry (K := CheckListKey) (h := CheckNode.params)
      (p := fun n => decide (n.params.toCheckParameters = id.params))
      (q := fun p => decide (p.toCheckParameters = id.params))
      (f := fun n => { n with params := n.params.addHostGroup group })
      (g := fun p => p.addHostGroup group) (fun _ => rfl) (fun _ => rfl) l.checklist.entries
  · congr 1
    apply SortedMultimap.ext
    exact map_insertUpper (fun _ (n : CheckNode) => n.params) _ _ _

/-- The index changes nothing in how the list itself is built. -/
theorem toCheckList_addHostGroup (l : IndexedCheckList) (g : HMDataHostGroup) :
    (l.addHostGroup g).toCheckList = l.toCheckList.addHostGroup g := by
  have hfold : ∀ (c : HMDataHostCheck) (hosts : List HMString) (l : IndexedCheckList),
      (hosts.foldl (fun l host => l.addHost ⟨⟨host, c⟩, g.getCheckParameters⟩ g.groupName)
        l).toCheckList =
      { l.toCheckList with
        checklist := hosts.foldl (fun m host =>
          HMDataCheckList.addHost m ⟨host, c⟩ g.getCheckParameters g.groupName)
          l.toCheckList.checklist } := by
    intro c hosts
    induction hosts with
    | nil => intro l; rfl
    | cons host hosts ih =>
      intro l
      rw [List.foldl_cons, List.foldl_cons, ih, toCheckList_addHost]
  have hguard : l.toCheckList.guard = l.guard := rfl
  simp only [addHostGroup, HMDataCheckList.addHostGroup, hguard]
  split
  · rfl
  · cases g.getHostCheck with
    | none => rfl
    | some c => exact hfold c g.hosts l

/-- One host of a group as it is added to the list. -/
structure Placement where
  id : CheckId
  group : HMString
  deriving DecidableEq, Repr

/-- The placements of a group, in the order of its hosts. -/
def placements (g : HMDataHostGroup) : List Placement :=
  match g.getHostCheck with
  | none => []
  | some hostCheck =>
    g.hosts.map fun host => ⟨⟨⟨host, hostCheck⟩, g.getCheckParameters⟩, g.groupName⟩

def place (l : IndexedCheckList) (p : Placement) : IndexedCheckList := l.addHost p.id p.group

theorem addHostGroup_eq_place {l : IndexedCheckList} (hguard : l.guard = false)
    (g : HMDataHostGroup) : l.addHostGroup g = (placements g).foldl place l := by
  rw [addHostGroup, placements, if_neg (by simp [hguard])]
  cases g.getHostCheck with
  | none => rfl
  | some c =>
    rw [List.foldl_map]
    rfl

@[simp] theorem place_guard (l : IndexedCheckList) (p : Placement) :
    (l.place p).guard = l.guard := by
  rw [place, addHost]
  split <;> rfl

theorem foldl_place_guard (l : IndexedCheckList) (ps : List Placement) :
    (ps.foldl place l).guard = l.guard := by
  induction ps generalizing l with
  | nil => rfl
  | cons p ps ih => rw [List.foldl_cons, ih, place_guard]

theorem foldl_addHostGroup_eq_place {l : IndexedCheckList} (hguard : l.guard = false)
    (groups : List HMDataHostGroup) :
    groups.foldl addHostGroup l = (groups.flatMap placements).foldl place l := by
  induction groups generalizing l with
  | nil => rfl
  | cons g groups ih =>
    rw [List.foldl_cons, List.flatMap_cons, List.foldl_append, addHostGroup_eq_place hguard]
    exact ih ((foldl_place_guard l _).trans hguard)

/-- What the list holds after some placements. -/
structure Holds (ps : List Placement) (l : IndexedCheckList) : Prop where
  listed : ∀ p ∈ ps, ∃ e ∈ l.checklist.entries, (CheckEntry.id e).same p.id = true
  origin : ∀ e ∈ l.checklist.entries, ∃ p ∈ ps, CheckEntry.id e = p.id
  groups : ∀ e ∈ l.checklist.entries,
    e.2.params.hostGroups = (ps.filter fun p => (CheckEntry.id e).same p.id).map Placement.group
  unfilled : ∀ e ∈ l.checklist.entries, e.2.params.checkData = ∅
  apart : l.checklist.entries.Pairwise fun a b =>
    (CheckEntry.id a).same (CheckEntry.id b) = false
  indexed : l.checklistReference.entries.Perm (l.checklist.entries.map CheckEntry.reference)
  fresh : ∀ e ∈ l.checklist.entries, e.2.node < l.created
  nodes : (l.checklist.entries.map fun e => e.2.node).Nodup

theorem holds_empty : Holds [] empty where
  listed _ hp := absurd hp List.not_mem_nil
  origin _ he := absurd he List.not_mem_nil
  groups _ he := absurd he List.not_mem_nil
  unfilled _ he := absurd he List.not_mem_nil
  apart := .nil
  indexed := .nil
  fresh _ he := absurd he List.not_mem_nil
  nodes := .nil

/-- The test under which a placement shares an entry. -/
theorem shares_iff {l : IndexedCheckList} {id : CheckId} :
    ((l.checklist.range id.key).any fun n => decide (n.params.toCheckParameters = id.params)) =
      true ↔ ∃ e ∈ l.checklist.entries, (CheckEntry.id e).same id = true := by
  simp only [SortedMultimap.range, SortedMultimap.equalRange, List.any_map, List.any_eq_true,
    List.mem_filter, Function.comp_apply, decide_eq_true_eq, CheckId.same_iff, CheckEntry.id,
    and_assoc]

/-- Sharing adds the name of the group to the entry and leaves the others alone. -/
def share (p : Placement) (e : CheckEntry) : CheckEntry :=
  if (CheckEntry.id e).same p.id then CheckEntry.addHostGroup p.group e else e

@[simp] theorem share_id (p : Placement) (e : CheckEntry) :
    CheckEntry.id (share p e) = CheckEntry.id e := by
  rw [share]
  split <;> rfl

@[simp] theorem share_reference (p : Placement) (e : CheckEntry) :
    CheckEntry.reference (share p e) = CheckEntry.reference e := by
  rw [share]
  split <;> rfl

@[simp] theorem share_node (p : Placement) (e : CheckEntry) : (share p e).2.node = e.2.node := by
  rw [share]
  split <;> rfl

@[simp] theorem share_checkData (p : Placement) (e : CheckEntry) :
    (share p e).2.params.checkData = e.2.params.checkData := by
  rw [share]
  split <;> rfl

theorem share_hostGroups (p : Placement) (e : CheckEntry) :
    (share p e).2.params.hostGroups =
      e.2.params.hostGroups ++ if (CheckEntry.id e).same p.id then [p.group] else [] := by
  rw [share]
  split
  · rfl
  · exact (List.append_nil _).symm

theorem place_shared {l : IndexedCheckList} {p : Placement}
    (hapart : l.checklist.entries.Pairwise fun a b =>
      (CheckEntry.id a).same (CheckEntry.id b) = false)
    (hshared : ∃ e ∈ l.checklist.entries, (CheckEntry.id e).same p.id = true) :
    (l.place p).checklist.entries = l.checklist.entries.map (share p) ∧
      (l.place p).checklistReference = l.checklistReference ∧ (l.place p).created = l.created := by
  have hplace : l.place p =
      { l with
        checklist := l.checklist.modifyFirst p.id.key
          (fun n => decide (n.params.toCheckParameters = p.id.params)) fun n =>
            { n with params := n.params.addHostGroup p.group } } :=
    if_pos (shares_iff.mpr hshared)
  rw [hplace]
  refine ⟨?_, rfl, rfl⟩
  apply SortedMultimap.modifyFirstEntry_eq_map
  refine hapart.imp fun {a b} hab hboth => ?_
  have hsame : (CheckEntry.id a).same (CheckEntry.id b) = true :=
    CheckId.same_of_common hboth.1 hboth.2
  rw [hab] at hsame
  cases hsame

theorem place_inserted {l : IndexedCheckList} {p : Placement}
    (hnew : ∀ e ∈ l.checklist.entries, (CheckEntry.id e).same p.id = false) :
    ∃ e : CheckEntry, CheckEntry.id e = p.id ∧ e.2.node = l.created ∧
      e.2.params.checkData = ∅ ∧ e.2.params.hostGroups = [p.group] ∧
      (l.place p).checklist.entries.Perm (e :: l.checklist.entries) ∧
      (l.place p).checklistReference.entries.Perm
        (CheckEntry.reference e :: l.checklistReference.entries) ∧
      (l.place p).created = l.created + 1 := by
  have hnot : ¬ ((l.checklist.range p.id.key).any fun n =>
      decide (n.params.toCheckParameters = p.id.params)) = true := by
    rw [shares_iff]
    rintro ⟨e, he, hsame⟩
    rw [hnew e he] at hsame
    cases hsame
  refine ⟨(p.id.key, ⟨l.created, (HMDataCheckParams.ofParameters p.id.params).addHostGroup p.group⟩),
    rfl, rfl, rfl, rfl, ?_⟩
  rw [place, addHost, if_neg hnot]
  exact ⟨insertUpper_perm _ _ _, insertUpper_perm _ _ _, rfl⟩

theorem holds_place_shared {l : IndexedCheckList} {ps : List Placement} {p : Placement}
    (h : Holds ps l) (hshared : ∃ e ∈ l.checklist.entries, (CheckEntry.id e).same p.id = true) :
    Holds (ps ++ [p]) (l.place p) := by
  obtain ⟨hentries, hreference, hcreated⟩ := place_shared h.apart hshared
  constructor
  · intro q hq
    have hold : ∃ e ∈ l.checklist.entries, (CheckEntry.id e).same q.id = true := by
      rcases List.mem_append.mp hq with hq | hq
      · exact h.listed q hq
      · rw [List.mem_singleton.mp hq]
        exact hshared
    rcases hold with ⟨e, he, hsame⟩
    rw [hentries]
    exact ⟨share p e, List.mem_map_of_mem he, by rwa [share_id]⟩
  · intro e' he'
    rw [hentries] at he'
    rcases List.mem_map.mp he' with ⟨e, he, rfl⟩
    obtain ⟨q, hq, hid⟩ := h.origin e he
    exact ⟨q, List.mem_append_left _ hq, by rwa [share_id]⟩
  · intro e' he'
    rw [hentries] at he'
    rcases List.mem_map.mp he' with ⟨e, he, rfl⟩
    rw [share_hostGroups, h.groups e he, share_id, List.filter_append, List.map_append]
    congr 1
    cases hp : (CheckEntry.id e).same p.id with
    | true => simp [hp]
    | false => simp [hp]
  · intro e' he'
    rw [hentries] at he'
    rcases List.mem_map.mp he' with ⟨e, he, rfl⟩
    rw [share_checkData, h.unfilled e he]
  · rw [hentries, List.pairwise_map]
    simp only [share_id]
    exact h.apart
  · rw [hentries, hreference, List.map_map]
    have hmap : CheckEntry.reference ∘ share p = CheckEntry.reference :=
      funext fun e => share_reference p e
    rw [hmap]
    exact h.indexed
  · intro e' he'
    rw [hentries] at he'
    rcases List.mem_map.mp he' with ⟨e, he, rfl⟩
    rw [share_node, hcreated]
    exact h.fresh e he
  · rw [hentries, List.map_map]
    have hmap : (fun e : CheckEntry => e.2.node) ∘ share p = fun e => e.2.node :=
      funext fun e => share_node p e
    rw [hmap]
    exact h.nodes

/-- A placement without an entry is the first for its check: an earlier one would be listed. -/
theorem earlier_placements_eq_nil {l : IndexedCheckList} {ps : List Placement} {id : CheckId}
    (h : Holds ps l) (hnew : ∀ e ∈ l.checklist.entries, (CheckEntry.id e).same id = false) :
    (ps.filter fun q => id.same q.id) = [] := by
  rw [List.filter_eq_nil_iff]
  intro q hq hsame
  obtain ⟨e, he, hsame'⟩ := h.listed q hq
  have hlisted := CheckId.same_of_common hsame' hsame
  rw [hnew e he] at hlisted
  cases hlisted

theorem holds_place_inserted {l : IndexedCheckList} {ps : List Placement} {p : Placement}
    (h : Holds ps l) (hnew : ∀ e ∈ l.checklist.entries, (CheckEntry.id e).same p.id = false) :
    Holds (ps ++ [p]) (l.place p) := by
  obtain ⟨n, hid, hnode, hdata, hgroups, hentries, hreference, hcreated⟩ := place_inserted hnew
  have hmem : ∀ {e}, e ∈ (l.place p).checklist.entries ↔ e = n ∨ e ∈ l.checklist.entries := by
    intro e
    rw [hentries.mem_iff, List.mem_cons]
  constructor
  · intro q hq
    rcases List.mem_append.mp hq with hq | hq
    · obtain ⟨e, he, hsame⟩ := h.listed q hq
      exact ⟨e, hmem.mpr (Or.inr he), hsame⟩
    · rw [List.mem_singleton.mp hq]
      exact ⟨n, hmem.mpr (Or.inl rfl), by rw [hid, CheckId.same_refl]⟩
  · intro e he
    rcases hmem.mp he with rfl | he
    · exact ⟨p, List.mem_append_right _ List.mem_cons_self, hid⟩
    · obtain ⟨q, hq, hq'⟩ := h.origin e he
      exact ⟨q, List.mem_append_left _ hq, hq'⟩
  · intro e he
    rw [List.filter_append, List.map_append]
    rcases hmem.mp he with rfl | he
    · rw [hgroups, hid, earlier_placements_eq_nil h hnew]
      simp [CheckId.same_refl]
    · rw [h.groups e he]
      simp [hnew e he]
  · intro e he
    rcases hmem.mp he with rfl | he
    · exact hdata
    · exact h.unfilled e he
  · have hsymm : ∀ {a b : CheckEntry}, (CheckEntry.id a).same (CheckEntry.id b) = false →
        (CheckEntry.id b).same (CheckEntry.id a) = false := by
      intro a b hab
      rwa [CheckId.same_comm]
    rw [hentries.pairwise_iff hsymm, List.pairwise_cons]
    refine ⟨?_, h.apart⟩
    intro e he
    rw [hid, CheckId.same_comm]
    exact hnew e he
  · refine hreference.trans ?_
    exact (h.indexed.cons _).trans (hentries.map CheckEntry.reference).symm
  · intro e he
    rw [hcreated]
    rcases hmem.mp he with rfl | he
    · omega
    · have := h.fresh e he
      omega
  · have hperm := hentries.map fun e : CheckEntry => e.2.node
    rw [hperm.nodup_iff, List.map_cons, List.nodup_cons]
    refine ⟨?_, h.nodes⟩
    rw [hnode, List.mem_map]
    rintro ⟨e, he, heq⟩
    have := h.fresh e he
    omega

theorem holds_place {l : IndexedCheckList} {ps : List Placement} (h : Holds ps l)
    (p : Placement) : Holds (ps ++ [p]) (l.place p) := by
  by_cases hshared : ∃ e ∈ l.checklist.entries, (CheckEntry.id e).same p.id = true
  · exact holds_place_shared h hshared
  · apply holds_place_inserted h
    intro e he
    rw [Bool.eq_false_iff]
    exact fun hsame => hshared ⟨e, he, hsame⟩

/-- Any sequence of placements keeps the invariant. -/
theorem holds_foldl_place {l : IndexedCheckList} {ps : List Placement} (h : Holds ps l)
    (qs : List Placement) : Holds (ps ++ qs) (qs.foldl place l) := by
  induction qs generalizing ps l with
  | nil => simpa using h
  | cons q qs ih =>
    rw [List.foldl_cons, List.append_cons]
    exact ih (holds_place h q)

theorem holds_ofGroups (groups : List HMDataHostGroup) :
    Holds (groups.flatMap placements) (ofGroups groups) := by
  rw [ofGroups, foldl_addHostGroup_eq_place rfl]
  exact holds_foldl_place holds_empty _

/-- The group has the host with that check, DNS type and parameters. -/
def configures (g : HMDataHostGroup) (id : CheckId) : Bool :=
  decide (id.key.hostname ∈ g.hosts) &&
    (g.getHostCheck.any fun c =>
      id.key.hostCheck.beq c && decide (id.key.hostCheck.dnsType = c.dnsType)) &&
    decide (id.params = g.getCheckParameters)

theorem same_mk (id : CheckId) (host : HMString) (c : HMDataHostCheck) (params : CheckParameters) :
    id.same ⟨⟨host, c⟩, params⟩ = (decide (host = id.key.hostname) &&
      (id.key.hostCheck.beq c && decide (id.key.hostCheck.dnsType = c.dnsType)) &&
      decide (id.params = params)) := by
  rw [Bool.eq_iff_iff, CheckId.same_iff, CheckListKey.eqv_iff_fields]
  simp only [Bool.and_eq_true, decide_eq_true_eq, eq_comm (a := host)]

/-- The hosts of a group are distinct, so at most one of its placements is for an entry. -/
theorem groups_of_placements {g : HMDataHostGroup} (hhosts : g.hosts.Nodup) (id : CheckId) :
    ((placements g).filter fun p => id.same p.id).map Placement.group =
      if configures g id then [g.groupName] else [] := by
  rw [placements, configures]
  cases g.getHostCheck with
  | none => simp
  | some c =>
    simp only [List.filter_map, List.map_map, Function.comp_def, same_mk, Option.any_some,
      List.map_const']
    by_cases hcheck : (id.key.hostCheck.beq c &&
        decide (id.key.hostCheck.dnsType = c.dnsType)) = true
    · by_cases hparams : id.params = g.getCheckParameters
      · simp only [hcheck, hparams, decide_true, Bool.and_true, List.filter_eq,
          List.length_replicate, hhosts.count, decide_eq_true_eq]
        split <;> rfl
      · simp [hparams]
    · simp [hcheck]

theorem groups_of_flatMap {groups : List HMDataHostGroup} (hhosts : ∀ g ∈ groups, g.hosts.Nodup)
    (id : CheckId) : ((groups.flatMap placements).filter fun p => id.same p.id).map Placement.group =
      (groups.filter fun g => configures g id).map fun g => g.groupName := by
  induction groups with
  | nil => rfl
  | cons g groups ih =>
    rw [List.flatMap_cons, List.filter_append, List.map_append, List.filter_cons,
      groups_of_placements (hhosts g List.mem_cons_self),
      ih fun g' hg' => hhosts g' (List.mem_cons_of_mem g hg')]
    split <;> rfl

/-- What a sequence of calls must leave in the list and its index. -/
structure BuiltFrom (groups : List HMDataHostGroup) (l : IndexedCheckList) : Prop where
  one : ∀ g ∈ groups, ∀ host ∈ g.hosts, l.checklist.entries.countP (fun e =>
    (CheckEntry.id e).same ⟨⟨host, g.toHMDataHostCheck⟩, g.getCheckParameters⟩) = 1
  noOther : ∀ e ∈ l.checklist.entries, ∃ g ∈ groups, e.1.hostname ∈ g.hosts ∧
    g.toHMDataHostCheck = e.1.hostCheck ∧ g.getCheckParameters = e.2.params.toCheckParameters
  groupNames : ∀ e ∈ l.checklist.entries, e.2.params.hostGroups =
    (groups.filter fun g => configures g (CheckEntry.id e)).map fun g => g.groupName
  groupsOnce : ∀ e ∈ l.checklist.entries, e.2.params.hostGroups.Nodup
  reference : l.checklistReference.entries.Perm
    (l.checklist.entries.map fun e =>
      ((e.1.hostname, { e.1.hostCheck with remoteCheck := [] }), e.2.node))
  nodes : (l.checklist.entries.map fun e => e.2.node).Nodup

/-- Every entry of one list is in the other, with the same groups up to their order. -/
def EntriesIn (l l' : IndexedCheckList) : Prop :=
  ∀ e ∈ l.checklist.entries, ∃ e' ∈ l'.checklist.entries,
    (CheckEntry.id e).same (CheckEntry.id e') = true ∧
      e.2.params.hostGroups.Perm e'.2.params.hostGroups

theorem mem_placements {g : HMDataHostGroup} {p : Placement} : p ∈ placements g ↔
    ∃ host ∈ g.hosts, ∃ c, g.getHostCheck = some c ∧
      p = ⟨⟨⟨host, c⟩, g.getCheckParameters⟩, g.groupName⟩ := by
  rw [placements]
  cases g.getHostCheck with
  | none => simp
  | some c => simp [eq_comm]

theorem getHostCheck_of_valid {g : HMDataHostGroup} (h : g.checkType ≠ .invalid) :
    g.getHostCheck = some g.toHMDataHostCheck :=
  if_pos h

theorem eq_of_getHostCheck {g : HMDataHostGroup} {c : HMDataHostCheck}
    (h : g.getHostCheck = some c) : g.toHMDataHostCheck = c := by
  rw [HMDataHostGroup.getHostCheck] at h
  split at h
  · exact Option.some.inj h
  · cases h

theorem entriesIn_of_perm {groups groups' : List HMDataHostGroup} (hperm : groups'.Perm groups) :
    EntriesIn (ofGroups groups') (ofGroups groups) := by
  have hplacements := hperm.flatMap_right placements
  intro e he
  obtain ⟨p, hp, hid⟩ := (holds_ofGroups groups').origin e he
  rcases (holds_ofGroups groups).listed p (hplacements.mem_iff.mp hp) with ⟨e', he', hsame⟩
  have hee' : (CheckEntry.id e).same (CheckEntry.id e') = true := by
    rw [hid, CheckId.same_comm]
    exact hsame
  refine ⟨e', he', hee', ?_⟩
  rw [(holds_ofGroups groups').groups e he, (holds_ofGroups groups).groups e' he']
  simp only [CheckId.same_congr hee']
  exact (hplacements.filter _).map _

/-- The list has one entry for each check that the groups configure, shared by exactly the groups
that configure it, with one reference for each; the order of the calls only orders the names. -/
theorem addHostGroup_builds_one_entry_per_check (groups : List HMDataHostGroup)
    (hnames : (groups.map fun g => g.groupName).Nodup) (hhosts : ∀ g ∈ groups, g.hosts.Nodup)
    (hvalid : ∀ g ∈ groups, g.checkType ≠ .invalid) :
    BuiltFrom groups (ofGroups groups) ∧
      ∀ groups', groups'.Perm groups → EntriesIn (ofGroups groups') (ofGroups groups) ∧
        EntriesIn (ofGroups groups) (ofGroups groups') := by
  have h := holds_ofGroups groups
  refine ⟨?_, fun groups' hperm => ⟨entriesIn_of_perm hperm, entriesIn_of_perm hperm.symm⟩⟩
  have hgroupNames : ∀ e ∈ (ofGroups groups).checklist.entries, e.2.params.hostGroups =
      (groups.filter fun g => configures g (CheckEntry.id e)).map fun g => g.groupName := by
    intro e he
    rw [h.groups e he, groups_of_flatMap hhosts]
  constructor
  · intro g hg host hhost
    refine Nat.le_antisymm (countP_le_one ?_) (Nat.succ_le_of_lt (List.countP_pos_iff.mpr ?_))
    · refine h.apart.imp fun {a b} hab hboth => ?_
      have hsame := CheckId.same_of_common hboth.1 hboth.2
      rw [hab] at hsame
      cases hsame
    · refine h.listed ⟨⟨⟨host, g.toHMDataHostCheck⟩, g.getCheckParameters⟩, g.groupName⟩ ?_
      rw [List.mem_flatMap]
      exact ⟨g, hg, mem_placements.mpr
        ⟨host, hhost, _, getHostCheck_of_valid (hvalid g hg), rfl⟩⟩
  · intro e he
    obtain ⟨p, hp, hid⟩ := h.origin e he
    rcases List.mem_flatMap.mp hp with ⟨g, hg, hp⟩
    rcases mem_placements.mp hp with ⟨host, hhost, c, hc, rfl⟩
    have hkey : e.1 = ⟨host, c⟩ := congrArg CheckId.key hid
    have hparams : e.2.params.toCheckParameters = g.getCheckParameters := congrArg CheckId.params hid
    refine ⟨g, hg, ?_, ?_, hparams.symm⟩
    · rw [hkey]
      exact hhost
    · rw [hkey]
      exact eq_of_getHostCheck hc
  · exact hgroupNames
  · intro e he
    rw [hgroupNames e he]
    exact hnames.sublist (List.filter_sublist.map _)
  · exact h.indexed
  · exact h.nodes

theorem two_groups_share_an_entry :
    BuiltFrom
      [{ HMDataHostGroup.new (bytes "first") with hosts := [bytes "shared"] },
        { HMDataHostGroup.new (bytes "second") with hosts := [bytes "own", bytes "shared"] }]
      (ofGroups
        [{ HMDataHostGroup.new (bytes "first") with hosts := [bytes "shared"] },
          { HMDataHostGroup.new (bytes "second") with hosts := [bytes "own", bytes "shared"] }]) :=
  (addHostGroup_builds_one_entry_per_check _ (by decide) (by decide) (by decide)).1

end IndexedCheckList

end NetCHASM
