import Mathlib.Data.List.Induction
import Mathlib.Data.List.Nodup
import NetCHASM.AuxXml

/-! Aux records that are written as a file and read back. The generator keeps the records of a
resource together, so the records that come back are compared as a multiset. -/
namespace AuxRoundTrip

open NetCHASM Decimal Decoding

theorem cStr_eq_self_iff (s : HMString) : cStr s = s ↔ 0 ∉ s := takeWhile_eq_self_iff s

theorem cStr_cStr (s : HMString) : cStr (cStr s) = cStr s := by
  rw [cStr_eq_self_iff]
  intro hzero
  exact absurd (List.mem_takeWhile_imp hzero) (by decide)

/-! The records behind the nodes of a document. -/

section Groups

abbrev Groups := List (HMString × List HMAuxBase)

def sameHost (r old : HMAuxBase) : Bool := cStr old.host = r.host

/-- The records of a resource after one more, as the generator keeps their nodes. -/
def keepRecord (r : HMAuxBase) (rs : List HMAuxBase) : List HMAuxBase :=
  match rs.find? (sameHost r) with
  | none => rs ++ [r]
  | some old =>
    if hostTime (hostNode old) < r.ts.getTimeSinceEpoch then rs.eraseP (sameHost r) ++ [r] else rs

def groupRecord (type : AuxType) (groups : Groups) (r : HMAuxBase) : Groups :=
  if r.type ≠ type then groups
  else if (groups.any fun e => e.1 = r.resource) then
    groups.map fun e => if e.1 = r.resource then (e.1, keepRecord r e.2) else e
  else groups ++ [(r.resource, keepRecord r [])]

def recordGroups (type : AuxType) (rs : List HMAuxBase) : Groups :=
  rs.foldl (groupRecord type) []

def groupNodes (e : HMString × List HMAuxBase) : HMString × List XmlNode :=
  (e.1, e.2.map hostNode)

theorem isHost_hostNode (r : HMAuxBase) : isHost r.host ∘ hostNode = sameHost r := by
  funext old
  simp [isHost, hostNode, XmlNode.firstAttribute, sameHost]

theorem addHost_map (r : HMAuxBase) (rs : List HMAuxBase) :
    addHost r (rs.map hostNode) = (keepRecord r rs).map hostNode := by
  rw [addHost, keepRecord]
  rw [List.find?_map, List.eraseP_map, isHost_hostNode]
  cases rs.find? (sameHost r) with
  | none => simp
  | some old =>
    simp only [Option.map_some]
    split
    · simp
    · rfl

theorem addRecord_map (type : AuxType) (groups : Groups) (r : HMAuxBase) :
    addRecord type (groups.map groupNodes) r = (groupRecord type groups r).map groupNodes := by
  have hany : ((groups.map groupNodes).any fun e => e.1 = r.resource) =
      groups.any fun e => e.1 = r.resource := by
    rw [List.any_map]
    rfl
  rw [addRecord, groupRecord]
  split
  · rfl
  · rw [hany]
    by_cases hmet : (groups.any fun e => e.1 = r.resource) = true
    · rw [if_pos hmet, if_pos hmet, List.map_map, List.map_map]
      apply List.map_congr_left
      intro e _
      by_cases hkey : e.1 = r.resource
      · simp [hkey, groupNodes, addHost_map]
      · simp [hkey, groupNodes]
    · rw [if_neg hmet, if_neg hmet, List.map_append]
      simpa [groupNodes] using addHost_map r []

theorem foldl_addRecord (type : AuxType) (rs : List HMAuxBase) (groups : Groups) :
    rs.foldl (addRecord type) (groups.map groupNodes) =
      (rs.foldl (groupRecord type) groups).map groupNodes := by
  induction rs generalizing groups with
  | nil => rfl
  | cons r rs ih => rw [List.foldl_cons, List.foldl_cons, addRecord_map, ih]

def resourceNode (type : AuxType) (e : HMString × List HMAuxBase) : XmlNode :=
  .element type.resourceName [(bytes "name", cStr e.1)] [] (e.2.map hostNode)

/-- The document of a list of records is that of its groups. -/
theorem genAuxData_eq (info : HMAuxInfo) (type : AuxType) :
    genAuxData info type =
      .element type.rootName [(bytes "updated", decimal info.ts.getTimeSinceEpoch.toNat)] []
        ((recordGroups type info.auxData).map (resourceNode type)) := by
  have hgroups := foldl_addRecord type info.auxData []
  rw [List.map_nil] at hgroups
  rw [genAuxData, hgroups, List.map_map]
  rfl

/-- What one more record does to the records of its resource. -/
theorem keepRecord_cases (r : HMAuxBase) (rs : List HMAuxBase) :
    ((∀ old ∈ rs, cStr old.host ≠ r.host) ∧ keepRecord r rs = rs ++ [r]) ∨
      keepRecord r rs = rs.eraseP (sameHost r) ++ [r] ∨ (rs ≠ [] ∧ keepRecord r rs = rs) := by
  rw [keepRecord]
  cases hfind : rs.find? (sameHost r) with
  | none =>
    left
    have hnone := List.find?_eq_none.mp hfind
    exact ⟨fun old hold => by simpa [sameHost] using hnone old hold, rfl⟩
  | some old =>
    right
    have hmem := List.mem_of_find?_eq_some hfind
    simp only
    split
    · exact .inl rfl
    · exact .inr ⟨List.ne_nil_of_mem hmem, rfl⟩

theorem keepRecord_ne_nil (r : HMAuxBase) (rs : List HMAuxBase) : keepRecord r rs ≠ [] := by
  obtain ⟨-, hkeep⟩ | hkeep | ⟨hne, hkeep⟩ := keepRecord_cases r rs
  · simp [hkeep]
  · simp [hkeep]
  · rwa [hkeep]

theorem mem_keepRecord {r old : HMAuxBase} {rs : List HMAuxBase} (h : old ∈ keepRecord r rs) :
    old ∈ rs ∨ old = r := by
  obtain ⟨-, hkeep⟩ | hkeep | ⟨-, hkeep⟩ := keepRecord_cases r rs
  · simpa [hkeep] using h
  · rw [hkeep, List.mem_append, List.mem_singleton] at h
    exact h.imp_left List.mem_of_mem_eraseP
  · exact .inl (hkeep ▸ h)

theorem keepRecord_new {r : HMAuxBase} {rs : List HMAuxBase}
    (h : ∀ old ∈ rs, cStr old.host ≠ r.host) : keepRecord r rs = rs ++ [r] := by
  have hfind : rs.find? (sameHost r) = none := by
    rw [List.find?_eq_none]
    intro old hold
    simpa [sameHost] using h old hold
  rw [keepRecord, hfind]

/-- A name that the node of a host can hold is that of one host of its resource. -/
theorem nodup_keepRecord {r : HMAuxBase} {rs : List HMAuxBase} (hhost : cStr r.host = r.host)
    (h : (rs.map fun old => cStr old.host).Nodup) :
    ((keepRecord r rs).map fun old => cStr old.host).Nodup := by
  obtain ⟨hnew, hkeep⟩ | hkeep | ⟨-, hkeep⟩ := keepRecord_cases r rs
  · rw [hkeep, List.map_append, List.map_singleton, hhost, List.nodup_append]
    refine ⟨h, List.nodup_singleton _, ?_⟩
    intro host hmem host' hmem'
    rcases List.mem_map.mp hmem with ⟨old, hold, rfl⟩
    obtain rfl := List.mem_singleton.mp hmem'
    exact hnew old hold
  · have herase : (rs.eraseP (sameHost r)).map (fun old => cStr old.host) =
        (rs.map fun old => cStr old.host).erase r.host := by
      rw [List.erase_eq_eraseP, List.eraseP_map]
      congr 2
      funext old
      simp [sameHost, beq_eq_decide, eq_comm]
    rw [hkeep, List.map_append, List.map_singleton, hhost, herase, List.nodup_append]
    refine ⟨h.erase _, List.nodup_singleton _, ?_⟩
    intro host hmem host' hmem'
    obtain rfl := List.mem_singleton.mp hmem'
    rintro rfl
    exact h.not_mem_erase hmem
  · rwa [hkeep]

/-- A record of the type goes to the group of its resource, which is there at most once. -/
theorem groupRecord_cases {type : AuxType} {groups : Groups} {r : HMAuxBase}
    (hkeys : (groups.map Prod.fst).Nodup) (htype : r.type = type) :
    (∃ before rs after, groups = before ++ (r.resource, rs) :: after ∧
      groupRecord type groups r = before ++ (r.resource, keepRecord r rs) :: after) ∨
    (r.resource ∉ groups.map Prod.fst ∧
      groupRecord type groups r = groups ++ [(r.resource, [r])]) := by
  have hmet : (groups.any fun e => e.1 = r.resource) = true ↔
      r.resource ∈ groups.map Prod.fst := by
    simp [List.any_eq_true]
  rw [groupRecord, if_neg (not_not.mpr htype)]
  by_cases hmem : r.resource ∈ groups.map Prod.fst
  · left
    rw [if_pos (hmet.mpr hmem)]
    rcases List.mem_map.mp hmem with ⟨⟨resource, rs⟩, he, rfl⟩
    obtain ⟨before, after, rfl⟩ := List.append_of_mem he
    refine ⟨before, rs, after, rfl, ?_⟩
    rw [List.map_append, List.map_cons, List.nodup_middle, List.nodup_cons, List.mem_append,
      not_or] at hkeys
    have hother : ∀ es : Groups, r.resource ∉ es.map Prod.fst →
        (es.map fun e => if e.1 = r.resource then (e.1, keepRecord r e.2) else e) = es := by
      intro es hes
      rw [List.map_congr_left (g := id), List.map_id]
      intro e hmem
      rw [if_neg, id]
      intro heq
      exact hes (heq ▸ List.mem_map_of_mem hmem)
    rw [List.map_append, List.map_cons, hother before hkeys.1.1, hother after hkeys.1.2]
    simp
  · right
    rw [if_neg fun h => hmem (hmet.mp h)]
    exact ⟨hmem, rfl⟩

def key (r : HMAuxBase) : HMString × HMString := (r.resource, r.host)

/-- The groups hold records that were seen, each under its resource; where the names fit the
nodes no host is there twice, and where no two records share their key none is lost. -/
structure Grouped (type : AuxType) (seen : List HMAuxBase) (groups : Groups) : Prop where
  keys : (groups.map Prod.fst).Nodup
  nonempty : ∀ e ∈ groups, e.2 ≠ []
  records : ∀ e ∈ groups, ∀ r ∈ e.2, r ∈ seen ∧ r.type = type ∧ r.resource = e.1
  hosts : (∀ r ∈ seen, cStr r.host = r.host) →
    ∀ e ∈ groups, (e.2.map fun r => cStr r.host).Nodup
  complete : (∀ r ∈ seen, r.type = type ∧ cStr r.host = r.host) → (seen.map key).Nodup →
    (groups.flatMap Prod.snd).Perm seen

namespace Grouped

variable {type : AuxType} {seen : List HMAuxBase} {groups : Groups} {r : HMAuxBase}

theorem nil (type : AuxType) : Grouped type [] [] where
  keys := List.nodup_nil
  nonempty := by simp
  records := by simp
  hosts := by simp
  complete := by simp

theorem nodup_key_append (h : ((seen ++ [r]).map key).Nodup) :
    (seen.map key).Nodup ∧ key r ∉ seen.map key := by
  rw [List.map_append, List.map_singleton, List.nodup_append] at h
  exact ⟨h.1, fun hmem => h.2.2 _ hmem _ (List.mem_singleton.mpr rfl) rfl⟩

theorem records_append (h : Grouped type seen groups) (r : HMAuxBase) :
    ∀ e ∈ groups, ∀ old ∈ e.2, old ∈ seen ++ [r] ∧ old.type = type ∧ old.resource = e.1 := by
  intro e he old hold
  have hold := h.records e he old hold
  exact ⟨List.mem_append_left _ hold.1, hold.2⟩

theorem skip (h : Grouped type seen groups) (htype : r.type ≠ type) :
    Grouped type (seen ++ [r]) groups where
  keys := h.keys
  nonempty := h.nonempty
  records := h.records_append r
  hosts hnames := h.hosts fun old hold => hnames old (List.mem_append_left _ hold)
  complete hall := absurd (hall r List.mem_concat_self).1 htype

/-- A record joins the group of its resource. -/
theorem join {before after : Groups} {rs : List HMAuxBase}
    (h : Grouped type seen (before ++ (r.resource, rs) :: after)) (htype : r.type = type) :
    Grouped type (seen ++ [r]) (before ++ (r.resource, keepRecord r rs) :: after) where
  keys := by simpa using h.keys
  nonempty := by
    have hgroups := h.nonempty
    simp only [List.forall_mem_append, List.forall_mem_cons] at hgroups ⊢
    exact ⟨hgroups.1, keepRecord_ne_nil r rs, hgroups.2.2⟩
  records := by
    have hseen := h.records_append r
    simp only [List.forall_mem_append, List.forall_mem_cons] at hseen ⊢
    refine ⟨hseen.1, ?_, hseen.2.2⟩
    intro old hold
    obtain hmem | rfl := mem_keepRecord hold
    · exact hseen.2.1 old hmem
    · exact ⟨List.mem_concat_self, htype, rfl⟩
  hosts hnames := by
    have hgroups := h.hosts fun old hold => hnames old (List.mem_append_left _ hold)
    have hhost := hnames r List.mem_concat_self
    simp only [List.forall_mem_append, List.forall_mem_cons] at hgroups ⊢
    exact ⟨hgroups.1, nodup_keepRecord hhost hgroups.2.1, hgroups.2.2⟩
  complete hall hkeys := by
    have hold := fun old hmem => hall old (List.mem_append_left [r] hmem)
    obtain ⟨hkeys, hnew⟩ := nodup_key_append hkeys
    have hhost : ∀ old ∈ rs, cStr old.host ≠ r.host := by
      intro old hmem heq
      obtain ⟨hseen, -, hresource⟩ := h.records (r.resource, rs) (by simp) old hmem
      have hkey : key old = key r := Prod.ext hresource ((hold old hseen).2.symm.trans heq)
      exact hnew (hkey ▸ List.mem_map_of_mem hseen)
    have hperm := h.complete hold hkeys
    rw [keepRecord_new hhost]
    simp only [List.flatMap_append, List.flatMap_cons] at hperm ⊢
    calc before.flatMap Prod.snd ++ ((rs ++ [r]) ++ after.flatMap Prod.snd)
        = (before.flatMap Prod.snd ++ rs) ++ r :: after.flatMap Prod.snd := by simp
      List.Perm _ (r :: ((before.flatMap Prod.snd ++ rs) ++ after.flatMap Prod.snd)) :=
        List.perm_middle
      List.Perm _ (r :: seen) := by simpa using hperm
      List.Perm _ (seen ++ [r]) := (List.perm_append_singleton r seen).symm

/-- A record opens the group of its resource. -/
theorem start (h : Grouped type seen groups) (htype : r.type = type)
    (hresource : r.resource ∉ groups.map Prod.fst) :
    Grouped type (seen ++ [r]) (groups ++ [(r.resource, [r])]) where
  keys := by
    rw [List.map_append, List.nodup_append]
    refine ⟨h.keys, List.nodup_singleton _, ?_⟩
    intro resource hmem resource' hmem'
    obtain rfl := List.mem_singleton.mp hmem'
    exact ne_of_mem_of_not_mem hmem hresource
  nonempty := by
    simp only [List.forall_mem_append, List.forall_mem_singleton]
    exact ⟨h.nonempty, List.cons_ne_nil _ _⟩
  records := by
    simp only [List.forall_mem_append, List.forall_mem_singleton]
    exact ⟨h.records_append r, List.mem_concat_self, htype, trivial⟩
  hosts hnames := by
    simp only [List.forall_mem_append, List.forall_mem_singleton]
    exact ⟨h.hosts fun old hold => hnames old (List.mem_append_left _ hold),
      List.nodup_singleton _⟩
  complete hall hkeys := by
    have hold := fun old hmem => hall old (List.mem_append_left [r] hmem)
    have hperm := h.complete hold (nodup_key_append hkeys).1
    rw [List.flatMap_append]
    exact hperm.append_right [r]

theorem step (h : Grouped type seen groups) (r : HMAuxBase) :
    Grouped type (seen ++ [r]) (groupRecord type groups r) := by
  by_cases htype : r.type = type
  · obtain ⟨before, rs, after, rfl, hgroup⟩ | ⟨hnew, hgroup⟩ := groupRecord_cases h.keys htype
    · exact hgroup ▸ h.join htype
    · exact hgroup ▸ h.start htype hnew
  · rw [groupRecord, if_pos htype]
    exact h.skip htype

end Grouped

theorem grouped_recordGroups (type : AuxType) (rs : List HMAuxBase) :
    Grouped type rs (recordGroups type rs) := by
  induction rs using List.reverseRecOn with
  | nil => exact .nil type
  | append_singleton rs r ih =>
    rw [recordGroups, List.foldl_append]
    exact ih.step r

end Groups

/-! What the parser makes of a generated document. -/

section Parse

/-- A time as the parser takes it: the milliseconds that were printed count as seconds. -/
def scaled (ts : HMTimeStamp) : HMTimeStamp :=
  .ofUInt64 (.ofInt (ts.getTimeSinceEpoch.toNat * 1000))

/-- A time that the parser can multiply. -/
def InRange (ts : HMTimeStamp) : Prop := ts.getTimeSinceEpoch.toNat * 1000 < 2 ^ 63

instance : DecidablePred InRange := fun _ => inferInstanceAs (Decidable (_ < _))

theorem readTime_decimal (ts : HMTimeStamp) :
    readTime (decimal ts.getTimeSinceEpoch.toNat) =
      if InRange ts then .ok (some (scaled ts)) else .error .overflow := by
  have hrange : InRange ts ↔ ts.getTimeSinceEpoch.toNat * 1000 < 2 ^ 63 := Iff.rfl
  simp only [readTime, strtol_decimal, hrange, scaled, longMin, longMax]
  split
  · by_cases hfits : ts.getTimeSinceEpoch.toNat * 1000 < 2 ^ 63
    · rw [if_pos hfits, if_neg (by omega)]
      simp
    · rw [if_neg hfits, if_pos (by omega)]
  · rw [if_pos (by omega), if_neg (by omega)]

/-- A record as the parser makes it of its node. -/
def reparsed (address : HMIPAddress) (resource : HMString) : HMAuxBase → HMAuxBase
  | .loadFB host _ _ ts _ load target max =>
    .loadFB (cStr host) resource address (scaled ts) [] load target max
  | .oob host _ _ ts forceDown shed =>
    .oob (cStr host) resource address (scaled ts) (if forceDown ≠ .false then .true else .false)
      (if 100 < shed then 0 else shed)

variable (address : HMIPAddress) (resource : HMString) (filets : HMTimeStamp)

theorem firstAttribute_hostNode (r : HMAuxBase) :
    (hostNode r).firstAttribute (bytes "name") = some (cStr r.host) := by
  simp [hostNode, XmlNode.firstAttribute]

theorem readHostTime_hostNode (r : HMAuxBase) :
    readHostTime filets (hostNode r) =
      if InRange r.ts then .ok (scaled r.ts) else .error .overflow := by
  have hnode : (hostNode r).firstNode (bytes "time") = some (timeNode r.ts) := by
    cases r <;> rfl
  rw [readHostTime, hnode]
  simp only [timeNode, XmlNode.leaf, XmlNode.value, readTime_decimal]
  split
  · rfl
  · rfl

theorem readNumber_decimalInt (old z : Int64) {host : XmlNode} {tag : HMString}
    (hnode : host.firstNode tag = some (.leaf tag (decimalInt z.toInt))) :
    readNumber old host tag = z := by
  simp [readNumber, hnode, XmlNode.leaf, XmlNode.value, strtol_decimalInt]

theorem readForceDown_hostNode (host resource : HMString) (ip : HMIPAddress) (ts : HMTimeStamp)
    (forceDown : OobForcedown) (shed : UInt32) :
    readForceDown (hostNode (.oob host resource ip ts forceDown shed)) =
      if forceDown ≠ .false then .true else .false := by
  cases forceDown <;> rfl

theorem readShed_hostNode (host resource : HMString) (ip : HMIPAddress) (ts : HMTimeStamp)
    (forceDown : OobForcedown) (shed : UInt32) :
    readShed (hostNode (.oob host resource ip ts forceDown shed)) =
      if 100 < shed then 0 else shed := by
  by_cases hzero : shed = 0
  · subst hzero
    rfl
  · have hnode : (hostNode (.oob host resource ip ts forceDown shed)).firstNode (bytes "shed") =
        some (.leaf (bytes "shed") (decimal shed.toNat)) := by
      simp only [XmlNode.firstNode, XmlNode.children, hostNode, hostFields, if_pos hzero]
      rfl
    have hfits : shed.toNat < 2 ^ 63 := lt_trans shed.toNat_lt (by decide)
    rw [readShed, hnode]
    have hword : UInt32.ofInt shed.toNat = shed := by
      have hmod : ((shed.toNat : Int) % 2 ^ 32).toNat = shed.toNat := by
        have hlt := shed.toNat_lt
        omega
      rw [UInt32.ofInt, hmod, UInt32.ofNat_toNat]
    simp only [XmlNode.leaf, XmlNode.value, strtol_decimal, if_pos hfits, hword]
    simp

/-- The result of a parse that appends the records of some nodes, if their times fit. -/
def appended (info : HMAuxInfo) (rs : List HMAuxBase) (fit : Prop) [Decidable fit] :
    Read (Bool × HMAuxInfo) :=
  if fit then .ok (true, { info with auxData := info.auxData ++ rs }) else .error .overflow

theorem appended_then (info : HMAuxInfo) (rs rs' : List HMAuxBase) (fit fit' all : Prop)
    [Decidable fit] [Decidable fit'] [Decidable all] (hall : all ↔ fit ∧ fit') :
    (if fit then appended { info with auxData := info.auxData ++ rs } rs' fit'
      else .error .overflow) = appended info (rs ++ rs') all := by
  by_cases hfit : fit
  · have hrest : all ↔ fit' := by rw [hall, and_iff_right hfit]
    simp [appended, hfit, hrest]
  · have hnone : ¬ all := fun h => hfit (hall.mp h).1
    simp [appended, hfit, hnone]

/-- A host whose time fits adds its record; the file time is not used. -/
theorem parseLoadHosts_cons {r : HMAuxBase} (htype : r.type = .loadFile)
    (load target max : Int64) (ns : List XmlNode) (info : HMAuxInfo) :
    ∃ load' target' max',
      parseLoadHosts address resource filets load target max (hostNode r :: ns) info =
        if InRange r.ts then
          parseLoadHosts address resource filets load' target' max' ns
            { info with auxData := info.auxData ++ [reparsed address resource r] }
        else .error .overflow := by
  cases r with
  | oob => cases htype
  | loadFB host name ip ts datacenter load' target' max' =>
    refine ⟨load', target', max', ?_⟩
    rw [parseLoadHosts, firstAttribute_hostNode]
    simp only [readHostTime_hostNode]
    rw [readNumber_decimalInt load load' rfl, readNumber_decimalInt target target' rfl,
      readNumber_decimalInt max max' rfl]
    split
    · rfl
    · rfl

theorem parseOOBHosts_cons {r : HMAuxBase} (htype : r.type = .oobFile) (ns : List XmlNode)
    (info : HMAuxInfo) :
    parseOOBHosts address resource filets (hostNode r :: ns) info =
      if InRange r.ts then
        parseOOBHosts address resource filets ns
          { info with auxData := info.auxData ++ [reparsed address resource r] }
      else .error .overflow := by
  cases r with
  | loadFB => cases htype
  | oob host name ip ts forceDown shed =>
    rw [parseOOBHosts, firstAttribute_hostNode]
    simp only [readHostTime_hostNode, readForceDown_hostNode, readShed_hostNode]
    split
    · rfl
    · rfl

theorem parseHosts_map {type : AuxType} {rs : List HMAuxBase} (hrs : ∀ r ∈ rs, r.type = type)
    (info : HMAuxInfo) :
    parseHosts type address resource filets (rs.map hostNode) info =
      appended info (rs.map (reparsed address resource)) (∀ r ∈ rs, InRange r.ts) := by
  cases type with
  | loadFile =>
    -- Every host has its own numbers, so what is carried from host to host is arbitrary.
    suffices hcarry : ∀ load target max,
        parseLoadHosts address resource filets load target max (rs.map hostNode) info =
          appended info (rs.map (reparsed address resource)) (∀ r ∈ rs, InRange r.ts) from
      hcarry 0 0 0
    induction rs generalizing info with
    | nil => simp [parseLoadHosts, appended]
    | cons r rs ih =>
      intro load target max
      rcases List.forall_mem_cons.mp hrs with ⟨htype, hrest⟩
      obtain ⟨load', target', max', hcons⟩ :=
        parseLoadHosts_cons address resource filets htype load target max (rs.map hostNode) info
      rw [List.map_cons, hcons, ih _ hrest]
      exact appended_then _ _ _ _ _ _ List.forall_mem_cons
  | oobFile =>
    change parseOOBHosts address resource filets (rs.map hostNode) info = _
    induction rs generalizing info with
    | nil => simp [parseOOBHosts, appended]
    | cons r rs ih =>
      rcases List.forall_mem_cons.mp hrs with ⟨htype, hrest⟩
      rw [List.map_cons, parseOOBHosts_cons address resource filets htype, ih _ hrest]
      exact appended_then _ _ _ _ _ _ List.forall_mem_cons

theorem nodes_resourceNode (type : AuxType) (e : HMString × List HMAuxBase) :
    (resourceNode type e).nodes (bytes "host") = e.2.map hostNode := by
  apply List.filter_eq_self.mpr
  intro n hn
  rcases List.mem_map.mp hn with ⟨r, -, rfl⟩
  rfl

/-- The records of a group, as they are read back. -/
def groupRecords (e : HMString × List HMAuxBase) : List HMAuxBase :=
  e.2.map (reparsed address (cStr e.1))

theorem parseResources_map {type : AuxType} {groups : Groups}
    (hnonempty : ∀ e ∈ groups, e.2 ≠ []) (htype : ∀ e ∈ groups, ∀ r ∈ e.2, r.type = type)
    (info : HMAuxInfo) :
    parseResources type address filets (groups.map (resourceNode type)) info =
      appended info (groups.flatMap (groupRecords address))
        (∀ e ∈ groups, ∀ r ∈ e.2, InRange r.ts) := by
  induction groups generalizing info with
  | nil => simp [parseResources, appended]
  | cons e groups ih =>
    rcases List.forall_mem_cons.mp hnonempty with ⟨hne, hnonempty⟩
    rcases List.forall_mem_cons.mp htype with ⟨hrs, htype⟩
    have hname : (resourceNode type e).firstAttribute (bytes "name") = some (cStr e.1) := by
      simp [resourceNode, XmlNode.firstAttribute]
    rw [List.map_cons, parseResources, hname]
    simp only [nodes_resourceNode]
    split
    · rename_i hnil
      exact absurd (List.map_eq_nil_iff.mp hnil) hne
    · rw [parseHosts_map address (cStr e.1) filets hrs, List.flatMap_cons,
        ← appended_then info _ _ _ _ _ List.forall_mem_cons, appended]
      split
      · exact ih hnonempty htype _
      · rfl

/-- The outcome of a parse of a generated document. -/
theorem parseAuxData_genAuxData (info : HMAuxInfo) (type : AuxType) :
    parseAuxData address (genAuxData info type) ⟨[], 0⟩ =
      if InRange info.ts then
        if recordGroups type info.auxData = [] then .ok (false, ⟨[], scaled info.ts⟩)
        else appended ⟨[], scaled info.ts⟩
          ((recordGroups type info.auxData).flatMap (groupRecords address))
          (∀ e ∈ recordGroups type info.auxData, ∀ r ∈ e.2, InRange r.ts)
      else .error .overflow := by
  have hgroups := grouped_recordGroups type info.auxData
  have hfile : parseAuxData address (genAuxData info type) ⟨[], 0⟩ =
      parseFile type address (genAuxData info type) ⟨[], 0⟩ := by
    cases type <;> rfl
  have hupdated : (genAuxData info type).firstAttribute (bytes "updated") =
      some (decimal info.ts.getTimeSinceEpoch.toNat) := by
    simp [genAuxData, XmlNode.firstAttribute]
  have hnodes : (genAuxData info type).nodes type.resourceName =
      (recordGroups type info.auxData).map (resourceNode type) := by
    rw [genAuxData_eq]
    apply List.filter_eq_self.mpr
    intro n hn
    rcases List.mem_map.mp hn with ⟨e, -, rfl⟩
    exact decide_eq_true rfl
  rw [hfile, parseFile, hupdated]
  simp only [readTime_decimal]
  by_cases hrange : InRange info.ts
  · simp only [if_pos hrange, ok_bind, hnodes]
    split
    · rename_i hnil
      rw [if_pos (List.map_eq_nil_iff.mp hnil)]
      rfl
    · rename_i hne
      rw [if_neg fun hnil => hne (by rw [hnil, List.map_nil])]
      exact parseResources_map address _ hgroups.nonempty
        (fun e he r hr => (hgroups.records e he r hr).2.1) _
  · simp only [if_neg hrange]
    rfl

end Parse

/-! Which files keep their records. -/

section RoundTrip

/-- The fields of a record that a file is to keep. -/
inductive AuxFields where
  | load (resource host : HMString) (ts : HMTimeStamp) (load target max : Int64)
  | oob (resource host : HMString) (ts : HMTimeStamp) (forceDown : OobForcedown)
  deriving DecidableEq, Repr

def fields : HMAuxBase → AuxFields
  | .loadFB host resource _ ts _ load target max => .load resource host ts load target max
  | .oob host resource _ ts forceDown _ => .oob resource host ts forceDown

def AuxFields.key : AuxFields → HMString × HMString
  | .load resource host _ _ _ _ => (resource, host)
  | .oob resource host _ _ => (resource, host)

/-- The parser accepts the document of a list of records and returns these records. -/
def RoundTrips (type : AuxType) (address : HMIPAddress) (info : HMAuxInfo) : Prop :=
  ∃ info', parseAuxData address (genAuxData info type) ⟨[], 0⟩ = .ok (true, info') ∧
    (info'.auxData.map fields).Perm (info.auxData.map fields)

/-- A force-down state that the document can tell from the others. -/
def Definite : HMAuxBase → Prop
  | .loadFB .. => True
  | .oob _ _ _ _ forceDown _ => forceDown ≠ .none

/-- A record of the type whose fields a document keeps. -/
structure Kept (type : AuxType) (r : HMAuxBase) : Prop where
  type_eq : r.type = type
  resource : 0 ∉ r.resource
  host : 0 ∉ r.host
  ts : r.ts = 0
  definite : Definite r

structure Restorable (type : AuxType) (info : HMAuxInfo) : Prop where
  nonempty : info.auxData ≠ []
  fileTime : InRange info.ts
  keys : (info.auxData.map key).Nodup
  kept : ∀ r ∈ info.auxData, Kept type r

theorem toInt64_ofInt {n : ℕ} (h : n < 2 ^ 63) : (UInt64.ofInt n).toInt64.toInt = n := by
  have hword : (UInt64.ofInt n).toNat = n := by
    rw [toNat_ofInt]
    omega
  have hsmall : 2 * (UInt64.ofInt n).toBitVec.toNat < 2 ^ 64 := by
    rw [UInt64.toNat_toBitVec, hword]
    omega
  calc (UInt64.ofInt n).toInt64.toInt = (UInt64.ofInt n).toBitVec.toInt := rfl
    _ = (UInt64.ofInt n).toBitVec.toNat := BitVec.toInt_eq_toNat_of_lt hsmall
    _ = n := by rw [UInt64.toNat_toBitVec, hword]

/-- Only the time zero is the same in seconds and in milliseconds. -/
theorem eq_zero_of_scaled_eq {ts : HMTimeStamp} (h : InRange ts) (heq : scaled ts = ts) :
    ts = 0 := by
  have hscaled : scaled ts = (ts.getTimeSinceEpoch.toNat * 1000 : ℕ) := toInt64_ofInt h
  have htime : ts = (ts.getTimeSinceEpoch.toNat * 1000 : ℕ) := heq.symm.trans hscaled
  have hword : ts.getTimeSinceEpoch.toNat = (ts % 2 ^ 64).toNat := toNat_ofInt ts
  have hlt : ((ts.getTimeSinceEpoch.toNat * 1000 : ℕ) : Int) < 2 ^ 64 :=
    lt_trans (Int.ofNat_lt.mpr h) (by decide)
  have hsame : ts.getTimeSinceEpoch.toNat = ts.getTimeSinceEpoch.toNat * 1000 := by
    rwa [htime, Int.emod_eq_of_lt (Int.natCast_nonneg _) hlt, Int.toNat_natCast, ← htime]
      at hword
  have hzero : ts.getTimeSinceEpoch.toNat * 1000 = 0 := by
    generalize ts.getTimeSinceEpoch.toNat = word at hsame
    omega
  rw [htime, hzero]
  rfl

/-- What a record that was read back says of the record it was written from. -/
theorem of_fields_reparsed {address : HMIPAddress} {resource : HMString} {r r' : HMAuxBase}
    (h : fields (reparsed address resource r') = fields r) :
    r'.type = r.type ∧ resource = r.resource ∧ cStr r'.host = r.host ∧ scaled r'.ts = r.ts ∧
      Definite r := by
  cases r' with
  | loadFB host name ip ts datacenter load target max =>
    cases r with
    | oob => cases h
    | loadFB =>
      obtain ⟨hresource, hhost, hts, -⟩ := AuxFields.load.inj h
      exact ⟨rfl, hresource, hhost, hts, trivial⟩
  | oob host name ip ts forceDown shed =>
    cases r with
    | loadFB => cases h
    | oob =>
      obtain ⟨hresource, hhost, hts, hforce⟩ := AuxFields.oob.inj h
      refine ⟨rfl, hresource, hhost, hts, ?_⟩
      rw [Definite, ← hforce]
      split <;> simp

theorem fields_reparsed {type : AuxType} {r : HMAuxBase} (h : Kept type r)
    (address : HMIPAddress) : fields (reparsed address r.resource r) = fields r := by
  have hhost := (cStr_eq_self_iff _).mpr h.host
  have hts := h.ts
  have hdefinite := h.definite
  cases r with
  | loadFB host resource ip ts datacenter load target max =>
    obtain rfl : ts = 0 := hts
    rw [reparsed, show cStr host = host from hhost]
    rfl
  | oob host resource ip ts forceDown shed =>
    obtain rfl : ts = 0 := hts
    rw [reparsed, show cStr host = host from hhost]
    cases forceDown with
    | false => rfl
    | true => rfl
    | none => exact absurd rfl hdefinite

theorem key_fields (r : HMAuxBase) : (fields r).key = key r := by
  cases r <;> rfl

variable {type : AuxType} {address : HMIPAddress} {info : HMAuxInfo}

/-- The records of a file that keeps them come back as they are, but for the address they were
read from, the datacenter and a shed above 100. -/
theorem perm_groupRecords (h : Restorable type info) (address : HMIPAddress) :
    ((recordGroups type info.auxData).flatMap (groupRecords address)).Perm
      (info.auxData.map fun r => reparsed address r.resource r) := by
  have hgroups := grouped_recordGroups type info.auxData
  have hperm := hgroups.complete
    (fun r hr => ⟨(h.kept r hr).type_eq, (cStr_eq_self_iff _).mpr (h.kept r hr).host⟩) h.keys
  have hrecords : (recordGroups type info.auxData).flatMap (groupRecords address) =
      ((recordGroups type info.auxData).flatMap Prod.snd).map
        fun r => reparsed address r.resource r := by
    rw [List.map_flatMap]
    apply List.flatMap_congr
    intro e he
    apply List.map_congr_left
    intro r hr
    obtain ⟨hseen, -, hresource⟩ := hgroups.records e he r hr
    rw [← hresource, (cStr_eq_self_iff _).mpr (h.kept r hseen).resource]
  rw [hrecords]
  exact hperm.map _

theorem Restorable.roundTrips (h : Restorable type info) (address : HMIPAddress) :
    RoundTrips type address info := by
  have hgroups := grouped_recordGroups type info.auxData
  have hperm := perm_groupRecords h address
  have hne : recordGroups type info.auxData ≠ [] := by
    intro hnil
    rw [hnil] at hperm
    exact h.nonempty (List.map_eq_nil_iff.mp hperm.symm.eq_nil)
  have hrange : ∀ e ∈ recordGroups type info.auxData, ∀ r ∈ e.2, InRange r.ts := by
    intro e he r hr
    rw [(h.kept r (hgroups.records e he r hr).1).ts]
    decide
  refine ⟨⟨(recordGroups type info.auxData).flatMap (groupRecords address), scaled info.ts⟩, ?_, ?_⟩
  · rw [parseAuxData_genAuxData, if_pos h.fileTime, if_neg hne, appended, if_pos hrange]
    rfl
  · have hkept : (info.auxData.map fun r => reparsed address r.resource r).map fields =
        info.auxData.map fields := by
      rw [List.map_map]
      exact List.map_congr_left fun r hr => fields_reparsed (h.kept r hr) address
    exact hkept ▸ hperm.map fields

/-- A document that is read back has its records in groups, and their times fit. -/
theorem RoundTrips.groups (h : RoundTrips type address info) :
    InRange info.ts ∧ recordGroups type info.auxData ≠ [] ∧
      (∀ e ∈ recordGroups type info.auxData, ∀ r ∈ e.2, InRange r.ts) ∧
      (((recordGroups type info.auxData).flatMap (groupRecords address)).map fields).Perm
        (info.auxData.map fields) := by
  rcases h with ⟨info', hparse, hperm⟩
  rw [parseAuxData_genAuxData] at hparse
  by_cases hfile : InRange info.ts
  · by_cases hnil : recordGroups type info.auxData = []
    · rw [if_pos hfile, if_pos hnil] at hparse
      cases hparse
    · rw [if_pos hfile, if_neg hnil, appended] at hparse
      split at hparse
      · rename_i hrange
        cases hparse
        exact ⟨hfile, hnil, hrange, hperm⟩
      · cases hparse
  · rw [if_neg hfile] at hparse
    cases hparse

/-- Every record comes from the node of one that was read back with its fields. -/
theorem RoundTrips.source (h : RoundTrips type address info) {r : HMAuxBase}
    (hr : r ∈ info.auxData) :
    ∃ e ∈ recordGroups type info.auxData, ∃ r' ∈ e.2,
      fields (reparsed address (cStr e.1) r') = fields r := by
  obtain ⟨-, -, -, hperm⟩ := h.groups
  have hmem := hperm.mem_iff.mpr (List.mem_map_of_mem hr)
  rcases List.mem_map.mp hmem with ⟨back, hback, hfields⟩
  rcases List.mem_flatMap.mp hback with ⟨e, he, hrecord⟩
  rcases List.mem_map.mp hrecord with ⟨r', hr', rfl⟩
  exact ⟨e, he, r', hr', hfields⟩

theorem RoundTrips.names (h : RoundTrips type address info) {r : HMAuxBase}
    (hr : r ∈ info.auxData) :
    r.type = type ∧ cStr r.resource = r.resource ∧ cStr r.host = r.host ∧ Definite r := by
  have hgroups := grouped_recordGroups type info.auxData
  obtain ⟨e, he, r', hr', hfields⟩ := h.source hr
  obtain ⟨htype, hresource, hhost, -, hdefinite⟩ := of_fields_reparsed hfields
  refine ⟨htype.symm.trans (hgroups.records e he r' hr').2.1, ?_, ?_, hdefinite⟩
  · rw [← hresource, cStr_cStr]
  · rw [← hhost, cStr_cStr]

/-- The keys that are read back are distinct, so those that were written are. -/
theorem RoundTrips.keys (h : RoundTrips type address info) : (info.auxData.map key).Nodup := by
  have hgroups := grouped_recordGroups type info.auxData
  have hhosts := hgroups.hosts fun r hr => (h.names hr).2.2.1
  have hresource : ∀ e ∈ recordGroups type info.auxData, cStr e.1 = e.1 := by
    intro e he
    obtain ⟨r, hr⟩ := List.exists_mem_of_ne_nil _ (hgroups.nonempty e he)
    obtain ⟨hseen, -, hkey⟩ := hgroups.records e he r hr
    exact hkey ▸ (h.names hseen).2.1
  have hkey : ∀ e : HMString × List HMAuxBase,
      (groupRecords address e).map key = e.2.map fun r => (cStr e.1, cStr r.host) := by
    intro e
    rw [groupRecords, List.map_map]
    apply List.map_congr_left
    intro r _
    cases r <;> rfl
  have hback :
      (((recordGroups type info.auxData).flatMap (groupRecords address)).map key).Nodup := by
    rw [List.map_flatMap, List.nodup_flatMap]
    constructor
    · intro e he
      rw [hkey]
      apply List.Nodup.of_map Prod.snd
      rw [List.map_map]
      exact hhosts e he
    · apply (List.pairwise_map.mp hgroups.keys).imp_of_mem
      intro e e' he he' hne k hmem hmem'
      simp only [hkey] at hmem hmem'
      rcases List.mem_map.mp hmem with ⟨r, -, rfl⟩
      rcases List.mem_map.mp hmem' with ⟨r', -, heq⟩
      have hresources : cStr e'.1 = cStr e.1 := (Prod.ext_iff.mp heq).1
      rw [hresource e he, hresource e' he'] at hresources
      exact hne hresources.symm
  have hkeys : ∀ rs : List HMAuxBase, (rs.map fields).map AuxFields.key = rs.map key := by
    intro rs
    rw [List.map_map]
    exact List.map_congr_left fun r _ => key_fields r
  have hperm := h.groups.2.2.2.map AuxFields.key
  rw [hkeys, hkeys] at hperm
  exact hperm.nodup_iff.mp hback

theorem RoundTrips.ts (h : RoundTrips type address info) {r : HMAuxBase}
    (hr : r ∈ info.auxData) : r.ts = 0 := by
  have hgroups := grouped_recordGroups type info.auxData
  obtain ⟨e, he, r', hr', hfields⟩ := h.source hr
  obtain ⟨-, hresource, hhost, hts, -⟩ := of_fields_reparsed hfields
  obtain ⟨hseen, -, hgroup⟩ := hgroups.records e he r' hr'
  obtain ⟨-, hnameResource, hnameHost, -⟩ := h.names hseen
  have hkey : key r' = key r := by
    rw [← hgroup, hnameResource] at hresource
    rw [hnameHost] at hhost
    exact Prod.ext hresource hhost
  -- The only record under the key of the node is the one the node was written from.
  obtain rfl := List.inj_on_of_nodup_map h.keys hseen hr hkey
  exact eq_zero_of_scaled_eq (h.groups.2.2.1 e he r' hr') hts

theorem RoundTrips.restorable (h : RoundTrips type address info) : Restorable type info where
  nonempty := by
    intro hnil
    have hgroups := h.groups.2.1
    rw [hnil] at hgroups
    exact hgroups rfl
  fileTime := h.groups.1
  keys := h.keys
  kept r hr := by
    obtain ⟨htype, hresource, hhost, hdefinite⟩ := h.names hr
    exact ⟨htype, (cStr_eq_self_iff _).mp hresource, (cStr_eq_self_iff _).mp hhost, h.ts hr,
      hdefinite⟩

/-- The parser returns the records of a file just if the file has records of its type under
distinct names, all at the time zero and with a force-down state that is set. -/
theorem aux_files_round_trip_iff (type : AuxType) (address : HMIPAddress) (info : HMAuxInfo) :
    RoundTrips type address info ↔ Restorable type info :=
  ⟨RoundTrips.restorable, fun h => h.roundTrips address⟩

def sampleLoad : HMAuxInfo :=
  ⟨[.loadFB (bytes "host1") (bytes "pool") (.v4 0x0A000001) 1500000000000 (bytes "dc1") 10 20 30],
    1500000000000⟩

def sampleOOB : HMAuxInfo :=
  ⟨[.oob (bytes "host1") (bytes "pool") (.v4 0x0A000001) 0 .none 0], 0⟩

/-- A time comes back a thousand times as large, and a force-down state that is not set comes
back as set. -/
theorem sample_records_are_changed :
    (sampleLoad.auxData.map HMAuxBase.type = [.loadFile] ∧
      ¬ RoundTrips .loadFile (.v4 0x0A000001) sampleLoad) ∧
    (sampleOOB.auxData.map HMAuxBase.type = [.oobFile] ∧
      ¬ RoundTrips .oobFile (.v4 0x0A000001) sampleOOB) := by
  refine ⟨⟨rfl, ?_⟩, rfl, ?_⟩
  · intro h
    exact absurd (h.ts List.mem_cons_self) (by decide)
  · intro h
    exact (h.names List.mem_cons_self).2.2.2 rfl

end RoundTrip

end AuxRoundTrip
