import NetCHASM.ChildGroups
import Mathlib.Data.List.Induction

/-! Indirect host groups. A group may stand for another one, which may stand for another one again.
Loading resolves all of them in a single pass in the order of their names. A group that stands for
one with a larger name copies parameters that have not been resolved yet, and only some of the
fields of a check are copied at all. -/
namespace NetCHASM

open KeyOrder OrderedMap

namespace HMState

/-- The groups with their remote checks, as the indirect hosts are resolved in them. -/
def withRemoteChecks (flowType : FlowType) (params : HMConfigParams)
    (groups : HMDataHostGroupMap) : HMDataHostGroupMap :=
  if params.masterMode then groups
  else groups.mapVals (setRemoteChecks flowType params.remoteChecks)

def setIndirectHosts (refs : SortedMap HMString HMString) (groups : HMDataHostGroupMap) :
    HMDataHostGroupMap :=
  refs.entries.foldl setIndirectHost groups

/-- Loading resolves the indirect hosts and then completes the groups. -/
theorem loadAllConfigs_eq (flowType : FlowType) (params : HMConfigParams)
    (groups : HMDataHostGroupMap) : loadAllConfigs flowType params groups =
      let resolved := setIndirectHosts params.indirectHost (withRemoteChecks flowType params groups)
      completeGroups resolved resolved.keys := rfl

/-- The step drops a group that is not there, when neither the indirect host nor the group it stands
for exists. -/
def erasesMissing (groups : HMDataHostGroupMap) (indirect : HMString × HMString) : Bool :=
  (groups.get? indirect.2).isNone && (groups.get? indirect.1).isNone

end HMState

end NetCHASM

namespace IndirectHosts

open NetCHASM KeyOrder OrderedMap HMState

section References

variable (refs : SortedMap HMString HMString) (groups : HMDataHostGroupMap)

/-- A group that stands for another one. -/
def Indirect (name : HMString) : Prop :=
  (refs.get? name).isSome ∧ (groups.get? name).isSome

/-- The references from a group lead to a name that is not an indirect group. -/
inductive ChainEnd : HMString → HMString → Prop where
  | here {name : HMString} : ¬ Indirect refs groups name → ChainEnd name name
  | next {name mapped target : HMString} : Indirect refs groups name →
      refs.get? name = some mapped → ChainEnd mapped target → ChainEnd name target

/-- The group whose own parameters a name is given: a reference to an indirect group with a smaller
name is followed further, any other one is not. -/
inductive CopiedFrom : HMString → HMString → Prop where
  | here {name mapped : HMString} : refs.get? name = some mapped →
      (Indirect refs groups mapped → Ordered.lt mapped name = false) → CopiedFrom name mapped
  | next {name mapped source : HMString} : refs.get? name = some mapped →
      Indirect refs groups mapped → Ordered.lt mapped name = true → CopiedFrom mapped source →
      CopiedFrom name source

/-- No step of the pass drops a group that is not there. -/
def NeverErasesMissing : Prop :=
  ∀ done e rest, refs.entries = done ++ e :: rest →
    erasesMissing (done.foldl setIndirectHost groups) e = false

/-- Every reference from a name without a group leads to a group. -/
def LooseReferencesLead : Prop :=
  ∀ name source, groups.get? name = none → CopiedFrom refs groups name source →
    (groups.get? source).isSome

/-- What loading has to make of the indirect groups: those whose references lead to a group are
checked like it, and the others are gone. -/
def Resolved (after : HMDataHostGroupMap) : Prop :=
  ∀ name target, Indirect refs groups name → ChainEnd refs groups name target →
    ((groups.get? target).isSome → ∃ g t, after.get? name = some g ∧ after.get? target = some t ∧
      g.getHostCheck = t.getHostCheck ∧ g.getCheckParameters = t.getCheckParameters) ∧
    (groups.get? target = none → after.get? name = none)

end References

/-- The parameters that are copied are those of the target, once default ports are set. -/
structure SameCopied (source target : HMDataHostGroup) : Prop where
  checkType : source.checkType = target.checkType
  check : target.checkType ≠ .invalid → source.setDefaultPort.port = target.setDefaultPort.port ∧
    source.dualstack = target.dualstack ∧ source.checkInfo = target.checkInfo
  params : source.getCheckParameters = target.getCheckParameters

/-- The parts of a check that are not copied. -/
structure SameUncopied (g target : HMDataHostGroup) : Prop where
  remoteCheck : g.remoteCheck = target.remoteCheck
  distributedFallback : g.distributedFallback = target.distributedFallback
  dnsType : g.dnsType = target.dnsType
  checkPlugin : g.checkPlugin = target.checkPlugin
  remoteCheckType : g.remoteCheckType = target.remoteCheckType
  sourceAddress : g.sourceAddress = target.sourceAddress
  tosValue : g.tosValue = target.tosValue
  flowType : g.flowType = target.flowType

/-- The group whose parameters an indirect group is given is as missing as the end of its references;
or it has the parameters of that end, and the indirect group itself has the rest of its check. -/
def CopiesSuffice (refs : SortedMap HMString HMString) (groups : HMDataHostGroupMap) : Prop :=
  ∀ name target source, Indirect refs groups name → ChainEnd refs groups name target →
    CopiedFrom refs groups name source →
      (∀ t, groups.get? target = some t → ∃ g s, groups.get? name = some g ∧
        groups.get? source = some s ∧ SameCopied s t ∧
          (t.checkType ≠ .invalid → SameUncopied g t)) ∧
      (groups.get? target = none → groups.get? source = none)

section Pass

variable {refs : SortedMap HMString HMString} {groups : HMDataHostGroupMap}

theorem CopiedFrom.unique {name source source' : HMString} (h : CopiedFrom refs groups name source)
    (h' : CopiedFrom refs groups name source') : source = source' := by
  induction h with
  | here hmapped hstop =>
    cases h' with
    | here hmapped' _ => exact Option.some.inj (hmapped.symm.trans hmapped')
    | next hmapped' hindirect hlt _ =>
      obtain rfl := Option.some.inj (hmapped.symm.trans hmapped')
      exact absurd hlt (by simp [hstop hindirect])
  | next hmapped hindirect hlt _ ih =>
    cases h' with
    | here hmapped' hstop =>
      obtain rfl := Option.some.inj (hmapped.symm.trans hmapped')
      exact absurd hlt (by simp [hstop hindirect])
    | next hmapped' _ _ htail =>
      obtain rfl := Option.some.inj (hmapped.symm.trans hmapped')
      exact ih htail

/-- What the pass makes of a name that it has come to. -/
def passed (groups : HMDataHostGroupMap) (name source : HMString) : Option HMDataHostGroup :=
  (groups.get? name).bind fun g => (groups.get? source).map fun s => g.setHostGroupParameters s

/-- The groups in the middle of the pass. -/
structure Passed (refs : SortedMap HMString HMString) (groups : HMDataHostGroupMap)
    (done : List (HMString × HMString)) (m : HMDataHostGroupMap) : Prop where
  ahead : ∀ name, name ∉ done.map Prod.fst → m.get? name = groups.get? name
  behind : ∀ name ∈ done.map Prod.fst, ∃ source, CopiedFrom refs groups name source ∧
    m.get? name = passed groups name source

/-- Names come to the pass in their order. -/
theorem lt_of_split {done rest : List (HMString × HMString)} {e : HMString × HMString}
    (hsplit : refs.entries = done ++ e :: rest) :
    (∀ name ∈ done.map Prod.fst, Ordered.lt name e.1 = true) ∧
      ∀ name ∈ rest.map Prod.fst, Ordered.lt e.1 name = true := by
  have hsorted := refs.sorted
  rw [hsplit, List.pairwise_append, List.pairwise_cons] at hsorted
  rcases hsorted with ⟨-, ⟨hafter, -⟩, hbefore⟩
  constructor
  · intro name hname
    rcases List.mem_map.mp hname with ⟨d, hd, rfl⟩
    exact hbefore d hd e List.mem_cons_self
  · intro name hname
    rcases List.mem_map.mp hname with ⟨d, hd, rfl⟩
    exact hafter d hd

theorem mem_names_iff {name : HMString} :
    name ∈ refs.entries.map Prod.fst ↔ (refs.get? name).isSome := by
  constructor
  · intro hname
    rcases List.mem_map.mp hname with ⟨e, he, rfl⟩
    rw [SortedMap.get?_of_mem he]
    rfl
  · intro hsome
    rcases Option.isSome_iff_exists.mp hsome with ⟨mapped, hmapped⟩
    exact List.mem_map_of_mem (SortedMap.mem_of_get? hmapped)

/-- What the step reads under the name that a reference leads to. -/
theorem Passed.mapped {done rest : List (HMString × HMString)} {e : HMString × HMString}
    {m : HMDataHostGroupMap} (h : Passed refs groups done m)
    (hsplit : refs.entries = done ++ e :: rest) : ∃ source, CopiedFrom refs groups e.1 source ∧
      ∀ g : HMDataHostGroup, (m.get? e.2).map (fun s => g.setHostGroupParameters s) =
        (groups.get? source).map fun s => g.setHostGroupParameters s := by
  have hget : refs.get? e.1 = some e.2 := SortedMap.get?_of_mem (by simp [hsplit])
  obtain ⟨hbefore, hafter⟩ := lt_of_split hsplit
  by_cases hdone : e.2 ∈ done.map Prod.fst
  · obtain ⟨source, hsource, hm⟩ := h.behind e.2 hdone
    rw [passed] at hm
    cases hthere : groups.get? e.2 with
    | none =>
      refine ⟨e.2, .here hget ?_, ?_⟩
      · rintro ⟨-, hsome⟩
        simp [hthere] at hsome
      · simp [hm, hthere]
    | some mapped =>
      -- what was copied to the mapped group is copied on
      have hnamed : (refs.get? e.2).isSome := by
        rw [← mem_names_iff, hsplit, List.map_append]
        exact List.mem_append_left _ hdone
      refine ⟨source, .next hget ⟨hnamed, by simp [hthere]⟩ (hbefore e.2 hdone) hsource, ?_⟩
      intro g
      rw [hm, hthere, Option.bind_some, Option.map_map]
      rfl
  · refine ⟨e.2, .here hget ?_, ?_⟩
    · rintro ⟨hnamed, -⟩
      rw [← mem_names_iff, hsplit, List.map_append, List.map_cons] at hnamed
      rcases List.mem_append.mp hnamed with hnamed | hnamed
      · exact absurd hnamed hdone
      · rcases List.mem_cons.mp hnamed with hself | hrest
        · rw [hself]
          exact Ordered.weak.irrefl e.1
        · exact Ordered.weak.asymm (hafter e.2 hrest)
    · intro g
      rw [h.ahead e.2 hdone]

theorem get?_setIndirectHost (m : HMDataHostGroupMap) (e : HMString × HMString) (name : HMString) :
    (setIndirectHost m e).get? name =
      if name = e.1 then
        (m.get? e.1).bind fun g => (m.get? e.2).map fun s => g.setHostGroupParameters s
      else m.get? name := by
  have heqv : eqv e.1 name = decide (name = e.1) := by
    by_cases hname : name = e.1
    · simp [hname]
    · simp [hname, eqv_of_ne (Ne.symm hname)]
  rw [setIndirectHost]
  cases m.get? e.2 with
  | none =>
    rw [SortedMap.get?_erase, heqv]
    by_cases hname : name = e.1
    · simp [hname]
    · simp [hname]
  | some s =>
    dsimp only
    rw [SortedMap.get?_modify, heqv]
    by_cases hname : name = e.1
    · subst hname
      cases m.get? e.1 <;> simp
    · simp [hname]

/-- One step of the pass. -/
theorem Passed.step {done rest : List (HMString × HMString)} {e : HMString × HMString}
    {m : HMDataHostGroupMap} (h : Passed refs groups done m)
    (hsplit : refs.entries = done ++ e :: rest) :
    Passed refs groups (done ++ [e]) (setIndirectHost m e) := by
  have hnew : e.1 ∉ done.map Prod.fst := by
    intro hold
    have hlt := (lt_of_split hsplit).1 e.1 hold
    simp [Ordered.weak.irrefl] at hlt
  obtain ⟨source, hsource, hcopy⟩ := h.mapped hsplit
  constructor
  · intro name hname
    rw [List.map_append, List.mem_append, not_or, List.map_singleton, List.mem_singleton] at hname
    rw [get?_setIndirectHost, if_neg hname.2, h.ahead name hname.1]
  · intro name hname
    rw [List.map_append, List.mem_append, List.map_singleton, List.mem_singleton] at hname
    by_cases hself : name = e.1
    · subst hself
      refine ⟨source, hsource, ?_⟩
      rw [get?_setIndirectHost, if_pos rfl, h.ahead e.1 hnew, passed]
      cases groups.get? e.1 with
      | none => rfl
      | some g => exact hcopy g
    · obtain ⟨source', hsource', hm⟩ := h.behind name (hname.resolve_right hself)
      exact ⟨source', hsource', by rw [get?_setIndirectHost, if_neg hself, hm]⟩

/-- The pass up to any reference. -/
theorem passed_foldl (groups : HMDataHostGroupMap) {done rest : List (HMString × HMString)}
    (hsplit : refs.entries = done ++ rest) :
    Passed refs groups done (done.foldl setIndirectHost groups) := by
  induction done using List.reverseRecOn generalizing rest with
  | nil => exact ⟨fun name _ => rfl, fun name hname => absurd hname List.not_mem_nil⟩
  | append_singleton done e ih =>
    rw [List.append_assoc, List.singleton_append] at hsplit
    rw [List.foldl_append, List.foldl_cons, List.foldl_nil]
    exact (ih hsplit).step hsplit

/-- The whole pass. -/
theorem get?_setIndirectHosts {name source : HMString} (h : CopiedFrom refs groups name source) :
    (setIndirectHosts refs groups).get? name = passed groups name source := by
  have hpass : Passed refs groups refs.entries (setIndirectHosts refs groups) :=
    passed_foldl groups (List.append_nil refs.entries).symm
  have hnamed : name ∈ refs.entries.map Prod.fst := by
    rw [mem_names_iff]
    cases h with
    | here hmapped _ => simp [hmapped]
    | next hmapped _ _ _ => simp [hmapped]
  obtain ⟨source', hsource', hm⟩ := hpass.behind name hnamed
  rw [hm, h.unique hsource']

/-- A name that is not an indirect group is left alone. -/
theorem get?_setIndirectHosts_of_not {name : HMString} (h : ¬ Indirect refs groups name) :
    (setIndirectHosts refs groups).get? name = groups.get? name := by
  have hpass : Passed refs groups refs.entries (setIndirectHosts refs groups) :=
    passed_foldl groups (List.append_nil refs.entries).symm
  by_cases hnamed : name ∈ refs.entries.map Prod.fst
  · obtain ⟨source, -, hm⟩ := hpass.behind name hnamed
    have hnone : groups.get? name = none := by
      rw [← Option.not_isSome_iff_eq_none]
      exact fun hsome => h ⟨mem_names_iff.mp hnamed, hsome⟩
    rw [hm, passed, hnone, Option.bind_none]
  · exact hpass.ahead name hnamed

theorem exists_copiedFrom (groups : HMDataHostGroupMap) {name : HMString}
    (h : (refs.get? name).isSome) :
    ∃ source, CopiedFrom refs groups name source := by
  have hpass : Passed refs groups refs.entries (setIndirectHosts refs groups) :=
    passed_foldl groups (List.append_nil refs.entries).symm
  obtain ⟨source, hsource, -⟩ := hpass.behind name (mem_names_iff.mpr h)
  exact ⟨source, hsource⟩

/-- The pass drops no missing group exactly when the references of missing groups lead to groups. -/
theorem neverErasesMissing_iff :
    NeverErasesMissing refs groups ↔ LooseReferencesLead refs groups := by
  have hstep : ∀ {done rest : List (HMString × HMString)} {e : HMString × HMString} {source},
      refs.entries = done ++ e :: rest → CopiedFrom refs groups e.1 source →
        (erasesMissing (done.foldl setIndirectHost groups) e = false ↔
          (groups.get? e.1 = none → (groups.get? source).isSome)) := by
    intro done rest e source hsplit hsource
    have hpass := passed_foldl groups hsplit
    have hnew : e.1 ∉ done.map Prod.fst := by
      intro hold
      have hlt := (lt_of_split hsplit).1 e.1 hold
      simp [Ordered.weak.irrefl] at hlt
    obtain ⟨source', hsource', hcopy⟩ := hpass.mapped hsplit
    obtain rfl := hsource.unique hsource'
    have hsome := congrArg Option.isSome (hcopy (.new []))
    rw [Option.isSome_map, Option.isSome_map] at hsome
    rw [erasesMissing, hpass.ahead e.1 hnew, Bool.and_eq_false_iff, ← hsome]
    cases groups.get? e.1 <;> simp
  constructor
  · intro h name source hnone hsource
    have hnamed : name ∈ refs.entries.map Prod.fst := by
      rw [mem_names_iff]
      cases hsource with
      | here hmapped _ => simp [hmapped]
      | next hmapped _ _ _ => simp [hmapped]
    rcases List.mem_map.mp hnamed with ⟨e, he, rfl⟩
    obtain ⟨done, rest, hsplit⟩ := List.append_of_mem he
    exact (hstep hsplit hsource).mp (h done e rest hsplit) hnone
  · intro h done e rest hsplit
    have hget : refs.get? e.1 = some e.2 := SortedMap.get?_of_mem (by simp [hsplit])
    have hnamed : (refs.get? e.1).isSome := by rw [hget, Option.isSome_some]
    obtain ⟨source, hsource⟩ := exists_copiedFrom groups hnamed
    exact (hstep hsplit hsource).mpr fun hnone => h e.1 source hnone hsource

/-- References from groups only, as the parser gives them, never drop a missing group. -/
theorem neverErasesMissing_of_named
    (h : ∀ name, (refs.get? name).isSome → (groups.get? name).isSome) :
    NeverErasesMissing refs groups := by
  intro done e rest hsplit
  have hget : refs.get? e.1 = some e.2 := SortedMap.get?_of_mem (by simp [hsplit])
  have hnew : e.1 ∉ done.map Prod.fst := fun hold => by
    simpa [Ordered.weak.irrefl] using (lt_of_split hsplit).1 e.1 hold
  have hthere := h e.1 (by rw [hget, Option.isSome_some])
  rw [erasesMissing, (passed_foldl groups hsplit).ahead e.1 hnew]
  cases hgroup : groups.get? e.1 with
  | none => simp [hgroup] at hthere
  | some g => simp

theorem ChainEnd.not_indirect {name target : HMString} (h : ChainEnd refs groups name target) :
    ¬ Indirect refs groups target := by
  induction h with
  | here hnot => exact hnot
  | next _ _ _ ih => exact ih

theorem ChainEnd.unique {name target target' : HMString} (h : ChainEnd refs groups name target)
    (h' : ChainEnd refs groups name target') : target = target' := by
  induction h with
  | here hnot =>
    cases h' with
    | here _ => rfl
    | next hindirect _ _ => exact absurd hindirect hnot
  | next hindirect hmapped _ ih =>
    cases h' with
    | here hnot => exact absurd hindirect hnot
    | next _ hmapped' htail =>
      obtain rfl := Option.some.inj (hmapped.symm.trans hmapped')
      exact ih htail

/-- When references only lead to indirect groups with smaller names, the parameters come from the
end of the references. -/
theorem CopiedFrom.eq_chainEnd {name target source : HMString}
    (hdescend : ∀ name mapped, refs.get? name = some mapped → Indirect refs groups mapped →
      Ordered.lt mapped name = true)
    (hsource : CopiedFrom refs groups name source) (hindirect : Indirect refs groups name)
    (hend : ChainEnd refs groups name target) : source = target := by
  induction hsource with
  | here hmapped hstop =>
    cases hend with
    | here hnot => exact absurd hindirect hnot
    | next _ hmapped' htail =>
      obtain rfl := Option.some.inj (hmapped.symm.trans hmapped')
      cases htail with
      | here _ => rfl
      | next hmiddle _ _ =>
        exact absurd (hdescend _ _ hmapped hmiddle) (by simp [hstop hmiddle])
  | next hmapped hmiddle _ _ ih =>
    cases hend with
    | here hnot => exact absurd hindirect hnot
    | next _ hmapped' htail =>
      obtain rfl := Option.some.inj (hmapped.symm.trans hmapped')
      exact ih hmiddle htail

end Pass

section Loaded

variable {flowType : FlowType} {params : HMConfigParams} {groups after : HMDataHostGroupMap}

/-- What is loaded is what the pass leaves, completed. -/
theorem get?_loaded (h : loadAllConfigs flowType params groups = some after) (name : HMString) :
    ∃ others, after.get? name = ((setIndirectHosts params.indirectHost
      (withRemoteChecks flowType params groups)).get? name).map (completed others) := by
  rw [loadAllConfigs_eq] at h
  dsimp only at h
  rw [completeGroups_eq (List.Perm.refl _)] at h
  split at h
  · obtain rfl := Option.some.inj h
    exact ⟨_, get?_completed _ name⟩
  · exact absurd h (by simp)

theorem getHostCheck_setDefaultPort (g : HMDataHostGroup) : g.setDefaultPort.getHostCheck =
    if g.checkType = .invalid then none
    else some { g.toHMDataHostCheck with port := g.setDefaultPort.port } := by
  rw [HMDataHostGroup.getHostCheck, HMDataHostGroup.setDefaultPort]
  by_cases hport : g.port = 0
  · by_cases hinvalid : g.checkType = .invalid <;> simp [hport, hinvalid]
  · by_cases hinvalid : g.checkType = .invalid <;> simp [hport, hinvalid]

theorem getCheckParameters_setDefaultPort (g : HMDataHostGroup) :
    g.setDefaultPort.getCheckParameters = g.getCheckParameters := by
  rw [HMDataHostGroup.setDefaultPort]
  split <;> rfl

/-- A group that took over the parameters of a source is checked like a target exactly when the source
has the parameters of the target, and the group itself the rest of its check. -/
theorem checked_like_iff (g s t : HMDataHostGroup) :
    (g.setHostGroupParameters s).setDefaultPort.getHostCheck = t.setDefaultPort.getHostCheck ∧
        (g.setHostGroupParameters s).getCheckParameters = t.getCheckParameters ↔
      SameCopied s t ∧ (t.checkType ≠ .invalid → SameUncopied g t) := by
  have hport : (g.setHostGroupParameters s).setDefaultPort.port = s.setDefaultPort.port := by
    by_cases hzero : s.port = 0 <;>
      simp [HMDataHostGroup.setDefaultPort, HMDataHostGroup.setHostGroupParameters, hzero]
  have htype : (g.setHostGroupParameters s).checkType = s.checkType := rfl
  rw [getHostCheck_setDefaultPort, getHostCheck_setDefaultPort, hport, htype]
  constructor
  · rintro ⟨hcheck, hparams⟩
    by_cases hs : s.checkType = .invalid
    · have ht : t.checkType = .invalid := by
        by_contra ht
        simp [hs, ht] at hcheck
      exact ⟨⟨hs.trans ht.symm, fun h => absurd ht h, hparams⟩, fun h => absurd ht h⟩
    · have ht : t.checkType ≠ .invalid := by
        intro ht
        simp [hs, ht] at hcheck
      rw [if_neg hs, if_neg ht, Option.some.injEq] at hcheck
      obtain ⟨htype, hport, hdual, hinfo, hremote, hfallback, hdns, hplugin, hremoteType, hsource,
        htos, hflow⟩ := HMDataHostCheck.mk.inj hcheck
      exact ⟨⟨htype, fun _ => ⟨hport, hdual, hinfo⟩, hparams⟩, fun _ =>
        ⟨hremote, hfallback, hdns, hplugin, hremoteType, hsource, htos, hflow⟩⟩
  · rintro ⟨hcopied, huncopied⟩
    refine ⟨?_, hcopied.params⟩
    rw [hcopied.checkType]
    by_cases ht : t.checkType = .invalid
    · rw [if_pos ht, if_pos ht]
    · obtain ⟨hport, hdual, hinfo⟩ := hcopied.check ht
      have hrest := huncopied ht
      rw [if_neg ht, if_neg ht]
      simp [HMDataHostGroup.setHostGroupParameters, hcopied.checkType, hport, hdual, hinfo,
        hrest.remoteCheck, hrest.distributedFallback, hrest.dnsType, hrest.checkPlugin,
        hrest.remoteCheckType, hrest.sourceAddress, hrest.tosValue, hrest.flowType]

/-- What loading leaves under the name of an indirect group, and under the end of its references. -/
theorem get?_loaded_of_end (h : loadAllConfigs flowType params groups = some after)
    {name target source : HMString}
    (hend : ChainEnd params.indirectHost (withRemoteChecks flowType params groups) name target)
    (hsource : CopiedFrom params.indirectHost (withRemoteChecks flowType params groups) name
      source) :
    (∃ others, after.get? name =
      (passed (withRemoteChecks flowType params groups) name source).map (completed others)) ∧
      ∃ others, after.get? target =
        ((withRemoteChecks flowType params groups).get? target).map (completed others) := by
  obtain ⟨others, hafter⟩ := get?_loaded h name
  obtain ⟨others', hafter'⟩ := get?_loaded h target
  rw [get?_setIndirectHosts hsource] at hafter
  rw [get?_setIndirectHosts_of_not hend.not_indirect] at hafter'
  exact ⟨⟨others, hafter⟩, others', hafter'⟩

/-- The hosts of the children do not enter into a check. -/
theorem completed_alike_iff (others others' : HMDataHostGroupMap) (g t : HMDataHostGroup) :
    ((completed others g).getHostCheck = (completed others' t).getHostCheck ∧
      (completed others g).getCheckParameters = (completed others' t).getCheckParameters) ↔
    g.setDefaultPort.getHostCheck = t.setDefaultPort.getHostCheck ∧
      g.getCheckParameters = t.getCheckParameters := by
  rw [← getCheckParameters_setDefaultPort g, ← getCheckParameters_setDefaultPort t]
  exact Iff.rfl

/-- Every indirect group is checked like the end of its references, or gone with it, exactly when
what is copied to it suffices. -/
theorem resolved_iff (h : loadAllConfigs flowType params groups = some after) :
    Resolved params.indirectHost (withRemoteChecks flowType params groups) after ↔
      CopiesSuffice params.indirectHost (withRemoteChecks flowType params groups) := by
  have hname := fun name target source => @get?_loaded_of_end _ _ _ _ h name target source
  generalize withRemoteChecks flowType params groups = before at hname ⊢
  constructor
  · intro hresolved name target source hindirect hend hsource
    obtain ⟨⟨others, hn⟩, others', ht⟩ := hname name target source hend hsource
    obtain ⟨hthere, hmissing⟩ := hresolved name target hindirect hend
    constructor
    · intro t hbefore
      obtain ⟨g', t', hg', ht', hcheck⟩ := hthere (by simp [hbefore])
      rw [ht, hbefore, Option.map_some] at ht'
      obtain rfl := Option.some.inj ht'
      rw [hn, passed] at hg'
      rcases Option.map_eq_some_iff.mp hg' with ⟨g₁, hpassed, rfl⟩
      rcases Option.bind_eq_some_iff.mp hpassed with ⟨g, hg, hcopy⟩
      rcases Option.map_eq_some_iff.mp hcopy with ⟨s, hs, rfl⟩
      exact ⟨g, s, hg, hs, (checked_like_iff g s t).mp ((completed_alike_iff _ _ _ _).mp hcheck)⟩
    · intro hnone
      rcases Option.isSome_iff_exists.mp hindirect.2 with ⟨g, hg⟩
      have hgone := hmissing hnone
      rw [hn, passed, hg, Option.bind_some, Option.map_eq_none_iff, Option.map_eq_none_iff] at hgone
      exact hgone
  · intro hsuffice name target hindirect hend
    obtain ⟨source, hsource⟩ := exists_copiedFrom before hindirect.1
    obtain ⟨⟨others, hn⟩, others', ht⟩ := hname name target source hend hsource
    obtain ⟨hthere, hmissing⟩ := hsuffice name target source hindirect hend hsource
    constructor
    · intro hsome
      rcases Option.isSome_iff_exists.mp hsome with ⟨t, hbefore⟩
      obtain ⟨g, s, hg, hs, hsame⟩ := hthere t hbefore
      rw [passed, hg, Option.bind_some, hs, Option.map_some, Option.map_some] at hn
      rw [hbefore, Option.map_some] at ht
      exact ⟨_, _, hn, ht, (completed_alike_iff _ _ _ _).mpr ((checked_like_iff g s t).mpr hsame)⟩
    · intro hnone
      rw [hn, passed, hmissing hnone]
      cases before.get? name <;> rfl

/-- The indirect hosts are resolved as they should be, for any names and references, exactly when
references from missing groups lead to groups, and what is copied suffices. -/
theorem indirect_hosts_iff (flowType : FlowType) (params : HMConfigParams)
    (groups : HMDataHostGroupMap) :
    (NeverErasesMissing params.indirectHost (withRemoteChecks flowType params groups) ↔
      LooseReferencesLead params.indirectHost (withRemoteChecks flowType params groups)) ∧
    ∀ after, loadAllConfigs flowType params groups = some after →
      (Resolved params.indirectHost (withRemoteChecks flowType params groups) after ↔
        CopiesSuffice params.indirectHost (withRemoteChecks flowType params groups)) :=
  ⟨neverErasesMissing_iff, fun _ hload => resolved_iff hload⟩

/-- With such names only the fields that are not copied matter. -/
theorem copiesSuffice_of_descending {refs : SortedMap HMString HMString}
    (hdescend : ∀ name mapped, refs.get? name = some mapped → Indirect refs groups mapped →
      Ordered.lt mapped name = true)
    (hrest : ∀ name target g t, Indirect refs groups name → ChainEnd refs groups name target →
      groups.get? name = some g → groups.get? target = some t → SameUncopied g t) :
    CopiesSuffice refs groups := by
  intro name target source hindirect hend hsource
  obtain rfl := hsource.eq_chainEnd hdescend hindirect hend
  refine ⟨?_, fun hnone => hnone⟩
  intro t ht
  rcases Option.isSome_iff_exists.mp hindirect.2 with ⟨g, hg⟩
  exact ⟨g, t, hg, ht, ⟨rfl, fun _ => ⟨rfl, rfl, rfl⟩, rfl⟩, fun _ =>
    hrest name source g t hindirect hend hg ht⟩

end Loaded

/-- The group "alias" stands for the group "web". -/
def aliasGroups (tosValue : UInt8) : HMDataHostGroupMap :=
  ((∅ : HMDataHostGroupMap).set (bytes "alias")
    { HMDataHostGroup.new (bytes "alias") with checkInfo := bytes "web" }).set (bytes "web")
    { HMDataHostGroup.new (bytes "web") with checkType := .http, tosValue := tosValue }

def aliasRefs : SortedMap HMString HMString := SortedMap.insert ∅ (bytes "alias") (bytes "web")

def aliasParams : HMConfigParams := { HMConfigParams.default with indirectHost := aliasRefs }

theorem alias_chainEnd (tosValue : UInt8) : ChainEnd aliasRefs
    (withRemoteChecks .dnsHealth aliasParams (aliasGroups tosValue)) (bytes "alias")
      (bytes "web") := by
  have hnot : ¬ Indirect aliasRefs (withRemoteChecks .dnsHealth aliasParams (aliasGroups tosValue))
      (bytes "web") := fun hindirect => absurd hindirect.1 (by decide)
  exact .next ⟨by decide, rfl⟩ (by decide) (.here hnot)

theorem plain_alias_resolved : ∃ after,
    loadAllConfigs .dnsHealth aliasParams (aliasGroups 0) = some after ∧
      Resolved aliasRefs (withRemoteChecks .dnsHealth aliasParams (aliasGroups 0)) after := by
  refine ⟨(loadAllConfigs .dnsHealth aliasParams (aliasGroups 0)).getD ∅, by decide, ?_⟩
  refine ((indirect_hosts_iff .dnsHealth aliasParams (aliasGroups 0)).2 _ (by decide)).mpr ?_
  have honly : ∀ name, (aliasRefs.get? name).isSome → name = bytes "alias" := by
    intro name hsome
    have hmem := mem_names_iff.mpr hsome
    exact List.mem_singleton.mp hmem
  apply copiesSuffice_of_descending
  · intro name mapped hmapped hindirect
    obtain rfl := honly name (Option.isSome_iff_exists.mpr ⟨mapped, hmapped⟩)
    obtain rfl := honly mapped hindirect.1
    exact absurd hmapped (by decide)
  · intro name target g t hindirect hend hg ht
    obtain rfl := honly name hindirect.1
    obtain rfl := hend.unique (alias_chainEnd 0)
    obtain rfl := Option.some.inj (hg.symm.trans rfl)
    obtain rfl := Option.some.inj (ht.symm.trans rfl)
    exact ⟨by decide, by decide, by decide, by decide, by decide, by decide, by decide, by decide⟩

/-- The packets to "web" are marked, and those of the alias are not. -/
theorem alias_keeps_own_tos : ∃ after,
    loadAllConfigs .dnsHealth aliasParams (aliasGroups 8) = some after ∧
      ¬ Resolved aliasRefs (withRemoteChecks .dnsHealth aliasParams (aliasGroups 8)) after := by
  refine ⟨(loadAllConfigs .dnsHealth aliasParams (aliasGroups 8)).getD ∅, by decide, ?_⟩
  intro h
  obtain ⟨g, t, hg, ht, hcheck, -⟩ := (h (bytes "alias") (bytes "web") ⟨by decide, by decide⟩
    (alias_chainEnd 8)).1 (by decide)
  have hdiffer : (((loadAllConfigs .dnsHealth aliasParams (aliasGroups 8)).getD ∅).get?
      (bytes "alias")).map HMDataHostGroup.getHostCheck ≠
        (((loadAllConfigs .dnsHealth aliasParams (aliasGroups 8)).getD ∅).get?
          (bytes "web")).map HMDataHostGroup.getHostCheck := by decide
  rw [hg, ht, Option.map_some, Option.map_some, hcheck] at hdiffer
  exact hdiffer rfl

/-- The group "a" stands for "b", which stands for a group that is missing. When "a" is resolved, "b"
is still there. -/
example : ((loadAllConfigs .dnsHealth { HMConfigParams.default with
      indirectHost := (SortedMap.insert ∅ (bytes "a") (bytes "b")).insert (bytes "b") (bytes "c") }
    (((∅ : HMDataHostGroupMap).set (bytes "a") (.new (bytes "a"))).set (bytes "b")
      (.new (bytes "b")))).getD ∅).keys = [bytes "a"] := by decide

end IndirectHosts
