import NetCHASM.YamlConfig

/-! The order of the keys in a host group. Most keys set a field that no other key sets. The check
type, the port and the check info are set by several keys, which default or override what others
have set before them. -/
namespace YamlKeyOrder

open NetCHASM KeyOrder OrderedMap Decimal

/-- The fields of a group that a single key sets or adds to. -/
inductive FieldUpdate where
  | hosts (names : List HMString)
  | hostGroups (names : List HMString)
  | dualstack (mode : DualStack)
  | numCheckRetries (n : UInt8)
  | checkRetryDelay (n : UInt32)
  | checkTimeout (n : UInt64)
  | checkTTL (n : UInt64)
  | groupThreshold (n : UInt32)
  | smoothingWindow (n : UInt32)
  | flapThreshold (n : UInt32)
  | maxFlaps (n : UInt32)
  | slowThreshold (n : UInt32)
  | sourceAddress (address : HMIPAddress)
  | tosValue (n : UInt8)
  | dnsType (type : DnsType)
  | flowType (type : FlowType)
  deriving DecidableEq

namespace FieldUpdate

def key : FieldUpdate → GroupKey
  | .hosts _ => .host
  | .hostGroups _ => .hostGroup
  | .dualstack _ => .dualStackMode
  | .numCheckRetries _ => .checkRetries
  | .checkRetryDelay _ => .checkRetryDelay
  | .checkTimeout _ => .timeout
  | .checkTTL _ => .ttl
  | .groupThreshold _ => .groupThreshold
  | .smoothingWindow _ => .smoothingWindow
  | .flapThreshold _ => .flapThreshold
  | .maxFlaps _ => .maxFlaps
  | .slowThreshold _ => .slowThreshold
  | .sourceAddress _ => .sourceAddress
  | .tosValue _ => .tosValue
  | .dnsType _ => .dnsType
  | .flowType _ => .flowType

def apply (g : HMDataHostGroup) : FieldUpdate → HMDataHostGroup
  | .hosts names => { g with hosts := names.foldl HMDataHostGroup.appendNew g.hosts }
  | .hostGroups names =>
    { g with hostGroups := names.foldl HMDataHostGroup.appendNew g.hostGroups }
  | .dualstack mode => { g with dualstack := mode }
  | .numCheckRetries n => { g with numCheckRetries := n }
  | .checkRetryDelay n => { g with checkRetryDelay := n }
  | .checkTimeout n => { g with checkTimeout := n }
  | .checkTTL n => { g with checkTTL := n }
  | .groupThreshold n => { g with groupThreshold := n }
  | .smoothingWindow n => { g with smoothingWindow := n }
  | .flapThreshold n => { g with flapThreshold := n }
  | .maxFlaps n => { g with maxFlaps := n }
  | .slowThreshold n => { g with slowThreshold := n }
  | .sourceAddress address => { g with sourceAddress := address }
  | .tosValue n => { g with tosValue := n }
  | .dnsType type => { g with dnsType := type }
  | .flowType type => { g with flowType := type }

end FieldUpdate

/-- What a key does once its value has been read. -/
inductive Update where
  | nothing
  | fail
  | field (f : FieldUpdate)
  | mode (m : MeasurementOptions)
  | lastMode
  | remoteFallback
  | localFallback (on : Bool)
  | indirect
  | checkType (type : CheckType × Option UInt16)
  | port (n : UInt16)
  | uri (val : HMString)
  | checkInfo (val : HMString)
  deriving DecidableEq

namespace Update

/-- The key that makes an update, unless any key can. -/
def key : Update → Option GroupKey
  | .nothing | .fail => none
  | .field f => some f.key
  | .mode _ | .lastMode => some .rtMode
  | .remoteFallback => some .remoteFallback
  | .localFallback _ => some .localFallback
  | .indirect | .checkType _ => some .checkType
  | .port _ => some .checkPort
  | .uri _ => some .uri
  | .checkInfo _ => some .checkInfo

def apply (p : GroupParse) : Update → GroupParse
  | .nothing => p
  | .fail => p.error
  | .field f => { p with group := f.apply p.group }
  | .mode m => { p with temp := m, group := { p.group with measurementOptions := m } }
  | .lastMode => { p.error with group := { p.group with measurementOptions := p.temp } }
  | .remoteFallback =>
    { p with group := { p.group with distributedFallback := p.group.distributedFallback.or .remote } }
  | .localFallback on =>
    { p with
      group := { p.group with
        distributedFallback :=
          if on then p.group.distributedFallback.or .local
          else p.group.distributedFallback.without .local } }
  | .indirect =>
    { p with indirectHost := p.indirectHost.insert p.group.groupName p.group.checkInfo }
  | .checkType type => { p with group := GroupParse.setCheckType p.group type }
  | .port n => { p with group := { p.group with port := n } }
  | .uri val =>
    GroupParse.setCheckInfo { p with group := GroupParse.setCheckType p.group (.http, some 80) } val
  | .checkInfo val => p.setCheckInfo val

end Update

/-- A value that was found in a table, or an error. -/
def orFail {α : Type} (update : α → Update) (value : Option α) : Update := value.elim .fail update

variable (parseAddress : HMString → Option HMIPAddress)

/-- The value of a key does not depend on what has been read before. -/
def readKey (pair : HMString × YamlNode) : Option Update :=
  let val := pair.2.text
  match GroupKey.ofText pair.1 with
  | none => some .fail
  | some .rtMode => some ((rtModes.lookup val).elim .lastMode .mode)
  | some .host => pair.2.texts.map fun names => .field (.hosts names)
  | some .hostGroup => pair.2.texts.map fun names => .field (.hostGroups names)
  | some .dualStackMode => some (orFail (fun m => .field (.dualstack m)) (dualStackModes.lookup val))
  | some .checkType =>
    if val = bytes "indirect-host" then some .indirect
    else some (orFail .checkType (checkTypes.lookup val))
  | some .checkPort =>
    if 0 ≤ atoi val && atoi val ≤ 65535 then some (.port (.ofInt (atoi val))) else some .fail
  | some .uri => some (.uri val)
  | some .checkInfo => some (.checkInfo val)
  | some .checkRetries => some (.field (.numCheckRetries (.ofInt (atoi val))))
  | some .checkRetryDelay => some (.field (.checkRetryDelay (.ofInt (atoi val))))
  | some .timeout => some (.field (.checkTimeout (.ofInt (atoi val))))
  | some .ttl => some (.field (.checkTTL (.ofInt (atoi val))))
  | some .groupThreshold => some (.field (.groupThreshold (.ofInt (atoi val))))
  | some .smoothingWindow => some (.field (.smoothingWindow (.ofInt (atoi val))))
  | some .flapThreshold => some (.field (.flapThreshold (.ofInt ((atoi val).tdiv 1000))))
  | some .maxFlaps => some (.field (.maxFlaps (.ofInt (atoi val))))
  | some .slowThreshold => some (.field (.slowThreshold (.ofInt (atoi val))))
  | some .remoteFallback =>
    if val = bytes "on" ∨ val = bytes "off" then some .remoteFallback else some .fail
  | some .localFallback =>
    if val = bytes "on" then some (.localFallback true)
    else if val = bytes "off" then some (.localFallback false) else some .fail
  | some .sourceAddress => some (orFail (fun a => .field (.sourceAddress a)) (parseAddress val))
  | some .tosValue =>
    if GroupParse.tos val ≤ 255 then some (.field (.tosValue (.ofInt (GroupParse.tos val))))
    else some .fail
  | some .dnsType => some (orFail (fun t => .field (.dnsType t)) (dnsTypes.lookup val))
  | some .flowType => some (orFail (fun t => .field (.flowType t)) (flowTypes.lookup val))
  | some .name | some .connCheckInterval | some .errorTtl | some .failureResponse
  | some .allowHosts | some .authDomain => some .nothing

/-- Reading a key is reading its value, and then updating the group. -/
theorem setKey_eq (p : GroupParse) (pair : HMString × YamlNode) :
    p.setKey parseAddress pair = (readKey parseAddress pair).map (Update.apply p) := by
  cases hkey : GroupKey.ofText pair.1 with
  | none => simp only [GroupParse.setKey, readKey, hkey]; rfl
  | some key =>
    simp only [GroupParse.setKey, readKey, hkey]
    cases key with
    | rtMode =>
      rw [GroupParse.setRtMode]
      cases rtModes.lookup pair.2.text <;> rfl
    | host =>
      cases pair.2.texts with
      | none => rfl
      | some names =>
        simp only [Option.bind_some, HMDataHostGroup.foldl_addHost]
        rfl
    | hostGroup =>
      cases pair.2.texts with
      | none => rfl
      | some names =>
        simp only [Option.bind_some, HMDataHostGroup.foldl_addHostGroup]
        rfl
    | dualStackMode => cases dualStackModes.lookup pair.2.text <;> rfl
    | checkType =>
      dsimp only
      split
      · rfl
      · cases checkTypes.lookup pair.2.text <;> rfl
    | checkPort =>
      dsimp only
      rw [GroupParse.setPort]
      split <;> rfl
    | remoteFallback =>
      rw [GroupParse.setFallback]
      by_cases hon : pair.2.text = bytes "on"
      · simp only [hon, if_true, true_or]
        rfl
      · by_cases hoff : pair.2.text = bytes "off"
        · simp only [hoff, if_true, or_true]
          split <;> rfl
        · simp only [hon, hoff, if_false, or_self]
          rfl
    | localFallback =>
      dsimp only
      rw [GroupParse.setFallback]
      split
      · rfl
      · split <;> rfl
    | sourceAddress => cases parseAddress pair.2.text <;> rfl
    | tosValue =>
      dsimp only
      rw [GroupParse.setTOSValue]
      split <;> rfl
    | dnsType => cases dnsTypes.lookup pair.2.text <;> rfl
    | flowType => cases flowTypes.lookup pair.2.text <;> rfl
    | _ => rfl

section Commute

/-- The first update sets what the second one defaults or overrides. -/
def Conflicts : Update → Update → Prop
  | .uri _, .checkType type => type ≠ (.http, some 80)
  | .uri val, .checkInfo val' => val ≠ val'
  | .port n, .checkType type => n = 0 ∧ type.2 ≠ none
  | .port n, .uri _ => n = 0
  | _, _ => False

theorem insert_modify (m : SortedMap HMString HMString) (k c val : HMString) :
    (m.insert k c).modify k (fun _ => val) = (m.modify k fun _ => val).insert k val := by
  apply SortedMap.ext_get?
  intro k'
  rw [SortedMap.get?_modify, SortedMap.get?_insert, SortedMap.get?_insert, SortedMap.get?_modify,
    SortedMap.get?_modify]
  by_cases hk : eqv k k' = true
  · obtain rfl := eqv_iff_eq.mp hk
    cases m.get? k <;> simp
  · simp [hk]

variable (p : GroupParse)

theorem fieldUpdate_comm (g : HMDataHostGroup) {f f' : FieldUpdate} (h : f.key ≠ f'.key) :
    FieldUpdate.apply (FieldUpdate.apply g f) f' =
      FieldUpdate.apply (FieldUpdate.apply g f') f := by
  cases f <;> cases f' <;> first | rfl | exact absurd rfl h

/-- A field that one key sets is left alone by the others, which do not look at it. -/
theorem field_comm {f : FieldUpdate} {u : Update} (h : u.key ≠ some f.key) :
    Update.apply (Update.apply p (.field f)) u = Update.apply (Update.apply p u) (.field f) := by
  cases u with
  | field f' =>
    have hcomm := fieldUpdate_comm p.group fun heq => h (congrArg some heq.symm)
    exact congrArg (fun g => { p with group := g }) hcomm
  | _ => cases f <;> rfl

theorem fallback_comm (on : Bool) :
    Update.apply (Update.apply p .remoteFallback) (.localFallback on) =
      Update.apply (Update.apply p (.localFallback on)) .remoteFallback := by
  have hcomm : ∀ f : DistributedFallback, (f.or .remote).or .local = (f.or .local).or .remote ∧
      (f.or .remote).without .local = (f.without .local).or .remote := by
    intro f
    cases f <;> decide
  obtain ⟨hor, hwithout⟩ := hcomm p.group.distributedFallback
  cases on
  · simp only [Update.apply, hwithout, Bool.false_eq_true, if_false]
  · simp only [Update.apply, hor, if_true]

/-- An indirect host that comes before its check info is given it later. -/
theorem indirect_comm_checkInfo (val : HMString) :
    Update.apply (Update.apply p .indirect) (.checkInfo val) =
      Update.apply (Update.apply p (.checkInfo val)) .indirect := by
  simp only [Update.apply, GroupParse.setCheckInfo]
  rw [insert_modify]

theorem indirect_comm_uri (val : HMString) :
    Update.apply (Update.apply p .indirect) (.uri val) =
      Update.apply (Update.apply p (.uri val)) .indirect := by
  simp only [Update.apply, GroupParse.setCheckInfo, GroupParse.setCheckType]
  rw [insert_modify]
  rfl

theorem port_comm_checkType {n : UInt16} {type : CheckType × Option UInt16}
    (h : ¬ (n = 0 ∧ type.2 ≠ none)) :
    Update.apply (Update.apply p (.port n)) (.checkType type) =
      Update.apply (Update.apply p (.checkType type)) (.port n) := by
  simp only [Update.apply, GroupParse.setCheckType]
  by_cases hn : n = 0
  · have htype : type.2 = none := by
      by_contra htype
      exact h ⟨hn, htype⟩
    simp [hn, htype]
  · simp [hn]

theorem port_comm_uri {n : UInt16} (h : n ≠ 0) (val : HMString) :
    Update.apply (Update.apply p (.port n)) (.uri val) =
      Update.apply (Update.apply p (.uri val)) (.port n) := by
  simp [Update.apply, GroupParse.setCheckType, GroupParse.setCheckInfo, h]

theorem uri_comm_checkType (val : HMString) :
    Update.apply (Update.apply p (.uri val)) (.checkType (.http, some 80)) =
      Update.apply (Update.apply p (.checkType (.http, some 80))) (.uri val) := rfl

/-- Updates of different keys that do not conflict can be made in either order. -/
theorem apply_comm {u v : Update} (hkey : ∀ k, u.key = some k → v.key ≠ some k)
    (huv : ¬ Conflicts u v) (hvu : ¬ Conflicts v u) :
    Update.apply (Update.apply p u) v = Update.apply (Update.apply p v) u := by
  cases v with
  | field f => exact (field_comm p fun h => hkey f.key h rfl).symm
  | nothing | fail => cases u <;> rfl
  | mode | lastMode =>
    cases u with
    | field f => exact field_comm p (hkey f.key rfl)
    | mode | lastMode => exact absurd rfl (hkey .rtMode rfl)
    | _ => rfl
  | remoteFallback =>
    cases u with
    | field f => exact field_comm p (hkey f.key rfl)
    | localFallback on => exact (fallback_comm p on).symm
    | _ => rfl
  | localFallback on =>
    cases u with
    | field f => exact field_comm p (hkey f.key rfl)
    | remoteFallback => exact fallback_comm p on
    | localFallback => exact absurd rfl (hkey .localFallback rfl)
    | _ => rfl
  | indirect =>
    cases u with
    | field f => exact field_comm p (hkey f.key rfl)
    | uri val => exact (indirect_comm_uri p val).symm
    | checkInfo val => exact (indirect_comm_checkInfo p val).symm
    | _ => rfl
  | checkType type =>
    cases u with
    | field f => exact field_comm p (hkey f.key rfl)
    | checkType => exact absurd rfl (hkey .checkType rfl)
    | port n => exact port_comm_checkType p huv
    | uri val =>
      obtain rfl : type = (.http, some 80) := not_not.mp huv
      exact uri_comm_checkType p val
    | _ => rfl
  | port n =>
    cases u with
    | field f => exact field_comm p (hkey f.key rfl)
    | checkType type => exact (port_comm_checkType p hvu).symm
    | port => exact absurd rfl (hkey .checkPort rfl)
    | uri val => exact (port_comm_uri p hvu val).symm
    | _ => rfl
  | uri val =>
    cases u with
    | field f => exact field_comm p (hkey f.key rfl)
    | indirect => exact indirect_comm_uri p val
    | checkType type =>
      obtain rfl : type = (.http, some 80) := not_not.mp hvu
      exact (uri_comm_checkType p val).symm
    | port n => exact port_comm_uri p huv val
    | uri => exact absurd rfl (hkey .uri rfl)
    | checkInfo val' =>
      obtain rfl : val = val' := not_not.mp hvu
      rfl
    | _ => rfl
  | checkInfo val =>
    cases u with
    | field f => exact field_comm p (hkey f.key rfl)
    | indirect => exact indirect_comm_checkInfo p val
    | uri val' =>
      obtain rfl : val' = val := not_not.mp huv
      rfl
    | checkInfo => exact absurd rfl (hkey .checkInfo rfl)
    | _ => rfl

end Commute

section Keys

variable {pair a b : HMString × YamlNode} {pairs pairs' : List (HMString × YamlNode)}

theorem key_orFail {α : Type} {update : α → Update} {k : GroupKey}
    (h : ∀ a, (update a).key = some k) (value : Option α) :
    (orFail update value).key = none ∨ (orFail update value).key = some k := by
  cases value with
  | none => exact Or.inl rfl
  | some a => exact Or.inr (h a)

/-- An update is made by its own key. -/
theorem key_readKey {u : Update} {k : GroupKey} (h : readKey parseAddress pair = some u)
    (hkey : u.key = some k) : pair.1 = k.text := by
  have hown : u.key = none ∨ u.key = GroupKey.ofText pair.1 := by
    cases hof : GroupKey.ofText pair.1 with
    | none =>
      simp only [readKey, hof] at h
      obtain rfl := Option.some.inj h
      exact Or.inl rfl
    | some key =>
      simp only [readKey, hof] at h
      cases key with
      | rtMode =>
        obtain rfl := Option.some.inj h
        cases rtModes.lookup pair.2.text <;> exact Or.inr rfl
      | host | hostGroup =>
        rcases Option.map_eq_some_iff.mp h with ⟨names, -, rfl⟩
        exact Or.inr rfl
      | dualStackMode | sourceAddress | dnsType | flowType =>
        obtain rfl := Option.some.inj h
        exact key_orFail (fun _ => rfl) _
      | checkType =>
        dsimp only at h
        split at h <;> obtain rfl := Option.some.inj h
        · exact Or.inr rfl
        · exact key_orFail (fun _ => rfl) _
      | checkPort | remoteFallback | tosValue =>
        dsimp only at h
        split at h <;> obtain rfl := Option.some.inj h
        · exact Or.inr rfl
        · exact Or.inl rfl
      | localFallback =>
        dsimp only at h
        split at h
        · obtain rfl := Option.some.inj h
          exact Or.inr rfl
        · split at h <;> obtain rfl := Option.some.inj h
          · exact Or.inr rfl
          · exact Or.inl rfl
      | name | connCheckInterval | errorTtl | failureResponse | allowHosts | authDomain =>
        obtain rfl := Option.some.inj h
        exact Or.inl rfl
      | _ =>
        obtain rfl := Option.some.inj h
        exact Or.inr rfl
  rw [hkey] at hown
  exact GroupKey.ofText_eq_some_iff.mp (hown.resolve_left (by simp)).symm

/-- No two keys of a group conflict. -/
def OrderFree (pairs : List (HMString × YamlNode)) : Prop :=
  ∀ a ∈ pairs, ∀ b ∈ pairs, ∀ u v, readKey parseAddress a = some u →
    readKey parseAddress b = some v → ¬ Conflicts u v

theorem foldlM_eq_foldl {α β : Type} (f : β → α → Option β) (l : List α) (z : Option β) :
    (z.bind fun p => l.foldlM f p) = l.foldl (fun z a => z.bind fun p => f p a) z := by
  induction l generalizing z with
  | nil => cases z <;> rfl
  | cons a l ih =>
    rw [List.foldl_cons, ← ih, Option.bind_assoc]
    rfl

/-- The keys of a group can be read in any order when they do not conflict. -/
theorem setKeys_perm (hperm : pairs.Perm pairs') (hkeys : (pairs.map Prod.fst).Nodup)
    (hfree : OrderFree parseAddress pairs) (p : GroupParse) :
    pairs.foldlM (GroupParse.setKey parseAddress) p =
      pairs'.foldlM (GroupParse.setKey parseAddress) p := by
  have hstep : ∀ a ∈ pairs, ∀ b ∈ pairs, ∀ z : Option GroupParse,
      ((z.bind fun p => p.setKey parseAddress a).bind fun p => p.setKey parseAddress b) =
        (z.bind fun p => p.setKey parseAddress b).bind fun p => p.setKey parseAddress a := by
    intro a ha b hb z
    by_cases hab : a.1 = b.1
    · rw [List.inj_on_of_nodup_map hkeys ha hb hab]
    · cases z with
      | none => rfl
      | some p =>
        simp only [Option.bind_some, setKey_eq]
        cases hu : readKey parseAddress a with
        | none => cases readKey parseAddress b <;> rfl
        | some u =>
          cases hv : readKey parseAddress b with
          | none => rfl
          | some v =>
            have hdiffer : ∀ k, u.key = some k → v.key ≠ some k := fun k huk hvk =>
              hab ((key_readKey parseAddress hu huk).trans (key_readKey parseAddress hv hvk).symm)
            exact congrArg some (apply_comm p hdiffer (hfree a ha b hb u v hu hv)
              (hfree b hb a ha v u hv hu))
  have hrun := hperm.foldl_eq' (f := fun z a => z.bind fun p => p.setKey parseAddress a) hstep (some p)
  rw [← foldlM_eq_foldl, ← foldlM_eq_foldl] at hrun
  exact hrun

/-- A check type that is set is one of the table. -/
theorem checkType_of_readKey {type : CheckType × Option UInt16}
    (h : readKey parseAddress pair = some (.checkType type)) :
    (type.1 = .http → type = (.http, some 80)) ∧ type.2 ≠ some 0 := by
  have htable : ∀ e ∈ checkTypes, (e.2.1 = .http → e.2 = (.http, some 80)) ∧ e.2.2 ≠ some 0 := by
    decide
  have hkey := GroupKey.ofText_eq_some_iff.mpr (key_readKey parseAddress h rfl)
  simp only [readKey, hkey] at h
  split at h
  · cases h
  · cases hfound : checkTypes.lookup pair.2.text with
    | none =>
      rw [hfound] at h
      cases h
    | some found =>
      rw [hfound] at h
      obtain rfl : found = type := by simpa [orFail] using h
      rcases List.lookup_eq_some_iff.mp hfound with ⟨before, after, htypes, -⟩
      exact htable (pair.2.text, found) (by rw [htypes]; simp)

/-- Conflicting keys leave different groups behind when they come last, in either order. -/
theorem group_differs {u v : Update} (p : GroupParse) (hu : readKey parseAddress a = some u)
    (hv : readKey parseAddress b = some v) (h : Conflicts u v) :
    (Update.apply (Update.apply p u) v).group ≠ (Update.apply (Update.apply p v) u).group := by
  intro heq
  cases u with
  | uri val =>
    cases v with
    | checkType type =>
      have htype : type.1 = .http := congrArg (fun g : HMDataHostGroup => g.checkType) heq
      exact h ((checkType_of_readKey parseAddress hv).1 htype)
    | checkInfo val' =>
      have hinfo : val' = val := congrArg (fun g : HMDataHostGroup => g.checkInfo) heq
      exact h hinfo.symm
    | _ => exact h
  | port n =>
    cases v with
    | checkType type =>
      rcases h with ⟨rfl, htype⟩
      rcases Option.ne_none_iff_exists'.mp htype with ⟨d, hd⟩
      have hport : d = 0 := by
        simpa [Update.apply, GroupParse.setCheckType, hd] using
          congrArg (fun g : HMDataHostGroup => g.port) heq
      exact (checkType_of_readKey parseAddress hv).2 (hd.trans (congrArg some hport))
    | uri val =>
      obtain rfl : n = 0 := h
      have hport := congrArg (fun g : HMDataHostGroup => g.port) heq
      simp [Update.apply, GroupParse.setCheckType, GroupParse.setCheckInfo] at hport
    | _ => exact h
  | _ => exact h

/-- Two members of a list can be moved to its end, in either order. -/
theorem exists_perm_last {α : Type} {l : List α} {a b : α} (ha : a ∈ l) (hb : b ∈ l)
    (hne : a ≠ b) : ∃ rest, l.Perm (rest ++ [a, b]) ∧ l.Perm (rest ++ [b, a]) := by
  obtain ⟨s, t, rfl⟩ := List.append_of_mem ha
  have hmem : b ∈ s ++ t := by
    rcases List.mem_append.mp hb with hb | hb
    · exact List.mem_append_left t hb
    · exact List.mem_append_right s ((List.mem_cons.mp hb).resolve_left hne.symm)
  obtain ⟨s', t', hsplit⟩ := List.append_of_mem hmem
  have hperm : (s ++ a :: t).Perm ((s' ++ t') ++ [a, b]) := by
    refine List.perm_middle.trans ?_
    rw [hsplit]
    refine (List.perm_middle.cons a).trans ?_
    exact @List.perm_append_comm _ [a, b] _
  exact ⟨s' ++ t', hperm, hperm.trans ((List.Perm.swap b a []).append_left _)⟩

end Keys

section Nodes

/-- The name of a node that describes a group. -/
def groupName? (pairs : List (HMString × YamlNode)) : Option HMString :=
  if (pairs.lookup (bytes "master-check-mode")).isSome ||
      (pairs.lookup (bytes "master-check-domain")).isSome then none
  else (pairs.lookup (bytes "name")).map YamlNode.text

/-- The groups that the parser comes to; a node that is not a map ends the file. -/
def groupNodes : List YamlNode → List (HMString × List (HMString × YamlNode))
  | .map pairs :: nodes =>
    match groupName? pairs with
    | some name => (name, pairs) :: groupNodes nodes
    | none => groupNodes nodes
  | _ => []

/-- A node with its keys in another order, if it describes a group. -/
inductive Reordered : YamlNode → YamlNode → Prop where
  | same (node : YamlNode) : Reordered node node
  | group {name : HMString} {pairs pairs' : List (HMString × YamlNode)} :
      groupName? pairs = some name → pairs.Perm pairs' → Reordered (.map pairs) (.map pairs')

variable {pairs pairs' : List (HMString × YamlNode)} {name : HMString}

theorem lookup_eq_some_iff (hkeys : (pairs.map Prod.fst).Nodup) {s : HMString} {node : YamlNode} :
    pairs.lookup s = some node ↔ (s, node) ∈ pairs := by
  rw [List.lookup_eq_some_iff]
  constructor
  · rintro ⟨before, after, rfl, -⟩
    exact List.mem_append_right before List.mem_cons_self
  · intro hmem
    obtain ⟨before, after, rfl⟩ := List.append_of_mem hmem
    refine ⟨before, after, rfl, ?_⟩
    intro e he
    rw [List.map_append, List.nodup_append] at hkeys
    have hne : e.1 ≠ s := hkeys.2.2 e.1 (List.mem_map_of_mem he) s (by simp)
    simpa using hne.symm

theorem lookup_perm (hkeys : (pairs.map Prod.fst).Nodup) (hperm : pairs.Perm pairs') (s : HMString) :
    pairs.lookup s = pairs'.lookup s := by
  apply Option.ext
  intro node
  rw [lookup_eq_some_iff hkeys, lookup_eq_some_iff ((hperm.map Prod.fst).nodup_iff.mp hkeys),
    hperm.mem_iff]

theorem groupName?_perm (hkeys : (pairs.map Prod.fst).Nodup) (hperm : pairs.Perm pairs') :
    groupName? pairs = groupName? pairs' := by
  simp only [groupName?, lookup_perm hkeys hperm]

theorem setNode_of_group (p : YamlParse) (h : groupName? pairs = some name) :
    p.setNode parseAddress pairs = p.setGroup parseAddress name pairs := by
  rw [groupName?] at h
  split at h
  · cases h
  next hmaster =>
    rcases Option.map_eq_some_iff.mp h with ⟨node, hnode, rfl⟩
    rw [Bool.or_eq_true, not_or, Option.not_isSome_iff_eq_none, Option.not_isSome_iff_eq_none]
      at hmaster
    rw [YamlParse.setNode, hmaster.1, hmaster.2, hnode]

theorem groupNodes_of_group (nodes : List YamlNode) (h : groupName? pairs = some name) :
    groupNodes (.map pairs :: nodes) = (name, pairs) :: groupNodes nodes := by
  rw [groupNodes, h]

theorem groupNodes_of_none (nodes : List YamlNode) (h : groupName? pairs = none) :
    groupNodes (.map pairs :: nodes) = groupNodes nodes := by
  rw [groupNodes, h]

theorem mem_groupNodes_tail {nodes : List YamlNode} {e : HMString × List (HMString × YamlNode)}
    (h : e ∈ groupNodes nodes) : e ∈ groupNodes (.map pairs :: nodes) := by
  cases hname : groupName? pairs with
  | none => rwa [groupNodes_of_none nodes hname]
  | some name =>
    rw [groupNodes_of_group nodes hname]
    exact List.mem_cons_of_mem _ h

/-- A file whose groups have their keys in another order is read in the same way. -/
theorem setNodes_reordered {nodes nodes' : List YamlNode}
    (hreordered : List.Forall₂ Reordered nodes nodes')
    (hkeys : ∀ e ∈ groupNodes nodes, (e.2.map Prod.fst).Nodup)
    (hfree : ∀ e ∈ groupNodes nodes, OrderFree parseAddress e.2) (p : YamlParse) :
    YamlParse.setNodes parseAddress nodes p = YamlParse.setNodes parseAddress nodes' p := by
  induction hreordered generalizing p with
  | nil => rfl
  | @cons node node' nodes nodes' hnode _ ih =>
    cases hnode with
    | same =>
      cases node with
      | map pairs =>
        have htail := ih (fun e he => hkeys e (mem_groupNodes_tail he))
          fun e he => hfree e (mem_groupNodes_tail he)
        rw [YamlParse.setNodes, YamlParse.setNodes, funext htail]
      | _ => rfl
    | @group name pairs pairs' hname hperm =>
      have htail := ih (fun e he => hkeys e (mem_groupNodes_tail he))
        fun e he => hfree e (mem_groupNodes_tail he)
      have hmem : (name, pairs) ∈ groupNodes (.map pairs :: nodes) := by
        rw [groupNodes_of_group nodes hname]
        exact List.mem_cons_self
      have hname' : groupName? pairs' = some name :=
        (groupName?_perm (hkeys _ hmem) hperm).symm.trans hname
      rw [YamlParse.setNodes, YamlParse.setNodes, funext htail, setNode_of_group parseAddress p hname,
        setNode_of_group parseAddress p hname', YamlParse.setGroup, YamlParse.setGroup,
        setKeys_perm parseAddress hperm (hkeys _ hmem) (hfree _ hmem)]

/-! What a node leaves alone. -/

theorem apply_frame (p : GroupParse) (u : Update) :
    (Update.apply p u).group.groupName = p.group.groupName ∧
      ∀ k, k ≠ p.group.groupName → (Update.apply p u).indirectHost.get? k = p.indirectHost.get? k := by
  have hmodify : ∀ (m : SortedMap HMString HMString) (val k : HMString), k ≠ p.group.groupName →
      (m.modify p.group.groupName fun _ => val).get? k = m.get? k := by
    intro m val k hk
    simp [SortedMap.get?_modify, eqv_of_ne hk.symm]
  cases u with
  | field f => cases f <;> exact ⟨rfl, fun _ _ => rfl⟩
  | indirect =>
    refine ⟨rfl, fun k hk => ?_⟩
    simp [Update.apply, SortedMap.get?_insert, eqv_of_ne hk.symm]
  | uri val | checkInfo val => exact ⟨rfl, hmodify _ val⟩
  | _ => exact ⟨rfl, fun _ _ => rfl⟩

/-- The keys of a group keep its name and the references of others. -/
theorem setKeys_frame {p r : GroupParse}
    (h : pairs.foldlM (GroupParse.setKey parseAddress) p = some r) :
    r.group.groupName = p.group.groupName ∧
      ∀ k, k ≠ p.group.groupName → r.indirectHost.get? k = p.indirectHost.get? k := by
  induction pairs generalizing p with
  | nil =>
    obtain rfl := Option.some.inj h
    exact ⟨rfl, fun _ _ => rfl⟩
  | cons pair pairs ih =>
    rw [List.foldlM_cons, Option.bind_eq_bind, Option.bind_eq_some_iff] at h
    rcases h with ⟨q, hq, hr⟩
    rw [setKey_eq] at hq
    rcases Option.map_eq_some_iff.mp hq with ⟨u, -, rfl⟩
    obtain ⟨hname, hkept⟩ := apply_frame p u
    obtain ⟨hname', hkept'⟩ := ih hr
    rw [hname] at hname' hkept'
    exact ⟨hname', fun k hk => (hkept' k hk).trans (hkept k hk)⟩

/-- The groups of the map are stored under their own names. -/
def Named (groups : HMDataHostGroupMap) : Prop := ∀ e ∈ groups.entries, e.2.groupName = e.1

theorem Named.getD {groups : HMDataHostGroupMap} (h : Named groups) (name : HMString) :
    ((groups.get? name).getD (.new name)).groupName = name := by
  cases hget : groups.get? name with
  | none => rfl
  | some g => exact h (name, g) (SortedMap.mem_entries_iff.mpr hget)

/-- A node without a group changes neither groups nor references. -/
theorem setNode_of_none {p p' : YamlParse} (hname : groupName? pairs = none)
    (h : p.setNode parseAddress pairs = some p') : p'.hostGroups = p.hostGroups ∧
      p'.configParams.indirectHost = p.configParams.indirectHost := by
  rw [YamlParse.setNode] at h
  cases hmode : pairs.lookup (bytes "master-check-mode") with
  | some mode =>
    rw [hmode] at h
    obtain rfl := Option.some.inj h
    rw [YamlParse.setMasterMode]
    split
    · exact ⟨rfl, rfl⟩
    · split <;> exact ⟨rfl, rfl⟩
  | none =>
    cases hdomain : pairs.lookup (bytes "master-check-domain") with
    | some domain =>
      rw [hmode, hdomain] at h
      obtain rfl := Option.some.inj h
      rw [YamlParse.setMasterDomain]
      refine List.foldlRecOn (motive := fun q : YamlParse => q.hostGroups = p.hostGroups ∧
        q.configParams.indirectHost = p.configParams.indirectHost) _ _ ⟨rfl, rfl⟩ ?_
      intro q hq pair _
      split
      · exact hq
      · split <;> exact hq
    | none =>
      rw [groupName?, hmode, hdomain] at hname
      have hnone : pairs.lookup (bytes "name") = none := by simpa using hname
      rw [hmode, hdomain, hnone] at h
      obtain rfl := Option.some.inj h
      exact ⟨rfl, rfl⟩

/-- A group's node changes no other group and no reference from another group, and stores the
group under its name. -/
theorem setGroup_frame {p p' : YamlParse} (hnamed : Named p.hostGroups)
    (h : p.setGroup parseAddress name pairs = some p') : Named p'.hostGroups ∧
      ∀ other, other ≠ name → p'.hostGroups.get? other = p.hostGroups.get? other ∧
        p'.configParams.indirectHost.get? other = p.configParams.indirectHost.get? other := by
  rcases Option.map_eq_some_iff.mp h with ⟨r, hr, rfl⟩
  obtain ⟨hgroup, hkept⟩ := setKeys_frame parseAddress hr
  dsimp only at hgroup hkept
  rw [hnamed.getD] at hgroup hkept
  constructor
  · intro e he
    have hget := SortedMap.mem_entries_iff.mp he
    dsimp only at hget
    rw [SortedMap.get?_set] at hget
    by_cases hself : eqv name e.1 = true
    · rw [if_pos hself] at hget
      rw [← Option.some.inj hget, hgroup, eqv_iff_eq.mp hself]
    · rw [if_neg hself] at hget
      exact hnamed e (SortedMap.mem_entries_iff.mpr hget)
  · intro other hother
    refine ⟨?_, hkept other hother⟩
    simp [SortedMap.get?_set, eqv_of_ne hother.symm]

/-- The nodes of a group, as far as the parser comes. -/
def nodesOf (name : HMString) : List YamlNode → List YamlNode
  | .map pairs :: nodes =>
    if groupName? pairs = some name then .map pairs :: nodesOf name nodes else nodesOf name nodes
  | _ => []

/-- No key of a group counts an error. -/
def ReadsCleanly (nodes : List YamlNode) : Prop :=
  ∀ e ∈ groupNodes nodes, ∀ pair ∈ e.2, ∀ p q : GroupParse,
    p.setKey parseAddress pair = some q → q.nerr = p.nerr

theorem readsCleanly_of_updates {nodes : List YamlNode}
    (h : ∀ e ∈ groupNodes nodes, ∀ pair ∈ e.2,
      readKey parseAddress pair ≠ some .fail ∧ readKey parseAddress pair ≠ some .lastMode) :
    ReadsCleanly parseAddress nodes := by
  intro e he pair hpair p q hq
  obtain ⟨hfail, hmode⟩ := h e he pair hpair
  rw [setKey_eq] at hq
  rcases Option.map_eq_some_iff.mp hq with ⟨u, hu, rfl⟩
  cases u with
  | fail => exact absurd hu hfail
  | lastMode => exact absurd hu hmode
  | _ => rfl

/-- Two parsers that read the same group. -/
structure SameGroup (p q : GroupParse) : Prop where
  group : p.group = q.group
  indirectHost : p.indirectHost.get? p.group.groupName = q.indirectHost.get? p.group.groupName

theorem SameGroup.apply {p q : GroupParse} (h : SameGroup p q) {u : Update} (hu : u ≠ .lastMode) :
    SameGroup (Update.apply p u) (Update.apply q u) := by
  obtain ⟨g, indirectHost, temp, nerr⟩ := p
  obtain ⟨g', indirectHost', temp', nerr'⟩ := q
  rcases h with ⟨hgroup, href⟩
  dsimp only at hgroup href
  subst hgroup
  have hinfo : ∀ val : HMString, (indirectHost.modify g.groupName fun _ => val).get? g.groupName =
      (indirectHost'.modify g.groupName fun _ => val).get? g.groupName := by
    intro val
    simp [SortedMap.get?_modify, href]
  cases u with
  | field f => cases f <;> exact ⟨rfl, href⟩
  | lastMode => exact absurd rfl hu
  | indirect =>
    refine ⟨rfl, ?_⟩
    simp [Update.apply, SortedMap.get?_insert, href]
  | uri val | checkInfo val => exact ⟨rfl, hinfo val⟩
  | _ => exact ⟨rfl, href⟩

theorem SameGroup.setKeys {p q r : GroupParse} (h : SameGroup p q)
    (hclean : ∀ pair ∈ pairs, ∀ p q : GroupParse, p.setKey parseAddress pair = some q →
      q.nerr = p.nerr) (hr : pairs.foldlM (GroupParse.setKey parseAddress) p = some r) :
    ∃ r', pairs.foldlM (GroupParse.setKey parseAddress) q = some r' ∧ SameGroup r r' := by
  induction pairs generalizing p q with
  | nil =>
    obtain rfl := Option.some.inj hr
    exact ⟨q, rfl, h⟩
  | cons pair pairs ih =>
    rw [List.foldlM_cons, Option.bind_eq_bind, Option.bind_eq_some_iff] at hr
    rcases hr with ⟨p₁, hp₁, hr⟩
    have hclean₁ := hclean pair List.mem_cons_self p p₁ hp₁
    rw [setKey_eq] at hp₁
    rcases Option.map_eq_some_iff.mp hp₁ with ⟨u, hu, rfl⟩
    have hmode : u ≠ .lastMode := by
      rintro rfl
      exact absurd hclean₁ (by simp [Update.apply, GroupParse.error])
    obtain ⟨r', hr', hsame⟩ :=
      ih (h.apply hmode) (fun pair hpair => hclean pair (List.mem_cons_of_mem _ hpair)) hr
    refine ⟨r', ?_, hsame⟩
    rw [List.foldlM_cons, setKey_eq, hu]
    exact hr'

/-- The group of a name, and its reference. -/
def settings (p : YamlParse) (name : HMString) : Option HMDataHostGroup × Option HMString :=
  (p.hostGroups.get? name, p.configParams.indirectHost.get? name)

/-- The node of a group gives it the same settings whatever else has been read. -/
theorem setGroup_same {p q p' : YamlParse} (hnamed : Named p.hostGroups)
    (hclean : ∀ pair ∈ pairs, ∀ p q : GroupParse, p.setKey parseAddress pair = some q →
      q.nerr = p.nerr) (hsame : settings p name = settings q name)
    (h : p.setGroup parseAddress name pairs = some p') :
    ∃ q', q.setGroup parseAddress name pairs = some q' ∧ settings p' name = settings q' name := by
  rcases Prod.mk.inj hsame with ⟨hgroup, href⟩
  rcases Option.map_eq_some_iff.mp h with ⟨r, hr, rfl⟩
  have hstart : SameGroup ⟨(p.hostGroups.get? name).getD (.new name), p.configParams.indirectHost,
      p.temp, p.nerr⟩ ⟨(q.hostGroups.get? name).getD (.new name), q.configParams.indirectHost,
      q.temp, q.nerr⟩ := by
    refine ⟨by rw [hgroup], ?_⟩
    dsimp only
    rw [hnamed.getD, href]
  obtain ⟨r', hr', hlast⟩ := hstart.setKeys parseAddress hclean hr
  have hnameLast : r.group.groupName = name := by
    rw [(setKeys_frame parseAddress hr).1]
    exact hnamed.getD name
  have hrefLast := hlast.indirectHost
  rw [hnameLast] at hrefLast
  refine ⟨_, by rw [YamlParse.setGroup, hr', Option.map_some], ?_⟩
  rw [settings, settings, SortedMap.get?_set, SortedMap.get?_set, hlast.group]
  simp [hrefLast]

/-- A group is read in the same way when the other groups are left out of the file. -/
theorem setNodes_nodesOf (name : HMString) {nodes : List YamlNode} {p q p' : YamlParse}
    (hnamed : Named p.hostGroups)
    (hclean : ReadsCleanly parseAddress nodes) (hsame : settings p name = settings q name)
    (h : YamlParse.setNodes parseAddress nodes p = some p') :
    ∃ q', YamlParse.setNodes parseAddress (nodesOf name nodes) q = some q' ∧
      settings p' name = settings q' name := by
  induction nodes generalizing p q with
  | nil =>
    obtain rfl := Option.some.inj h
    exact ⟨q, rfl, hsame⟩
  | cons node nodes ih =>
    cases node with
    | map pairs =>
      rw [YamlParse.setNodes, Option.bind_eq_some_iff] at h
      rcases h with ⟨p₁, hp₁, htail⟩
      have hcleanTail : ReadsCleanly parseAddress nodes :=
        fun e he => hclean e (mem_groupNodes_tail he)
      rw [nodesOf]
      cases hname : groupName? pairs with
      | none =>
        obtain ⟨hgroups, hrefs⟩ := setNode_of_none parseAddress hname hp₁
        have hsame₁ : settings p₁ name = settings q name := by
          rw [← hsame, settings, settings, hgroups, hrefs]
        rw [if_neg (by simp)]
        exact ih (by rw [hgroups]; exact hnamed) hcleanTail hsame₁ htail
      | some other =>
        rw [setNode_of_group parseAddress p hname] at hp₁
        obtain ⟨hnamed₁, hframe⟩ := setGroup_frame parseAddress hnamed hp₁
        by_cases hother : other = name
        · subst hother
          rw [if_pos rfl, YamlParse.setNodes, setNode_of_group parseAddress q hname]
          have hmem : (other, pairs) ∈ groupNodes (.map pairs :: nodes) := by
            rw [groupNodes_of_group nodes hname]
            exact List.mem_cons_self
          obtain ⟨q₁, hq₁, hsame₁⟩ :=
            setGroup_same parseAddress hnamed (hclean _ hmem) hsame hp₁
          rw [hq₁]
          exact ih hnamed₁ hcleanTail hsame₁ htail
        · rw [if_neg (by simpa using hother)]
          obtain ⟨hgroups, hrefs⟩ := hframe name (Ne.symm hother)
          have hsame₁ : settings p₁ name = settings q name := by
            rw [← hsame, settings, settings, hgroups, hrefs]
          exact ih hnamed₁ hcleanTail hsame₁ htail
    | _ =>
      obtain rfl := Option.some.inj h
      exact ⟨q, rfl, hsame⟩

/-- A file changes only the groups it describes. -/
theorem setNodes_frame {nodes : List YamlNode} {p p' : YamlParse} (hnamed : Named p.hostGroups)
    (h : YamlParse.setNodes parseAddress nodes p = some p') : Named p'.hostGroups ∧
      ∀ other, other ∉ (groupNodes nodes).map Prod.fst →
        p'.hostGroups.get? other = p.hostGroups.get? other := by
  induction nodes generalizing p with
  | nil =>
    obtain rfl := Option.some.inj h
    exact ⟨hnamed, fun _ _ => rfl⟩
  | cons node nodes ih =>
    cases node with
    | map pairs =>
      rw [YamlParse.setNodes, Option.bind_eq_some_iff] at h
      rcases h with ⟨p₁, hp₁, htail⟩
      cases hname : groupName? pairs with
      | none =>
        obtain ⟨hgroups, -⟩ := setNode_of_none parseAddress hname hp₁
        obtain ⟨hnamed', hframe⟩ := ih (by rw [hgroups]; exact hnamed) htail
        rw [groupNodes_of_none nodes hname]
        exact ⟨hnamed', fun other hother => (hframe other hother).trans (by rw [hgroups])⟩
      | some name =>
        rw [setNode_of_group parseAddress p hname] at hp₁
        obtain ⟨hnamed₁, hframe₁⟩ := setGroup_frame parseAddress hnamed hp₁
        obtain ⟨hnamed', hframe⟩ := ih hnamed₁ htail
        rw [groupNodes_of_group nodes hname, List.map_cons]
        refine ⟨hnamed', fun other hother => ?_⟩
        rw [List.mem_cons, not_or] at hother
        exact (hframe other hother.2).trans (hframe₁ other hother.1).1
    | _ =>
      obtain rfl := Option.some.inj h
      exact ⟨hnamed, fun _ _ => rfl⟩

theorem setNodes_append {pre : List YamlNode} (hmaps : ∀ node ∈ pre, ∃ pairs, node = .map pairs)
    (rest : List YamlNode) (p : YamlParse) :
    YamlParse.setNodes parseAddress (pre ++ rest) p =
      (YamlParse.setNodes parseAddress pre p).bind (YamlParse.setNodes parseAddress rest) := by
  induction pre generalizing p with
  | nil => rfl
  | cons node pre ih =>
    obtain ⟨pairs, rfl⟩ := hmaps node List.mem_cons_self
    have htail := ih fun node hnode => hmaps node (List.mem_cons_of_mem _ hnode)
    rw [List.cons_append, YamlParse.setNodes, YamlParse.setNodes, funext htail, Option.bind_assoc]

/-- The place of a group in the file. -/
theorem exists_split {nodes : List YamlNode}
    {before after : List (HMString × List (HMString × YamlNode))}
    (h : groupNodes nodes = before ++ (name, pairs) :: after) :
    ∃ pre post, nodes = pre ++ .map pairs :: post ∧ (∀ node ∈ pre, ∃ ps, node = .map ps) ∧
      groupName? pairs = some name ∧ groupNodes post = after := by
  induction nodes generalizing before with
  | nil => cases before <;> cases h
  | cons node nodes ih =>
    cases node with
    | map ps =>
      have hmaps : ∀ {pre : List YamlNode}, (∀ node ∈ pre, ∃ ps, node = .map ps) →
          ∀ node ∈ YamlNode.map ps :: pre, ∃ ps, node = .map ps := by
        intro pre hpre node hnode
        rcases List.mem_cons.mp hnode with rfl | hnode
        · exact ⟨ps, rfl⟩
        · exact hpre node hnode
      cases hname : groupName? ps with
      | none =>
        rw [groupNodes_of_none nodes hname] at h
        obtain ⟨pre, post, rfl, hpre, hgroup, hpost⟩ := ih h
        exact ⟨.map ps :: pre, post, rfl, hmaps hpre, hgroup, hpost⟩
      | some other =>
        rw [groupNodes_of_group nodes hname] at h
        cases before with
        | nil =>
          rcases List.cons.inj h with ⟨hhead, htail⟩
          rcases Prod.mk.inj hhead with ⟨rfl, rfl⟩
          exact ⟨[], nodes, rfl, by simp, hname, htail⟩
        | cons e before =>
          rcases List.cons.inj h with ⟨-, htail⟩
          obtain ⟨pre, post, rfl, hpre, hgroup, hpost⟩ := ih htail
          exact ⟨.map ps :: pre, post, rfl, hmaps hpre, hgroup, hpost⟩
    | _ => cases before <;> cases h

end Nodes

section File

variable (nodes : List YamlNode) (hostGroups : HMDataHostGroupMap) (configParams : HMConfigParams)

/-- A file that is read without errors gives the same groups and parameters when the keys of its
groups are put into another order. -/
def KeyOrderIrrelevant : Prop :=
  ∀ p nodes', HMConfigParserYAML.parseConfig parseAddress (.sequence nodes) hostGroups configParams =
    some p → p.nerr = 0 → List.Forall₂ Reordered nodes nodes' →
      ∃ p', HMConfigParserYAML.parseConfig parseAddress (.sequence nodes') hostGroups configParams =
        some p' ∧ p'.hostGroups = p.hostGroups ∧ p'.configParams = p.configParams

/-- The settings of a group are those that it has when the other groups are left out of the file. -/
def GroupsIndependent : Prop :=
  ∀ p name, HMConfigParserYAML.parseConfig parseAddress (.sequence nodes) hostGroups configParams =
    some p →
      ∃ p', HMConfigParserYAML.parseConfig parseAddress (.sequence (nodesOf name nodes)) hostGroups
        configParams = some p' ∧ settings p' name = settings p name

variable {nodes hostGroups configParams}

theorem keyOrderIrrelevant_of_orderFree (hostGroups : HMDataHostGroupMap)
    (configParams : HMConfigParams)
    (hkeys : ∀ e ∈ groupNodes nodes, (e.2.map Prod.fst).Nodup)
    (hfree : ∀ e ∈ groupNodes nodes, OrderFree parseAddress e.2) :
    KeyOrderIrrelevant parseAddress nodes hostGroups configParams := by
  intro p nodes' hp _ hreordered
  have hsame := setNodes_reordered parseAddress hreordered hkeys hfree
    ⟨hostGroups, configParams, rtConnect, 0⟩
  exact ⟨p, hsame.symm.trans hp, rfl, rfl⟩

/-- What a group is when its two last keys are known. -/
theorem setNodes_last {pre post : List YamlNode} {pairs rest : List (HMString × YamlNode)}
    {a b : HMString × YamlNode} {name : HMString} {p p' : YamlParse} (hnamed : Named p.hostGroups)
    (hmaps : ∀ node ∈ pre, ∃ pairs, node = .map pairs) (hname : groupName? pairs = some name)
    (hperm : pairs.Perm (rest ++ [a, b])) (hkeys : (pairs.map Prod.fst).Nodup)
    (hlast : name ∉ (groupNodes post).map Prod.fst)
    (h : YamlParse.setNodes parseAddress (pre ++ .map (rest ++ [a, b]) :: post) p = some p') :
    ∃ p₀ q, YamlParse.setNodes parseAddress pre p = some p₀ ∧
      rest.foldlM (GroupParse.setKey parseAddress)
        ⟨(p₀.hostGroups.get? name).getD (.new name), p₀.configParams.indirectHost, p₀.temp,
          p₀.nerr⟩ = some q ∧
      ∀ u v, readKey parseAddress a = some u → readKey parseAddress b = some v →
        p'.hostGroups.get? name = some (Update.apply (Update.apply q u) v).group := by
  rw [setNodes_append parseAddress hmaps, Option.bind_eq_some_iff] at h
  rcases h with ⟨p₀, hpre, hpost⟩
  obtain ⟨hnamed₀, -⟩ := setNodes_frame parseAddress hnamed hpre
  have hname' : groupName? (rest ++ [a, b]) = some name :=
    (groupName?_perm hkeys hperm).symm.trans hname
  rw [YamlParse.setNodes, setNode_of_group parseAddress p₀ hname', Option.bind_eq_some_iff] at hpost
  rcases hpost with ⟨p₁, hp₁, hpost⟩
  obtain ⟨hnamed₁, -⟩ := setGroup_frame parseAddress hnamed₀ hp₁
  obtain ⟨-, hkept⟩ := setNodes_frame parseAddress hnamed₁ hpost
  rcases Option.map_eq_some_iff.mp hp₁ with ⟨r, hr, rfl⟩
  rw [List.foldlM_append, Option.bind_eq_bind, Option.bind_eq_some_iff] at hr
  rcases hr with ⟨q, hq, hlastTwo⟩
  refine ⟨p₀, q, hpre, hq, ?_⟩
  intro u v hu hv
  have hr : Update.apply (Update.apply q u) v = r := by
    rw [List.foldlM_cons, setKey_eq, hu, Option.map_some, Option.bind_eq_bind, Option.bind_some,
      List.foldlM_cons, setKey_eq, hv] at hlastTwo
    exact Option.some.inj hlastTwo
  rw [hkept name hlast, SortedMap.get?_set, hr]
  simp

theorem orderFree_of_keyOrderIrrelevant {p : YamlParse}
    (hp : HMConfigParserYAML.parseConfig parseAddress (.sequence nodes) hostGroups configParams =
      some p) (hnerr : p.nerr = 0) (hnamed : Named hostGroups)
    {before after : List (HMString × List (HMString × YamlNode))} {name : HMString}
    {pairs : List (HMString × YamlNode)}
    (hsplit : groupNodes nodes = before ++ (name, pairs) :: after)
    (hlast : name ∉ after.map Prod.fst) (hkeys : (pairs.map Prod.fst).Nodup)
    (h : KeyOrderIrrelevant parseAddress nodes hostGroups configParams) :
    OrderFree parseAddress pairs := by
  intro a ha b hb u v hu hv hconflict
  have hne : a ≠ b := by
    rintro rfl
    obtain rfl := Option.some.inj (hu.symm.trans hv)
    cases u <;> exact hconflict
  obtain ⟨rest, hab, hba⟩ := exists_perm_last ha hb hne
  obtain ⟨pre, post, rfl, hmaps, hname, rfl⟩ := exists_split hsplit
  have hreordered : ∀ {pairs'}, pairs.Perm pairs' →
      List.Forall₂ Reordered (pre ++ .map pairs :: post) (pre ++ .map pairs' :: post) := by
    intro pairs' hperm
    have hsame : ∀ l : List YamlNode, List.Forall₂ Reordered l l :=
      fun l => List.forall₂_same.mpr fun node _ => .same node
    exact List.rel_append (hsame pre) (.cons (.group hname hperm) (hsame post))
  obtain ⟨p₁, hp₁, hgroups₁, -⟩ := h p _ hp hnerr (hreordered hab)
  obtain ⟨p₂, hp₂, hgroups₂, -⟩ := h p _ hp hnerr (hreordered hba)
  obtain ⟨p₀, q, hpre, hrest, hget⟩ := setNodes_last parseAddress hnamed hmaps hname hab hkeys hlast hp₁
  obtain ⟨p₀', q', hpre', hrest', hget'⟩ :=
    setNodes_last parseAddress hnamed hmaps hname hba hkeys hlast hp₂
  obtain rfl := Option.some.inj (hpre.symm.trans hpre')
  obtain rfl := Option.some.inj (hrest.symm.trans hrest')
  have hsame := hget u v hu hv
  rw [hgroups₁, ← hgroups₂, hget' v u hv hu] at hsame
  exact group_differs parseAddress q hu hv hconflict (Option.some.inj hsame).symm

/-- The order of the keys does not matter when no keys of a group conflict, and only then in a file
that has one node for each group. The keys of one group never matter to another. -/
theorem key_order_iff {p : YamlParse}
    (hp : HMConfigParserYAML.parseConfig parseAddress (.sequence nodes) hostGroups configParams =
      some p) (hnerr : p.nerr = 0) (hclean : ReadsCleanly parseAddress nodes)
    (hnamed : Named hostGroups) (hkeys : ∀ e ∈ groupNodes nodes, (e.2.map Prod.fst).Nodup) :
    ((∀ e ∈ groupNodes nodes, OrderFree parseAddress e.2) →
      KeyOrderIrrelevant parseAddress nodes hostGroups configParams) ∧
    (((groupNodes nodes).map Prod.fst).Nodup →
      (KeyOrderIrrelevant parseAddress nodes hostGroups configParams ↔
        ∀ e ∈ groupNodes nodes, OrderFree parseAddress e.2)) ∧
    GroupsIndependent parseAddress nodes hostGroups configParams := by
  have hsuffices := keyOrderIrrelevant_of_orderFree parseAddress hostGroups configParams hkeys
  refine ⟨hsuffices, ?_, ?_⟩
  · intro hnames
    refine ⟨?_, hsuffices⟩
    intro h e he
    obtain ⟨before, after, hsplit⟩ := List.append_of_mem he
    have hlast : e.1 ∉ after.map Prod.fst := by
      rw [hsplit, List.map_append, List.map_cons, List.nodup_append, List.nodup_cons] at hnames
      exact hnames.2.1.1
    exact orderFree_of_keyOrderIrrelevant parseAddress hp hnerr hnamed hsplit hlast (hkeys e he) h
  · intro p' name hp'
    obtain ⟨q', hq', hsame⟩ := setNodes_nodesOf parseAddress name hnamed hclean
      (Eq.refl (settings ⟨hostGroups, configParams, rtConnect, 0⟩ name)) hp'
    exact ⟨q', hq', hsame.symm⟩

end File

/-- A file with one group. -/
def webNodes (pairs : List (HMString × YamlNode)) : List YamlNode :=
  [.map ((bytes "name", .scalar (bytes "web")) :: pairs)]

def typeKey : HMString × YamlNode := (bytes "check-type", .scalar (bytes "https"))

def uriKey : HMString × YamlNode := (bytes "uri", .scalar (bytes "/ok"))

/-- What the parser makes of the file. -/
def readWeb (pairs : List (HMString × YamlNode)) : YamlParse :=
  (HMConfigParserYAML.parseConfig (fun _ => none) (.sequence (webNodes pairs)) ∅ .default).getD
    ⟨∅, .default, 0, 1⟩

theorem readWeb_eq {pairs : List (HMString × YamlNode)} (h : (readWeb pairs).nerr = 0) :
    HMConfigParserYAML.parseConfig (fun _ => none) (.sequence (webNodes pairs)) ∅ .default =
      some (readWeb pairs) := by
  rw [readWeb] at h ⊢
  cases hread : HMConfigParserYAML.parseConfig (fun _ => none) (.sequence (webNodes pairs)) ∅
      .default with
  | some p => rfl
  | none =>
    rw [hread] at h
    exact absurd h (by decide)

theorem web_in_any_order : KeyOrderIrrelevant (fun _ => none) (webNodes [typeKey]) ∅ .default := by
  have hread : ∀ e ∈ groupNodes (webNodes [typeKey]), ∀ pair ∈ e.2,
      readKey (fun _ => none) pair = some .nothing ∨
        readKey (fun _ => none) pair = some (.checkType (.https, some 443)) := by decide
  refine (key_order_iff (fun _ => none) (readWeb_eq (by decide)) (by decide)
    (readsCleanly_of_updates _ (by decide)) (fun e he => absurd he List.not_mem_nil)
    (by decide)).1 ?_
  intro e he a ha b hb u v hu hv
  rcases hread e he a ha with hu' | hu' <;> obtain rfl := Option.some.inj (hu.symm.trans hu')
  · exact id
  · rcases hread e he b hb with hv' | hv' <;> obtain rfl := Option.some.inj (hv.symm.trans hv') <;>
      exact id

/-- The check of the group is an HTTP check, or one with TLS. -/
theorem uri_and_type_in_either_order : (readWeb [uriKey, typeKey]).nerr = 0 ∧
    ¬ KeyOrderIrrelevant (fun _ => none) (webNodes [uriKey, typeKey]) ∅ .default := by
  have hnerr : (readWeb [uriKey, typeKey]).nerr = 0 := by decide
  refine ⟨hnerr, ?_⟩
  intro h
  have hperm : ((bytes "name", YamlNode.scalar (bytes "web")) :: [uriKey, typeKey]).Perm
      ((bytes "name", YamlNode.scalar (bytes "web")) :: [typeKey, uriKey]) :=
    (List.Perm.swap typeKey uriKey []).cons _
  obtain ⟨p', hp', hgroups, -⟩ := h _ (webNodes [typeKey, uriKey]) (readWeb_eq hnerr) hnerr
    (.cons (.group (show groupName? _ = some (bytes "web") by decide) hperm) .nil)
  rw [readWeb_eq (by decide)] at hp'
  obtain rfl := Option.some.inj hp'
  exact absurd hgroups (by decide)

end YamlKeyOrder
