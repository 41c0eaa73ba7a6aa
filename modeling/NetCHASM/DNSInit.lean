import NetCHASM.CheckListIndex
import NetCHASM.Library.Collect
import NetCHASM.State

/-! The DNS entries and the wait list that a check list starts with. A lookup is shared by every
check of its host, DNS type, family and remote check, and takes the smallest of their times. -/
namespace DNSInit

open NetCHASM KeyOrder OrderedMap

abbrev ListEntry := CheckListKey × HMDataCheckParams

/-- The TTL of a lookup for a check, where zero stands for the default. -/
def lookupTtl (p : HMDataCheckParams) : UInt64 :=
  if p.checkTTL = 0 then defaultDnsTtl else p.checkTTL

def lookupTimeout (p : HMDataCheckParams) : UInt64 :=
  if p.checkTimeout = 0 then defaultDnsResolutionTimeout else p.checkTimeout

/-- A check needs a lookup: it is of its host, DNS type and remote check and uses its family. -/
structure Uses (k : CheckListKey) (key : DNSKey) : Prop where
  host : k.hostname = key.1
  type : k.hostCheck.dnsType = key.2.type
  family : key.2.ipv6 ∈ k.hostCheck.dualstack.families
  remoteCheck : k.hostCheck.remoteCheck = key.2.remoteCheckGroup

def ttls (l : HMDataCheckList) (key : DNSKey) : Set UInt64 :=
  {t | ∃ e ∈ l.checklist.entries, Uses e.1 key ∧ lookupTtl e.2 = t}

def timeouts (l : HMDataCheckList) (key : DNSKey) : Set UInt64 :=
  {t | ∃ e ∈ l.checklist.entries, Uses e.1 key ∧ lookupTimeout e.2 = t}

/-- What an entry of the check list waits for, and its check. -/
def waiter (e : ListEntry) : (HMString × UInt8) × HMDataHostCheck :=
  ((e.1.hostname, e.1.hostCheck.dnsType.code), e.1.hostCheck)

/-! The cache as values gathered under keys. -/

/-- The results that an entry of the check list asks for. -/
def requests (plugin : DnsType → DnsPluginClass) (e : ListEntry) : List (DNSKey × HMDNSResult) :=
  e.1.hostCheck.dualstack.families.map fun ipv6 =>
    ((e.1.hostname, ⟨e.1.hostCheck.dnsType, ipv6, e.1.hostCheck.remoteCheck,
      plugin e.1.hostCheck.dnsType⟩), .new (lookupTtl e.2) (lookupTimeout e.2))

def mergeTimes (r v : HMDNSResult) : HMDNSResult := r.updateTimeouts v.dnsTimeout v.queryTimeout

theorem insertDNSEntry_eq_upsert (c : HMDNSCache) (name : HMString) (lookup : HMDNSLookup)
    (p : HMDataCheckParams) : c.insertDNSEntry name lookup p.checkTTL p.checkTimeout =
      ⟨c.cache.upsert mergeTimes (name, lookup) (.new (lookupTtl p) (lookupTimeout p)),
        c.staticDNS⟩ := by
  simp only [HMDNSCache.insertDNSEntry, SortedMap.upsert]
  split
  · rfl
  · rfl

theorem initDNSCache_eq_collect {l : HMDataCheckList} (hguard : l.guard = false)
    (plugin : DnsType → DnsPluginClass) : l.initDNSCache .empty plugin =
      ⟨collect mergeTimes (l.checklist.entries.flatMap (requests plugin)) ∅, ∅⟩ := by
  have hfamilies (e : ListEntry) (families : List Bool) (c : HMDNSCache) :
      families.foldl (fun c ipv6 => c.insertDNSEntry e.1.hostname ⟨e.1.hostCheck.dnsType, ipv6,
        e.1.hostCheck.remoteCheck, plugin e.1.hostCheck.dnsType⟩ e.2.checkTTL e.2.checkTimeout) c =
      ⟨collect mergeTimes (families.map fun ipv6 =>
        ((e.1.hostname, ⟨e.1.hostCheck.dnsType, ipv6, e.1.hostCheck.remoteCheck,
          plugin e.1.hostCheck.dnsType⟩), .new (lookupTtl e.2) (lookupTimeout e.2))) c.cache,
        c.staticDNS⟩ := by
    induction families generalizing c with
    | nil => rfl
    | cons ipv6 families ih =>
      rw [List.foldl_cons, ih, insertDNSEntry_eq_upsert]
      rfl
  have hentries (es : List ListEntry) (c : HMDNSCache) :
      es.foldl (fun c e => e.1.hostCheck.dualstack.families.foldl (fun c ipv6 =>
        c.insertDNSEntry e.1.hostname ⟨e.1.hostCheck.dnsType, ipv6, e.1.hostCheck.remoteCheck,
          plugin e.1.hostCheck.dnsType⟩ e.2.checkTTL e.2.checkTimeout) c) c =
      ⟨collect mergeTimes (es.flatMap (requests plugin)) c.cache, c.staticDNS⟩ := by
    induction es generalizing c with
    | nil => rfl
    | cons e es ih =>
      rw [List.foldl_cons, ih, hfamilies, List.flatMap_cons, collect, collect, collect,
        List.foldl_append]
      rfl
  rw [HMDataCheckList.initDNSCache, if_neg (by simp [hguard])]
  exact hentries l.checklist.entries .empty

/-- The requests for a key are those of the entries that need it. -/
theorem exists_request_iff {l : HMDataCheckList} {plugin : DnsType → DnsPluginClass}
    {key : DNSKey} {P : HMDNSResult → Prop} :
    (∃ r ∈ l.checklist.entries.flatMap (requests plugin), eqv r.1 key = true ∧ P r.2) ↔
      ∃ e ∈ l.checklist.entries, Uses e.1 key ∧ P (.new (lookupTtl e.2) (lookupTimeout e.2)) := by
  simp only [List.mem_flatMap, requests, List.mem_map]
  constructor
  · rintro ⟨r, ⟨e, he, ipv6, hfamily, rfl⟩, hkey, hr⟩
    rcases DNSKey.eqv_iff.mp hkey with ⟨hhost, htype, hremote, hipv6⟩
    have hipv6' : ipv6 = key.2.ipv6 := hipv6
    exact ⟨e, he, ⟨hhost, htype, hipv6' ▸ hfamily, hremote⟩, hr⟩
  · rintro ⟨e, he, huses, hr⟩
    exact ⟨_, ⟨e, he, key.2.ipv6, huses.family, rfl⟩,
      DNSKey.eqv_iff.mpr ⟨huses.host, huses.type, huses.remoteCheck, rfl⟩, hr⟩

/-! What is stored for a key. -/

theorem isLeast_of_toNat {S : Set UInt64} {t : UInt64}
    (h : IsLeast {n | ∃ x ∈ S, x.toNat = n} t.toNat) : IsLeast S t := by
  rcases h with ⟨⟨x, hx, heq⟩, hlower⟩
  constructor
  · rw [← UInt64.toNat_inj.mp heq]
    exact hx
  · intro y hy
    rw [UInt64.le_iff_toNat_le]
    exact hlower ⟨y, hy, rfl⟩

theorem isLeast_unique {S : Set UInt64} {t u : UInt64} (ht : IsLeast S t) (hu : IsLeast S u) :
    t = u :=
  UInt64.le_antisymm (ht.2 hu.1) (hu.2 ht.1)

theorem toNat_min (a b : UInt64) : (if b < a then b else a).toNat = min a.toNat b.toNat := by
  split
  · rename_i hlt
    rw [UInt64.lt_iff_toNat_lt] at hlt
    omega
  · rename_i hle
    rw [UInt64.lt_iff_toNat_lt] at hle
    omega

section Stored

variable {l : HMDataCheckList} {plugin : DnsType → DnsPluginClass} {key : DNSKey}
  {r : HMDNSResult}

/-- A time that is merged by the smaller one is the smallest that the entries ask for. -/
theorem isLeast_requests {g : HMDNSResult → UInt64}
    (hmerge : ∀ a b, g (mergeTimes a b) = if g b < g a then g b else g a)
    (h : (collect mergeTimes (l.checklist.entries.flatMap (requests plugin)) ∅).get? key =
      some r) :
    IsLeast {t | ∃ e ∈ l.checklist.entries, Uses e.1 key ∧
      g (.new (lookupTtl e.2) (lookupTimeout e.2)) = t} (g r) := by
  have hmin (a b : HMDNSResult) : (g (mergeTimes a b)).toNat = min (g a).toNat (g b).toNat := by
    rw [hmerge]
    exact toNat_min (g a) (g b)
  have hset : {n | ∃ t ∈ {t | ∃ e ∈ l.checklist.entries, Uses e.1 key ∧
      g (.new (lookupTtl e.2) (lookupTimeout e.2)) = t}, t.toNat = n} =
      {n | ∃ e ∈ l.checklist.entries.flatMap (requests plugin), eqv e.1 key = true ∧
        (g e.2).toNat = n} := by
    ext n
    refine Iff.trans ?_ (exists_request_iff (P := fun r => (g r).toNat = n)).symm
    constructor
    · rintro ⟨t, ⟨e, he, huses, rfl⟩, hn⟩
      exact ⟨e, he, huses, hn⟩
    · rintro ⟨e, he, huses, hn⟩
      exact ⟨_, ⟨e, he, huses, rfl⟩, hn⟩
  refine isLeast_of_toNat ?_
  rw [hset]
  exact isLeast_collect (g := fun r => (g r).toNat) hmin h

theorem isLeast_ttls (h : (collect mergeTimes (l.checklist.entries.flatMap (requests plugin))
    ∅).get? key = some r) : IsLeast (ttls l key) r.dnsTimeout :=
  isLeast_requests (g := fun r => r.dnsTimeout) (fun _ _ => rfl) h

theorem isLeast_timeouts (h : (collect mergeTimes (l.checklist.entries.flatMap (requests plugin))
    ∅).get? key = some r) : IsLeast (timeouts l key) r.queryTimeout :=
  isLeast_requests (g := fun r => r.queryTimeout) (fun _ _ => rfl) h

/-- Nothing but the times is set. -/
theorem eq_new (h : (collect mergeTimes (l.checklist.entries.flatMap (requests plugin))
    ∅).get? key = some r) : r = .new r.dnsTimeout r.queryTimeout := by
  refine of_collect (P := fun r => r = .new r.dnsTimeout r.queryTimeout) ?_ ?_ h
  · intro a b ha hb
    rw [mergeTimes, HMDNSResult.updateTimeouts, ha]
    rfl
  · intro e he
    simp only [List.mem_flatMap, requests, List.mem_map] at he
    rcases he with ⟨e, -, ipv6, -, rfl⟩
    rfl

theorem plugin_of_mem_keys
    (h : key ∈ (collect mergeTimes (l.checklist.entries.flatMap (requests plugin)) ∅).keys) :
    key.2.plugin = plugin key.2.type := by
  rcases mem_keys_collect h with h | ⟨e, he, rfl⟩
  · exact absurd h List.not_mem_nil
  · simp only [List.mem_flatMap, requests, List.mem_map] at he
    rcases he with ⟨e, -, ipv6, -, rfl⟩
    rfl

/-- Keys that the comparator does not tell apart have the same plugin, so they are equal. -/
theorem key_ext {a b : DNSKey} (h : eqv a b = true) (ha : a.2.plugin = plugin a.2.type)
    (hb : b.2.plugin = plugin b.2.type) : a = b := by
  rcases a with ⟨name, type, ipv6, group, p⟩
  rcases b with ⟨name', type', ipv6', group', p'⟩
  rcases DNSKey.eqv_iff.mp h with ⟨hname, htype, hgroup, hipv6⟩
  simp only at hname htype hgroup hipv6 ha hb
  subst hname htype hgroup hipv6 ha hb
  rfl

/-- A lookup that some check needs has a result. -/
theorem exists_result (h : ∃ e ∈ l.checklist.entries, Uses e.1 key) :
    ∃ r, (collect mergeTimes (l.checklist.entries.flatMap (requests plugin)) ∅).get? key =
      some r := by
  rcases h with ⟨e, he, huses⟩
  obtain ⟨x, hx, hkey, -⟩ :=
    (@exists_request_iff l plugin key fun _ => True).mpr ⟨e, he, huses, trivial⟩
  exact Option.isSome_iff_exists.mp (isSome_collect_iff.mpr ⟨x, hx, hkey⟩)

/-- The entries of the cache: one for every lookup that some check needs, with the plugin of its
type and the smallest times. -/
theorem mem_entries_iff : (key, r) ∈ (collect mergeTimes
    (l.checklist.entries.flatMap (requests plugin)) ∅).entries ↔
      key.2.plugin = plugin key.2.type ∧ ∃ ttl timeout, r = .new ttl timeout ∧
        IsLeast (ttls l key) ttl ∧ IsLeast (timeouts l key) timeout := by
  constructor
  · intro h
    have hget := SortedMap.get?_of_mem h
    exact ⟨plugin_of_mem_keys (List.mem_map_of_mem h), _, _, eq_new hget, isLeast_ttls hget,
      isLeast_timeouts hget⟩
  · rintro ⟨hplugin, ttl, timeout, rfl, httl, htimeout⟩
    rcases httl.1 with ⟨e, he, huses, -⟩
    obtain ⟨r, hr⟩ := @exists_result l plugin key ⟨e, he, huses⟩
    rcases SortedMap.get?_eq_some.mp hr with ⟨key', hmem, hkey⟩
    have heq := key_ext hkey (plugin_of_mem_keys (List.mem_map_of_mem hmem)) hplugin
    rw [← isLeast_unique (isLeast_ttls hr) httl, ← isLeast_unique (isLeast_timeouts hr) htimeout,
      ← eq_new hr, ← heq]
    exact hmem

end Stored

/-! The order in which the groups are added, and the wait list. -/

/-- The check list of a sequence of groups. -/
def checkListOf (groups : List HMDataHostGroup) : HMDataCheckList :=
  groups.foldl HMDataCheckList.addHostGroup .empty

open IndexedCheckList in
theorem checkListOf_eq (groups : List HMDataHostGroup) :
    checkListOf groups = (ofGroups groups).toCheckList := by
  have hfold (l : IndexedCheckList) (groups : List HMDataHostGroup) :
      groups.foldl HMDataCheckList.addHostGroup l.toCheckList =
        (groups.foldl IndexedCheckList.addHostGroup l).toCheckList := by
    induction groups generalizing l with
    | nil => rfl
    | cons g groups ih => rw [List.foldl_cons, ← toCheckList_addHostGroup, ih, List.foldl_cons]
  exact hfold .empty groups

open IndexedCheckList in
@[simp] theorem checkListOf_guard (groups : List HMDataHostGroup) :
    (checkListOf groups).guard = false := by
  rw [checkListOf_eq, ofGroups, foldl_addHostGroup_eq_place rfl]
  exact foldl_place_guard .empty _

/-- What an entry of the check list is for. -/
def entryId (e : ListEntry) : CheckId := ⟨e.1, e.2.toCheckParameters⟩

open IndexedCheckList in
theorem apart_checkListOf (groups : List HMDataHostGroup) :
    (checkListOf groups).checklist.entries.Pairwise fun a b =>
      (entryId a).same (entryId b) = false := by
  rw [checkListOf_eq]
  exact List.pairwise_map.mpr (holds_ofGroups groups).apart

open IndexedCheckList in
/-- An entry is for the check of some group. -/
theorem origin_checkListOf {groups : List HMDataHostGroup} {e : ListEntry}
    (h : e ∈ (checkListOf groups).checklist.entries) :
    ∃ g ∈ groups, g.getHostCheck = some e.1.hostCheck := by
  rw [checkListOf_eq] at h
  rcases List.mem_map.mp h with ⟨x, hx, rfl⟩
  obtain ⟨p, hp, hid⟩ := (holds_ofGroups groups).origin x hx
  rcases List.mem_flatMap.mp hp with ⟨g, hg, hp⟩
  obtain ⟨host, -, c, hc, rfl⟩ := mem_placements.mp hp
  have hkey : x.1 = ⟨host, c⟩ := congrArg CheckId.key hid
  rw [hkey]
  exact ⟨g, hg, hc⟩

open IndexedCheckList in
/-- Each check of one order has its entry in the other. -/
theorem exists_same_entry {groups groups' : List HMDataHostGroup} (hperm : groups.Perm groups')
    {e : ListEntry} (h : e ∈ (checkListOf groups).checklist.entries) :
    ∃ e' ∈ (checkListOf groups').checklist.entries, (entryId e).same (entryId e') = true := by
  rw [checkListOf_eq] at h ⊢
  rcases List.mem_map.mp h with ⟨x, hx, rfl⟩
  obtain ⟨x', hx', hsame, -⟩ := entriesIn_of_perm hperm x hx
  exact ⟨_, List.mem_map_of_mem hx', hsame⟩

theorem uses_of_same {e e' : ListEntry} (h : (entryId e).same (entryId e') = true) {key : DNSKey}
    (huses : Uses e.1 key) : Uses e'.1 key := by
  obtain ⟨hkey, -⟩ := CheckId.same_iff.mp h
  obtain ⟨hhost, hbeq, htype⟩ := CheckListKey.eqv_iff_fields.mp hkey
  obtain ⟨-, -, hdualstack, -, hremote, -⟩ := HMDataHostCheck.beq_iff.mp hbeq
  change e.1.hostname = e'.1.hostname at hhost
  change e.1.hostCheck.dnsType = e'.1.hostCheck.dnsType at htype
  change e.1.hostCheck.dualstack = e'.1.hostCheck.dualstack at hdualstack
  change e.1.hostCheck.remoteCheck = e'.1.hostCheck.remoteCheck at hremote
  constructor
  · rw [← hhost]
    exact huses.host
  · rw [← htype]
    exact huses.type
  · rw [← hdualstack]
    exact huses.family
  · rw [← hremote]
    exact huses.remoteCheck

/-- What the entries that need a lookup ask for is the same in both orders, where it depends on
the parameters. -/
theorem asked_eq_of_perm {groups groups' : List HMDataHostGroup} (hperm : groups.Perm groups')
    {time : HMDataCheckParams → UInt64}
    (htime : ∀ p q, p.toCheckParameters = q.toCheckParameters → time p = time q) (key : DNSKey) :
    {t | ∃ e ∈ (checkListOf groups).checklist.entries, Uses e.1 key ∧ time e.2 = t} =
      {t | ∃ e ∈ (checkListOf groups').checklist.entries, Uses e.1 key ∧ time e.2 = t} := by
  have hsub {gs gs' : List HMDataHostGroup} (hperm : gs.Perm gs') :
      {t | ∃ e ∈ (checkListOf gs).checklist.entries, Uses e.1 key ∧ time e.2 = t} ⊆
        {t | ∃ e ∈ (checkListOf gs').checklist.entries, Uses e.1 key ∧ time e.2 = t} := by
    rintro t ⟨e, he, huses, rfl⟩
    obtain ⟨e', he', hsame⟩ := exists_same_entry hperm he
    have hparams := (CheckId.same_iff.mp hsame).2
    exact ⟨e', he', uses_of_same hsame huses, (htime e.2 e'.2 hparams).symm⟩
  exact Set.Subset.antisymm (hsub hperm) (hsub hperm.symm)

theorem times_eq_of_perm {groups groups' : List HMDataHostGroup} (hperm : groups.Perm groups')
    (key : DNSKey) : ttls (checkListOf groups) key = ttls (checkListOf groups') key ∧
      timeouts (checkListOf groups) key = timeouts (checkListOf groups') key := by
  constructor
  · refine asked_eq_of_perm hperm (fun p q heq => ?_) key
    rw [lookupTtl, lookupTtl, heq]
  · refine asked_eq_of_perm hperm (fun p q heq => ?_) key
    rw [lookupTimeout, lookupTimeout, heq]

theorem initDNSCache_eq_of_perm {groups groups' : List HMDataHostGroup}
    (hperm : groups.Perm groups') (plugin : DnsType → DnsPluginClass) :
    (checkListOf groups).initDNSCache .empty plugin =
      (checkListOf groups').initDNSCache .empty plugin := by
  rw [initDNSCache_eq_collect (checkListOf_guard groups),
    initDNSCache_eq_collect (checkListOf_guard groups')]
  congr 1
  apply SortedMap.ext_mem
  rintro ⟨key, r⟩
  obtain ⟨httls, htimeouts⟩ := times_eq_of_perm hperm key
  rw [mem_entries_iff, mem_entries_iff, httls, htimeouts]

/-- A check less what its comparison leaves out. -/
def compared (c : HMDataHostCheck) : HMDataHostCheck :=
  { c with checkPlugin := .default, remoteCheckType := .none }

theorem compared_eq_iff {a b : HMDataHostCheck} :
    compared a = compared b ↔ a.beq b = true ∧ a.dnsType = b.dnsType := by
  rw [HMDataHostCheck.beq_iff]
  simp only [compared, HMDataHostCheck.mk.injEq]
  constructor
  · rintro ⟨h₁, h₂, h₃, h₄, h₅, h₆, h₇, -, -, h₈, h₉, h₁₀⟩
    exact ⟨⟨h₁, h₂, h₃, h₄, h₅, h₈, h₉, h₆, h₁₀⟩, h₇⟩
  · rintro ⟨⟨h₁, h₂, h₃, h₄, h₅, h₆, h₇, h₈, h₉⟩, h₁₀⟩
    exact ⟨h₁, h₂, h₃, h₄, h₅, h₈, h₁₀, trivial, trivial, h₆, h₇, h₉⟩

/-- The groups have no two checks that differ only in what the comparison leaves out. -/
def ChecksAgree (groups : List HMDataHostGroup) : Prop :=
  ∀ g ∈ groups, ∀ g' ∈ groups, ∀ c c', g.getHostCheck = some c → g'.getHostCheck = some c' →
    compared c = compared c' → c = c'

section Order

variable {groups groups' : List HMDataHostGroup}

/-- Entries are matched one to one by what tells them apart. -/
theorem perm_map_of_perm {γ : Type} {f : ListEntry → γ} (hperm : groups.Perm groups')
    (hapart : ∀ a b, f a = f b → (entryId a).same (entryId b) = true)
    (hmatch : ∀ e ∈ (checkListOf groups).checklist.entries,
      ∀ e' ∈ (checkListOf groups').checklist.entries,
        (entryId e).same (entryId e') = true → f e = f e') :
    ((checkListOf groups).checklist.entries.map f).Perm
      ((checkListOf groups').checklist.entries.map f) := by
  have hnodup (gs : List HMDataHostGroup) : ((checkListOf gs).checklist.entries.map f).Nodup := by
    refine List.pairwise_map.mpr ((apart_checkListOf gs).imp fun {a b} hab heq => ?_)
    rw [hapart a b heq] at hab
    cases hab
  rw [List.perm_ext_iff_of_nodup (hnodup groups) (hnodup groups')]
  intro x
  rw [List.mem_map, List.mem_map]
  constructor
  · rintro ⟨e, he, rfl⟩
    obtain ⟨e', he', hsame⟩ := exists_same_entry hperm he
    exact ⟨e', he', (hmatch e he e' he' hsame).symm⟩
  · rintro ⟨e', he', rfl⟩
    obtain ⟨e, he, hsame⟩ := exists_same_entry hperm.symm he'
    rw [CheckId.same_comm] at hsame
    exact ⟨e, he, hmatch e he e' he' hsame⟩

theorem same_iff_compared (a b : ListEntry) : (entryId a).same (entryId b) = true ↔
    a.1.hostname = b.1.hostname ∧ compared a.1.hostCheck = compared b.1.hostCheck ∧
      a.2.toCheckParameters = b.2.toCheckParameters := by
  rw [CheckId.same_iff, compared_eq_iff]
  refine (and_congr_left' CheckListKey.eqv_iff_fields).trans ?_
  rw [and_assoc]
  rfl

/-- Where the entries of two orders have the same checks in some sense, the wait lists have. -/
theorem waiters_perm_of_entries {f : HMDataHostCheck → HMDataHostCheck}
    (htype : ∀ c, (f c).dnsType = c.dnsType)
    (h : ((checkListOf groups).checklist.entries.map fun e =>
      (e.1.hostname, f e.1.hostCheck, e.2.toCheckParameters)).Perm
        ((checkListOf groups').checklist.entries.map fun e =>
          (e.1.hostname, f e.1.hostCheck, e.2.toCheckParameters))) :
    ((checkListOf groups).initWaitList.entries.map fun w => (w.1, f w.2)).Perm
      ((checkListOf groups').initWaitList.entries.map fun w => (w.1, f w.2)) := by
  have hitems := h.map fun t => ((t.1, t.2.1.dnsType.code), t.2.1)
  simp only [List.map_map, Function.comp_def, htype] at hitems
  have hwaiters (gs : List HMDataHostGroup) :=
    (HMDataCheckList.entries_initWaitList (checkListOf_guard gs)).map fun w => (w.1, f w.2)
  simp only [List.map_map] at hwaiters
  exact (hwaiters groups).trans (hitems.trans (hwaiters groups').symm)

/-- The wait lists of the two orders have the same items, as far as checks are compared. -/
theorem waiters_of_perm (hperm : groups.Perm groups') :
    ((checkListOf groups).initWaitList.entries.map fun w => (w.1, compared w.2)).Perm
      ((checkListOf groups').initWaitList.entries.map fun w => (w.1, compared w.2)) := by
  refine waiters_perm_of_entries (fun _ => rfl) (perm_map_of_perm hperm ?_ ?_)
  · intro a b hab
    simp only [Prod.mk.injEq] at hab
    exact (same_iff_compared a b).mpr hab
  · intro e _ e' _ hsame
    obtain ⟨hhost, hcheck, hparams⟩ := (same_iff_compared e e').mp hsame
    rw [hhost, hcheck, hparams]

/-- They are the same where the groups have no two checks that only the comparison takes for
one. -/
theorem waiters_eq_of_perm (hperm : groups.Perm groups') (hagree : ChecksAgree groups) :
    (checkListOf groups).initWaitList.entries.Perm
      (checkListOf groups').initWaitList.entries := by
  have hwaiters : ((checkListOf groups).initWaitList.entries.map fun w => (w.1, w.2)).Perm
      ((checkListOf groups').initWaitList.entries.map fun w => (w.1, w.2)) := by
    refine waiters_perm_of_entries (f := fun c => c) (fun _ => rfl)
      (perm_map_of_perm hperm ?_ ?_)
    · intro a b hab
      simp only [Prod.mk.injEq] at hab
      exact (same_iff_compared a b).mpr ⟨hab.1, congrArg compared hab.2.1, hab.2.2⟩
    · intro e he e' he' hsame
      obtain ⟨hhost, hcheck, hparams⟩ := (same_iff_compared e e').mp hsame
      obtain ⟨g, hg, hc⟩ := origin_checkListOf he
      obtain ⟨g', hg', hc'⟩ := origin_checkListOf he'
      rw [hhost, hparams, hagree g hg g' (hperm.mem_iff.mpr hg') _ _ hc hc' hcheck]
  simpa using hwaiters

end Order

/-- What the daemon sets in a check depends on the rest of it. -/
theorem fields_of_prepare {settings : Settings} {g : HMDataHostGroup} {c : HMDataHostCheck}
    (hremote : g.remoteCheckType = .none) (h : (settings.prepare g).getHostCheck = some c) :
    c.checkPlugin = (settings.checkPlugin c.checkType).getD .default ∧
      c.remoteCheckType = if c.remoteCheck ≠ [] then settings.remoteCheckType else .none := by
  have hvalid : (settings.prepare g).checkType ≠ .invalid := by
    intro hinvalid
    rw [HMDataHostGroup.getHostCheck, if_neg (not_not.mpr hinvalid)] at h
    cases h
  have hplugin : ∀ t, t ≠ CheckType.invalid → ∀ p q,
      (settings.checkPlugin t).getD p = (settings.checkPlugin t).getD q := by
    intro t ht p q
    cases t with
    | invalid => exact absurd rfl ht
    | _ => rfl
  obtain rfl := IndexedCheckList.eq_of_getHostCheck h
  by_cases hempty : g.remoteCheck = []
  · have heq : settings.prepare g =
        { g with checkPlugin := (settings.checkPlugin g.checkType).getD g.checkPlugin } :=
      if_neg (not_not.mpr hempty)
    rw [heq] at hvalid ⊢
    exact ⟨hplugin _ hvalid _ _, hremote.trans (if_neg (not_not.mpr hempty)).symm⟩
  · have heq : settings.prepare g =
        { g with
          checkPlugin := (settings.checkPlugin g.checkType).getD g.checkPlugin
          remoteCheckType := settings.remoteCheckType } := if_pos hempty
    rw [heq] at hvalid ⊢
    exact ⟨hplugin _ hvalid _ _, (if_pos hempty).symm⟩

/-- The groups that the daemon has prepared agree. -/
theorem checksAgree_prepare (settings : Settings) {groups : List HMDataHostGroup}
    (hremote : ∀ g ∈ groups, g.remoteCheckType = .none) :
    ChecksAgree (groups.map settings.prepare) := by
  intro g hg g' hg' c c' hc hc' hcompared
  rcases List.mem_map.mp hg with ⟨a, ha, rfl⟩
  rcases List.mem_map.mp hg' with ⟨b, hb, rfl⟩
  obtain ⟨hplugin, htype⟩ := fields_of_prepare (hremote a ha) hc
  obtain ⟨hplugin', htype'⟩ := fields_of_prepare (hremote b hb) hc'
  have hcheckType := congrArg HMDataHostCheck.checkType hcompared
  have hremoteCheck := congrArg HMDataHostCheck.remoteCheck hcompared
  change c.checkType = c'.checkType at hcheckType
  change c.remoteCheck = c'.remoteCheck at hremoteCheck
  rw [hcheckType, ← hplugin'] at hplugin
  rw [hremoteCheck, ← htype'] at htype
  have hrestore (c : HMDataHostCheck) : c =
      { compared c with checkPlugin := c.checkPlugin, remoteCheckType := c.remoteCheckType } := rfl
  rw [hrestore c, hrestore c', hcompared, hplugin, htype]

/-- What a check list starts with: a lookup just for each host, DNS type, family and remote check
that an entry uses, with the smallest times, and a waiting check for each entry. -/
structure Initialised (l : HMDataCheckList) (plugin : DnsType → DnsPluginClass)
    (cache : HMDNSCache) (waitList : HMWaitList) : Prop where
  keys : ∀ key, key ∈ cache.cache.keys ↔
    (∃ e ∈ l.checklist.entries, Uses e.1 key) ∧ key.2.plugin = plugin key.2.type
  ttl : ∀ e ∈ cache.cache.entries, IsLeast (ttls l e.1) e.2.dnsTimeout
  timeout : ∀ e ∈ cache.cache.entries, IsLeast (timeouts l e.1) e.2.queryTimeout
  waiting : waitList.entries.Perm (l.checklist.entries.map waiter)

/-- Two orders of the groups start with the same lookups, and with the same waiting checks as far
as checks are compared, or simply the same if the checks of the groups agree. -/
structure SameStart (groups groups' : List HMDataHostGroup) (plugin : DnsType → DnsPluginClass) :
    Prop where
  cache : (checkListOf groups).initDNSCache .empty plugin =
    (checkListOf groups').initDNSCache .empty plugin
  compared : ((checkListOf groups).initWaitList.entries.map fun w => (w.1, compared w.2)).Perm
    ((checkListOf groups').initWaitList.entries.map fun w => (w.1, compared w.2))
  waiting : ChecksAgree groups → (checkListOf groups).initWaitList.entries.Perm
    (checkListOf groups').initWaitList.entries

theorem initialised {l : HMDataCheckList} (hguard : l.guard = false)
    (plugin : DnsType → DnsPluginClass) :
    Initialised l plugin (l.initDNSCache .empty plugin) l.initWaitList := by
  rw [initDNSCache_eq_collect hguard]
  constructor
  · intro key
    constructor
    · intro h
      rcases List.mem_map.mp h with ⟨⟨_, r⟩, he, rfl⟩
      obtain ⟨hplugin, ttl, timeout, -, ⟨⟨e, he, huses, -⟩, -⟩, -⟩ := mem_entries_iff.mp he
      exact ⟨⟨e, he, huses⟩, hplugin⟩
    · rintro ⟨huses, hplugin⟩
      obtain ⟨r, hr⟩ := @exists_result l plugin key huses
      have hmem := mem_entries_iff.mpr ⟨hplugin, _, _, eq_new hr, isLeast_ttls hr,
        isLeast_timeouts hr⟩
      exact List.mem_map_of_mem hmem
  · intro e he
    exact isLeast_ttls (SortedMap.get?_of_mem he)
  · intro e he
    exact isLeast_timeouts (SortedMap.get?_of_mem he)
  · exact HMDataCheckList.entries_initWaitList hguard

/-- The lookups and the waiting checks that a check list starts with, and that they do not depend
on the order in which its groups were added. -/
theorem dns_start_of_check_list (plugin : DnsType → DnsPluginClass) (l : HMDataCheckList)
    (hguard : l.guard = false) :
    Initialised l plugin (l.initDNSCache .empty plugin) l.initWaitList ∧
      ∀ groups groups', l = checkListOf groups → groups.Perm groups' →
        SameStart groups groups' plugin :=
  ⟨initialised hguard plugin, fun _ _ _ hperm =>
    ⟨initDNSCache_eq_of_perm hperm plugin, waiters_of_perm hperm, waiters_eq_of_perm hperm⟩⟩

/-- Two groups with one host: one uses both families and leaves its timeout at zero, the other
uses one family and leaves its TTL at zero. -/
def sharedHost : List HMDataHostGroup :=
  [{ HMDataHostGroup.new [97] with
      checkType := .http, dualstack := .both, checkTTL := 60000, checkTimeout := 0
      hosts := [[104]] },
    { HMDataHostGroup.new [98] with
      checkType := .tcp, dualstack := .ipv4Only, checkTTL := 0, checkTimeout := 500
      hosts := [[104]] }]

theorem dns_start_of_shared_host :
    (Initialised (checkListOf sharedHost) Settings.default.getDNSPlugin
        ((checkListOf sharedHost).initDNSCache .empty Settings.default.getDNSPlugin)
        (checkListOf sharedHost).initWaitList ∧
      ∀ groups groups', checkListOf sharedHost = checkListOf groups → groups.Perm groups' →
        SameStart groups groups' Settings.default.getDNSPlugin) ∧
    ((checkListOf sharedHost).initDNSCache .empty
      Settings.default.getDNSPlugin).cache.entries.map
        (fun e => (e.1.2.ipv6, e.2.dnsTimeout, e.2.queryTimeout)) =
      [(false, 60000, 500), (true, 60000, 60000)] :=
  ⟨dns_start_of_check_list _ _ (checkListOf_guard sharedHost), by decide⟩

/-- Two groups with one check, but for the plugin that only one of them names. -/
def pluginsApart : List HMDataHostGroup :=
  [{ HMDataHostGroup.new [97] with hosts := [[104]] },
    { HMDataHostGroup.new [98] with checkPlugin := .httpCurl, hosts := [[104]] }]

/-- The two groups share an entry, and the first of them decides which check waits. -/
theorem wait_list_depends_on_group_order : ∃ groups groups' : List HMDataHostGroup,
    groups.Perm groups' ∧ ¬ (checkListOf groups).initWaitList.entries.Perm
      (checkListOf groups').initWaitList.entries :=
  ⟨pluginsApart, pluginsApart.reverse, pluginsApart.reverse_perm.symm, by decide⟩

end DNSInit
