import NetCHASM.State
import NetCHASM.Library.Runs

/-! The DNS cache across a reload. A restore is described key by key: it writes the keys
for which the old state has a DNS-flow check and an address, with the old addresses and
result time, and it takes over the old static map. It looks at no time stamp, so what the
new state learned before the second restore is overwritten. -/
namespace ReloadDNS

open NetCHASM OrderedMap KeyOrder Runs HMState

/-- The addresses of a key's family that a restore finds in a cache. -/
def offered (c : HMDNSCache) (k : DNSKey) : List HMIPAddress :=
  (c.bothFamilies k.1 k.2.type k.2.remoteCheckGroup).toList.filter fun a =>
    a.getType == HMDNSCache.familyType k.2.ipv6

/-- The check of a header is one that waits for the lookups of a key. -/
def usesKey (h : HMCheckHeader) (k : DNSKey) : Bool :=
  h.hostCheck.flowType = .dnsHealth && h.hostname = k.1 && h.hostCheck.dnsType = k.2.type &&
    h.hostCheck.remoteCheck = k.2.remoteCheckGroup

/-- A restore from this state writes the key. -/
def carries (src : HMState) (k : DNSKey) : Bool :=
  (src.checkList.getAllChecks.any fun h => usesKey h k) && offered src.dnsCache k ≠ []

/-- The result time that a restore writes. -/
def offeredTime (c : HMDNSCache) (k : DNSKey) : HMTimeStamp :=
  ((c.cache.get? k).getD .default).resultTime

/-- An entry without its expired addresses, which depend on how often it was written. -/
def core (e : DNSKey × HMDNSResult) : DNSKey × HMDNSResult := (e.1, { e.2 with addrExp := ∅ })

/-- An entry as a restore leaves it. -/
def reloaded (c : HMDNSCache) (k : DNSKey) (e : DNSKey × HMDNSResult) : DNSKey × HMDNSResult :=
  (e.1, { e.2 with
    resultTime := offeredTime c k
    addr := SortedSet.insertAll ∅ (offered c k)
    addrExp := ∅ })

/-- The entry that a restore creates for a missing key has no plugin. -/
def freshEntry (k : DNSKey) : DNSKey × HMDNSResult :=
  ((k.1, .new k.2.type k.2.ipv6 k.2.remoteCheckGroup), .default)

theorem find?_updateReloadFamily (c : HMDNSCache) (name : HMString) (lookup : HMDNSLookup)
    (ipv6 : Bool) (addresses : List HMIPAddress) (time : HMTimeStamp) (k : DNSKey) :
    (c.updateReloadFamily name lookup ipv6 addresses time).cache.find? k =
      if eqv (name, .new lookup.type ipv6 lookup.remoteCheckGroup) k &&
          addresses.filter (fun a => a.getType == HMDNSCache.familyType ipv6) ≠ [] then
        let e := (c.cache.find? k).getD (freshEntry k)
        some (e.1, (e.2.setResultTime time).updateQuery (SortedSet.insertAll ∅
          (addresses.filter fun a => a.getType == HMDNSCache.familyType ipv6)))
      else c.cache.find? k := by
  unfold HMDNSCache.updateReloadFamily
  dsimp only
  split
  · rename_i hempty
    simp [hempty]
  · rename_i hne
    have hcache : ∀ c' : HMDNSCache, ∀ as : List HMIPAddress,
        (if lookup.type = .static then c'.addStaticDNSAddress name as else c').cache = c'.cache := by
      intro c' as
      split <;> rfl
    rw [hcache]
    dsimp only
    rw [SortedMap.find?_modify, SortedMap.find?_insert]
    by_cases hk : eqv (name, HMDNSLookup.new lookup.type ipv6 lookup.remoteCheckGroup) k = true
    · rcases DNSKey.eqv_iff.mp hk with ⟨h₁, h₂, h₃, h₄⟩
      have hkey : ((name, .new lookup.type ipv6 lookup.remoteCheckGroup) : DNSKey) =
          (freshEntry k).1 := by
        simp only [HMDNSLookup.new_type, HMDNSLookup.new_ipv6, HMDNSLookup.new_remoteCheckGroup]
          at h₁ h₂ h₃ h₄
        rw [freshEntry, h₁, h₂, h₃, h₄]
      have hcond : (eqv (name, HMDNSLookup.new lookup.type ipv6 lookup.remoteCheckGroup) k &&
          addresses.filter (fun a => a.getType == HMDNSCache.familyType ipv6) ≠ []) = true := by
        simp [hk, hne]
      rw [if_pos hk, if_pos hk, if_pos hcond, SortedMap.find?_congr _ hk, hkey]
      rfl
    · simp [hk]

/-- One family of a restored check: it writes a key of its own family and no other. -/
theorem find?_restoreFamily (src : HMState) (h : HMCheckHeader) (c : HMDNSCache) (k : DNSKey)
    (ipv6 : Bool) (hflow : h.hostCheck.flowType = .dnsHealth) :
    ((c.updateReloadFamily h.hostname (.new h.hostCheck.dnsType false h.hostCheck.remoteCheck) ipv6
      (src.dnsAddresses h).toList ((src.dnsCache.getDNSResult h.hostname
        (.new h.hostCheck.dnsType ipv6 h.hostCheck.remoteCheck)).getD .default).resultTime).cache.find?
          k).map core =
      if usesKey h k && k.2.ipv6 = ipv6 && offered src.dnsCache k ≠ [] then
        some (reloaded src.dnsCache k ((c.cache.find? k).getD (freshEntry k)))
      else (c.cache.find? k).map core := by
  rw [find?_updateReloadFamily]
  simp only [HMDNSLookup.new_type, HMDNSLookup.new_remoteCheckGroup]
  by_cases hk : eqv (h.hostname, HMDNSLookup.new h.hostCheck.dnsType ipv6 h.hostCheck.remoteCheck)
      k = true
  · rcases DNSKey.eqv_iff.mp hk with ⟨h₁, h₂, h₃, h₄⟩
    simp only [HMDNSLookup.new_type, HMDNSLookup.new_ipv6, HMDNSLookup.new_remoteCheckGroup]
      at h₁ h₂ h₃ h₄
    subst h₄
    have huses : usesKey h k = true := by simp [usesKey, hflow, h₁, h₂, h₃]
    have htime : ((src.dnsCache.getDNSResult h.hostname
        (.new h.hostCheck.dnsType k.2.ipv6 h.hostCheck.remoteCheck)).getD .default).resultTime =
          offeredTime src.dnsCache k := by
      rw [HMDNSCache.getDNSResult, SortedMap.get?_congr _ hk, offeredTime]
    have haddr : (src.dnsAddresses h).toList.filter
        (fun a => a.getType == HMDNSCache.familyType k.2.ipv6) = offered src.dnsCache k := by
      rw [dnsAddresses, offered, h₁, h₂, h₃]
    simp only [htime, haddr]
    by_cases hne : offered src.dnsCache k = []
    · simp [hne]
    · simp only [hk, huses, hne, ne_eq, not_false_eq_true, decide_true, Bool.and_self, if_true]
      rfl
  · have hnot : (usesKey h k && decide (k.2.ipv6 = ipv6)) = false := by
      rw [Bool.and_eq_false_iff]
      by_contra hboth
      rw [not_or] at hboth
      apply hk
      simp only [usesKey, Bool.not_eq_false, Bool.and_eq_true, decide_eq_true_eq] at hboth
      exact DNSKey.eqv_iff.mpr ⟨hboth.1.1.1.2, hboth.1.1.2, hboth.1.2, hboth.2.symm⟩
    rw [hnot]
    simp [hk]

theorem find?_restoreDNS (src : HMState) (h : HMCheckHeader) (c : HMDNSCache) (k : DNSKey)
    (hflow : h.hostCheck.flowType = .dnsHealth) :
    ((restoreDNS src h c).cache.find? k).map core =
      if usesKey h k && offered src.dnsCache k ≠ [] then
        some (reloaded src.dnsCache k ((c.cache.find? k).getD (freshEntry k)))
      else (c.cache.find? k).map core := by
  have hv6 := find?_restoreFamily src h (c.updateReloadFamily h.hostname
    (.new h.hostCheck.dnsType false h.hostCheck.remoteCheck) false (src.dnsAddresses h).toList
    ((src.dnsCache.getDNSResult h.hostname
      (.new h.hostCheck.dnsType false h.hostCheck.remoteCheck)).getD .default).resultTime) k true hflow
  have hv4 := find?_restoreFamily src h c k false hflow
  rw [restoreDNS, HMDNSCache.updateReloadDNSEntry, hv6]
  cases hfam : k.2.ipv6 with
  | false =>
    simp only [hfam] at hv4 ⊢
    simpa using hv4
  | true =>
    have hsame : (HMDNSCache.updateReloadFamily c h.hostname
        (.new h.hostCheck.dnsType false h.hostCheck.remoteCheck) false (src.dnsAddresses h).toList
        ((src.dnsCache.getDNSResult h.hostname
          (.new h.hostCheck.dnsType false h.hostCheck.remoteCheck)).getD .default).resultTime).cache.find?
            k = c.cache.find? k := by
      rw [find?_updateReloadFamily, if_neg]
      intro hcond
      have hk := ((Bool.and_eq_true _ _).mp hcond).1
      have := (DNSKey.eqv_iff.mp hk).2.2.2
      simp [HMDNSLookup.new, hfam] at this
    rw [hsame]
    simp

/-- What a restore writes depends on the entry only through its core. -/
theorem reloaded_getD (c : HMDNSCache) (k : DNSKey) (o : Option (DNSKey × HMDNSResult)) :
    reloaded c k (o.getD (freshEntry k)) = reloaded c k ((o.map core).getD (freshEntry k)) := by
  cases o <;> rfl

theorem restoreCheck_dnsCache (src dest : HMState) (h : HMCheckHeader) :
    (restoreCheck src dest h).dnsCache =
      if h.hostCheck.flowType = .dnsHealth then restoreDNS src h dest.dnsCache
      else dest.dnsCache := by
  have hresult : ∀ (d : HMState) (a : HMIPAddress),
      (restoreResult src h d a).dnsCache = d.dnsCache := by
    intro d a
    unfold restoreResult
    dsimp only
    split
    · rfl
    · split <;> rfl
  have hfold : ∀ (as : List HMIPAddress) (d : HMState),
      (as.foldl (restoreResult src h) d).dnsCache = d.dnsCache := by
    intro as
    induction as with
    | nil => exact fun _ => rfl
    | cons a as ih =>
      intro d
      rw [List.foldl_cons, ih, hresult]
  unfold restoreCheck
  dsimp only
  rw [hfold]
  split <;> rfl

theorem find?_restoreCheck (src dest : HMState) (h : HMCheckHeader) (k : DNSKey) :
    ((restoreCheck src dest h).dnsCache.cache.find? k).map core =
      if usesKey h k && offered src.dnsCache k ≠ [] then
        some (reloaded src.dnsCache k ((dest.dnsCache.cache.find? k).getD (freshEntry k)))
      else (dest.dnsCache.cache.find? k).map core := by
  rw [restoreCheck_dnsCache]
  split
  · rename_i hflow
    exact find?_restoreDNS src h dest.dnsCache k hflow
  · rename_i hflow
    have hnot : usesKey h k = false := by simp [usesKey, hflow]
    simp [hnot]

theorem find?_restoreChecks (src dest : HMState) (hs : List HMCheckHeader) (k : DNSKey) :
    ((hs.foldl (restoreCheck src) dest).dnsCache.cache.find? k).map core =
      if (hs.any fun h => usesKey h k) && offered src.dnsCache k ≠ [] then
        some (reloaded src.dnsCache k ((dest.dnsCache.cache.find? k).getD (freshEntry k)))
      else (dest.dnsCache.cache.find? k).map core := by
  induction hs generalizing dest with
  | nil => simp
  | cons h hs ih =>
    rw [List.foldl_cons, ih, reloaded_getD, find?_restoreCheck, List.any_cons]
    by_cases hne : offered src.dnsCache k = []
    · simp [hne]
    · cases husesh : usesKey h k with
      | false => simp [hne, ← reloaded_getD]
      | true =>
        simp only [Bool.true_or, hne, ne_eq, not_false_eq_true, decide_true, Bool.and_self, if_true,
          Bool.and_true, Option.getD_some]
        split <;> rfl

/-- A restore writes the keys that the old state carries over, and leaves the others. -/
theorem find?_restore (src dest : HMState) (k : DNSKey) :
    ((dest.restoreRunningCheckState src).dnsCache.cache.find? k).map core =
      if carries src k then
        some (reloaded src.dnsCache k ((dest.dnsCache.cache.find? k).getD (freshEntry k)))
      else (dest.dnsCache.cache.find? k).map core :=
  find?_restoreChecks src dest src.checkList.getAllChecks k

/-! The reload beside lookups and commands. -/

/-- The steps of a reload; the old state is current until the swap. -/
inductive Phase where
  | running
  | restored
  | swapped
  | done
  deriving DecidableEq, Repr

structure Reload where
  old : HMState
  new : HMState
  phase : Phase
  now : HMTimeStamp
  deriving DecidableEq, Repr

/-- A lookup answers with addresses of its own family, at least a blank one. -/
def IsAnswer (lookup : HMDNSLookup) (addresses : SortedSet HMIPAddress) : Prop :=
  addresses.toList ≠ [] ∧
    ∀ a ∈ addresses.toList, a.getType = HMDNSCache.familyType lookup.ipv6

instance (lookup : HMDNSLookup) (addresses : SortedSet HMIPAddress) :
    Decidable (IsAnswer lookup addresses) :=
  inferInstanceAs (Decidable (_ ∧ _))

inductive Event where
  | complete (name : HMString) (lookup : HMDNSLookup) (answer : Option (SortedSet HMIPAddress))
      (success : Bool)
  | addStatic (host : HMString) (addresses : List HMIPAddress)
  | removeStatic (host : HMString) (addresses : List HMIPAddress)
  | restoreFirst
  | swap
  | restoreSecond
  | advance (d : ℕ)
  deriving DecidableEq, Repr

namespace Reload

def onNew (s : Reload) : Bool := s.phase = .swapped || s.phase = .done

def current (s : Reload) : HMState := if s.onNew then s.new else s.old

def updateCurrent (s : Reload) (f : HMDNSCache → HMDNSCache) : Reload :=
  if s.onNew then { s with new := { s.new with dnsCache := f s.new.dnsCache } }
  else { s with old := { s.old with dnsCache := f s.old.dnsCache } }

def step (s : Reload) : Event → Option Reload
  | .complete name lookup answer success =>
    if answer.all fun addresses => IsAnswer lookup addresses then
      some (s.updateCurrent fun c => c.dnsLookup name lookup answer success s.now)
    else none
  | .addStatic host addresses =>
    some (s.updateCurrent fun c => c.addStaticDNSAddress host addresses)
  | .removeStatic host addresses =>
    some (s.updateCurrent fun c => c.removeStaticDNSAddress host addresses)
  | .restoreFirst =>
    if s.phase = .running then
      some { s with new := s.new.restoreRunningCheckState s.old, phase := .restored }
    else none
  | .swap => if s.phase = .restored then some { s with phase := .swapped } else none
  | .restoreSecond =>
    if s.phase = .swapped then
      some { s with new := s.new.restoreRunningCheckState s.old, phase := .done }
    else none
  | .advance d => some { s with now := s.now + d }

end Reload

/-- The addresses and the result time of a key. -/
def view (c : HMDNSCache) (k : DNSKey) : Option (SortedSet HMIPAddress × HMTimeStamp) :=
  (c.cache.get? k).map fun r => (r.addr, r.resultTime)

/-- The result of a key, if a lookup has completed for it. -/
def lookedUp (c : HMDNSCache) (k : DNSKey) : Option (SortedSet HMIPAddress × HMTimeStamp) :=
  (view c k).filter fun v => v.1.toList ≠ []

/-- The result of the latest lookup of a key once an event has led to a state. -/
def observed (k : DNSKey) (v : Option (SortedSet HMIPAddress × HMTimeStamp)) (e : Event)
    (s' : Reload) : Option (SortedSet HMIPAddress × HMTimeStamp) :=
  match e with
  | .complete name lookup _ _ => if eqv (name, lookup) k then view s'.current.dnsCache k else v
  | _ => v

/-- The result of the latest lookup that completed for a key, given the one before the run. -/
def latestLookup (k : DNSKey) : Reload → List Event →
    Option (SortedSet HMIPAddress × HMTimeStamp) → Option (SortedSet HMIPAddress × HMTimeStamp)
  | _, [], v => v
  | s, e :: es, v =>
    match s.step e with
    | none => v
    | some s' => latestLookup k s' es (observed k v e s')

/-- The static map once a command has been carried out on it. -/
def command (m : SortedMap (HMString × Bool) (SortedSet HMIPAddress)) :
    Event → SortedMap (HMString × Bool) (SortedSet HMIPAddress)
  | .addStatic host addresses =>
    addresses.foldl (fun m a => HMDNSCache.addStaticAddress m host a) m
  | .removeStatic host addresses =>
    addresses.foldl (fun m a => HMDNSCache.removeStaticAddress m host a) m
  | _ => m

/-- Nothing reaches the new state between the swap and the second restore that this restore
would overwrite. -/
def Undisturbed (k : DNSKey) (s : Reload) : Event → Prop
  | .complete name lookup _ _ =>
    s.phase = .swapped → eqv (name, lookup) k = true → lookedUp s.old.dnsCache k = none
  | .addStatic _ _ | .removeStatic _ _ => s.phase ≠ .swapped
  | .restoreFirst | .swap | .restoreSecond | .advance _ => True

instance (k : DNSKey) (s : Reload) : (e : Event) → Decidable (Undisturbed k s e)
  | .complete _ _ _ _ => inferInstanceAs (Decidable (_ → _ → _))
  | .addStatic _ _ | .removeStatic _ _ => inferInstanceAs (Decidable (_ ≠ _))
  | .restoreFirst | .swap | .restoreSecond | .advance _ => inferInstanceAs (Decidable True)

/-- Every address of a cache is of the family of its key. -/
def Proper (c : HMDNSCache) : Prop :=
  ∀ e ∈ c.cache.entries, ∀ a ∈ e.2.addr.toList, a.getType = HMDNSCache.familyType e.1.2.ipv6

variable {c : HMDNSCache} {k : DNSKey}

theorem Proper.address (hp : Proper c) {r : HMDNSResult} (hr : c.cache.get? k = some r)
    {a : HMIPAddress} (ha : a ∈ r.addr.toList) :
    a.getType = HMDNSCache.familyType k.2.ipv6 := by
  rcases SortedMap.get?_eq_some.mp hr with ⟨k', hk', heqv⟩
  rw [← (DNSKey.eqv_iff.mp heqv).2.2.2]
  exact hp (k', r) hk' a ha

theorem familyType_inj {a b : Bool} (h : HMDNSCache.familyType a = HMDNSCache.familyType b) :
    a = b := by
  revert a b
  decide

theorem contains_getAddresses (c : HMDNSCache) (name : HMString) (lookup : HMDNSLookup)
    (a : HMIPAddress) :
    (c.getAddresses name (HMDNSCache.familyOnly lookup.ipv6) lookup).contains a = true ↔
      ∃ r, c.cache.get? (name, lookup) = some r ∧ a ∈ r.addr.toList := by
  have hfamilies : ∀ ipv6, (HMDNSCache.familyOnly ipv6).families = [ipv6] := by decide
  have hkey : eqv (name, HMDNSLookup.new lookup.type lookup.ipv6 lookup.remoteCheckGroup)
      (name, lookup) = true := DNSKey.eqv_iff.mpr ⟨rfl, rfl, rfl, rfl⟩
  simp only [HMDNSCache.getAddresses, HMDNSCache.collectAddresses, HMDNSCache.familyLookups,
    hfamilies, List.map_cons, List.map_nil, List.foldl_cons, List.foldl_nil,
    HMDNSCache.getDNSResult, SortedMap.get?_congr _ hkey]
  cases c.cache.get? (name, lookup) with
  | none => simp [SortedMap.contains]
  | some r =>
    rw [SortedSet.contains_insertAll]
    simp [SortedMap.contains, eqv_iff_eq]

/-- A restore finds the addresses of the key itself. -/
theorem mem_offered (hp : Proper c) {a : HMIPAddress} :
    a ∈ offered c k ↔ ∃ r, c.cache.get? k = some r ∧ a ∈ r.addr.toList := by
  have hv4 := contains_getAddresses c k.1 (.new k.2.type false k.2.remoteCheckGroup) a
  have hv6 := contains_getAddresses c k.1 (.new k.2.type true k.2.remoteCheckGroup) a
  have hboth : a ∈ (c.bothFamilies k.1 k.2.type k.2.remoteCheckGroup).toList ↔
      ∃ f r, c.cache.get? (k.1, .new k.2.type f k.2.remoteCheckGroup) = some r ∧
        a ∈ r.addr.toList := by
    rw [← SortedSet.contains_iff_mem, HMDNSCache.bothFamilies, SortedSet.contains_insertAll,
      Bool.or_eq_true, Bool.exists_bool]
    simp only [List.any_eq_true, eqv_iff_eq, exists_eq_right, ← SortedSet.contains_iff_mem]
      at hv4 hv6 ⊢
    exact or_congr hv4 hv6
  have hself : ∀ f, f = k.2.ipv6 →
      c.cache.get? (k.1, .new k.2.type f k.2.remoteCheckGroup) = c.cache.get? k := by
    rintro f rfl
    exact SortedMap.get?_congr _ (DNSKey.eqv_iff.mpr ⟨rfl, rfl, rfl, rfl⟩)
  rw [offered, List.mem_filter, hboth, beq_iff_eq]
  constructor
  · rintro ⟨⟨f, r, hr, ha⟩, htype⟩
    have hf : f = k.2.ipv6 := familyType_inj ((hp.address hr ha).symm.trans htype)
    exact ⟨r, hself f hf ▸ hr, ha⟩
  · rintro ⟨r, hr, ha⟩
    exact ⟨⟨k.2.ipv6, r, (hself _ rfl).trans hr, ha⟩, hp.address hr ha⟩

/-- Without a lookup there is nothing to restore. -/
theorem offered_of_not_lookedUp (hp : Proper c) (h : lookedUp c k = none) : offered c k = [] := by
  rw [List.eq_nil_iff_forall_not_mem]
  intro a ha
  rcases (mem_offered hp).mp ha with ⟨r, hr, hmem⟩
  have hne : r.addr.toList ≠ [] := List.ne_nil_of_mem hmem
  simp [lookedUp, view, hr, hne] at h

/-- Otherwise a restore finds the result of the lookup. -/
theorem offered_of_lookedUp (hp : Proper c) {x : SortedSet HMIPAddress × HMTimeStamp}
    (h : lookedUp c k = some x) :
    offered c k ≠ [] ∧ SortedSet.insertAll ∅ (offered c k) = x.1 ∧ offeredTime c k = x.2 := by
  rcases Option.filter_eq_some_iff.mp h with ⟨hview, hne⟩
  rcases Option.map_eq_some_iff.mp hview with ⟨r, hr, rfl⟩
  have hmem : ∀ a, a ∈ offered c k ↔ a ∈ r.addr.toList := by
    intro a
    simp [mem_offered hp, hr]
  refine ⟨?_, ?_, ?_⟩
  · intro hnil
    apply of_decide_eq_true hne
    rw [List.eq_nil_iff_forall_not_mem]
    intro a ha
    simpa [hnil] using (hmem a).mpr ha
  · apply SortedSet.ext_contains
    intro a
    rw [SortedSet.contains_insertAll, Bool.eq_iff_iff, SortedSet.contains_iff_mem, ← hmem a]
    simp [SortedMap.contains, eqv_iff_eq]
  · simp [offeredTime, hr]

/-- A lookup that ends leaves some address under its key, each of them of its family or
there before. -/
theorem takeAnswer_addr (c : HMDNSCache) (name : HMString) (lookup : HMDNSLookup)
    {answer : Option (SortedSet HMIPAddress)}
    (hanswer : (answer.all fun addresses => IsAnswer lookup addresses) = true) {r : HMDNSResult}
    (hr : c.cache.get? (name, lookup) = some r) :
    (c.takeAnswer name lookup answer r).addr.toList ≠ [] ∧
      ∀ a ∈ (c.takeAnswer name lookup answer r).addr.toList,
        a.getType = HMDNSCache.familyType lookup.ipv6 ∨ a ∈ r.addr.toList := by
  cases answer with
  | some addresses =>
    have haddr : IsAnswer lookup addresses := by simpa using hanswer
    exact ⟨haddr.1, fun a ha => Or.inl (haddr.2 a ha)⟩
  | none =>
    unfold HMDNSCache.takeAnswer
    dsimp only
    split
    · have hblank : (HMIPAddress.ofType (HMDNSCache.familyType lookup.ipv6)).getType =
          HMDNSCache.familyType lookup.ipv6 := by
        cases lookup.ipv6 <;> decide
      refine ⟨List.cons_ne_nil _ _, ?_⟩
      intro a ha
      rw [List.mem_singleton.mp ha]
      exact Or.inl hblank
    · rename_i hempty
      refine ⟨?_, fun a ha => Or.inr ha⟩
      obtain ⟨a, ha⟩ := List.exists_mem_of_ne_nil _ hempty
      obtain ⟨r', hr', hmem⟩ :=
        (contains_getAddresses c name lookup a).mp (SortedSet.contains_iff_mem.mpr ha)
      obtain rfl := Option.some.inj (hr.symm.trans hr')
      exact List.ne_nil_of_mem hmem

section Completion

variable {name : HMString} {lookup : HMDNSLookup} {answer : Option (SortedSet HMIPAddress)}
  {success : Bool} {now : HMTimeStamp}

theorem proper_dnsLookup (hp : Proper c)
    (hanswer : (answer.all fun addresses => IsAnswer lookup addresses) = true) :
    Proper (c.dnsLookup name lookup answer success now) := by
  intro e he a ha
  rw [HMDNSCache.dnsLookup_cache] at he
  rcases List.mem_map.mp he with ⟨e', he', rfl⟩
  dsimp only at ha ⊢
  split at ha
  · rename_i hk
    have hr : c.cache.get? (name, lookup) = some e'.2 :=
      SortedMap.get?_eq_some.mpr ⟨e'.1, he', hk⟩
    rcases (takeAnswer_addr c name lookup hanswer hr).2 a ha with hown | hbefore
    · rw [hown, (DNSKey.eqv_iff.mp hk).2.2.2]
    · exact hp e' he' a hbefore
  · exact hp e' he' a ha

theorem view_dnsLookup_of_not_eqv (hk : eqv (name, lookup) k = false) :
    view (c.dnsLookup name lookup answer success now) k = view c k := by
  simp [view, HMDNSCache.dnsLookup_cache, SortedMap.get?_modify, hk]

/-- After a lookup of the key there is a result for it. -/
theorem lookedUp_dnsLookup (hk : eqv (name, lookup) k = true)
    (hanswer : (answer.all fun addresses => IsAnswer lookup addresses) = true) :
    lookedUp (c.dnsLookup name lookup answer success now) k =
      view (c.dnsLookup name lookup answer success now) k := by
  simp only [lookedUp, view, HMDNSCache.dnsLookup_cache, SortedMap.get?_modify, hk, if_true,
    Option.map_map]
  cases hr : c.cache.get? k with
  | none => rfl
  | some r =>
    rw [← SortedMap.get?_congr _ hk] at hr
    have hne := (takeAnswer_addr c name lookup hanswer hr).1
    simp [HMDNSResult.finishQuery, hne]

end Completion

/-- A restore from a state with a looked-up key gives the key that result. -/
theorem view_restore {src dest : HMState} (hp : Proper src.dnsCache)
    (huses : (src.checkList.getAllChecks.any fun h => usesKey h k) = true)
    {x : SortedSet HMIPAddress × HMTimeStamp} (h : lookedUp src.dnsCache k = some x) :
    view (dest.restoreRunningCheckState src).dnsCache k = some x := by
  obtain ⟨hne, haddr, htime⟩ := offered_of_lookedUp hp h
  have hcarries : carries src k = true := by simp [carries, huses, hne]
  have hfind := find?_restore src dest k
  rw [if_pos hcarries] at hfind
  rcases Option.map_eq_some_iff.mp hfind with ⟨e, he, hcore⟩
  have hresult := congrArg (fun e : DNSKey × HMDNSResult => (e.2.addr, e.2.resultTime)) hcore
  simp only [core, reloaded, haddr, htime] at hresult
  simp [view, SortedMap.get?, he, hresult]

/-- Otherwise it leaves the key as it is. -/
theorem view_restore_of_not_lookedUp {src dest : HMState} (hp : Proper src.dnsCache)
    (h : lookedUp src.dnsCache k = none) :
    view (dest.restoreRunningCheckState src).dnsCache k = view dest.dnsCache k := by
  have hcarries : carries src k = false := by simp [carries, offered_of_not_lookedUp hp h]
  have hfind := find?_restore src dest k
  rw [hcarries] at hfind
  have hview := congrArg (Option.map fun e : DNSKey × HMDNSResult => (e.2.addr, e.2.resultTime))
    hfind
  simpa [view, SortedMap.get?, core, Function.comp_def] using hview

/-- What the two states have of the latest lookup and of the static map in each phase. -/
def UpToDate (k : DNSKey) (v : Option (SortedSet HMIPAddress × HMTimeStamp))
    (m : SortedMap (HMString × Bool) (SortedSet HMIPAddress)) (s : Reload) : Prop :=
  match s.phase with
  | .running | .restored => lookedUp s.old.dnsCache k = v ∧ s.old.dnsCache.staticDNS = m
  | .swapped =>
    (∀ x, lookedUp s.old.dnsCache k = some x → v = some x) ∧
    (lookedUp s.old.dnsCache k = none → ∀ x, v = some x → view s.new.dnsCache k = some x) ∧
    s.old.dnsCache.staticDNS = m
  | .done => (∀ x, v = some x → view s.new.dnsCache k = some x) ∧ s.new.dnsCache.staticDNS = m

/-- A state whose lookups of a key are restored. -/
structure Restorable (k : DNSKey) (s : HMState) : Prop where
  proper : Proper s.dnsCache
  uses : (s.checkList.getAllChecks.any fun h => usesKey h k) = true

variable {v : Option (SortedSet HMIPAddress × HMTimeStamp)}
  {m : SortedMap (HMString × Bool) (SortedSet HMIPAddress)} {s s' : Reload} {e : Event}

/-- What a step can do: end a lookup or carry out a command on the current state, go on with
the reload, or let time pass. -/
theorem step_cases (hstep : s.step e = some s') :
    (∃ name lookup answer success, e = .complete name lookup answer success ∧
      (answer.all fun addresses => IsAnswer lookup addresses) = true ∧
      s' = s.updateCurrent fun c => c.dnsLookup name lookup answer success s.now) ∨
    (Undisturbed k s e = (s.phase ≠ .swapped) ∧ observed k v e s' = v ∧
      s' = s.updateCurrent fun c => c.setStaticDns (command c.staticDNS e)) ∨
    (e = .restoreFirst ∧ s.phase = .running ∧
      s' = { s with new := s.new.restoreRunningCheckState s.old, phase := .restored }) ∨
    (e = .swap ∧ s.phase = .restored ∧ s' = { s with phase := .swapped }) ∨
    (e = .restoreSecond ∧ s.phase = .swapped ∧
      s' = { s with new := s.new.restoreRunningCheckState s.old, phase := .done }) ∨
    ∃ d, e = .advance d ∧ s' = { s with now := s.now + d } := by
  cases e with
  | complete name lookup answer success =>
    simp only [Reload.step] at hstep
    split at hstep
    · rename_i hanswer
      exact Or.inl ⟨name, lookup, answer, success, rfl, hanswer, (Option.some.inj hstep).symm⟩
    · cases hstep
  | addStatic host addresses =>
    exact Or.inr (Or.inl ⟨rfl, rfl, (Option.some.inj hstep).symm⟩)
  | removeStatic host addresses =>
    exact Or.inr (Or.inl ⟨rfl, rfl, (Option.some.inj hstep).symm⟩)
  | restoreFirst =>
    rcases Option.ite_none_right_eq_some.mp hstep with ⟨hphase, hs'⟩
    obtain rfl := Option.some.inj hs'
    exact Or.inr (Or.inr (Or.inl ⟨rfl, hphase, rfl⟩))
  | swap =>
    rcases Option.ite_none_right_eq_some.mp hstep with ⟨hphase, hs'⟩
    obtain rfl := Option.some.inj hs'
    exact Or.inr (Or.inr (Or.inr (Or.inl ⟨rfl, hphase, rfl⟩)))
  | restoreSecond =>
    rcases Option.ite_none_right_eq_some.mp hstep with ⟨hphase, hs'⟩
    obtain rfl := Option.some.inj hs'
    exact Or.inr (Or.inr (Or.inr (Or.inr (Or.inl ⟨rfl, hphase, rfl⟩))))
  | advance d =>
    exact Or.inr (Or.inr (Or.inr (Or.inr (Or.inr ⟨d, rfl, (Option.some.inj hstep).symm⟩))))

theorem step_restorable (hr : Restorable k s.old) (hstep : s.step e = some s') :
    Restorable k s'.old := by
  have hupdate : ∀ f : HMDNSCache → HMDNSCache, Proper (f s.old.dnsCache) →
      Restorable k (s.updateCurrent f).old := by
    intro f hf
    unfold Reload.updateCurrent
    split
    · exact hr
    · exact ⟨hf, hr.uses⟩
  obtain ⟨name, lookup, answer, success, -, hanswer, rfl⟩ | ⟨-, -, rfl⟩ | ⟨-, -, rfl⟩ | ⟨-, -, rfl⟩ |
    ⟨-, -, rfl⟩ | ⟨d, -, rfl⟩ := step_cases (k := k) (v := none) hstep
  · exact hupdate _ (proper_dnsLookup hr.proper hanswer)
  · exact hupdate _ hr.proper
  · exact hr
  · exact hr
  · exact hr
  · exact hr

/-- The end of a lookup on the current state. -/
theorem upToDate_complete {name : HMString} {lookup : HMDNSLookup}
    {answer : Option (SortedSet HMIPAddress)} {success : Bool}
    (hu : UpToDate k v m s) (hund : Undisturbed k s (.complete name lookup answer success))
    (hanswer : (answer.all fun addresses => IsAnswer lookup addresses) = true)
    (hs' : s' = s.updateCurrent fun c => c.dnsLookup name lookup answer success s.now) :
    UpToDate k (observed k v (.complete name lookup answer success) s') m s' := by
  have hview : ∀ c : HMDNSCache, eqv (name, lookup) k = false →
      view (c.dnsLookup name lookup answer success s.now) k = view c k :=
    fun c hk => view_dnsLookup_of_not_eqv hk
  have hstatic : ∀ c : HMDNSCache,
      (c.dnsLookup name lookup answer success s.now).staticDNS = c.staticDNS := by
    intro c
    cases answer with
    | some addresses => rfl
    | none =>
      simp only [HMDNSCache.dnsLookup]
      split <;> rfl
  subst hs'
  cases hk : eqv (name, lookup) k with
  | true =>
    have hlooked : ∀ c : HMDNSCache, lookedUp (c.dnsLookup name lookup answer success s.now) k =
        view (c.dnsLookup name lookup answer success s.now) k :=
      fun c => lookedUp_dnsLookup hk hanswer
    cases hphase : s.phase with
    | running | restored =>
      simp_all [UpToDate, Reload.updateCurrent, Reload.onNew, observed, Reload.current]
    | swapped =>
      have hnone := hund hphase hk
      simp_all [UpToDate, Reload.updateCurrent, Reload.onNew, observed, Reload.current]
    | done => simp_all [UpToDate, Reload.updateCurrent, Reload.onNew, observed, Reload.current]
  | false =>
    have hsame : ∀ c : HMDNSCache,
        lookedUp (c.dnsLookup name lookup answer success s.now) k = lookedUp c k := by
      intro c
      rw [lookedUp, hview c hk, lookedUp]
    cases hphase : s.phase with
    | running | restored | swapped | done =>
      simp only [UpToDate, hphase] at hu
      simpa [UpToDate, Reload.updateCurrent, Reload.onNew, hphase, observed, hk, hsame, hview,
        hstatic] using hu

theorem step_upToDate (hr : Restorable k s.old) (hu : UpToDate k v m s)
    (hund : Undisturbed k s e) (hstep : s.step e = some s') :
    UpToDate k (observed k v e s') (command m e) s' := by
  obtain ⟨name, lookup, answer, success, rfl, hanswer, hs'⟩ | ⟨hcond, hobs, hs'⟩ |
    ⟨rfl, hphase, rfl⟩ | ⟨rfl, hphase, rfl⟩ | ⟨rfl, hphase, rfl⟩ | ⟨d, rfl, rfl⟩ :=
    step_cases (k := k) (v := v) hstep
  · exact upToDate_complete hu hund hanswer hs'
  · rw [hcond] at hund
    rw [hobs]
    subst hs'
    -- A command touches the static map alone, and not between the swap and the restore.
    cases hphase : s.phase with
    | swapped => exact absurd hphase hund
    | running | restored | done =>
      simp_all [UpToDate, Reload.updateCurrent, Reload.onNew, HMDNSCache.setStaticDns, view,
        lookedUp]
  · simpa [UpToDate, hphase, observed, command] using hu
  · simp only [UpToDate, hphase] at hu
    rcases hu with ⟨rfl, hstatic⟩
    refine ⟨fun x hx => hx, ?_, hstatic⟩
    intro hnone x hx
    simp [observed, hnone] at hx
  · simp only [UpToDate, hphase] at hu
    rcases hu with ⟨hold, hnew, hstatic⟩
    refine ⟨?_, hstatic⟩
    intro x hx
    cases hlooked : lookedUp s.old.dnsCache k with
    | none =>
      rw [view_restore_of_not_lookedUp hr.proper hlooked]
      exact hnew hlooked x hx
    | some y =>
      have hxy : some y = some x := (hold y hlooked).symm.trans hx
      exact view_restore hr.proper hr.uses (hlooked.trans hxy)
  · exact hu

theorem run_upToDate {es : List Event} (hr : Restorable k s.old) (hu : UpToDate k v m s)
    (halong : Along Reload.step (Undisturbed k) s es) (hrun : runTrace Reload.step s es = some s') :
    UpToDate k (latestLookup k s es v) (es.foldl command m) s' := by
  induction es generalizing s v m with
  | nil =>
    obtain rfl : s = s' := by simpa using hrun
    exact hu
  | cons e es ih =>
    rcases runTrace_cons.mp hrun with ⟨n, hn, hrest⟩
    have hlatest : latestLookup k s (e :: es) v = latestLookup k n es (observed k v e n) := by
      simp [latestLookup, hn]
    rw [hlatest, List.foldl_cons]
    exact ih (step_restorable hr hn) (step_upToDate hr hu halong.1 hn) (halong.2 n hn) hrest

/-- A reload beside lookups and commands ends with the result of the latest lookup and with
every command carried out, if nothing disturbs it between the swap and the second restore. -/
theorem reload_keeps_dns_updates {k : DNSKey} {s s' : Reload} {es : List Event}
    (hr : Restorable k s.old) (hstart : s.phase = .running)
    (halong : Along Reload.step (Undisturbed k) s es) (hrun : runTrace Reload.step s es = some s')
    (hdone : s'.phase = .done) :
    (∀ x, latestLookup k s es (lookedUp s.old.dnsCache k) = some x →
      view s'.current.dnsCache k = some x) ∧
    s'.current.dnsCache.staticDNS = es.foldl command s.old.dnsCache.staticDNS := by
  have hstartDate : UpToDate k (lookedUp s.old.dnsCache k) s.old.dnsCache.staticDNS s := by
    simp [UpToDate, hstart]
  have hend := run_upToDate hr hstartDate halong hrun
  simp only [UpToDate, hdone] at hend
  simpa [Reload.current, Reload.onNew, hdone] using hend

/-- A reload that changes nothing in the configuration: one group of one host. -/
def sampleReload : Reload :=
  let s := generateCheckList .default (SortedMap.empty.insert (bytes "web")
    { HMDataHostGroup.new (bytes "web") with hosts := [bytes "a"] })
  { old := s, new := s, phase := .running, now := 100 }

def sampleKey : DNSKey := (bytes "a", .new .lookup false [])

/-- A lookup of the host that finds one address. -/
def sampleAnswer (address : HMIPAddress) : Event :=
  .complete (bytes "a") (.new .lookup false []) (some (SortedMap.empty.insert address ())) true

def sampleRun : List Event :=
  [sampleAnswer (.v4 1), .restoreFirst, .advance 5, sampleAnswer (.v4 2), .swap, .restoreSecond,
    .addStatic (bytes "a") [.v4 7]]

theorem reload_keeps_lookup_after_first_restore :
    Along Reload.step (Undisturbed sampleKey) sampleReload sampleRun ∧
      ∃ s', runTrace Reload.step sampleReload sampleRun = some s' ∧ s'.phase = .done ∧
        view s'.current.dnsCache sampleKey = some (SortedMap.empty.insert (.v4 2) (), 105) ∧
        s'.current.dnsCache.staticDNS =
          sampleRun.foldl command sampleReload.old.dnsCache.staticDNS := by
  have hr : Restorable sampleKey sampleReload.old :=
    ⟨by unfold Proper; decide +kernel, by decide +kernel⟩
  have halong : Along Reload.step (Undisturbed sampleKey) sampleReload sampleRun := by
    decide +kernel
  have hsome : (runTrace Reload.step sampleReload sampleRun).isSome = true := by decide +kernel
  rcases Option.isSome_iff_exists.mp hsome with ⟨s', hs'⟩
  have hdone : s'.phase = .done := by
    have hphase : (runTrace Reload.step sampleReload sampleRun).map Reload.phase = some .done := by
      decide +kernel
    simpa [hs'] using hphase
  have hlatest : latestLookup sampleKey sampleReload sampleRun
      (lookedUp sampleReload.old.dnsCache sampleKey) =
        some (SortedMap.empty.insert (.v4 2) (), 105) := by
    decide +kernel
  obtain ⟨hview, hstatic⟩ := reload_keeps_dns_updates hr rfl halong hs' hdone
  exact ⟨halong, s', hs', hdone, hview _ hlatest, hstatic⟩

/-- A lookup that completes and a command that is given between the swap and the second
restore are both lost. -/
def disturbedRun : List Event :=
  [sampleAnswer (.v4 1), .restoreFirst, .swap, .advance 5, sampleAnswer (.v4 2),
    .addStatic (bytes "a") [.v4 7], .restoreSecond]

theorem second_restore_loses_dns_updates :
    Restorable sampleKey sampleReload.old ∧
    latestLookup sampleKey sampleReload disturbedRun
      (lookedUp sampleReload.old.dnsCache sampleKey) =
        some (SortedMap.empty.insert (.v4 2) (), 105) ∧
    (runTrace Reload.step sampleReload disturbedRun).map (fun s' => (s'.phase,
      view s'.current.dnsCache sampleKey)) =
        some (.done, some (SortedMap.empty.insert (.v4 1) (), 100)) ∧
    (runTrace Reload.step sampleReload disturbedRun).map
      (fun s' => s'.current.dnsCache.staticDNS) = some ∅ ∧
    disturbedRun.foldl command sampleReload.old.dnsCache.staticDNS ≠ ∅ := by
  refine ⟨⟨?_, ?_⟩, ?_, ?_, ?_, ?_⟩
  · unfold Proper
    decide +kernel
  · decide +kernel
  · decide +kernel
  · decide +kernel
  · decide +kernel
  · decide +kernel

end ReloadDNS
