import NetCHASM.CheckListIndex
import NetCHASM.StorageHostGroup
import NetCHASM.Library.Runs

/-! The store that keeps its records by host. A backend is given by its primitives; it acts as
maps if its state can be read as a record of maps that the primitives look up and update. A
result is found through a second record, the addresses of its host. -/
namespace NetCHASM

open KeyOrder OrderedMap

/-- A check result on its way to the backend. -/
structure HMCheckData where
  header : HMCheckHeader
  result : HMDataCheckResult
  deriving DecidableEq, Repr

structure HMAuxData where
  header : HMCheckHeader
  info : HMAuxInfo
  deriving DecidableEq, Repr

/-- Headers that the comparison of the source does not tell apart. -/
def HMCheckHeader.same (h h' : HMCheckHeader) : Bool :=
  h.hostname = h'.hostname && h.address = h'.address && h.hostCheck.beq h'.hostCheck &&
    h.checkParams = h'.checkParams

/-- The primitives of a backend. A store or a removal says whether it succeeded. -/
structure HostBackend (σ : Type) where
  storeHostNames : σ → SortedSet HMString → σ × Bool
  getHostNames : σ → Option (SortedSet HMString)
  storeNameChecks : σ → HMString → List HMCheckHeader → σ × Bool
  getNameChecks : σ → HMString → Option (List HMCheckHeader)
  storeHostGroupNames : σ → SortedSet HMString → σ × Bool
  getHostGroupNames : σ → Option (SortedSet HMString)
  storeGroupInfo : σ → HMString → HMDataHostGroup → σ × Bool
  getGroupInfo : σ → HMString → Option HMDataHostGroup
  storeHostCheckResult : σ → HMCheckData → σ × Bool
  getHostCheckResult : σ → HMCheckHeader → Option HMDataCheckResult
  removeHostCheckResult : σ → HMCheckHeader → σ × Bool
  storeHostAuxInfo : σ → HMAuxData → σ × Bool
  getHostAuxInfo : σ → HMCheckHeader → Option HMAuxInfo
  removeHostAuxInfo : σ → HMCheckHeader → σ × Bool
  storeDNSResult : σ → HMString → SortedSet HMIPAddress → σ × Bool
  getDNSResult : σ → HMString → Option (SortedSet HMIPAddress)

/-- Values by header. -/
abbrev HeaderMap (ρ : Type) := HMCheckHeader → Option ρ

namespace HeaderMap

variable {ρ : Type}

def empty : HeaderMap ρ := fun _ => none

def put (m : HeaderMap ρ) (h : HMCheckHeader) (r : ρ) : HeaderMap ρ := fun h' =>
  if h.same h' then some r else m h'

def drop (m : HeaderMap ρ) (h : HMCheckHeader) : HeaderMap ρ := fun h' =>
  if h.same h' then none else m h'

end HeaderMap

/-- What a backend holds, as maps. -/
structure HostRecords where
  hostNames : Option (SortedSet HMString)
  nameChecks : HMString → Option (List HMCheckHeader)
  hostGroupNames : Option (SortedSet HMString)
  groupInfo : HMString → Option HMDataHostGroup
  checkResults : HeaderMap HMDataCheckResult
  auxInfo : HeaderMap HMAuxInfo
  dns : HMString → Option (SortedSet HMIPAddress)

def HostRecords.empty : HostRecords :=
  ⟨none, fun _ => none, none, fun _ => none, .empty, .empty, fun _ => none⟩

/-- The primitives look up and update the maps of the given view. -/
structure ActsAsMaps {σ : Type} (b : HostBackend σ) (view : σ → HostRecords) : Prop where
  storeHostNames : ∀ s names, (b.storeHostNames s names).2 = true ∧
    view (b.storeHostNames s names).1 = { view s with hostNames := some names }
  getHostNames : ∀ s, b.getHostNames s = (view s).hostNames
  storeNameChecks : ∀ s name checks, (b.storeNameChecks s name checks).2 = true ∧
    view (b.storeNameChecks s name checks).1 =
      { view s with nameChecks := Function.update (view s).nameChecks name (some checks) }
  getNameChecks : ∀ s name, b.getNameChecks s name = (view s).nameChecks name
  storeHostGroupNames : ∀ s names, (b.storeHostGroupNames s names).2 = true ∧
    view (b.storeHostGroupNames s names).1 = { view s with hostGroupNames := some names }
  getHostGroupNames : ∀ s, b.getHostGroupNames s = (view s).hostGroupNames
  storeGroupInfo : ∀ s name g, (b.storeGroupInfo s name g).2 = true ∧
    view (b.storeGroupInfo s name g).1 =
      { view s with groupInfo := Function.update (view s).groupInfo name (some g) }
  getGroupInfo : ∀ s name, b.getGroupInfo s name = (view s).groupInfo name
  storeHostCheckResult : ∀ s data, (b.storeHostCheckResult s data).2 = true ∧
    view (b.storeHostCheckResult s data).1 =
      { view s with checkResults := (view s).checkResults.put data.header data.result }
  getHostCheckResult : ∀ s h, b.getHostCheckResult s h = (view s).checkResults h
  removeHostCheckResult : ∀ s h, view (b.removeHostCheckResult s h).1 =
    { view s with checkResults := (view s).checkResults.drop h }
  storeHostAuxInfo : ∀ s data, (b.storeHostAuxInfo s data).2 = true ∧
    view (b.storeHostAuxInfo s data).1 =
      { view s with auxInfo := (view s).auxInfo.put data.header data.info }
  getHostAuxInfo : ∀ s h, b.getHostAuxInfo s h = (view s).auxInfo h
  removeHostAuxInfo : ∀ s h,
    view (b.removeHostAuxInfo s h).1 = { view s with auxInfo := (view s).auxInfo.drop h }
  storeDNSResult : ∀ s host ips, (b.storeDNSResult s host ips).2 = true ∧
    view (b.storeDNSResult s host ips).1 =
      { view s with dns := Function.update (view s).dns host (some ips) }
  getDNSResult : ∀ s host, b.getDNSResult s host = (view s).dns host

/-- The backend that is a record of maps. -/
def mapBackend : HostBackend HostRecords where
  storeHostNames s names := ({ s with hostNames := some names }, true)
  getHostNames s := s.hostNames
  storeNameChecks s name checks :=
    ({ s with nameChecks := Function.update s.nameChecks name (some checks) }, true)
  getNameChecks s := s.nameChecks
  storeHostGroupNames s names := ({ s with hostGroupNames := some names }, true)
  getHostGroupNames s := s.hostGroupNames
  storeGroupInfo s name g :=
    ({ s with groupInfo := Function.update s.groupInfo name (some g) }, true)
  getGroupInfo s := s.groupInfo
  storeHostCheckResult s data :=
    ({ s with checkResults := s.checkResults.put data.header data.result }, true)
  getHostCheckResult s := s.checkResults
  removeHostCheckResult s h := ({ s with checkResults := s.checkResults.drop h }, true)
  storeHostAuxInfo s data := ({ s with auxInfo := s.auxInfo.put data.header data.info }, true)
  getHostAuxInfo s := s.auxInfo
  removeHostAuxInfo s h := ({ s with auxInfo := s.auxInfo.drop h }, true)
  storeDNSResult s host ips := ({ s with dns := Function.update s.dns host (some ips) }, true)
  getDNSResult s := s.dns

theorem mapBackend_actsAsMaps : ActsAsMaps mapBackend id where
  storeHostNames _ _ := ⟨rfl, rfl⟩
  getHostNames _ := rfl
  storeNameChecks _ _ _ := ⟨rfl, rfl⟩
  getNameChecks _ _ := rfl
  storeHostGroupNames _ _ := ⟨rfl, rfl⟩
  getHostGroupNames _ := rfl
  storeGroupInfo _ _ _ := ⟨rfl, rfl⟩
  getGroupInfo _ _ := rfl
  storeHostCheckResult _ _ := ⟨rfl, rfl⟩
  getHostCheckResult _ _ := rfl
  removeHostCheckResult _ _ := rfl
  storeHostAuxInfo _ _ := ⟨rfl, rfl⟩
  getHostAuxInfo _ _ := rfl
  removeHostAuxInfo _ _ := rfl
  storeDNSResult _ _ _ := ⟨rfl, rfl⟩
  getDNSResult _ _ := rfl

structure HMStorageHost (σ : Type) where
  backend : σ
  storeCheckQueue : List HMCheckData
  storeAuxQueue : List HMAuxData
  readonly : Bool

namespace HMStorageHost

variable {σ ρ : Type} (b : HostBackend σ)

def storeCheckResult (s : HMStorageHost σ) (data : HMCheckData) : HMStorageHost σ × Bool :=
  if s.readonly then (s, false)
  else ({ s with storeCheckQueue := s.storeCheckQueue ++ [data] }, true)

def storeAuxInfo (s : HMStorageHost σ) (data : HMAuxData) : HMStorageHost σ × Bool :=
  if s.readonly then (s, false)
  else ({ s with storeAuxQueue := s.storeAuxQueue ++ [data] }, true)

def purgeCheckResult (s : HMStorageHost σ) (h : HMCheckHeader) : HMStorageHost σ × Bool :=
  ({ s with backend := (b.removeHostCheckResult s.backend h).1 },
    (b.removeHostCheckResult s.backend h).2)

def purgeAuxInfo (s : HMStorageHost σ) (h : HMCheckHeader) : HMStorageHost σ × Bool :=
  ({ s with backend := (b.removeHostAuxInfo s.backend h).1 },
    (b.removeHostAuxInfo s.backend h).2)

def getCheckResult (s : HMStorageHost σ) (h : HMCheckHeader) : Option HMDataCheckResult :=
  b.getHostCheckResult s.backend h

def getAuxInfo (s : HMStorageHost σ) (h : HMCheckHeader) : Option HMAuxInfo :=
  b.getHostAuxInfo s.backend h

def getDNS (s : HMStorageHost σ) (hostname : HMString) : Option (SortedSet HMIPAddress) :=
  b.getDNSResult s.backend hostname

/-- The addresses of a host are read, changed and written back. The new address goes in only
when there are addresses to read. -/
def commitDNS (backend : σ) (h : HMCheckHeader) : σ :=
  let addresses := match b.getDNSResult backend h.hostname with
    | none => ∅
    | some addresses => addresses.insert h.address ()
  (b.storeDNSResult backend h.hostname addresses).1

def commitHealthCheck (s : HMStorageHost σ) : HMStorageHost σ × Bool :=
  match s.storeCheckQueue with
  | [] => (s, false)
  | data :: queue =>
    ({ s with
      storeCheckQueue := queue
      backend := commitDNS b (b.storeHostCheckResult s.backend data).1 data.header }, true)

def commitAuxInfo (s : HMStorageHost σ) : HMStorageHost σ × Bool :=
  match s.storeAuxQueue with
  | [] => (s, false)
  | data :: queue =>
    ({ s with
      storeAuxQueue := queue
      backend := commitDNS b (b.storeHostAuxInfo s.backend data).1 data.header }, true)

/-- The entries of a group at a point of time: for each of its hosts with addresses, what is
stored for the check of the group at each of them. -/
def getGroupEntries (groups : HMDataHostGroupMap) (now : HMTimeStamp) (s : HMStorageHost σ)
    (get : HeaderMap ρ) (groupName : HMString) : Option (List (GroupEntry ρ)) :=
  (groups.get? groupName).map fun g =>
    g.hosts.flatMap fun host =>
      match b.getDNSResult s.backend host with
      | none => []
      | some ips => ips.toList.filterMap fun ip =>
        (get ⟨host, ip, g.getHostCheck.getD .default, g.getCheckParameters⟩).map fun r =>
          ⟨host, ip, false, now, r⟩

def getGroupCheckResults (groups : HMDataHostGroupMap) (now : HMTimeStamp) (s : HMStorageHost σ)
    (groupName : HMString) : Option (List HMGroupCheckResult) :=
  getGroupEntries b groups now s (b.getHostCheckResult s.backend) groupName

def getGroupAuxInfo (groups : HMDataHostGroupMap) (now : HMTimeStamp) (s : HMStorageHost σ)
    (groupName : HMString) : Option (List HMGroupAuxResult) :=
  getGroupEntries b groups now s (b.getHostAuxInfo s.backend) groupName

end HMStorageHost

/-- A call into the store. The commits are made by its thread. -/
inductive HostEvent where
  | storeCheckResult (data : HMCheckData)
  | storeAuxInfo (data : HMAuxData)
  | commitHealthCheck
  | commitAuxInfo
  | purgeCheckResult (h : HMCheckHeader)
  | purgeAuxInfo (h : HMCheckHeader)

/-- The store with an account of what has been committed and neither overwritten nor purged. -/
structure HostRun (σ : Type) where
  store : HMStorageHost σ
  results : HeaderMap HMDataCheckResult
  aux : HeaderMap HMAuxInfo

namespace HostRun

variable {σ ρ : Type} (b : HostBackend σ)

/-- A run starts on any store, with nothing committed yet. -/
def start (s : HMStorageHost σ) : HostRun σ := ⟨s, .empty, .empty⟩

def step (r : HostRun σ) : HostEvent → Option (HostRun σ)
  | .storeCheckResult data => some { r with store := (r.store.storeCheckResult data).1 }
  | .storeAuxInfo data => some { r with store := (r.store.storeAuxInfo data).1 }
  | .commitHealthCheck => some
    { r with
      store := (r.store.commitHealthCheck b).1
      results := match r.store.storeCheckQueue with
        | [] => r.results
        | data :: _ => r.results.put data.header data.result }
  | .commitAuxInfo => some
    { r with
      store := (r.store.commitAuxInfo b).1
      aux := match r.store.storeAuxQueue with
        | [] => r.aux
        | data :: _ => r.aux.put data.header data.info }
  | .purgeCheckResult h => some
    { r with store := (r.store.purgeCheckResult b h).1, results := r.results.drop h }
  | .purgeAuxInfo h => some
    { r with store := (r.store.purgeAuxInfo b h).1, aux := r.aux.drop h }

/-- A commit that takes something from its queue finds addresses of the host in the backend. -/
def FindsAddresses (r : HostRun σ) : HostEvent → Prop
  | .commitHealthCheck => ∀ data ∈ r.store.storeCheckQueue.head?,
    (r.store.getDNS b data.header.hostname).isSome = true
  | .commitAuxInfo => ∀ data ∈ r.store.storeAuxQueue.head?,
    (r.store.getDNS b data.header.hostname).isSome = true
  | _ => True

end HostRun

/-- A group has the host of a header, with its check and its parameters. -/
structure Contains (g : HMDataHostGroup) (h : HMCheckHeader) : Prop where
  host : h.hostname ∈ g.hosts
  check : ∃ c, g.getHostCheck = some c ∧ c.beq h.hostCheck = true
  params : g.getCheckParameters = h.checkParams

/-- A value is served: the address is one of its host, and each group that contains the check
returns the value, and no other, for the host at this address. -/
structure Serves {ρ : Type} (groups : HMDataHostGroupMap) (now : HMTimeStamp)
    (dns : HMString → Option (SortedSet HMIPAddress))
    (read : HMString → Option (List (GroupEntry ρ))) (h : HMCheckHeader) (x : ρ) : Prop where
  resolved : ∃ ips, dns h.hostname = some ips ∧ h.address ∈ ips.toList
  grouped : ∀ name g, groups.get? name = some g → Contains g h → ∃ es, read name = some es ∧
    ⟨h.hostname, h.address, false, now, x⟩ ∈ es ∧
      ∀ e ∈ es, e.hostName = h.hostname → e.address = h.address → e.payload = x

/-- All that has been committed is served. -/
structure HostRun.ServesAll {σ : Type} (b : HostBackend σ) (groups : HMDataHostGroupMap)
    (now : HMTimeStamp) (r : HostRun σ) : Prop where
  results : ∀ h x, r.results h = some x → Serves groups now (r.store.getDNS b)
    (r.store.getGroupCheckResults b groups now) h x
  aux : ∀ h x, r.aux h = some x → Serves groups now (r.store.getDNS b)
    (r.store.getGroupAuxInfo b groups now) h x

end NetCHASM

namespace StorageHost

open NetCHASM KeyOrder OrderedMap HMStorageHost HostRun Runs

variable {σ ρ : Type} {b : HostBackend σ} {view : σ → HostRecords}

theorem same_iff {h h' : HMCheckHeader} : h.same h' = true ↔ h.hostname = h'.hostname ∧
    h.address = h'.address ∧ h.hostCheck.beq h'.hostCheck = true ∧
      h.checkParams = h'.checkParams := by
  simp [HMCheckHeader.same, and_assoc]

theorem same_refl (h : HMCheckHeader) : h.same h = true :=
  same_iff.mpr ⟨rfl, rfl, HMDataHostCheck.beq_iff.mpr ⟨rfl, rfl, rfl, rfl, rfl, rfl, rfl, rfl, rfl⟩,
    rfl⟩

theorem same_congr {h h' : HMCheckHeader} (heq : h.same h' = true) (k : HMCheckHeader) :
    k.same h = k.same h' := by
  rcases same_iff.mp heq with ⟨hhost, haddress, hcheck, hparams⟩
  rw [← HMDataHostCheck.eqv_eq_beq] at hcheck
  simp only [HMCheckHeader.same, ← HMDataHostCheck.eqv_eq_beq, hhost, haddress, hparams,
    eqv_congr_right hcheck]

/-- The address of a header is one of its host. -/
def Listed (dns : HMString → Option (SortedSet HMIPAddress)) (h : HMCheckHeader) : Prop :=
  ∃ ips, dns h.hostname = some ips ∧ h.address ∈ ips.toList

/-! What is committed is stored under every header that is not told apart, and its address is
listed. -/

structure Kept (dns : HMString → Option (SortedSet HMIPAddress)) (stored ledger : HeaderMap ρ) :
    Prop where
  stored : ∀ h x, ledger h = some x → stored h = some x
  listed : ∀ h x, ledger h = some x → Listed dns h
  congr : ∀ h h', h.same h' = true → ledger h = ledger h'

variable {dns dns' : HMString → Option (SortedSet HMIPAddress)} {stored ledger : HeaderMap ρ}

theorem kept_empty (dns : HMString → Option (SortedSet HMIPAddress)) (stored : HeaderMap ρ) :
    Kept dns stored .empty := by
  constructor
  · rintro h x ⟨⟩
  · rintro h x ⟨⟩
  · intro h h' _
    rfl

theorem Kept.put (h : Kept dns stored ledger) (hgrow : ∀ k, Listed dns k → Listed dns' k)
    {k : HMCheckHeader} (hlisted : Listed dns' k) (x : ρ) :
    Kept dns' (stored.put k x) (ledger.put k x) := by
  constructor
  · intro h' y hy
    rw [HeaderMap.put] at hy ⊢
    split at hy
    · rename_i hsame
      rw [if_pos hsame, hy]
    · rename_i hsame
      rw [if_neg hsame, h.stored h' y hy]
  · intro h' y hy
    rw [HeaderMap.put] at hy
    split at hy
    · rename_i hsame
      rcases same_iff.mp hsame with ⟨hhost, haddress, -, -⟩
      rw [Listed, ← hhost, ← haddress]
      exact hlisted
    · exact hgrow h' (h.listed h' y hy)
  · intro h' h'' hsame
    rw [HeaderMap.put, HeaderMap.put, same_congr hsame, h.congr h' h'' hsame]

theorem Kept.drop (h : Kept dns stored ledger) (k : HMCheckHeader) :
    Kept dns (stored.drop k) (ledger.drop k) := by
  constructor
  · intro h' y hy
    rw [HeaderMap.drop] at hy ⊢
    split at hy
    · cases hy
    · rename_i hsame
      rw [if_neg hsame, h.stored h' y hy]
  · intro h' y hy
    rw [HeaderMap.drop] at hy
    split at hy
    · cases hy
    · exact h.listed h' y hy
  · intro h' h'' hsame
    rw [HeaderMap.drop, HeaderMap.drop, same_congr hsame, h.congr h' h'' hsame]

theorem Kept.mono (h : Kept dns stored ledger) (hgrow : ∀ k, Listed dns k → Listed dns' k) :
    Kept dns' stored ledger :=
  ⟨h.stored, fun k x hk => hgrow k (h.listed k x hk), h.congr⟩

/-! Reading a group. -/

theorem mem_getGroupEntries (b : HostBackend σ) (now : HMTimeStamp) (s : HMStorageHost σ)
    (get : HeaderMap ρ) {groups : HMDataHostGroupMap} {g : HMDataHostGroup} {name : HMString}
    (hg : groups.get? name = some g) : ∃ es, getGroupEntries b groups now s get name = some es ∧
      ∀ e, e ∈ es ↔ ∃ ips, e.hostName ∈ g.hosts ∧ b.getDNSResult s.backend e.hostName = some ips ∧
        e.address ∈ ips.toList ∧ e.backendStale = false ∧ e.commitTime = now ∧
          get ⟨e.hostName, e.address, g.getHostCheck.getD .default, g.getCheckParameters⟩ =
            some e.payload := by
  refine ⟨_, by rw [getGroupEntries, hg, Option.map_some], fun e => ?_⟩
  rw [List.mem_flatMap]
  constructor
  · rintro ⟨host, hhost, he⟩
    split at he
    · cases he
    · rename_i ips hips
      rcases List.mem_filterMap.mp he with ⟨ip, hip, hget⟩
      rcases Option.map_eq_some_iff.mp hget with ⟨r, hr, rfl⟩
      exact ⟨ips, hhost, hips, hip, rfl, rfl, hr⟩
  · rintro ⟨ips, hhost, hips, hip, hstale, htime, hget⟩
    refine ⟨e.hostName, hhost, ?_⟩
    rw [hips]
    refine List.mem_filterMap.mpr ⟨e.address, hip, ?_⟩
    rw [hget, Option.map_some, ← hstale, ← htime]

/-- What is kept is served. -/
theorem Kept.serves {groups : HMDataHostGroupMap} {now : HMTimeStamp} {s : HMStorageHost σ}
    {get ledger : HeaderMap ρ} (hkept : Kept (s.getDNS b) get ledger) {h : HMCheckHeader} {x : ρ}
    (hx : ledger h = some x) :
    Serves groups now (s.getDNS b) (getGroupEntries b groups now s get) h x := by
  have hlisted := hkept.listed h x hx
  refine ⟨hlisted, ?_⟩
  rintro name g hg ⟨hhost, ⟨c, hc, hbeq⟩, hparams⟩
  have hget : get ⟨h.hostname, h.address, g.getHostCheck.getD .default, g.getCheckParameters⟩ =
      some x := by
    have hsame : HMCheckHeader.same
        ⟨h.hostname, h.address, g.getHostCheck.getD .default, g.getCheckParameters⟩ h = true := by
      rw [same_iff, hc]
      exact ⟨rfl, rfl, hbeq, hparams⟩
    apply hkept.stored
    rw [hkept.congr _ h hsame]
    exact hx
  obtain ⟨es, hes, hmem⟩ := mem_getGroupEntries b now s get hg
  refine ⟨es, hes, ?_, ?_⟩
  · rcases hlisted with ⟨ips, hips, haddress⟩
    exact (hmem _).mpr ⟨ips, hhost, hips, haddress, rfl, rfl, hget⟩
  · intro e he hname haddress
    obtain ⟨-, -, -, -, -, -, hpayload⟩ := (hmem e).mp he
    rw [hname, haddress, hget] at hpayload
    exact (Option.some.inj hpayload).symm

/-! The steps, on a backend that acts as maps. -/

@[simp] theorem backend_storeCheckResult (s : HMStorageHost σ) (data : HMCheckData) :
    (s.storeCheckResult data).1.backend = s.backend := by
  rw [HMStorageHost.storeCheckResult]
  split
  · rfl
  · rfl

@[simp] theorem backend_storeAuxInfo (s : HMStorageHost σ) (data : HMAuxData) :
    (s.storeAuxInfo data).1.backend = s.backend := by
  rw [HMStorageHost.storeAuxInfo]
  split
  · rfl
  · rfl

/-- The addresses of a host after a commit for one of them. -/
def addressesAfter (dns : HMString → Option (SortedSet HMIPAddress)) (h : HMCheckHeader) :
    SortedSet HMIPAddress :=
  match dns h.hostname with
  | none => ∅
  | some ips => ips.insert h.address ()

theorem mem_insert {ips : SortedSet HMIPAddress} {a a' : HMIPAddress} :
    a' ∈ SortedSet.toList (ips.insert a ()) ↔ a = a' ∨ a' ∈ ips.toList := by
  rw [← SortedSet.contains_iff_mem, ← SortedSet.contains_iff_mem, SortedMap.contains_insert,
    Bool.or_eq_true, eqv_iff_eq]

/-- Addresses stay listed where the host had some before. -/
theorem listed_grow {h : HMCheckHeader} (hsome : (dns h.hostname).isSome = true)
    (k : HMCheckHeader) (hk : Listed dns k) :
    Listed (Function.update dns h.hostname (some (addressesAfter dns h))) k := by
  obtain ⟨ips, hips⟩ := Option.isSome_iff_exists.mp hsome
  rcases hk with ⟨ips', hips', haddress⟩
  by_cases hhost : k.hostname = h.hostname
  · rw [hhost, hips] at hips'
    obtain rfl := Option.some.inj hips'
    refine ⟨addressesAfter dns h, by rw [hhost, Function.update_self], ?_⟩
    rw [addressesAfter, hips]
    exact mem_insert.mpr (Or.inr haddress)
  · exact ⟨ips', by rw [Function.update_of_ne hhost, hips'], haddress⟩

/-- The new address is listed just when the host had addresses before: otherwise an empty set is
written. -/
theorem listed_update_iff {h : HMCheckHeader} :
    Listed (Function.update dns h.hostname (some (addressesAfter dns h))) h ↔
      (dns h.hostname).isSome = true := by
  rw [Listed, Function.update_self]
  cases hips : dns h.hostname with
  | none =>
    refine iff_of_false ?_ Bool.false_ne_true
    rintro ⟨ips, heq, haddress⟩
    rw [addressesAfter, hips] at heq
    obtain rfl := Option.some.inj heq
    cases haddress
  | some ips =>
    refine iff_of_true ⟨_, rfl, ?_⟩ rfl
    rw [addressesAfter, hips]
    exact mem_insert.mpr (Or.inl rfl)

theorem view_commitDNS (hmaps : ActsAsMaps b view) (s : σ) (h : HMCheckHeader) :
    view (commitDNS b s h) = { view s with
      dns := Function.update (view s).dns h.hostname (some (addressesAfter (view s).dns h)) } := by
  have hread : (match b.getDNSResult s h.hostname with
      | none => ∅
      | some ips => ips.insert h.address ()) = addressesAfter (view s).dns h := by
    rw [hmaps.getDNSResult]
    rfl
  simp only [commitDNS, hread]
  exact (hmaps.storeDNSResult s h.hostname _).2

theorem getDNS_eq (hmaps : ActsAsMaps b view) (s : HMStorageHost σ) :
    s.getDNS b = (view s.backend).dns :=
  funext fun host => hmaps.getDNSResult s.backend host

/-- What a run keeps: everything that was committed is stored and listed. -/
structure Account (view : σ → HostRecords) (r : HostRun σ) : Prop where
  results : Kept (view r.store.backend).dns (view r.store.backend).checkResults r.results
  aux : Kept (view r.store.backend).dns (view r.store.backend).auxInfo r.aux

theorem Account.servesAll (hmaps : ActsAsMaps b view) {r : HostRun σ} (h : Account view r)
    (groups : HMDataHostGroupMap) (now : HMTimeStamp) : r.ServesAll b groups now := by
  have hresults : b.getHostCheckResult r.store.backend = (view r.store.backend).checkResults :=
    funext fun h => hmaps.getHostCheckResult r.store.backend h
  have haux : b.getHostAuxInfo r.store.backend = (view r.store.backend).auxInfo :=
    funext fun h => hmaps.getHostAuxInfo r.store.backend h
  have hkeptResults := h.results
  have hkeptAux := h.aux
  rw [← getDNS_eq hmaps, ← hresults] at hkeptResults
  rw [← getDNS_eq hmaps, ← haux] at hkeptAux
  exact ⟨fun _ _ hx => hkeptResults.serves hx, fun _ _ hx => hkeptAux.serves hx⟩

theorem account_start (view : σ → HostRecords) (s : HMStorageHost σ) : Account view (start s) :=
  ⟨kept_empty _ _, kept_empty _ _⟩

section Steps

variable {r r' : HostRun σ} {groups : HMDataHostGroupMap} {now : HMTimeStamp}

/-- A commit of a check result keeps the account just when the host has addresses. -/
theorem commitHealthCheck_step (hmaps : ActsAsMaps b view) (h : Account view r)
    (hstep : step b r .commitHealthCheck = some r') :
    (r'.ServesAll b groups now → FindsAddresses b r .commitHealthCheck) ∧
      (FindsAddresses b r .commitHealthCheck → Account view r') := by
  obtain rfl := Option.some.inj hstep
  cases hqueue : r.store.storeCheckQueue with
  | nil =>
    simp only [FindsAddresses, hqueue, List.head?_nil, Option.mem_def, reduceCtorEq,
      false_implies, implies_true, true_and, HMStorageHost.commitHealthCheck]
    exact fun _ => h
  | cons data queue =>
    have hstored := (hmaps.storeHostCheckResult r.store.backend data).2
    have hview := view_commitDNS hmaps (b.storeHostCheckResult r.store.backend data).1 data.header
    rw [hstored] at hview
    simp only [FindsAddresses, hqueue, List.head?_cons, Option.mem_def, Option.some.injEq,
      forall_eq', HMStorageHost.commitHealthCheck, getDNS_eq hmaps]
    constructor
    · intro hserves
      have hlisted := (hserves.results data.header data.result
        (if_pos (same_refl data.header))).resolved
      rw [getDNS_eq hmaps, hview] at hlisted
      exact listed_update_iff.mp hlisted
    · intro hsome
      constructor
      · rw [hview]
        exact h.results.put (listed_grow hsome) (listed_update_iff.mpr hsome) data.result
      · rw [hview]
        exact h.aux.mono (listed_grow hsome)

/-- The same for a commit of aux info. -/
theorem commitAuxInfo_step (hmaps : ActsAsMaps b view) (h : Account view r)
    (hstep : step b r .commitAuxInfo = some r') :
    (r'.ServesAll b groups now → FindsAddresses b r .commitAuxInfo) ∧
      (FindsAddresses b r .commitAuxInfo → Account view r') := by
  obtain rfl := Option.some.inj hstep
  cases hqueue : r.store.storeAuxQueue with
  | nil =>
    simp only [FindsAddresses, hqueue, List.head?_nil, Option.mem_def, reduceCtorEq,
      false_implies, implies_true, true_and, HMStorageHost.commitAuxInfo]
    exact fun _ => h
  | cons data queue =>
    have hstored := (hmaps.storeHostAuxInfo r.store.backend data).2
    have hview := view_commitDNS hmaps (b.storeHostAuxInfo r.store.backend data).1 data.header
    rw [hstored] at hview
    simp only [FindsAddresses, hqueue, List.head?_cons, Option.mem_def, Option.some.injEq,
      forall_eq', HMStorageHost.commitAuxInfo, getDNS_eq hmaps]
    constructor
    · intro hserves
      have hlisted := (hserves.aux data.header data.info
        (if_pos (same_refl data.header))).resolved
      rw [getDNS_eq hmaps, hview] at hlisted
      exact listed_update_iff.mp hlisted
    · intro hsome
      constructor
      · rw [hview]
        exact h.results.mono (listed_grow hsome)
      · rw [hview]
        exact h.aux.put (listed_grow hsome) (listed_update_iff.mpr hsome) data.info

/-- A call that stores leaves the backend alone, and a purge takes a value out of it and out of
the account. -/
theorem account_step (hmaps : ActsAsMaps b view) (h : Account view r) {e : HostEvent}
    (hstep : step b r e = some r') :
    (r'.ServesAll b groups now → FindsAddresses b r e) ∧
      (FindsAddresses b r e → Account view r') := by
  cases e with
  | commitHealthCheck => exact commitHealthCheck_step hmaps h hstep
  | commitAuxInfo => exact commitAuxInfo_step hmaps h hstep
  | storeCheckResult data =>
    obtain rfl := Option.some.inj hstep
    refine ⟨fun _ => trivial, fun _ => ⟨?_, ?_⟩⟩
    · rw [backend_storeCheckResult]
      exact h.results
    · rw [backend_storeCheckResult]
      exact h.aux
  | storeAuxInfo data =>
    obtain rfl := Option.some.inj hstep
    refine ⟨fun _ => trivial, fun _ => ⟨?_, ?_⟩⟩
    · rw [backend_storeAuxInfo]
      exact h.results
    · rw [backend_storeAuxInfo]
      exact h.aux
  | purgeCheckResult k =>
    obtain rfl := Option.some.inj hstep
    have hview := hmaps.removeHostCheckResult r.store.backend k
    refine ⟨fun _ => trivial, fun _ => ⟨?_, ?_⟩⟩
    · rw [HMStorageHost.purgeCheckResult, hview]
      exact h.results.drop k
    · rw [HMStorageHost.purgeCheckResult, hview]
      exact h.aux
  | purgeAuxInfo k =>
    obtain rfl := Option.some.inj hstep
    have hview := hmaps.removeHostAuxInfo r.store.backend k
    refine ⟨fun _ => trivial, fun _ => ⟨?_, ?_⟩⟩
    · rw [HMStorageHost.purgeAuxInfo, hview]
      exact h.results
    · rw [HMStorageHost.purgeAuxInfo, hview]
      exact h.aux.drop k

end Steps

/-- What has been committed is served in every state of a run just when every commit of the run
finds addresses of its host in the backend. -/
theorem committed_served_iff (hmaps : ActsAsMaps b view) (groups : HMDataHostGroupMap)
    (now : HMTimeStamp) (s : HMStorageHost σ) (es : List HostEvent) :
    (∀ es₁ r, es₁ <+: es → runTrace (step b) (start s) es₁ = some r →
      r.ServesAll b groups now) ↔ Along (step b) (FindsAddresses b) (start s) es := by
  have hserves {r : HostRun σ} (h : Account view r) : r.ServesAll b groups now :=
    h.servesAll hmaps groups now
  apply observed_iff_along hserves
  · exact fun h hstep => account_step hmaps h hstep
  · intro r e hnone
    cases e with
    | _ => cases hnone
  · exact account_start view s

instance (r : HostRun σ) (e : HostEvent) : Decidable (FindsAddresses b r e) := by
  cases e with
  | commitHealthCheck => exact inferInstanceAs (Decidable (∀ data ∈ _, _))
  | commitAuxInfo => exact inferInstanceAs (Decidable (∀ data ∈ _, _))
  | _ => exact isTrue trivial

/-- A group with one host, and a result for the host at an address. -/
def webGroup : HMDataHostGroup :=
  { HMDataHostGroup.new [119] with checkType := .tcp, hosts := [[104]] }

def webGroups : HMDataHostGroupMap := SortedMap.set ∅ [119] webGroup

def webData : HMCheckData :=
  ⟨⟨[104], .v4 7, webGroup.toHMDataHostCheck, webGroup.getCheckParameters⟩, .new 0⟩

/-- A store on the given maps. -/
def storeOn (records : HostRecords) : HMStorageHost HostRecords := ⟨records, [], [], false⟩

/-- The first commit of a host stores no address for it, and its group has no result. -/
theorem first_commit_not_served : ¬ ∀ es r,
    runTrace (step mapBackend) (start (storeOn .empty)) es = some r →
      r.ServesAll mapBackend webGroups 0 := by
  intro hall
  have hserves := hall [.storeCheckResult webData, .commitHealthCheck] _ rfl
  obtain ⟨ips, hips, haddress⟩ := (hserves.results webData.header webData.result rfl).resolved
  obtain rfl := Option.some.inj hips
  cases haddress

/-- A host that had a record before its first commit. -/
def recordedHost : HostRecords :=
  { HostRecords.empty with dns := Function.update HostRecords.empty.dns [104] (some ∅) }

theorem commit_with_record_served :
    Along (step mapBackend) (FindsAddresses mapBackend) (start (storeOn recordedHost))
      [.storeCheckResult webData, .commitHealthCheck] ∧
    ∀ es₁ r, es₁ <+: [.storeCheckResult webData, .commitHealthCheck] →
      runTrace (step mapBackend) (start (storeOn recordedHost)) es₁ = some r →
        r.ServesAll mapBackend webGroups 0 :=
  have hfinds : Along (step mapBackend) (FindsAddresses mapBackend) (start (storeOn recordedHost))
      [.storeCheckResult webData, .commitHealthCheck] := by decide
  ⟨hfinds, (committed_served_iff mapBackend_actsAsMaps webGroups 0 _ _).mpr hfinds⟩

end StorageHost
