import NetCHASM.StorageHostGroup
import NetCHASM.Library.Runs

/-! The result caches hold one entry for each address of a host in a group. A host that is not
resolved has an entry under the blank address of its family, and the first real address takes that
entry over. -/
namespace NetCHASM

open KeyOrder OrderedMap

namespace HMStorageHostGroup

/-- One group of a purge: drop the first entry at the address. What is written then is the last
group in which an entry was found, which need not be this one. -/
def purgeGroup (hostname : HMString) (address : HMIPAddress)
    (acc : HMStorageHostGroup × Option HMString) (group : HMString) :
    HMStorageHostGroup × Option HMString :=
  let found := (acc.1.hostGroupResults.range group).any (isEntryOf hostname address)
  let hostgroup := if found then some group else acc.2
  let s := { acc.1 with
    hostGroupResults := acc.1.hostGroupResults.eraseFirst group (isEntryOf hostname address) }
  (hostgroup.elim s s.storeHostGroupCheckResults, hostgroup)

def purgeCheckResult (s : HMStorageHostGroup) (hostname : HMString) (address : HMIPAddress)
    (hostGroups : List HMString) : HMStorageHostGroup :=
  (hostGroups.foldl (purgeGroup hostname address) (s, none)).1

/-- Replace the results of a group by those that a remote daemon sent. -/
def storeHostGroupCheckResult (s : HMStorageHostGroup) (group : HMString)
    (checkResult : List HMGroupCheckResult) : HMStorageHostGroup :=
  if s.readonly then s
  else { s with
    hostGroupResults := (s.hostGroupResults.erase group).insertAll group
      checkResult }.storeHostGroupCheckResults group

end HMStorageHostGroup

namespace ResultUniqueness

open HMStorageHostGroup

/-- What happens to the store. The configuration and the addresses may change between any two
commits. -/
inductive Event where
  | storeCheckResult (hostname : HMString) (address : HMIPAddress) (hostGroups : List HMString)
      (result : HMDataCheckResult)
  | storeAuxInfo (hostname : HMString) (address : HMIPAddress) (hostGroups : List HMString)
      (info : HMAuxInfo)
  | commitHealthCheck (env : StoreEnv) (now : HMTimeStamp)
  | commitAuxInfo (env : StoreEnv) (now : HMTimeStamp)
  | purgeCheckResult (hostname : HMString) (address : HMIPAddress) (hostGroups : List HMString)
  | storeHostGroupCheckResult (group : HMString) (checkResult : List HMGroupCheckResult)
  deriving DecidableEq, Repr

def step (s : HMStorageHostGroup) : Event → Option HMStorageHostGroup
  | .storeCheckResult hostname address hostGroups result =>
    some (s.storeCheckResult hostname address hostGroups result)
  | .storeAuxInfo hostname address hostGroups info =>
    some (s.storeAuxInfo hostname address hostGroups info)
  | .commitHealthCheck env now => some (s.commitHealthCheck env now).1
  | .commitAuxInfo env now => some (s.commitAuxInfo env now).1
  | .purgeCheckResult hostname address hostGroups =>
    some (s.purgeCheckResult hostname address hostGroups)
  | .storeHostGroupCheckResult group checkResult =>
    some (s.storeHostGroupCheckResult group checkResult)

section Caches

variable {ρ : Type}

/-- Each host of a group has at most one entry at an address. -/
def UniqueEntries (cache : GroupCache ρ) : Prop :=
  ∀ group hostname address,
    ((cache.range group).countP fun e => isEntryOf hostname address e) ≤ 1

/-- An address other than the blank one of its family. -/
def isReal (address : HMIPAddress) : Bool := address.isSet && !address.isBlank

/-- The host has an entry under the blank address of a family in a group. -/
def HasBlank (cache : GroupCache ρ) (group hostname : HMString) (family : UInt8) : Prop :=
  ∃ e ∈ cache.range group, e.hostName = hostname ∧ e.address = .ofType family

/-- The host has an entry at a real address of a family in a group. -/
def HasReal (cache : GroupCache ρ) (group hostname : HMString) (family : UInt8) : Prop :=
  ∃ e ∈ cache.range group, e.hostName = hostname ∧ e.address.getType = family ∧
    isReal e.address = true

/-- The update that a commit applies, if it does not drop the one that is next. -/
def applied (env : StoreEnv) (queue : List (GroupUpdate ρ)) : Option (GroupUpdate ρ) :=
  queue.head?.filter fun u => (env.hostGroupMap.get? u.hostGroup).any fun g => env.accepts g u

instance (cache : GroupCache ρ) (group hostname : HMString) (family : UInt8) :
    Decidable (HasReal cache group hostname family) :=
  inferInstanceAs (Decidable (∃ e ∈ cache.range group, _))

end Caches

/-- The results that replace those of a group are of distinct addresses, without a blank one
beside a real one of the same host and family. -/
structure CleanVector (checkResult : List HMGroupCheckResult) : Prop where
  nodup : (checkResult.map fun e => (e.hostName, e.address)).Nodup
  noBlank : ∀ a ∈ checkResult, ∀ b ∈ checkResult, a.hostName = b.hostName →
    a.address.getType = b.address.getType → a.address.isBlank = true → isReal b.address = false

/-- A result that replaces those of a group comes in a clean vector. -/
def VectorsClean (_ : HMStorageHostGroup) : Event → Prop
  | .storeHostGroupCheckResult _ checkResult => CleanVector checkResult
  | _ => True

/-- A blank address is committed only for a host without a real one. -/
def BlankWhenUnresolved (s : HMStorageHostGroup) : Event → Prop
  | .commitHealthCheck env _ => ∀ u, applied env s.storeCheckQueue = some u →
      u.address.isBlank = true →
      ¬ HasReal s.hostGroupResults u.hostGroup u.hostName u.address.getType
  | .commitAuxInfo env _ => ∀ u, applied env s.storeAuxQueue = some u → u.address.isBlank = true →
      ¬ HasReal s.hostGroupAux u.hostGroup u.hostName u.address.getType
  | _ => True

instance (s : HMStorageHostGroup) (e : Event) : Decidable (BlankWhenUnresolved s e) :=
  match e with
  | .commitHealthCheck env _ => inferInstanceAs (Decidable (∀ u ∈ applied env s.storeCheckQueue, _))
  | .commitAuxInfo env _ => inferInstanceAs (Decidable (∀ u ∈ applied env s.storeAuxQueue, _))
  | .storeCheckResult .. | .storeAuxInfo .. | .purgeCheckResult ..
  | .storeHostGroupCheckResult .. => isTrue trivial

section Apart

variable {ρ : Type}

/-- The blank address of the family of an address. -/
def blankOf (address : HMIPAddress) : HMIPAddress := .ofType address.getType

theorem getType_blankOf (a : HMIPAddress) : (blankOf a).getType = a.getType := by
  cases a <;> rfl

@[simp] theorem blankOf_blankOf (a : HMIPAddress) : blankOf (blankOf a) = blankOf a := by
  rw [blankOf, getType_blankOf, blankOf]

theorem isReal_iff {a : HMIPAddress} : isReal a = true ↔ a ≠ blankOf a := by
  cases a with
  | unset => decide
  | v4 addr => simp [isReal, HMIPAddress.isSet, HMIPAddress.isBlank, blankOf, HMIPAddress.getType,
      HMIPAddress.ofType, afUnspec, afInet, afInet6]
  | v6 addr => simp [isReal, HMIPAddress.isSet, HMIPAddress.isBlank, blankOf, HMIPAddress.getType,
      HMIPAddress.ofType, afUnspec, afInet, afInet6]

theorem isBlank_blankOf {a : HMIPAddress} (h : isReal a = true) : (blankOf a).isBlank = true := by
  cases a with
  | unset => cases h
  | v4 addr => rfl
  | v6 addr => rfl

/-- An entry is taken by an update for its own address, and a blank one by any of its family. -/
theorem concerns_iff {u : GroupUpdate ρ} {e : GroupEntry ρ} : u.concerns e = true ↔
    e.hostName = u.hostName ∧ (e.address = u.address ∨ e.address = blankOf u.address) := by
  simp only [GroupUpdate.concerns, Bool.and_eq_true, Bool.or_eq_true, decide_eq_true_eq, or_assoc]
  refine and_congr_right fun _ => ?_
  cases u.address with
  | unset => simp [blankOf, HMIPAddress.getType, HMIPAddress.ofType, afUnspec, afInet, afInet6]
  | v4 addr => simp [blankOf, HMIPAddress.getType, afInet, afInet6]
  | v6 addr => simp [blankOf, HMIPAddress.getType, afInet, afInet6]

/-- An update for the second entry would not be taken by the first. -/
def Apart (a b : GroupEntry ρ) : Prop :=
  a.hostName = b.hostName → a.address ≠ b.address ∧ a.address ≠ blankOf b.address

/-- Neither entry would take an update for the other. -/
def ApartBoth (a b : GroupEntry ρ) : Prop := Apart a b ∧ Apart b a

/-- What the update does to its entry decides the relation to the entries around it. -/
theorem pairwise_applyTo {R : GroupEntry ρ → GroupEntry ρ → Prop} {cache : GroupCache ρ}
    {stamp : HMIPAddress → ρ → ρ} {u : GroupUpdate ρ} (now : HMTimeStamp)
    (h : ∀ group, (cache.range group).Pairwise R)
    (hbefore : ∀ a ∈ cache.range u.hostGroup, u.concerns a = false → ∀ b : GroupEntry ρ,
      b.hostName = u.hostName → b.address = u.address → R a b)
    (hafter : ∀ a, ∀ b ∈ cache.range u.hostGroup, u.concerns a = true → R a b →
      R (u.replace stamp a) b) (group : HMString) :
    ((u.applyTo stamp now cache).range group).Pairwise R := by
  rw [GroupUpdate.applyTo]
  split
  next hknown =>
    rw [SortedMultimap.range_modifyFirst]
    split
    next hgroup =>
      have hrange : cache.range group = cache.range u.hostGroup :=
        (cache.range_congr hgroup).symm
      rw [hrange]
      apply SortedMultimap.pairwise_modifyFirstVal (h u.hostGroup)
      · intro a ha b hpa hpb _
        exact hbefore a ha hpa _ (concerns_iff.mp hpb).1 rfl
      · intro a b hb hpa hab
        exact hafter a b hb hpa hab
    next => exact h group
  next hknown =>
    rw [SortedMultimap.range_insert]
    split
    next hgroup =>
      have hrange : cache.range group = cache.range u.hostGroup :=
        (cache.range_congr hgroup).symm
      rw [hrange, List.pairwise_append]
      refine ⟨h u.hostGroup, List.pairwise_singleton R _, ?_⟩
      intro a ha b hb
      rw [List.mem_singleton.mp hb]
      refine hbefore a ha ?_ _ rfl rfl
      have hnone := Bool.eq_false_iff.mpr hknown
      rw [GroupUpdate.isKnown, List.any_eq_false] at hnone
      exact Bool.eq_false_iff.mpr (hnone a ha)
    next => exact h group

theorem not_concerns_iff {u : GroupUpdate ρ} {e : GroupEntry ρ} : u.concerns e = false ↔
    (e.hostName = u.hostName → e.address ≠ u.address ∧ e.address ≠ blankOf u.address) := by
  rw [Bool.eq_false_iff, ne_eq, concerns_iff]
  simp only [not_and, not_or, ne_eq]

theorem apart_before {u : GroupUpdate ρ} {a b : GroupEntry ρ} (ha : u.concerns a = false)
    (hhost : b.hostName = u.hostName) (haddress : b.address = u.address) : Apart a b := by
  rw [Apart, hhost, haddress]
  exact not_concerns_iff.mp ha

theorem apart_after {stamp : HMIPAddress → ρ → ρ} {u : GroupUpdate ρ} {a b : GroupEntry ρ}
    (ha : u.concerns a = true) (hab : Apart a b) : Apart (u.replace stamp a) b := by
  rcases concerns_iff.mp ha with ⟨-, ha⟩
  intro hhost
  obtain ⟨hne, hblank⟩ := hab hhost
  constructor
  · rintro heq
    have heq : u.address = b.address := heq
    rw [heq] at ha
    rcases ha with ha | ha
    · exact hne ha
    · exact hblank ha
  · intro heq
    have heq : u.address = blankOf b.address := heq
    rw [heq, blankOf_blankOf, or_self] at ha
    exact hblank ha

/-- The entry that takes an update is not taken by those after it. -/
theorem apart_after_symm {stamp : HMIPAddress → ρ → ρ} {u : GroupUpdate ρ} {a b : GroupEntry ρ}
    (ha : u.concerns a = true) (hab : ApartBoth a b) : Apart b (u.replace stamp a) := by
  rcases concerns_iff.mp ha with ⟨-, ha⟩
  intro hhost
  obtain ⟨hne, hblank⟩ := hab.1 hhost.symm
  obtain ⟨-, hblank'⟩ := hab.2 hhost
  constructor
  · intro heq
    have heq : b.address = u.address := heq
    rw [← heq] at ha
    rcases ha with ha | ha
    · exact hne ha
    · exact hblank ha
  · intro heq
    have heq : b.address = blankOf u.address := heq
    rcases ha with ha | ha
    · rw [ha] at hblank'
      exact hblank' heq
    · exact hne (ha.trans heq.symm)

/-- An entry that takes no part of the update would only be taken by a blank one as it is real. -/
theorem apart_before_symm {u : GroupUpdate ρ} {a b : GroupEntry ρ} (ha : u.concerns a = false)
    (hblank : u.address.isBlank = true → a.hostName = u.hostName →
      a.address.getType = u.address.getType → isReal a.address = false)
    (hhost : b.hostName = u.hostName) (haddress : b.address = u.address) : Apart b a := by
  rw [Apart, hhost, haddress]
  intro hsame
  obtain ⟨hne, -⟩ := not_concerns_iff.mp ha hsame.symm
  refine ⟨Ne.symm hne, fun heq => ?_⟩
  have hreal : isReal a.address = true := by
    rw [isReal_iff, ← heq]
    exact hne
  rw [heq, getType_blankOf] at hblank
  rw [hblank (isBlank_blankOf hreal) hsame.symm rfl] at hreal
  cases hreal

end Apart

section Settled

variable {ρ : Type}

/-- The entries of every group are related in their order. -/
def Settled (R : GroupEntry ρ → GroupEntry ρ → Prop) (cache : GroupCache ρ) : Prop :=
  ∀ group, (cache.range group).Pairwise R

/-- The cache after the update of a commit, if there is one. -/
def committed (stamp : HMIPAddress → ρ → ρ) (now : HMTimeStamp) (u : Option (GroupUpdate ρ))
    (cache : GroupCache ρ) : GroupCache ρ :=
  u.elim cache fun u => u.applyTo stamp now cache

/-- The cache after the entries of a group were marked, if one was written. -/
def marked (group : Option HMString) (now : HMTimeStamp) (cache : GroupCache ρ) : GroupCache ρ :=
  group.elim cache fun group => markCommitted group now cache

theorem settled_marked {R : GroupEntry ρ → GroupEntry ρ → Prop} {cache : GroupCache ρ}
    (h : Settled R cache) {now : HMTimeStamp}
    (hR : ∀ {a b}, R a b → R { a with backendStale := false, commitTime := now }
      { b with backendStale := false, commitTime := now }) (group : Option HMString) :
    Settled R (marked group now cache) := by
  cases group with
  | none => exact h
  | some group =>
    intro group'
    rw [marked, Option.elim_some, markCommitted, SortedMultimap.range_modify]
    split
    · rw [List.pairwise_map]
      exact (h group').imp hR
    · exact h group'

theorem settled_committed {cache : GroupCache ρ} (h : Settled Apart cache)
    (stamp : HMIPAddress → ρ → ρ) (now : HMTimeStamp) (u : Option (GroupUpdate ρ)) :
    Settled Apart (committed stamp now u cache) := by
  cases u with
  | none => exact h
  | some u =>
    exact pairwise_applyTo now h (fun _ _ ha _ => apart_before ha) fun _ _ _ ha hab =>
      apart_after ha hab

theorem settled_committed_both {cache : GroupCache ρ} (h : Settled ApartBoth cache)
    (stamp : HMIPAddress → ρ → ρ) (now : HMTimeStamp) {u : Option (GroupUpdate ρ)}
    (hblank : ∀ u', u = some u' → u'.address.isBlank = true →
      ¬ HasReal cache u'.hostGroup u'.hostName u'.address.getType) :
    Settled ApartBoth (committed stamp now u cache) := by
  cases u with
  | none => exact h
  | some u =>
    refine pairwise_applyTo now h ?_ fun a b _ ha hab => ⟨apart_after ha hab.1, apart_after_symm ha hab⟩
    intro a hmem ha b hhost haddress
    refine ⟨apart_before ha hhost haddress, apart_before_symm ha ?_ hhost haddress⟩
    intro hblank' hsame htype
    rw [Bool.eq_false_iff]
    exact fun hreal => hblank u rfl hblank' ⟨a, hmem, hsame, htype, hreal⟩

theorem uniqueEntries_of_settled {cache : GroupCache ρ} (h : Settled Apart cache) :
    UniqueEntries cache := by
  intro group hostname address
  apply countP_le_one
  refine (h group).imp fun {a b} hab hboth => ?_
  simp only [isEntryOf, Bool.and_eq_true, decide_eq_true_eq] at hboth
  rcases hboth with ⟨⟨ha, haname⟩, hb, hbname⟩
  exact (hab (haname.trans hbname.symm)).1 (ha.trans hb.symm)

/-- The address of an applied update has an entry. -/
theorem exists_mem_applyTo (stamp : HMIPAddress → ρ → ρ) (u : GroupUpdate ρ) (now : HMTimeStamp)
    (cache : GroupCache ρ) : ∃ e ∈ (u.applyTo stamp now cache).range u.hostGroup,
      e.hostName = u.hostName ∧ e.address = u.address := by
  rw [GroupUpdate.applyTo]
  split
  next hknown =>
    obtain ⟨e, -, he, hmem⟩ :=
      SortedMultimap.exists_mem_modifyFirstVal hknown
    rw [SortedMultimap.range_modifyFirst, if_pos (eqv_refl u.hostGroup)]
    exact ⟨_, hmem, (concerns_iff.mp he).1, rfl⟩
  next =>
    rw [SortedMultimap.range_insert, if_pos (eqv_refl u.hostGroup)]
    exact ⟨_, List.mem_append_right _ (List.mem_singleton_self _), rfl, rfl⟩

theorem not_hasBlank_applyTo {stamp : HMIPAddress → ρ → ρ} {u : GroupUpdate ρ}
    {now : HMTimeStamp} {cache : GroupCache ρ}
    (h : Settled ApartBoth (u.applyTo stamp now cache)) (hreal : isReal u.address = true) :
    ¬ HasBlank (u.applyTo stamp now cache) u.hostGroup u.hostName u.address.getType := by
  rintro ⟨b, hb, hbname, hblank⟩
  obtain ⟨e, he, hename, heu⟩ := exists_mem_applyTo stamp u now cache
  have hne : b ≠ e := by
    rintro rfl
    rw [heu] at hblank
    exact isReal_iff.mp hreal hblank
  have hsymm : Std.Symm (ApartBoth (ρ := ρ)) := ⟨fun _ _ hab => ⟨hab.2, hab.1⟩⟩
  have hapart := (h u.hostGroup).forall hb he hne
  apply (hapart.1 (hbname.trans hename.symm)).2
  rw [heu]
  exact hblank

theorem hasBlank_marked {cache : GroupCache ρ} {group : Option HMString} {now : HMTimeStamp}
    {group' hostname : HMString} {family : UInt8}
    (h : HasBlank (marked group now cache) group' hostname family) :
    HasBlank cache group' hostname family := by
  cases group with
  | none => exact h
  | some group =>
    rcases h with ⟨e, he, hname, haddress⟩
    rw [marked, Option.elim_some, markCommitted, SortedMultimap.range_modify] at he
    split at he
    · rcases List.mem_map.mp he with ⟨e', he', rfl⟩
      exact ⟨e', he', hname, haddress⟩
    · exact ⟨e, he, hname, haddress⟩

end Settled

section Store

variable (s : HMStorageHostGroup)

theorem commitUpdate_cache {ρ : Type} (env : StoreEnv) (policy : StorageCommitPolicy)
    (needAllHosts : Bool) (stamp : HMIPAddress → ρ → ρ) (now : HMTimeStamp) (u : GroupUpdate ρ)
    (queue : List (GroupUpdate ρ)) (cache : GroupCache ρ) :
    (commitUpdate env policy needAllHosts stamp now u cache).1 =
      committed stamp now (applied env (u :: queue)) cache := by
  rw [commitUpdate, applied, List.head?_cons, Option.filter_some]
  cases env.hostGroupMap.get? u.hostGroup with
  | none => rfl
  | some g =>
    cases haccepts : env.accepts g u with
    | false => simp [haccepts, committed]
    | true =>
      simp only [haccepts, Bool.not_true, Bool.false_eq_true, if_false, Option.any_some, if_true]
      split
      · rfl
      · split
        · split <;> rfl
        · split <;> rfl

theorem commitHealthCheck_caches (env : StoreEnv) (now : HMTimeStamp) :
    (∃ group, (s.commitHealthCheck env now).1.hostGroupResults =
      marked group now
        (committed stampResult now (applied env s.storeCheckQueue) s.hostGroupResults)) ∧
      (s.commitHealthCheck env now).1.hostGroupAux = s.hostGroupAux := by
  rw [commitHealthCheck, beginHealthCheck]
  cases hqueue : s.storeCheckQueue with
  | nil => exact ⟨⟨none, rfl⟩, rfl⟩
  | cons u queue =>
    have hcache := commitUpdate_cache env s.healthCheckCommitPolicy true stampResult now u queue
      s.hostGroupResults
    dsimp only
    rw [← hcache]
    rcases commitUpdate env s.healthCheckCommitPolicy true stampResult now u s.hostGroupResults with
      ⟨cache, outcome⟩
    cases outcome with
    | write group =>
      refine ⟨⟨some group, ?_⟩, ?_⟩
      · simp [finishHealthCheck, marked]
      · simp [finishHealthCheck]
    | idle => exact ⟨⟨none, rfl⟩, rfl⟩
    | unknownGroup => exact ⟨⟨none, rfl⟩, rfl⟩
    | applied => exact ⟨⟨none, rfl⟩, rfl⟩

theorem commitAuxInfo_caches (env : StoreEnv) (now : HMTimeStamp) :
    (∃ group, (s.commitAuxInfo env now).1.hostGroupAux =
      marked group now (committed stampAux now (applied env s.storeAuxQueue) s.hostGroupAux)) ∧
      (s.commitAuxInfo env now).1.hostGroupResults = s.hostGroupResults := by
  rw [commitAuxInfo, beginAuxInfo]
  cases hqueue : s.storeAuxQueue with
  | nil => exact ⟨⟨none, rfl⟩, rfl⟩
  | cons u queue =>
    have hcache := commitUpdate_cache env s.auxCommitPolicy false stampAux now u queue
      s.hostGroupAux
    dsimp only
    rw [← hcache]
    rcases commitUpdate env s.auxCommitPolicy false stampAux now u s.hostGroupAux with
      ⟨cache, outcome⟩
    cases outcome with
    | write group =>
      refine ⟨⟨some group, ?_⟩, ?_⟩
      · simp [finishAuxInfo, marked]
      · simp [finishAuxInfo]
    | idle => exact ⟨⟨none, rfl⟩, rfl⟩
    | unknownGroup => exact ⟨⟨none, rfl⟩, rfl⟩
    | applied => exact ⟨⟨none, rfl⟩, rfl⟩

/-- A purge only removes entries. -/
theorem purgeCheckResult_caches (hostname : HMString) (address : HMIPAddress)
    (hostGroups : List HMString) :
    (∀ group, ((s.purgeCheckResult hostname address hostGroups).hostGroupResults.range
      group).Sublist (s.hostGroupResults.range group)) ∧
      (s.purgeCheckResult hostname address hostGroups).hostGroupAux = s.hostGroupAux := by
  have hgroup : ∀ (acc : HMStorageHostGroup × Option HMString) (group : HMString),
      (∀ group', ((purgeGroup hostname address acc group).1.hostGroupResults.range group').Sublist
        (acc.1.hostGroupResults.range group')) ∧
      (purgeGroup hostname address acc group).1.hostGroupAux = acc.1.hostGroupAux := by
    intro acc group
    rw [purgeGroup]
    dsimp only
    cases (if (acc.1.hostGroupResults.range group).any (isEntryOf hostname address) then some group
      else acc.2) with
    | none => exact ⟨fun group' => SortedMultimap.range_eraseFirst_sublist _ _ _ _, rfl⟩
    | some written =>
      constructor
      · intro group'
        rw [Option.elim_some, results_storeHostGroupCheckResults]
        exact SortedMultimap.range_eraseFirst_sublist _ _ _ _
      · rw [Option.elim_some, aux_storeHostGroupCheckResults]
  rw [purgeCheckResult]
  apply List.foldlRecOn (motive := fun acc : HMStorageHostGroup × Option HMString =>
    (∀ group, (acc.1.hostGroupResults.range group).Sublist (s.hostGroupResults.range group)) ∧
      acc.1.hostGroupAux = s.hostGroupAux) hostGroups _ ⟨fun _ => List.Sublist.refl _, rfl⟩
  intro acc hacc group _
  obtain ⟨hsublist, haux⟩ := hgroup acc group
  exact ⟨fun group' => (hsublist group').trans (hacc.1 group'), haux.trans hacc.2⟩

/-- A vector of results takes the place of a group's. -/
theorem storeHostGroupCheckResult_caches (group : HMString) (checkResult : List HMGroupCheckResult) :
    (∀ group', (s.storeHostGroupCheckResult group checkResult).hostGroupResults.range group' =
      s.hostGroupResults.range group' ∨
      (s.storeHostGroupCheckResult group checkResult).hostGroupResults.range group' =
        checkResult) ∧
      (s.storeHostGroupCheckResult group checkResult).hostGroupAux = s.hostGroupAux := by
  rw [storeHostGroupCheckResult]
  split
  · exact ⟨fun _ => Or.inl rfl, rfl⟩
  · refine ⟨fun group' => ?_, ?_⟩
    · rw [results_storeHostGroupCheckResults, SortedMultimap.range_insertAll,
        SortedMultimap.range_erase]
      split
      · exact Or.inr (List.nil_append checkResult)
      · exact Or.inl rfl
    · rw [aux_storeHostGroupCheckResults]

end Store

section Runs

open Runs

variable {s s' : HMStorageHostGroup} {e : Event}

/-- The entries of both caches are related in their order. -/
structure AllSettled (R : ∀ {ρ : Type}, GroupEntry ρ → GroupEntry ρ → Prop)
    (s : HMStorageHostGroup) : Prop where
  results : Settled R s.hostGroupResults
  aux : Settled R s.hostGroupAux

/-- A step keeps a relation of the entries that the committed updates and the vectors keep. -/
theorem allSettled_step {R : ∀ {ρ : Type}, GroupEntry ρ → GroupEntry ρ → Prop}
    (hR : ∀ {ρ : Type} {a b : GroupEntry ρ} {now : HMTimeStamp}, R a b →
      R { a with backendStale := false, commitTime := now }
        { b with backendStale := false, commitTime := now })
    (h : AllSettled R s) (hstep : step s e = some s')
    (hresults : ∀ env now, e = .commitHealthCheck env now → Settled R
      (committed stampResult now (applied env s.storeCheckQueue) s.hostGroupResults))
    (haux : ∀ env now, e = .commitAuxInfo env now → Settled R
      (committed stampAux now (applied env s.storeAuxQueue) s.hostGroupAux))
    (hvector : ∀ group checkResult, e = .storeHostGroupCheckResult group checkResult →
      checkResult.Pairwise R) : AllSettled R s' := by
  cases e with
  | storeCheckResult hostname address hostGroups result =>
    cases hstep
    rw [HMStorageHostGroup.storeCheckResult]
    split
    · exact h
    · exact ⟨h.results, h.aux⟩
  | storeAuxInfo hostname address hostGroups info =>
    cases hstep
    rw [HMStorageHostGroup.storeAuxInfo]
    split
    · exact h
    · exact ⟨h.results, h.aux⟩
  | commitHealthCheck env now =>
    cases hstep
    obtain ⟨⟨group, hcache⟩, hother⟩ := commitHealthCheck_caches s env now
    constructor
    · rw [hcache]
      exact settled_marked (hresults env now rfl) hR group
    · rw [hother]
      exact h.aux
  | commitAuxInfo env now =>
    cases hstep
    obtain ⟨⟨group, hcache⟩, hother⟩ := commitAuxInfo_caches s env now
    constructor
    · rw [hother]
      exact h.results
    · rw [hcache]
      exact settled_marked (haux env now rfl) hR group
  | purgeCheckResult hostname address hostGroups =>
    cases hstep
    obtain ⟨hsublist, hother⟩ := purgeCheckResult_caches s hostname address hostGroups
    constructor
    · exact fun group => (h.results group).sublist (hsublist group)
    · rw [hother]
      exact h.aux
  | storeHostGroupCheckResult group checkResult =>
    cases hstep
    obtain ⟨hrange, hother⟩ := storeHostGroupCheckResult_caches s group checkResult
    constructor
    · intro group'
      rcases hrange group' with heq | heq
      · rw [heq]
        exact h.results group'
      · rw [heq]
        exact hvector group checkResult rfl
    · rw [hother]
      exact h.aux

theorem apartBoth_of_clean {checkResult : List HMGroupCheckResult} (h : CleanVector checkResult) :
    checkResult.Pairwise ApartBoth := by
  have hapart : ∀ a ∈ checkResult, ∀ b ∈ checkResult, (a.hostName, a.address) ≠
      (b.hostName, b.address) → Apart a b := by
    intro a ha b hb hne hhost
    have haddress : a.address ≠ b.address := fun heq => hne (by rw [hhost, heq])
    refine ⟨haddress, fun hblank => ?_⟩
    have hreal : isReal b.address = true := by
      rw [isReal_iff, ← hblank]
      exact Ne.symm haddress
    have hclean := h.noBlank a ha b hb hhost (by rw [hblank, getType_blankOf])
      (by rw [hblank, isBlank_blankOf hreal])
    rw [hreal] at hclean
    cases hclean
  have hnodup := h.nodup
  rw [List.Nodup, List.pairwise_map] at hnodup
  refine hnodup.imp_of_mem fun {a b} ha hb hne => ?_
  exact ⟨hapart a ha b hb hne, hapart b hb a ha (Ne.symm hne)⟩

theorem apart_step (h : AllSettled Apart s) (hvectors : VectorsClean s e)
    (hstep : step s e = some s') : AllSettled Apart s' := by
  apply allSettled_step (fun hab => hab) h hstep
  · exact fun env now _ => settled_committed h.results _ _ _
  · exact fun env now _ => settled_committed h.aux _ _ _
  · rintro group checkResult rfl
    exact (apartBoth_of_clean hvectors).imp fun hab => hab.1

theorem apartBoth_step (h : AllSettled ApartBoth s)
    (hcond : VectorsClean s e ∧ BlankWhenUnresolved s e) (hstep : step s e = some s') :
    AllSettled ApartBoth s' := by
  apply allSettled_step (fun hab => hab) h hstep
  · rintro env now rfl
    exact settled_committed_both h.results _ _ hcond.2
  · rintro env now rfl
    exact settled_committed_both h.aux _ _ hcond.2
  · rintro group checkResult rfl
    exact apartBoth_of_clean hcond.1

/-- A commit of a real address leaves no blank one of its family for the host. -/
def BlankGone (s : HMStorageHostGroup) (e : Event) (s' : HMStorageHostGroup) : Prop :=
  match e with
  | .commitHealthCheck env _ => ∀ u, applied env s.storeCheckQueue = some u →
      isReal u.address = true →
      ¬ HasBlank s'.hostGroupResults u.hostGroup u.hostName u.address.getType
  | .commitAuxInfo env _ => ∀ u, applied env s.storeAuxQueue = some u → isReal u.address = true →
      ¬ HasBlank s'.hostGroupAux u.hostGroup u.hostName u.address.getType
  | _ => True

theorem blankGone_of_apartBoth (h : AllSettled ApartBoth s) (hblank : BlankWhenUnresolved s e)
    (hstep : step s e = some s') : BlankGone s e s' := by
  cases e with
  | commitHealthCheck env now =>
    cases hstep
    intro u hu hreal hhas
    obtain ⟨⟨group, hcache⟩, -⟩ := commitHealthCheck_caches s env now
    have hsettled := settled_committed_both h.results stampResult now hblank
    rw [hcache] at hhas
    rw [hu] at hhas hsettled
    exact not_hasBlank_applyTo hsettled hreal (hasBlank_marked hhas)
  | commitAuxInfo env now =>
    cases hstep
    intro u hu hreal hhas
    obtain ⟨⟨group, hcache⟩, -⟩ := commitAuxInfo_caches s env now
    have hsettled := settled_committed_both h.aux stampAux now hblank
    rw [hcache] at hhas
    rw [hu] at hhas hsettled
    exact not_hasBlank_applyTo hsettled hreal (hasBlank_marked hhas)
  | _ => trivial

/-- In every state of a run each address of a host has one entry in a group. If blank addresses
are committed only for hosts that have no real one, no blank address stays beside a real one, and
the commit of a real address removes the blank one. -/
theorem result_caches_stay_unique (hresults : s.hostGroupResults = ∅) (haux : s.hostGroupAux = ∅)
    (es : List Event) (hvectors : Along step VectorsClean s es) :
    (∀ es₁ s', es₁ <+: es → runTrace step s es₁ = some s' →
      UniqueEntries s'.hostGroupResults ∧ UniqueEntries s'.hostGroupAux) ∧
    (Along step BlankWhenUnresolved s es → ∀ es₁ e s₁ s₂, es₁ ++ [e] <+: es →
      runTrace step s es₁ = some s₁ → step s₁ e = some s₂ → BlankGone s₁ e s₂) := by
  have hempty : ∀ R : ∀ {ρ : Type}, GroupEntry ρ → GroupEntry ρ → Prop, AllSettled R s := by
    intro R
    constructor
    · rw [hresults]
      exact fun _ => .nil
    · rw [haux]
      exact fun _ => .nil
  constructor
  · rintro es₁ s' ⟨rest, rfl⟩ hrun
    have hsettled : AllSettled Apart s' :=
      invariant_of_step apart_step (hempty Apart) (along_append hrun hvectors).1 hrun
    exact ⟨uniqueEntries_of_settled hsettled.results, uniqueEntries_of_settled hsettled.aux⟩
  · rintro hblank es₁ e s₁ s₂ ⟨rest, rfl⟩ hrun hstep
    rw [List.append_assoc] at hvectors hblank
    obtain ⟨halong, hnext⟩ := along_append hrun (along_and hvectors hblank)
    exact blankGone_of_apartBoth (invariant_of_step apartBoth_step (hempty ApartBoth) halong hrun)
      hnext.1.2 hstep

end Runs

/-- One group of remote hosts. -/
def remoteEnv : StoreEnv where
  hostGroupMap := (∅ : HMDataHostGroupMap).set (bytes "web")
    { HMDataHostGroup.new (bytes "web") with flowType := .remoteHost, hosts := [bytes "host"] }
  dnsCache := .empty

/-- A host is committed under its blank address, and then under a real one. -/
def resolvedHost : List Event :=
  [.storeCheckResult (bytes "host") (.v4 0) [bytes "web"] (.new 0),
    .commitHealthCheck remoteEnv 1,
    .storeCheckResult (bytes "host") (.v4 7) [bytes "web"] (.new 0),
    .commitHealthCheck remoteEnv 2]

theorem resolved_host_has_one_entry :
    ∃ s, Runs.runTrace step (.opened .always) resolvedHost = some s ∧
      UniqueEntries s.hostGroupResults ∧
      ¬ HasBlank s.hostGroupResults (bytes "web") (bytes "host") afInet := by
  have hvectors : Runs.Along step VectorsClean (.opened .always) resolvedHost :=
    ⟨trivial, fun _ _ => ⟨trivial, fun _ _ => ⟨trivial, fun _ _ => ⟨trivial, fun _ _ => trivial⟩⟩⟩⟩
  obtain ⟨hunique, hgone⟩ := result_caches_stay_unique rfl rfl resolvedHost hvectors
  refine ⟨_, rfl, (hunique resolvedHost _ List.prefix_rfl rfl).1, ?_⟩
  exact hgone (by decide) (resolvedHost.take 3) _ _ _ List.prefix_rfl rfl rfl
    ⟨bytes "web", bytes "host", .v4 7, .new 0⟩ rfl rfl

end ResultUniqueness

end NetCHASM
