import NetCHASM.AddressSync

/-! The results that a remote daemon returns for a host. They are matched with the entries of
the check by their parameters, but an address counts as reported whatever its parameters are. -/
namespace RemoteHostResults

open NetCHASM KeyOrder OrderedMap AddressSync

/-- The entries of the check list that the work is about. -/
def workKey (w : RemoteWork) : CheckListKey := ⟨w.hostname, w.hostCheck⟩

def Returned (o : RemoteOutcome) (a : HMIPAddress) : Prop := ∃ r ∈ o.hostResults, r.2.address = a

def ReturnsFamily (o : RemoteOutcome) (ipv6 : Bool) : Prop :=
  ∃ r ∈ o.hostResults, r.2.address.getType = HMDNSCache.familyType ipv6

/-- The address is returned with the parameters of one of the entries. -/
def Matched (l : HMDataCheckList) (w : RemoteWork) (o : RemoteOutcome) (a : HMIPAddress) : Prop :=
  ∃ r ∈ o.hostResults, r.2.address = a ∧
    ∃ p ∈ l.checklist.range (workKey w), p.toCheckParameters = r.1

/-- One of the entries gets no result, and its blank address in place of one. -/
def HasUnanswered (l : HMDataCheckList) (w : RemoteWork) (o : RemoteOutcome) : Prop :=
  ∃ p ∈ l.checklist.range (workKey w), ∀ r ∈ o.hostResults, r.1 ≠ p.toCheckParameters

/-- The results of one entry at one address. -/
def resultsFor (o : RemoteOutcome) (p : CheckParameters) (a : HMIPAddress) :
    List (CheckParameters × HMDataCheckResult) :=
  o.hostResults.filter fun r => r.1 = p && r.2.address = a

/-- The result that is stored is the returned one, made inactive and with its status settled;
the times of the check are replaced. -/
def Settles (returned stored : HMDataCheckResult) : Prop :=
  { stored with checkTime := returned.checkTime, remoteCheckTime := returned.remoteCheckTime } =
    { returned with queryState := .inactive, softStatus := returned.status }

/-- What the results of a remote host do to the entries of its check. -/
structure Replaced (l l' : HMDataCheckList) (w : RemoteWork) (o : RemoteOutcome) : Prop where
  entries : (l'.checklist.range (workKey w)).map (·.toCheckParameters) =
    (l.checklist.range (workKey w)).map (·.toCheckParameters)
  addresses : ∀ ipv6, ReturnsFamily o ipv6 → ∀ a, a.getType = HMDNSCache.familyType ipv6 →
    (HeldAt l' (workKey w) a ↔ Returned o a ∧ (Matched l w o a ∨ HeldAt l (workKey w) a ∨
      a = .ofType afInet ∧ HasUnanswered l w o))
  results : ∀ p ∈ l'.checklist.range (workKey w), ∀ a r,
    (resultsFor o p.toCheckParameters a).getLast? = some r →
      ∃ stored, p.getCheckResult a = some stored ∧ Settles r.2 stored
  kept : ∀ ipv6, ¬ ReturnsFamily o ipv6 → ∀ a, a.getType = HMDNSCache.familyType ipv6 →
    a ≠ .ofType afInet → (l'.checklist.range (workKey w)).map (·.getCheckResult a) =
      (l.checklist.range (workKey w)).map (·.getCheckResult a)

/-! One entry. -/

variable {l : HMDataCheckList} {w : RemoteWork} {o : RemoteOutcome} {p : HMDataCheckParams}
  {a : HMIPAddress}

/-- A returned result as it is stored. -/
def settle (now : HMTimeStamp) (r : HMDataCheckResult) : HMDataCheckResult :=
  { r with
    softStatus := r.status
    remoteCheckTime := r.checkTime
    checkTime := now
    queryState := .inactive }

theorem settles_settle (now : HMTimeStamp) (r : HMDataCheckResult) : Settles r (settle now r) := rfl

/-- What one entry does with the returned results. -/
def receive (w : RemoteWork) (o : RemoteOutcome) (p : HMDataCheckParams) : HMDataCheckParams :=
  match o.hostResults.filter fun r => r.1 = p.toCheckParameters with
  | [] => (p.emptyQuery (.ofType afInet)).updateCheck (.ofType afInet)
      { o.report with response := .remoteFailed, reason := .remoteNodata, port := w.hostCheck.port }
  | rs =>
    rs.foldl (fun p r => p.updateCheckResult r.2.address (settle o.report.checkNow r.2) true) p

/-- The last write to an address counts. -/
theorem getCheckResult_foldl (now : HMTimeStamp) (rs : List (CheckParameters × HMDataCheckResult))
    (p : HMDataCheckParams) (a : HMIPAddress) :
    (rs.foldl (fun p r => p.updateCheckResult r.2.address (settle now r.2) true) p).getCheckResult
      a = ((rs.filter fun r => r.2.address = a).getLast?.map fun r => settle now r.2).or
        (p.getCheckResult a) := by
  induction rs generalizing p with
  | nil => rfl
  | cons r rs ih =>
    rw [List.foldl_cons, ih, HMDataCheckParams.getCheckResult_replace]
    by_cases haddress : r.2.address = a
    · rw [if_pos haddress, List.filter_cons_of_pos (by simpa using haddress), List.getLast?_cons]
      cases (rs.filter fun r => r.2.address = a).getLast? <;> rfl
    · rw [if_neg haddress, List.filter_cons_of_neg (by simpa using haddress)]

theorem toCheckParameters_foldl (now : HMTimeStamp)
    (rs : List (CheckParameters × HMDataCheckResult)) (p : HMDataCheckParams) :
    (rs.foldl (fun p r => p.updateCheckResult r.2.address (settle now r.2) true)
      p).toCheckParameters = p.toCheckParameters := by
  refine List.foldlRecOn (motive := fun p' : HMDataCheckParams =>
    p'.toCheckParameters = p.toCheckParameters) _ _ rfl ?_
  intro p' hsame r _
  rw [HMDataCheckParams.updateCheckResult_toCheckParameters, hsame]

theorem toCheckParameters_receive (w : RemoteWork) (o : RemoteOutcome) (p : HMDataCheckParams) :
    (receive w o p).toCheckParameters = p.toCheckParameters := by
  unfold receive
  split
  · rfl
  · exact toCheckParameters_foldl _ _ _

/-- An entry that gets results stores the last one at each address and keeps its others. -/
theorem getCheckResult_receive (hreturned : ∃ r ∈ o.hostResults, r.1 = p.toCheckParameters)
    (a : HMIPAddress) : (receive w o p).getCheckResult a =
      ((resultsFor o p.toCheckParameters a).getLast?.map fun r =>
        settle o.report.checkNow r.2).or (p.getCheckResult a) := by
  rcases hreturned with ⟨r, hr, hparams⟩
  unfold receive
  split
  · rename_i hnone
    have hmem : r ∈ o.hostResults.filter fun r => r.1 = p.toCheckParameters :=
      List.mem_filter.mpr ⟨hr, by simpa using hparams⟩
    rw [hnone] at hmem
    cases hmem
  · rw [getCheckResult_foldl, List.filter_filter, resultsFor]
    simp only [Bool.and_comm]

/-- An entry that gets no result keeps its own, beside the blank address. -/
theorem getCheckResult_receive_none (hnone : ∀ r ∈ o.hostResults, r.1 ≠ p.toCheckParameters) :
    (receive w o p).isValidIP (.ofType afInet) = true ∧ (a ≠ .ofType afInet →
      (receive w o p).getCheckResult a = p.getCheckResult a) := by
  have hempty : o.hostResults.filter (fun r => r.1 = p.toCheckParameters) = [] := by
    rw [List.filter_eq_nil_iff]
    intro r hr
    simpa using hnone r hr
  unfold receive
  rw [hempty]
  refine ⟨by simp, ?_⟩
  intro hne
  have hother : ¬ eqv (.ofType afInet) a = true := fun hk => hne (eqv_iff_eq.mp hk).symm
  simp [HMDataCheckParams.getCheckResult, HMDataCheckParams.updateCheck,
    HMDataCheckParams.emptyQuery, SortedMap.get?_modify, SortedMap.get?_insert, hother]

/-! The addresses that are dropped. -/

def invalidateResults (ips : List HMIPAddress) (p : HMDataCheckParams) : HMDataCheckParams :=
  ips.foldl (fun p ip => p.invalidateResult ip) p

@[simp] theorem toCheckParameters_invalidateResults (ips : List HMIPAddress)
    (p : HMDataCheckParams) : (invalidateResults ips p).toCheckParameters = p.toCheckParameters := by
  induction ips generalizing p with
  | nil => rfl
  | cons ip ips ih => exact ih (p.invalidateResult ip)

theorem getCheckResult_invalidateResults (ips : List HMIPAddress) (p : HMDataCheckParams)
    (a : HMIPAddress) : (invalidateResults ips p).getCheckResult a =
      if a ∈ ips then none else p.getCheckResult a := by
  induction ips generalizing p with
  | nil => rfl
  | cons ip ips ih =>
    have hone : (p.invalidateResult ip).getCheckResult a =
        if ip = a then none else p.getCheckResult a := by
      rw [HMDataCheckParams.getCheckResult, HMDataCheckParams.invalidateResult,
        SortedMap.get?_erase]
      simp only [eqv_iff_eq]
      rfl
    change (invalidateResults ips (p.invalidateResult ip)).getCheckResult a = _
    rw [ih, hone]
    by_cases hmem : a ∈ ips
    · simp [hmem]
    · by_cases heq : ip = a
      · simp [heq]
      · simp [hmem, heq, Ne.symm heq]

theorem range_invalidateChecks (ips : List HMIPAddress) (l : HMDataCheckList) (w : RemoteWork) :
    (ips.foldl (fun l ip => l.invalidateCheck w.hostname ip w.hostCheck) l).checklist.range
      (workKey w) = (l.checklist.range (workKey w)).map (invalidateResults ips) := by
  induction ips generalizing l with
  | nil => exact (List.map_id _).symm
  | cons ip ips ih =>
    have hone : (l.invalidateCheck w.hostname ip w.hostCheck).checklist.range (workKey w) =
        (l.checklist.range (workKey w)).map fun p => p.invalidateResult ip := by
      rw [HMDataCheckList.invalidateCheck, SortedMultimap.range_modify, if_pos]
      exact eqv_refl _
    rw [List.foldl_cons, ih, hone, List.map_map]
    rfl

theorem mem_getAddresses (p : HMDataCheckParams) (ipv6 : Bool) (a : HMIPAddress) :
    a ∈ (p.getAddresses (HMDNSCache.familyOnly ipv6)).toList ↔
      p.isValidIP a = true ∧ a.getType = HMDNSCache.familyType ipv6 := by
  have hheld : a ∈ p.checkData.keys ↔ p.isValidIP a = true := by
    rw [HMDataCheckParams.isValidIP_eq, HMDataCheckParams.getCheckResult, Option.isSome_iff_exists]
    constructor
    · intro hmem
      rcases List.mem_map.mp hmem with ⟨e, he, rfl⟩
      exact ⟨e.2, SortedMap.get?_of_mem he⟩
    · rintro ⟨r, hr⟩
      exact List.mem_map_of_mem (SortedMap.mem_of_get? hr)
  rw [HMDataCheckParams.getAddresses, ← SortedSet.contains_iff_mem, SortedSet.contains_insertAll]
  cases ipv6 <;>
    simp [SortedMap.contains_eq, eqv_iff_eq, hheld, HMDNSCache.familyOnly, HMDNSCache.familyType,
      DualStack.hasIpv4, DualStack.hasIpv6]

/-- The addresses of one family that some entry holds. -/
theorem mem_getCheckResultsAddress (l : HMDataCheckList) (w : RemoteWork) (ipv6 : Bool)
    (a : HMIPAddress) :
    a ∈ (l.getCheckResultsAddress w.hostname w.hostCheck (HMDNSCache.familyOnly ipv6)).toList ↔
      HeldAt l (workKey w) a ∧ a.getType = HMDNSCache.familyType ipv6 := by
  have hstep (acc : SortedSet HMIPAddress) (p : HMDataCheckParams) (a : HMIPAddress) :
      (SortedSet.insertAll acc
        (p.getAddresses (HMDNSCache.familyOnly ipv6)).toList).contains a = true ↔
      acc.contains a = true ∨ (p.isValidIP a = true ∧
        a.getType = HMDNSCache.familyType ipv6) := by
    simp [SortedSet.contains_insertAll, eqv_iff_eq, mem_getAddresses]
  have hempty : ¬ (∅ : SortedSet HMIPAddress).contains a = true := Bool.false_ne_true
  rw [← SortedSet.contains_iff_mem, HMDataCheckList.getCheckResultsAddress,
    SortedSet.contains_foldl hstep, or_iff_right hempty]
  constructor
  · rintro ⟨p, hp, hvalid, htype⟩
    exact ⟨⟨p, hp, hvalid⟩, htype⟩
  · rintro ⟨⟨p, hp, hvalid⟩, htype⟩
    exact ⟨p, hp, hvalid, htype⟩

/-- An address is dropped when its family is returned without it. -/
theorem mem_expiredResults (l : HMDataCheckList) (w : RemoteWork) (o : RemoteOutcome)
    (ipv6 : Bool) (a : HMIPAddress) :
    a ∈ Daemon.expiredResults l w (o.hostResults.map fun r => r.2.address) ipv6 ↔
      HeldAt l (workKey w) a ∧ a.getType = HMDNSCache.familyType ipv6 ∧ ReturnsFamily o ipv6 ∧
        ¬ Returned o a := by
  unfold Daemon.expiredResults
  dsimp only
  split
  · rename_i hnone
    have hreturns : ¬ ReturnsFamily o ipv6 := by
      rintro ⟨r, hr, htype⟩
      rw [List.filter_eq_nil_iff] at hnone
      exact hnone r.2.address (List.mem_map_of_mem hr) (by simpa using htype)
    simp [hreturns]
  · rename_i hsome
    have hreturns : ReturnsFamily o ipv6 := by
      obtain ⟨b, hb⟩ := List.exists_mem_of_ne_nil _ hsome
      rcases List.mem_filter.mp hb with ⟨hmem, htype⟩
      rcases List.mem_map.mp hmem with ⟨r, hr, rfl⟩
      exact ⟨r, hr, by simpa using htype⟩
    rw [List.mem_filter, mem_getCheckResultsAddress, and_assoc]
    refine and_congr_right fun _ => and_congr_right fun htype => ?_
    simp [hreturns, htype, Returned]

/-! The whole update. -/

/-- The address is of a family that is returned without it. -/
def Dropped (o : RemoteOutcome) (a : HMIPAddress) : Prop :=
  (∃ ipv6, a.getType = HMDNSCache.familyType ipv6 ∧ ReturnsFamily o ipv6) ∧ ¬ Returned o a

/-- Every entry takes its results first and loses the dropped addresses then. -/
theorem range_updateResults (l : HMDataCheckList) (w : RemoteWork) (o : RemoteOutcome) :
    ∃ final : HMDataCheckParams → HMDataCheckParams,
      (Daemon.updateResults l w o).checklist.range (workKey w) =
        (l.checklist.range (workKey w)).map final ∧
      ∀ p ∈ l.checklist.range (workKey w), (final p).toCheckParameters = p.toCheckParameters ∧
        ∀ a, (Dropped o a → (final p).getCheckResult a = none) ∧
          (¬ Dropped o a → (final p).getCheckResult a = (receive w o p).getCheckResult a) := by
  let reported := o.hostResults.map fun r => r.2.address
  let updated := l.updateCheckRemote w.hostname w.hostCheck (.ofType afInet) o.hostResults o.report
  let v4 := Daemon.expiredResults updated w reported false
  let pruned := v4.foldl (fun l ip => l.invalidateCheck w.hostname ip w.hostCheck) updated
  let v6 := Daemon.expiredResults pruned w reported true
  have hupdated : updated.checklist.range (workKey w) =
      (l.checklist.range (workKey w)).map (receive w o) := by
    change (l.checklist.modify (workKey w) (receive w o)).range (workKey w) = _
    rw [SortedMultimap.range_modify, if_pos (eqv_refl _)]
  have hpruned : pruned.checklist.range (workKey w) =
      (l.checklist.range (workKey w)).map fun p => invalidateResults v4 (receive w o p) := by
    rw [range_invalidateChecks, hupdated, List.map_map]
    rfl
  refine ⟨fun p => invalidateResults v6 (invalidateResults v4 (receive w o p)), ?_, ?_⟩
  · change (v6.foldl (fun l ip => l.invalidateCheck w.hostname ip w.hostCheck)
      pruned).checklist.range (workKey w) = _
    rw [range_invalidateChecks, hpruned, List.map_map]
    rfl
  · intro p hp
    refine ⟨by simp [toCheckParameters_receive], ?_⟩
    intro a
    dsimp only
    rw [getCheckResult_invalidateResults, getCheckResult_invalidateResults]
    constructor
    · rintro ⟨⟨ipv6, htype, hreturns⟩, hmissing⟩
      by_cases hv6 : a ∈ v6
      · rw [if_pos hv6]
      · by_cases hv4 : a ∈ v4
        · rw [if_neg hv6, if_pos hv4]
        · rw [if_neg hv6, if_neg hv4, ← Option.not_isSome_iff_eq_none]
          intro hsome
          cases ipv6 with
          | false =>
            refine hv4 ((mem_expiredResults updated w o false a).mpr
              ⟨⟨receive w o p, ?_, ?_⟩, htype, hreturns, hmissing⟩)
            · rw [hupdated]
              exact List.mem_map_of_mem hp
            · rw [HMDataCheckParams.isValidIP_eq, hsome]
          | true =>
            refine hv6 ((mem_expiredResults pruned w o true a).mpr
              ⟨⟨invalidateResults v4 (receive w o p), ?_, ?_⟩, htype, hreturns, hmissing⟩)
            · rw [hpruned]
              exact List.mem_map_of_mem hp
            · rw [HMDataCheckParams.isValidIP_eq, getCheckResult_invalidateResults, if_neg hv4, hsome]
    · intro hkept
      have hv4 : a ∉ v4 := by
        intro hmem
        rcases (mem_expiredResults _ _ _ _ _).mp hmem with ⟨-, htype, hreturns, hmissing⟩
        exact hkept ⟨⟨false, htype, hreturns⟩, hmissing⟩
      have hv6 : a ∉ v6 := by
        intro hmem
        rcases (mem_expiredResults _ _ _ _ _).mp hmem with ⟨-, htype, hreturns, hmissing⟩
        exact hkept ⟨⟨true, htype, hreturns⟩, hmissing⟩
      rw [if_neg hv6, if_neg hv4]

theorem isValidIP_receive (w : RemoteWork) (o : RemoteOutcome) (p : HMDataCheckParams)
    (a : HMIPAddress) : (receive w o p).isValidIP a = true ↔ p.isValidIP a = true ∨
      (∃ r ∈ o.hostResults, r.2.address = a ∧ p.toCheckParameters = r.1) ∨
        a = .ofType afInet ∧ ∀ r ∈ o.hostResults, r.1 ≠ p.toCheckParameters := by
  by_cases hreturned : ∃ r ∈ o.hostResults, r.1 = p.toCheckParameters
  · have hanswered : ¬ ∀ r ∈ o.hostResults, r.1 ≠ p.toCheckParameters := by
      rcases hreturned with ⟨r, hr, hparams⟩
      exact fun hnone => hnone r hr hparams
    have hresults : (resultsFor o p.toCheckParameters a).getLast?.isSome = true ↔
        ∃ r ∈ o.hostResults, r.2.address = a ∧ p.toCheckParameters = r.1 := by
      rw [List.getLast?_isSome]
      constructor
      · intro hsome
        obtain ⟨r, hr⟩ := List.exists_mem_of_ne_nil _ hsome
        rcases List.mem_filter.mp hr with ⟨hmem, hmatch⟩
        simp only [Bool.and_eq_true, decide_eq_true_eq] at hmatch
        exact ⟨r, hmem, hmatch.2, hmatch.1.symm⟩
      · rintro ⟨r, hr, haddress, hparams⟩
        exact List.ne_nil_of_mem (List.mem_filter.mpr ⟨hr, by simp [haddress, hparams]⟩)
    rw [HMDataCheckParams.isValidIP_eq, getCheckResult_receive hreturned, Option.isSome_or,
      Option.isSome_map, Bool.or_eq_true, hresults, ← HMDataCheckParams.isValidIP_eq]
    simp only [hanswered, and_false, or_false]
    exact or_comm
  · have hnone : ∀ r ∈ o.hostResults, r.1 ≠ p.toCheckParameters :=
      fun r hr hparams => hreturned ⟨r, hr, hparams⟩
    have hunmatched : ¬ ∃ r ∈ o.hostResults, r.2.address = a ∧ p.toCheckParameters = r.1 := by
      rintro ⟨r, hr, -, hparams⟩
      exact hnone r hr hparams.symm
    by_cases hblank : a = .ofType afInet
    · subst hblank
      exact iff_of_true (getCheckResult_receive_none (a := .unset) hnone).1
        (Or.inr (Or.inr ⟨rfl, hnone⟩))
    · rw [HMDataCheckParams.isValidIP_eq, (getCheckResult_receive_none hnone).2 hblank,
        ← HMDataCheckParams.isValidIP_eq]
      simp [hunmatched, hblank]

theorem heldAt_updateResults (l : HMDataCheckList) (w : RemoteWork) (o : RemoteOutcome)
    (a : HMIPAddress) : HeldAt (Daemon.updateResults l w o) (workKey w) a ↔
      ¬ Dropped o a ∧ ∃ p ∈ l.checklist.range (workKey w), (receive w o p).isValidIP a = true := by
  obtain ⟨final, hrange, hfinal⟩ := range_updateResults l w o
  have hheld : HeldAt (Daemon.updateResults l w o) (workKey w) a ↔
      ∃ p ∈ l.checklist.range (workKey w), (final p).isValidIP a = true := by
    rw [HeldAt, hrange]
    simp
  rw [hheld]
  by_cases hdropped : Dropped o a
  · refine iff_of_false ?_ fun h => h.1 hdropped
    rintro ⟨p, hp, hvalid⟩
    rw [HMDataCheckParams.isValidIP_eq, ((hfinal p hp).2 a).1 hdropped] at hvalid
    cases hvalid
  · have hsame : ∀ p ∈ l.checklist.range (workKey w),
        (final p).isValidIP a = (receive w o p).isValidIP a := by
      intro p hp
      rw [HMDataCheckParams.isValidIP_eq, ((hfinal p hp).2 a).2 hdropped,
        ← HMDataCheckParams.isValidIP_eq]
    constructor
    · rintro ⟨p, hp, hvalid⟩
      exact ⟨hdropped, p, hp, hsame p hp ▸ hvalid⟩
    · rintro ⟨-, p, hp, hvalid⟩
      exact ⟨p, hp, (hsame p hp).trans hvalid⟩

/-- The entries hold an address in the end if it is not dropped, and an entry asked for it, held
it before, or has it in place of a result. -/
theorem exists_receive_iff (l : HMDataCheckList) (w : RemoteWork) (o : RemoteOutcome)
    (a : HMIPAddress) :
    (∃ p ∈ l.checklist.range (workKey w), (receive w o p).isValidIP a = true) ↔
      Matched l w o a ∨ HeldAt l (workKey w) a ∨ a = .ofType afInet ∧ HasUnanswered l w o := by
  constructor
  · rintro ⟨p, hp, hvalid⟩
    rcases (isValidIP_receive w o p a).mp hvalid with
      hbefore | ⟨r, hr, haddress, hparams⟩ | ⟨hblank, hnone⟩
    · exact Or.inr (Or.inl ⟨p, hp, hbefore⟩)
    · exact Or.inl ⟨r, hr, haddress, p, hp, hparams⟩
    · exact Or.inr (Or.inr ⟨hblank, p, hp, hnone⟩)
  · rintro (⟨r, hr, haddress, p, hp, hparams⟩ | ⟨p, hp, hbefore⟩ | ⟨hblank, p, hp, hnone⟩)
    · exact ⟨p, hp, (isValidIP_receive w o p a).mpr (Or.inr (Or.inl ⟨r, hr, haddress, hparams⟩))⟩
    · exact ⟨p, hp, (isValidIP_receive w o p a).mpr (Or.inl hbefore)⟩
    · exact ⟨p, hp, (isValidIP_receive w o p a).mpr (Or.inr (Or.inr ⟨hblank, hnone⟩))⟩

/-- An entry holds nothing new at an address of a family that is not returned. -/
theorem getCheckResult_receive_other {ipv6 : Bool} (hother : ¬ ReturnsFamily o ipv6)
    (htype : a.getType = HMDNSCache.familyType ipv6) (hblank : a ≠ .ofType afInet) :
    (receive w o p).getCheckResult a = p.getCheckResult a := by
  by_cases hreturned : ∃ r ∈ o.hostResults, r.1 = p.toCheckParameters
  · have hnone : resultsFor o p.toCheckParameters a = [] := by
      rw [resultsFor, List.filter_eq_nil_iff]
      intro r hr
      have hne : r.2.address ≠ a := by
        rintro rfl
        exact hother ⟨r, hr, htype⟩
      simp [hne]
    rw [getCheckResult_receive hreturned, hnone]
    rfl
  · exact (getCheckResult_receive_none fun r hr hparams => hreturned ⟨r, hr, hparams⟩).2 hblank

/-- After the results of a remote host are taken over, the addresses of a family that is
returned are those of the returned ones that an entry asked for, or held before; each entry
has the last result returned for it at each address, and nothing else of the other family
changes. -/
theorem remote_host_results_replaced (l : HMDataCheckList) (w : RemoteWork) (o : RemoteOutcome) :
    Replaced l (Daemon.updateResults l w o) w o := by
  obtain ⟨final, hrange, hfinal⟩ := range_updateResults l w o
  refine ⟨?_, ?_, ?_, ?_⟩
  · rw [hrange, List.map_map]
    exact List.map_congr_left fun p hp => (hfinal p hp).1
  · intro ipv6 hreturns a htype
    have hdropped : ¬ Dropped o a ↔ Returned o a := by
      constructor
      · intro hkept
        by_contra hmissing
        exact hkept ⟨⟨ipv6, htype, hreturns⟩, hmissing⟩
      · exact fun hreturned hdropped => hdropped.2 hreturned
    rw [heldAt_updateResults, hdropped, exists_receive_iff]
  · intro p' hp' a r hlast
    rw [hrange] at hp'
    rcases List.mem_map.mp hp' with ⟨p, hp, rfl⟩
    rw [(hfinal p hp).1] at hlast
    obtain ⟨hr, hmatch⟩ := List.mem_filter.mp (List.mem_of_getLast? hlast)
    simp only [Bool.and_eq_true, decide_eq_true_eq] at hmatch
    have hkept : ¬ Dropped o a := fun hdropped => hdropped.2 ⟨r, hr, hmatch.2⟩
    refine ⟨settle o.report.checkNow r.2, ?_, settles_settle _ _⟩
    rw [((hfinal p hp).2 a).2 hkept, getCheckResult_receive ⟨r, hr, hmatch.1⟩, hlast]
    rfl
  · intro ipv6 hother a htype hblank
    have hkept : ¬ Dropped o a := by
      rintro ⟨⟨ipv6', htype', hreturns⟩, -⟩
      exact hother (ReloadDNS.familyType_inj (htype.symm.trans htype') ▸ hreturns)
    rw [hrange, List.map_map]
    refine List.map_congr_left fun p hp => ?_
    exact (((hfinal p hp).2 a).2 hkept).trans (getCheckResult_receive_other hother htype hblank)

instance (l : HMDataCheckList) (k : CheckListKey) (a : HMIPAddress) : Decidable (HeldAt l k a) :=
  inferInstanceAs (Decidable (∃ p ∈ _, _))

instance (l : HMDataCheckList) (w : RemoteWork) (o : RemoteOutcome) (a : HMIPAddress) :
    Decidable (Matched l w o a) :=
  inferInstanceAs (Decidable (∃ r ∈ _, _ ∧ ∃ p ∈ _, _))

/-- A group of one host that is checked by a remote daemon. -/
def remoteGroup : HMDataHostGroup :=
  { HMDataHostGroup.new (bytes "web") with
    checkType := .http, flowType := .remoteHost, hosts := [bytes "a"] }

def remoteWork : RemoteWork := ⟨bytes "a", remoteGroup.getHostCheck.getD .default⟩

/-- The list has a result for the address. -/
def remoteList (a : HMIPAddress) : HMDataCheckList :=
  (HMDataCheckList.empty.addHostGroup remoteGroup).updateCheck
    ⟨bytes "a", a, remoteWork.hostCheck, remoteGroup.getCheckParameters⟩
    { HMDataCheckResult.new 0 with address := a }

/-- The remote daemon returns the address with parameters that no entry has. -/
def otherParameters (a : HMIPAddress) : RemoteOutcome where
  status := .completeRemote
  hostResults := [({ remoteGroup.getCheckParameters with numCheckRetries := 9 },
    { HMDataCheckResult.new 0 with address := a })]
  report := ⟨.connected, .none, 0, 0, 0, 0, 0⟩

/-- An address that is returned with the parameters of no entry stays where it was. -/
theorem unmatched_address_stays :
    ∃ l w o a, ReturnsFamily o false ∧ a.getType = HMDNSCache.familyType false ∧ Returned o a ∧
      HeldAt (Daemon.updateResults l w o) (workKey w) a ∧ ¬ Matched l w o a :=
  ⟨remoteList (.v4 7), remoteWork, otherParameters (.v4 7), .v4 7,
    ⟨_, List.mem_singleton.mpr rfl, rfl⟩, rfl, ⟨_, List.mem_singleton.mpr rfl, rfl⟩,
    by decide +kernel, by decide +kernel⟩

end RemoteHostResults
