import NetCHASM.StorageRestart
import NetCHASM.ReloadDNS

/-! The addresses that a start takes over into the DNS cache. The addresses of a group whose
configuration changed are saved before its results are dropped; an address is followed from
the record that it stands in to the lookup of the cache that it ends under. -/
namespace AddressCarryOver

open NetCHASM OrderedMap KeyOrder DaemonState Purge StorageRestart

/-- The lookup of the group for an address of a host, in the address's own family. -/
def addressKey (g : HMDataHostGroup) (r : HMGroupCheckResult) : DNSKey :=
  (r.hostName, .new g.dnsType (r.address.getType == afInet6) g.remoteCheck)

/-- The address is saved under the lookup. -/
def Held (m : SortedMap DNSKey (SortedSet HMIPAddress)) (k : DNSKey) (a : HMIPAddress) : Prop :=
  ∃ addresses, m.get? k = some addresses ∧ addresses.contains a = true

/-- The loop saves the address under the lookup when it is at this record. -/
def Saves (m : HMDataHostGroupMap) (p : Purge) (e : HMString × HMGroupCheckResult)
    (rest : List (HMString × HMGroupCheckResult)) (k : DNSKey) (a : HMIPAddress) : Prop :=
  ∃ q, { p with dnsMap := ∅ }.purgeCheck m e rest = some q ∧ Held q.dnsMap k a

/-- The loop saves the address under the lookup at a record of the group. -/
def SavedFor (m : HMDataHostGroupMap) (name : HMString) (k : DNSKey) (a : HMIPAddress) :
    Purge → List (HMString × HMGroupCheckResult) → Prop
  | _, [] => False
  | p, e :: rest =>
    e.1 = name ∧ Saves m p e rest k a ∨
      ∃ q, p.purgeCheck m e rest = some q ∧ SavedFor m name k a q rest

/-- The records that a start reads. -/
def backendChecks (d : DaemonState) : Option (GroupCache HMDataCheckResult) := do
  let names ← groupNames (clearStore d.store)
  fetchGroups (clearStore d.store).fetchCheckResults names ∅

/-- The loop before its first record. -/
def purgeStart (d : DaemonState) : Purge :=
  ⟨clearStore d.store, d.state.checkList, [], ∅, ∅, ∅⟩

/-! One record. -/

variable {m : HMDataHostGroupMap} {p q : Purge} {g : HMDataHostGroup}
  {e : HMString × HMGroupCheckResult} {rest : List (HMString × HMGroupCheckResult)}
  {k : DNSKey} {a : HMIPAddress}

theorem held_saveAddress (p : Purge) (g : HMDataHostGroup) (r : HMGroupCheckResult) :
    Held (p.saveAddress g r).dnsMap k a ↔
      Held p.dnsMap k a ∨ eqv (addressKey g r) k = true ∧ r.address = a := by
  have hget : (p.saveAddress g r).dnsMap.get? k = if eqv (addressKey g r) k then
      some (((p.dnsMap.get? k).getD ∅).insert r.address ()) else p.dnsMap.get? k := by
    change ((p.dnsMap.insert (addressKey g r) ∅).modify (addressKey g r) _).get? k = _
    rw [SortedMap.get?_modify, SortedMap.get?_insert]
    by_cases hk : eqv (addressKey g r) k = true
    · rw [if_pos hk, if_pos hk, if_pos hk, SortedMap.get?_congr _ hk, Option.map_some]
    · rw [if_neg hk, if_neg hk, if_neg hk]
  unfold Held
  rw [hget]
  by_cases hk : eqv (addressKey g r) k = true
  · cases p.dnsMap.get? k with
    | none =>
      have hempty : (∅ : SortedSet HMIPAddress).contains a = false := by
        rw [SortedMap.contains_eq]
        rfl
      simp [hk, SortedMap.contains_insert, eqv_iff_eq, hempty]
    | some addresses =>
      simp only [hk, if_true, Option.getD_some, Option.some.injEq, exists_eq_left', true_and,
        SortedMap.contains_insert, Bool.or_eq_true, eqv_iff_eq]
      exact or_comm
  · simp [hk]

/-- A step for a changed group saves the address of its own record, if any of the group's
remaining records is of a family that the group uses. -/
theorem held_saveAddresses (p : Purge) (g : HMDataHostGroup) (e : HMString × HMGroupCheckResult)
    (rest : List (HMString × HMGroupCheckResult)) :
    Held (p.saveAddresses g e rest).dnsMap k a ↔ Held p.dnsMap k a ∨
      (∃ x ∈ p.backendChecks ++ e :: rest, x.1 = e.1 ∧ isOtherFamily g x.2.address = false) ∧
        eqv (addressKey g e.2) k = true ∧ e.2.address = a := by
  have hfold : ∀ (range : List (HMString × HMGroupCheckResult)) (p : Purge),
      Held (range.foldl (fun p x => if isOtherFamily g x.2.address then p
        else p.saveAddress g e.2) p).dnsMap k a ↔ Held p.dnsMap k a ∨
          (∃ x ∈ range, isOtherFamily g x.2.address = false) ∧
            eqv (addressKey g e.2) k = true ∧ e.2.address = a := by
    intro range
    induction range with
    | nil => simp
    | cons x range ih =>
      intro p
      rw [List.foldl_cons, ih]
      by_cases hother : isOtherFamily g x.2.address = true
      · simp [hother]
      · rw [if_neg hother, held_saveAddress, or_assoc]
        refine or_congr_right ⟨?_, ?_⟩
        · rintro (hsaved | ⟨⟨y, hy, hfamily⟩, hsaved⟩)
          · exact ⟨⟨x, List.mem_cons_self, by simpa using hother⟩, hsaved⟩
          · exact ⟨⟨y, List.mem_cons_of_mem x hy, hfamily⟩, hsaved⟩
        · exact fun hsaved => Or.inl hsaved.2
  rw [Purge.saveAddresses, hfold]
  simp only [List.mem_filter, decide_eq_true_eq, and_assoc]

/-- What a step adds to the saved addresses. -/
def Adds (m : HMDataHostGroupMap) (p : Purge) (e : HMString × HMGroupCheckResult)
    (rest : List (HMString × HMGroupCheckResult)) (k : DNSKey) (a : HMIPAddress) : Prop :=
  ∃ g, m.get? e.1 = some g ∧ eqv (addressKey g e.2) k = true ∧ e.2.address = a ∧
    (p.store.isChanged e.1 g = some true ∧
        (∃ x ∈ p.backendChecks ++ e :: rest, x.1 = e.1 ∧ isOtherFamily g x.2.address = false) ∨
      p.store.isChanged e.1 g = some false ∧ g.isValidHost e.2.hostName = true)

theorem held_purgeCheck (h : p.purgeCheck m e rest = some q) :
    Held q.dnsMap k a ↔ Held p.dnsMap k a ∨ Adds m p e rest k a := by
  unfold Purge.purgeCheck at h
  unfold Adds
  split at h
  · rename_i hget
    obtain rfl := Option.some.inj h
    simp [hget]
  · rename_i g hget
    split at h
    · cases h
    · rename_i hchanged
      obtain rfl := Option.some.inj h
      simp only [held_saveAddresses, hget, Option.some.injEq, exists_eq_left', hchanged, true_and,
        Bool.true_eq_false, false_and, or_false]
      tauto
    · rename_i hsame
      split at h
      · rename_i hvalid
        obtain rfl := Option.some.inj h
        simp [held_saveAddress, hget, hsame, hvalid]
      · rename_i hvalid
        obtain rfl := Option.some.inj h
        simp [hget, hsame, hvalid]

/-- Whether a step raises does not depend on what is saved. -/
theorem purgeCheck_isSome (h : p.purgeCheck m e rest = some q) :
    ∃ q', { p with dnsMap := ∅ }.purgeCheck m e rest = some q' := by
  unfold Purge.purgeCheck at h ⊢
  dsimp only at h ⊢
  cases hget : m.get? e.1 with
  | none => exact ⟨_, rfl⟩
  | some g =>
    rw [hget] at h
    dsimp only at h ⊢
    cases hchanged : p.store.isChanged e.1 g with
    | none =>
      rw [hchanged] at h
      cases h
    | some changed =>
      cases changed with
      | true => exact ⟨_, rfl⟩
      | false =>
        dsimp only
        split <;> exact ⟨_, rfl⟩

theorem saves_iff (h : p.purgeCheck m e rest = some q) :
    Saves m p e rest k a ↔ Adds m p e rest k a := by
  obtain ⟨q', hq'⟩ := purgeCheck_isSome h
  have hheld := held_purgeCheck (k := k) (a := a) hq'
  have hempty : ¬ Held ({ p with dnsMap := ∅ } : Purge).dnsMap k a := by simp [Held]
  rw [or_iff_right hempty] at hheld
  constructor
  · rintro ⟨q'', hq'', hsaved⟩
    rw [hq'] at hq''
    obtain rfl := Option.some.inj hq''
    exact hheld.mp hsaved
  · exact fun hadds => ⟨q', hq', hheld.mpr hadds⟩

/-! The whole loop. -/

variable {es : List (HMString × HMGroupCheckResult)} {name host : HMString}

/-- What is saved in the end was saved before, or is saved for one of the groups. -/
theorem held_purgeChecks (h : p.purgeChecks m es = some q) :
    Held q.dnsMap k a ↔ Held p.dnsMap k a ∨ ∃ name, SavedFor m name k a p es := by
  induction es generalizing p with
  | nil =>
    obtain rfl := Option.some.inj h
    simp [SavedFor]
  | cons e es ih =>
    unfold Purge.purgeChecks at h
    split at h
    · cases h
    · rename_i q' hq'
      rw [ih h, held_purgeCheck hq', or_assoc, ← saves_iff hq']
      simp only [SavedFor, hq', Option.some.injEq, exists_eq_left', exists_or]

/-- A saved address is of the family of its lookup. -/
theorem family_of_savedFor (h : p.purgeChecks m es = some q) (hsaved : SavedFor m name k a p es) :
    k.2.ipv6 = (a.getType == afInet6) := by
  induction es generalizing p with
  | nil => exact hsaved.elim
  | cons e es ih =>
    unfold Purge.purgeChecks at h
    split at h
    · cases h
    · rename_i q' hq'
      rcases hsaved with ⟨-, hsaves⟩ | ⟨q'', hq'', hrest⟩
      · rcases (saves_iff hq').mp hsaves with ⟨g, -, hkey, rfl, -⟩
        exact (DNSKey.eqv_iff.mp hkey).2.2.2.symm
      · rw [hq'] at hq''
        obtain rfl := Option.some.inj hq''
        exact ih h hrest

/-! A changed group. -/

/-- The addresses that the loop saves for a changed group with these records left. -/
def SavedFrom (g : HMDataHostGroup) (k : DNSKey) (a : HMIPAddress) :
    List HMGroupCheckResult → Prop
  | [] => False
  | r :: rs =>
    (∃ x ∈ r :: rs, isOtherFamily g x.address = false) ∧
        eqv (addressKey g r) k = true ∧ r.address = a ∨
      SavedFrom g k a rs

/-- The loop has kept no record of the group, since the group's configuration changed. -/
structure Dropping (p : Purge) (name : HMString) (g : HMDataHostGroup) : Prop where
  readonly : p.store.readonly = false
  shutdown : p.store.shutdown = false
  changed : p.store.isChanged name g = some true
  dropped : ∀ x ∈ p.backendChecks, x.1 ≠ name

theorem Dropping.purgeCheck (hd : Dropping p name g) (hget : m.get? name = some g)
    (h : p.purgeCheck m e rest = some q) : Dropping q name g := by
  have hpurged := purged_purgeCheck hd.readonly hd.shutdown h
  obtain ⟨checks, hstore, -⟩ := hpurged.store
  refine ⟨?_, ?_, ?_, ?_⟩
  · rw [hstore]
    exact hd.readonly
  · rw [hstore]
    exact hd.shutdown
  · rw [hstore]
    exact hd.changed
  · intro x hx
    rw [hpurged.kept, List.mem_append] at hx
    rcases hx with hx | hx
    · exact hd.dropped x hx
    · rcases List.mem_filter.mp hx with ⟨-, hkept⟩
      rintro rfl
      simp [isKept, hget, hd.changed] at hkept

theorem adds_of_dropping (hd : Dropping p name g) (hget : m.get? name = some g)
    (hname : e.1 = name) : Adds m p e rest k a ↔
      (∃ x ∈ e :: rest, x.1 = name ∧ isOtherFamily g x.2.address = false) ∧
        eqv (addressKey g e.2) k = true ∧ e.2.address = a := by
  subst hname
  have hrange : (∃ x ∈ p.backendChecks ++ e :: rest, x.1 = e.1 ∧
      isOtherFamily g x.2.address = false) ↔
        ∃ x ∈ e :: rest, x.1 = e.1 ∧ isOtherFamily g x.2.address = false := by
    constructor
    · rintro ⟨x, hx, hname, hfamily⟩
      rcases List.mem_append.mp hx with hx | hx
      · exact absurd hname (hd.dropped x hx)
      · exact ⟨x, hx, hname, hfamily⟩
    · rintro ⟨x, hx, hboth⟩
      exact ⟨x, List.mem_append_right p.backendChecks hx, hboth⟩
  simp only [Adds, hget, Option.some.injEq, exists_eq_left', hd.changed, true_and,
    Bool.true_eq_false, false_and, or_false, hrange]
  tauto

/-- For a changed group the loop looks at the group's own records alone. -/
theorem savedFor_iff (hd : Dropping p name g) (hget : m.get? name = some g)
    (h : p.purgeChecks m es = some q) : SavedFor m name k a p es ↔
      SavedFrom g k a ((es.filter fun e => eqv e.1 name).map Prod.snd) := by
  induction es generalizing p with
  | nil => rfl
  | cons e es ih =>
    unfold Purge.purgeChecks at h
    split at h
    · cases h
    · rename_i q' hq'
      have hrest := ih (hd.purgeCheck hget hq') h
      simp only [SavedFor, saves_iff hq', hq', Option.some.injEq, exists_eq_left', hrest]
      by_cases hname : e.1 = name
      · rw [adds_of_dropping hd hget hname]
        simp only [List.filter_cons, if_true, List.map_cons, SavedFrom, hname, true_and,
          List.mem_cons, List.mem_map, List.mem_filter, eqv_iff_eq]
        refine or_congr_left (and_congr_left' ⟨?_, ?_⟩)
        · rintro ⟨x, rfl | hx, hxname, hfamily⟩
          · exact ⟨x.2, Or.inl rfl, hfamily⟩
          · exact ⟨x.2, Or.inr ⟨x, ⟨hx, hxname⟩, rfl⟩, hfamily⟩
        · rintro ⟨r, rfl | ⟨x, ⟨hx, hxname⟩, rfl⟩, hfamily⟩
          · exact ⟨e, Or.inl rfl, hname, hfamily⟩
          · exact ⟨x, Or.inr hx, hxname, hfamily⟩
      · have hne : ¬ eqv e.1 name = true := fun heqv => hname (eqv_iff_eq.mp heqv)
        simp [hname, hne]

/-- Only used families are saved for a host, just when no record of the host that is of
another family stands before one of a used family. -/
theorem savedFrom_used_iff (g : HMDataHostGroup) (host : HMString)
    (rs : List HMGroupCheckResult) :
    (∀ k a, k.1 = host → SavedFrom g k a rs → isOtherFamily g a = false) ↔
      rs.Pairwise fun r x => r.hostName = host → isOtherFamily g r.address = true →
        isOtherFamily g x.address = true := by
  induction rs with
  | nil => simp [SavedFrom]
  | cons r rs ih =>
    rw [List.pairwise_cons, ← ih]
    constructor
    · intro h
      refine ⟨?_, fun k a hk hsaved => h k a hk (Or.inr hsaved)⟩
      intro x hx hhost hother
      by_contra hused
      have hsaved : SavedFrom g (addressKey g r) r.address (r :: rs) :=
        Or.inl ⟨⟨x, List.mem_cons_of_mem r hx, by simpa using hused⟩, eqv_refl _, rfl⟩
      rw [h _ _ hhost hsaved] at hother
      cases hother
    · rintro ⟨hfirst, hrest⟩ k a hk (⟨⟨x, hx, hused⟩, hkey, rfl⟩ | hsaved)
      · have hhost : r.hostName = host := (DNSKey.eqv_iff.mp hkey).1.trans hk
        rcases List.mem_cons.mp hx with rfl | hx
        · exact hused
        · by_contra hother
          rw [hfirst x hx hhost (by simpa using hother)] at hused
          cases hused
      · exact hrest k a hk hsaved

theorem savedFrom_of_used {rs : List HMGroupCheckResult} {r : HMGroupCheckResult} (hr : r ∈ rs)
    (hused : isOtherFamily g r.address = false) (hkey : eqv (addressKey g r) k = true) :
    SavedFrom g k r.address rs := by
  induction rs with
  | nil => cases hr
  | cons x rs ih =>
    rcases List.mem_cons.mp hr with rfl | hr
    · exact Or.inl ⟨⟨r, List.mem_cons_self, hused⟩, hkey, rfl⟩
    · exact Or.inr (ih hr)

theorem exists_of_savedFrom {rs : List HMGroupCheckResult} (h : SavedFrom g k a rs) :
    ∃ r ∈ rs, eqv (addressKey g r) k = true ∧ r.address = a := by
  induction rs with
  | nil => exact h.elim
  | cons x rs ih =>
    rcases h with ⟨-, hsaved⟩ | hrest
    · exact ⟨x, List.mem_cons_self, hsaved⟩
    · obtain ⟨r, hr, hsaved⟩ := ih hrest
      exact ⟨r, List.mem_cons_of_mem x hr, hsaved⟩

/-- The configuration of the group lets its hosts have the address. -/
def Allowed (g : HMDataHostGroup) (a : HMIPAddress) : Prop :=
  a.getType = afInet ∧ g.dualstack ≠ .ipv6Only ∨ a.getType = afInet6 ∧ g.dualstack ≠ .ipv4Only

instance (g : HMDataHostGroup) (a : HMIPAddress) : Decidable (Allowed g a) :=
  inferInstanceAs (Decidable (_ ∨ _))

/-- The start enters the address under the lookup on behalf of the group: the loop saves it
at a record of the group, and the DNS cache is given the lookup with the addresses of its
family. -/
def Entered (d : DaemonState) (checks : GroupCache HMDataCheckResult) (name : HMString)
    (k : DNSKey) (a : HMIPAddress) : Prop :=
  SavedFor d.state.hostGroups name k a (purgeStart d) checks.entries ∧
    k.2.remoteCheckGroup = [] ∧ a.getType = HMDNSCache.familyType k.2.ipv6

/-- What is entered for the group under lookups of the host are the addresses of the group's
records that the group allows, each in its own family. -/
def CarriesOver (d : DaemonState) (checks : GroupCache HMDataCheckResult) (name : HMString)
    (g : HMDataHostGroup) (host : HMString) : Prop :=
  ∀ k a, k.1 = host → (Entered d checks name k a ↔
    ∃ r ∈ checks.range name, Allowed g r.address ∧ eqv (addressKey g r) k = true ∧ r.address = a)

/-- An address of a family is of one that the group does not use, or allowed. -/
theorem allowed_iff (g : HMDataHostGroup) (ipv6 : Bool)
    (hfamily : a.getType = HMDNSCache.familyType ipv6) :
    Allowed g a ↔ isOtherFamily g a = false := by
  unfold Allowed isOtherFamily
  rw [hfamily]
  cases ipv6 <;> simp [HMDNSCache.familyType, afInet, afInet6]

theorem familyType_of_allowed (h : Allowed g a) :
    a.getType = HMDNSCache.familyType (a.getType == afInet6) := by
  rcases h with ⟨htype, -⟩ | ⟨htype, -⟩ <;> rw [htype] <;> rfl

theorem familyType_of_other (h : isOtherFamily g a = true) :
    a.getType = HMDNSCache.familyType (a.getType == afInet6) := by
  unfold isOtherFamily at h
  simp only [Bool.or_eq_true, Bool.and_eq_true, decide_eq_true_eq] at h
  rcases h with ⟨htype, -⟩ | ⟨htype, -⟩ <;> rw [htype] <;> rfl

variable {d r : DaemonState} {checks : GroupCache HMDataCheckResult}

theorem carriesOver_iff_used (hd : Dropping (purgeStart d) name g)
    (hget : d.state.hostGroups.get? name = some g)
    (h : (purgeStart d).purgeChecks d.state.hostGroups checks.entries = some q)
    (hremote : g.remoteCheck = []) : CarriesOver d checks name g host ↔
      ∀ k a, k.1 = host → SavedFrom g k a (checks.range name) → isOtherFamily g a = false := by
  have hsaved : ∀ k a, SavedFor d.state.hostGroups name k a (purgeStart d) checks.entries ↔
      SavedFrom g k a (checks.range name) := fun k a => savedFor_iff hd hget h
  unfold CarriesOver Entered
  constructor
  · intro hcarries k a hk hfrom
    by_contra hother
    rw [Bool.not_eq_false] at hother
    obtain ⟨r, -, hkey, rfl⟩ := exists_of_savedFrom hfrom
    rcases DNSKey.eqv_iff.mp hkey with ⟨-, -, hgroup, hipv6⟩
    have hfamily : r.address.getType = HMDNSCache.familyType k.2.ipv6 := by
      rw [← hipv6]
      exact familyType_of_other hother
    obtain ⟨r', -, hallowed, -, haddress⟩ := (hcarries k r.address hk).mp
      ⟨(hsaved k r.address).mpr hfrom, hgroup.symm.trans hremote, hfamily⟩
    rw [haddress, allowed_iff g k.2.ipv6 hfamily, hother] at hallowed
    cases hallowed
  · intro hused k a hk
    constructor
    · rintro ⟨hfor, -, hfamily⟩
      have hfrom := (hsaved k a).mp hfor
      obtain ⟨r, hr, hkey, rfl⟩ := exists_of_savedFrom hfrom
      exact ⟨r, hr, (allowed_iff g _ hfamily).mpr (hused k r.address hk hfrom), hkey, rfl⟩
    · rintro ⟨r, hr, hallowed, hkey, rfl⟩
      rcases DNSKey.eqv_iff.mp hkey with ⟨-, -, hgroup, hipv6⟩
      have hfamily : r.address.getType = HMDNSCache.familyType k.2.ipv6 := by
        rw [← hipv6]
        exact familyType_of_allowed hallowed
      refine ⟨(hsaved k r.address).mpr ?_, hgroup.symm.trans hremote, hfamily⟩
      exact savedFrom_of_used hr ((allowed_iff g _ hfamily).mp hallowed) hkey

/-- Nothing is entered for a group with a remote check. -/
theorem carriesOver_iff_none (hd : Dropping (purgeStart d) name g)
    (hget : d.state.hostGroups.get? name = some g)
    (h : (purgeStart d).purgeChecks d.state.hostGroups checks.entries = some q)
    (hremote : g.remoteCheck ≠ []) : CarriesOver d checks name g host ↔
      ∀ r ∈ checks.range name, r.hostName = host → ¬ Allowed g r.address := by
  have hnone : ∀ k a, ¬ Entered d checks name k a := by
    rintro k a ⟨hfor, hgroup, -⟩
    have hfrom : SavedFrom g k a (checks.range name) := (savedFor_iff hd hget h).mp hfor
    obtain ⟨r, -, hkey, -⟩ := exists_of_savedFrom hfrom
    exact hremote ((DNSKey.eqv_iff.mp hkey).2.2.1.trans hgroup)
  unfold CarriesOver
  constructor
  · intro hcarries r hr hhost hallowed
    exact hnone _ _ ((hcarries (addressKey g r) r.address hhost).mpr
      ⟨r, hr, hallowed, eqv_refl _, rfl⟩)
  · intro hdisallowed k a hk
    refine iff_of_false (hnone k a) ?_
    rintro ⟨r, hr, hallowed, hkey, rfl⟩
    exact hdisallowed r hr ((DNSKey.eqv_iff.mp hkey).1.trans hk) hallowed

/-! The DNS cache. -/

/-- The addresses of a lookup's own family. -/
def ownFamily (e : DNSKey × SortedSet HMIPAddress) : List HMIPAddress :=
  e.2.toList.filter fun a => a.getType == HMDNSCache.familyType e.1.2.ipv6

/-- The start gives the DNS cache this lookup. -/
def isWritten (e : DNSKey × SortedSet HMIPAddress) : Bool :=
  e.1.2.remoteCheckGroup = [] && ownFamily e ≠ []

/-- The addresses of an entry are all saved under their own family. -/
def OwnFamilyOnly (e : DNSKey × SortedSet HMIPAddress) : Prop :=
  ∀ a, e.2.contains a = true → e.1.2.ipv6 = (a.getType == afInet6)

theorem get?_updateReloadFamily (c : HMDNSCache) (host : HMString) (lookup : HMDNSLookup)
    (ipv6 : Bool) (addresses : List HMIPAddress) (time : HMTimeStamp) (k : DNSKey) :
    (c.updateReloadFamily host lookup ipv6 addresses time).cache.get? k =
      if eqv (host, .new lookup.type ipv6 lookup.remoteCheckGroup) k &&
          addresses.filter (fun a => a.getType == HMDNSCache.familyType ipv6) ≠ [] then
        some ((((c.cache.get? k).getD .default).setResultTime time).updateQuery
          (SortedSet.insertAll ∅ (addresses.filter fun a =>
            a.getType == HMDNSCache.familyType ipv6)))
      else c.cache.get? k := by
  rw [SortedMap.get?, ReloadDNS.find?_updateReloadFamily]
  split
  · rw [SortedMap.get?]
    cases c.cache.find? k <;> rfl
  · rfl

theorem updateReloadFamily_of_none (c : HMDNSCache) (host : HMString) (lookup : HMDNSLookup)
    {ipv6 : Bool} {addresses : List HMIPAddress} (time : HMTimeStamp)
    (hnone : addresses.filter (fun a => a.getType == HMDNSCache.familyType ipv6) = []) :
    c.updateReloadFamily host lookup ipv6 addresses time = c := by
  unfold HMDNSCache.updateReloadFamily
  rw [hnone]
  rfl

/-- What one saved lookup does to the DNS cache. -/
theorem get?_updateDNS (times : SortedMap DNSKey HMTimeStamp) (c : HMDNSCache)
    {e : DNSKey × SortedSet HMIPAddress} (hown : OwnFamilyOnly e) (k : DNSKey) :
    (eqv e.1 k = true → isWritten e = true → ∃ r, (updateDNS times c e).cache.get? k = some r ∧
      r.addr = SortedSet.insertAll ∅ (ownFamily e)) ∧
    ((eqv e.1 k = true → isWritten e = false) →
      (updateDNS times c e).cache.get? k = c.cache.get? k) := by
  have hother : e.2.toList.filter (fun a => a.getType == HMDNSCache.familyType !e.1.2.ipv6) =
      [] := by
    rw [List.filter_eq_nil_iff]
    intro a ha htype
    rw [hown a (SortedSet.contains_iff_mem.mpr ha), beq_iff_eq] at htype
    by_cases hv6 : a.getType = afInet6
    · simp [hv6, HMDNSCache.familyType, afInet, afInet6] at htype
    · simp [hv6, HMDNSCache.familyType] at htype
  have hkey : eqv (e.1.1, HMDNSLookup.new e.1.2.type e.1.2.ipv6 e.1.2.remoteCheckGroup) k =
      eqv e.1 k := by
    apply eqv_congr_left
    rw [DNSKey.eqv_iff]
    exact ⟨rfl, rfl, rfl, rfl⟩
  have hcache : (updateDNS times c e).cache.get? k =
      if eqv e.1 k && isWritten e then
        some ((((c.cache.get? k).getD .default).setResultTime ((times.get? e.1).getD 0)).updateQuery
          (SortedSet.insertAll ∅ (ownFamily e)))
      else c.cache.get? k := by
    unfold updateDNS isWritten
    by_cases hremote : e.1.2.remoteCheckGroup = []
    · rw [if_neg (not_not.mpr hremote)]
      dsimp only
      rw [HMDNSCache.updateReloadDNSEntry, ownFamily]
      cases hfam : e.1.2.ipv6 with
      | false =>
        rw [hfam, Bool.not_false] at hother
        rw [hfam] at hkey
        rw [updateReloadFamily_of_none _ _ _ _ hother, get?_updateReloadFamily, hkey]
        simp [hremote]
      | true =>
        rw [hfam, Bool.not_true] at hother
        rw [hfam] at hkey
        rw [updateReloadFamily_of_none c _ _ _ hother, get?_updateReloadFamily, hkey]
        simp [hremote]
    · simp [hremote]
  rw [hcache]
  constructor
  · intro hk hwritten
    exact ⟨_, by rw [hk, hwritten]; rfl, rfl⟩
  · intro hnot
    rw [if_neg]
    intro hcond
    rw [Bool.and_eq_true] at hcond
    rw [hnot hcond.1] at hcond
    cases hcond.2

/-- The DNS cache after all saved lookups: a written lookup holds the saved addresses of its
family, the others are as they were. -/
theorem get?_updateDNSes (times : SortedMap DNSKey HMTimeStamp)
    (saved : SortedMap DNSKey (SortedSet HMIPAddress)) (c : HMDNSCache)
    (hown : ∀ e ∈ saved.entries, OwnFamilyOnly e) (k : DNSKey) :
    let c' := saved.entries.foldl (updateDNS times) c
    (∀ e ∈ saved.entries, eqv e.1 k = true → isWritten e = true →
      ∃ r, c'.cache.get? k = some r ∧ r.addr = SortedSet.insertAll ∅ (ownFamily e)) ∧
    ((∀ e ∈ saved.entries, eqv e.1 k = true → isWritten e = false) →
      c'.cache.get? k = c.cache.get? k) := by
  constructor
  · intro e he hk hwritten
    refine Runs.foldl_of_mem (P := fun c' : HMDNSCache => ∃ r, c'.cache.get? k = some r ∧
      r.addr = SortedSet.insertAll ∅ (ownFamily e)) he ?_ ?_ c
    · exact fun c' => (get?_updateDNS times c' (hown e he) k).1 hk hwritten
    · intro c' e' he' hheld
      by_cases hk' : eqv e'.1 k = true
      · obtain rfl := SortedMap.eq_of_mem he' he (eqv_trans hk' (eqv_symm hk))
        exact (get?_updateDNS times c' (hown e' he) k).1 hk hwritten
      · rw [(get?_updateDNS times c' (hown e' he') k).2 fun hyes => absurd hyes hk']
        exact hheld
  · intro hnone
    refine List.foldlRecOn (motive := fun c' : HMDNSCache => c'.cache.get? k = c.cache.get? k)
      _ _ rfl ?_
    intro c' hsame e he
    rw [(get?_updateDNS times c' (hown e he) k).2 (hnone e he), hsame]

theorem takeChecks_dnsCache (es : List (HMString × HMGroupCheckResult)) (d : DaemonState) :
    (es.foldl takeCheck d).state.dnsCache = d.state.dnsCache := by
  refine List.foldlRecOn (motive := fun d' : DaemonState => d'.state.dnsCache = d.state.dnsCache)
    _ _ rfl ?_
  intro d' hsame e _
  unfold takeCheck
  split <;> exact hsame

theorem takeAuxes_dnsCache (es : List (HMString × HMGroupAuxResult)) (d : DaemonState) :
    (es.foldl takeAux d).state.dnsCache = d.state.dnsCache := by
  refine List.foldlRecOn (motive := fun d' : DaemonState => d'.state.dnsCache = d.state.dnsCache)
    _ _ rfl ?_
  intro d' hsame e _
  unfold takeAux
  split <;> exact hsame

/-- The loop that the start runs, and what it leaves in the DNS cache. -/
theorem initResultsFromBackend_dnsCache (hreadonly : d.store.readonly = false)
    (h : initResultsFromBackend d = some r) (hchecks : backendChecks d = some checks) :
    ∃ q, (purgeStart d).purgeChecks d.state.hostGroups checks.entries = some q ∧
      r.state.dnsCache = q.dnsMap.entries.foldl (updateDNS q.dnsResTimeMap) d.state.dnsCache := by
  unfold initResultsFromBackend at h
  rw [if_neg (by simp [hreadonly])] at h
  simp only [Option.bind_eq_bind, Option.bind_eq_some_iff] at h
  rcases h with ⟨names, hnames, checks', hfetched, backendAux, -, q, hq, aux, -, hr⟩
  have hsame : checks' = checks := by
    rw [backendChecks, hnames, Option.bind_eq_bind, Option.bind_some, hfetched] at hchecks
    exact Option.some.inj hchecks
  obtain rfl := Option.some.inj hr
  refine ⟨q, by rw [← hsame]; exact hq, ?_⟩
  dsimp only
  rw [takeAuxes_dnsCache, takeChecks_dnsCache]

/-- The addresses that a saved lookup writes are those entered for the groups. -/
theorem mem_ownFamily_iff
    (h : (purgeStart d).purgeChecks d.state.hostGroups checks.entries = some q)
    {e : DNSKey × SortedSet HMIPAddress} (he : e ∈ q.dnsMap.entries) (hk : eqv e.1 k = true)
    (hgroup : e.1.2.remoteCheckGroup = []) :
    a ∈ ownFamily e ↔ ∃ name, Entered d checks name k a := by
  have hget : q.dnsMap.get? k = some e.2 := SortedMap.get?_eq_some.mpr ⟨e.1, he, hk⟩
  have hheld : e.2.contains a = true ↔
      ∃ name, SavedFor d.state.hostGroups name k a (purgeStart d) checks.entries := by
    have hrun := held_purgeChecks (k := k) (a := a) h
    have hempty : ¬ Held (purgeStart d).dnsMap k a := by simp [Held, purgeStart]
    rw [or_iff_right hempty, Held, hget] at hrun
    simpa using hrun
  rcases DNSKey.eqv_iff.mp hk with ⟨-, -, hgroups, hipv6⟩
  have hkgroup : k.2.remoteCheckGroup = [] := hgroups.symm.trans hgroup
  unfold ownFamily Entered
  rw [List.mem_filter, beq_iff_eq, ← SortedSet.contains_iff_mem, hheld, hipv6]
  simp only [hkgroup, true_and, exists_and_right]

theorem ownFamilyOnly_of_saved
    (h : (purgeStart d).purgeChecks d.state.hostGroups checks.entries = some q)
    {e : DNSKey × SortedSet HMIPAddress} (he : e ∈ q.dnsMap.entries) : OwnFamilyOnly e := by
  intro a ha
  have hheld : Held q.dnsMap e.1 a :=
    ⟨e.2, SortedMap.get?_eq_some.mpr ⟨e.1, he, eqv_refl _⟩, ha⟩
  rcases (held_purgeChecks h).mp hheld with hstart | ⟨name, hsaved⟩
  · simp [Held, purgeStart] at hstart
  · exact family_of_savedFor h hsaved

/-- After a start with changed groups, a host of such a group has its allowed addresses, each
under the lookup of its own family, and no others on behalf of the group, exactly when none of
its records of an unused family stands before a record of a used one; a group with a remote
check must have nothing to carry over. What is entered for the groups under a lookup is what the
DNS cache then holds there, and a lookup under which nothing is entered stays as it was. -/
theorem addresses_carried_over_iff (hreadonly : d.store.readonly = false)
    (h : initResultsFromBackend d = some r) (hchecks : backendChecks d = some checks) :
    (∀ name g host, d.state.hostGroups.get? name = some g →
      (clearStore d.store).isChanged name g = some true →
      (CarriesOver d checks name g host ↔
        if g.remoteCheck = [] then
          (checks.range name).Pairwise fun x y => x.hostName = host →
            isOtherFamily g x.address = true → isOtherFamily g y.address = true
        else ∀ x ∈ checks.range name, x.hostName = host → ¬ Allowed g x.address)) ∧
    ∀ k, ((∃ name a, Entered d checks name k a) →
        ∃ result, r.state.dnsCache.cache.get? k = some result ∧
          ∀ a, result.addr.contains a = true ↔ ∃ name, Entered d checks name k a) ∧
      ((∀ name a, ¬ Entered d checks name k a) →
        r.state.dnsCache.cache.get? k = d.state.dnsCache.cache.get? k) := by
  obtain ⟨q, hq, hcache⟩ := initResultsFromBackend_dnsCache hreadonly h hchecks
  have hown : ∀ e ∈ q.dnsMap.entries, OwnFamilyOnly e := fun e he => ownFamilyOnly_of_saved hq he
  refine ⟨?_, ?_⟩
  · intro name g host hget hchanged
    have hdropping : Dropping (purgeStart d) name g :=
      ⟨hreadonly, rfl, hchanged, fun x hx => absurd hx List.not_mem_nil⟩
    by_cases hremote : g.remoteCheck = []
    · rw [if_pos hremote, carriesOver_iff_used hdropping hget hq hremote, savedFrom_used_iff]
    · rw [if_neg hremote]
      exact carriesOver_iff_none hdropping hget hq hremote
  · intro k
    obtain ⟨hwrite, hkeep⟩ := get?_updateDNSes q.dnsResTimeMap q.dnsMap d.state.dnsCache hown k
    rw [hcache]
    constructor
    · rintro ⟨name, a, hentered⟩
      obtain ⟨addresses, hget, -⟩ := (held_purgeChecks hq).mpr (Or.inr ⟨name, hentered.1⟩)
      rcases SortedMap.get?_eq_some.mp hget with ⟨k', hmem, hk⟩
      rcases DNSKey.eqv_iff.mp hk with ⟨-, -, hgroups, -⟩
      have hgroup : k'.2.remoteCheckGroup = [] := hgroups.trans hentered.2.1
      have hiff := fun b => mem_ownFamily_iff (a := b) hq hmem hk hgroup
      have hwritten : isWritten (k', addresses) = true := by
        have ha := (hiff a).mpr ⟨name, hentered⟩
        simp [isWritten, hgroup, List.ne_nil_of_mem ha]
      obtain ⟨result, hresult, haddr⟩ := hwrite _ hmem hk hwritten
      refine ⟨result, hresult, ?_⟩
      intro b
      rw [haddr, SortedSet.contains_insertAll, ← hiff b]
      simp [SortedMap.contains_eq, eqv_iff_eq]
    · intro hnone
      refine hkeep ?_
      intro e he hk
      rw [Bool.eq_false_iff]
      intro hwritten
      simp only [isWritten, Bool.and_eq_true, decide_eq_true_eq] at hwritten
      obtain ⟨b, hb⟩ := List.exists_mem_of_ne_nil _ hwritten.2
      rcases (mem_ownFamily_iff hq he hk hwritten.1).mp hb with ⟨name, hentered⟩
      exact hnone name b hentered

/-- A result of a host, at an address. -/
def resultAt (host : HMString) (address : HMIPAddress) : HMString × HMGroupCheckResult :=
  (bytes "web", ⟨host, address, false, 0, { HMDataCheckResult.new 0 with address := address }⟩)

/-- A group of one host that uses the given families. -/
def webGroups (dualstack : DualStack) : HMDataHostGroupMap :=
  SortedMap.empty.insert (bytes "web")
    { HMDataHostGroup.new (bytes "web") with hosts := [bytes "b"], dualstack := dualstack }

/-- A start in which the group uses IPv4 alone, after a run in which it used both families
and had the given results. -/
def ipv4Start (results : List (HMString × HMGroupCheckResult)) : DaemonState :=
  let store := HMStorageHostGroup.openStore .always .always ⟨none, ∅, ∅, ∅⟩
  let store := (store.storeConfigs (webGroups .both)).getD store
  let store := { store with
    hostGroupResults := results.foldl (fun c (e : HMString × HMGroupCheckResult) =>
      c.insert e.1 e.2) store.hostGroupResults }
  ⟨HMState.generateCheckList .default (webGroups .ipv4Only), ∅,
    store.storeHostGroupCheckResults (bytes "web")⟩

/-- The group as the start finds it. -/
def ipv4Group : HMDataHostGroup :=
  ((ipv4Start []).state.hostGroups.get? (bytes "web")).getD (.new (bytes "web"))

/-- With the IPv4 record first, the IPv6 address is left out. -/
theorem ipv4_address_carried_over :
    ∃ r checks, initResultsFromBackend (ipv4Start [resultAt (bytes "b") (.v4 1),
        resultAt (bytes "b") (.v6 2)]) = some r ∧
      CarriesOver (ipv4Start [resultAt (bytes "b") (.v4 1), resultAt (bytes "b") (.v6 2)]) checks
        (bytes "web") ipv4Group (bytes "b") := by
  have hsome : (initResultsFromBackend (ipv4Start [resultAt (bytes "b") (.v4 1),
      resultAt (bytes "b") (.v6 2)])).isSome = true := by
    decide +kernel
  rcases Option.isSome_iff_exists.mp hsome with ⟨r, hr⟩
  have hread : (backendChecks (ipv4Start [resultAt (bytes "b") (.v4 1),
      resultAt (bytes "b") (.v6 2)])).any (fun checks => decide
        (checks.range (bytes "web") = [(resultAt (bytes "b") (.v4 1)).2,
          (resultAt (bytes "b") (.v6 2)).2])) = true := by
    decide +kernel
  rcases (Option.any_eq_true _ _).mp hread with ⟨checks, hchecks, hrange⟩
  refine ⟨r, checks, hr, ?_⟩
  refine ((addresses_carried_over_iff rfl hr hchecks).1 _ _ _ (by decide +kernel)
    (by decide +kernel)).mpr ?_
  rw [if_pos (by decide +kernel), of_decide_eq_true hrange]
  decide +kernel

/-- With the IPv6 record first, its address is carried over into the cache of a group that
uses IPv4 alone. -/
theorem ipv6_address_carried_over :
    ∃ r checks, initResultsFromBackend (ipv4Start [resultAt (bytes "b") (.v6 2),
        resultAt (bytes "b") (.v4 1)]) = some r ∧
      backendChecks (ipv4Start [resultAt (bytes "b") (.v6 2), resultAt (bytes "b") (.v4 1)]) =
        some checks ∧
      (clearStore (ipv4Start [resultAt (bytes "b") (.v6 2),
        resultAt (bytes "b") (.v4 1)]).store).isChanged (bytes "web") ipv4Group = some true ∧
      ¬ Allowed ipv4Group (.v6 2) ∧
      (r.state.dnsCache.cache.get? (addressKey ipv4Group (resultAt (bytes "b") (.v6 2)).2)).any
        (fun result => result.addr.contains (.v6 2)) = true ∧
      ¬ CarriesOver (ipv4Start [resultAt (bytes "b") (.v6 2), resultAt (bytes "b") (.v4 1)])
        checks (bytes "web") ipv4Group (bytes "b") := by
  have hcached : (initResultsFromBackend (ipv4Start [resultAt (bytes "b") (.v6 2),
      resultAt (bytes "b") (.v4 1)])).any (fun r => (r.state.dnsCache.cache.get?
        (addressKey ipv4Group (resultAt (bytes "b") (.v6 2)).2)).any
          (fun result => result.addr.contains (.v6 2))) = true := by
    decide +kernel
  rcases (Option.any_eq_true _ _).mp hcached with ⟨r, hr, hresult⟩
  have hread : (backendChecks (ipv4Start [resultAt (bytes "b") (.v6 2),
      resultAt (bytes "b") (.v4 1)])).any (fun checks => decide
        (checks.range (bytes "web") = [(resultAt (bytes "b") (.v6 2)).2,
          (resultAt (bytes "b") (.v4 1)).2])) = true := by
    decide +kernel
  rcases (Option.any_eq_true _ _).mp hread with ⟨checks, hchecks, hrange⟩
  have hchanged : (clearStore (ipv4Start [resultAt (bytes "b") (.v6 2),
      resultAt (bytes "b") (.v4 1)]).store).isChanged (bytes "web") ipv4Group = some true := by
    decide +kernel
  obtain ⟨q, hq, -⟩ := initResultsFromBackend_dnsCache rfl hr hchecks
  have hdropping : Dropping (purgeStart (ipv4Start [resultAt (bytes "b") (.v6 2),
      resultAt (bytes "b") (.v4 1)])) (bytes "web") ipv4Group :=
    ⟨rfl, rfl, hchanged, fun x hx => absurd hx List.not_mem_nil⟩
  refine ⟨r, checks, hr, hchecks, hchanged, by decide +kernel, hresult, ?_⟩
  rw [carriesOver_iff_used hdropping (by decide +kernel) hq (by decide +kernel),
    savedFrom_used_iff, of_decide_eq_true hrange]
  decide +kernel

end AddressCarryOver
