import NetCHASM.StorageThread
import Mathlib.Data.List.Perm.Subperm

/-! Closing a store that commits every update. The contents of a cache are its entries
without the commit bookkeeping; an update acts on contents alone, so the contents a run
should reach are those of the first state with all pushed updates applied in order. The
backend lags behind only for the group whose write is under way. -/
namespace StorageShutdown

open NetCHASM OrderedMap KeyOrder Runs HMStorageHostGroup StorageThread

section Contents

variable {ρ σ : Type}

/-- A host, an address and a payload. -/
abbrev Content (ρ : Type) := HMString × HMIPAddress × ρ

def content (e : GroupEntry ρ) : Content ρ := (e.hostName, e.address, e.payload)

def contents (cache : GroupCache ρ) (group : HMString) : List (Content ρ) :=
  (cache.range group).map content

def concerned (u : GroupUpdate ρ) (c : Content ρ) : Bool :=
  u.concerns ⟨c.1, c.2.1, false, 0, c.2.2⟩

def replaced (stamp : HMIPAddress → ρ → ρ) (u : GroupUpdate ρ) (c : Content ρ) : Content ρ :=
  (c.1, u.address, stamp u.address u.payload)

/-- The abstract effect of an update on the contents of its group. -/
def applyContent (stamp : HMIPAddress → ρ → ρ) (u : GroupUpdate ρ) (cs : List (Content ρ)) :
    List (Content ρ) :=
  if cs.any (concerned u) then SortedMultimap.modifyFirstVal (concerned u) (replaced stamp u) cs
  else cs ++ [(u.hostName, u.address, u.payload)]

def applyContents (stamp : HMIPAddress → ρ → ρ) (cs : HMString → List (Content ρ))
    (u : GroupUpdate ρ) : HMString → List (Content ρ) :=
  Function.update cs u.hostGroup (applyContent stamp u (cs u.hostGroup))

theorem isKnown_eq (u : GroupUpdate ρ) (cache : GroupCache ρ) :
    u.isKnown cache = (contents cache u.hostGroup).any (concerned u) := by
  rw [GroupUpdate.isKnown, contents, List.any_map]
  rfl

/-- Applying an update to a cache refines its effect on the contents. -/
theorem contents_applyTo (stamp : HMIPAddress → ρ → ρ) (u : GroupUpdate ρ) (now : HMTimeStamp)
    (cache : GroupCache ρ) :
    contents (u.applyTo stamp now cache) = applyContents stamp (contents cache) u := by
  funext g
  by_cases hg : u.hostGroup = g
  · subst hg
    rw [contents, GroupUpdate.range_applyTo, if_pos rfl, applyContents, Function.update_self, applyContent,
      ← isKnown_eq]
    split
    · apply SortedMultimap.map_modifyFirstVal
      · exact fun _ => rfl
      · exact fun _ => rfl
    · rw [List.map_append]
      rfl
  · simp [contents, applyContents, GroupUpdate.range_applyTo, hg, Function.update_of_ne (Ne.symm hg)]

theorem contents_markCommitted (group : HMString) (now : HMTimeStamp) (cache : GroupCache ρ) :
    contents (markCommitted group now cache) = contents cache := by
  funext g
  simp only [contents, markCommitted, SortedMultimap.range_modify]
  split
  · simp [Function.comp_def, content]
  · rfl

def storeContent (ser : ρ → σ) (c : Content ρ) : StoredEntry σ := ⟨strncpy c.1, c.2.1, ser c.2.2⟩

/-- The backend record of a group is the one of its cached entries. -/
def InSync (ser : ρ → σ) (cache : GroupCache ρ)
    (records : SortedMap HMString (List (StoredEntry σ))) (group : HMString) : Prop :=
  (records.get? group).getD [] = (contents cache group).map (storeContent ser)

instance [DecidableEq σ] (ser : ρ → σ) (cache : GroupCache ρ)
    (records : SortedMap HMString (List (StoredEntry σ))) (group : HMString) :
    Decidable (InSync ser cache records group) :=
  inferInstanceAs (Decidable (_ = _))

/-- Every cached host has a name. -/
def Named (cs : HMString → List (Content ρ)) : Prop := ∀ group, ∀ c ∈ cs group, c.1 ≠ []

theorem groupRecord_contents (ser : ρ → σ) {cache : GroupCache ρ} (hnamed : Named (contents cache))
    (group : HMString) : groupRecord ser (cache.range group) =
      some ((contents cache group).map (storeContent ser)) := by
  have hnames : ∀ e ∈ cache.range group, e.hostName ≠ [] :=
    fun e he => hnamed group (content e) (List.mem_map_of_mem he)
  rw [groupRecord_of_named ser hnames]
  simp [contents, Function.comp_def, storeContent, content, GroupEntry.store]

/-- An update changes no host name, and adds at most its own. -/
theorem hosts_applyContents (stamp : HMIPAddress → ρ → ρ) (cs : HMString → List (Content ρ))
    (u : GroupUpdate ρ) (group : HMString) :
    (applyContents stamp cs u group).map Prod.fst = (cs group).map Prod.fst ∨
      (applyContents stamp cs u group).map Prod.fst = (cs group).map Prod.fst ++ [u.hostName] := by
  by_cases hg : group = u.hostGroup
  · subst hg
    rw [applyContents, Function.update_self, applyContent]
    split
    · left
      apply SortedMultimap.map_modifyFirstVal_of_eq
      exact fun _ => rfl
    · exact Or.inr (by simp)
  · rw [applyContents, Function.update_of_ne hg]
    exact Or.inl rfl

theorem named_applyContents {stamp : HMIPAddress → ρ → ρ} {cs : HMString → List (Content ρ)}
    {u : GroupUpdate ρ} (hnamed : Named cs) (hu : u.hostName ≠ []) :
    Named (applyContents stamp cs u) := by
  intro group c hc
  have hold : ∀ host ∈ (cs group).map Prod.fst, host ≠ [] := by
    intro host hhost
    rcases List.mem_map.mp hhost with ⟨d, hd, rfl⟩
    exact hnamed group d hd
  have hmem : c.1 ∈ (applyContents stamp cs u group).map Prod.fst := List.mem_map_of_mem hc
  rcases hosts_applyContents stamp cs u group with heq | heq
  · rw [heq] at hmem
    exact hold _ hmem
  · rw [heq, List.mem_append, List.mem_singleton] at hmem
    rcases hmem with hmem | hmem
    · exact hold _ hmem
    · rw [hmem]
      exact hu

/-- Every host of a configured group has an entry. -/
def Complete (env : StoreEnv) (cs : HMString → List (Content ρ)) : Prop :=
  ∀ group g, env.hostGroupMap.get? group = some g →
    ∀ host ∈ g.hosts, host ∈ (cs group).map Prod.fst

theorem complete_applyContents {env : StoreEnv} {stamp : HMIPAddress → ρ → ρ}
    {cs : HMString → List (Content ρ)} (hcomplete : Complete env cs) (u : GroupUpdate ρ) :
    Complete env (applyContents stamp cs u) := by
  intro group g hg host hhost
  have hmem := hcomplete group g hg host hhost
  rcases hosts_applyContents stamp cs u group with heq | heq
  · rwa [heq]
  · rw [heq]
    exact List.mem_append_left _ hmem

/-- An update for a host of a configured group, at an address the group accepts. -/
def Admissible (env : StoreEnv) (u : GroupUpdate ρ) : Prop :=
  ∃ g, env.hostGroupMap.get? u.hostGroup = some g ∧ env.accepts g u = true ∧
    u.hostName ∈ g.hosts

instance (env : StoreEnv) (u : GroupUpdate ρ) : Decidable (Admissible env u) :=
  decidable_of_iff ((env.hostGroupMap.get? u.hostGroup).any fun g =>
    env.accepts g u && decide (u.hostName ∈ g.hosts)) (by simp [Admissible, Option.any_eq_true])

/-- One kind of result: the queued updates lead from the cache to the goal, and the
backend is in step but for the group whose write is pending. -/
structure Side (env : StoreEnv) (stamp : HMIPAddress → ρ → ρ) (ser : ρ → σ)
    (goal : HMString → List (Content ρ)) (queue : List (GroupUpdate ρ)) (cache : GroupCache ρ)
    (records : SortedMap HMString (List (StoredEntry σ))) (pending : Option HMString) : Prop where
  total : queue.foldl (applyContents stamp) (contents cache) = goal
  admissible : ∀ u ∈ queue, Admissible env u
  named : Named (contents cache)
  sync : ∀ group, pending ≠ some group → InSync ser cache records group

variable {env : StoreEnv} {stamp : HMIPAddress → ρ → ρ} {ser : ρ → σ}
  {goal : HMString → List (Content ρ)} {queue : List (GroupUpdate ρ)} {cache : GroupCache ρ}
  {records : SortedMap HMString (List (StoredEntry σ))} {u : GroupUpdate ρ}
  {pending : Option HMString}

theorem Side.push (h : Side env stamp ser goal queue cache records pending)
    (hu : Admissible env u) :
    Side env stamp ser (applyContents stamp goal u) (queue ++ [u]) cache records pending where
  total := by rw [List.foldl_append, h.total]; rfl
  admissible v hv := by
    rcases List.mem_append.mp hv with hv | hv
    · exact h.admissible v hv
    · rw [List.mem_singleton] at hv
      rwa [hv]
  named := h.named
  sync := h.sync

theorem Side.pop (h : Side env stamp ser goal (u :: queue) cache records none)
    (hname : u.hostName ≠ []) (now : HMTimeStamp) :
    Side env stamp ser goal queue (u.applyTo stamp now cache) records (some u.hostGroup) where
  total := by
    rw [contents_applyTo]
    exact h.total
  admissible v hv := h.admissible v (List.mem_cons_of_mem u hv)
  named := by
    rw [contents_applyTo]
    exact named_applyContents h.named hname
  sync group hgroup := by
    have hne : group ≠ u.hostGroup := fun heq => hgroup (by rw [heq])
    have hsync := h.sync group (by simp)
    rwa [InSync, contents_applyTo, applyContents, Function.update_of_ne hne]

theorem Side.write {group : HMString}
    (h : Side env stamp ser goal queue cache records (some group)) (now : HMTimeStamp) :
    Side env stamp ser goal queue (markCommitted group now cache)
      (records.set group ((contents cache group).map (storeContent ser))) none where
  total := by
    rw [contents_markCommitted]
    exact h.total
  admissible := h.admissible
  named := by
    rw [contents_markCommitted]
    exact h.named
  sync group' _ := by
    rw [InSync, contents_markCommitted, SortedMap.get?_set]
    split
    · rename_i heqv
      rw [← eqv_iff_eq.mp heqv]
      rfl
    · rename_i hne
      have hgroup : some group ≠ some group' := by
        intro heq
        exact hne (eqv_iff_eq.mpr (Option.some.inj heq))
      exact h.sync group' hgroup

/-- With the policy that always commits, an admissible update is applied and its group is
to be written, once all hosts have reported if that is required. -/
theorem commitUpdate_always (stamp : HMIPAddress → ρ → ρ) (needAll : Bool) (now : HMTimeStamp)
    (cache : GroupCache ρ) {g : HMDataHostGroup} (hg : env.hostGroupMap.get? u.hostGroup = some g)
    (haccept : env.accepts g u = true)
    (hhosts : needAll = true → g.hosts.length ≤ (hostsReporting u cache).length) :
    commitUpdate env .always needAll stamp now u cache =
      (u.applyTo stamp now cache, .write u.hostGroup) := by
  have hwait : (needAll && decide ((hostsReporting u cache).length < g.hosts.length)) = false := by
    cases needAll with
    | false => rfl
    | true => simpa using hhosts rfl
  simp [commitUpdate, hg, haccept, hwait, commitDue]

theorem hosts_le_reporting (hcomplete : Complete env (contents cache)) {g : HMDataHostGroup}
    (hg : env.hostGroupMap.get? u.hostGroup = some g) (hnodup : g.hosts.Nodup) :
    g.hosts.length ≤ (hostsReporting u cache).length := by
  refine (List.subperm_of_subset hnodup ?_).length_le
  intro host hhost
  have hmem := hcomplete u.hostGroup g hg host hhost
  rw [contents, List.map_map] at hmem
  rw [hostsReporting, List.mem_dedup]
  exact List.mem_append_left _ hmem

end Contents

/-! The thread. -/

def pendingCheck : Pc → Option HMString
  | .storeCheck _ group => some group
  | _ => none

def pendingAux : Pc → Option HMString
  | .storeAux _ group => some group
  | _ => none

/-- A writable store that commits every update, in step with its backend. -/
structure Tracked (env : StoreEnv) (checkGoal : HMString → List (Content HMDataCheckResult))
    (auxGoal : HMString → List (Content HMAuxInfo)) (s : State) : Prop where
  writable : s.store.readonly = false
  checkPolicy : s.store.healthCheckCommitPolicy = .always
  auxPolicy : s.store.auxCommitPolicy = .always
  complete : Complete env (contents s.store.hostGroupResults)
  checks : Side env stampResult HMDataCheckResult.serialize checkGoal s.store.storeCheckQueue
    s.store.hostGroupResults s.store.backend.checks (pendingCheck s.pc)
  aux : Side env stampAux HMAuxInfo.stored auxGoal s.store.storeAuxQueue s.store.hostGroupAux
    s.store.backend.aux (pendingAux s.pc)
  quiet : s.store.shutdown = true → QueuesEmpty s ∧ pendingCheck s.pc = none ∧
    pendingAux s.pc = none

variable {env : StoreEnv} {checkGoal : HMString → List (Content HMDataCheckResult)}
  {auxGoal : HMString → List (Content HMAuxInfo)} {s s' : State}

theorem Tracked.move (h : Tracked env checkGoal auxGoal s) {pc : Pc}
    (hcheck : pendingCheck pc = pendingCheck s.pc) (haux : pendingAux pc = pendingAux s.pc) :
    Tracked env checkGoal auxGoal { s with pc := pc } where
  writable := h.writable
  checkPolicy := h.checkPolicy
  auxPolicy := h.auxPolicy
  complete := h.complete
  checks := by
    show Side _ _ _ _ _ _ _ (pendingCheck pc)
    rw [hcheck]
    exact h.checks
  aux := by
    show Side _ _ _ _ _ _ _ (pendingAux pc)
    rw [haux]
    exact h.aux
  quiet hs := by
    show _ ∧ pendingCheck pc = none ∧ pendingAux pc = none
    rw [hcheck, haux]
    exact h.quiet hs

/-- A store that has updates to take or a record to write has not been shut down. -/
theorem Tracked.isOpen (h : Tracked env checkGoal auxGoal s)
    (hbusy : ¬ (QueuesEmpty s ∧ pendingCheck s.pc = none ∧ pendingAux s.pc = none)) :
    s.store.shutdown = false := by
  rw [Bool.eq_false_iff]
  intro hs
  exact hbusy (h.quiet hs)

/-- A host of a configured group has a name. -/
theorem Tracked.hostName_ne_nil {ρ : Type} (h : Tracked env checkGoal auxGoal s)
    {u : GroupUpdate ρ} (hu : Admissible env u) : u.hostName ≠ [] := by
  rcases hu with ⟨g, hg, -, hhost⟩
  obtain ⟨c, hc, hname⟩ := List.mem_map.mp (h.complete u.hostGroup g hg u.hostName hhost)
  rw [← hname]
  exact h.checks.named u.hostGroup c hc

@[simp] theorem pendingCheck_resume (phase : Phase) : pendingCheck (resume phase) = none := by
  cases phase <;> rfl

@[simp] theorem pendingAux_resume (phase : Phase) : pendingAux (resume phase) = none := by
  cases phase <;> rfl

@[simp] theorem pendingCheck_fallThrough (phase : Phase) :
    pendingCheck (fallThrough phase) = none := by
  cases phase <;> rfl

@[simp] theorem pendingAux_fallThrough (phase : Phase) :
    pendingAux (fallThrough phase) = none := by
  cases phase <;> rfl

theorem tracked_beginHealthCheck (hhosts : ∀ group g, env.hostGroupMap.get? group = some g →
      g.hosts.Nodup) {phase : Phase} {now : HMTimeStamp}
    (h : Tracked env checkGoal auxGoal s) (hpc : s.pc = .commitCheck phase) :
    Tracked env checkGoal auxGoal ⟨(s.store.beginHealthCheck env now).1,
      afterCheck phase (s.store.beginHealthCheck env now).2⟩ := by
  cases hq : s.store.storeCheckQueue with
  | nil =>
    have hb : s.store.beginHealthCheck env now = (s.store, .idle) := by
      simp [beginHealthCheck, hq]
    rw [hb]
    exact h.move (by rw [hpc]; rfl) (by rw [hpc]; rfl)
  | cons u queue =>
    have hside := h.checks
    rw [hq, hpc] at hside
    have hadm : Admissible env u := hside.admissible u List.mem_cons_self
    have hname : u.hostName ≠ [] := h.hostName_ne_nil hadm
    rcases hadm with ⟨g, hg, haccept, -⟩
    have hcommit := commitUpdate_always stampResult true now s.store.hostGroupResults hg haccept
      fun _ => hosts_le_reporting h.complete hg (hhosts _ _ hg)
    have hb : s.store.beginHealthCheck env now =
        ({ s.store with
          storeCheckQueue := queue
          hostGroupResults := u.applyTo stampResult now s.store.hostGroupResults },
          .write u.hostGroup) := by
      simp [beginHealthCheck, hq, h.checkPolicy, hcommit]
    have hopen : s.store.shutdown = false := h.isOpen (by simp [QueuesEmpty, hq])
    rw [hb]
    exact {
      writable := h.writable
      checkPolicy := h.checkPolicy
      auxPolicy := h.auxPolicy
      complete := by
        show Complete env (contents (u.applyTo stampResult now s.store.hostGroupResults))
        rw [contents_applyTo]
        exact complete_applyContents h.complete u
      checks := hside.pop hname now
      aux := by
        have haux := h.aux
        rw [hpc] at haux
        exact haux
      quiet := fun hs => by simp [hopen] at hs }

theorem tracked_beginAuxInfo {phase : Phase} {now : HMTimeStamp}
    (h : Tracked env checkGoal auxGoal s) (hpc : s.pc = .commitAux phase) :
    Tracked env checkGoal auxGoal ⟨(s.store.beginAuxInfo env now).1,
      afterAux phase (s.store.beginAuxInfo env now).2⟩ := by
  cases hq : s.store.storeAuxQueue with
  | nil =>
    have hb : s.store.beginAuxInfo env now = (s.store, .idle) := by simp [beginAuxInfo, hq]
    rw [hb]
    apply h.move
    · rw [hpc]
      exact pendingCheck_fallThrough phase
    · rw [hpc]
      exact pendingAux_fallThrough phase
  | cons u queue =>
    have hside := h.aux
    rw [hq, hpc] at hside
    have hadm : Admissible env u := hside.admissible u List.mem_cons_self
    have hname : u.hostName ≠ [] := h.hostName_ne_nil hadm
    rcases hadm with ⟨g, hg, haccept, -⟩
    have hcommit := commitUpdate_always stampAux false now s.store.hostGroupAux hg haccept
      (by simp)
    have hb : s.store.beginAuxInfo env now =
        ({ s.store with
          storeAuxQueue := queue
          hostGroupAux := u.applyTo stampAux now s.store.hostGroupAux },
          .write u.hostGroup) := by
      simp [beginAuxInfo, hq, h.auxPolicy, hcommit]
    have hopen : s.store.shutdown = false := h.isOpen (by simp [QueuesEmpty, hq])
    rw [hb]
    exact {
      writable := h.writable
      checkPolicy := h.checkPolicy
      auxPolicy := h.auxPolicy
      complete := h.complete
      checks := by
        have hchecks := h.checks
        rw [hpc] at hchecks
        exact hchecks
      aux := hside.pop hname now
      quiet := fun hs => by simp [hopen] at hs }

theorem tracked_finishHealthCheck {phase : Phase} {group : HMString} {now : HMTimeStamp}
    (h : Tracked env checkGoal auxGoal s) (hpc : s.pc = .storeCheck phase group) :
    Tracked env checkGoal auxGoal ⟨s.store.finishHealthCheck group now, resume phase⟩ := by
  have hopen : s.store.shutdown = false := h.isOpen (by simp [hpc, pendingCheck])
  have hside := h.checks
  rw [hpc] at hside
  have hfinish : s.store.finishHealthCheck group now =
      { s.store with
        hostGroupResults := markCommitted group now s.store.hostGroupResults
        backend := { s.store.backend with
          checks := s.store.backend.checks.set group
            ((contents s.store.hostGroupResults group).map
              (storeContent HMDataCheckResult.serialize)) } } := by
    simp [finishHealthCheck, HMStorageHostGroup.storeHostGroupCheckResults, h.writable, hopen,
      groupRecord_contents HMDataCheckResult.serialize hside.named]
  rw [hfinish]
  exact {
    writable := h.writable
    checkPolicy := h.checkPolicy
    auxPolicy := h.auxPolicy
    complete := by
      show Complete env (contents (markCommitted group now s.store.hostGroupResults))
      rw [contents_markCommitted]
      exact h.complete
    checks := by
      rw [pendingCheck_resume]
      exact hside.write now
    aux := by
      have haux := h.aux
      rw [hpc] at haux
      rw [pendingAux_resume]
      exact haux
    quiet := fun hs => by simp [hopen] at hs }

theorem tracked_finishAuxInfo {phase : Phase} {group : HMString} {now : HMTimeStamp}
    (h : Tracked env checkGoal auxGoal s) (hpc : s.pc = .storeAux phase group) :
    Tracked env checkGoal auxGoal ⟨s.store.finishAuxInfo group now, resume phase⟩ := by
  have hopen : s.store.shutdown = false := h.isOpen (by simp [hpc, pendingAux])
  have hside := h.aux
  rw [hpc] at hside
  have hfinish : s.store.finishAuxInfo group now =
      { s.store with
        hostGroupAux := markCommitted group now s.store.hostGroupAux
        backend := { s.store.backend with
          aux := s.store.backend.aux.set group
            ((contents s.store.hostGroupAux group).map (storeContent HMAuxInfo.stored)) } } := by
    simp [finishAuxInfo, HMStorageHostGroup.storeHostGroupAuxInfo, h.writable, hopen,
      groupRecord_contents HMAuxInfo.stored hside.named]
  rw [hfinish]
  exact {
    writable := h.writable
    checkPolicy := h.checkPolicy
    auxPolicy := h.auxPolicy
    complete := h.complete
    checks := by
      have hchecks := h.checks
      rw [hpc] at hchecks
      rw [pendingCheck_resume]
      exact hchecks
    aux := by
      rw [pendingAux_resume]
      exact hside.write now
    quiet := fun hs => by simp [hopen] at hs }

theorem thread_step_tracked (hhosts : ∀ group g, env.hostGroupMap.get? group = some g →
      g.hosts.Nodup) {now : HMTimeStamp} (h : Tracked env checkGoal auxGoal s)
    (hstep : threadStep env now s = some s') : Tracked env checkGoal auxGoal s' := by
  unfold threadStep at hstep
  cases hpc : s.pc with
  | loopTest =>
    simp only [hpc, Option.some.injEq] at hstep
    subst hstep
    exact h.move (by rw [hpc]; rfl) (by rw [hpc]; rfl)
  | commitCheck phase =>
    simp only [hpc, Option.some.injEq] at hstep
    subst hstep
    exact tracked_beginHealthCheck hhosts h hpc
  | storeCheck phase group =>
    simp only [hpc, Option.some.injEq] at hstep
    subst hstep
    exact tracked_finishHealthCheck h hpc
  | commitAux phase =>
    simp only [hpc, Option.some.injEq] at hstep
    subst hstep
    exact tracked_beginAuxInfo h hpc
  | storeAux phase group =>
    simp only [hpc, Option.some.injEq] at hstep
    subst hstep
    exact tracked_finishAuxInfo h hpc
  | testShutdown =>
    simp only [hpc, Option.some.injEq] at hstep
    subst hstep
    apply h.move
    · rw [hpc]
      split <;> rfl
    · rw [hpc]
      split <;> rfl
  | blocked => simp [hpc] at hstep
  | done => simp [hpc] at hstep

/-- Calls name a host of a configured group at an accepted address, and come before the
store is closed. -/
def Called (env : StoreEnv) (s : State) : Event → Prop
  | .pushCheck u => Admissible env u ∧ s.store.shutdown = false
  | .pushAux u => Admissible env u ∧ s.store.shutdown = false
  | .close | .wake | .thread _ => True

/-- The store is closed with nothing queued and no write under way. -/
def Settled (s : State) : Event → Prop
  | .close => QueuesEmpty s ∧ pendingCheck s.pc = none ∧ pendingAux s.pc = none
  | .pushCheck _ | .pushAux _ | .wake | .thread _ => True

instance (s : State) : Decidable (QueuesEmpty s) :=
  inferInstanceAs (Decidable (_ ∧ _))

instance (env : StoreEnv) (s : State) : (e : Event) → Decidable (Called env s e)
  | .pushCheck u => inferInstanceAs (Decidable (Admissible env u ∧ _))
  | .pushAux u => inferInstanceAs (Decidable (Admissible env u ∧ _))
  | .close | .wake | .thread _ => isTrue trivial

instance (s : State) : (e : Event) → Decidable (Settled s e)
  | .close => inferInstanceAs (Decidable (QueuesEmpty s ∧ _))
  | .pushCheck _ | .pushAux _ | .wake | .thread _ => isTrue trivial

def pushedChecks : List Event → List HMGroupCheckUpdate :=
  List.filterMap fun
    | .pushCheck u => some u
    | _ => none

def pushedAux : List Event → List HMGroupAuxUpdate :=
  List.filterMap fun
    | .pushAux u => some u
    | _ => none

theorem step_tracked (hhosts : ∀ group g, env.hostGroupMap.get? group = some g → g.hosts.Nodup)
    {e : Event} (h : Tracked env checkGoal auxGoal s) (hcall : Called env s e)
    (hsettled : Settled s e) (hstep : step env s e = some s') :
    Tracked env ((pushedChecks [e]).foldl (applyContents stampResult) checkGoal)
      ((pushedAux [e]).foldl (applyContents stampAux) auxGoal) s' := by
  cases e with
  | thread now => exact thread_step_tracked hhosts h hstep
  | pushCheck u =>
    obtain rfl := Option.some.inj hstep
    rw [storeCheckResult_one, if_neg (by simp [h.writable])]
    exact {
      writable := h.writable
      checkPolicy := h.checkPolicy
      auxPolicy := h.auxPolicy
      complete := h.complete
      checks := h.checks.push hcall.1
      aux := h.aux
      quiet := fun hs => by simp [hcall.2] at hs }
  | pushAux u =>
    obtain rfl := Option.some.inj hstep
    rw [storeAuxInfo_one, if_neg (by simp [h.writable])]
    exact {
      writable := h.writable
      checkPolicy := h.checkPolicy
      auxPolicy := h.auxPolicy
      complete := h.complete
      checks := h.checks
      aux := h.aux.push hcall.1
      quiet := fun hs => by simp [hcall.2] at hs }
  | close =>
    obtain rfl := Option.some.inj hstep
    exact { h with quiet := fun _ => hsettled }
  | wake =>
    simp only [step] at hstep
    split at hstep
    · rename_i hpc
      obtain rfl := Option.some.inj hstep
      exact h.move (by rw [hpc]; rfl) (by rw [hpc]; rfl)
    · cases hstep

theorem run_tracked (hhosts : ∀ group g, env.hostGroupMap.get? group = some g → g.hosts.Nodup)
    {es : List Event} (h : Tracked env checkGoal auxGoal s)
    (halong : Along (step env) (fun s e => Called env s e ∧ Settled s e) s es)
    (hrun : runTrace (step env) s es = some s') :
    Tracked env ((pushedChecks es).foldl (applyContents stampResult) checkGoal)
      ((pushedAux es).foldl (applyContents stampAux) auxGoal) s' := by
  induction es generalizing s checkGoal auxGoal with
  | nil =>
    obtain rfl : s = s' := by simpa using hrun
    exact h
  | cons e es ih =>
    rcases runTrace_cons.mp hrun with ⟨m, hm, hrest⟩
    have hnext := ih (step_tracked hhosts h halong.1.1 halong.1.2 hm) (halong.2 m hm) hrest
    have hchecks : pushedChecks (e :: es) = pushedChecks [e] ++ pushedChecks es :=
      List.filterMap_append (l := [e])
    have haux : pushedAux (e :: es) = pushedAux [e] ++ pushedAux es :=
      List.filterMap_append (l := [e])
    rw [hchecks, haux, List.foldl_append, List.foldl_append]
    exact hnext

/-- An open store as the claim takes it: it always commits, nothing is queued, every host
of a configured group has an entry, every entry names its host, and the backend holds
what the caches hold. -/
structure Ready (env : StoreEnv) (s : State) : Prop where
  hosts : ∀ group g, env.hostGroupMap.get? group = some g → g.hosts.Nodup
  start : s.pc = .loopTest
  opened : s.store.shutdown = false ∧ s.store.readonly = false
  policies : s.store.healthCheckCommitPolicy = .always ∧ s.store.auxCommitPolicy = .always
  empty : QueuesEmpty s
  complete : Complete env (contents s.store.hostGroupResults)
  named : Named (contents s.store.hostGroupResults) ∧ Named (contents s.store.hostGroupAux)
  checks : ∀ group, InSync HMDataCheckResult.serialize s.store.hostGroupResults
    s.store.backend.checks group
  aux : ∀ group, InSync HMAuxInfo.stored s.store.hostGroupAux s.store.backend.aux group

theorem Ready.tracked (h : Ready env s) :
    Tracked env (contents s.store.hostGroupResults) (contents s.store.hostGroupAux) s where
  writable := h.opened.2
  checkPolicy := h.policies.1
  auxPolicy := h.policies.2
  complete := h.complete
  checks := {
    total := by rw [h.empty.1]; rfl
    admissible := fun u hu => by rw [h.empty.1] at hu; cases hu
    named := h.named.1
    sync := fun group _ => h.checks group }
  aux := {
    total := by rw [h.empty.2]; rfl
    admissible := fun u hu => by rw [h.empty.2] at hu; cases hu
    named := h.named.2
    sync := fun group _ => h.aux group }
  quiet hs := by simp [h.opened.1] at hs

/-- In every run in which the store is closed with nothing queued and no write under way,
the thread ends with every pushed update applied to the caches and written to the backend. -/
theorem closed_store_in_step (env : StoreEnv) (s₀ s : State) (es : List Event)
    (hready : Ready env s₀)
    (halong : Along (step env) (fun s e => Called env s e ∧ Settled s e) s₀ es)
    (hrun : runTrace (step env) s₀ es = some s) (hclosed : s.store.shutdown = true)
    (hdone : s.pc = .done) :
    contents s.store.hostGroupResults =
        (pushedChecks es).foldl (applyContents stampResult) (contents s₀.store.hostGroupResults) ∧
      contents s.store.hostGroupAux =
        (pushedAux es).foldl (applyContents stampAux) (contents s₀.store.hostGroupAux) ∧
      (∀ group, InSync HMDataCheckResult.serialize s.store.hostGroupResults
        s.store.backend.checks group) ∧
      ∀ group, InSync HMAuxInfo.stored s.store.hostGroupAux s.store.backend.aux group := by
  have h := run_tracked hready.hosts hready.tracked halong hrun
  obtain ⟨⟨hcheckQueue, hauxQueue⟩, -, -⟩ := h.quiet hclosed
  have hchecks := h.checks
  have haux := h.aux
  rw [hcheckQueue, hdone] at hchecks
  rw [hauxQueue, hdone] at haux
  exact ⟨hchecks.total, haux.total, fun group => hchecks.sync group (by simp [pendingCheck]),
    fun group => haux.sync group (by simp [pendingAux])⟩

def sampleEntry : HMGroupCheckResult := ⟨bytes "a", .v4 1, false, 0, HMDataCheckResult.new 0⟩

/-- The store of one group with the result of its only host, in the cache and in the backend. -/
def sampleReady : State where
  store :=
    { sampleState.store with
      hostGroupResults := SortedMultimap.empty.insert (bytes "web") sampleEntry
      backend := ⟨none, ∅, SortedMap.empty.insert (bytes "web")
        [sampleEntry.store HMDataCheckResult.serialize], ∅⟩ }
  pc := .loopTest

/-- A second result of the host: the service answered on port 80. -/
def sampleResult : HMDataCheckResult :=
  { HMDataCheckResult.new 0 with address := .v4 1, port := 80, status := hostStatusUp }

def sampleAdmissible : HMGroupCheckUpdate := ⟨bytes "web", bytes "a", .v4 1, sampleResult⟩

theorem contents_sampleReady (group : HMString) :
    contents sampleReady.store.hostGroupResults group =
      if bytes "web" = group then [content sampleEntry] else [] := by
  have heqv : eqv (bytes "web") group = true ↔ bytes "web" = group := eqv_iff_eq
  have hrange := SortedMultimap.range_insert (∅ : GroupCache HMDataCheckResult) (bytes "web") group
    sampleEntry
  rw [SortedMultimap.range_empty] at hrange
  show ((SortedMultimap.insert ∅ (bytes "web") sampleEntry).range group).map content = _
  rw [hrange]
  by_cases hg : bytes "web" = group
  · simp [hg]
  · simp [heqv, hg]

theorem get?_oneHost {group : HMString} {g : HMDataHostGroup}
    (h : StoreEnv.oneHost.hostGroupMap.get? group = some g) :
    bytes "web" = group ∧ g.hosts = [bytes "a"] := by
  have hget := SortedMap.get?_insert (∅ : HMDataHostGroupMap) (bytes "web") group
    { HMDataHostGroup.new (bytes "web") with hosts := [bytes "a"] }
  have hsame : StoreEnv.oneHost.hostGroupMap.get? group = _ := hget
  rw [hsame] at h
  split at h
  · rename_i hk
    refine ⟨eqv_iff_eq.mp hk, ?_⟩
    obtain rfl := Option.some.inj h
    rfl
  · cases h

theorem ready_sampleReady : Ready StoreEnv.oneHost sampleReady where
  hosts group g hg := by
    rw [(get?_oneHost hg).2]
    exact List.nodup_singleton _
  start := rfl
  opened := ⟨rfl, rfl⟩
  policies := ⟨rfl, rfl⟩
  empty := ⟨rfl, rfl⟩
  complete group g hg host hhost := by
    obtain ⟨hgroup, hosts⟩ := get?_oneHost hg
    rw [contents_sampleReady, if_pos hgroup]
    rwa [hosts] at hhost
  named := by
    refine ⟨?_, fun group c hc => by cases hc⟩
    intro group c hc
    rw [contents_sampleReady] at hc
    split at hc
    · rw [List.mem_singleton.mp hc]
      decide
    · cases hc
  checks group := by
    have hget := SortedMap.get?_insert (∅ : SortedMap HMString (List (StoredEntry StoredCheckResult)))
      (bytes "web") group [sampleEntry.store HMDataCheckResult.serialize]
    have hsame : sampleReady.store.backend.checks.get? group = _ := hget
    rw [InSync, contents_sampleReady, hsame]
    by_cases hg : bytes "web" = group
    · subst hg
      simp
      rfl
    · have hne : ¬ eqv (bytes "web") group = true := fun h => hg (eqv_iff_eq.mp h)
      simp [hg, hne]
  aux _ := rfl

/-- The update is pushed and committed, the thread blocks, and the store is closed. -/
def sampleEvents : List Event :=
  [.pushCheck sampleAdmissible] ++ List.replicate 7 (.thread 0) ++ [.close, .wake] ++
    List.replicate 6 (.thread 0)

theorem closed_store_holds_pushed_result :
    ∃ s, runTrace (step StoreEnv.oneHost) sampleReady sampleEvents = some s ∧ s.pc = .done ∧
      s.store.shutdown = true ∧
      ((∀ group, InSync HMDataCheckResult.serialize s.store.hostGroupResults
        s.store.backend.checks group) ∧
      ∀ group, InSync HMAuxInfo.stored s.store.hostGroupAux s.store.backend.aux group) := by
  have hend : (runTrace (step StoreEnv.oneHost) sampleReady sampleEvents).map
      (fun s => (s.pc, s.store.shutdown)) = some (.done, true) := by decide +kernel
  rcases Option.map_eq_some_iff.mp hend with ⟨s, hs, hvals⟩
  rcases Prod.mk.inj hvals with ⟨hdone, hclosed⟩
  exact ⟨s, hs, hdone, hclosed, (closed_store_in_step StoreEnv.oneHost sampleReady s sampleEvents
    ready_sampleReady (by decide +kernel) hs hclosed hdone).2.2⟩

def sampleLateEvents : List Event :=
  [.pushCheck sampleAdmissible, .close] ++ List.replicate 5 (.thread 0)

/-- Closed before the thread has looked at the queue: the drain loop puts the update into
the cache, and the backend keeps the old record. -/
theorem drained_update_misses_backend : Ready StoreEnv.oneHost sampleReady ∧
    Along (step StoreEnv.oneHost) (Called StoreEnv.oneHost) sampleReady sampleLateEvents ∧
    ∃ s, runTrace (step StoreEnv.oneHost) sampleReady sampleLateEvents = some s ∧ s.pc = .done ∧
      (s.store.hostGroupResults.range (bytes "web")).map (fun e => e.payload) = [sampleResult] ∧
      s.store.backend.checks = sampleReady.store.backend.checks ∧
      ¬ InSync HMDataCheckResult.serialize s.store.hostGroupResults s.store.backend.checks
        (bytes "web") := by
  refine ⟨ready_sampleReady, by decide +kernel, ?_⟩
  have hend : (runTrace (step StoreEnv.oneHost) sampleReady sampleLateEvents).any (fun s =>
      s.pc = .done ∧ (s.store.hostGroupResults.range (bytes "web")).map (fun e => e.payload) =
        [sampleResult] ∧ s.store.backend.checks = sampleReady.store.backend.checks ∧
      ¬ InSync HMDataCheckResult.serialize s.store.hostGroupResults s.store.backend.checks
        (bytes "web")) = true := by decide +kernel
  rcases Option.any_eq_true _ _ |>.mp hend with ⟨s, hs, hvals⟩
  exact ⟨s, hs, of_decide_eq_true hvals⟩

end StorageShutdown
