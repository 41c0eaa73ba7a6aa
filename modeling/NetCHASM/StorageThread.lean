import NetCHASM.StorageHostGroup
import NetCHASM.Library.Runs
import Mathlib.Logic.Function.Basic

/-! The storage thread beside its callers. The thread alternates between the predicate of
its wait and the loop around it, and drains the queues once the shutdown flag is up; each
of its steps is one test of the flag, one commit up to its call of the backend, or that
call. Callers push updates at any time, and closing the store raises the flag first. -/
namespace StorageThread

open NetCHASM OrderedMap KeyOrder Runs HMStorageHostGroup

/-- Where a commit was called from. -/
inductive Phase where
  | predicate
  | drain
  deriving DecidableEq, Repr

inductive Pc where
  | loopTest
  | commitCheck (phase : Phase)
  | storeCheck (phase : Phase) (group : HMString)
  | commitAux (phase : Phase)
  | storeAux (phase : Phase) (group : HMString)
  | testShutdown
  | blocked
  | done
  deriving DecidableEq, Repr

structure State where
  store : HMStorageHostGroup
  pc : Pc
  deriving DecidableEq, Repr

inductive Event where
  | pushCheck (u : HMGroupCheckUpdate)
  | pushAux (u : HMGroupAuxUpdate)
  | close
  | wake
  | thread (now : HMTimeStamp)
  deriving DecidableEq, Repr

/-- The next step after a commit that returned true. -/
def resume : Phase → Pc
  | .predicate => .loopTest
  | .drain => .commitCheck .drain

/-- The next step after both commits returned false. -/
def fallThrough : Phase → Pc
  | .predicate => .testShutdown
  | .drain => .done

def afterCheck (phase : Phase) : CommitOutcome → Pc
  | .idle | .unknownGroup => .commitAux phase
  | .applied => resume phase
  | .write group => .storeCheck phase group

def afterAux (phase : Phase) : CommitOutcome → Pc
  | .idle | .unknownGroup => fallThrough phase
  | .applied => resume phase
  | .write group => .storeAux phase group

def threadStep (env : StoreEnv) (now : HMTimeStamp) (s : State) : Option State :=
  match s.pc with
  | .loopTest => some { s with pc := .commitCheck (if s.store.shutdown then .drain else .predicate) }
  | .commitCheck phase =>
    let r := s.store.beginHealthCheck env now
    some ⟨r.1, afterCheck phase r.2⟩
  | .storeCheck phase group => some ⟨s.store.finishHealthCheck group now, resume phase⟩
  | .commitAux phase =>
    let r := s.store.beginAuxInfo env now
    some ⟨r.1, afterAux phase r.2⟩
  | .storeAux phase group => some ⟨s.store.finishAuxInfo group now, resume phase⟩
  | .testShutdown => some { s with pc := if s.store.shutdown then .loopTest else .blocked }
  | .blocked | .done => none

def step (env : StoreEnv) (s : State) : Event → Option State
  | .pushCheck u =>
    some { s with store := s.store.storeCheckResult u.hostName u.address [u.hostGroup] u.payload }
  | .pushAux u =>
    some { s with store := s.store.storeAuxInfo u.hostName u.address [u.hostGroup] u.payload }
  | .close => some { s with store := { s.store with shutdown := true } }
  | .wake => if s.pc = .blocked then some { s with pc := .commitCheck .predicate } else none
  | .thread now => threadStep env now s

/-! Blocking and ending with empty queues. -/

def QueuesEmpty (s : State) : Prop :=
  s.store.storeCheckQueue = [] ∧ s.store.storeAuxQueue = []

/-- The update a commit is about to pop belongs to a configured group. -/
def knownHead {ρ : Type} (env : StoreEnv) (queue : List (GroupUpdate ρ)) : Bool :=
  queue.head?.all fun u => env.hostGroupMap.contains u.hostGroup

/-- No commit meets an update of an unknown group, and no push lands between the test
that found its queue empty and the end of the predicate or of the drain loop. -/
def followed (env : StoreEnv) (s : State) : Event → Bool
  | .thread _ =>
    match s.pc with
    | .commitCheck _ => knownHead env s.store.storeCheckQueue
    | .commitAux _ => knownHead env s.store.storeAuxQueue
    | _ => true
  | .pushCheck _ =>
    match s.pc with
    | .commitAux _ => s.store.storeAuxQueue ≠ []
    | .testShutdown => s.store.shutdown
    | _ => true
  | .pushAux _ =>
    match s.pc with
    | .testShutdown => s.store.shutdown
    | _ => true
  | .close | .wake => true

/-- A commit past the check queue found it empty, and both were found empty before the
flag is tested. -/
def NoneMissed (s : State) : Prop :=
  match s.pc with
  | .commitAux _ => s.store.storeCheckQueue = [] ∨ s.store.storeAuxQueue ≠ []
  | .testShutdown => s.store.shutdown = true ∨ QueuesEmpty s
  | _ => True

section Commits

variable {ρ : Type} {env : StoreEnv} {policy : StorageCommitPolicy} {needAll : Bool}
  {stamp : HMIPAddress → ρ → ρ} {now : HMTimeStamp} {u : GroupUpdate ρ} {cache : GroupCache ρ}

theorem commitUpdate_result (hknown : env.hostGroupMap.contains u.hostGroup = true) :
    (commitUpdate env policy needAll stamp now u cache).2.result = true := by
  rw [SortedMap.contains_eq] at hknown
  rcases Option.isSome_iff_exists.mp hknown with ⟨g, hg⟩
  simp only [commitUpdate, hg]
  repeat' split
  all_goals rfl

end Commits

variable {env : StoreEnv} {s s' : State}

theorem afterCheck_of_result (store : HMStorageHostGroup) (phase : Phase) {o : CommitOutcome}
    (h : o.result = true) : NoneMissed ⟨store, afterCheck phase o⟩ := by
  cases o with
  | idle => cases h
  | unknownGroup => cases h
  | applied => cases phase <;> exact trivial
  | write group => exact trivial

theorem afterAux_of_result (store : HMStorageHostGroup) (phase : Phase) {o : CommitOutcome}
    (h : o.result = true) : NoneMissed ⟨store, afterAux phase o⟩ ∧ afterAux phase o ≠ .blocked ∧
      afterAux phase o ≠ .done := by
  cases o with
  | idle => cases h
  | unknownGroup => cases h
  | applied => cases phase <;> exact ⟨trivial, by decide, by decide⟩
  | write group => exact ⟨trivial, by simp [afterAux], by simp [afterAux]⟩

/-- One step of the thread keeps the invariant, and ends blocked or done only with
both queues empty. -/
theorem thread_step_noneMissed {now : HMTimeStamp} (hinv : NoneMissed s)
    (hcond : followed env s (.thread now) = true) (hstep : threadStep env now s = some s') :
    NoneMissed s' ∧ (s'.pc = .blocked ∨ s'.pc = .done → QueuesEmpty s') := by
  obtain ⟨store, pc⟩ := s
  cases pc with
  | loopTest =>
    obtain rfl := Option.some.inj hstep
    exact ⟨trivial, by simp⟩
  | commitCheck phase =>
    obtain rfl := Option.some.inj hstep
    cases hq : store.storeCheckQueue with
    | nil =>
      have hb : store.beginHealthCheck env now = (store, .idle) := by
        simp [beginHealthCheck, hq]
      rw [hb]
      exact ⟨Or.inl hq, by simp [afterCheck]⟩
    | cons u queue =>
      have hknown : env.hostGroupMap.contains u.hostGroup = true := by
        simpa [followed, knownHead, hq] using hcond
      have hresult : (store.beginHealthCheck env now).2.result = true := by
        simpa [beginHealthCheck, hq] using commitUpdate_result hknown
      refine ⟨afterCheck_of_result _ phase hresult, ?_⟩
      cases ho : (store.beginHealthCheck env now).2 <;> cases phase <;>
        simp_all [afterCheck, resume, CommitOutcome.result]
  | storeCheck phase group =>
    obtain rfl := Option.some.inj hstep
    cases phase <;> exact ⟨trivial, by simp [resume]⟩
  | commitAux phase =>
    obtain rfl := Option.some.inj hstep
    cases hq : store.storeAuxQueue with
    | nil =>
      have hb : store.beginAuxInfo env now = (store, .idle) := by simp [beginAuxInfo, hq]
      have hempty : store.storeCheckQueue = [] := by simpa [NoneMissed, hq] using hinv
      rw [hb]
      cases phase with
      | predicate => exact ⟨Or.inr ⟨hempty, hq⟩, by simp [afterAux, fallThrough]⟩
      | drain => exact ⟨trivial, fun _ => ⟨hempty, hq⟩⟩
    | cons u queue =>
      have hknown : env.hostGroupMap.contains u.hostGroup = true := by
        simpa [followed, knownHead, hq] using hcond
      have hresult : (store.beginAuxInfo env now).2.result = true := by
        simpa [beginAuxInfo, hq] using commitUpdate_result hknown
      obtain ⟨hkeep, hblocked, hdone⟩ :=
        afterAux_of_result (store.beginAuxInfo env now).1 phase hresult
      exact ⟨hkeep, fun h => absurd h (by simp [hblocked, hdone])⟩
  | storeAux phase group =>
    obtain rfl := Option.some.inj hstep
    cases phase <;> exact ⟨trivial, by simp [resume]⟩
  | testShutdown =>
    obtain rfl := Option.some.inj hstep
    cases hs : store.shutdown with
    | true => exact ⟨trivial, by simp⟩
    | false =>
      have hempty : QueuesEmpty ⟨store, .testShutdown⟩ := by
        simpa [NoneMissed, hs] using hinv
      exact ⟨trivial, fun _ => hempty⟩
  | blocked => cases hstep
  | done => cases hstep

theorem storeCheckResult_one (store : HMStorageHostGroup) (hostname : HMString)
    (address : HMIPAddress) (group : HMString) (result : HMDataCheckResult) :
    store.storeCheckResult hostname address [group] result =
      if store.readonly then store
      else { store with
        storeCheckQueue := store.storeCheckQueue ++ [⟨group, hostname, address, result⟩] } := rfl

theorem storeAuxInfo_one (store : HMStorageHostGroup) (hostname : HMString)
    (address : HMIPAddress) (group : HMString) (info : HMAuxInfo) :
    store.storeAuxInfo hostname address [group] info =
      if store.readonly then store
      else { store with
        storeAuxQueue := store.storeAuxQueue ++ [⟨group, hostname, address, info⟩] } := rfl

theorem step_noneMissed {e : Event} (hinv : NoneMissed s) (hcond : followed env s e = true)
    (hstep : step env s e = some s') : NoneMissed s' := by
  cases e with
  | thread now => exact (thread_step_noneMissed hinv hcond hstep).1
  | pushCheck u =>
    obtain rfl := Option.some.inj hstep
    rw [storeCheckResult_one]
    split
    · exact hinv
    · obtain ⟨store, pc⟩ := s
      cases pc with
      | commitAux phase => exact Or.inr (by simpa [followed] using hcond)
      | testShutdown => exact Or.inl (by simpa [followed] using hcond)
      | _ => exact trivial
  | pushAux u =>
    obtain rfl := Option.some.inj hstep
    rw [storeAuxInfo_one]
    split
    · exact hinv
    · obtain ⟨store, pc⟩ := s
      cases pc with
      | commitAux phase => exact Or.inr (by simp)
      | testShutdown => exact Or.inl (by simpa [followed] using hcond)
      | _ => exact trivial
  | close =>
    obtain rfl := Option.some.inj hstep
    obtain ⟨store, pc⟩ := s
    cases pc with
    | commitAux phase => exact hinv
    | testShutdown => exact Or.inl rfl
    | _ => exact trivial
  | wake =>
    simp only [step] at hstep
    split at hstep
    · obtain rfl := Option.some.inj hstep
      exact trivial
    · cases hstep

/-- In every run whose steps are followed, the thread blocks or ends only with both
queues empty. -/
theorem thread_stops_on_empty_queues (env : StoreEnv) (s₀ s s' : State) (es : List Event)
    (now : HMTimeStamp) (hstart : s₀.pc = .loopTest)
    (halong : Along (step env) (fun s e => followed env s e = true) s₀ (es ++ [.thread now]))
    (hrun : runTrace (step env) s₀ es = some s) (hstep : step env s (.thread now) = some s')
    (hstop : s'.pc = .blocked ∨ s'.pc = .done) : QueuesEmpty s' := by
  have hinit : NoneMissed s₀ := by
    unfold NoneMissed
    rw [hstart]
    exact trivial
  obtain ⟨hbefore, hlast⟩ := along_append hrun halong
  have hinv : NoneMissed s := invariant_of_step step_noneMissed hinit hbefore hrun
  exact (thread_step_noneMissed hinv hlast.1 hstep).2 hstop

def sampleState : State where
  store := .opened .always
  pc := .loopTest

def sampleUpdate (group : HMString) : HMGroupCheckUpdate :=
  ⟨group, bytes "a", .v4 1, HMDataCheckResult.new 0⟩

theorem thread_blocks_on_empty_queues_after_commit :
    ∃ s s', runTrace (step StoreEnv.oneHost) sampleState
        ([.pushCheck (sampleUpdate (bytes "web"))] ++ List.replicate 6 (.thread 0)) = some s ∧
      step StoreEnv.oneHost s (.thread 0) = some s' ∧ s'.pc = .blocked ∧ QueuesEmpty s' := by
  have hsome : ((runTrace (step StoreEnv.oneHost) sampleState
      ([.pushCheck (sampleUpdate (bytes "web"))] ++ List.replicate 6 (.thread 0))).bind
        fun s => step StoreEnv.oneHost s (.thread 0)).map State.pc = some .blocked := by
    decide +kernel
  rcases Option.map_eq_some_iff.mp hsome with ⟨s', hs', hblocked⟩
  rcases Option.bind_eq_some_iff.mp hs' with ⟨s, hs, hstep⟩
  exact ⟨s, s', hs, hstep, hblocked, thread_stops_on_empty_queues StoreEnv.oneHost sampleState s s'
    _ 0 rfl (by decide +kernel) hs hstep (Or.inl hblocked)⟩

/-- An update of a group that is no longer configured makes its commit return false, and
the thread blocks with the next update still queued. -/
theorem thread_blocks_behind_unknown_group :
    ((runTrace (step StoreEnv.oneHost) sampleState
      ([.pushCheck (sampleUpdate (bytes "gone")), .pushCheck (sampleUpdate (bytes "web"))] ++
        List.replicate 4 (.thread 0))).map fun s => (s.pc, s.store.storeCheckQueue)) =
      some (.blocked, [sampleUpdate (bytes "web")]) := by
  decide +kernel

end StorageThread
