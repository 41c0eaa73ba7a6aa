import NetCHASM.DataCheckParams
import NetCHASM.Library.Runs

/-! When a failed check marks a host down. The retry automaton below is the whole
of what a report does to the status of a host, and the model of the update refines
it. Consecutive failures are counted over the reports, apart from the counter that
the record keeps. -/
namespace RetryLaw

open NetCHASM Runs CheckParameters OrderedMap

variable {p : CheckParameters} {address : HMIPAddress} {rep : CheckReport}
  {r : HMDataCheckResult}

/-- What a report says about the host. A lookup failure or missing remote data says nothing. -/
inductive Outcome where
  | ignored
  | success
  | failure
  deriving DecidableEq, Repr

def outcome (p : CheckParameters) (rep : CheckReport) : Outcome :=
  if rep.response = .dnsFailed ∨ rep.reason = .remoteNodata then .ignored
  else if rep.response = .connected ∧ rep.reason = .success ∧
      p.selectedResponseTime rep < p.checkTimeout then .success
  else .failure

/-- The part of a record the retry decision reads and writes. -/
structure RetryView where
  up : Bool
  failures : UInt8
  deriving DecidableEq, Repr

def view (r : HMDataCheckResult) : RetryView := ⟨r.status.isUp, r.numFailedChecks⟩

def markDown (retries : UInt8) (v : RetryView) : RetryView :=
  if retries < v.failures then ⟨false, 0⟩ else v

/-- The retry automaton. A success raises the host and leaves the counter as it is. -/
def retryStep (retries : UInt8) : Outcome → RetryView → RetryView
  | .ignored, v => v
  | .success, v => markDown retries ⟨true, v.failures⟩
  | .failure, v => markDown retries (if v.up then ⟨true, v.failures + 1⟩ else v)

theorem view_recordOutcome : view (p.recordOutcome rep r) = view r :=
  eq_of_frame view (recordOutcome_frame p rep r) fun _ => rfl

theorem isUp_none : HostStatus.isUp hostStatusNone = false := by decide

theorem softStatus_countUnsuccessful : (countUnsuccessful r).softStatus = r.softStatus := by
  unfold countUnsuccessful
  split <;> rfl

theorem softStatus_countFailure (reason : Reason) :
    (countFailure reason r).softStatus = r.softStatus := by
  cases reason <;> rfl

theorem isUp_setResponse (hdown : r.softStatus.isUp = false) :
    (p.setResponse rep r).softStatus.isUp =
      decide (p.selectedResponseTime rep < p.checkTimeout) := by
  simp only [setResponse]
  split
  · rename_i hlt
    simp [hlt]
  · rename_i hlt
    simp [hlt, hdown]

theorem reason_setResponse : (p.setResponse rep r).reason =
    if p.selectedResponseTime rep < p.checkTimeout then .success else .responseTimeout := by
  by_cases haccepted : p.selectedResponseTime rep < p.checkTimeout
  · simp only [setResponse, recordSlowResponse, updateStatistics, if_pos haccepted]
    repeat' split
    all_goals rfl
  · simp only [setResponse, if_neg haccepted]

/-- A check that is not ignored leaves the soft status up exactly when it succeeded. -/
theorem isUp_recordOutcome (hcount : outcome p rep ≠ .ignored)
    (hdown : r.softStatus.isUp = false) :
    (p.recordOutcome rep r).softStatus.isUp = decide (outcome p rep = .success) := by
  have hnot : ¬ (rep.response = .dnsFailed ∨ rep.reason = .remoteNodata) := by
    intro h
    exact hcount (if_pos h)
  unfold recordOutcome outcome
  rw [if_neg hnot]
  by_cases hconn : rep.response = .connected
  · rw [if_pos hconn, softStatus_countUnsuccessful]
    by_cases hsucc : rep.reason = .success
    · rw [if_pos hsucc, isUp_setResponse hdown]
      by_cases hlt : p.selectedResponseTime rep < p.checkTimeout
      · simp [hconn, hsucc, hlt]
      · simp [hconn, hsucc, hlt]
    · simp [hconn, hsucc, hdown]
  · simp [hconn, softStatus_countFailure, hdown]

theorem view_failedOnRetry :
    view (p.failedOnRetry r) =
      if r.status.isUp && !r.softStatus.isUp then ⟨true, r.numFailedChecks + 1⟩ else view r := by
  simp only [failedOnRetry]
  by_cases h : (r.status.isUp && !r.softStatus.isUp) = true
  · have hup : r.status.isUp = true := by simp_all
    rw [if_pos h, if_pos h]
    split
    · exact congrArg (RetryView.mk · _) hup
    · exact congrArg (RetryView.mk · _) hup
  · rw [if_neg h, if_neg h]

theorem view_markDown : view (p.markDown r) = markDown p.numCheckRetries (view r) := by
  unfold CheckParameters.markDown markDown
  by_cases h : p.numCheckRetries < r.numFailedChecks
  · simp [h, view]
  · simp [h, view]

theorem softStatus_failedOnRetry : (p.failedOnRetry r).softStatus = r.softStatus := by
  simp only [failedOnRetry]
  repeat' split
  all_goals rfl

/-- The branch meant to reset the counter after a success never runs: the branch
before it has already set the status it tests. -/
theorem successfulOnRetry_successful : successfulOnRetry (successful r) = successful r := by
  unfold successfulOnRetry successful
  by_cases h : r.softStatus.isUp = true
  · simp [h]
  · simp [h]

theorem view_successful :
    view (successful r) = if r.softStatus.isUp then ⟨true, r.numFailedChecks⟩ else view r := by
  unfold successful
  split <;> simp [view]

theorem view_applyRetries : view (p.applyRetries r) =
    retryStep p.numCheckRetries (if r.softStatus.isUp then .success else .failure) (view r) := by
  unfold applyRetries
  rw [view_markDown, successfulOnRetry_successful, view_successful, softStatus_failedOnRetry]
  by_cases hs : r.softStatus.isUp = true
  · simp [hs, retryStep, failedOnRetry, view]
  · rw [view_failedOnRetry]
    by_cases hu : r.status.isUp = true
    · simp [hs, hu, retryStep, view]
    · simp [hs, hu, retryStep, view]

theorem failures_markDown_le (retries : UInt8) (v : RetryView) :
    (markDown retries v).failures ≤ retries := by
  unfold markDown
  split
  · exact UInt8.zero_le
  · rename_i h
    exact UInt8.not_lt.mp h

/-- The second test for marking down, inside the flap branch, never succeeds. -/
theorem view_countFlap (start : HMTimeStamp) (hle : r.numFailedChecks ≤ p.numCheckRetries) :
    view (p.countFlap start r) = view r := by
  have hmark (r' : HMDataCheckResult) (h : view r' = view r) :
      view (p.markDown r') = view r := by
    rw [view_markDown, h]
    exact if_neg (UInt8.not_lt.mpr hle)
  unfold countFlap
  split
  · apply hmark
    repeat' split
    all_goals rfl
  · split <;> rfl

/-- The update of a record refines the retry automaton. -/
theorem view_updateResult (p : CheckParameters) (address : HMIPAddress) (rep : CheckReport)
    (r : HMDataCheckResult) : view (p.updateResult address rep r) =
    retryStep p.numCheckRetries (outcome p rep) (view r) := by
  unfold updateResult
  dsimp only
  by_cases hdns : rep.response = .dnsFailed
  · simp [hdns, outcome, retryStep, view, recordReport]
  rw [if_neg hdns]
  by_cases hno : rep.reason = .remoteNodata
  · rw [if_pos hno]
    have hout : outcome p rep = .ignored := if_pos (Or.inr hno)
    rw [hout]
    exact view_recordOutcome
  rw [if_neg hno]
  have hcount : outcome p rep ≠ .ignored := by
    simp only [outcome, hdns, hno, or_self, if_false]
    split <;> simp
  generalize hr₁ : (p.recordOutcome rep _ : HMDataCheckResult) = r₁
  have hview : view r₁ = view r := by
    rw [← hr₁, view_recordOutcome]
    rfl
  have hsoft : r₁.softStatus.isUp = decide (outcome p rep = .success) := by
    rw [← hr₁]
    apply isUp_recordOutcome hcount
    simp [recordReport, hno]
  have hretry := view_applyRetries (p := p)
    (r := { r₁ with softReason := r₁.reason, remoteCheckTime := 0 })
  have hle : (p.applyRetries
      { r₁ with softReason := r₁.reason, remoteCheckTime := 0 }).numFailedChecks ≤
      p.numCheckRetries := by
    have h := failures_markDown_le p.numCheckRetries (view (successfulOnRetry (successful
      (p.failedOnRetry { r₁ with softReason := r₁.reason, remoteCheckTime := 0 }))))
    rwa [← view_markDown] at h
  have hflap := view_countFlap rep.start hle
  calc view _ = view _ := hflap
    _ = _ := hretry
    _ = retryStep p.numCheckRetries (outcome p rep) (view r) := by
      have hsel : (if r₁.softStatus.isUp then Outcome.success else .failure) = outcome p rep := by
        rw [hsoft]
        cases hout : outcome p rep <;> simp_all
      rw [← hview, ← hsel]
      rfl

theorem softStatus_countFlap (start : HMTimeStamp) :
    (p.countFlap start r).softStatus = r.softStatus :=
  eq_of_frame HMDataCheckResult.softStatus (countFlap_frame p start r) fun _ => rfl

theorem softStatus_applyRetries : (p.applyRetries r).softStatus = r.softStatus :=
  eq_of_frame HMDataCheckResult.softStatus (applyRetries_frame p r) fun _ => rfl

theorem not_ignored_iff :
    outcome p rep ≠ .ignored ↔ rep.response ≠ .dnsFailed ∧ rep.reason ≠ .remoteNodata := by
  unfold outcome
  by_cases h : rep.response = .dnsFailed ∨ rep.reason = .remoteNodata
  · rw [if_pos h]
    exact iff_of_false (fun hne => hne rfl) fun hparts => h.elim hparts.1 hparts.2
  · rw [if_neg h]
    refine iff_of_true ?_ (not_or.mp h)
    split <;> simp

theorem isUp_updateResult (hcount : outcome p rep ≠ .ignored) :
    (p.updateResult address rep r).softStatus.isUp = decide (outcome p rep = .success) := by
  rcases not_ignored_iff.mp hcount with ⟨hdns, hno⟩
  simp only [updateResult, if_neg hdns, if_neg hno]
  rw [softStatus_countFlap, softStatus_applyRetries]
  apply isUp_recordOutcome hcount
  simp [recordReport, hno]

/-- The failed checks are those that leave the soft status without the up flag. -/
theorem outcome_failure_iff (hcount : outcome p rep ≠ .ignored) :
    outcome p rep = .failure ↔ (p.updateResult address rep r).softStatus.isUp = false := by
  rw [isUp_updateResult hcount, decide_eq_false_iff_not]
  cases hout : outcome p rep <;> simp_all

/-! The automaton against the number of consecutive failures. -/

def countOutcome (c : ℕ) : Outcome → ℕ
  | .ignored => c
  | .success => 0
  | .failure => c + 1

/-- The counter is the number of consecutive failures while the host is up, and is
zero once the retries have been used. -/
def Tracks (retries : UInt8) (c : ℕ) (v : RetryView) : Prop :=
  (v.up = true ∧ v.failures.toNat = c ∧ c ≤ retries.toNat) ∨
    (v.up = false ∧ v.failures = 0 ∧ retries.toNat < c)

/-- A step on which the counter can follow the count. -/
def Followed (o : Outcome) (v : RetryView) : Prop :=
  (o = .success → v.failures = 0) ∧ (o = .failure → v.up = true → v.failures ≠ 255)

instance (o : Outcome) (v : RetryView) : Decidable (Followed o v) :=
  inferInstanceAs (Decidable ((_ → _) ∧ (_ → _ → _)))

variable {retries : UInt8} {c : ℕ} {v : RetryView} {o : Outcome}

private theorem toNat_add_one {n : UInt8} (h : n ≠ 255) : (n + 1).toNat = n.toNat + 1 := by
  have hlt : n.toNat ≠ 255 := fun heq => h (UInt8.toNat_inj.mp heq)
  have hsize := n.toNat_lt
  rw [UInt8.toNat_add]
  simp only [UInt8.reduceToNat]
  omega

theorem markDown_zero (retries : UInt8) (up : Bool) : markDown retries ⟨up, 0⟩ = ⟨up, 0⟩ :=
  if_neg (UInt8.not_lt.mpr UInt8.zero_le)

theorem tracks_step (htracks : Tracks retries c v) (hfollowed : Followed o v) :
    Tracks retries (countOutcome c o) (retryStep retries o v) := by
  cases o with
  | ignored => exact htracks
  | success =>
    have hzero : v.failures = 0 := hfollowed.1 rfl
    simp only [retryStep, countOutcome, hzero, markDown_zero]
    exact Or.inl ⟨rfl, rfl, Nat.zero_le _⟩
  | failure =>
    rcases htracks with ⟨hup, hc, hle⟩ | ⟨hdown, hzero, hgt⟩
    · have hnat := toNat_add_one (hfollowed.2 rfl hup)
      simp only [retryStep, countOutcome, hup, if_true, markDown]
      by_cases hlt : retries < v.failures + 1
      · have hlt' := UInt8.lt_iff_toNat_lt.mp hlt
        rw [if_pos hlt]
        exact Or.inr ⟨rfl, rfl, by omega⟩
      · have hle' := UInt8.le_iff_toNat_le.mp (UInt8.not_lt.mp hlt)
        rw [if_neg hlt]
        exact Or.inl ⟨rfl, by rw [hnat, hc], by omega⟩
    · have hstay : retryStep retries .failure v = v := by
        cases v
        simp_all [retryStep, markDown_zero]
      rw [hstay]
      exact Or.inr ⟨hdown, hzero, Nat.lt_succ_of_lt hgt⟩

theorem cleared_iff (htracks : Tracks retries c v) (hfollowed : Followed o v) :
    (v.up = true ∧ (retryStep retries o v).up = false) ↔
      o = .failure ∧ countOutcome c o = retries.toNat + 1 := by
  have hnext := tracks_step htracks hfollowed
  cases o with
  | ignored => simp [retryStep]
  | success =>
    have hzero : v.failures = 0 := hfollowed.1 rfl
    simp [retryStep, hzero, markDown_zero]
  | failure =>
    constructor
    · rintro ⟨hup, hdown⟩
      rcases htracks with ⟨-, -, hle⟩ | ⟨hnot, -⟩
      · rcases hnext with ⟨hup', -⟩ | ⟨-, -, hgt⟩
        · simp [hup'] at hdown
        · simp only [countOutcome] at hgt ⊢
          exact ⟨trivial, by omega⟩
      · simp [hnot] at hup
    · rintro ⟨-, hc⟩
      simp only [countOutcome] at hc hnext
      rcases htracks with ⟨hup, -, -⟩ | ⟨-, -, hgt⟩
      · rcases hnext with ⟨-, -, hle⟩ | ⟨hdown, -⟩
        · omega
        · exact ⟨hup, hdown⟩
      · omega

/-- With the largest number of retries the counter wraps round before it can exceed it. -/
theorem never_down_of_max_retries (hup : v.up = true) : (retryStep 255 o v).up = true := by
  have hmax (w : RetryView) : markDown 255 w = w :=
    if_neg (UInt8.not_lt.mpr (UInt8.le_iff_toNat_le.mpr (Nat.le_of_lt_succ w.failures.toNat_lt)))
  cases o with
  | ignored => exact hup
  | success => simp [retryStep, hmax]
  | failure => simp [retryStep, hmax, hup]

/-! Runs of reports on one stored address. -/

def reportStep (address : HMIPAddress) (P : HMDataCheckParams) (rep : CheckReport) :
    Option HMDataCheckParams :=
  some (P.updateCheck address rep)

def consecutiveFailures (p : CheckParameters) (reps : List CheckReport) : ℕ :=
  reps.foldl (fun c rep => countOutcome c (outcome p rep)) 0

/-- The condition on one report and the record it finds. -/
def CounterFollows (address : HMIPAddress) (P : HMDataCheckParams) (rep : CheckReport) : Prop :=
  ∀ r, P.getCheckResult address = some r → Followed (outcome P.toCheckParameters rep) (view r)

instance (address : HMIPAddress) (P : HMDataCheckParams) (rep : CheckReport) :
    Decidable (CounterFollows address P rep) :=
  match h : P.getCheckResult address with
  | none => isTrue fun r hr => by simp [h] at hr
  | some r =>
    decidable_of_iff (Followed (outcome P.toCheckParameters rep) (view r)) (by
      simp [CounterFollows, h])

theorem run_tracks {P Q : HMDataCheckParams} {reps : List CheckReport} {c : ℕ}
    (hr : P.getCheckResult address = some r)
    (htracks : Tracks P.numCheckRetries c (view r))
    (halong : Along (reportStep address) (CounterFollows address) P reps)
    (hrun : runTrace (reportStep address) P reps = some Q) :
    Q.toCheckParameters = P.toCheckParameters ∧ ∃ r', Q.getCheckResult address = some r' ∧
      Tracks P.numCheckRetries
        (reps.foldl (fun c rep => countOutcome c (outcome P.toCheckParameters rep)) c)
        (view r') := by
  induction reps generalizing P r c with
  | nil =>
    obtain rfl : P = Q := by simpa using hrun
    exact ⟨rfl, r, hr, htracks⟩
  | cons rep reps ih =>
    rcases runTrace_cons.mp hrun with ⟨M, hM, hrest⟩
    obtain rfl : P.updateCheck address rep = M := by simpa [reportStep] using hM
    have hr' := P.getCheckResult_updateCheck address rep
    rw [hr, Option.map_some] at hr'
    have hstep := tracks_step htracks (halong.1 r hr)
    rw [← view_updateResult P.toCheckParameters address rep r] at hstep
    have hih := ih (P := P.updateCheck address rep) hr' hstep (halong.2 _ hM) hrest
    exact hih

/-- In every run whose reports the counter follows, a call clears the up flag of the stored
status exactly when it is the failed check that uses the last retry. -/
theorem status_up_cleared_iff_retries_used (P : HMDataCheckParams) (address : HMIPAddress)
    (r₀ : HMDataCheckResult) (hr₀ : P.getCheckResult address = some r₀)
    (hup : r₀.status.isUp = true) (hzero : r₀.numFailedChecks = 0)
    (reps : List CheckReport) (rep : CheckReport)
    (halong : Along (reportStep address) (CounterFollows address) P (reps ++ [rep])) :
    ∃ Q r r', runTrace (reportStep address) P reps = some Q ∧
      Q.getCheckResult address = some r ∧
      (Q.updateCheck address rep).getCheckResult address = some r' ∧
      (outcome P.toCheckParameters rep ≠ .ignored →
        (outcome P.toCheckParameters rep = .failure ↔ r'.softStatus.isUp = false)) ∧
      ((r.status.isUp = true ∧ r'.status.isUp = false) ↔
        outcome P.toCheckParameters rep = .failure ∧
          consecutiveFailures P.toCheckParameters (reps ++ [rep]) =
            P.numCheckRetries.toNat + 1) := by
  obtain ⟨Q, hQ⟩ : ∃ Q, runTrace (reportStep address) P reps = some Q := by
    clear halong hr₀
    induction reps generalizing P with
    | nil => exact ⟨P, rfl⟩
    | cons rep reps ih => exact ih (P.updateCheck address rep)
  have hparts := along_append hQ halong
  have hinit : Tracks P.numCheckRetries 0 (view r₀) :=
    Or.inl ⟨hup, by rw [view, hzero]; rfl, Nat.zero_le _⟩
  obtain ⟨hparams, r, hr, htracks⟩ := run_tracks hr₀ hinit hparts.1 hQ
  have hr' := Q.getCheckResult_updateCheck address rep
  rw [hr, Option.map_some, hparams] at hr'
  refine ⟨Q, r, _, hQ, hr, hr', outcome_failure_iff, ?_⟩
  have hfollowed := hparts.2.1 r hr
  rw [hparams] at hfollowed
  have hview := view_updateResult P.toCheckParameters address rep r
  have hcleared := cleared_iff htracks hfollowed
  rw [← hview] at hcleared
  simpa [consecutiveFailures, view] using hcleared

/-- A host that is up, checked with one retry. -/
def sampleParams : HMDataCheckParams where
  toCheckParameters := { CheckParameters.default with numCheckRetries := 1 }
  checkData := SortedMap.empty.insert (.v4 1) { HMDataCheckResult.new 0 with status := hostStatusUp }
  hostGroups := []

def sampleFailure : CheckReport := ⟨.failed, .connectFailure, 0, 5, 80, 5, 5⟩

def sampleSuccess : CheckReport := ⟨.connected, .success, 0, 5, 80, 5, 5⟩

theorem status_up_cleared_on_second_failure :
    ∃ Q r r', runTrace (reportStep (.v4 1)) sampleParams [sampleFailure] = some Q ∧
      Q.getCheckResult (.v4 1) = some r ∧
      (Q.updateCheck (.v4 1) sampleFailure).getCheckResult (.v4 1) = some r' ∧
      (outcome sampleParams.toCheckParameters sampleFailure ≠ .ignored →
        (outcome sampleParams.toCheckParameters sampleFailure = .failure ↔
          r'.softStatus.isUp = false)) ∧
      ((r.status.isUp = true ∧ r'.status.isUp = false) ↔
        outcome sampleParams.toCheckParameters sampleFailure = .failure ∧
          consecutiveFailures sampleParams.toCheckParameters [sampleFailure, sampleFailure] =
            sampleParams.numCheckRetries.toNat + 1) :=
  status_up_cleared_iff_retries_used sampleParams (.v4 1)
    { HMDataCheckResult.new 0 with status := hostStatusUp } (by decide) (by decide) (by decide)
    [sampleFailure] sampleFailure (by decide)

/-- Whether the stored status has the up flag after a run of reports. -/
def statusUpAfter (address : HMIPAddress) (P : HMDataCheckParams) (reps : List CheckReport) :
    Option Bool :=
  (runTrace (reportStep address) P reps).bind fun Q =>
    (Q.getCheckResult address).map fun r => r.status.isUp

/-- A success between two failures does not restart the count: the second failure is
the first one in a row, and it already clears the flag that one retry should keep. -/
theorem success_does_not_restart_count :
    statusUpAfter (.v4 1) sampleParams [] = some true ∧
      statusUpAfter (.v4 1) sampleParams [sampleFailure, sampleSuccess] = some true ∧
      statusUpAfter (.v4 1) sampleParams [sampleFailure, sampleSuccess, sampleFailure] =
        some false ∧
      consecutiveFailures sampleParams.toCheckParameters
        [sampleFailure, sampleSuccess, sampleFailure] = 1 ∧
      sampleParams.numCheckRetries.toNat + 1 = 2 := by
  decide +kernel

end RetryLaw
