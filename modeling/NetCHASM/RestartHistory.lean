import NetCHASM.RetryLaw
import NetCHASM.StorageRecords

/-! What a restart does to the history of a host. A record and its restored copy are followed
through the same reports, and compared in what they say about the host after each of them. -/
namespace RestartHistory

open NetCHASM Runs CheckParameters RetryLaw

/-- What a record says about a host after a report. -/
structure Observed where
  status : HostStatus
  reason : Reason
  statusChanged : Bool
  numFailedChecks : UInt8
  numFlaps : UInt32
  deriving DecidableEq, Repr

def observe (r : HMDataCheckResult) : Observed :=
  ⟨r.status, r.reason, r.statusChanged, r.numFailedChecks, r.numFlaps⟩

/-- A report that is applied to a record with some parameters. -/
structure CheckCall where
  params : CheckParameters
  address : HMIPAddress
  report : CheckReport
  deriving DecidableEq, Repr

def CheckCall.apply (r : HMDataCheckResult) (c : CheckCall) : HMDataCheckResult :=
  c.params.updateResult c.address c.report r

/-- The record after some reports on a new one. -/
def afterCalls (checkTimeout : UInt64) (calls : List CheckCall) : HMDataCheckResult :=
  calls.foldl CheckCall.apply (.new checkTimeout)

/-- The copy of a record that a restart finds. -/
def restored (r : HMDataCheckResult) : HMDataCheckResult := .deserialize r.serialize

def upAfter (up : Bool) : Outcome → Bool
  | .ignored => up
  | .success => true
  | .failure => false

/-- Whether the last report that says something about the host was a success. -/
def lastUp (calls : List CheckCall) : Bool :=
  calls.foldl (fun up c => upAfter up (outcome c.params c.report)) false

/-! The part of a record that its later history depends on. -/

structure Agree (r r' : HMDataCheckResult) : Prop where
  status : r.status = r'.status
  numFailedChecks : r.numFailedChecks = r'.numFailedChecks
  numFlaps : r.numFlaps = r'.numFlaps
  flapTime : r.flapTime.getTimeSinceEpoch = r'.flapTime.getTimeSinceEpoch
  flapStatus : r.flapStatus.isUp = r'.flapStatus.isUp

/-- The same while a report is applied. -/
structure AgreeNow (r r' : HMDataCheckResult) : Prop extends Agree r r' where
  reason : r.reason = r'.reason
  softStatus : r.softStatus.isUp = r'.softStatus.isUp
  statusChanged : r.statusChanged = r'.statusChanged

theorem minus_eq {t t' : HMTimeStamp} (h : t.getTimeSinceEpoch = t'.getTimeSinceEpoch)
    (start : HMTimeStamp) : start.minus t = start.minus t' := by
  have hsub : ∀ t : HMTimeStamp,
      start.minus t = UInt64.ofInt start + -t.getTimeSinceEpoch := by
    intro t
    rw [HMTimeStamp.minus, HMTimeStamp.getTimeSinceEpoch, Int.sub_eq_add_neg, UInt64.ofInt_add,
      UInt64.ofInt_neg]
  rw [hsub, hsub, h]

variable {p : CheckParameters} {address : HMIPAddress} {rep : CheckReport}
  {r r' : HMDataCheckResult}

theorem AgreeNow.observe (h : AgreeNow r r') : observe r = observe r' := by
  rw [RestartHistory.observe, RestartHistory.observe, h.status, h.reason, h.statusChanged,
    h.numFailedChecks, h.numFlaps]

theorem Agree.trans {r'' : HMDataCheckResult} (h : Agree r r') (h' : Agree r' r'') :
    Agree r r'' where
  status := h.status.trans h'.status
  numFailedChecks := h.numFailedChecks.trans h'.numFailedChecks
  numFlaps := h.numFlaps.trans h'.numFlaps
  flapTime := h.flapTime.trans h'.flapTime
  flapStatus := h.flapStatus.trans h'.flapStatus

theorem Agree.symm (h : Agree r r') : Agree r' r where
  status := h.status.symm
  numFailedChecks := h.numFailedChecks.symm
  numFlaps := h.numFlaps.symm
  flapTime := h.flapTime.symm
  flapStatus := h.flapStatus.symm

theorem AgreeNow.trans {r'' : HMDataCheckResult} (h : AgreeNow r r') (h' : AgreeNow r' r'') :
    AgreeNow r r'' where
  toAgree := h.toAgree.trans h'.toAgree
  reason := h.reason.trans h'.reason
  softStatus := h.softStatus.trans h'.softStatus
  statusChanged := h.statusChanged.trans h'.statusChanged

theorem AgreeNow.symm (h : AgreeNow r r') : AgreeNow r' r where
  toAgree := h.toAgree.symm
  reason := h.reason.symm
  softStatus := h.softStatus.symm
  statusChanged := h.statusChanged.symm

/-- What a response does to the compared part of a record; the statistics are not in it. -/
theorem agree_setResponse_self (r : HMDataCheckResult) :
    AgreeNow (p.setResponse rep r) (if p.selectedResponseTime rep < p.checkTimeout then
      { r with reason := .success, softStatus := hostStatusUp }
      else { r with reason := .responseTimeout }) := by
  have hfirst : ∀ rt r, AgreeNow (resetFirstResponse rt r) r := by
    intro rt r
    rw [resetFirstResponse]
    split <;> exact ⟨⟨rfl, rfl, rfl, rfl, rfl⟩, rfl, rfl, rfl⟩
  have hstat : ∀ rt r, AgreeNow (updateStatistics rt r) { r with reason := .success } := by
    intro rt r
    simp only [updateStatistics]
    repeat' split
    all_goals exact ⟨⟨rfl, rfl, rfl, rfl, rfl⟩, rfl, rfl, rfl⟩
  have hslow : ∀ srt r, AgreeNow (p.recordSlowResponse rep srt r) r := by
    intro srt r
    simp only [recordSlowResponse]
    split <;> exact ⟨⟨rfl, rfl, rfl, rfl, rfl⟩, rfl, rfl, rfl⟩
  simp only [setResponse]
  split
  · generalize hafter : p.recordSlowResponse rep _ _ = after
    have hchain : AgreeNow after { resetFirstResponse (responseTime rep) r with
        reason := .success } := by
      rw [← hafter]
      exact (hslow _ _).trans (hstat _ _)
    have hreset := hfirst (responseTime rep) r
    have hsoft : HostStatus.isUp (after.softStatus ||| hostStatusUp) = hostStatusUp.isUp := by
      rw [isUp_or_up]
      decide
    exact { hchain.toAgree.trans { hreset.toAgree with } with
      reason := hchain.reason
      softStatus := hsoft
      statusChanged := hchain.statusChanged.trans hreset.statusChanged }
  · exact ⟨⟨rfl, rfl, rfl, rfl, rfl⟩, rfl, rfl, rfl⟩

theorem agree_setResponse (h : AgreeNow r r') :
    AgreeNow (p.setResponse rep r) (p.setResponse rep r') := by
  refine (agree_setResponse_self r).trans (AgreeNow.trans ?_ (agree_setResponse_self r').symm)
  split
  · exact { h with reason := rfl, softStatus := rfl }
  · exact { h with reason := rfl }

theorem agree_countUnsuccessful (r : HMDataCheckResult) : AgreeNow (countUnsuccessful r) r := by
  rw [countUnsuccessful]
  split <;> exact ⟨⟨rfl, rfl, rfl, rfl, rfl⟩, rfl, rfl, rfl⟩

theorem agree_countFailure (reason : Reason) (r : HMDataCheckResult) :
    AgreeNow (countFailure reason r) r := by
  unfold countFailure
  split <;> exact ⟨⟨rfl, rfl, rfl, rfl, rfl⟩, rfl, rfl, rfl⟩

theorem agree_recordOutcome (h : AgreeNow r r') :
    AgreeNow (p.recordOutcome rep r) (p.recordOutcome rep r') := by
  unfold recordOutcome
  split
  · refine (agree_countUnsuccessful _).trans (AgreeNow.trans ?_ (agree_countUnsuccessful _).symm)
    split
    · exact agree_setResponse h
    · exact h
  · exact (agree_countFailure _ r).trans (h.trans (agree_countFailure _ r').symm)

/-- Missing remote data only counts a failure. -/
theorem agree_recordOutcome_self (hno : rep.reason = .remoteNodata) (r : HMDataCheckResult) :
    AgreeNow (p.recordOutcome rep r) r := by
  have hsuccess : rep.reason ≠ .success := by
    rw [hno]
    decide
  rw [recordOutcome]
  rw [if_neg hsuccess]
  split
  · exact agree_countUnsuccessful r
  · exact agree_countFailure _ r

theorem agree_failedOnRetry (h : AgreeNow r r') :
    AgreeNow (p.failedOnRetry r) (p.failedOnRetry r') := by
  simp only [failedOnRetry, h.status, h.softStatus, h.numFailedChecks]
  split
  · split
    · exact { h with status := rfl, numFailedChecks := rfl, reason := rfl }
    · exact { h with status := rfl, numFailedChecks := rfl }
  · exact h

theorem agree_successful (h : AgreeNow r r') : AgreeNow (successful r) (successful r') := by
  simp only [successful, h.softStatus, h.status]
  split
  · exact { h with status := rfl }
  · exact h

theorem agree_successfulOnRetry (h : AgreeNow r r') :
    AgreeNow (successfulOnRetry r) (successfulOnRetry r') := by
  simp only [successfulOnRetry, h.softStatus, h.status, h.numFailedChecks]
  split
  · exact { h with status := rfl, numFailedChecks := rfl }
  · exact h

theorem agree_markDown (h : AgreeNow r r') : AgreeNow (p.markDown r) (p.markDown r') := by
  simp only [CheckParameters.markDown, h.status, h.numFailedChecks]
  split
  · exact { h with status := rfl, numFailedChecks := rfl }
  · exact h

theorem agree_countFlap (start : HMTimeStamp) (h : AgreeNow r r') :
    AgreeNow (p.countFlap start r) (p.countFlap start r') := by
  simp only [countFlap, h.softStatus, h.flapStatus, minus_eq h.flapTime, h.numFlaps]
  split
  · apply agree_markDown
    split
    · split
      · exact { h with numFlaps := rfl, flapTime := rfl, statusChanged := rfl }
      · exact { h with numFlaps := rfl, flapTime := rfl }
    · split
      · exact { h with numFlaps := rfl, flapTime := rfl, statusChanged := rfl }
      · exact { h with numFlaps := rfl, flapTime := rfl }
  · split
    · exact { h with numFlaps := rfl }
    · exact h

theorem agree_flapStatus (h : AgreeNow r r') :
    AgreeNow { r with flapStatus := r.softStatus } { r' with flapStatus := r'.softStatus } :=
  { h with flapStatus := h.softStatus }

theorem agree_applyRetries (h : AgreeNow r r') :
    AgreeNow (p.applyRetries r) (p.applyRetries r') :=
  agree_markDown (agree_successfulOnRetry (agree_successful (agree_failedOnRetry h)))

/-- A report keeps two records in agreement, and they then say the same about the host. -/
theorem agree_updateResult (rep : CheckReport) (h : Agree r r') :
    Agree (p.updateResult address rep r) (p.updateResult address rep r') ∧
      observe (p.updateResult address rep r) = observe (p.updateResult address rep r') := by
  simp only [updateResult]
  by_cases hdns : rep.response = .dnsFailed
  · rw [if_pos hdns, if_pos hdns]
    refine ⟨{ h with }, ?_⟩
    simp only [observe, recordReport, h.status, h.numFailedChecks, h.numFlaps]
  · rw [if_neg hdns, if_neg hdns]
    generalize hr₁ : ({ recordReport address rep r with
      numChecks := (recordReport address rep r).numChecks + 1
      checkTime := rep.checkNow } : HMDataCheckResult) = r₁
    generalize hr₁' : ({ recordReport address rep r' with
      numChecks := (recordReport address rep r').numChecks + 1
      checkTime := rep.checkNow } : HMDataCheckResult) = r₁'
    have hreport : Agree r₁ r₁' := by
      rw [← hr₁, ← hr₁']
      exact { h with }
    have hreason : r₁.reason = r₁'.reason := by rw [← hr₁, ← hr₁']; rfl
    have hchanged : r₁.statusChanged = r₁'.statusChanged := by rw [← hr₁, ← hr₁']; rfl
    by_cases hno : rep.reason = .remoteNodata
    · rw [if_pos hno, if_pos hno]
      have hself : AgreeNow (p.recordOutcome rep r₁) r₁ := agree_recordOutcome_self hno r₁
      have hself' : AgreeNow (p.recordOutcome rep r₁') r₁' := agree_recordOutcome_self hno r₁'
      have hsame : observe r₁ = observe r₁' := by
        simp only [observe, hreport.status, hreason, hchanged, hreport.numFailedChecks,
          hreport.numFlaps]
      exact ⟨{ hself.toAgree.trans (hreport.trans hself'.toAgree.symm) with },
        hself.observe.trans (hsame.trans hself'.observe.symm)⟩
    · rw [if_neg hno, if_neg hno]
      have hsoft : r₁.softStatus.isUp = r₁'.softStatus.isUp := by
        rw [← hr₁, ← hr₁']
        simp [recordReport, hno]
      have houtcome : AgreeNow (p.recordOutcome rep r₁) (p.recordOutcome rep r₁') :=
        agree_recordOutcome ⟨hreport, hreason, hsoft, hchanged⟩
      generalize p.recordOutcome rep r₁ = r₂ at houtcome ⊢
      generalize p.recordOutcome rep r₁' = r₂' at houtcome ⊢
      have hretries : AgreeNow (p.applyRetries
          { r₂ with softReason := r₂.reason, remoteCheckTime := 0 }) (p.applyRetries
          { r₂' with softReason := r₂'.reason, remoteCheckTime := 0 }) :=
        agree_applyRetries { houtcome with }
      have hflap := agree_flapStatus (agree_countFlap (p := p) rep.start hretries)
      exact ⟨hflap.toAgree, hflap.observe⟩

/-! The flap status is what a restart loses. -/

theorem agree_recordOutcome_frame (r : HMDataCheckResult) :
    Agree (p.recordOutcome rep r) r ∧ (p.recordOutcome rep r).statusChanged = r.statusChanged := by
  have hframe := recordOutcome_frame p rep r
  have hagree : ∀ r : HMDataCheckResult, Agree r.exceptOutcome r :=
    fun r => ⟨rfl, rfl, rfl, rfl, rfl⟩
  refine ⟨(hagree _).symm.trans ?_,
    eq_of_frame HMDataCheckResult.statusChanged hframe fun _ => rfl⟩
  rw [hframe]
  exact hagree r

theorem flap_applyRetries (r : HMDataCheckResult) :
    (p.applyRetries r).numFlaps = r.numFlaps ∧ (p.applyRetries r).flapTime = r.flapTime ∧
      (p.applyRetries r).flapStatus = r.flapStatus ∧
      (p.applyRetries r).statusChanged = r.statusChanged := by
  have hframe := applyRetries_frame p r
  refine ⟨?_, ?_, ?_, ?_⟩
  · exact eq_of_frame HMDataCheckResult.numFlaps hframe fun _ => rfl
  · exact eq_of_frame HMDataCheckResult.flapTime hframe fun _ => rfl
  · exact eq_of_frame HMDataCheckResult.flapStatus hframe fun _ => rfl
  · exact eq_of_frame HMDataCheckResult.statusChanged hframe fun _ => rfl

/-- The flaps that a change of the soft status leads to. -/
def flapsAt (p : CheckParameters) (start : HMTimeStamp) (r : HMDataCheckResult) : UInt32 :=
  if start.minus r.flapTime < p.flapWindow then r.numFlaps + 1 else 0

theorem statusChanged_countFlap (start : HMTimeStamp) (r : HMDataCheckResult) :
    (p.countFlap start r).statusChanged =
      if r.softStatus.isUp != r.flapStatus.isUp then
        r.statusChanged || decide (flapsAt p start r ≤ p.maxFlaps + 1)
      else r.statusChanged := by
  have hdown : ∀ r, (p.markDown r).statusChanged = r.statusChanged :=
    fun r => eq_of_frame HMDataCheckResult.statusChanged (markDown_frame p r) fun _ => rfl
  rw [countFlap, flapsAt]
  by_cases hdiff : (r.softStatus.isUp != r.flapStatus.isUp) = true
  · rw [if_pos hdiff, if_pos hdiff]
    simp only [hdown]
    by_cases hwindow : start.minus r.flapTime < p.flapWindow
    · by_cases hflaps : r.numFlaps + 1 ≤ p.maxFlaps + 1
      · simp [hwindow, hflaps]
      · simp [hwindow, hflaps]
    · simp [hwindow]
  · rw [if_neg hdiff, if_neg hdiff]
    split <;> rfl

/-- A counted report says that the status changed if it differs from the flap status and
there are not too many flaps. -/
theorem statusChanged_updateResult (hcount : outcome p rep ≠ .ignored) (r : HMDataCheckResult) :
    (p.updateResult address rep r).statusChanged =
      (decide (outcome p rep = .success) != r.flapStatus.isUp &&
        decide (flapsAt p rep.start r ≤ p.maxFlaps + 1)) := by
  rcases not_ignored_iff.mp hcount with ⟨hdns, hno⟩
  simp only [updateResult, if_neg hdns, if_neg hno]
  generalize hr₁ : ({ recordReport address rep r with
    numChecks := (recordReport address rep r).numChecks + 1
    checkTime := rep.checkNow } : HMDataCheckResult) = r₁
  have hsoft : (p.recordOutcome rep r₁).softStatus.isUp = decide (outcome p rep = .success) := by
    apply isUp_recordOutcome hcount
    rw [← hr₁]
    simp [recordReport, hno]
  have hframe : Agree (p.recordOutcome rep r₁) r₁ ∧
      (p.recordOutcome rep r₁).statusChanged = r₁.statusChanged := agree_recordOutcome_frame r₁
  generalize p.recordOutcome rep r₁ = r₂ at hsoft hframe ⊢
  have hagree : Agree r₂ r := by
    refine hframe.1.trans ?_
    rw [← hr₁]
    exact ⟨rfl, rfl, rfl, rfl, rfl⟩
  have hchanged : r₂.statusChanged = false := by
    rw [hframe.2, ← hr₁]
    rfl
  obtain ⟨hnumFlaps, hflapTime, hflapStatus, hstatusChanged⟩ := flap_applyRetries (p := p)
    { r₂ with softReason := r₂.reason, remoteCheckTime := 0 }
  have hflaps : flapsAt p rep.start (p.applyRetries
      { r₂ with softReason := r₂.reason, remoteCheckTime := 0 }) = flapsAt p rep.start r := by
    rw [flapsAt, flapsAt, hnumFlaps, hflapTime, minus_eq hagree.flapTime, hagree.numFlaps]
  rw [statusChanged_countFlap, hflaps, hflapStatus, hstatusChanged, softStatus_applyRetries, hsoft,
    hagree.flapStatus, hchanged]
  generalize (decide (outcome p rep = .success) != r.flapStatus.isUp) = differs
  cases differs with
  | true => simp
  | false => simp

/-- A counted report leaves its outcome in the flap status. -/
theorem isUp_flapStatus_updateResult (r : HMDataCheckResult) :
    (p.updateResult address rep r).flapStatus.isUp =
      upAfter r.flapStatus.isUp (outcome p rep) := by
  by_cases hcount : outcome p rep = .ignored
  · rw [hcount]
    simp only [updateResult]
    by_cases hdns : rep.response = .dnsFailed
    · rw [if_pos hdns]
      rfl
    · have hno : rep.reason = .remoteNodata := by
        by_contra hno
        exact not_ignored_iff.mpr ⟨hdns, hno⟩ hcount
      rw [if_neg hdns, if_pos hno]
      exact (agree_recordOutcome_self hno _).flapStatus
  · have hflap : (p.updateResult address rep r).flapStatus =
        (p.updateResult address rep r).softStatus := by
      rcases not_ignored_iff.mp hcount with ⟨hdns, hno⟩
      simp only [updateResult, if_neg hdns, if_neg hno]
    rw [hflap, isUp_updateResult hcount]
    cases hout : outcome p rep with
    | ignored => exact absurd hout hcount
    | success => rfl
    | failure => rfl

theorem isUp_flapStatus_foldl (calls : List CheckCall) (r : HMDataCheckResult) :
    (calls.foldl CheckCall.apply r).flapStatus.isUp =
      calls.foldl (fun up c => upAfter up (outcome c.params c.report)) r.flapStatus.isUp := by
  induction calls generalizing r with
  | nil => rfl
  | cons c calls ih =>
    rw [List.foldl_cons, List.foldl_cons, ih, CheckCall.apply, isUp_flapStatus_updateResult]

theorem isUp_flapStatus_afterCalls (checkTimeout : UInt64) (calls : List CheckCall) :
    (afterCalls checkTimeout calls).flapStatus.isUp = lastUp calls := by
  have hnew : (HMDataCheckResult.new checkTimeout).flapStatus.isUp = false := isUp_none
  rw [afterCalls, isUp_flapStatus_foldl, hnew, lastUp]

/-- The restored copy agrees with a record whose flap status is not up. -/
theorem agree_restored (h : r.flapStatus.isUp = false) : Agree (restored r) r where
  status := rfl
  numFailedChecks := rfl
  numFlaps := rfl
  flapTime := HMTimeStamp.getTimeSinceEpoch_ofUInt64 _
  flapStatus := isUp_none.trans h.symm

/-- A success when the flap window has passed. -/
def laterSuccess (r : HMDataCheckResult) : CheckReport where
  response := .connected
  reason := .success
  start := r.flapTime + 60000
  stop := r.flapTime + 60000
  port := 80
  checkNow := r.flapTime + 60000
  responseNow := r.flapTime + 60000

/-- The copy of a record whose flap status is up takes the next success for a change. -/
theorem observe_laterSuccess (h : r.flapStatus.isUp = true) :
    observe (CheckParameters.default.updateResult address (laterSuccess r) (restored r)) ≠
      observe (CheckParameters.default.updateResult address (laterSuccess r) r) := by
  have hout : outcome .default (laterSuccess r) = .success := by
    have hfast : CheckParameters.default.selectedResponseTime (laterSuccess r) <
        CheckParameters.default.checkTimeout := by
      have hzero : responseTime (laterSuccess r) = 0 := by
        rw [responseTime, laterSuccess, HMTimeStamp.minus, Int.sub_self]
        rfl
      have hselected : CheckParameters.default.selectedResponseTime (laterSuccess r) =
          responseTime (laterSuccess r) := rfl
      rw [hselected, hzero]
      decide
    simp [outcome, laterSuccess] at hfast ⊢
    exact hfast
  have hcount : outcome .default (laterSuccess r) ≠ .ignored := by
    rw [hout]
    decide
  intro heq
  have hchanged := congrArg Observed.statusChanged heq
  simp only [observe] at hchanged
  rw [statusChanged_updateResult hcount, statusChanged_updateResult hcount, hout, h] at hchanged
  have hrestored : (restored r).flapStatus.isUp = false := isUp_none
  have hflaps : flapsAt .default (laterSuccess r).start (restored r) = 0 := by
    have hsame : (restored r).flapTime.getTimeSinceEpoch = r.flapTime.getTimeSinceEpoch :=
      HMTimeStamp.getTimeSinceEpoch_ofUInt64 _
    have hwindow : (laterSuccess r).start.minus r.flapTime = 60000 := by
      have hwindow : r.flapTime + 60000 - r.flapTime = 60000 := by
        rw [Int.add_comm]
        exact Int.add_sub_cancel 60000 r.flapTime
      rw [laterSuccess, HMTimeStamp.minus, hwindow]
      rfl
    rw [flapsAt, minus_eq hsame, hwindow]
    rfl
  rw [hrestored, hflaps] at hchanged
  simp at hchanged

/-- A restart keeps the history of a host just when the last report that said something
about the host was not a success, or there was none. -/
theorem restart_keeps_history_iff (checkTimeout : UInt64) (calls : List CheckCall) :
    (∀ (p : CheckParameters) (address : HMIPAddress) (reps : List CheckReport),
      observations (fun r rep => p.updateResult address rep r) observe
          (restored (afterCalls checkTimeout calls)) reps =
        observations (fun r rep => p.updateResult address rep r) observe
          (afterCalls checkTimeout calls) reps) ↔ lastUp calls = false := by
  rw [← isUp_flapStatus_afterCalls checkTimeout calls]
  constructor
  · intro hsame
    by_contra hup
    have hfirst := hsame .default .unset [laterSuccess (afterCalls checkTimeout calls)]
    rw [Bool.not_eq_false] at hup
    exact observe_laterSuccess hup (List.cons.inj hfirst).1
  · intro hdown p address reps
    exact observations_eq (fun rep h => agree_updateResult rep h) (agree_restored hdown) reps

def upCall : CheckCall :=
  ⟨.default, .v4 1, ⟨.connected, .success, 1000000, 1000005, 80, 1000005, 1000005⟩⟩

/-- A host that came up is restarted, and the next success counts as a flap. -/
theorem restart_counts_flap :
    observations (fun r rep => CheckParameters.default.updateResult (.v4 1) rep r) observe
        (restored (afterCalls 10000 [upCall]))
        [⟨.connected, .success, 1030000, 1030005, 80, 1030005, 1030005⟩] ≠
      observations (fun r rep => CheckParameters.default.updateResult (.v4 1) rep r) observe
        (afterCalls 10000 [upCall])
        [⟨.connected, .success, 1030000, 1030005, 80, 1030005, 1030005⟩] := by
  decide +kernel

end RestartHistory
