import NetCHASM.FlapLaw
import NetCHASM.ResponseTimes
import NetCHASM.RestartHistory

/-! Calls that bring no news. Missing remote data is counted as a check and leaves everything the
decisions on a host depend on alone; a failed lookup is not even counted. -/
namespace RemoteNoData

open NetCHASM Runs CheckParameters RetryLaw FlapLaw ResponseTimes RestartHistory

variable {p : CheckParameters} {address : HMIPAddress} {rep : CheckReport}
  {r r' : HMDataCheckResult}

/-- What the decisions on a host depend on, with the statistics of its response times. -/
@[ext] structure Health where
  status : HostStatus
  softStatus : HostStatus
  numFailedChecks : UInt8
  flaps : FlapView
  statistics : Statistics
  deriving DecidableEq, Repr

def health (r : HMDataCheckResult) : Health :=
  ⟨r.status, r.softStatus, r.numFailedChecks, flapView r, statistics r⟩

theorem softStatus_setResponse : (p.setResponse rep r).softStatus =
    if p.selectedResponseTime rep < p.checkTimeout then r.softStatus ||| hostStatusUp
    else r.softStatus := by
  have hfirst : ∀ rt r, (resetFirstResponse rt r).softStatus = r.softStatus := by
    intro rt r
    unfold resetFirstResponse
    split <;> rfl
  have hstat : ∀ rt r, (updateStatistics rt r).softStatus = r.softStatus := by
    intro rt r
    simp only [updateStatistics]
    repeat' split
    all_goals rfl
  have hslow : ∀ srt r, (p.recordSlowResponse rep srt r).softStatus = r.softStatus := by
    intro srt r
    simp only [recordSlowResponse]
    split <;> rfl
  simp only [setResponse]
  split
  · simp only [hslow, hstat, hfirst]
  · rfl

theorem softStatus_recordOutcome : (p.recordOutcome rep r).softStatus =
    if outcome p rep = .success then r.softStatus ||| hostStatusUp else r.softStatus := by
  simp only [success_iff]
  unfold recordOutcome
  by_cases hconnected : rep.response = .connected
  · rw [if_pos hconnected, softStatus_countUnsuccessful]
    by_cases hsuccess : rep.reason = .success
    · rw [if_pos hsuccess, softStatus_setResponse]
      simp [hconnected, hsuccess]
    · simp [hsuccess]
  · rw [if_neg hconnected, softStatus_countFailure]
    simp [hconnected]

/-- Every report but the one of missing data clears the up flag first. -/
theorem softStatus_updateResult : (p.updateResult address rep r).softStatus =
    let soft := if rep.reason = .remoteNodata then r.softStatus
      else r.softStatus &&& ~~~hostStatusUp
    if outcome p rep = .success then soft ||| hostStatusUp else soft := by
  simp only [updateResult]
  by_cases hdns : rep.response = .dnsFailed
  · have hnot : outcome p rep ≠ .success := by
      rw [outcome, if_pos (Or.inl hdns)]
      decide
    rw [if_pos hdns, if_neg hnot]
    rfl
  · rw [if_neg hdns]
    by_cases hno : rep.reason = .remoteNodata
    · rw [if_pos hno]
      exact softStatus_recordOutcome
    · rw [if_neg hno]
      refine (softStatus_countFlap rep.start).trans (softStatus_applyRetries.trans ?_)
      exact softStatus_recordOutcome

/-- Two records in the same health stay so under the same report. -/
theorem health_congr (p : CheckParameters) (address : HMIPAddress) (rep : CheckReport)
    (h : health r = health r') :
    health (p.updateResult address rep r) = health (p.updateResult address rep r') := by
  obtain ⟨hstatus, hsoft, hfailed, hflaps, hstatistics⟩ := Health.mk.inj h
  obtain ⟨hflapStatus, hnumFlaps, hflapTime⟩ := FlapView.mk.inj hflaps
  have hagree : Agree r r' := ⟨hstatus, hfailed, hnumFlaps, by rw [hflapTime], by rw [hflapStatus]⟩
  have hafter : Agree (p.updateResult address rep r) (p.updateResult address rep r') :=
    (agree_updateResult rep hagree).1
  have hsoft' : (p.updateResult address rep r).softStatus =
      (p.updateResult address rep r').softStatus := by
    rw [softStatus_updateResult, softStatus_updateResult, hsoft]
  apply Health.ext hafter.status hsoft' hafter.numFailedChecks
  · simp only [health, flapView_updateResult, hflaps, hsoft']
  · simp only [health, statistics_updateResult, hstatistics]

/-- Missing remote data leaves the health of a record as it is. -/
theorem health_noData (p : CheckParameters) (address : HMIPAddress)
    (hno : rep.reason = .remoteNodata) (r : HMDataCheckResult) :
    health (p.updateResult address rep r) = health r := by
  have hignored : outcome p rep = .ignored := if_pos (Or.inr hno)
  have hnot : outcome p rep ≠ .success := by
    rw [hignored]
    decide
  have hagree : Agree (p.updateResult address rep r) r := by
    simp only [updateResult]
    by_cases hdns : rep.response = .dnsFailed
    · rw [if_pos hdns]
      exact ⟨rfl, rfl, rfl, rfl, rfl⟩
    · rw [if_neg hdns, if_pos hno]
      exact { (agree_recordOutcome_self hno _).toAgree with }
  apply Health.ext hagree.status _ hagree.numFailedChecks
  · exact (flapView_updateResult p address rep r).trans (if_pos hignored)
  · exact (statistics_updateResult _ _ _ _).trans (if_neg hnot)
  · simp only [health, softStatus_updateResult, if_pos hno, if_neg hnot]

/-- A call of a run, or one that was inserted into it. -/
structure Call extends CheckCall where
  inserted : Bool
  deriving DecidableEq, Repr

def Call.real (c : Call) : Bool := !c.inserted

def Call.next (r : HMDataCheckResult) (c : Call) : HMDataCheckResult := c.toCheckCall.apply r

/-- A host whose remote data is missing for a while is judged on the other results as one whose
data is not. -/
theorem missing_data_transparent (r : HMDataCheckResult) (calls : List Call)
    (hinserted : ∀ c ∈ calls, c.inserted = true → c.report.reason = .remoteNodata) :
    observationsOf Call.real Call.next health r calls =
      observations Call.next health r (calls.filter Call.real) := by
  apply observationsOf_eq_filter
  · intro s t c h
    exact health_congr c.params c.address c.report h
  · intro c hc hhidden s
    have hflag : c.inserted = true := by simpa [Call.real] using hhidden
    exact health_noData c.params c.address (hinserted c hc hflag) s
  · rfl

def successCall (start : HMTimeStamp) : CheckCall :=
  ⟨.default, .v4 1, successAt start⟩

def noDataCall (start : HMTimeStamp) : CheckCall :=
  ⟨.default, .v4 1, ⟨.remoteFailed, .remoteNodata, start, start, 80, start, start⟩⟩

theorem missing_data_between_successes :
    observationsOf Call.real Call.next health (.new 10000)
        [⟨successCall 100000, false⟩, ⟨noDataCall 101000, true⟩, ⟨noDataCall 102000, true⟩,
          ⟨successCall 103000, false⟩] =
      observations Call.next health (.new 10000)
        [⟨successCall 100000, false⟩, ⟨successCall 103000, false⟩] :=
  missing_data_transparent (.new 10000) [⟨successCall 100000, false⟩, ⟨noDataCall 101000, true⟩,
    ⟨noDataCall 102000, true⟩, ⟨successCall 103000, false⟩] (by decide)

/-! The counters of the checks and of what became of them. -/

@[ext] structure Counters where
  numChecks : UInt32
  numResponses : UInt32
  numFailures : UInt32
  numConnectFailures : UInt32
  numTimeouts : UInt32
  deriving DecidableEq, Repr

def counters (r : HMDataCheckResult) : Counters :=
  ⟨r.numChecks, r.numResponses, r.numFailures, r.numConnectFailures, r.numTimeouts⟩

/-- Every check is a response, a failure, a failure to connect or a timeout. -/
def Accounted (c : Counters) : Prop :=
  c.numChecks = c.numResponses + c.numFailures + c.numConnectFailures + c.numTimeouts

/-- A report of a connection or a failed lookup, or one with a reason that is counted. -/
def Reasoned (rep : CheckReport) : Prop :=
  rep.response = .connected ∨ rep.response = .dnsFailed ∨ rep.reason ∈
    [Reason.connectFailure, .responseFailure, .connectTimeout, .internalError, .remoteNodata]

instance (rep : CheckReport) : Decidable (Reasoned rep) := inferInstanceAs (Decidable (_ ∨ _ ∨ _))

/-- What a check that is not a success is counted as. -/
def Counters.fail (connected : Bool) (reason : Reason) (c : Counters) : Counters :=
  if connected then { c with numFailures := c.numFailures + 1 }
  else
    match reason with
    | .connectFailure | .internalError | .remoteNodata =>
      { c with numConnectFailures := c.numConnectFailures + 1 }
    | .responseFailure => { c with numFailures := c.numFailures + 1 }
    | .connectTimeout => { c with numTimeouts := c.numTimeouts + 1 }
    | _ => c

theorem counters_setResponse : counters (p.setResponse rep r) =
    if p.selectedResponseTime rep < p.checkTimeout then
      { counters r with numResponses := r.numResponses + 1 }
    else counters r := by
  by_cases haccepted : p.selectedResponseTime rep < p.checkTimeout
  · simp only [setResponse, recordSlowResponse, updateStatistics, resetFirstResponse,
      if_pos haccepted]
    repeat' split
    all_goals rfl
  · rw [if_neg haccepted]
    simp only [setResponse, if_neg haccepted]
    rfl

/-- A check is counted as a response or as the failure its report stands for; a response that
came too late is turned into a failure. -/
theorem counters_recordOutcome (hreason : r.reason = rep.reason) :
    counters (p.recordOutcome rep r) =
      if outcome p rep = .success then { counters r with numResponses := r.numResponses + 1 }
      else (counters r).fail (decide (rep.response = .connected)) rep.reason := by
  have hunsuccessful : ∀ r, r.reason ≠ .success →
      counters (countUnsuccessful r) = (counters r).fail true rep.reason := by
    intro r hne
    rw [countUnsuccessful, if_pos hne]
    rfl
  simp only [success_iff]
  unfold recordOutcome
  by_cases hconnected : rep.response = .connected
  · rw [if_pos hconnected, decide_eq_true hconnected]
    by_cases hsuccess : rep.reason = .success
    · rw [if_pos hsuccess]
      by_cases haccepted : p.selectedResponseTime rep < p.checkTimeout
      · have hdone : (p.setResponse rep r).reason = .success := by
          rw [reason_setResponse, if_pos haccepted]
        rw [countUnsuccessful, if_neg (not_not.mpr hdone), counters_setResponse,
          if_pos haccepted, if_pos ⟨⟨hconnected, hsuccess⟩, haccepted⟩]
      · have hlate : (p.setResponse rep r).reason ≠ .success := by
          rw [reason_setResponse, if_neg haccepted]
          decide
        rw [hunsuccessful _ hlate, counters_setResponse, if_neg haccepted,
          if_neg fun hall => haccepted hall.2]
    · rw [if_neg hsuccess, hunsuccessful r (hreason ▸ hsuccess),
        if_neg fun hall => hsuccess hall.1.2]
  · rw [if_neg hconnected, decide_eq_false hconnected, if_neg fun hall => hconnected hall.1.1]
    cases rep.reason <;> rfl

theorem counters_applyRetries : counters (p.applyRetries r) = counters r :=
  eq_of_frame counters (applyRetries_frame p r) fun _ => rfl

theorem counters_countFlap (start : HMTimeStamp) :
    counters (p.countFlap start r) = counters r :=
  eq_of_frame counters (countFlap_frame p start r) fun _ => rfl

theorem counters_updateResult : counters (p.updateResult address rep r) =
    if rep.response = .dnsFailed then counters r
    else if outcome p rep = .success then
      { counters r with numChecks := r.numChecks + 1, numResponses := r.numResponses + 1 }
    else ({ counters r with numChecks := r.numChecks + 1 } : Counters).fail
      (decide (rep.response = .connected)) rep.reason := by
  simp only [updateResult]
  by_cases hdns : rep.response = .dnsFailed
  · rw [if_pos hdns, if_pos hdns]
    rfl
  · rw [if_neg hdns, if_neg hdns]
    split
    · exact counters_recordOutcome rfl
    · refine (counters_countFlap rep.start).trans (counters_applyRetries.trans ?_)
      exact counters_recordOutcome rfl

theorem accounted_fail {c : Counters} {connected : Bool} {reason : Reason} (h : Accounted c)
    (hreason : connected = true ∨ reason ∈
      [Reason.connectFailure, .responseFailure, .connectTimeout, .internalError, .remoteNodata]) :
    Accounted (({ c with numChecks := c.numChecks + 1 } : Counters).fail connected reason) := by
  simp only [Accounted] at h
  cases connected with
  | true =>
    simp only [Counters.fail, if_true, Accounted, h]
    grind
  | false =>
    have hmem := hreason.resolve_left Bool.false_ne_true
    simp only [List.mem_cons, List.not_mem_nil, or_false] at hmem
    rcases hmem with rfl | rfl | rfl | rfl | rfl
    all_goals
      simp only [Counters.fail, Bool.false_eq_true, if_false, Accounted, h]
      grind

/-- A call whose reason is counted keeps the account. -/
theorem accounted_apply (c : CheckCall) (hreasoned : Reasoned c.report)
    (h : Accounted (counters r)) : Accounted (counters (c.apply r)) := by
  rw [CheckCall.apply, counters_updateResult]
  by_cases hdns : c.report.response = .dnsFailed
  · rw [if_pos hdns]
    exact h
  · rw [if_neg hdns]
    split
    · simp only [Accounted, counters] at h ⊢
      grind
    · apply accounted_fail h
      rcases hreasoned with hconnected | hfailed | hmem
      · exact Or.inl (decide_eq_true hconnected)
      · exact absurd hfailed hdns
      · exact Or.inr hmem

/-- After any calls whose reasons are counted the checks are accounted for, and a failed lookup
is not counted. -/
theorem checks_accounted (checkTimeout : UInt64) (calls : List CheckCall)
    (hreasoned : ∀ c ∈ calls, Reasoned c.report) :
    Accounted (counters (afterCalls checkTimeout calls)) ∧
      ∀ c : CheckCall, c.report.response = .dnsFailed →
        counters (c.apply (afterCalls checkTimeout calls)) =
          counters (afterCalls checkTimeout calls) := by
  constructor
  · have hinit : Accounted (counters (.new checkTimeout)) := rfl
    exact List.foldlRecOn (motive := fun r => Accounted (counters r)) calls CheckCall.apply hinit
      fun r h c hc => accounted_apply c (hreasoned c hc) h
  · intro c hdns
    rw [CheckCall.apply, counters_updateResult, if_pos hdns]

theorem late_response_accounted :
    let late : CheckReport := ⟨.connected, .success, 200000, 290000, 80, 290000, 290000⟩
    Accounted (counters (afterCalls 60000
      [successCall 100000, noDataCall 101000, ⟨.default, .v4 1, late⟩])) ∧
      ∀ c : CheckCall, c.report.response = .dnsFailed →
        counters (c.apply (afterCalls 60000
            [successCall 100000, noDataCall 101000, ⟨.default, .v4 1, late⟩])) =
          counters (afterCalls 60000
            [successCall 100000, noDataCall 101000, ⟨.default, .v4 1, late⟩]) :=
  checks_accounted 60000 [successCall 100000, noDataCall 101000,
    ⟨.default, .v4 1, .connected, .success, 200000, 290000, 80, 290000, 290000⟩] (by decide)

end RemoteNoData
