import NetCHASM.BaseTypes

/-! Health-check results and the parameters that decide how a result is updated.
Every reading of the clock inside an operation is an argument of its own. Host
names and host-group names that only reach log lines are left out. -/
namespace NetCHASM

open KeyOrder OrderedMap

structure HMDataCheckResult where
  address : HMIPAddress
  start : HMTimeStamp
  stop : HMTimeStamp
  responseTime : UInt32
  totalResponseTime : UInt32
  minResponseTime : UInt32
  maxResponseTime : UInt32
  smoothedResponseTime : UInt32
  sumResponseTime : UInt64
  numChecks : UInt32
  numResponses : UInt32
  numConnectFailures : UInt32
  numFailures : UInt32
  numTimeouts : UInt32
  numFlaps : UInt32
  status : HostStatus
  softStatus : HostStatus
  flapStatus : HostStatus
  response : Response
  reason : Reason
  softReason : Reason
  numFailedChecks : UInt8
  numSlowResponses : UInt8
  port : UInt16
  changeTime : HMTimeStamp
  flapTime : HMTimeStamp
  forceHostDown : Bool
  queueCheckTime : HMTimeStamp
  checkTime : HMTimeStamp
  queryState : WorkState
  remoteCheckTime : HMTimeStamp
  statusChanged : Bool
  deriving DecidableEq, Repr

namespace HMDataCheckResult

/-- The constructor from a check timeout; the default constructor passes zero. -/
def new (checkTimeout : UInt64) : HMDataCheckResult where
  address := .unset
  start := 0
  stop := 0
  responseTime := checkTimeout.toUInt32
  totalResponseTime := checkTimeout.toUInt32
  minResponseTime := checkTimeout.toUInt32
  maxResponseTime := checkTimeout.toUInt32
  smoothedResponseTime := checkTimeout.toUInt32
  sumResponseTime := 0
  numChecks := 0
  numResponses := 0
  numConnectFailures := 0
  numFailures := 0
  numTimeouts := 0
  numFlaps := 0
  status := hostStatusNone
  softStatus := hostStatusNone
  flapStatus := hostStatusNone
  response := .none
  reason := .none
  softReason := .none
  numFailedChecks := 0
  numSlowResponses := 0
  port := 0
  changeTime := 0
  flapTime := 0
  forceHostDown := false
  queueCheckTime := 0
  checkTime := 0
  queryState := .inactive
  remoteCheckTime := 0
  statusChanged := false

/-- A record without what a response writes. -/
def exceptResponse (r : HMDataCheckResult) : HMDataCheckResult :=
  { r with
    responseTime := 0
    totalResponseTime := 0
    minResponseTime := 0
    maxResponseTime := 0
    smoothedResponseTime := 0
    sumResponseTime := 0
    numResponses := 0
    numSlowResponses := 0
    softStatus := 0
    reason := .success }

/-- A record without what the outcome of a check writes. -/
def exceptOutcome (r : HMDataCheckResult) : HMDataCheckResult :=
  { r.exceptResponse with numConnectFailures := 0, numFailures := 0, numTimeouts := 0 }

/-- A record without what the retries write. -/
def exceptRetries (r : HMDataCheckResult) : HMDataCheckResult :=
  { r with status := 0, numFailedChecks := 0, reason := .success }

/-- A record without what a change of the soft status writes. -/
def exceptFlaps (r : HMDataCheckResult) : HMDataCheckResult :=
  { r.exceptRetries with numFlaps := 0, flapTime := 0, changeTime := 0, statusChanged := false }

end HMDataCheckResult

/-- The configured part of the check parameters, which alone orders and compares them. -/
structure CheckParameters where
  numCheckRetries : UInt8
  checkRetryDelay : UInt32
  measurementOptions : MeasurementOptions
  smoothingWindow : UInt32
  groupThreshold : UInt32
  slowThreshold : UInt32
  maxFlaps : UInt32
  checkTimeout : UInt64
  checkTTL : UInt64
  flapThreshold : UInt32
  passthroughInfo : UInt32
  deriving DecidableEq, Repr

namespace CheckParameters

def default : CheckParameters where
  numCheckRetries := 0
  checkRetryDelay := 0
  measurementOptions := rtConnect
  smoothingWindow := defaultSmoothingWindow
  groupThreshold := defaultGroupThreshold
  slowThreshold := defaultSlowThreshold
  maxFlaps := defaultMaxFlaps
  checkTimeout := defaultCheckTimeout
  checkTTL := defaultTtl
  flapThreshold := defaultFlapThreshold
  passthroughInfo := 0

/-- A smoothing window of zero is replaced by the default. -/
def setCheckParameters (p : CheckParameters) : CheckParameters :=
  { p with
    smoothingWindow := if p.smoothingWindow = 0 then defaultSmoothingWindow else p.smoothingWindow }

end CheckParameters

/-- A result delivered by a worker, with the two readings of the clock that applying it makes. -/
structure CheckReport where
  response : Response
  reason : Reason
  start : HMTimeStamp
  stop : HMTimeStamp
  port : UInt16
  checkNow : HMTimeStamp
  responseNow : HMTimeStamp
  deriving DecidableEq, Repr

namespace CheckParameters

def responseTime (rep : CheckReport) : UInt64 := rep.stop.minus rep.start

def totalResponseTime (rep : CheckReport) : UInt64 := rep.responseNow.minus rep.start

/-- The response time the measurement options select for the timeout test. -/
def selectedResponseTime (p : CheckParameters) (rep : CheckReport) : UInt64 :=
  let rtmode : UInt8 := (p.measurementOptions &&& rtBits).toUInt8
  if rtmode = rtConnect.toUInt8 ∨ rtmode = rtSmoothedConnect.toUInt8 then responseTime rep
  else totalResponseTime rep

/-- A first response discards the timeout the record was created with. -/
def resetFirstResponse (rt : UInt64) (r : HMDataCheckResult) : HMDataCheckResult :=
  if r.numResponses = 0 then { r with smoothedResponseTime := 0, maxResponseTime := rt.toUInt32 }
  else r

def smooth (p : CheckParameters) (srt : UInt64) (r : HMDataCheckResult) : UInt64 :=
  if r.smoothedResponseTime ≠ 0 then
    (srt + (r.smoothedResponseTime * (p.smoothingWindow - 1)).toUInt64) /
      p.smoothingWindow.toUInt64
  else srt

def updateStatistics (rt : UInt64) (r : HMDataCheckResult) : HMDataCheckResult :=
  let r := { r with
    reason := .success
    numResponses := r.numResponses + 1
    sumResponseTime := r.sumResponseTime + rt }
  let r :=
    if r.minResponseTime = 0 ∨ rt < r.minResponseTime.toUInt64 then
      { r with minResponseTime := rt.toUInt32 }
    else r
  if r.maxResponseTime.toUInt64 < rt then { r with maxResponseTime := rt.toUInt32 } else r

def effectiveSlowThreshold (p : CheckParameters) : UInt32 :=
  if p.slowThreshold < p.groupThreshold then p.groupThreshold else p.slowThreshold

/-- A slow response is counted whether or not it is still skipped. -/
def recordSlowResponse (p : CheckParameters) (rep : CheckReport) (srt : UInt64)
    (r : HMDataCheckResult) : HMDataCheckResult :=
  let rt := responseTime rep
  let slow := decide (0 < p.numCheckRetries) && decide (r.smoothedResponseTime ≠ 0) &&
    decide ((r.smoothedResponseTime + p.effectiveSlowThreshold).toUInt64 ≤ rt)
  let count := r.numSlowResponses + 1
  if slow && decide (count ≤ p.numCheckRetries) then { r with numSlowResponses := count }
  else
    { r with
      numSlowResponses := 0
      totalResponseTime := (totalResponseTime rep).toUInt32
      responseTime := rt.toUInt32
      smoothedResponseTime := srt.toUInt32 }

def setResponse (p : CheckParameters) (rep : CheckReport) (r : HMDataCheckResult) :
    HMDataCheckResult :=
  let srt := p.selectedResponseTime rep
  if srt < p.checkTimeout then
    let r := resetFirstResponse (responseTime rep) r
    let srt := p.smooth srt r
    let r := updateStatistics (responseTime rep) r
    let r := p.recordSlowResponse rep srt r
    { r with softStatus := r.softStatus ||| hostStatusUp }
  else { r with reason := .responseTimeout }

/-- The fields every report overwrites. -/
def recordReport (address : HMIPAddress) (rep : CheckReport) (r : HMDataCheckResult) :
    HMDataCheckResult :=
  { r with
    softStatus :=
      if rep.reason = .remoteNodata then r.softStatus else r.softStatus &&& ~~~hostStatusUp
    statusChanged := false
    address := address
    response := rep.response
    reason := rep.reason
    start := rep.start
    stop := rep.stop
    port := rep.port
    queryState := .inactive }

def countFailure (reason : Reason) (r : HMDataCheckResult) : HMDataCheckResult :=
  match reason with
  | .connectFailure | .internalError | .remoteNodata =>
    { r with numConnectFailures := r.numConnectFailures + 1 }
  | .responseFailure => { r with numFailures := r.numFailures + 1 }
  | .connectTimeout => { r with numTimeouts := r.numTimeouts + 1 }
  | _ => r

def countUnsuccessful (r : HMDataCheckResult) : HMDataCheckResult :=
  if r.reason ≠ .success then { r with numFailures := r.numFailures + 1 } else r

def recordOutcome (p : CheckParameters) (rep : CheckReport) (r : HMDataCheckResult) :
    HMDataCheckResult :=
  if rep.response = .connected then
    countUnsuccessful (if rep.reason = .success then p.setResponse rep r else r)
  else countFailure rep.reason r

/-- A failed check of a host that is up is counted, and forgiven while retries remain. -/
def failedOnRetry (p : CheckParameters) (r : HMDataCheckResult) : HMDataCheckResult :=
  if r.status.isUp && !r.softStatus.isUp then
    let r := { r with numFailedChecks := r.numFailedChecks + 1 }
    if r.numFailedChecks ≤ p.numCheckRetries then { r with reason := .success } else r
  else r

def successful (r : HMDataCheckResult) : HMDataCheckResult :=
  if r.softStatus.isUp then { r with status := r.status ||| hostStatusUp } else r

def successfulOnRetry (r : HMDataCheckResult) : HMDataCheckResult :=
  if !r.status.isUp && r.softStatus.isUp && decide (0 < r.numFailedChecks) then
    { r with numFailedChecks := 0 }
  else r

def markDown (p : CheckParameters) (r : HMDataCheckResult) : HMDataCheckResult :=
  if p.numCheckRetries < r.numFailedChecks then
    { r with status := r.status &&& ~~~hostStatusUp, numFailedChecks := 0 }
  else r

def flapWindow (p : CheckParameters) : UInt64 :=
  if p.flapThreshold ≠ 0 then p.flapThreshold.toUInt64 else defaultFlapThreshold.toUInt64

def countFlap (p : CheckParameters) (start : HMTimeStamp) (r : HMDataCheckResult) :
    HMDataCheckResult :=
  if r.softStatus.isUp != r.flapStatus.isUp then
    let r :=
      if start.minus r.flapTime < p.flapWindow then { r with numFlaps := r.numFlaps + 1 }
      else { r with numFlaps := 0 }
    let r := if r.numFlaps ≤ p.maxFlaps + 1 then { r with statusChanged := true } else r
    p.markDown { r with flapTime := start, changeTime := start }
  else if p.flapWindow ≤ start.minus r.flapTime then { r with numFlaps := 0 }
  else r

def applyRetries (p : CheckParameters) (r : HMDataCheckResult) : HMDataCheckResult :=
  p.markDown (successfulOnRetry (successful (p.failedOnRetry r)))

/-- The update of one stored result by a report. -/
def updateResult (p : CheckParameters) (address : HMIPAddress) (rep : CheckReport)
    (r : HMDataCheckResult) : HMDataCheckResult :=
  let r := recordReport address rep r
  if rep.response = .dnsFailed then { r with checkTime := rep.start }
  else
    let r := { r with numChecks := r.numChecks + 1, checkTime := rep.checkNow }
    let r := p.recordOutcome rep r
    let r := { r with softReason := r.reason }
    if rep.reason = .remoteNodata then r
    else
      let r := p.applyRetries { r with remoteCheckTime := 0 }
      let r := p.countFlap rep.start r
      { r with flapStatus := r.softStatus }

/-! What a step leaves alone: with the fields it writes taken out, the record is the same. -/

/-- A view that does not read what is taken out does not change. -/
theorem eq_of_frame {α : Type} {without : HMDataCheckResult → HMDataCheckResult}
    {r r' : HMDataCheckResult} (f : HMDataCheckResult → α) (hframe : without r = without r')
    (hf : ∀ r, f (without r) = f r) : f r = f r' := by
  rw [← hf r, hframe, hf r']

theorem setResponse_frame (p : CheckParameters) (rep : CheckReport) (r : HMDataCheckResult) :
    (p.setResponse rep r).exceptResponse = r.exceptResponse := by
  have hfirst : (resetFirstResponse (responseTime rep) r).exceptResponse = r.exceptResponse := by
    unfold resetFirstResponse
    split <;> rfl
  have hstat : ∀ rt r, (updateStatistics rt r).exceptResponse = r.exceptResponse := by
    intro rt r
    unfold updateStatistics
    dsimp only
    repeat' split
    all_goals rfl
  have hslow : ∀ srt r, (p.recordSlowResponse rep srt r).exceptResponse = r.exceptResponse := by
    intro srt r
    unfold recordSlowResponse
    dsimp only
    split <;> rfl
  unfold setResponse
  dsimp only
  split
  · exact (hslow _ _).trans ((hstat _ _).trans hfirst)
  · rfl

theorem recordOutcome_frame (p : CheckParameters) (rep : CheckReport) (r : HMDataCheckResult) :
    (p.recordOutcome rep r).exceptOutcome = r.exceptOutcome := by
  have hcount : ∀ r, (countUnsuccessful r).exceptOutcome = r.exceptOutcome := by
    intro r
    unfold countUnsuccessful
    split <;> rfl
  unfold recordOutcome
  split
  · rw [hcount]
    split
    · rw [HMDataCheckResult.exceptOutcome, setResponse_frame, HMDataCheckResult.exceptOutcome]
    · rfl
  · cases rep.reason <;> rfl

theorem markDown_frame (p : CheckParameters) (r : HMDataCheckResult) :
    (p.markDown r).exceptRetries = r.exceptRetries := by
  unfold markDown
  split <;> rfl

theorem applyRetries_frame (p : CheckParameters) (r : HMDataCheckResult) :
    (p.applyRetries r).exceptRetries = r.exceptRetries := by
  have hretry : ∀ r, (successfulOnRetry r).exceptRetries = r.exceptRetries := by
    intro r
    unfold successfulOnRetry
    split <;> rfl
  have hsuccess : ∀ r, (successful r).exceptRetries = r.exceptRetries := by
    intro r
    unfold successful
    split <;> rfl
  have hfailed : (p.failedOnRetry r).exceptRetries = r.exceptRetries := by
    unfold failedOnRetry
    dsimp only
    repeat' split
    all_goals rfl
  rw [applyRetries, markDown_frame, hretry, hsuccess, hfailed]

theorem countFlap_frame (p : CheckParameters) (start : HMTimeStamp) (r : HMDataCheckResult) :
    (p.countFlap start r).exceptFlaps = r.exceptFlaps := by
  unfold countFlap
  dsimp only
  split
  · rw [HMDataCheckResult.exceptFlaps, markDown_frame]
    repeat' split
    all_goals rfl
  · split <;> rfl

@[simp] theorem recordOutcome_checkTime (p : CheckParameters) (rep : CheckReport)
    (r : HMDataCheckResult) : (p.recordOutcome rep r).checkTime = r.checkTime :=
  eq_of_frame HMDataCheckResult.checkTime (recordOutcome_frame p rep r) fun _ => rfl

@[simp] theorem applyRetries_checkTime (p : CheckParameters) (r : HMDataCheckResult) :
    (p.applyRetries r).checkTime = r.checkTime :=
  eq_of_frame HMDataCheckResult.checkTime (applyRetries_frame p r) fun _ => rfl

@[simp] theorem countFlap_checkTime (p : CheckParameters) (start : HMTimeStamp)
    (r : HMDataCheckResult) : (p.countFlap start r).checkTime = r.checkTime :=
  eq_of_frame HMDataCheckResult.checkTime (countFlap_frame p start r) fun _ => rfl

/-- A report stamps the result with the clock, or with its own start after a failed lookup. -/
theorem updateResult_checkTime (p : CheckParameters) (address : HMIPAddress) (rep : CheckReport)
    (r : HMDataCheckResult) : (p.updateResult address rep r).checkTime =
      if rep.response = .dnsFailed then rep.start else rep.checkNow := by
  unfold updateResult
  dsimp only
  split
  · rfl
  · split <;> simp

end CheckParameters

structure HMDataCheckParams extends CheckParameters where
  checkData : SortedMap HMIPAddress HMDataCheckResult
  hostGroups : List HMString
  deriving DecidableEq, Repr

namespace HMDataCheckParams

/-- Parameters as they enter a check list: no results and no groups yet. -/
def ofParameters (p : CheckParameters) : HMDataCheckParams := ⟨p, ∅, []⟩

def addHostGroup (p : HMDataCheckParams) (name : HMString) : HMDataCheckParams :=
  { p with hostGroups := p.hostGroups ++ [name] }

def nextCheckTime (p : HMDataCheckParams) (address : HMIPAddress) (now : HMTimeStamp) :
    HMTimeStamp :=
  match p.checkData.get? address with
  | none => now
  | some r =>
    if r.queryState = .inactive ∨ r.queryState = .failed then
      if r.checkTime.plus p.checkTTL < now then now
      else if 0 < r.numSlowResponses ∨
          (!r.softStatus.isUp && r.status.isUp && decide (r.numFailedChecks ≤ p.numCheckRetries))
      then r.checkTime.plus p.checkRetryDelay.toUInt64
      else r.checkTime.plus p.checkTTL
    else now.plus HMTimeStamp.hourInMs

def queueQuerry (p : HMDataCheckParams) (address : HMIPAddress) : HMDataCheckParams :=
  { p with
    checkData := (p.checkData.insert address (.new p.checkTimeout)).modify address
      (fun r => { r with queryState := .queued }) }

def emptyQuery (p : HMDataCheckParams) (address : HMIPAddress) : HMDataCheckParams :=
  { p with
    checkData := (p.checkData.insert address (.new p.checkTimeout)).modify address
      (fun r => { r with queryState := .inactive }) }

def startQuery (p : HMDataCheckParams) (address : HMIPAddress) (now : HMTimeStamp) :
    HMDataCheckParams :=
  { p with
    checkData := p.checkData.modify address
      (fun r => { r with checkTime := now, queryState := .inProgress }) }

def isValidIP (p : HMDataCheckParams) (address : HMIPAddress) : Bool :=
  p.checkData.contains address

def getQueryState (p : HMDataCheckParams) (address : HMIPAddress) : WorkState :=
  ((p.checkData.get? address).map fun r => r.queryState).getD .inactive

def getCheckResult (p : HMDataCheckParams) (address : HMIPAddress) : Option HMDataCheckResult :=
  p.checkData.get? address

/-- Merge a whole result: an existing one is replaced when it is older or on request. -/
def updateCheckResult (p : HMDataCheckParams) (address : HMIPAddress) (result : HMDataCheckResult)
    (forceReplace : Bool) : HMDataCheckParams :=
  match p.checkData.get? address with
  | none => { p with checkData := p.checkData.insert address result }
  | some r =>
    if forceReplace || decide (r.checkTime < result.checkTime) then
      { p with checkData := (p.checkData.erase address).insert address result }
    else p

/-- Apply a worker's report; an address that is not stored is ignored. -/
def updateCheck (p : HMDataCheckParams) (address : HMIPAddress) (rep : CheckReport) :
    HMDataCheckParams :=
  { p with
    checkData := p.checkData.modify address (p.toCheckParameters.updateResult address rep) }

def invalidateResult (p : HMDataCheckParams) (address : HMIPAddress) : HMDataCheckParams :=
  { p with checkData := p.checkData.erase address }

def getAddresses (p : HMDataCheckParams) (dualstack : DualStack) : SortedSet HMIPAddress :=
  SortedSet.insertAll ∅ (p.checkData.keys.filter fun a =>
    (dualstack.hasIpv6 && a.getType == afInet6) || (dualstack.hasIpv4 && a.getType == afInet))

theorem isValidIP_eq (p : HMDataCheckParams) (a : HMIPAddress) :
    p.isValidIP a = (p.getCheckResult a).isSome :=
  SortedMap.contains_eq _ _

theorem isValidIP_queueQuerry (p : HMDataCheckParams) (ip a : HMIPAddress) :
    (p.queueQuerry ip).isValidIP a = (p.isValidIP a || eqv ip a) := by
  rw [isValidIP, queueQuerry, SortedMap.contains_modify, SortedMap.contains_insert, Bool.or_comm]
  rfl

@[simp] theorem isValidIP_emptyQuery (p : HMDataCheckParams) (ip a : HMIPAddress) :
    (p.emptyQuery ip).isValidIP a = (p.isValidIP a || eqv ip a) := by
  rw [isValidIP, emptyQuery, SortedMap.contains_modify, SortedMap.contains_insert, Bool.or_comm]
  rfl

@[simp] theorem isValidIP_startQuery (p : HMDataCheckParams) (ip a : HMIPAddress)
    (now : HMTimeStamp) : (p.startQuery ip now).isValidIP a = p.isValidIP a :=
  SortedMap.contains_modify _ _ _ _

@[simp] theorem isValidIP_updateCheck (p : HMDataCheckParams) (ip a : HMIPAddress)
    (rep : CheckReport) : (p.updateCheck ip rep).isValidIP a = p.isValidIP a :=
  SortedMap.contains_modify _ _ _ _

@[simp] theorem isValidIP_invalidateResult (p : HMDataCheckParams) (ip a : HMIPAddress) :
    (p.invalidateResult ip).isValidIP a = (p.isValidIP a && !eqv ip a) :=
  SortedMap.contains_erase _ _ _

theorem getCheckResult_updateCheck (p : HMDataCheckParams) (address : HMIPAddress)
    (rep : CheckReport) : (p.updateCheck address rep).getCheckResult address =
      (p.getCheckResult address).map (p.toCheckParameters.updateResult address rep) := by
  simp [updateCheck, getCheckResult, SortedMap.get?_modify]

theorem getCheckResult_updateCheckResult (p : HMDataCheckParams) (address address' : HMIPAddress)
    (result : HMDataCheckResult) (force : Bool) :
    (p.updateCheckResult address result force).getCheckResult address' =
      if eqv address address' then
        match p.getCheckResult address with
        | none => some result
        | some r => some (if force || decide (r.checkTime < result.checkTime) then result else r)
      else p.getCheckResult address' := by
  unfold updateCheckResult getCheckResult
  cases hr : p.checkData.get? address with
  | none => simp [SortedMap.get?_insert, hr]
  | some r =>
    by_cases hk : eqv address address' = true
    · by_cases hc : (force || decide (r.checkTime < result.checkTime)) = true
      · simp [hc, hk, SortedMap.get?_insert, SortedMap.get?_erase]
      · simp [hc, hk, ← SortedMap.get?_congr p.checkData hk, hr]
    · by_cases hc : (force || decide (r.checkTime < result.checkTime)) = true
      · simp [hc, hk, SortedMap.get?_insert, SortedMap.get?_erase]
      · simp [hc, hk]

theorem getCheckResult_replace (p : HMDataCheckParams) (address address' : HMIPAddress)
    (result : HMDataCheckResult) :
    (p.updateCheckResult address result true).getCheckResult address' =
      if address = address' then some result else p.getCheckResult address' := by
  rw [getCheckResult_updateCheckResult]
  simp only [eqv_iff_eq]
  cases p.getCheckResult address <;> rfl

@[simp] theorem updateCheckResult_toCheckParameters (p : HMDataCheckParams) (address : HMIPAddress)
    (result : HMDataCheckResult) (force : Bool) :
    (p.updateCheckResult address result force).toCheckParameters = p.toCheckParameters := by
  unfold updateCheckResult
  split
  · rfl
  · split <;> rfl

end HMDataCheckParams

end NetCHASM
