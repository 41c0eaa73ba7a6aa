import NetCHASM.RetryLaw

/-! What the responses of a host add up to. The statistics of a record change with the responses
that are accepted and with nothing else; the automaton below is all that such a response does to
them, and the model of the update refines it. -/
namespace ResponseTimes

open NetCHASM Runs CheckParameters RetryLaw

@[ext] structure Statistics where
  responseTime : UInt32
  totalResponseTime : UInt32
  minResponseTime : UInt32
  maxResponseTime : UInt32
  smoothedResponseTime : UInt32
  sumResponseTime : UInt64
  numResponses : UInt32
  numSlowResponses : UInt8
  deriving DecidableEq, Repr

def statistics (r : HMDataCheckResult) : Statistics :=
  ⟨r.responseTime, r.totalResponseTime, r.minResponseTime, r.maxResponseTime,
    r.smoothedResponseTime, r.sumResponseTime, r.numResponses, r.numSlowResponses⟩

namespace Statistics

/-- A first response discards what the record was created with. -/
def first (rt : UInt64) (s : Statistics) : Statistics :=
  if s.numResponses = 0 then { s with smoothedResponseTime := 0, maxResponseTime := rt.toUInt32 }
  else s

def count (rt : UInt64) (s : Statistics) : Statistics :=
  { s with
    numResponses := s.numResponses + 1
    sumResponseTime := s.sumResponseTime + rt
    minResponseTime :=
      if s.minResponseTime = 0 ∨ rt < s.minResponseTime.toUInt64 then rt.toUInt32
      else s.minResponseTime
    maxResponseTime :=
      if s.maxResponseTime.toUInt64 < rt then rt.toUInt32 else s.maxResponseTime }

/-- The response is slow and may be skipped once more. -/
def skips (p : CheckParameters) (rep : CheckReport) (s : Statistics) : Bool :=
  decide (0 < p.numCheckRetries) && decide (s.smoothedResponseTime ≠ 0) &&
    decide ((s.smoothedResponseTime + p.effectiveSlowThreshold).toUInt64 ≤
      CheckParameters.responseTime rep) &&
    decide (s.numSlowResponses + 1 ≤ p.numCheckRetries)

def smoothed (p : CheckParameters) (rep : CheckReport) (s : Statistics) : UInt64 :=
  if s.smoothedResponseTime ≠ 0 then
    (p.selectedResponseTime rep + (s.smoothedResponseTime * (p.smoothingWindow - 1)).toUInt64) /
      p.smoothingWindow.toUInt64
  else p.selectedResponseTime rep

/-- The times of the response replace those of the last one that was recorded. -/
def record (p : CheckParameters) (rep : CheckReport) (s : Statistics) : Statistics :=
  { s.count (CheckParameters.responseTime rep) with
    numSlowResponses := 0
    totalResponseTime := (CheckParameters.totalResponseTime rep).toUInt32
    responseTime := (CheckParameters.responseTime rep).toUInt32
    smoothedResponseTime := (s.smoothed p rep).toUInt32 }

/-- An accepted response is counted, and recorded unless it is skipped. -/
def respond (p : CheckParameters) (rep : CheckReport) (s : Statistics) : Statistics :=
  let s := s.first (CheckParameters.responseTime rep)
  if s.skips p rep then
    { s.count (CheckParameters.responseTime rep) with
      numSlowResponses := s.numSlowResponses + 1 }
  else s.record p rep

end Statistics

variable {p : CheckParameters} {address : HMIPAddress} {rep : CheckReport}
  {r : HMDataCheckResult}

theorem statistics_resetFirstResponse (rt : UInt64) :
    statistics (resetFirstResponse rt r) = (statistics r).first rt := by
  unfold resetFirstResponse
  split
  · rename_i hfirst
    exact (if_pos hfirst).symm
  · rename_i hfirst
    exact (if_neg hfirst).symm

theorem statistics_updateStatistics (rt : UInt64) :
    statistics (updateStatistics rt r) = (statistics r).count rt := by
  by_cases hmin : r.minResponseTime = 0 ∨ rt < r.minResponseTime.toUInt64
  · by_cases hmax : r.maxResponseTime.toUInt64 < rt
    · simp only [updateStatistics, if_pos hmin, if_pos hmax]
      exact Statistics.ext rfl rfl (if_pos hmin).symm (if_pos hmax).symm rfl rfl rfl rfl
    · simp only [updateStatistics, if_pos hmin, if_neg hmax]
      exact Statistics.ext rfl rfl (if_pos hmin).symm (if_neg hmax).symm rfl rfl rfl rfl
  · by_cases hmax : r.maxResponseTime.toUInt64 < rt
    · simp only [updateStatistics, if_neg hmin, if_pos hmax]
      exact Statistics.ext rfl rfl (if_neg hmin).symm (if_pos hmax).symm rfl rfl rfl rfl
    · simp only [updateStatistics, if_neg hmin, if_neg hmax]
      exact Statistics.ext rfl rfl (if_neg hmin).symm (if_neg hmax).symm rfl rfl rfl rfl

theorem statistics_recordSlowResponse (srt : UInt64) :
    statistics (p.recordSlowResponse rep srt r) =
      if (statistics r).skips p rep then
        { statistics r with numSlowResponses := (statistics r).numSlowResponses + 1 }
      else
        { statistics r with
          numSlowResponses := 0
          totalResponseTime := (CheckParameters.totalResponseTime rep).toUInt32
          responseTime := (CheckParameters.responseTime rep).toUInt32
          smoothedResponseTime := srt.toUInt32 } := by
  simp only [recordSlowResponse]
  split
  · rename_i hskip
    exact (if_pos hskip).symm
  · rename_i hskip
    exact (if_neg hskip).symm

/-- The update of a record refines the automaton. -/
theorem statistics_setResponse (p : CheckParameters) (rep : CheckReport)
    (r : HMDataCheckResult) : statistics (p.setResponse rep r) =
    if p.selectedResponseTime rep < p.checkTimeout then (statistics r).respond p rep
    else statistics r := by
  by_cases haccepted : p.selectedResponseTime rep < p.checkTimeout
  · rw [if_pos haccepted]
    simp only [setResponse, if_pos haccepted]
    refine (statistics_recordSlowResponse _).trans ?_
    rw [Statistics.respond, statistics_updateStatistics, ← statistics_resetFirstResponse]
    rfl
  · simp [setResponse, haccepted, statistics]

theorem statistics_recordOutcome : statistics (p.recordOutcome rep r) =
    if rep.response = .connected ∧ rep.reason = .success then statistics (p.setResponse rep r)
    else statistics r := by
  have hunsuccessful : ∀ r, statistics (countUnsuccessful r) = statistics r := by
    intro r
    unfold countUnsuccessful
    split <;> rfl
  unfold recordOutcome
  by_cases hconnected : rep.response = .connected
  · rw [if_pos hconnected, hunsuccessful]
    by_cases hsuccess : rep.reason = .success
    · rw [if_pos hsuccess, if_pos ⟨hconnected, hsuccess⟩]
    · rw [if_neg hsuccess, if_neg (fun h => hsuccess h.2)]
  · rw [if_neg hconnected, if_neg (fun h => hconnected h.1)]
    cases rep.reason <;> rfl

theorem statistics_applyRetries : statistics (p.applyRetries r) = statistics r :=
  eq_of_frame statistics (applyRetries_frame p r) fun _ => rfl

theorem statistics_countFlap (start : HMTimeStamp) :
    statistics (p.countFlap start r) = statistics r :=
  eq_of_frame statistics (countFlap_frame p start r) fun _ => rfl

theorem success_iff : outcome p rep = .success ↔ (rep.response = .connected ∧
    rep.reason = .success) ∧ p.selectedResponseTime rep < p.checkTimeout := by
  unfold outcome
  by_cases hignored : rep.response = .dnsFailed ∨ rep.reason = .remoteNodata
  · rw [if_pos hignored]
    refine iff_of_false (by simp) ?_
    rintro ⟨⟨hconnected, hsuccess⟩, -⟩
    rcases hignored with h | h
    · simp [h] at hconnected
    · simp [h] at hsuccess
  · rw [if_neg hignored]
    split <;> simp_all

/-- Only an accepted response changes the statistics of a record. -/
theorem statistics_updateResult (p : CheckParameters) (address : HMIPAddress) (rep : CheckReport)
    (r : HMDataCheckResult) : statistics (p.updateResult address rep r) =
    if outcome p rep = .success then (statistics r).respond p rep else statistics r := by
  have houtcome : ∀ r', statistics r' = statistics r →
      statistics (p.recordOutcome rep r') =
        if outcome p rep = .success then (statistics r).respond p rep else statistics r := by
    intro r' h
    rw [statistics_recordOutcome, statistics_setResponse, h]
    simp only [success_iff]
    split
    · rename_i hboth
      simp [hboth]
    · rename_i hboth
      simp [hboth]
  simp only [updateResult]
  by_cases hdns : rep.response = .dnsFailed
  · rw [if_pos hdns, if_neg]
    · rfl
    · rw [success_iff]
      rintro ⟨⟨hconnected, -⟩, -⟩
      simp [hdns] at hconnected
  · rw [if_neg hdns]
    split
    · exact houtcome _ rfl
    · refine (statistics_countFlap rep.start).trans (statistics_applyRetries.trans ?_)
      exact houtcome _ rfl

section Smoothing

/-- A rounded weighted mean lies between the values. -/
theorem mean_between {w : ℕ} (hw : 0 < w) (x s : ℕ) :
    min x s ≤ (x + (w - 1) * s) / w ∧ (x + (w - 1) * s) / w ≤ max x s := by
  obtain ⟨v, rfl⟩ : ∃ v, w = v + 1 := ⟨w - 1, by omega⟩
  rw [Nat.add_sub_cancel, Nat.le_div_iff_mul_le hw]
  constructor
  · calc min x s * (v + 1) = min x s + v * min x s := by
          rw [Nat.mul_add, Nat.mul_one, Nat.mul_comm, Nat.add_comm]
      _ ≤ x + v * s := Nat.add_le_add (Nat.min_le_left x s)
          (Nat.mul_le_mul_left v (Nat.min_le_right x s))
  · apply Nat.div_le_of_le_mul
    calc x + v * s ≤ max x s + v * max x s := Nat.add_le_add (Nat.le_max_left x s)
          (Nat.mul_le_mul_left v (Nat.le_max_right x s))
      _ = (v + 1) * max x s := by rw [Nat.add_mul, Nat.one_mul, Nat.add_comm]

/-- A product that has wrapped round makes the mean smaller. -/
theorem mean_wrapped_lt {w : ℕ} (hw : 0 < w) (hle : w ≤ 2 ^ 32) (x : ℕ) {n : ℕ}
    (hwrap : 2 ^ 32 ≤ n) : (x + n % 2 ^ 32) / w < (x + n) / w := by
  have hless : x + n % 2 ^ 32 + w ≤ x + n := by omega
  calc (x + n % 2 ^ 32) / w < (x + n % 2 ^ 32) / w + 1 := Nat.lt_succ_self _
    _ = (x + n % 2 ^ 32 + w) / w := (Nat.add_div_right _ hw).symm
    _ ≤ (x + n) / w := Nat.div_le_div_right hless

/-- The mean in the words of the record: the product of the old value and the window is cut to
32 bits. -/
theorem toNat_smoothed {s : Statistics} (hpos : s.smoothedResponseTime ≠ 0)
    (hwindow : 0 < p.smoothingWindow) (hsample : (p.selectedResponseTime rep).toNat < 2 ^ 32) :
    (s.smoothed p rep).toNat = ((p.selectedResponseTime rep).toNat +
      (p.smoothingWindow.toNat - 1) * s.smoothedResponseTime.toNat % 2 ^ 32) /
        p.smoothingWindow.toNat := by
  have hle : (1 : UInt32) ≤ p.smoothingWindow := by
    rw [UInt32.le_iff_toNat_le]
    exact UInt32.lt_iff_toNat_lt.mp hwindow
  rw [Statistics.smoothed, if_pos hpos, UInt64.toNat_div, UInt64.toNat_add,
    UInt32.toNat_toUInt64, UInt32.toNat_toUInt64, UInt32.toNat_mul, UInt32.toNat_sub_of_le _ _ hle,
    UInt32.toNat_one, Nat.mul_comm s.smoothedResponseTime.toNat]
  congr 1
  omega

/-- The smoothed time moves to the rounded mean exactly when the product that enters it fits
into 32 bits. -/
theorem smoothing_exact_iff (p : CheckParameters) (rep : CheckReport) (r : HMDataCheckResult)
    (hwindow : 0 < p.smoothingWindow) (htimeout : p.checkTimeout.toNat < 2 ^ 32)
    (haccepted : p.selectedResponseTime rep < p.checkTimeout) (hprevious : r.numResponses ≠ 0)
    (hpos : r.smoothedResponseTime ≠ 0)
    (hrecorded : (statistics r).skips p rep = false) :
    let x := (p.selectedResponseTime rep).toNat
    let s := r.smoothedResponseTime.toNat
    let w := p.smoothingWindow.toNat
    let smoothed := (p.setResponse rep r).smoothedResponseTime.toNat
    (smoothed = (x + (w - 1) * s) / w ∧ min x s ≤ smoothed ∧ smoothed ≤ max x s) ↔
      (w - 1) * s < 2 ^ 32 := by
  intro x s w smoothed
  have hx : x < 2 ^ 32 := Nat.lt_trans (UInt64.lt_iff_toNat_lt.mp haccepted) htimeout
  have hs : s < 2 ^ 32 := r.smoothedResponseTime.toNat_lt
  have hw : 0 < w := UInt32.lt_iff_toNat_lt.mp hwindow
  have hfirst : (statistics r).first (CheckParameters.responseTime rep) = statistics r :=
    if_neg hprevious
  have hfield : (p.setResponse rep r).smoothedResponseTime =
      ((statistics r).smoothed p rep).toUInt32 := by
    have hrespond := statistics_setResponse p rep r
    rw [if_pos haccepted, Statistics.respond, hfirst, hrecorded] at hrespond
    exact congrArg Statistics.smoothedResponseTime hrespond
  have hmean : ((statistics r).smoothed p rep).toNat = (x + (w - 1) * s % 2 ^ 32) / w :=
    toNat_smoothed hpos hwindow hx
  have hsmoothed : smoothed = (x + (w - 1) * s % 2 ^ 32) / w % 2 ^ 32 := by
    calc smoothed = ((statistics r).smoothed p rep).toUInt32.toNat := congrArg UInt32.toNat hfield
      _ = ((statistics r).smoothed p rep).toNat % 2 ^ 32 := UInt64.toNat_toUInt32 _
      _ = (x + (w - 1) * s % 2 ^ 32) / w % 2 ^ 32 := by rw [hmean]
  constructor
  · rintro ⟨hexact, -⟩
    by_contra hwrap
    have hlt := mean_wrapped_lt hw (Nat.le_of_lt p.smoothingWindow.toNat_lt) x (Nat.le_of_not_lt hwrap)
    have hmod := Nat.mod_le ((x + (w - 1) * s % 2 ^ 32) / w) (2 ^ 32)
    omega
  · intro hfits
    obtain ⟨hmin, hmax⟩ := mean_between hw x s
    rw [Nat.mod_eq_of_lt hfits] at hsmoothed
    have hsmall : (x + (w - 1) * s) / w < 2 ^ 32 := by omega
    rw [Nat.mod_eq_of_lt hsmall] at hsmoothed
    rw [hsmoothed]
    exact ⟨rfl, hmin, hmax⟩

/-- A successful check that took the given time. -/
def responseIn (duration : HMTimeStamp) : CheckReport :=
  ⟨.connected, .success, 0, duration, 80, duration, duration⟩

/-- A record with one response. -/
def respondedOnce (smoothed : UInt32) : HMDataCheckResult :=
  { HMDataCheckResult.new 0 with numResponses := 1, smoothedResponseTime := smoothed }

theorem smoothing_with_default_window :
    (CheckParameters.default.setResponse (responseIn 50) (respondedOnce 100)).smoothedResponseTime.toNat
      = (50 + (10 - 1) * 100) / 10 :=
  ((smoothing_exact_iff .default (responseIn 50) (respondedOnce 100) (by decide) (by decide)
    (by decide) (by decide) (by decide) (by decide)).mpr (by decide)).1

/-- With a window of a million, five seconds after five seconds are smoothed to less than one. -/
theorem smoothing_wraps_with_large_window :
    let p := { CheckParameters.default with smoothingWindow := 1000000 }
    (p.setResponse (responseIn 5000) (respondedOnce 5000)).smoothedResponseTime = 705 ∧
      (5000 + (1000000 - 1) * 5000) / 1000000 = 5000 ∧
      ¬ min 5000 5000 ≤ (p.setResponse (responseIn 5000)
        (respondedOnce 5000)).smoothedResponseTime.toNat := by
  decide

end Smoothing

/-- A record with the response times it was given, latest first, and the number of slow ones
among them that were passed over since the last one that was recorded. -/
structure Observed where
  record : HMDataCheckResult
  samples : List ℕ
  skipped : ℕ
  deriving DecidableEq, Repr

namespace Observed

def fresh (p : CheckParameters) : Observed := ⟨.new p.checkTimeout, [], 0⟩

/-- The stored time is positive, a response came before, and this one takes longer by the larger
of the two thresholds. -/
def Slow (p : CheckParameters) (rep : CheckReport) (o : Observed) : Prop :=
  o.samples ≠ [] ∧ 0 < o.record.smoothedResponseTime.toNat ∧
    o.record.smoothedResponseTime.toNat + max p.groupThreshold.toNat p.slowThreshold.toNat ≤
      (CheckParameters.responseTime rep).toNat

instance (p : CheckParameters) (rep : CheckReport) (o : Observed) : Decidable (o.Slow p rep) :=
  inferInstanceAs (Decidable (_ ∧ _ ∧ _))

/-- A slow sample is to be passed over while fewer than the retries have been. -/
def Skipped (p : CheckParameters) (rep : CheckReport) (o : Observed) : Prop :=
  o.Slow p rep ∧ o.skipped < p.numCheckRetries.toNat

instance (p : CheckParameters) (rep : CheckReport) (o : Observed) : Decidable (o.Skipped p rep) :=
  inferInstanceAs (Decidable (_ ∧ _))

def next (p : CheckParameters) (address : HMIPAddress) (rep : CheckReport) (o : Observed) :
    Observed where
  record := p.updateResult address rep o.record
  samples :=
    if outcome p rep = .success then (CheckParameters.responseTime rep).toNat :: o.samples
    else o.samples
  skipped :=
    if outcome p rep = .success then if o.Skipped p rep then o.skipped + 1 else 0
    else o.skipped

end Observed

def callStep (p : CheckParameters) (address : HMIPAddress) (o : Observed) (rep : CheckReport) :
    Option Observed :=
  some (o.next p address rep)

section Totals

/-- The totals of the record are those of the samples; the count has 32 bits. -/
structure TotalsMet (o : Observed) : Prop where
  count : o.record.numResponses.toNat = o.samples.length % 2 ^ 32
  sum : o.record.sumResponseTime.toNat = o.samples.sum
  least : ∀ m, o.samples.min? = some m → o.record.minResponseTime.toNat = m
  greatest : ∀ m, o.samples.max? = some m → o.record.maxResponseTime.toNat = m

/-- A sample the totals can follow. -/
structure Followed (p : CheckParameters) (o : Observed) (rt : ℕ) : Prop where
  fits : o.samples.sum + rt < 2 ^ 64
  first : o.samples = [] → p.checkTimeout.toNat % 2 ^ 32 = 0 ∨ rt ≤ p.checkTimeout.toNat % 2 ^ 32
  zero : 0 ∈ o.samples → rt = 0
  wrapped : o.samples.length % 2 ^ 32 = 0 → ∀ x ∈ o.samples, x ≤ rt

theorem count_first (s : Statistics) (rt : UInt64) :
    (s.first rt).count rt =
      { s.count rt with
        smoothedResponseTime := if s.numResponses = 0 then 0 else s.smoothedResponseTime
        maxResponseTime :=
          if s.numResponses = 0 ∨ s.maxResponseTime.toUInt64 < rt then rt.toUInt32
          else s.maxResponseTime } := by
  by_cases hnone : s.numResponses = 0
  · simp [Statistics.first, Statistics.count, hnone]
  · simp [Statistics.first, Statistics.count, hnone]

instance (p : CheckParameters) (o : Observed) (rt : ℕ) : Decidable (Followed p o rt) :=
  decidable_of_iff (o.samples.sum + rt < 2 ^ 64 ∧
      (o.samples = [] → p.checkTimeout.toNat % 2 ^ 32 = 0 ∨ rt ≤ p.checkTimeout.toNat % 2 ^ 32) ∧
      (0 ∈ o.samples → rt = 0) ∧ (o.samples.length % 2 ^ 32 = 0 → ∀ x ∈ o.samples, x ≤ rt))
    ⟨fun ⟨h₁, h₂, h₃, h₄⟩ => ⟨h₁, h₂, h₃, h₄⟩, fun ⟨h₁, h₂, h₃, h₄⟩ => ⟨h₁, h₂, h₃, h₄⟩⟩

/-- What an accepted sample does to the totals. -/
theorem respond_totals (s : Statistics) (p : CheckParameters) (rep : CheckReport) :
    let rt := CheckParameters.responseTime rep
    (s.respond p rep).numResponses = s.numResponses + 1 ∧
      (s.respond p rep).sumResponseTime = s.sumResponseTime + rt ∧
      (s.respond p rep).minResponseTime =
        (if s.minResponseTime = 0 ∨ rt < s.minResponseTime.toUInt64 then rt.toUInt32
        else s.minResponseTime) ∧
      (s.respond p rep).maxResponseTime =
        (if s.numResponses = 0 ∨ s.maxResponseTime.toUInt64 < rt then rt.toUInt32
        else s.maxResponseTime) := by
  simp only [Statistics.respond, Statistics.record, count_first]
  split
  · exact ⟨rfl, rfl, rfl, rfl⟩
  · exact ⟨rfl, rfl, rfl, rfl⟩

/-- The totals over the naturals: what the record holds after a sample below 2^32. -/
theorem toNat_totals (s : Statistics) (p : CheckParameters) (rep : CheckReport)
    (hbound : (CheckParameters.responseTime rep).toNat < 2 ^ 32) :
    let rt := (CheckParameters.responseTime rep).toNat
    (s.respond p rep).sumResponseTime.toNat = (s.sumResponseTime.toNat + rt) % 2 ^ 64 ∧
      (s.respond p rep).minResponseTime.toNat =
        (if s.minResponseTime.toNat = 0 ∨ rt < s.minResponseTime.toNat then rt
        else s.minResponseTime.toNat) ∧
      (s.respond p rep).maxResponseTime.toNat =
        (if s.numResponses.toNat = 0 ∨ s.maxResponseTime.toNat < rt then rt
        else s.maxResponseTime.toNat) := by
  intro rt
  have hrt : (CheckParameters.responseTime rep).toUInt32.toNat = rt := by
    rw [UInt64.toNat_toUInt32, Nat.mod_eq_of_lt hbound]
  have hzero : ∀ n : UInt32, n = 0 ↔ n.toNat = 0 := fun n => (UInt32.toNat_inj (b := 0)).symm
  obtain ⟨-, hsum, hmin, hmax⟩ := respond_totals s p rep
  rw [hsum, hmin, hmax, UInt64.toNat_add]
  refine ⟨rfl, ?_, ?_⟩
  · rw [apply_ite UInt32.toNat, hrt]
    simp only [hzero, UInt64.lt_iff_toNat_lt, UInt32.toNat_toUInt64]
    rfl
  · rw [apply_ite UInt32.toNat, hrt]
    simp only [hzero, UInt64.lt_iff_toNat_lt, UInt32.toNat_toUInt64]
    rfl

/-- The number of responses follows the samples. -/
theorem count_next (p : CheckParameters) (address : HMIPAddress) {o : Observed}
    (h : o.record.numResponses.toNat = o.samples.length % 2 ^ 32) :
    (o.next p address rep).record.numResponses.toNat =
      (o.next p address rep).samples.length % 2 ^ 32 := by
  have hstat := congrArg Statistics.numResponses
    (statistics_updateResult p address rep o.record)
  by_cases haccepted : outcome p rep = .success
  · rw [if_pos haccepted, (respond_totals _ _ _).1] at hstat
    have hcount : (o.next p address rep).record.numResponses = o.record.numResponses + 1 := hstat
    have hsamples : (o.next p address rep).samples =
        (CheckParameters.responseTime rep).toNat :: o.samples := if_pos haccepted
    rw [hcount, hsamples, UInt32.toNat_add, List.length_cons]
    simp only [UInt32.reduceToNat]
    omega
  · rw [if_neg haccepted] at hstat
    have hsamples : (o.next p address rep).samples = o.samples := if_neg haccepted
    rw [hsamples, ← h]
    exact congrArg UInt32.toNat hstat

theorem least_cons {samples : List ℕ} {stored : ℕ} (rt : ℕ)
    (hleast : ∀ m, samples.min? = some m → stored = m) :
    (∀ m, (rt :: samples).min? = some m →
      (if stored = 0 ∨ rt < stored then rt else stored) = m) ↔
      (samples = [] → stored = 0 ∨ rt ≤ stored) ∧ (0 ∈ samples → rt = 0) := by
  simp only [List.min?_cons, Option.some.injEq, forall_eq']
  cases hmin : samples.min? with
  | none =>
    obtain rfl := List.min?_eq_none_iff.mp hmin
    simp only [Option.elim_none, List.not_mem_nil, false_imp_iff, and_true, true_imp_iff]
    split <;> omega
  | some m =>
    rcases List.min?_eq_some_iff.mp hmin with ⟨hmem, hle⟩
    obtain rfl := hleast m hmin
    have hne : samples ≠ [] := List.ne_nil_of_mem hmem
    have hzero : 0 ∈ samples ↔ stored = 0 := by
      constructor
      · intro h
        exact Nat.le_zero.mp (hle 0 h)
      · rintro rfl
        exact hmem
    simp only [Option.elim_some, hne, false_imp_iff, true_and, hzero]
    split <;> omega

theorem greatest_cons {samples : List ℕ} {stored : ℕ} (rt : ℕ) (unset : Prop) [Decidable unset]
    (hunset : samples = [] → unset) (hgreatest : ∀ m, samples.max? = some m → stored = m) :
    (∀ m, (rt :: samples).max? = some m →
      (if unset ∨ stored < rt then rt else stored) = m) ↔
      (unset → ∀ x ∈ samples, x ≤ rt) := by
  simp only [List.max?_cons, Option.some.injEq, forall_eq']
  cases hmax : samples.max? with
  | none =>
    obtain rfl := List.max?_eq_none_iff.mp hmax
    simp [hunset]
  | some m =>
    rcases List.max?_eq_some_iff.mp hmax with ⟨hmem, hle⟩
    obtain rfl := hgreatest m hmax
    have hall : (∀ x ∈ samples, x ≤ rt) ↔ stored ≤ rt := by
      constructor
      · intro h
        exact h stored hmem
      · intro h x hx
        exact Nat.le_trans (hle x hx) h
    simp only [Option.elim_some, hall]
    by_cases h : unset
    · simp only [h, true_or, if_true, true_imp_iff]
      omega
    · simp only [h, false_or, false_imp_iff, iff_true]
      split <;> omega

/-- The totals are met, and until the first sample the smallest time is the one the record was
created with. -/
structure TotalsInv (p : CheckParameters) (o : Observed) : Prop extends TotalsMet o where
  unset : o.samples = [] → o.record.minResponseTime = p.checkTimeout.toUInt32

theorem totalsInv_fresh (p : CheckParameters) : TotalsInv p (.fresh p) where
  count := rfl
  sum := rfl
  least := by simp [Observed.fresh]
  greatest := by simp [Observed.fresh]
  unset := fun _ => rfl

/-- The side condition of the samples: they are below 2^32. -/
def Bounded (p : CheckParameters) (_ : Observed) (rep : CheckReport) : Prop :=
  outcome p rep = .success → (CheckParameters.responseTime rep).toNat < 2 ^ 32

def TotalsFollow (p : CheckParameters) (o : Observed) (rep : CheckReport) : Prop :=
  outcome p rep = .success → Followed p o (CheckParameters.responseTime rep).toNat

instance (p : CheckParameters) (o : Observed) (rep : CheckReport) :
    Decidable (Bounded p o rep) :=
  inferInstanceAs (Decidable (_ → _))

instance (p : CheckParameters) (o : Observed) (rep : CheckReport) :
    Decidable (TotalsFollow p o rep) :=
  inferInstanceAs (Decidable (_ → _))

theorem totalsMet_next (p : CheckParameters) (address : HMIPAddress) {o : Observed}
    (h : TotalsInv p o) (hbounded : Bounded p o rep) :
    TotalsMet (o.next p address rep) ↔ TotalsFollow p o rep := by
  have hstat := statistics_updateResult p address rep o.record
  by_cases haccepted : outcome p rep = .success
  · rw [if_pos haccepted] at hstat
    obtain ⟨hsum, hmin, hmax⟩ := toNat_totals (statistics o.record) p rep (hbounded haccepted)
    rw [← hstat] at hsum hmin hmax
    simp only [statistics, h.count, h.sum] at hsum hmin hmax
    have hleast := least_cons (CheckParameters.responseTime rep).toNat h.least
    have hgreatest := greatest_cons (CheckParameters.responseTime rep).toNat
      (o.samples.length % 2 ^ 32 = 0) (by rintro hnil; simp [hnil]) h.greatest
    have hunset : o.samples = [] →
        o.record.minResponseTime.toNat = p.checkTimeout.toNat % 2 ^ 32 := by
      intro hnil
      rw [h.unset hnil, UInt64.toNat_toUInt32]
    have hsamples : (o.next p address rep).samples =
        (CheckParameters.responseTime rep).toNat :: o.samples := if_pos haccepted
    constructor
    · intro hmet _
      have hleast' := hmet.least
      have hgreatest' := hmet.greatest
      rw [hsamples] at hleast' hgreatest'
      simp only [Observed.next, hmin, hmax] at hleast' hgreatest'
      rcases hleast.mp hleast' with ⟨hfirst, hzero⟩
      refine ⟨?_, fun hnil => hunset hnil ▸ hfirst hnil, hzero, hgreatest.mp hgreatest'⟩
      have hsum' := hmet.sum
      rw [hsamples, List.sum_cons] at hsum'
      have hlt := (o.next p address rep).record.sumResponseTime.toNat_lt
      omega
    · intro hfollow
      obtain ⟨hfits, hfirst, hzero, hwrapped⟩ := hfollow haccepted
      refine ⟨count_next p address h.count, ?_, ?_, ?_⟩
      · rw [hsamples, List.sum_cons]
        refine hsum.trans ?_
        rw [Nat.mod_eq_of_lt hfits, Nat.add_comm]
      · rw [hsamples]
        simp only [Observed.next, hmin]
        exact hleast.mpr ⟨fun hnil => hunset hnil ▸ hfirst hnil, hzero⟩
      · rw [hsamples]
        simp only [Observed.next, hmax]
        exact hgreatest.mpr hwrapped
  · rw [if_neg haccepted] at hstat
    have hsamples : (o.next p address rep).samples = o.samples := if_neg haccepted
    refine iff_of_true ?_ fun h => absurd h haccepted
    have hrecord : statistics (o.next p address rep).record = statistics o.record := hstat
    simp only [statistics, Statistics.mk.injEq] at hrecord
    rcases hrecord with ⟨-, -, hmin, hmax, -, hsum, -, -⟩
    exact ⟨count_next p address h.count, by rw [hsum, hsamples, h.sum],
      by rw [hmin, hsamples]; exact h.least, by rw [hmax, hsamples]; exact h.greatest⟩

theorem totalsInv_next (p : CheckParameters) (address : HMIPAddress) {o : Observed}
    (h : TotalsInv p o) (hbounded : Bounded p o rep) (hfollow : TotalsFollow p o rep) :
    TotalsInv p (o.next p address rep) where
  toTotalsMet := (totalsMet_next p address h hbounded).mpr hfollow
  unset := by
    intro hnil
    by_cases haccepted : outcome p rep = .success
    · rw [Observed.next, if_pos haccepted] at hnil
      cases hnil
    · have hstat := statistics_updateResult p address rep o.record
      rw [if_neg haccepted] at hstat
      have hsamples : (o.next p address rep).samples = o.samples := if_neg haccepted
      rw [hsamples] at hnil
      exact (congrArg Statistics.minResponseTime hstat).trans (h.unset hnil)

/-- In a run from a fresh record the totals are met after every call just when they can follow
every accepted sample. -/
theorem totals_met_iff (p : CheckParameters) (address : HMIPAddress) (reps : List CheckReport)
    (hbounded : Along (callStep p address) (Bounded p) (.fresh p) reps) :
    Along (callStep p address) (fun o rep => TotalsMet (o.next p address rep)) (.fresh p) reps ↔
      Along (callStep p address) (TotalsFollow p) (.fresh p) reps := by
  apply along_iff_along _ _ (totalsInv_fresh p) hbounded
  · intro o rep h hb
    exact totalsMet_next p address h hb
  · intro o rep o' h hb hfollow hstep
    obtain rfl : o.next p address rep = o' := Option.some.inj hstep
    exact totalsInv_next p address h hb hfollow

theorem totals_met_with_default_timeout :
    Along (callStep .default (.v4 1)) (fun o rep => TotalsMet (o.next .default (.v4 1) rep))
      (.fresh .default) [responseIn 50, responseIn 20, responseIn 0] :=
  (totals_met_iff .default (.v4 1) [responseIn 50, responseIn 20, responseIn 0]
    (by decide +kernel)).mpr (by decide +kernel)

/-- A response that takes no time leaves the marker of an unset minimum behind. -/
theorem least_misses_zero_sample :
    let o := ((Observed.fresh .default).next .default (.v4 1) (responseIn 0)).next .default (.v4 1)
      (responseIn 5)
    o.samples = [5, 0] ∧ o.samples.min? = some 0 ∧ o.record.minResponseTime = 5 ∧
      ¬ TotalsMet o := by
  intro o
  have hleast : o.samples.min? = some 0 := by decide +kernel
  have hstored : o.record.minResponseTime = 5 := by decide +kernel
  refine ⟨by decide +kernel, hleast, hstored, ?_⟩
  intro hmet
  have hzero := hmet.least 0 hleast
  rw [hstored] at hzero
  exact absurd hzero (by decide)

end Totals

section Slow

def times (r : HMDataCheckResult) : UInt32 × UInt32 × UInt32 :=
  (r.responseTime, r.totalResponseTime, r.smoothedResponseTime)

def recordedTimes (p : CheckParameters) (rep : CheckReport) (r : HMDataCheckResult) :
    UInt32 × UInt32 × UInt32 :=
  let s := (statistics r).first (CheckParameters.responseTime rep)
  ((CheckParameters.responseTime rep).toUInt32, (CheckParameters.totalResponseTime rep).toUInt32,
    (s.smoothed p rep).toUInt32)

/-- One call obeys the law: a sample that is to be passed over leaves the times alone and is
repeated after the retry delay, every other accepted one is recorded. -/
structure SlowLaw (p : CheckParameters) (address : HMIPAddress) (o : Observed)
    (rep : CheckReport) : Prop where
  kept : outcome p rep = .success → o.Skipped p rep →
    times (o.next p address rep).record = times o.record
  recorded : outcome p rep = .success → ¬ o.Skipped p rep →
    times (o.next p address rep).record = recordedTimes p rep o.record
  bounded : (o.next p address rep).skipped ≤ p.numCheckRetries.toNat
  repeated : outcome p rep = .success → o.Skipped p rep →
    ∀ P : HMDataCheckParams, P.toCheckParameters = p →
      P.getCheckResult address = some (o.next p address rep).record → ∀ now,
        P.nextCheckTime address now =
          if (o.next p address rep).record.checkTime.plus p.checkTTL < now then now
          else (o.next p address rep).record.checkTime.plus p.checkRetryDelay.toUInt64

/-- The sum the code compares with has 32 bits. -/
def Overdue (p : CheckParameters) (o : Observed) (rep : CheckReport) : Prop :=
  o.samples.length % 2 ^ 32 ≠ 0 ∧ 0 < o.record.smoothedResponseTime.toNat ∧
    (o.record.smoothedResponseTime.toNat + max p.groupThreshold.toNat p.slowThreshold.toNat) %
      2 ^ 32 ≤ (CheckParameters.responseTime rep).toNat

/-- An accepted sample on which the words of the record decide as the integers do. -/
structure Decided (p : CheckParameters) (o : Observed) (rep : CheckReport) : Prop where
  counted : o.Skipped p rep → o.samples.length % 2 ^ 32 ≠ 0
  fits : Overdue p o rep → o.skipped < p.numCheckRetries.toNat → o.Slow p rep
  below : Overdue p o rep → o.skipped ≠ 255

instance (p : CheckParameters) (o : Observed) (rep : CheckReport) : Decidable (Overdue p o rep) :=
  inferInstanceAs (Decidable (_ ∧ _ ∧ _))

instance (p : CheckParameters) (o : Observed) (rep : CheckReport) : Decidable (Decided p o rep) :=
  decidable_of_iff ((o.Skipped p rep → o.samples.length % 2 ^ 32 ≠ 0) ∧
      (Overdue p o rep → o.skipped < p.numCheckRetries.toNat → o.Slow p rep) ∧
      (Overdue p o rep → o.skipped ≠ 255))
    ⟨fun ⟨h₁, h₂, h₃⟩ => ⟨h₁, h₂, h₃⟩, fun ⟨h₁, h₂, h₃⟩ => ⟨h₁, h₂, h₃⟩⟩

theorem toNat_effectiveSlowThreshold (p : CheckParameters) :
    p.effectiveSlowThreshold.toNat = max p.groupThreshold.toNat p.slowThreshold.toNat := by
  unfold effectiveSlowThreshold
  by_cases hlt : p.slowThreshold < p.groupThreshold
  · have hlt' := UInt32.lt_iff_toNat_lt.mp hlt
    rw [if_pos hlt, Nat.max_eq_left (Nat.le_of_lt hlt')]
  · have hle := UInt32.le_iff_toNat_le.mp (UInt32.not_lt.mp hlt)
    rw [if_neg hlt, Nat.max_eq_right hle]

theorem skips_iff (s : Statistics) : s.skips p rep = true ↔
    0 < p.numCheckRetries.toNat ∧ 0 < s.smoothedResponseTime.toNat ∧
      (s.smoothedResponseTime.toNat + max p.groupThreshold.toNat p.slowThreshold.toNat) %
        2 ^ 32 ≤ (CheckParameters.responseTime rep).toNat ∧
      (s.numSlowResponses.toNat + 1) % 2 ^ 8 ≤ p.numCheckRetries.toNat := by
  have hzero : s.smoothedResponseTime ≠ 0 ↔ 0 < s.smoothedResponseTime.toNat := by
    rw [Nat.pos_iff_ne_zero, not_iff_not]
    exact (UInt32.toNat_inj (b := 0)).symm
  simp only [Statistics.skips, Bool.and_eq_true, decide_eq_true_eq, and_assoc, hzero]
  rw [UInt8.lt_iff_toNat_lt, UInt64.le_iff_toNat_le, UInt8.le_iff_toNat_le, UInt32.toNat_toUInt64,
    UInt32.toNat_add, UInt8.toNat_add, toNat_effectiveSlowThreshold]
  rfl

/-- What the record keeps of the run. -/
structure SlowInv (p : CheckParameters) (o : Observed) : Prop where
  count : o.record.numResponses.toNat = o.samples.length % 2 ^ 32
  slow : o.record.numSlowResponses.toNat = o.skipped
  bounded : o.skipped ≤ p.numCheckRetries.toNat

/-- The code passes over the samples it is to pass over just when its words do not deceive it. -/
theorem skips_first_iff {o : Observed} (h : SlowInv p o) :
    (((statistics o.record).first (CheckParameters.responseTime rep)).skips p rep = true ↔
      o.Skipped p rep) ↔ Decided p o rep := by
  have hnone : o.record.numResponses = 0 ↔ o.samples.length % 2 ^ 32 = 0 := by
    rw [← h.count]
    exact (UInt32.toNat_inj (b := 0)).symm
  have hbounded := h.bounded
  have hretries := p.numCheckRetries.toNat_lt
  by_cases hfirst : o.samples.length % 2 ^ 32 = 0
  · have hskips : ((statistics o.record).first (CheckParameters.responseTime rep)).skips p rep =
        false := by
      have hzero : (statistics o.record).numResponses = 0 := hnone.mpr hfirst
      simp [Statistics.first, hzero, Statistics.skips]
    rw [hskips]
    constructor
    · intro hagree
      refine ⟨fun hskipped => ?_, fun hover => absurd hfirst hover.1,
        fun hover => absurd hfirst hover.1⟩
      exact absurd (hagree.mpr hskipped) (by decide)
    · intro hdecided
      exact iff_of_false (by decide) fun hskipped => hdecided.counted hskipped hfirst
  · have hsame : (statistics o.record).first (CheckParameters.responseTime rep) =
        statistics o.record := if_neg (fun hzero => hfirst (hnone.mp hzero))
    have hnil : o.samples ≠ [] := by
      rintro hnil
      simp [hnil] at hfirst
    have hsmoothed : (statistics o.record).smoothedResponseTime =
        o.record.smoothedResponseTime := rfl
    have hslow : (statistics o.record).numSlowResponses = o.record.numSlowResponses := rfl
    rw [hsame, skips_iff, hsmoothed, hslow, h.slow]
    constructor
    · intro hagree
      refine ⟨fun _ => hfirst, ?_, ?_⟩
      · rintro ⟨-, hpos, hover⟩ hless
        exact (hagree.mp ⟨by omega, hpos, hover, by omega⟩).1
      · rintro ⟨-, hpos, hover⟩ hmax
        have hskipped := hagree.mp ⟨by omega, hpos, hover, by omega⟩
        have hless := hskipped.2
        omega
    · rintro ⟨-, hfits, hbelow⟩
      constructor
      · rintro ⟨hretry, hpos, hover, hcount⟩
        have hoverdue : Overdue p o rep := ⟨hfirst, hpos, hover⟩
        have hless : o.skipped < p.numCheckRetries.toNat := by
          have hne := hbelow hoverdue
          omega
        exact ⟨hfits hoverdue hless, hless⟩
      · rintro ⟨⟨-, hpos, hslow⟩, hless⟩
        refine ⟨by omega, hpos, ?_, by omega⟩
        exact Nat.le_trans (Nat.mod_le _ _) hslow

/-- The times after an accepted sample, and its part in the counter. -/
theorem respond_times (s : Statistics) (p : CheckParameters) (rep : CheckReport) :
    let s₀ := s.first (CheckParameters.responseTime rep)
    (s₀.skips p rep = true → (s.respond p rep).responseTime = s.responseTime ∧
        (s.respond p rep).totalResponseTime = s.totalResponseTime ∧
        (s.respond p rep).smoothedResponseTime = s.smoothedResponseTime ∧
        (s.respond p rep).numSlowResponses = s.numSlowResponses + 1) ∧
      (s₀.skips p rep = false →
        (s.respond p rep).responseTime = (CheckParameters.responseTime rep).toUInt32 ∧
        (s.respond p rep).totalResponseTime =
          (CheckParameters.totalResponseTime rep).toUInt32 ∧
        (s.respond p rep).smoothedResponseTime = (s₀.smoothed p rep).toUInt32 ∧
        (s.respond p rep).numSlowResponses = 0) := by
  intro s₀
  constructor
  · intro hskips
    have hpos : s.numResponses ≠ 0 := by
      intro hzero
      simp [s₀, Statistics.first, hzero, Statistics.skips] at hskips
    have hsame : s.first (CheckParameters.responseTime rep) = s := if_neg hpos
    simp only [s₀] at hskips
    rw [Statistics.respond, if_pos hskips, hsame]
    exact ⟨rfl, rfl, rfl, rfl⟩
  · intro hskips
    simp only [s₀] at hskips
    rw [Statistics.respond, hskips]
    exact ⟨rfl, rfl, rfl, rfl⟩

theorem queryState_updateResult : (p.updateResult address rep r).queryState = .inactive := by
  have houtcome : ∀ r, (p.recordOutcome rep r).queryState = r.queryState :=
    fun r => eq_of_frame HMDataCheckResult.queryState (recordOutcome_frame p rep r) fun _ => rfl
  have hretries : ∀ r, (p.applyRetries r).queryState = r.queryState :=
    fun r => eq_of_frame HMDataCheckResult.queryState (applyRetries_frame p r) fun _ => rfl
  have hflap : ∀ r, (p.countFlap rep.start r).queryState = r.queryState :=
    fun r => eq_of_frame HMDataCheckResult.queryState (countFlap_frame p rep.start r) fun _ => rfl
  simp only [updateResult]
  split
  · rfl
  · split
    · exact houtcome _
    · exact (hflap _).trans ((hretries _).trans (houtcome _))

/-- A record that has passed over a sample is checked again after the retry delay. -/
theorem nextCheckTime_slow {P : HMDataCheckParams} (hr : P.getCheckResult address = some r)
    (hinactive : r.queryState = .inactive) (hslow : r.numSlowResponses ≠ 0) (now : HMTimeStamp) :
    P.nextCheckTime address now =
      if r.checkTime.plus P.checkTTL < now then now
      else r.checkTime.plus P.checkRetryDelay.toUInt64 := by
  have hget : P.checkData.get? address = some r := hr
  have hpos : 0 < r.numSlowResponses := UInt8.pos_iff_ne_zero.mpr hslow
  simp [HMDataCheckParams.nextCheckTime, hget, hinactive, hpos]

theorem slowLaw_next (p : CheckParameters) (address : HMIPAddress) {o : Observed}
    (h : SlowInv p o) (hdecided : outcome p rep = .success → Decided p o rep) :
    SlowLaw p address o rep ∧ SlowInv p (o.next p address rep) := by
  have hstat := statistics_updateResult p address rep o.record
  by_cases haccepted : outcome p rep = .success
  · rw [if_pos haccepted] at hstat
    have hskips := (skips_first_iff h).mpr (hdecided haccepted)
    obtain ⟨hkeep, hrecord⟩ := respond_times (statistics o.record) p rep
    have hghost : (o.next p address rep).skipped =
        if o.Skipped p rep then o.skipped + 1 else 0 := if_pos haccepted
    by_cases hskipped : o.Skipped p rep
    · rw [if_pos hskipped] at hghost
      obtain ⟨hrt, htotal, hsmoothed, hslow⟩ := hkeep (hskips.mpr hskipped)
      rw [← hstat] at hrt htotal hsmoothed hslow
      have hless := hskipped.2
      have hmax := p.numCheckRetries.toNat_lt
      have hcounter : (o.next p address rep).record.numSlowResponses.toNat = o.skipped + 1 := by
        have hfield : (o.next p address rep).record.numSlowResponses =
            o.record.numSlowResponses + 1 := hslow
        have hbefore := h.slow
        rw [hfield, UInt8.toNat_add]
        simp only [UInt8.reduceToNat]
        omega
      have hbounded : (o.next p address rep).skipped ≤ p.numCheckRetries.toNat := by
        rw [hghost]
        exact hless
      refine ⟨⟨fun _ _ => ?_, fun _ hnot => absurd hskipped hnot, hbounded, ?_⟩,
        count_next p address h.count, hcounter.trans hghost.symm, hbounded⟩
      · exact Prod.ext hrt (Prod.ext htotal hsmoothed)
      · rintro - - P rfl hget now
        apply nextCheckTime_slow hget queryState_updateResult
        intro hzero
        rw [hzero] at hcounter
        exact Nat.succ_ne_zero _ hcounter.symm
    · rw [if_neg hskipped] at hghost
      obtain ⟨hrt, htotal, hsmoothed, hslow⟩ := hrecord
        (Bool.eq_false_iff.mpr fun hskips' => hskipped (hskips.mp hskips'))
      rw [← hstat] at hrt htotal hsmoothed hslow
      have hbounded : (o.next p address rep).skipped ≤ p.numCheckRetries.toNat := by
        rw [hghost]
        exact Nat.zero_le _
      refine ⟨⟨fun _ hyes => absurd hyes hskipped, fun _ _ => ?_, hbounded,
        fun _ hyes => absurd hyes hskipped⟩, count_next p address h.count, ?_, hbounded⟩
      · exact Prod.ext hrt (Prod.ext htotal hsmoothed)
      · rw [hghost]
        exact congrArg UInt8.toNat hslow
  · rw [if_neg haccepted] at hstat
    have hskipped : (o.next p address rep).skipped = o.skipped := if_neg haccepted
    have hslow : (o.next p address rep).record.numSlowResponses = o.record.numSlowResponses :=
      congrArg Statistics.numSlowResponses hstat
    have hbounded := hskipped ▸ h.bounded
    refine ⟨⟨fun hyes => absurd hyes haccepted, fun hyes => absurd hyes haccepted, hbounded,
      fun hyes => absurd hyes haccepted⟩, count_next p address h.count, ?_, hbounded⟩
    rw [hslow, hskipped, h.slow]

/-- In a run from a fresh record the law holds of every call if the words of the record decide
as the integers do on every accepted sample. -/
theorem slow_law_along (p : CheckParameters) (address : HMIPAddress) (reps : List CheckReport)
    (hdecided : Along (callStep p address) (fun o rep => outcome p rep = .success → Decided p o rep)
      (.fresh p) reps) :
    Along (callStep p address) (SlowLaw p address) (.fresh p) reps := by
  have hinit : SlowInv p (.fresh p) := ⟨rfl, rfl, Nat.zero_le _⟩
  apply along_of_invariant _ _ hinit hdecided
  · intro o rep h hd
    exact (slowLaw_next p address h hd).1
  · intro o rep o' h hd hstep
    obtain rfl : o.next p address rep = o' := Option.some.inj hstep
    exact (slowLaw_next p address h hd).2

theorem slow_law_with_two_retries :
    let p := { CheckParameters.default with numCheckRetries := 2, slowThreshold := 100 }
    Along (callStep p (.v4 1)) (SlowLaw p (.v4 1)) (.fresh p)
      [responseIn 50, responseIn 150, responseIn 155, responseIn 170, responseIn 40] :=
  slow_law_along { CheckParameters.default with numCheckRetries := 2, slowThreshold := 100 } (.v4 1)
    [responseIn 50, responseIn 150, responseIn 155, responseIn 170, responseIn 40]
    (by decide +kernel)

/-- The largest threshold wraps round: a sample a little above the stored time is passed over. -/
theorem largest_threshold_wraps :
    let p := { CheckParameters.default with numCheckRetries := 1, slowThreshold := 4294967295 }
    let o := (Observed.fresh p).next p (.v4 1) (responseIn 100)
    outcome p (responseIn 150) = .success ∧ ¬ o.Slow p (responseIn 150) ∧
      times (o.next p (.v4 1) (responseIn 150)).record = (100, 100, 100) ∧
      ¬ SlowLaw p (.v4 1) o (responseIn 150) := by
  intro p o
  have haccepted : outcome p (responseIn 150) = .success := by decide +kernel
  have hfast : ¬ o.Slow p (responseIn 150) := by decide +kernel
  have hkept : times (o.next p (.v4 1) (responseIn 150)).record = (100, 100, 100) := by
    decide +kernel
  refine ⟨haccepted, hfast, hkept, ?_⟩
  intro hlaw
  have hrecorded := hlaw.recorded haccepted fun hskipped => hfast hskipped.1
  rw [hkept] at hrecorded
  exact absurd hrecorded (by decide +kernel)

end Slow

end ResponseTimes
