import NetCHASM.RetryLaw

/-! When a host flaps. The flap automaton is what a report does to the count of flaps, and the
model of the update refines it; the flaps are counted again over the times at which the soft
status changed. -/
namespace FlapLaw

open NetCHASM Runs CheckParameters RetryLaw

variable {p : CheckParameters} {address : HMIPAddress} {rep : CheckReport}
  {r : HMDataCheckResult}

/-- The part of a record the flap detection reads and writes. -/
@[ext] structure FlapView where
  flapStatus : HostStatus
  numFlaps : UInt32
  flapTime : HMTimeStamp
  deriving DecidableEq, Repr

def flapView (r : HMDataCheckResult) : FlapView := ⟨r.flapStatus, r.numFlaps, r.flapTime⟩

/-- A change of the soft status counts while the window since the last one is open; without a
change the window may only close. -/
def flapStep (p : CheckParameters) (start : HMTimeStamp) (soft : HostStatus) (v : FlapView) :
    FlapView :=
  if soft.isUp != v.flapStatus.isUp then
    ⟨soft, if start.minus v.flapTime < p.flapWindow then v.numFlaps + 1 else 0, start⟩
  else ⟨soft, if p.flapWindow ≤ start.minus v.flapTime then 0 else v.numFlaps, v.flapTime⟩

theorem flapView_recordOutcome : flapView (p.recordOutcome rep r) = flapView r :=
  eq_of_frame flapView (recordOutcome_frame p rep r) fun _ => rfl

theorem flapView_applyRetries : flapView (p.applyRetries r) = flapView r :=
  eq_of_frame flapView (applyRetries_frame p r) fun _ => rfl

theorem flapView_countFlap (start : HMTimeStamp) :
    flapView { p.countFlap start r with flapStatus := r.softStatus } =
      flapStep p start r.softStatus (flapView r) := by
  have hdown : ∀ r', flapView { p.markDown r' with flapStatus := r.softStatus } =
      ⟨r.softStatus, r'.numFlaps, r'.flapTime⟩ := by
    intro r'
    unfold CheckParameters.markDown
    split <;> rfl
  unfold countFlap flapStep
  by_cases hdiff : (r.softStatus.isUp != r.flapStatus.isUp) = true
  · rw [if_pos hdiff, if_pos (show (r.softStatus.isUp != (flapView r).flapStatus.isUp) = true from
      hdiff)]
    refine (hdown _).trans ?_
    by_cases hwindow : start.minus r.flapTime < p.flapWindow
    · rw [if_pos hwindow]
      split
      · exact FlapView.ext rfl (if_pos hwindow).symm rfl
      · exact FlapView.ext rfl (if_pos hwindow).symm rfl
    · rw [if_neg hwindow]
      split
      · exact FlapView.ext rfl (if_neg hwindow).symm rfl
      · exact FlapView.ext rfl (if_neg hwindow).symm rfl
  · rw [if_neg hdiff, if_neg (show ¬ (r.softStatus.isUp != (flapView r).flapStatus.isUp) = true from
      hdiff)]
    split
    · rename_i hwindow
      exact FlapView.ext rfl (if_pos hwindow).symm rfl
    · rename_i hwindow
      exact FlapView.ext rfl (if_neg hwindow).symm rfl

/-- The update of a record refines the flap automaton. -/
theorem flapView_updateResult (p : CheckParameters) (address : HMIPAddress) (rep : CheckReport)
    (r : HMDataCheckResult) : flapView (p.updateResult address rep r) =
      if outcome p rep = .ignored then flapView r
      else flapStep p rep.start (p.updateResult address rep r).softStatus (flapView r) := by
  by_cases hignored : outcome p rep = .ignored
  · rw [if_pos hignored]
    simp only [updateResult]
    by_cases hdns : rep.response = .dnsFailed
    · rw [if_pos hdns]
      rfl
    · have hno : rep.reason = .remoteNodata := by
        by_contra hno
        exact not_ignored_iff.mpr ⟨hdns, hno⟩ hignored
      rw [if_neg hdns, if_pos hno]
      exact flapView_recordOutcome
  · rcases not_ignored_iff.mp hignored with ⟨hdns, hno⟩
    rw [if_neg hignored]
    simp only [updateResult, if_neg hdns, if_neg hno, softStatus_countFlap]
    refine (flapView_countFlap rep.start).trans ?_
    rw [flapView_applyRetries]
    congr 1
    exact flapView_recordOutcome

/-! The flaps counted over the changes of the soft status. -/

/-- How many of the changes, latest first, came less than the window after the one before. -/
def recentFlaps (window : ℕ) : List HMTimeStamp → ℕ
  | t :: t' :: ts => if t - t' < window then recentFlaps window (t' :: ts) + 1 else 0
  | _ => 0

/-- The flaps at some time: none once the window since the last change has passed. -/
def flapsAfter (window : ℕ) (now : HMTimeStamp) : List HMTimeStamp → ℕ
  | [] => 0
  | t :: ts => if now - t < window then recentFlaps window (t :: ts) else 0

/-- A record with the times at which its soft status changed, latest first, and the start of the
last check. -/
structure Observed where
  record : HMDataCheckResult
  changes : List HMTimeStamp
  last : HMTimeStamp
  deriving DecidableEq, Repr

namespace Observed

/-- A new record; no check starts before the least time of the clock. -/
def fresh (p : CheckParameters) : Observed := ⟨.new p.checkTimeout, [], -2 ^ 63⟩

/-- The changes of the soft status when a check of the given outcome is done. -/
def changesWith (p : CheckParameters) (rep : CheckReport) (o : Observed) : List HMTimeStamp :=
  if decide (outcome p rep = .success) != o.record.softStatus.isUp then rep.start :: o.changes
  else o.changes

def flapsWith (p : CheckParameters) (rep : CheckReport) (o : Observed) : ℕ :=
  flapsAfter p.flapWindow.toNat rep.start (o.changesWith p rep)

def next (p : CheckParameters) (address : HMIPAddress) (rep : CheckReport) (o : Observed) :
    Observed where
  record := p.updateResult address rep o.record
  changes :=
    if (p.updateResult address rep o.record).softStatus.isUp != o.record.softStatus.isUp then
      rep.start :: o.changes
    else o.changes
  last := rep.start

end Observed

def checkStep (p : CheckParameters) (address : HMIPAddress) (o : Observed) (rep : CheckReport) :
    Option Observed :=
  some (o.next p address rep)

/-- The check says something about the host, and starts no earlier than the one before, at a
time the clock can hold. -/
structure Ordered (p : CheckParameters) (o : Observed) (rep : CheckReport) : Prop where
  counted : outcome p rep ≠ .ignored
  later : o.last ≤ rep.start
  bounded : rep.start < 2 ^ 63

/-- The law for one call: the flaps are counted, and too many of them mark the host down. -/
structure FlapsMet (p : CheckParameters) (o : Observed) : Prop where
  count : o.record.numFlaps.toNat = flapsAfter p.flapWindow.toNat o.last o.changes
  down : p.maxFlaps < o.record.numFlaps → o.record.status.isUp = false

/-- A call on which the code keeps the law. -/
structure Followed (p : CheckParameters) (o : Observed) (rep : CheckReport) : Prop where
  first : o.changes = [] → outcome p rep = .success → p.flapWindow ≤ rep.start.minus 0
  fits : o.flapsWith p rep < 2 ^ 32
  down : p.maxFlaps.toNat < o.flapsWith p rep → outcome p rep = .failure ∧
    (o.record.status.isUp = true → p.numCheckRetries < o.record.numFailedChecks + 1)

instance (p : CheckParameters) (o : Observed) (rep : CheckReport) : Decidable (Ordered p o rep) :=
  decidable_of_iff (outcome p rep ≠ .ignored ∧ o.last ≤ rep.start ∧ rep.start < 2 ^ 63)
    ⟨fun ⟨h₁, h₂, h₃⟩ => ⟨h₁, h₂, h₃⟩, fun ⟨h₁, h₂, h₃⟩ => ⟨h₁, h₂, h₃⟩⟩

instance (p : CheckParameters) (o : Observed) (rep : CheckReport) : Decidable (Followed p o rep) :=
  decidable_of_iff
    ((o.changes = [] → outcome p rep = .success → p.flapWindow ≤ rep.start.minus 0) ∧
      o.flapsWith p rep < 2 ^ 32 ∧
      (p.maxFlaps.toNat < o.flapsWith p rep → outcome p rep = .failure ∧
        (o.record.status.isUp = true → p.numCheckRetries < o.record.numFailedChecks + 1)))
    ⟨fun ⟨h₁, h₂, h₃⟩ => ⟨h₁, h₂, h₃⟩, fun ⟨h₁, h₂, h₃⟩ => ⟨h₁, h₂, h₃⟩⟩

/-- What the record keeps of the run. -/
structure FlapInv (p : CheckParameters) (o : Observed) : Prop where
  count : o.record.numFlaps.toNat = flapsAfter p.flapWindow.toNat o.last o.changes
  soft : o.record.flapStatus.isUp = o.record.softStatus.isUp
  time : o.record.flapTime = o.changes.headD 0
  unchanged : o.changes = [] → o.record.softStatus.isUp = false
  recent : ∀ t ∈ o.changes.head?, -2 ^ 63 ≤ t ∧ t ≤ o.last
  least : -2 ^ 63 ≤ o.last
  retries : o.record.numFailedChecks ≤ p.numCheckRetries

theorem flapInv_fresh (p : CheckParameters) : FlapInv p (.fresh p) where
  count := rfl
  soft := rfl
  time := rfl
  unchanged := fun _ => isUp_none
  recent := by simp [Observed.fresh]
  least := by simp [Observed.fresh]
  retries := UInt8.zero_le

/-- Over the clock's range a difference of times is one of integers. -/
theorem toNat_minus {t t' : HMTimeStamp} (hle : t' ≤ t) (hlow : -2 ^ 63 ≤ t') (hhigh : t < 2 ^ 63) :
    ((t.minus t').toNat : Int) = t - t' := by
  rw [HMTimeStamp.minus, toNat_ofInt]
  have hsub : (t - t' : Int) % 2 ^ 64 = t - t' := Int.emod_eq_of_lt (by grind) (by grind)
  rw [hsub]
  exact Int.toNat_of_nonneg (Int.sub_nonneg.mpr hle)

theorem next_changes (address : HMIPAddress) {o : Observed} (hcounted : outcome p rep ≠ .ignored) :
    (o.next p address rep).changes = o.changesWith p rep := by
  rw [Observed.next, Observed.changesWith, isUp_updateResult hcounted]

theorem flapWindow_pos (p : CheckParameters) : 0 < p.flapWindow.toNat := by
  unfold flapWindow
  split
  · rename_i hset
    rw [UInt32.toNat_toUInt64, Nat.pos_iff_ne_zero]
    exact fun hzero => hset (UInt32.toNat_inj.mp hzero)
  · decide

theorem flapsAfter_change (p : CheckParameters) (start : HMTimeStamp) (ts : List HMTimeStamp) :
    flapsAfter p.flapWindow.toNat start (start :: ts) =
      recentFlaps p.flapWindow.toNat (start :: ts) := by
  rw [flapsAfter, Int.sub_self, if_pos (Int.natCast_pos.mpr (flapWindow_pos p))]

/-- The window the code tests is the window over the integers. -/
theorem window_open_iff {start t : HMTimeStamp} (hle : t ≤ start) (hlow : -2 ^ 63 ≤ t)
    (hhigh : start < 2 ^ 63) :
    start.minus t < p.flapWindow ↔ start - t < p.flapWindow.toNat := by
  rw [UInt64.lt_iff_toNat_lt, ← toNat_minus hle hlow hhigh, Int.ofNat_lt]

/-- The count after a check, from the view of the record before it. -/
theorem numFlaps_next (p : CheckParameters) (address : HMIPAddress) {o : Observed}
    (h : FlapInv p o) (hcounted : outcome p rep ≠ .ignored) :
    (o.next p address rep).record.numFlaps =
      if decide (outcome p rep = .success) != o.record.softStatus.isUp then
        if rep.start.minus o.record.flapTime < p.flapWindow then o.record.numFlaps + 1 else 0
      else if p.flapWindow ≤ rep.start.minus o.record.flapTime then 0
      else o.record.numFlaps := by
  have hview := congrArg FlapView.numFlaps (flapView_updateResult p address rep o.record)
  rw [if_neg hcounted] at hview
  refine hview.trans ?_
  rw [flapStep, isUp_updateResult hcounted]
  simp only [flapView, h.soft]
  split <;> rfl

/-- The count after a check is the count over the changes just when the first change of all is
not taken for a flap and the counter does not wrap round. -/
theorem count_next (p : CheckParameters) (address : HMIPAddress) {o : Observed}
    (h : FlapInv p o) (hordered : Ordered p o rep) :
    (o.next p address rep).record.numFlaps.toNat = o.flapsWith p rep ↔
      (o.changes = [] → outcome p rep = .success → p.flapWindow ≤ rep.start.minus 0) ∧
        o.flapsWith p rep < 2 ^ 32 := by
  have hcount := h.count
  have hword := o.record.numFlaps.toNat_lt
  rw [numFlaps_next p address h hordered.counted, Observed.flapsWith, Observed.changesWith]
  by_cases hchange : (decide (outcome p rep = .success) != o.record.softStatus.isUp) = true
  · rw [if_pos hchange, if_pos hchange, flapsAfter_change]
    cases hchanges : o.changes with
    | nil =>
      rw [hchanges] at hcount
      have hsuccess : outcome p rep = .success := by
        rw [h.unchanged hchanges] at hchange
        simpa using hchange
      have hzero : o.record.numFlaps = 0 := UInt32.toNat_inj.mp hcount
      have htime : o.record.flapTime = 0 := by rw [h.time, hchanges, List.headD_nil]
      rw [htime]
      simp only [recentFlaps, hzero, hsuccess]
      by_cases hwindow : rep.start.minus 0 < p.flapWindow
      · rw [if_pos hwindow]
        refine iff_of_false (by decide) fun hboth => ?_
        exact UInt64.not_lt.mpr (hboth.1 trivial trivial) hwindow
      · rw [if_neg hwindow]
        exact iff_of_true rfl ⟨fun _ _ => UInt64.not_lt.mp hwindow, by decide⟩
    | cons t ts =>
      rw [hchanges] at hcount
      obtain ⟨hlow, hle⟩ := h.recent t (by rw [hchanges]; rfl)
      have hlater := hordered.later
      have hopen := window_open_iff (p := p) (Int.le_trans hle hlater) hlow hordered.bounded
      rw [flapsAfter] at hcount
      have htime : o.record.flapTime = t := by rw [h.time, hchanges, List.headD_cons]
      rw [htime, recentFlaps]
      by_cases hwindow : rep.start - t < p.flapWindow.toNat
      · have hbefore : o.last - t < p.flapWindow.toNat := by grind
        rw [if_pos hbefore] at hcount
        rw [if_pos (hopen.mpr hwindow), if_pos hwindow, ← hcount, UInt32.toNat_add]
        simp only [UInt32.reduceToNat]
        constructor
        · intro hsum
          exact ⟨fun hnil => absurd hnil (List.cons_ne_nil t ts), by omega⟩
        · rintro ⟨-, hfits⟩
          omega
      · rw [if_neg (fun hlt => hwindow (hopen.mp hlt)), if_neg hwindow]
        exact iff_of_true rfl ⟨fun hnil => absurd hnil (List.cons_ne_nil t ts), Nat.two_pow_pos 32⟩
  · rw [if_neg hchange, if_neg hchange]
    cases hchanges : o.changes with
    | nil =>
      rw [hchanges] at hcount
      have hfailure : outcome p rep ≠ .success := by
        intro hsuccess
        rw [h.unchanged hchanges, hsuccess] at hchange
        exact hchange rfl
      have hzero : o.record.numFlaps = 0 := UInt32.toNat_inj.mp hcount
      rw [hzero, ite_self]
      exact iff_of_true rfl ⟨fun _ hsuccess => absurd hsuccess hfailure, Nat.two_pow_pos 32⟩
    | cons t ts =>
      rw [hchanges] at hcount
      obtain ⟨hlow, hle⟩ := h.recent t (by rw [hchanges]; rfl)
      have hlater := hordered.later
      have hopen := window_open_iff (p := p) (Int.le_trans hle hlater) hlow hordered.bounded
      have htime : o.record.flapTime = t := by rw [h.time, hchanges, List.headD_cons]
      rw [flapsAfter] at hcount ⊢
      rw [htime]
      by_cases hwindow : rep.start - t < p.flapWindow.toNat
      · have hbefore : o.last - t < p.flapWindow.toNat := by grind
        rw [if_pos hbefore] at hcount
        rw [if_pos hwindow, if_neg (UInt64.not_le.mpr (hopen.mpr hwindow)), hcount]
        exact iff_of_true rfl ⟨fun hnil => absurd hnil (List.cons_ne_nil t ts), by omega⟩
      · rw [if_neg hwindow, if_pos (UInt64.not_lt.mp fun hlt => hwindow (hopen.mp hlt))]
        exact iff_of_true rfl ⟨fun hnil => absurd hnil (List.cons_ne_nil t ts), Nat.two_pow_pos 32⟩

/-- A check that counts leaves the host down just when it fails, and uses the last retry of a
host that was up. -/
theorem isUp_next (p : CheckParameters) (address : HMIPAddress) {o : Observed}
    (h : FlapInv p o) (hcounted : outcome p rep ≠ .ignored) :
    (o.next p address rep).record.status.isUp = false ↔ outcome p rep = .failure ∧
      (o.record.status.isUp = true → p.numCheckRetries < o.record.numFailedChecks + 1) := by
  have hview := congrArg RetryView.up (view_updateResult p address rep o.record)
  have hnot : ¬ p.numCheckRetries < o.record.numFailedChecks := UInt8.not_lt.mpr h.retries
  have hup : (o.next p address rep).record.status.isUp =
      (retryStep p.numCheckRetries (outcome p rep) (view o.record)).up := hview
  rw [hup]
  cases hout : outcome p rep with
  | ignored => exact absurd hout hcounted
  | success => simp [retryStep, RetryLaw.markDown, view, hnot]
  | failure =>
    by_cases hbefore : o.record.status.isUp = true
    · by_cases hlast : p.numCheckRetries < o.record.numFailedChecks + 1
      · simp [retryStep, RetryLaw.markDown, view, hbefore, hlast]
      · simp [retryStep, RetryLaw.markDown, view, hbefore, hlast]
    · simp [retryStep, RetryLaw.markDown, view, hbefore, hnot]

theorem failures_retryStep_le {retries : UInt8} {v : RetryView} (h : v.failures ≤ retries)
    (o : Outcome) : (retryStep retries o v).failures ≤ retries := by
  cases o with
  | ignored => exact h
  | success => exact failures_markDown_le retries _
  | failure => exact failures_markDown_le retries _

theorem flapStep_flapStatus (start : HMTimeStamp) (soft : HostStatus) (v : FlapView) :
    (flapStep p start soft v).flapStatus = soft := by
  unfold flapStep
  split <;> rfl

theorem flapStep_flapTime (start : HMTimeStamp) (soft : HostStatus) (v : FlapView) :
    (flapStep p start soft v).flapTime =
      if soft.isUp != v.flapStatus.isUp then start else v.flapTime := by
  unfold flapStep
  split <;> rfl

theorem flapInv_next (p : CheckParameters) (address : HMIPAddress) {o : Observed}
    (h : FlapInv p o) (hordered : Ordered p o rep) (hfollowed : Followed p o rep) :
    FlapInv p (o.next p address rep) := by
  have hcounted := hordered.counted
  have hview := flapView_updateResult p address rep o.record
  rw [if_neg hcounted] at hview
  have hsoft : (o.next p address rep).record.softStatus.isUp = decide (outcome p rep = .success) :=
    isUp_updateResult hcounted
  have hstatus : (o.next p address rep).record.flapStatus =
      (o.next p address rep).record.softStatus :=
    (congrArg FlapView.flapStatus hview).trans (flapStep_flapStatus _ _ _)
  have htime : (o.next p address rep).record.flapTime =
      if decide (outcome p rep = .success) != o.record.softStatus.isUp then rep.start
      else o.record.flapTime := by
    refine (congrArg FlapView.flapTime hview).trans ?_
    rw [flapStep_flapTime, isUp_updateResult hcounted]
    simp only [flapView, h.soft]
  have hlater := hordered.later
  have hleast := h.least
  have hfailures := failures_retryStep_le (v := view o.record) h.retries (outcome p rep)
  rw [← view_updateResult p address rep o.record] at hfailures
  refine ⟨?_, congrArg HostStatus.isUp hstatus, ?_, ?_, ?_, Int.le_trans hleast hlater, hfailures⟩
  · refine ((count_next p address h hordered).mpr ⟨hfollowed.first, hfollowed.fits⟩).trans ?_
    rw [next_changes address hcounted]
    rfl
  · rw [htime, next_changes address hcounted, Observed.changesWith]
    split
    · rfl
    · exact h.time
  · rw [next_changes address hcounted, Observed.changesWith, hsoft]
    split
    · intro hnil
      cases hnil
    · rename_i hsame
      intro hnil
      simpa [h.unchanged hnil] using hsame
  · rw [next_changes address hcounted, Observed.changesWith]
    split
    · intro t ht
      obtain rfl : rep.start = t := Option.some.inj ht
      exact ⟨Int.le_trans hleast hlater, Int.le_refl _⟩
    · intro t ht
      obtain ⟨hlow, hle⟩ := h.recent t ht
      exact ⟨hlow, Int.le_trans hle hlater⟩

theorem flapsMet_next (p : CheckParameters) (address : HMIPAddress) {o : Observed}
    (h : FlapInv p o) (hordered : Ordered p o rep) :
    FlapsMet p (o.next p address rep) ↔ Followed p o rep := by
  have hcount := count_next p address h hordered
  have hup := isUp_next p address h hordered.counted
  have hflaps : flapsAfter p.flapWindow.toNat (o.next p address rep).last
      (o.next p address rep).changes = o.flapsWith p rep := by
    rw [next_changes address hordered.counted]
    rfl
  constructor
  · intro hmet
    have heq := hmet.count.trans hflaps
    rcases hcount.mp heq with ⟨hfirst, hfits⟩
    refine ⟨hfirst, hfits, fun hmany => hup.mp (hmet.down ?_)⟩
    rw [UInt32.lt_iff_toNat_lt, heq]
    exact hmany
  · intro hfollowed
    have heq := hcount.mpr ⟨hfollowed.first, hfollowed.fits⟩
    refine ⟨heq.trans hflaps.symm, fun hmany => hup.mpr (hfollowed.down ?_)⟩
    rw [← heq]
    exact UInt32.lt_iff_toNat_lt.mp hmany

/-- In a run of checks from a new record the law holds after every call just when every call
follows it. -/
theorem flaps_met_iff (p : CheckParameters) (address : HMIPAddress) (reps : List CheckReport)
    (hordered : Along (checkStep p address) (Ordered p) (.fresh p) reps) :
    Along (checkStep p address) (fun o rep => FlapsMet p (o.next p address rep)) (.fresh p) reps ↔
      Along (checkStep p address) (Followed p) (.fresh p) reps := by
  apply along_iff_along _ _ (flapInv_fresh p) hordered
  · intro o rep h hord
    exact flapsMet_next p address h hord
  · intro o rep o' h hord hfollowed hstep
    obtain rfl : o.next p address rep = o' := Option.some.inj hstep
    exact flapInv_next p address h hord hfollowed

def successAt (start : HMTimeStamp) : CheckReport :=
  ⟨.connected, .success, start, start, 80, start, start⟩

def failureAt (start : HMTimeStamp) : CheckReport :=
  ⟨.failed, .connectFailure, start, start, 80, start, start⟩

theorem flaps_met_on_last_failure :
    let p := { CheckParameters.default with maxFlaps := 0 }
    Along (checkStep p (.v4 1)) (fun o rep => FlapsMet p (o.next p (.v4 1) rep)) (.fresh p)
      [successAt 100000, failureAt 100001, failureAt 130000, successAt 190000] :=
  (flaps_met_iff { CheckParameters.default with maxFlaps := 0 } (.v4 1)
    [successAt 100000, failureAt 100001, failureAt 130000, successAt 190000]
    (by decide +kernel)).mpr (by decide +kernel)

/-- A host that has flapped twice where no flap is allowed stays up when the last check succeeds:
the branch for flapping tests the failed checks, which the retries have just used up. -/
theorem up_after_too_many_flaps :
    let p := { CheckParameters.default with maxFlaps := 0 }
    let o := (((Observed.fresh p).next p (.v4 1) (successAt 100000)).next p (.v4 1)
      (failureAt 100001)).next p (.v4 1) (successAt 100002)
    o.record.numFlaps = 2 ∧ o.record.status.isUp = true ∧ ¬ FlapsMet p o := by
  intro p o
  have hflaps : o.record.numFlaps = 2 := by decide +kernel
  have hup : o.record.status.isUp = true := by decide +kernel
  refine ⟨hflaps, hup, ?_⟩
  intro hmet
  have hdown := hmet.down (by rw [hflaps]; decide)
  rw [hup] at hdown
  cases hdown

end FlapLaw
