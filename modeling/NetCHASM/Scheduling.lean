import NetCHASM.BaseTypes

/-! When a recurring lookup or check is due. The DNS cache and the two remote caches share
these rules; each reads the clock once. -/
namespace NetCHASM

/-- The address families a dual-stack setting selects, IPv4 (`false`) first. -/
def DualStack.families (d : DualStack) : List Bool :=
  (if d.hasIpv4 then [false] else []) ++ if d.hasIpv6 then [true] else []

/-- The time at which an entry is to be queried next. -/
def nextTime (state : WorkState) (startTime : HMTimeStamp) (timeout : UInt64)
    (resultTime : HMTimeStamp) (ttl : UInt64) (now : HMTimeStamp) : HMTimeStamp :=
  match state with
  | .inactive => if resultTime.plus ttl < now then now else resultTime.plus ttl
  | .inProgress => if startTime.plus timeout < now then now else startTime.plus timeout
  | .failed => resultTime.plus ttl
  | .queued => now.plus HMTimeStamp.hourInMs

/-- A query that is neither queued nor running. -/
def WorkState.isIdle (s : WorkState) : Bool := s = .failed || s = .inactive

/-- What to do about an entry, given its state and its next query time. -/
def scheduleState (entry : Option (WorkState × HMTimeStamp)) (now : HMTimeStamp) :
    ScheduleState :=
  let horizon := now.plus HMTimeStamp.hourInMs
  let alreadyScheduled := !entry.any fun e => e.1.isIdle
  let isCheckTimeChanged := entry.any fun e => e.1.isIdle && decide (e.2 < horizon)
  let nextCheck := if isCheckTimeChanged then entry.elim horizon Prod.snd else horizon
  if nextCheck ≤ now then .work
  else if alreadyScheduled || isCheckTimeChanged then .ignore
  else .event

theorem plus_hourInMs (now : HMTimeStamp) : now.plus HMTimeStamp.hourInMs = now + 86400000 := by
  have hday : HMTimeStamp.ofUInt64 HMTimeStamp.hourInMs = 86400000 := by decide
  rw [HMTimeStamp.plus, hday]

variable {state : WorkState} {start result now : HMTimeStamp} {timeout ttl : UInt64}

/-- An idle entry is due at its result time plus its time to live. -/
theorem nextTime_le_iff (h : state.isIdle = true) :
    nextTime state start timeout result ttl now ≤ now ↔ result.plus ttl ≤ now := by
  cases state with
  | inactive =>
    simp only [nextTime]
    split <;> grind
  | failed => rfl
  | inProgress => cases h
  | queued => cases h

theorem nextTime_of_not_due (h : state.isIdle = true) (hdue : ¬ result.plus ttl ≤ now) :
    nextTime state start timeout result ttl now = result.plus ttl := by
  cases state with
  | inactive =>
    have hlt : ¬ result.plus ttl < now := by grind
    simp [nextTime, hlt]
  | failed => rfl
  | inProgress => cases h
  | queued => cases h

/-- An idle entry is worked on once due, re-armed while more than a day off, and otherwise
left to a timeout that is already there. -/
theorem scheduleState_of_idle (h : state.isIdle = true) :
    scheduleState (some (state, nextTime state start timeout result ttl now)) now =
      if result.plus ttl ≤ now then .work
      else if result.plus ttl < now + 86400000 then .ignore
      else .event := by
  by_cases hdue : result.plus ttl ≤ now
  · have hnext : nextTime state start timeout result ttl now ≤ now := (nextTime_le_iff h).mpr hdue
    have hlt : nextTime state start timeout result ttl now < now + 86400000 := by grind
    simp [scheduleState, plus_hourInMs, h, hdue, hnext, hlt]
  · rw [nextTime_of_not_due h hdue]
    have hday : ¬ now + 86400000 ≤ now := by grind
    by_cases hlt : result.plus ttl < now + 86400000
    · simp [scheduleState, plus_hourInMs, h, hdue, hlt]
    · simp [scheduleState, plus_hourInMs, h, hdue, hlt, hday]

/-- A loop over all entries queues what is due, and what is more than a day off. -/
def QueuedAt (now due : HMTimeStamp) : Prop := due ≤ now ∨ now + 86400000 ≤ due

instance (now due : HMTimeStamp) : Decidable (QueuedAt now due) :=
  inferInstanceAs (Decidable (_ ∨ _))

theorem scheduleState_of_queuedAt (h : state.isIdle = true)
    (hdue : QueuedAt now (result.plus ttl)) :
    scheduleState (some (state, nextTime state start timeout result ttl now)) now = .event ∨
      scheduleState (some (state, nextTime state start timeout result ttl now)) now = .work := by
  rw [scheduleState_of_idle h]
  rcases hdue with hnow | hday
  · exact Or.inr (if_pos hnow)
  · have hlate : ¬ result.plus ttl ≤ now := by grind
    have hnotday : ¬ result.plus ttl < now + 86400000 := by grind
    exact Or.inl (by rw [if_neg hlate, if_neg hnotday])

theorem scheduleState_of_not_queuedAt (h : state.isIdle = true)
    (hdue : ¬ QueuedAt now (result.plus ttl)) :
    scheduleState (some (state, nextTime state start timeout result ttl now)) now = .ignore := by
  have hlate : ¬ result.plus ttl ≤ now := fun hle => hdue (Or.inl hle)
  have hday : result.plus ttl < now + 86400000 := Int.not_le.mp fun hle => hdue (Or.inr hle)
  rw [scheduleState_of_idle h, if_neg hlate, if_pos hday]

end NetCHASM
