import NetCHASM.DataCheckList

/-! The entries of the caches say when they are due next; the caches decide from the state
of an entry whether to queue work for it. The deadline of a running query is set by the
method that starts it and read by the one that says when the entry is due. -/
namespace NetCHASM

open KeyOrder OrderedMap

def HMDNSResult.queryNeeded (r : HMDNSResult) (now : HMTimeStamp) : Bool :=
  r.nextQueryTime now ≤ now

def HMRemoteResult.checkNeeded (r : HMRemoteResult) (now : HMTimeStamp) : Bool :=
  r.nextCheckTime now ≤ now

/-- A query that runs and whose time is up. -/
def isOverdue (state : WorkState) (startTime : HMTimeStamp) (timeout : UInt64)
    (now : HMTimeStamp) : Bool :=
  state = .inProgress && decide (startTime.plus timeout ≤ now)

def HMDNSResult.isOverdue (r : HMDNSResult) (now : HMTimeStamp) : Bool :=
  NetCHASM.isOverdue r.queryState r.queryTime r.queryTimeout now

def HMRemoteResult.isOverdue (r : HMRemoteResult) (now : HMTimeStamp) : Bool :=
  NetCHASM.isOverdue r.checkState r.checkTime r.remoteTimeout now

section Entries

variable {state : WorkState} {start result now : HMTimeStamp} {timeout ttl : UInt64}

/-- A cache queues work for idle entries only. -/
theorem scheduleState_eq_work_iff {next : HMTimeStamp} :
    scheduleState (some (state, next)) now = .work ↔ state.isIdle = true ∧ next ≤ now := by
  have hday : ¬ now + 86400000 ≤ now := by grind
  by_cases hidle : state.isIdle = true
  · by_cases hlt : next < now + 86400000
    · by_cases hdue : next ≤ now
      · simp [scheduleState, plus_hourInMs, hidle, hlt, hdue]
      · simp [scheduleState, plus_hourInMs, hidle, hlt, hdue]
    · have hdue : ¬ next ≤ now := by grind
      simp [scheduleState, plus_hourInMs, hidle, hlt, hday, hdue]
  · simp [scheduleState, plus_hourInMs, hidle, hday]

theorem nextTime_inProgress_le_iff :
    nextTime .inProgress start timeout result ttl now ≤ now ↔ start.plus timeout ≤ now := by
  rw [nextTime]
  split <;> grind

theorem nextTime_queued_not_le : ¬ nextTime .queued start timeout result ttl now ≤ now := by
  rw [nextTime, plus_hourInMs]
  grind

/-- A cache and its entry disagree only about a query whose time is up. -/
theorem scheduleState_agrees_iff :
    (scheduleState (some (state, nextTime state start timeout result ttl now)) now = .work ↔
      nextTime state start timeout result ttl now ≤ now) ↔
      isOverdue state start timeout now = false := by
  rw [scheduleState_eq_work_iff]
  cases state with
  | inactive => simp [WorkState.isIdle, isOverdue]
  | failed => simp [WorkState.isIdle, isOverdue]
  | queued => simp [WorkState.isIdle, isOverdue, nextTime_queued_not_le]
  | inProgress => simp [WorkState.isIdle, isOverdue, nextTime_inProgress_le_iff]

end Entries

/-- The earliest of some times and a limit has come when one of them has. -/
theorem foldl_earliest_le_iff {α : Type} (time : α → HMTimeStamp) (now : HMTimeStamp)
    (xs : List α) (limit : HMTimeStamp) :
    xs.foldl (fun next x => if time x < next then time x else next) limit ≤ now ↔
      limit ≤ now ∨ ∃ x ∈ xs, time x ≤ now := by
  induction xs generalizing limit with
  | nil => simp
  | cons x xs ih =>
    rw [List.foldl_cons, ih]
    by_cases hlt : time x < limit
    · rw [if_pos hlt]
      constructor
      · rintro (hx | ⟨y, hy, hle⟩)
        · exact Or.inr ⟨x, List.mem_cons_self, hx⟩
        · exact Or.inr ⟨y, List.mem_cons_of_mem x hy, hle⟩
      · rintro (hlimit | ⟨y, hy, hle⟩)
        · left
          grind
        · rcases List.mem_cons.mp hy with rfl | hy
          · exact Or.inl hle
          · exact Or.inr ⟨y, hy, hle⟩
    · rw [if_neg hlt]
      constructor
      · rintro (hlimit | ⟨y, hy, hle⟩)
        · exact Or.inl hlimit
        · exact Or.inr ⟨y, List.mem_cons_of_mem x hy, hle⟩
      · rintro (hlimit | ⟨y, hy, hle⟩)
        · exact Or.inl hlimit
        · rcases List.mem_cons.mp hy with rfl | hy
          · left
            grind
          · exact Or.inr ⟨y, hy, hle⟩

namespace HMDataCheckList

variable {l : HMDataCheckList} {hostname : HMString} {ip : HMIPAddress} {check : HMDataHostCheck}
  {now : HMTimeStamp}

/-- A check is due when one of its sets of parameters is. -/
theorem nextCheckTime_le_iff : l.nextCheckTime hostname ip check now ≤ now ↔
    ∃ p ∈ l.checklist.range ⟨hostname, check⟩, p.nextCheckTime ip now ≤ now := by
  have hday : ¬ now + 86400000 ≤ now := by grind
  rw [nextCheckTime, foldl_earliest_le_iff, plus_hourInMs]
  simp [hday]

/-- Parameters with work under way are not due. -/
theorem isIdle_of_nextCheckTime_le {p : HMDataCheckParams}
    (h : p.nextCheckTime ip now ≤ now) : (p.getQueryState ip).isIdle = true := by
  cases hget : p.checkData.get? ip with
  | none => simp [HMDataCheckParams.getQueryState, hget, WorkState.isIdle]
  | some r =>
    by_cases hidle : r.queryState = .inactive ∨ r.queryState = .failed
    · rcases hidle with hstate | hstate <;>
        simp [HMDataCheckParams.getQueryState, hget, hstate, WorkState.isIdle]
    · rw [HMDataCheckParams.nextCheckTime, hget] at h
      simp only [hidle, if_false, plus_hourInMs] at h
      grind

theorem checkNeeded_eq_work_iff (hblank : ip.isBlank = false)
    (hheld : ∀ p ∈ l.checklist.range ⟨hostname, check⟩, p.isValidIP ip = true) :
    l.checkNeeded hostname ip check now = .work ↔ l.nextCheckTime hostname ip check now ≤ now := by
  have hvalid : (l.checklist.range ⟨hostname, check⟩).any (fun p => !p.isValidIP ip) = false := by
    simpa using hheld
  have hidle : ∀ params : List HMDataCheckParams,
      (∃ p ∈ params.filter fun p => (p.getQueryState ip).isIdle, p.nextCheckTime ip now ≤ now) ↔
        ∃ p ∈ params, p.nextCheckTime ip now ≤ now := by
    intro params
    constructor
    · rintro ⟨p, hp, hle⟩
      exact ⟨p, (List.mem_filter.mp hp).1, hle⟩
    · rintro ⟨p, hp, hle⟩
      exact ⟨p, List.mem_filter.mpr ⟨hp, isIdle_of_nextCheckTime_le hle⟩, hle⟩
  have hday : ¬ now + 86400000 ≤ now := by grind
  rw [nextCheckTime_le_iff, ← hidle]
  simp only [checkNeeded, hblank, hvalid, Bool.false_or, Bool.false_eq_true, if_false,
    foldl_earliest_le_iff, plus_hourInMs, hday, false_or]
  split
  · rename_i hdue
    exact iff_of_true rfl hdue
  · rename_i hdue
    refine iff_of_false ?_ hdue
    split <;> nofun

end HMDataCheckList

/-- A cache queues work for an entry exactly when the entry says it is due, unless the entry
is in progress past its time; the check list and its times agree always. -/
theorem schedulers_agree_iff (dnsCache : HMDNSCache) (remoteCache : HMRemoteHostGroupCache)
    (remoteHostCache : HMRemoteHostCache) (checkList : HMDataCheckList) (now : HMTimeStamp) :
    (∀ name lookup r, dnsCache.cache.get? (name, lookup) = some r →
      ((dnsCache.queryNeeded name lookup now = .work ↔ r.queryNeeded now = true) ↔
        r.isOverdue now = false)) ∧
    (∀ name r, remoteCache.get? name = some r →
      ((remoteCache.checkNeeded name now = .work ↔ r.checkNeeded now = true) ↔
        r.isOverdue now = false)) ∧
    (∀ name check r, remoteHostCache.get? (name, check) = some r →
      ((remoteHostCache.checkNeeded (name, check) now = .work ↔ r.checkNeeded now = true) ↔
        r.isOverdue now = false)) ∧
    (∀ hostname (ip : HMIPAddress) check, ip.isBlank = false →
      (∀ p ∈ checkList.checklist.range ⟨hostname, check⟩, p.isValidIP ip = true) →
      (checkList.checkNeeded hostname ip check now = .work ↔
        checkList.nextCheckTime hostname ip check now ≤ now)) := by
  refine ⟨?_, ?_, ?_, ?_⟩
  · intro name lookup r hr
    rw [HMDNSCache.queryNeeded, hr, HMDNSResult.queryNeeded, decide_eq_true_iff]
    exact scheduleState_agrees_iff
  · intro name r hr
    rw [RemoteCache.checkNeeded, hr, HMRemoteResult.checkNeeded, decide_eq_true_iff]
    exact scheduleState_agrees_iff
  · intro name check r hr
    rw [RemoteCache.checkNeeded, hr, HMRemoteResult.checkNeeded, decide_eq_true_iff]
    exact scheduleState_agrees_iff
  · intro hostname ip check hblank hheld
    exact HMDataCheckList.checkNeeded_eq_work_iff hblank hheld

/-- Entries that have never been looked up, and a check at an address that waits. -/
theorem schedulers_agree_at_start :
    let lookup := HMDNSLookup.new .lookup false []
    let dnsCache := HMDNSCache.empty.insertDNSEntry [104] lookup 1000 1000
    let groups : HMRemoteHostGroupCache := RemoteCache.insertRemoteEntry ∅ [103] 1000 1000
    let hosts : HMRemoteHostCache := RemoteCache.insertRemoteEntry ∅ ([104], .default) 1000 1000
    let params := (HMDataCheckParams.ofParameters .default).emptyQuery (.v4 1)
    let checkList : HMDataCheckList := ⟨SortedMultimap.empty.insert ⟨[104], .default⟩ params, false⟩
    (dnsCache.queryNeeded [104] lookup 5000 = .work ↔
      (HMDNSResult.new 1000 1000).queryNeeded 5000 = true) ∧
    (groups.checkNeeded [103] 5000 = .work ↔
      (HMRemoteResult.new 1000 1000).checkNeeded 5000 = true) ∧
    (hosts.checkNeeded ([104], .default) 5000 = .work ↔
      (HMRemoteResult.new 1000 1000).checkNeeded 5000 = true) ∧
    (checkList.checkNeeded [104] (.v4 1) .default 5000 = .work ↔
      checkList.nextCheckTime [104] (.v4 1) .default 5000 ≤ 5000) := by
  intro lookup dnsCache groups hosts params checkList
  obtain ⟨hdns, hgroup, hhost, hcheck⟩ := schedulers_agree_iff dnsCache groups hosts checkList 5000
  exact ⟨(hdns [104] lookup (.new 1000 1000) (by decide)).mpr (by decide),
    (hgroup [103] (.new 1000 1000) (by decide)).mpr (by decide),
    (hhost [104] .default (.new 1000 1000) (by decide)).mpr (by decide),
    hcheck [104] (.v4 1) .default (by decide) (by decide)⟩

/-- A lookup of one second that was started and never finished: ten seconds later it says
it is due, and the cache ignores it. -/
theorem overdue_lookup_ignored :
    let lookup := HMDNSLookup.new .lookup false []
    let started := (HMDNSCache.empty.insertDNSEntry [104] lookup 1000 1000).startDNSQuery
      [104] lookup 0
    started.queryNeeded [104] lookup 10000 = .ignore ∧
      (started.getDNSResult [104] lookup).map (fun r => r.queryNeeded 10000) = some true := by
  decide

/-! The deadline of a query in progress. -/

/-- What can happen to the DNS entry of a host; the arguments include the clock. -/
inductive DNSResultOp where
  | updateTimeouts (ttl timeout : UInt64)
  | updateQuery (addresses : SortedSet HMIPAddress)
  | queueQuery
  | startQuery (now : HMTimeStamp)
  | finishQuery (success : Bool) (now : HMTimeStamp)
  | setResultTime (resultTime : HMTimeStamp)

def HMDNSResult.apply (r : HMDNSResult) : DNSResultOp → HMDNSResult
  | .updateTimeouts ttl timeout => r.updateTimeouts ttl timeout
  | .updateQuery addresses => r.updateQuery addresses
  | .queueQuery => r.queueQuery
  | .startQuery now => r.startQuery now
  | .finishQuery success now => r.finishQuery success now
  | .setResultTime resultTime => r.setResultTime resultTime

inductive RemoteResultOp where
  | updateTimeouts (ttl timeout : UInt64)
  | queueCheck
  | startCheck (now : HMTimeStamp)
  | finishCheck (success : Bool) (now : HMTimeStamp)
  | setResultTime (resultTime : HMTimeStamp)

def HMRemoteResult.apply (r : HMRemoteResult) : RemoteResultOp → HMRemoteResult
  | .updateTimeouts ttl timeout => r.updateTimeouts ttl timeout
  | .queueCheck => r.queueCheck
  | .startCheck now => r.startCheck now
  | .finishCheck success now => r.finishCheck success now
  | .setResultTime resultTime => r.setResultTime resultTime

/-- When a query that was started at some time with a timeout is due, seen from a later one. -/
def dueAfterStart (start : HMTimeStamp) (timeout : UInt64) (later : HMTimeStamp) : HMTimeStamp :=
  if later ≤ start.plus timeout then start.plus timeout else later

/-- The timeout is zero, or negative to the signed clock, or it has passed twice. -/
def IsTimeoutSpent (start : HMTimeStamp) (timeout : UInt64) (later : HMTimeStamp) : Prop :=
  HMTimeStamp.ofUInt64 timeout ≤ 0 ∨ (start.plus timeout).plus timeout ≤ later

/-- The start adds the timeout to the clock, and reading the deadline adds it again. -/
theorem nextTime_started_iff {start later result : HMTimeStamp} {timeout ttl : UInt64}
    (h : start ≤ later) :
    nextTime .inProgress (start.plus timeout) timeout result ttl later =
      dueAfterStart start timeout later ↔ IsTimeoutSpent start timeout later := by
  have hlater : ∀ t : Int, start ≤ later → ((if start + t + t < later then later
      else start + t + t) = (if later ≤ start + t then start + t else later) ↔
      t ≤ 0 ∨ start + t + t ≤ later) := by
    intro t hle
    split <;> split <;> grind
  exact hlater (HMTimeStamp.ofUInt64 timeout) h

/-- After any operations that end in a start, the entry is due one timeout after the start,
as the start itself reports, exactly when the timeout counts for nothing or has passed twice. -/
theorem started_query_due_iff (r : HMDNSResult) (ops : List DNSResultOp) (q : HMRemoteResult)
    (remoteOps : List RemoteResultOp) (start later : HMTimeStamp) (h : start ≤ later) :
    (let before := ops.foldl HMDNSResult.apply r
     let started := before.apply (.startQuery start)
     started.queryTime = start.plus before.queryTimeout ∧
      (started.nextQueryTime later = dueAfterStart start before.queryTimeout later ↔
        IsTimeoutSpent start before.queryTimeout later)) ∧
    (let before := remoteOps.foldl HMRemoteResult.apply q
     let started := before.apply (.startCheck start)
     started.checkTime = start.plus before.remoteTimeout ∧
      (started.nextCheckTime later = dueAfterStart start before.remoteTimeout later ↔
        IsTimeoutSpent start before.remoteTimeout later)) := by
  constructor
  · exact ⟨rfl, nextTime_started_iff h⟩
  · exact ⟨rfl, nextTime_started_iff h⟩

theorem started_query_due_five_seconds_later :
    ((HMDNSResult.new 1000 1000).startQuery 0).nextQueryTime 5000 = 5000 ∧
      ((HMRemoteResult.new 1000 1000).startCheck 0).nextCheckTime 5000 = 5000 :=
  have h := started_query_due_iff (.new 1000 1000) [] (.new 1000 1000) [] 0 5000 (by decide)
  ⟨h.1.2.mpr (Or.inr (by decide)), h.2.2.mpr (Or.inr (by decide))⟩

/-- A lookup of one second, started at zero: the start reports a deadline after one second
and the entry names one after two. -/
theorem started_query_due_late :
    let started := (HMDNSResult.new 1000 1000).startQuery 0
    let startedCheck := (HMRemoteResult.new 1000 1000).startCheck 0
    started.queryTime = 1000 ∧ started.nextQueryTime 0 = 2000 ∧ started.nextQueryTime 1500 = 2000 ∧
      startedCheck.checkTime = 1000 ∧ startedCheck.nextCheckTime 0 = 2000 ∧
      startedCheck.nextCheckTime 1500 = 2000 := by
  decide

end NetCHASM
