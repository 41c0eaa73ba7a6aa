import NetCHASM.HealthRuns
import NetCHASM.Schedulers

/-! The timeouts that the event loop sets again. A popped timeout whose cache has nothing to
do about it now, and knows of no earlier one, is to be added once more. -/
namespace NetCHASM

open KeyOrder OrderedMap

/-- The timeouts of the event loop: of health checks, of lookups and of remote checks. -/
inductive LoopTimeout where
  | health (t : HealthTimeout)
  | daemon (t : Timeout)
  deriving DecidableEq, Repr

namespace HealthDaemon

def addLoopTimeout (d : HealthDaemon) : LoopTimeout → HealthDaemon
  | .health t => { d with healthTimeouts := d.healthTimeouts ++ [t] }
  | .daemon t => { d with toDaemon := d.toDaemon.addTimeout t }

/-- What the event loop does with a timeout it has popped. -/
def handleLoopTimeout (d : HealthDaemon) : LoopTimeout → HealthDaemon
  | .health t => d.handleHealthTimeout t
  | .daemon t => { d with toDaemon := d.toDaemon.handleTimeout t }

/-- The answer of the cache that owns a timeout. -/
def scheduleOf (d : HealthDaemon) : LoopTimeout → ScheduleState
  | .health t => d.current.checkList.checkNeeded t.hostname t.address t.hostCheck d.now
  | .daemon (.dns t) => d.current.dnsCache.queryNeeded t.name t.lookup d.now
  | .daemon (.remoteCheck name _) => RemoteCache.checkNeeded d.current.remoteCache name d.now
  | .daemon (.remoteHostCheck key _) => d.current.remoteHostCache.checkNeeded key d.now

/-- A timeout of the same kind and key, at the next time of the cache that owns it. -/
def rearmed (d : HealthDaemon) : LoopTimeout → LoopTimeout
  | .health t => .health
      { t with time := d.current.checkList.nextCheckTime t.hostname t.address t.hostCheck d.now }
  | .daemon (.dns t) => .daemon (.dns
      { t with time := d.current.dnsCache.nextQueryTime t.name t.lookup d.now })
  | .daemon (.remoteCheck name _) => .daemon (.remoteCheck name
      (RemoteCache.nextCheckTime d.current.remoteCache name d.now))
  | .daemon (.remoteHostCheck key _) => .daemon (.remoteHostCheck key
      (d.current.remoteHostCache.nextCheckTime key d.now))

/-- A lookup is due in exactly a day, and no check of its host under the default check is due
before that at the unset address. -/
def DueInADay (d : HealthDaemon) (t : DnsTimeout) : Prop :=
  d.current.dnsCache.nextQueryTime t.name t.lookup d.now = d.now + 86400000 ∧
    ∀ p ∈ d.current.checkList.checklist.range ⟨t.name, .default⟩,
      d.now + 86400000 ≤ p.nextCheckTime .unset d.now

/-- The timeouts that are set again as they should be. -/
def IsRearmable (d : HealthDaemon) : LoopTimeout → Prop
  | .health _ | .daemon (.remoteCheck _ _) => True
  | .daemon (.remoteHostCheck _ _) => False
  | .daemon (.dns t) => d.DueInADay t

end HealthDaemon

theorem scheduleState_eq_event {entry : Option (WorkState × HMTimeStamp)} {now : HMTimeStamp}
    (h : scheduleState entry now = .event) : ∃ e, entry = some e ∧ now + 86400000 ≤ e.2 := by
  have hday : ¬ now + 86400000 ≤ now := by grind
  cases entry with
  | none => simp [scheduleState, plus_hourInMs, hday] at h
  | some e =>
    refine ⟨e, rfl, ?_⟩
    by_cases hidle : e.1.isIdle = true
    · by_cases hlt : e.2 < now + 86400000
      · by_cases hdue : e.2 ≤ now
        · simp [scheduleState, plus_hourInMs, hidle, hlt, hdue] at h
        · simp [scheduleState, plus_hourInMs, hidle, hlt, hdue] at h
      · exact Int.not_lt.mp hlt
    · simp [scheduleState, plus_hourInMs, hidle, hday] at h

/-- The DNS cache sets a timeout again for a lookup that is at least a day off. -/
theorem day_le_nextQueryTime {c : HMDNSCache} {name : HMString} {lookup : HMDNSLookup}
    {now : HMTimeStamp} (h : c.queryNeeded name lookup now = .event) :
    now + 86400000 ≤ c.nextQueryTime name lookup now := by
  obtain ⟨e, hentry, hday⟩ := scheduleState_eq_event h
  rcases Option.map_eq_some_iff.mp hentry with ⟨r, hr, rfl⟩
  rw [HMDNSCache.nextQueryTime, hr]
  exact hday

/-- The earliest of some times and a limit is at or after the limit when it is the limit, and
none of the times is before it. -/
theorem foldl_earliest_eq_iff {α : Type} {time : α → HMTimeStamp} {xs : List α}
    {limit bound : HMTimeStamp} (h : limit ≤ bound) :
    xs.foldl (fun next x => if time x < next then time x else next) limit = bound ↔
      bound = limit ∧ ∀ x ∈ xs, limit ≤ time x := by
  have hle := foldl_earliest_le_iff time limit xs limit
  have hbelow := foldl_earliest_le_iff time (limit - 1) xs limit
  constructor
  · intro hfold
    rw [hfold] at hle hbelow
    have heq : bound = limit := Int.le_antisymm (hle.mpr (Or.inl (Int.le_refl limit))) h
    refine ⟨heq, ?_⟩
    intro x hx
    by_contra hlt
    have hone := hbelow.mpr (Or.inr ⟨x, hx, by grind⟩)
    grind
  · rintro ⟨rfl, hall⟩
    refine Int.le_antisymm (hle.mpr (Or.inl (Int.le_refl bound))) ?_
    by_contra hlt
    rcases hbelow.mp (by grind) with hone | ⟨x, hx, hone⟩
    · grind
    · have hx' := hall x hx
      grind

/-- A timeout that its cache answers with another one is set again with its kind, its key and
the time of its cache: always for health checks and remote groups, never for remote hosts,
and for lookups only when the time of the health checks happens to be the right one. -/
theorem handleLoopTimeout_rearms_iff (d : HealthDaemon) (t : LoopTimeout)
    (h : d.scheduleOf t = .event) :
    d.handleLoopTimeout t = d.addLoopTimeout (d.rearmed t) ↔ d.IsRearmable t := by
  cases t with
  | health t =>
    refine iff_of_true ?_ trivial
    rw [HealthDaemon.scheduleOf] at h
    rw [HealthDaemon.handleLoopTimeout, HealthDaemon.handleHealthTimeout, h]
    rfl
  | daemon t =>
    cases t with
    | dns t =>
      rw [HealthDaemon.scheduleOf] at h
      have hnext := day_le_nextQueryTime h
      rw [HealthDaemon.handleLoopTimeout, Daemon.handleTimeout, h, HealthDaemon.IsRearmable,
        HealthDaemon.DueInADay, ← foldl_earliest_eq_iff hnext, ← plus_hourInMs]
      simp [HealthDaemon.addLoopTimeout, HealthDaemon.rearmed, Daemon.addTimeout,
        HMDataCheckList.nextCheckTime]
    | remoteCheck name time =>
      refine iff_of_true ?_ trivial
      rw [HealthDaemon.scheduleOf] at h
      rw [HealthDaemon.handleLoopTimeout, Daemon.handleTimeout, h]
      rfl
    | remoteHostCheck key time =>
      rw [HealthDaemon.scheduleOf] at h
      rw [HealthDaemon.handleLoopTimeout, Daemon.handleTimeout, h]
      simp [HealthDaemon.addLoopTimeout, HealthDaemon.rearmed, Daemon.addTimeout,
        HealthDaemon.IsRearmable]

/-- A daemon without configured groups whose caches each hold one entry that is due in more
than two days. -/
def quietDaemon : HealthDaemon where
  current := { HMState.generateCheckList .default ∅ with
    dnsCache := HMDNSCache.empty.insertDNSEntry [104] (.new .lookup false []) 200000000 1000
    remoteCache := RemoteCache.insertRemoteEntry ∅ [103] 200000000 1000
    remoteHostCache := RemoteCache.insertRemoteEntry ∅ ([104], .default) 200000000 1000 }
  works := []
  timeouts := []
  now := 0
  healthTimeouts := []
  markWorks := []

theorem quiet_remote_group_rearmed :
    quietDaemon.handleLoopTimeout (.daemon (.remoteCheck [103] 0)) =
      quietDaemon.addLoopTimeout (.daemon (.remoteCheck [103] 200000000)) :=
  (handleLoopTimeout_rearms_iff quietDaemon (.daemon (.remoteCheck [103] 0)) (by decide)).mpr
    trivial

/-- A remote host's timeout comes back as that of a group with the host's name, and a
lookup's a day later although its cache names a later time. -/
theorem quiet_host_and_lookup_misarmed :
    quietDaemon.scheduleOf (.daemon (.remoteHostCheck ([104], .default) 0)) = .event ∧
      quietDaemon.handleLoopTimeout (.daemon (.remoteHostCheck ([104], .default) 0)) =
        quietDaemon.addLoopTimeout (.daemon (.remoteCheck [104] 200000000)) ∧
      quietDaemon.scheduleOf (.daemon (.dns ⟨[104], .new .lookup false [], 0⟩)) = .event ∧
      quietDaemon.handleLoopTimeout (.daemon (.dns ⟨[104], .new .lookup false [], 0⟩)) =
        quietDaemon.addLoopTimeout (.daemon (.dns ⟨[104], .new .lookup false [], 86400000⟩)) ∧
      quietDaemon.current.dnsCache.nextQueryTime [104] (.new .lookup false []) 0 = 200000000 := by
  decide

end NetCHASM
