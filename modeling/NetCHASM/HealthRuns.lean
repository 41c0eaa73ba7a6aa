import NetCHASM.DNSRuns

/-! The health checks of the running daemon: their timeouts, the works that carry them out
and the forced ones, beside everything else the daemon does. No health check is queued at a
blank address, except by a reload: that queues checks at every address the old cache
holds. -/
namespace NetCHASM

open KeyOrder OrderedMap

structure HealthTimeout where
  hostname : HMString
  address : HMIPAddress
  hostCheck : HMDataHostCheck
  time : HMTimeStamp
  deriving DecidableEq, Repr

/-- One of the checks that a check with socket marks is split into. -/
structure MarkWork where
  hostname : HMString
  ipAddress : HMIPAddress
  hostCheck : HMDataHostCheck
  mark : Int
  deriving DecidableEq, Repr

def CheckType.isAux : CheckType → Bool
  | .auxHttp | .auxHttps | .auxHttpsNoPeerCheck | .auxMtlsHttps | .auxMtlsHttpsNoPeerCheck => true
  | _ => false

def CheckType.isMark : CheckType → Bool
  | .markHttp | .markHttps | .markHttpsNoPeerCheck => true
  | _ => false

structure HealthDaemon extends Daemon where
  healthTimeouts : List HealthTimeout
  markWorks : List MarkWork
  deriving DecidableEq, Repr

namespace HealthDaemon

def start (s : HMState) (now : HMTimeStamp) : HealthDaemon := ⟨Daemon.start s now, [], []⟩

def queueCheck (d : HealthDaemon) (hostname : HMString) (ip : HMIPAddress)
    (check : HMDataHostCheck) : HealthDaemon :=
  { d with toDaemon := d.putHealth (d.current.checkList.queueCheck hostname ip check) }

def addHealthCheckTimeout (d : HealthDaemon) (hostname : HMString) (ip : HMIPAddress)
    (check : HMDataHostCheck) (time : HMTimeStamp) : HealthDaemon :=
  { d with healthTimeouts := d.healthTimeouts ++ [⟨hostname, ip, check, time⟩] }

/-- The event loop handles the timeout of a health check. -/
def handleHealthTimeout (d : HealthDaemon) (t : HealthTimeout) : HealthDaemon :=
  match d.current.checkList.checkNeeded t.hostname t.address t.hostCheck d.now with
  | .work => d.queueCheck t.hostname t.address t.hostCheck
  | .event => d.addHealthCheckTimeout t.hostname t.address t.hostCheck
      (d.current.checkList.nextCheckTime t.hostname t.address t.hostCheck d.now)
  | .ignore => d

/-- The result of a health check is recorded. -/
def recordCheck (d : HealthDaemon) (hostname : HMString) (ip : HMIPAddress)
    (check : HMDataHostCheck) (report : CheckReport) : HealthDaemon :=
  let l := (d.current.checkList.startCheck hostname check ip d.now).updateCheckWork hostname check
    ip { report with port := check.port }
  { d with toDaemon := d.putHealth (l, []) }

/-- Whether a check is repeated at its address. Fetches of auxiliary data do not ask the
DNS cache. -/
def isRepeated (d : HealthDaemon) (w : HealthWork) : Bool :=
  w.reschedule && (w.hostCheck.checkType.isAux ||
    d.current.dnsCache.isValidAddress w.hostname w.hostCheck.dualstack
      (.new w.hostCheck.dnsType (w.ipAddress.getType == afInet6) w.hostCheck.remoteCheck)
      w.ipAddress)

def reschedule (d : HealthDaemon) (w : HealthWork) : HealthDaemon :=
  let checkTime := d.current.checkList.nextCheckTime w.hostname w.ipAddress w.hostCheck d.now
  if !d.isRepeated w then d
  else if checkTime ≤ d.now then d.queueCheck w.hostname w.ipAddress w.hostCheck
  else d.addHealthCheckTimeout w.hostname w.ipAddress w.hostCheck checkTime

/-- A worker carries a health check out. One with socket marks queues a check for each of
the marks that are set for it. -/
def processHealth (d : HealthDaemon) (w : HealthWork) (report : CheckReport) (marks : List Int) :
    HealthDaemon :=
  let d := if w.hostCheck.checkType.isMark then
      { d with markWorks := d.markWorks ++
          marks.map fun mark => ⟨w.hostname, w.ipAddress, w.hostCheck, mark⟩ }
    else d
  (d.recordCheck w.hostname w.ipAddress w.hostCheck report).reschedule w

def forceHealthCheck (d : HealthDaemon) (hostGroup : HMString) (hostName : Option HMString) :
    HealthDaemon :=
  let r := d.current.forceHealthCheck hostGroup hostName
  { d with toDaemon := (d.putDNS (r.1.dnsCache, r.2.1)).putHealth (r.1.checkList, r.2.2) }

inductive Event where
  | daemon (e : Daemon.Event)
  | popHealth (i : ℕ)
  | processHealth (i : ℕ) (report : CheckReport) (marks : List Int)
  | processMark (i : ℕ) (report : CheckReport)
  | forceHealthCheck (hostGroup : HMString) (hostName : Option HMString)
  deriving DecidableEq, Repr

/-- No timeout of a health check is before the given one. -/
def isFirst (d : HealthDaemon) (time : HMTimeStamp) : Bool :=
  d.healthTimeouts.all fun t => time ≤ t.time

/-- Whether the heap lets an event of the daemon happen. -/
def isAllowed (d : HealthDaemon) : Daemon.Event → Bool
  | .pop i => d.timeouts[i]?.all fun t => d.isFirst t.time
  | _ => true

def step (d : HealthDaemon) : Event → Option HealthDaemon
  | .daemon e =>
    if d.isAllowed e then (d.toDaemon.step e).map fun d' => { d with toDaemon := d' } else none
  | .popHealth i =>
    match d.healthTimeouts[i]? with
    | some t =>
      if t.time ≤ d.now && d.isFirst t.time && d.timeouts.all fun t' => t.time ≤ t'.time then
        some ({ d with healthTimeouts := d.healthTimeouts.eraseIdx i }.handleHealthTimeout t)
      else none
    | none => none
  | .processHealth i report marks =>
    match d.works[i]? with
    | some (.healthCheck w) =>
      some (processHealth { d with works := d.works.eraseIdx i } w report marks)
    | _ => none
  | .processMark i report =>
    match d.markWorks[i]? with
    | some w =>
      some ({ d with markWorks := d.markWorks.eraseIdx i }.recordCheck w.hostname w.ipAddress
        w.hostCheck report)
    | none => none
  | .forceHealthCheck hostGroup hostName => some (d.forceHealthCheck hostGroup hostName)

variable {h h' : HealthDaemon} {i : ℕ}

theorem step_daemon {e : Daemon.Event} (hstep : h.step (.daemon e) = some h') :
    h.isAllowed e = true ∧ ∃ d', h.toDaemon.step e = some d' ∧ h' = { h with toDaemon := d' } := by
  simp only [step] at hstep
  split at hstep
  · rename_i hallowed
    rcases Option.map_eq_some_iff.mp hstep with ⟨d', hd', rfl⟩
    exact ⟨hallowed, d', hd', rfl⟩
  · cases hstep

theorem step_popHealth (hstep : h.step (.popHealth i) = some h') :
    ∃ t, h.healthTimeouts[i]? = some t ∧
      (t.time ≤ h.now ∧ h.isFirst t.time = true ∧ ∀ t' ∈ h.timeouts, t.time ≤ t'.time) ∧
      h' = { h with healthTimeouts := h.healthTimeouts.eraseIdx i }.handleHealthTimeout t := by
  simp only [step] at hstep
  split at hstep
  · rename_i t ht
    split at hstep
    · rename_i hnext
      refine ⟨t, ht, ?_, (Option.some.inj hstep).symm⟩
      simpa [and_assoc] using hnext
    · cases hstep
  · cases hstep

theorem step_processHealth {report : CheckReport} {marks : List Int}
    (hstep : h.step (.processHealth i report marks) = some h') :
    ∃ w, h.works[i]? = some (.healthCheck w) ∧
      h' = processHealth { h with works := h.works.eraseIdx i } w report marks := by
  simp only [step] at hstep
  split at hstep
  · rename_i w hw
    exact ⟨w, hw, (Option.some.inj hstep).symm⟩
  · cases hstep

theorem step_processMark {report : CheckReport}
    (hstep : h.step (.processMark i report) = some h') :
    ∃ w, h.markWorks[i]? = some w ∧
      h' = { h with markWorks := h.markWorks.eraseIdx i }.recordCheck w.hostname w.ipAddress
        w.hostCheck report := by
  simp only [step] at hstep
  split at hstep
  · rename_i w hw
    exact ⟨w, hw, (Option.some.inj hstep).symm⟩
  · cases hstep

end HealthDaemon

end NetCHASM

namespace HealthRuns

open NetCHASM KeyOrder OrderedMap Runs HMState ReloadDNS DNSChain

/-- No health check in the queue is for a blank address. -/
structure NoneBlank (d : HealthDaemon) : Prop where
  health : ∀ w, Work.healthCheck w ∈ d.works → w.ipAddress.isBlank = false
  mark : ∀ w ∈ d.markWorks, w.ipAddress.isBlank = false

/-- The addresses that the restored cache offers for a host under a check are resolved. -/
def Resolves (src : HMState) (host : HMString) (check : HMDataHostCheck) : Prop :=
  ∀ ipv6 ∈ check.dualstack.families,
    carries src (host, .new check.dnsType ipv6 check.remoteCheck) = true →
      ∀ a ∈ offered src.dnsCache (host, .new check.dnsType ipv6 check.remoteCheck),
        a.isBlank = false

/-- The old cache holds no blank address for a host that the new groups have checked again. -/
def ReloadResolves (src new : HMState) : Prop :=
  ∀ e ∈ new.hostGroups.entries, ∀ host ∈ hostsToReschedule e.2 (src.hostGroups.get? e.1),
    (e.2.getHostCheck.getD .default).checkType.runsOn
        (e.2.getHostCheck.getD .default).checkPlugin = true →
      Resolves src host (e.2.getHostCheck.getD .default)

/-- The condition on a step: a reload finds resolved hosts alone to check again. -/
def Guarded (d : HealthDaemon) : HealthDaemon.Event → Prop
  | .daemon (.reload settings hostGroups) =>
    ReloadResolves d.current (generateCheckList settings hostGroups)
  | _ => True

/-! What each operation of the daemon adds to the health checks in the queue. -/

variable {d : Daemon} {w : HealthWork}

@[simp] theorem mem_putDNS {r : HMDNSCache × List DnsWork} :
    Work.healthCheck w ∈ (d.putDNS r).works ↔ Work.healthCheck w ∈ d.works := by
  simp [Daemon.putDNS]

@[simp] theorem mem_putRemote {r : HMRemoteHostGroupCache × List RemoteWork} :
    Work.healthCheck w ∈ (d.putRemote r).works ↔ Work.healthCheck w ∈ d.works := by
  simp [Daemon.putRemote]

@[simp] theorem mem_putRemoteHost {r : HMRemoteHostCache × List RemoteWork} :
    Work.healthCheck w ∈ (d.putRemoteHost r).works ↔ Work.healthCheck w ∈ d.works := by
  simp [Daemon.putRemoteHost]

@[simp] theorem mem_putHealth {r : HMDataCheckList × List HealthWork} :
    Work.healthCheck w ∈ (d.putHealth r).works ↔ Work.healthCheck w ∈ d.works ∨ w ∈ r.2 := by
  simp [Daemon.putHealth]

@[simp] theorem works_addTimeout (t : Timeout) : (d.addTimeout t).works = d.works := rfl

@[simp] theorem mem_queueLookups {restart : Bool} :
    Work.healthCheck w ∈ (d.queueLookups restart).works ↔ Work.healthCheck w ∈ d.works := by
  have hdns : ∀ d : Daemon, Work.healthCheck w ∈ (d.queueDNSLookups restart).works ↔
      Work.healthCheck w ∈ d.works := fun _ => mem_putDNS
  have hremote : ∀ d : Daemon, Work.healthCheck w ∈ (d.queueRemoteLookups restart).works ↔
      Work.healthCheck w ∈ d.works := fun _ => mem_putRemote
  have hhost : ∀ d : Daemon, Work.healthCheck w ∈ (d.queueRemoteHostLookups restart).works ↔
      Work.healthCheck w ∈ d.works := fun _ => mem_putRemoteHost
  rw [Daemon.queueLookups, hhost, hremote, hdns]

@[simp] theorem mem_handleTimeout {t : Timeout} :
    Work.healthCheck w ∈ (d.handleTimeout t).works ↔ Work.healthCheck w ∈ d.works := by
  cases t with
  | dns t =>
    simp only [Daemon.handleTimeout]
    split <;> simp [Daemon.queueDNSQuery]
  | remoteCheck name time =>
    simp only [Daemon.handleTimeout]
    split <;> simp [Daemon.queueRemoteCheck]
  | remoteHostCheck key time =>
    simp only [Daemon.handleTimeout]
    split <;> simp [Daemon.queueRemoteHostCheck]

@[simp] theorem mem_remoteFallback {v : RemoteWork} {o : RemoteOutcome} {hosts : List HMString} :
    Work.healthCheck w ∈ (d.remoteFallback v o hosts).works ↔ Work.healthCheck w ∈ d.works := by
  rw [Daemon.remoteFallback]
  split <;> simp

theorem mem_processRemote {v : RemoteWork} {o : RemoteOutcome} :
    Work.healthCheck w ∈ (d.processRemote v o).works ↔ Work.healthCheck w ∈ d.works := by
  rw [Daemon.processRemote]
  split
  · rw [mem_remoteFallback]
    split <;> simp [Daemon.queueRemoteCheck]
  · rfl

theorem mem_processRemoteHost {v : RemoteWork} {o : RemoteOutcome} :
    Work.healthCheck w ∈ (d.processRemoteHost v o).works ↔ Work.healthCheck w ∈ d.works := by
  rw [Daemon.processRemoteHost]
  dsimp only
  split
  · rw [mem_remoteFallback]
    split <;> simp [Daemon.queueRemoteHostCheck]
  · rfl

/-- A health check is queued for the address it is asked for. -/
theorem ipAddress_queueCheck {l : HMDataCheckList} {hostname : HMString} {ip : HMIPAddress}
    {check : HMDataHostCheck} (hw : w ∈ (l.queueCheck hostname ip check).2) :
    w.ipAddress = ip := by
  simp only [HMDataCheckList.queueCheck] at hw
  split at hw
  · rw [List.mem_singleton.mp hw]
  · cases hw

/-- The checks that wait for a lookup are queued at resolved addresses. -/
theorem resolved_kickHealthCheck {cache : HMDNSCache} {now : HMTimeStamp} {v : DnsWork}
    {report : CheckReport} {acc : HMDataCheckList × List HealthWork} {check : HMDataHostCheck}
    (h : ∀ w ∈ acc.2, w.ipAddress.isBlank = false) :
    ∀ w ∈ (Daemon.kickHealthCheck cache now v report acc check).2, w.ipAddress.isBlank = false := by
  rw [Daemon.kickHealthCheck]
  dsimp only
  split
  · refine List.foldlRecOn (motive := fun acc : HMDataCheckList × List HealthWork =>
      ∀ w ∈ acc.2, w.ipAddress.isBlank = false) _ _ h ?_
    intro acc hacc ip _
    split
    · split
      · exact hacc
      · exact hacc
    · rename_i hnot
      split
      · intro w hw
        rcases List.mem_append.mp hw with hw | hw
        · exact hacc w hw
        · rw [ipAddress_queueCheck hw]
          exact Bool.not_eq_true _ ▸ hnot
      · exact hacc
  · exact h

theorem mem_kickHealthChecks {v : DnsWork} {report : CheckReport}
    (hw : Work.healthCheck w ∈ (d.kickHealthChecks v report).works) :
    Work.healthCheck w ∈ d.works ∨ w.ipAddress.isBlank = false := by
  have hnone : ∀ w ∈ ((d.current.checkList, []) : HMDataCheckList × List HealthWork).2,
      w.ipAddress.isBlank = false := by
    intro w hw
    cases hw
  have hkicked := List.foldlRecOn (motive := fun acc : HMDataCheckList × List HealthWork =>
    ∀ w ∈ acc.2, w.ipAddress.isBlank = false)
    (d.current.dnsWaitList.range (v.name, v.lookup.type.code))
    (Daemon.kickHealthCheck d.current.dnsCache d.now v report) hnone
    fun acc hacc check _ => resolved_kickHealthCheck hacc
  rcases mem_putHealth.mp hw with hw | hw
  · exact Or.inl hw
  · exact Or.inr (hkicked w hw)

theorem mem_processDNS {v : DnsWork} {o : DnsOutcome}
    (hw : Work.healthCheck w ∈ (d.processDNS v o).works) :
    Work.healthCheck w ∈ d.works ∨ w.ipAddress.isBlank = false := by
  have hreschedule : ∀ d : Daemon, Work.healthCheck w ∈ (d.rescheduleDNS v).works ↔
      Work.healthCheck w ∈ d.works := by
    intro d
    unfold Daemon.rescheduleDNS
    dsimp only
    split
    · rfl
    · split <;> simp [Daemon.queueDNSQuery]
  rw [Daemon.processDNS] at hw
  split at hw
  · rcases mem_kickHealthChecks hw with hw | hw
    · rw [hreschedule, mem_putDNS] at hw
      exact Or.inl hw
    · exact Or.inr hw
  · exact Or.inl hw

/-! The health checks that a reload queues. -/

/-- A cache holds an address for a key. -/
def Holds (c : HMDNSCache) (k : DNSKey) (a : HMIPAddress) : Prop :=
  ∃ r, c.cache.get? k = some r ∧ a ∈ r.addr.toList

theorem mem_getAddresses {c : HMDNSCache} {name : HMString} {dualstack : DualStack}
    {lookup : HMDNSLookup} {a : HMIPAddress} :
    a ∈ (c.getAddresses name dualstack lookup).toList ↔
      ∃ ipv6 ∈ dualstack.families,
        Holds c (name, .new lookup.type ipv6 lookup.remoteCheckGroup) a := by
  rw [← SortedSet.contains_iff_mem, HMDNSCache.getAddresses, HMDNSCache.collectAddresses]
  refine (SortedSet.contains_foldl (P := fun l a => Holds c (name, l) a) ?_ _ ∅ a).trans ?_
  · intro acc l a
    simp only [Holds, HMDNSCache.getDNSResult]
    cases c.cache.get? (name, l) with
    | none => simp
    | some r => simp [SortedSet.contains_insertAll, eqv_iff_eq]
  · have hempty : (∅ : SortedSet HMIPAddress).contains a = false := rfl
    simp only [hempty, HMDNSCache.familyLookups, Bool.false_eq_true, false_or, List.mem_map,
      exists_exists_and_eq_and]

theorem holds_queues {c c' : HMDNSCache} {works : List DnsWork} {k : DNSKey} {a : HMIPAddress}
    (hq : Queues c c' works) : Holds c' k a ↔ Holds c k a := by
  have haddr : ∀ {e e'}, c.cache.find? k = some e → c'.cache.find? k = some e' →
      e'.2.addr = e.2.addr := by
    intro e e' he he'
    obtain ⟨e₀, he₀, -, hvalue⟩ := hq.entry he'
    obtain rfl := Option.some.inj (he.symm.trans he₀)
    rcases hvalue with hsame | ⟨hqueued, -⟩
    · rw [hsame]
    · rw [hqueued]
      rfl
  constructor
  · rintro ⟨r, hr, ha⟩
    rcases Option.map_eq_some_iff.mp hr with ⟨e', he', rfl⟩
    obtain ⟨e, he, -⟩ := hq.entry he'
    exact ⟨e.2, by rw [SortedMap.get?, he]; rfl, haddr he he' ▸ ha⟩
  · rintro ⟨r, hr, ha⟩
    rcases Option.map_eq_some_iff.mp hr with ⟨e, he, rfl⟩
    obtain ⟨e', he'⟩ := hq.keeps he
    exact ⟨e'.2, by rw [SortedMap.get?, he']; rfl, (haddr he he').symm ▸ ha⟩

/-- A restored fresh cache holds what the old one offers. -/
theorem holds_restore {src dest : HMState} {k : DNSKey} {a : HMIPAddress}
    (hfresh : ∀ e ∈ dest.dnsCache.cache.entries, e.2.addr = ∅) :
    Holds (dest.restoreRunningCheckState src).dnsCache k a ↔
      carries src k = true ∧ a ∈ offered src.dnsCache k := by
  have hcore : Holds (dest.restoreRunningCheckState src).dnsCache k a ↔
      ∃ e, ((dest.restoreRunningCheckState src).dnsCache.cache.find? k).map core = some e ∧
        a ∈ e.2.addr.toList := by
    simp only [Holds, SortedMap.get?, Option.map_eq_some_iff]
    constructor
    · rintro ⟨r, ⟨e, he, rfl⟩, ha⟩
      exact ⟨core e, ⟨e, he, rfl⟩, ha⟩
    · rintro ⟨e', ⟨e, he, rfl⟩, ha⟩
      exact ⟨e.2, ⟨e, he, rfl⟩, ha⟩
  rw [hcore, find?_restore]
  by_cases hcarries : carries src k = true
  · simp only [hcarries, if_true, Option.some.injEq, exists_eq_left', true_and, reloaded]
    rw [← SortedSet.contains_iff_mem, SortedSet.contains_insertAll]
    simp [SortedMap.contains, eqv_iff_eq]
  · rw [if_neg hcarries]
    constructor
    · rintro ⟨_, hmap, ha⟩
      rcases Option.map_eq_some_iff.mp hmap with ⟨e, he, rfl⟩
      rw [core, hfresh e (SortedMap.mem_of_find? he)] at ha
      cases ha
    · rintro ⟨hcarries', -⟩
      exact absurd hcarries' hcarries

theorem mem_queueChecks (checks : List (HMString × HMIPAddress × HMDataHostCheck))
    (acc : HMDataCheckList × List HealthWork) :
    w ∈ (checks.foldl (fun acc c => ((acc.1.queueCheck c.1 c.2.1 c.2.2).1,
      acc.2 ++ (acc.1.queueCheck c.1 c.2.1 c.2.2).2)) acc).2 ↔
      w ∈ acc.2 ∨ ∃ c ∈ checks, c.2.2.checkType.runsOn c.2.2.checkPlugin = true ∧
        w = ⟨c.1, c.2.1, c.2.2, c.2.2.flowType = .dnsHealth⟩ := by
  induction checks generalizing acc with
  | nil => simp
  | cons c checks ih =>
    rw [List.foldl_cons, ih, List.mem_append, List.exists_mem_cons_iff, or_assoc]
    simp only [HMDataCheckList.queueCheck]
    by_cases hruns : c.2.2.checkType.runsOn c.2.2.checkPlugin = true
    · simp [hruns]
    · simp [hruns]

theorem mem_resheduleHealthChecks {s src : HMState} :
    w ∈ (s.resheduleHealthChecks src).2 ↔
      ∃ e ∈ s.hostGroups.entries, ∃ host ∈ hostsToReschedule e.2 (src.hostGroups.get? e.1),
        ∃ a ∈ (s.dnsCache.getAddresses host (e.2.getHostCheck.getD .default).dualstack
            (.new (e.2.getHostCheck.getD .default).dnsType false
              (e.2.getHostCheck.getD .default).remoteCheck)).toList,
          (e.2.getHostCheck.getD .default).checkType.runsOn
              (e.2.getHostCheck.getD .default).checkPlugin = true ∧
            w = ⟨host, a, e.2.getHostCheck.getD .default,
              (e.2.getHostCheck.getD .default).flowType = .dnsHealth⟩ := by
  rw [resheduleHealthChecks, mem_queueChecks]
  simp only [List.not_mem_nil, false_or, List.mem_flatMap, List.mem_map]
  constructor
  · rintro ⟨_, ⟨e, he, host, hhost, a, ha, rfl⟩, hruns, hw⟩
    exact ⟨e, he, host, hhost, a, ha, hruns, hw⟩
  · rintro ⟨e, he, host, hhost, a, ha, hruns, hw⟩
    exact ⟨_, ⟨e, he, host, hhost, a, ha, rfl⟩, hruns, hw⟩

/-- The works of a reload are for resolved addresses just when the old cache offers no
others. -/
theorem resolved_swapStates_iff {settings : Settings} {hostGroups : HMDataHostGroupMap}
    (h : ∀ w, Work.healthCheck w ∈ d.works → w.ipAddress.isBlank = false) :
    (∀ w, Work.healthCheck w ∈ (d.swapStates (generateCheckList settings hostGroups)).works →
      w.ipAddress.isBlank = false) ↔
        ReloadResolves d.current (generateCheckList settings hostGroups) := by
  have hfresh : ∀ e ∈ (generateCheckList settings hostGroups).dnsCache.cache.entries,
      e.2.addr = ∅ :=
    forall_generateCheckList (P := fun _ r => r.addr = ∅) settings hostGroups
      (fun _ _ _ _ h => h) fun _ _ _ _ => rfl
  generalize generateCheckList settings hostGroups = new at hfresh ⊢
  let d₁ := d.replaceState new
  let d₂ := d₁.resheduleDNSChecks d.current
  have hworks : ∀ w, Work.healthCheck w ∈ (d.swapStates new).works ↔
      Work.healthCheck w ∈ d.works ∨ w ∈ (d₂.current.resheduleHealthChecks d.current).2 := by
    intro w
    change Work.healthCheck w ∈ ((d₂.resheduleHealthChecks d.current).queueLookups false).works ↔ _
    rw [mem_queueLookups, Daemon.resheduleHealthChecks, mem_putHealth]
    rw [show Work.healthCheck w ∈ d₂.works ↔ Work.healthCheck w ∈ d₁.works from mem_putDNS]
    rfl
  have hgroups : d₂.current.hostGroups = new.hostGroups :=
    (restore_sameConfiguration d.current new).hostGroups
  have hholds : ∀ k a, Holds d₂.current.dnsCache k a ↔
      carries d.current k = true ∧ a ∈ offered d.current.dnsCache k := by
    intro k a
    rw [← holds_restore hfresh]
    exact holds_queues (queues_resheduleDNSChecks d₁.current d.current)
  simp only [hworks, mem_resheduleHealthChecks, mem_getAddresses, hgroups, hholds,
    HMDNSLookup.new_type, HMDNSLookup.new_remoteCheckGroup]
  constructor
  · intro hall e he host hhost hruns ipv6 hipv6 hcarries a ha
    exact hall _ (Or.inr ⟨e, he, host, hhost, a, ⟨ipv6, hipv6, hcarries, ha⟩, hruns, rfl⟩)
  · intro hall w hw
    rcases hw with hw | ⟨e, he, host, hhost, a, ⟨ipv6, hipv6, hcarries, ha⟩, hruns, rfl⟩
    · exact h w hw
    · exact hall e he host hhost hruns ipv6 hipv6 hcarries a ha

/-! The whole system. -/

variable {h h' : HealthDaemon}

theorem NoneBlank.queueCheck (hnone : NoneBlank h) {hostname : HMString} {ip : HMIPAddress}
    (check : HMDataHostCheck) (hip : ip.isBlank = false) :
    NoneBlank (h.queueCheck hostname ip check) where
  health := by
    intro w hw
    rcases mem_putHealth.mp hw with hw | hw
    · exact hnone.health w hw
    · rw [ipAddress_queueCheck hw]
      exact hip
  mark := hnone.mark

theorem NoneBlank.handleHealthTimeout (hnone : NoneBlank h) (t : HealthTimeout) :
    NoneBlank (h.handleHealthTimeout t) := by
  rw [HealthDaemon.handleHealthTimeout]
  split
  · rename_i hneeded
    apply hnone.queueCheck
    -- a check is needed at no blank address
    cases hblank : t.address.isBlank with
    | false => rfl
    | true => simp [HMDataCheckList.checkNeeded, hblank] at hneeded
  · exact ⟨hnone.health, hnone.mark⟩
  · exact hnone

theorem NoneBlank.recordCheck (hnone : NoneBlank h) (hostname : HMString) (ip : HMIPAddress)
    (check : HMDataHostCheck) (report : CheckReport) :
    NoneBlank (h.recordCheck hostname ip check report) where
  health := by
    intro w hw
    rcases mem_putHealth.mp hw with hw | hw
    · exact hnone.health w hw
    · cases hw
  mark := hnone.mark

theorem NoneBlank.processHealth (hnone : NoneBlank h) {w : HealthWork}
    (hw : w.ipAddress.isBlank = false) (report : CheckReport) (marks : List Int) :
    NoneBlank (h.processHealth w report marks) := by
  have hreschedule : ∀ {h : HealthDaemon}, NoneBlank h → NoneBlank (h.reschedule w) := by
    intro h hnone
    unfold HealthDaemon.reschedule
    dsimp only
    split
    · exact hnone
    · split
      · exact hnone.queueCheck w.hostCheck hw
      · exact ⟨hnone.health, hnone.mark⟩
  rw [HealthDaemon.processHealth]
  apply hreschedule
  apply NoneBlank.recordCheck
  split
  · refine ⟨hnone.health, ?_⟩
    intro v hv
    rcases List.mem_append.mp hv with hv | hv
    · exact hnone.mark v hv
    · rcases List.mem_map.mp hv with ⟨mark, -, rfl⟩
      exact hw
  · exact hnone

/-- A forced check at a blank address becomes a lookup. -/
theorem resolved_forceHealthCheck (s : HMState) (hostGroup : HMString)
    (hostName : Option HMString) :
    ∀ w ∈ (s.forceHealthCheck hostGroup hostName).2.2, w.ipAddress.isBlank = false := by
  have haddress : ∀ g check host (acc : HMState × List DnsWork × List HealthWork) address,
      (∀ w ∈ acc.2.2, w.ipAddress.isBlank = false) →
        ∀ w ∈ (forceAddress g check host acc address).2.2, w.ipAddress.isBlank = false := by
    intro g check host acc address hacc w hw
    rw [forceAddress] at hw
    split at hw
    · exact hacc w hw
    · rename_i hnot
      rcases List.mem_append.mp hw with hw | hw
      · exact hacc w hw
      · rw [ipAddress_queueCheck hw]
        exact Bool.not_eq_true _ ▸ hnot
  rw [forceHealthCheck]
  split
  · simp
  · split
    · simp
    · refine List.foldlRecOn (motive := fun acc : HMState × List DnsWork × List HealthWork =>
        ∀ w ∈ acc.2.2, w.ipAddress.isBlank = false) _ _ (by simp) ?_
      intro acc hacc host _
      exact List.foldlRecOn (motive := fun acc : HMState × List DnsWork × List HealthWork =>
        ∀ w ∈ acc.2.2, w.ipAddress.isBlank = false) _ _ hacc
        fun acc hacc address _ => haddress _ _ host acc address hacc

/-- A step of the daemon other than a reload queues health checks at resolved addresses. -/
theorem mem_step {e : Daemon.Event} {d' : Daemon}
    (hreload : ∀ settings hostGroups, e ≠ .reload settings hostGroups) (hstep : d.step e = some d')
    (hw : Work.healthCheck w ∈ d'.works) :
    Work.healthCheck w ∈ d.works ∨ w.ipAddress.isBlank = false := by
  have herase : ∀ {i : ℕ}, Work.healthCheck w ∈ d.works.eraseIdx i → Work.healthCheck w ∈ d.works :=
    fun hmem => List.mem_of_mem_eraseIdx hmem
  cases e with
  | pop i =>
    obtain ⟨t, -, -, rfl⟩ := Daemon.step_pop hstep
    rw [mem_handleTimeout] at hw
    exact Or.inl hw
  | processDNS i outcome =>
    obtain ⟨lookup, -, rfl⟩ := Daemon.step_processDNS hstep
    exact (mem_processDNS hw).imp_left herase
  | processRemote i outcome =>
    obtain ⟨check, -, rfl⟩ := Daemon.step_processRemote hstep
    exact Or.inl (herase (mem_processRemote.mp hw))
  | processRemoteHost i outcome =>
    obtain ⟨check, -, rfl⟩ := Daemon.step_processRemoteHost hstep
    exact Or.inl (herase (mem_processRemoteHost.mp hw))
  | forceDNSCheck hostGroup hostName =>
    obtain rfl := Option.some.inj hstep
    exact Or.inl (mem_putDNS.mp hw)
  | reload settings hostGroups => exact absurd rfl (hreload settings hostGroups)
  | advance duration =>
    obtain rfl := Option.some.inj hstep
    exact Or.inl hw

/-- One step keeps the queue free of blank addresses just when it is guarded. -/
theorem noneBlank_step_iff {e : HealthDaemon.Event} (hnone : NoneBlank h)
    (hstep : h.step e = some h') : NoneBlank h' ↔ Guarded h e := by
  cases e with
  | daemon e =>
    obtain ⟨-, d', hd', rfl⟩ := HealthDaemon.step_daemon hstep
    by_cases hreload : ∃ settings hostGroups, e = .reload settings hostGroups
    · rcases hreload with ⟨settings, hostGroups, rfl⟩
      obtain rfl := Option.some.inj hd'
      exact ⟨fun hnone' => (resolved_swapStates_iff hnone.health).mp hnone'.health,
        fun hguard => ⟨(resolved_swapStates_iff hnone.health).mpr hguard, hnone.mark⟩⟩
    · have hother : ∀ settings hostGroups, e ≠ .reload settings hostGroups :=
        fun settings hostGroups heq => hreload ⟨settings, hostGroups, heq⟩
      have hguard : Guarded h (.daemon e) := by
        cases e with
        | reload settings hostGroups => exact absurd rfl (hother settings hostGroups)
        | _ => trivial
      refine iff_of_true ⟨?_, hnone.mark⟩ hguard
      intro w hw
      exact (mem_step hother hd' hw).elim (hnone.health w) id
  | popHealth i =>
    obtain ⟨t, -, -, rfl⟩ := HealthDaemon.step_popHealth hstep
    refine iff_of_true ?_ trivial
    apply NoneBlank.handleHealthTimeout
    exact ⟨hnone.health, hnone.mark⟩
  | processHealth i report marks =>
    obtain ⟨w, hw, rfl⟩ := HealthDaemon.step_processHealth hstep
    refine iff_of_true ?_ trivial
    apply NoneBlank.processHealth
    · exact ⟨fun v hv => hnone.health v (List.mem_of_mem_eraseIdx hv), hnone.mark⟩
    · exact hnone.health w (List.mem_of_getElem? hw)
  | processMark i report =>
    obtain ⟨w, -, rfl⟩ := HealthDaemon.step_processMark hstep
    refine iff_of_true ?_ trivial
    apply NoneBlank.recordCheck
    exact ⟨hnone.health, fun v hv => hnone.mark v (List.mem_of_mem_eraseIdx hv)⟩
  | forceHealthCheck hostGroup hostName =>
    obtain rfl := Option.some.inj hstep
    refine iff_of_true ⟨?_, hnone.mark⟩ trivial
    intro w hw
    rcases mem_putHealth.mp hw with hw | hw
    · exact hnone.health w (mem_putDNS.mp hw)
    · exact resolved_forceHealthCheck _ hostGroup hostName w hw

theorem noneBlank_start (s : HMState) (now : HMTimeStamp) : NoneBlank (.start s now) where
  health := by
    intro w hw
    cases mem_queueLookups.mp hw
  mark := by
    intro w hw
    cases hw

/-- A run queues no health check at a blank address just when each of its reloads finds no
blank address in the cache for the hosts it has checked again. -/
theorem blank_never_checked_iff (s : HMState) (now : HMTimeStamp)
    (es : List HealthDaemon.Event) :
    (∀ es₁ h, es₁ <+: es → runTrace HealthDaemon.step (.start s now) es₁ = some h → NoneBlank h) ↔
      Along HealthDaemon.step Guarded (.start s now) es := by
  refine invariant_iff_along noneBlank_step_iff ?_ (noneBlank_start s now) es
  intro h e hnone
  cases e with
  | daemon e =>
    cases e with
    | reload settings hostGroups =>
      simp [HealthDaemon.step, HealthDaemon.isAllowed, Daemon.step] at hnone
    | _ => trivial
  | _ => trivial

/-- The lookup of the only host fails, and a reload gives its group another time to live. -/
def blankRun : List HealthDaemon.Event :=
  [.daemon (.processDNS 0 ⟨none, false, ⟨.dnsFailed, .internalError, 0, 0, 0, 0, 0⟩⟩),
    .daemon (.reload .default (sampleGroups .ipv4Only 60000))]

def checksBlank : Work → Bool
  | .healthCheck w => w.ipAddress.isBlank
  | _ => false

theorem blankRun_checks_blank_address :
    ∃ h, runTrace HealthDaemon.step
        (.start (generateCheckList .default (sampleGroups .ipv4Only 30000)) 1000000) blankRun =
      some h ∧ ¬ NoneBlank h := by
  have hqueued : (runTrace HealthDaemon.step
      (.start (generateCheckList .default (sampleGroups .ipv4Only 30000)) 1000000) blankRun).any
        (fun h => h.works.any checksBlank) = true := by
    decide +kernel
  rw [Option.any_eq_true] at hqueued
  rcases hqueued with ⟨h, hrun, hany⟩
  refine ⟨h, hrun, ?_⟩
  intro hnone
  rcases List.any_eq_true.mp hany with ⟨w, hw, hblank⟩
  cases w with
  | healthCheck w => simp [checksBlank, hnone.health w hw] at hblank
  | dnsLookup w => cases hblank
  | remoteCheck w => cases hblank
  | remoteHostCheck w => cases hblank

end HealthRuns
