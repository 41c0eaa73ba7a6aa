import NetCHASM.DNSCache
import NetCHASM.RemoteCaches

/-! The list of checks: a multimap from a host and its check to the parameters of the
check, which hold the results for each address. The index that remote queries use and the
calls into the result store are left out. -/
namespace NetCHASM

open KeyOrder OrderedMap

structure CheckListKey where
  hostname : HMString
  hostCheck : HMDataHostCheck
  deriving DecidableEq, Repr

namespace CheckListKey

/-- The comparator of the check list also tells DNS types apart. -/
def compareCheckList (lhs rhs : CheckListKey) : Bool :=
  if lhs.hostname = rhs.hostname then
    if lhs.hostCheck.beq rhs.hostCheck then
      lhs.hostCheck.dnsType.code < rhs.hostCheck.dnsType.code
    else lhs.hostCheck.lt rhs.hostCheck
  else lhs.hostname < rhs.hostname

def typedCheck (k : CheckListKey) : HMDataHostCheck × UInt8 := (k.hostCheck, k.hostCheck.dnsType.code)

theorem compareCheckList_eq : compareCheckList =
    lexLt (fun k => k.hostname) fun a b => Ordered.lt a.typedCheck b.typedCheck := by
  funext a b
  by_cases hh : a.hostname = b.hostname
  · have heqv := HMDataHostCheck.eqv_eq_beq a.hostCheck b.hostCheck
    change _ = if a.hostname ≠ b.hostname then _ else
      (a.hostCheck.lt b.hostCheck || (!b.hostCheck.lt a.hostCheck &&
        decide (a.hostCheck.dnsType.code < b.hostCheck.dnsType.code)))
    change (!a.hostCheck.lt b.hostCheck && !b.hostCheck.lt a.hostCheck) = _ at heqv
    simp only [compareCheckList, hh, ← heqv]
    cases a.hostCheck.lt b.hostCheck <;> cases b.hostCheck.lt a.hostCheck <;> simp
  · simp [compareCheckList, lexLt, hh, Ordered.lt]

instance : Ordered CheckListKey where
  lt := compareCheckList
  weak := by
    rw [compareCheckList_eq]
    exact (Ordered.weak.comap typedCheck).lex _

theorem eqv_iff_fields {a b : CheckListKey} : eqv a b = true ↔
    a.hostname = b.hostname ∧ a.hostCheck.beq b.hostCheck = true ∧
      a.hostCheck.dnsType = b.hostCheck.dnsType := by
  have htyped : (Ordered.lt a.typedCheck b.typedCheck = false ∧
      Ordered.lt b.typedCheck a.typedCheck = false) ↔
      a.hostCheck.beq b.hostCheck = true ∧ a.hostCheck.dnsType = b.hostCheck.dnsType := by
    rw [← eqv_iff, eqv_pair, Bool.and_eq_true, ← HMDataHostCheck.eqv_eq_beq, ← DnsType.code_inj,
      ← eqv_iff_eq (a := a.hostCheck.dnsType.code)]
    rfl
  rw [eqv_iff]
  change compareCheckList a b = false ∧ compareCheckList b a = false ↔ _
  simp only [compareCheckList_eq, lexLt_incomparable, htyped]

end CheckListKey

/-- What identifies one result: a host, an address, a check and its parameters. -/
structure HMCheckHeader where
  hostname : HMString
  address : HMIPAddress
  hostCheck : HMDataHostCheck
  checkParams : CheckParameters
  deriving DecidableEq, Repr

def HMCheckHeader.key (h : HMCheckHeader) : CheckListKey := ⟨h.hostname, h.hostCheck⟩

/-- A queued health check. -/
structure HealthWork where
  hostname : HMString
  ipAddress : HMIPAddress
  hostCheck : HMDataHostCheck
  reschedule : Bool
  deriving DecidableEq, Repr

/-- Whether the plugin of a check can carry out its type, in a build with the c-ares library. -/
def CheckType.runsOn : CheckType → CheckPluginClass → Bool
  | .http, p | .https, p | .httpsNoPeerCheck, p | .mtlsHttps, p | .mtlsHttpsNoPeerCheck, p =>
    p = .default || p = .httpCurl
  | .ftp, p | .ftpsImplicit, p | .ftpsImplicitNoPeerCheck, p | .ftpsExplicit, p
  | .ftpsExplicitNoPeerCheck, p => p = .ftpCurl || p = .default
  | .tcp, p => p = .tcpRaw || p = .default
  | .tcps, p => p = .tcpsRaw || p = .default
  | .dns, p | .dnsvc, p => p = .dnsAres || p = .default
  | .none, p | .default, p => p = .default
  | .auxHttp, p | .auxHttps, p | .auxHttpsNoPeerCheck, p | .auxMtlsHttps, p
  | .auxMtlsHttpsNoPeerCheck, p => p = .auxCurl || p = .default
  | .markHttp, p | .markHttps, p | .markHttpsNoPeerCheck, p => p = .default || p = .markCurl
  | .invalid, _ => false

structure HMDataCheckList where
  checklist : SortedMultimap CheckListKey HMDataCheckParams
  guard : Bool
  deriving DecidableEq, Repr

namespace HMDataCheckList

def empty : HMDataCheckList := ⟨∅, false⟩

def addHost (m : SortedMultimap CheckListKey HMDataCheckParams) (key : CheckListKey)
    (check : CheckParameters) (group : HMString) : SortedMultimap CheckListKey HMDataCheckParams :=
  let same (p : HMDataCheckParams) : Bool := p.toCheckParameters = check
  if (m.range key).any same then m.modifyFirst key same fun p => p.addHostGroup group
  else m.insert key ((HMDataCheckParams.ofParameters check).addHostGroup group)

/-- Add the checks of a group; nothing is added for an invalid check type or under guard. -/
def addHostGroup (l : HMDataCheckList) (g : HMDataHostGroup) : HMDataCheckList :=
  if l.guard then l
  else
    match g.getHostCheck with
    | none => l
    | some hostCheck =>
      { l with
        checklist := g.hosts.foldl (fun m host =>
          addHost m ⟨host, hostCheck⟩ g.getCheckParameters g.groupName) l.checklist }

def setGuard (l : HMDataCheckList) (guard : Bool) : HMDataCheckList := { l with guard := guard }

def getAllChecks (l : HMDataCheckList) : List HMCheckHeader :=
  l.checklist.entries.map fun e =>
    ⟨e.1.hostname, .unset, e.1.hostCheck, e.2.toCheckParameters⟩

/-- Create the DNS entries of every check, for each address family it uses. -/
def initDNSCache (l : HMDataCheckList) (cache : HMDNSCache) (plugin : DnsType → DnsPluginClass) :
    HMDNSCache :=
  if l.guard then cache
  else
    l.checklist.entries.foldl (fun c e =>
      let check := e.1.hostCheck
      check.dualstack.families.foldl (fun c ipv6 =>
        c.insertDNSEntry e.1.hostname ⟨check.dnsType, ipv6, check.remoteCheck, plugin check.dnsType⟩
          e.2.checkTTL e.2.checkTimeout) c) cache

/-- The checks that wait for the lookups of a host and DNS type. -/
def initWaitList (l : HMDataCheckList) : SortedMultimap (HMString × UInt8) HMDataHostCheck :=
  if l.guard then ∅
  else
    l.checklist.entries.foldl (fun m e =>
      m.insert (e.1.hostname, e.1.hostCheck.dnsType.code) e.1.hostCheck) ∅

theorem entries_initWaitList {l : HMDataCheckList} (hguard : l.guard = false) :
    l.initWaitList.entries.Perm (l.checklist.entries.map fun e =>
      ((e.1.hostname, e.1.hostCheck.dnsType.code), e.1.hostCheck)) := by
  have hperm := SortedMultimap.entries_foldl_insert (fun e : CheckListKey × HMDataCheckParams =>
    ((e.1.hostname, e.1.hostCheck.dnsType.code), e.1.hostCheck)) l.checklist.entries ∅
  have hnil : (∅ : SortedMultimap (HMString × UInt8) HMDataHostCheck).entries = [] := rfl
  rw [hnil, List.append_nil] at hperm
  rw [initWaitList, if_neg (by simp [hguard])]
  exact hperm

/-- The checks that wait for a name and a type of lookup. -/
theorem mem_range_initWaitList {l : HMDataCheckList} (hguard : l.guard = false)
    {key : HMString × UInt8} {check : HMDataHostCheck} : check ∈ l.initWaitList.range key ↔
      ∃ e ∈ l.checklist.entries, (e.1.hostname, e.1.hostCheck.dnsType.code) = key ∧
        e.1.hostCheck = check := by
  simp only [SortedMultimap.mem_range, (entries_initWaitList hguard).mem_iff, List.mem_map,
    exists_exists_and_eq_and]
  simp only [eqv_pair, Bool.and_eq_true, eqv_iff_eq, Prod.ext_iff]

def initRemoteCache (l : HMDataCheckList) (cache : HMRemoteHostCache) : HMRemoteHostCache :=
  if l.guard then cache
  else
    l.checklist.entries.foldl (fun c e =>
      if e.1.hostCheck.flowType = .remoteHost then
        c.insertRemoteEntry (e.1.hostname, e.1.hostCheck) e.2.checkTTL e.2.checkTimeout
      else c) cache

/-- The result of a header: the first one among the entries with its parameters. -/
def getCheckResult (l : HMDataCheckList) (h : HMCheckHeader) : Option HMDataCheckResult :=
  (l.checklist.range h.key).findSome? fun p =>
    if p.toCheckParameters = h.checkParams then p.getCheckResult h.address else none

/-- Replace the result of a header in every entry with its parameters. -/
def updateCheck (l : HMDataCheckList) (h : HMCheckHeader) (result : HMDataCheckResult) :
    HMDataCheckList :=
  { l with
    checklist := l.checklist.modify h.key fun p =>
      if p.toCheckParameters = h.checkParams then p.updateCheckResult h.address result true else p }

/-- Apply the result of a health check to every entry of its check. -/
def updateCheckWork (l : HMDataCheckList) (hostname : HMString) (hostCheck : HMDataHostCheck)
    (address : HMIPAddress) (rep : CheckReport) : HMDataCheckList :=
  { l with
    checklist := l.checklist.modify ⟨hostname, hostCheck⟩ fun p => p.updateCheck address rep }

/-- Apply the results that a remote daemon sent for a check. Parameters without any get a
failed result under the address of the work. -/
def updateCheckRemote (l : HMDataCheckList) (hostname : HMString) (hostCheck : HMDataHostCheck)
    (ip : HMIPAddress) (results : List (CheckParameters × HMDataCheckResult)) (rep : CheckReport) :
    HMDataCheckList :=
  { l with
    checklist := l.checklist.modify ⟨hostname, hostCheck⟩ fun p =>
      match results.filter fun r => r.1 = p.toCheckParameters with
      | [] => (p.emptyQuery ip).updateCheck ip
          { rep with response := .remoteFailed, reason := .remoteNodata, port := hostCheck.port }
      | rs => rs.foldl (fun p r => p.updateCheckResult r.2.address
          { r.2 with
            softStatus := r.2.status
            remoteCheckTime := r.2.checkTime
            checkTime := rep.checkNow
            queryState := .inactive } true) p }

/-- A worker takes a check up. -/
def startCheck (l : HMDataCheckList) (hostname : HMString) (hostCheck : HMDataHostCheck)
    (address : HMIPAddress) (now : HMTimeStamp) : HMDataCheckList :=
  { l with checklist := l.checklist.modify ⟨hostname, hostCheck⟩ fun p => p.startQuery address now }

/-- The addresses with a result, in the families asked for. -/
def getCheckResultsAddress (l : HMDataCheckList) (hostname : HMString)
    (hostCheck : HMDataHostCheck) (dualstack : DualStack) : SortedSet HMIPAddress :=
  (l.checklist.range ⟨hostname, hostCheck⟩).foldl (fun acc p =>
    SortedSet.insertAll acc (p.getAddresses dualstack).toList) ∅

/-- The results of a check at an address, one for each set of parameters that has one. -/
def getCheckResults (l : HMDataCheckList) (hostname : HMString) (check : HMDataHostCheck)
    (address : HMIPAddress) : List (CheckParameters × HMDataCheckResult) :=
  (l.checklist.range ⟨hostname, check⟩).filterMap fun p =>
    (p.getCheckResult address).map fun r => (p.toCheckParameters, r)

def nextCheckTime (l : HMDataCheckList) (hostname : HMString) (ip : HMIPAddress)
    (hostCheck : HMDataHostCheck) (now : HMTimeStamp) : HMTimeStamp :=
  (l.checklist.range ⟨hostname, hostCheck⟩).foldl (fun next p =>
    if p.nextCheckTime ip now < next then p.nextCheckTime ip now else next)
    (now.plus HMTimeStamp.hourInMs)

/-- What to do about a health check. Nothing is done at a blank address, or at one that some
set of parameters has no result for. -/
def checkNeeded (l : HMDataCheckList) (hostname : HMString) (ip : HMIPAddress)
    (hostCheck : HMDataHostCheck) (now : HMTimeStamp) : ScheduleState :=
  let params := l.checklist.range ⟨hostname, hostCheck⟩
  if ip.isBlank || params.any fun p => !p.isValidIP ip then .ignore
  else
    let idle := params.filter fun p => (p.getQueryState ip).isIdle
    let horizon := now.plus HMTimeStamp.hourInMs
    let nextCheck := idle.foldl (fun next p =>
      if p.nextCheckTime ip now < next then p.nextCheckTime ip now else next) horizon
    let isCheckTimeChanged := idle.any fun p => p.nextCheckTime ip now < horizon
    if nextCheck ≤ now then .work
    else if idle.isEmpty || isCheckTimeChanged then .ignore
    else .event

/-- Mark a check as queued and build its work; a plugin that does not fit the check type
leaves the mark and builds nothing. -/
def queueCheck (l : HMDataCheckList) (hostname : HMString) (ip : HMIPAddress)
    (check : HMDataHostCheck) : HMDataCheckList × List HealthWork :=
  ({ l with checklist := l.checklist.modify ⟨hostname, check⟩ fun p => p.queueQuerry ip },
    if check.checkType.runsOn check.checkPlugin then
      [⟨hostname, ip, check, check.flowType = .dnsHealth⟩]
    else [])

/-- Drop the results of an address. -/
def invalidateCheck (l : HMDataCheckList) (hostname : HMString) (ip : HMIPAddress)
    (hostCheck : HMDataHostCheck) : HMDataCheckList :=
  { l with checklist := l.checklist.modify ⟨hostname, hostCheck⟩ fun p => p.invalidateResult ip }

/-- Record a failed lookup under a blank address. -/
def insertEmptyQuery (l : HMDataCheckList) (hostname : HMString) (check : HMDataHostCheck)
    (address : HMIPAddress) (rep : CheckReport) : HMDataCheckList :=
  { l with
    checklist := l.checklist.modify ⟨hostname, check⟩ fun p =>
      (p.emptyQuery address).updateCheck address rep }

/-- The list has an entry with the check and the parameters of a header. -/
def lists (l : HMDataCheckList) (h : HMCheckHeader) : Bool :=
  (l.checklist.range h.key).any fun p => p.toCheckParameters = h.checkParams

/-- Two headers for the same result. -/
def sameResult (h h' : HMCheckHeader) : Bool :=
  eqv h.key h'.key && h.checkParams = h'.checkParams && h.address = h'.address

theorem getCheckResult_congr (l : HMDataCheckList) {h h' : HMCheckHeader}
    (heq : sameResult h h' = true) : l.getCheckResult h = l.getCheckResult h' := by
  simp only [sameResult, Bool.and_eq_true, decide_eq_true_eq] at heq
  simp only [getCheckResult, SortedMultimap.range_congr _ heq.1.1, heq.1.2, heq.2]

theorem getCheckResult_of_not_lists {l : HMDataCheckList} {h : HMCheckHeader}
    (hlists : l.lists h = false) : l.getCheckResult h = none := by
  rw [getCheckResult, List.findSome?_eq_none_iff]
  intro p hp
  have hne := List.any_eq_false.mp hlists p hp
  simpa using fun heq => absurd heq (by simpa using hne)

private theorem findSome?_const {α β : Type} (q : α → Bool) (b : β) (xs : List α) :
    (xs.findSome? fun x => if q x then some b else none) = if xs.any q then some b else none := by
  induction xs with
  | nil => rfl
  | cons x xs ih =>
    cases hq : q x with
    | true => simp [hq]
    | false => simp [hq, ih]

/-- An update sets the result of its header where the header is listed, and no other. -/
theorem getCheckResult_updateCheck (l : HMDataCheckList) (h h' : HMCheckHeader)
    (result : HMDataCheckResult) :
    (l.updateCheck h result).getCheckResult h' =
      if sameResult h h' then if l.lists h' then some result else none
      else l.getCheckResult h' := by
  simp only [getCheckResult, updateCheck, SortedMultimap.range_modify]
  by_cases hk : eqv h.key h'.key = true
  · rw [if_pos hk, List.findSome?_map]
    by_cases hp : h.checkParams = h'.checkParams
    · by_cases ha : h.address = h'.address
      · have hsame : sameResult h h' = true := by simp [sameResult, hk, hp, ha]
        rw [if_pos hsame, lists, ← findSome?_const]
        congr 1
        funext p
        by_cases hpp : p.toCheckParameters = h'.checkParams
        · simp [hp, ha, hpp, HMDataCheckParams.getCheckResult_replace]
        · simp [hp, hpp]
      · have hsame : sameResult h h' = false := by simp [sameResult, ha]
        rw [hsame, if_neg Bool.false_ne_true]
        congr 1
        funext p
        by_cases hpp : p.toCheckParameters = h'.checkParams
        · simp [hp, hpp, HMDataCheckParams.getCheckResult_replace, ha]
        · simp [hp, hpp]
    · have hsame : sameResult h h' = false := by simp [sameResult, hp]
      rw [hsame, if_neg Bool.false_ne_true]
      congr 1
      funext p
      by_cases hpp : p.toCheckParameters = h.checkParams
      · simp [hpp, hp]
      · simp [hpp]
  · have hsame : sameResult h h' = false := by simp [sameResult, hk]
    simp [hk, hsame]

@[simp] theorem lists_updateCheck (l : HMDataCheckList) (h h' : HMCheckHeader)
    (result : HMDataCheckResult) : (l.updateCheck h result).lists h' = l.lists h' := by
  simp only [lists, updateCheck, SortedMultimap.range_modify]
  split
  · rw [List.any_map]
    congr 1
    funext p
    simp only [Function.comp_apply]
    split <;> simp
  · rfl

@[simp] theorem getAllChecks_updateCheck (l : HMDataCheckList) (h : HMCheckHeader)
    (result : HMDataCheckResult) : (l.updateCheck h result).getAllChecks = l.getAllChecks := by
  simp only [getAllChecks, updateCheck, SortedMultimap.modify, SortedMultimap.mapVals, List.map_map]
  apply List.map_congr_left
  intro e _
  simp only [Function.comp_apply]
  split
  · split <;> simp
  · rfl

theorem updateCheck_of_not_lists {l : HMDataCheckList} {h : HMCheckHeader}
    (hlists : l.lists h = false) (result : HMDataCheckResult) : l.updateCheck h result = l := by
  have hentries : (l.updateCheck h result).checklist.entries = l.checklist.entries := by
    simp only [updateCheck, SortedMultimap.modify, SortedMultimap.mapVals]
    refine (List.map_congr_left fun e he => ?_).trans (List.map_id l.checklist.entries)
    by_cases hk : eqv e.1 h.key = true
    · have hmem : e.2 ∈ l.checklist.range h.key :=
        List.mem_map_of_mem (List.mem_filter.mpr ⟨he, hk⟩)
      have hne : e.2.toCheckParameters ≠ h.checkParams := by
        simpa using List.any_eq_false.mp hlists e.2 hmem
      simp [hne]
    · simp [hk]
  have hlist : (l.updateCheck h result).checklist = l.checklist := SortedMultimap.ext hentries
  calc l.updateCheck h result = ⟨(l.updateCheck h result).checklist, l.guard⟩ := rfl
    _ = l := by rw [hlist]

/-- A listed header is the header of an entry, up to what the comparator ignores. -/
theorem lists_iff {l : HMDataCheckList} {h : HMCheckHeader} : l.lists h = true ↔
    ∃ t ∈ l.getAllChecks, eqv t.key h.key = true ∧ t.checkParams = h.checkParams := by
  simp only [lists, SortedMultimap.range, SortedMultimap.equalRange, List.any_map, List.any_eq_true,
    List.mem_filter, Function.comp_apply, decide_eq_true_eq, getAllChecks, List.mem_map]
  constructor
  · rintro ⟨e, ⟨he, hk⟩, hp⟩
    exact ⟨_, ⟨e, he, rfl⟩, hk, hp⟩
  · rintro ⟨t, ⟨e, he, rfl⟩, hk, hp⟩
    exact ⟨e, ⟨he, hk⟩, hp⟩

end HMDataCheckList

end NetCHASM
