import NetCHASM.State

/-! The lookup of a host group at the daemons of its remote group. The configuration and the
caches are those that the lookup starts with. What the network gives is a sequence of outcomes,
one for each attempt, and a missing socket object that is read ends the lookup. -/
namespace NetCHASM

open OrderedMap

inductive SockDataStatus where
  | ok
  | empty
  | timeout
  | failed
  deriving DecidableEq, Repr

def DistributedFallback.hasLocal : DistributedFallback → Bool
  | .local | .both => true
  | .none | .remote => false

/-- The work with the address whose family the lookup of its hosts is made for. -/
structure RemoteGroupWork extends RemoteWork where
  ipAddress : HMIPAddress
  deriving DecidableEq, Repr

/-- What one attempt meets: whether the pool gives a socket object, the reason after connecting,
and what the two requests return. -/
structure FetchAttempt (ρ α : Type) where
  connection : Bool
  reason : Reason
  hostGroupResults : SockDataStatus × ρ
  loadFeedback : SockDataStatus × α
  deriving DecidableEq, Repr

/-- What a work has fetched. -/
structure Fetched (ρ α : Type) where
  results : ρ
  auxResults : α
  deriving DecidableEq, Repr

namespace RemoteFetch

variable {ρ α : Type}

/-- Whether a socket object is there after the first switch; a check over TLS needs a context. -/
def createsSocket (hasCtx : Bool) (type : RemoteCheckType) (a : FetchAttempt ρ α) : Bool :=
  match type with
  | .tcp => true
  | .tcps => hasCtx
  | .sharedTcp | .sharedTcps => a.connection
  | .sharedLinux | .none => false

/-- Shared connections are not connected again. -/
def connects : RemoteCheckType → Bool
  | .tcp | .tcps => true
  | .sharedTcp | .sharedTcps | .sharedLinux | .none => false

def fetchesLoadFeedback : CheckType → Bool
  | .auxHttp | .auxHttps | .auxHttpsNoPeerCheck => true
  | _ => false

/-- Nothing where the reason of a missing socket is asked for. -/
def getHostResult (hasCtx : Bool) (hostCheck : HMDataHostCheck) (a : FetchAttempt ρ α)
    (out : Fetched ρ α) : Option (Bool × Fetched ρ α) :=
  if createsSocket hasCtx hostCheck.remoteCheckType a then
    if connects hostCheck.remoteCheckType ∧ a.reason ≠ .success then some (false, out)
    else
      let out := { out with results := a.hostGroupResults.2 }
      if a.hostGroupResults.1 = .ok then
        if fetchesLoadFeedback hostCheck.checkType then
          some (a.loadFeedback.1 = .ok ∨ a.loadFeedback.1 = .empty,
            { out with auxResults := a.loadFeedback.2 })
        else some (true, out)
      else some (false, out)
  else none

/-- The number of attempts made so far, and what they have fetched. -/
abbrev LoopState (ρ α : Type) := ℕ × Fetched ρ α

section Loops

variable (hasCtx : Bool) (hostCheck : HMDataHostCheck) (attempts : ℕ → FetchAttempt ρ α)

/-- One attempt: the value to return, if the loops end with it. -/
def tryHost (st : LoopState ρ α) : Option (Option Bool × LoopState ρ α) :=
  (getHostResult hasCtx hostCheck (attempts st.1) st.2).map fun (success, out) =>
    (if success then some true else if hostCheck.distributedFallback.hasLocal then none
      else some false, (st.1 + 1, out))

/-- The loop over the addresses of a host. -/
def addressLoop (checkResult : HMIPAddress → Option HMDataCheckResult) :
    List HMIPAddress → LoopState ρ α → Option (Option Bool × LoopState ρ α)
  | [], st => some (none, st)
  | address :: addresses, st =>
    match checkResult address with
    | none => addressLoop checkResult addresses st
    | some result =>
      if result.response ≠ .connected then addressLoop checkResult addresses st
      else
        match tryHost hasCtx hostCheck attempts st with
        | some (none, st) => addressLoop checkResult addresses st
        | ended => ended

/-- The loop over the hosts of the remote group. -/
def hostLoop (addresses : HMString → List HMIPAddress)
    (checkResult : HMString → HMIPAddress → Option HMDataCheckResult) :
    List HMString → LoopState ρ α → Option (Option Bool × LoopState ρ α)
  | [], st => some (none, st)
  | host :: hosts, st =>
    match addressLoop hasCtx hostCheck attempts (checkResult host) (addresses host) st with
    | some (none, st) => hostLoop addresses checkResult hosts st
    | ended => ended

end Loops

/-- The check of the remote group; that of a group of invalid type stays the default. -/
def groupCheck (g : HMDataHostGroup) : HMDataHostCheck := g.getHostCheck.getD .default

def hostAddresses (s : HMState) (g : HMDataHostGroup) (w : RemoteGroupWork) (host : HMString) :
    List HMIPAddress :=
  (s.dnsCache.getAddresses host (groupCheck g).dualstack (.new (groupCheck g).dnsType
    (w.ipAddress.getType = afInet6) (groupCheck g).remoteCheck)).toList

def hostResult (s : HMState) (g : HMDataHostGroup) (host : HMString) (address : HMIPAddress) :
    Option HMDataCheckResult :=
  s.checkList.getCheckResult ⟨host, address, groupCheck g, g.getCheckParameters⟩

def remoteCheck (hasCtx : Bool) (s : HMState) (g : HMDataHostGroup) (w : RemoteGroupWork)
    (attempts : ℕ → FetchAttempt ρ α) (out : Fetched ρ α) : Option (Bool × Fetched ρ α) :=
  (hostLoop hasCtx w.hostCheck attempts (hostAddresses s g w) (hostResult s g) g.hosts (0, out)).map
    fun (returned, st) => (returned.getD false, st.2)

/-- Nothing where the lookup reads a socket object that is missing. -/
def remoteLookup (hasCtx : Bool) (s : HMState) (w : RemoteGroupWork)
    (attempts : ℕ → FetchAttempt ρ α) (out : Fetched ρ α) : Option (WorkStatus × Fetched ρ α) :=
  if w.hostCheck.remoteCheck ≠ [] then
    match s.hostGroups.get? w.hostCheck.remoteCheck with
    | some g =>
      (remoteCheck hasCtx s g w attempts out).map fun (success, out) =>
        (if success then .completeRemote else .remoteFallback, out)
    | none => some (.remoteFallback, out)
  else some (.remoteFallback, out)

/-! The candidates of a lookup, and what their attempts decide. -/

/-- The results of the addresses that were connected last, in the order of the loops. -/
def candidates (s : HMState) (w : RemoteGroupWork) : List HMDataCheckResult :=
  if w.hostCheck.remoteCheck ≠ [] then
    match s.hostGroups.get? w.hostCheck.remoteCheck with
    | some g => g.hosts.flatMap fun host =>
      ((hostAddresses s g w host).filterMap (hostResult s g host)).filter (·.response = .connected)
    | none => []
  else []

/-- Without the local fallback only the first candidate is tried. -/
def tried (s : HMState) (w : RemoteGroupWork) : List HMDataCheckResult :=
  if w.hostCheck.distributedFallback.hasLocal then candidates s w else (candidates s w).take 1

/-- An attempt that gets what the work is for. -/
def Delivers (hasCtx : Bool) (hostCheck : HMDataHostCheck) (a : FetchAttempt ρ α) : Prop :=
  createsSocket hasCtx hostCheck.remoteCheckType a = true ∧
    (connects hostCheck.remoteCheckType = true → a.reason = .success) ∧
    a.hostGroupResults.1 = .ok ∧
    (fetchesLoadFeedback hostCheck.checkType = true →
      a.loadFeedback.1 = .ok ∨ a.loadFeedback.1 = .empty)

instance (hasCtx : Bool) (hostCheck : HMDataHostCheck) (a : FetchAttempt ρ α) :
    Decidable (Delivers hasCtx hostCheck a) := inferInstanceAs (Decidable (_ ∧ _))

variable {hasCtx : Bool} {hostCheck : HMDataHostCheck} {attempts : ℕ → FetchAttempt ρ α}

/-- What one attempt returns. -/
theorem getHostResult_fst (a : FetchAttempt ρ α) (out : Fetched ρ α) :
    (getHostResult hasCtx hostCheck a out).map Prod.fst =
      if createsSocket hasCtx hostCheck.remoteCheckType a then
        some (decide (Delivers hasCtx hostCheck a)) else none := by
  unfold getHostResult
  by_cases hsocket : createsSocket hasCtx hostCheck.remoteCheckType a = true
  · rw [if_pos hsocket, if_pos hsocket]
    by_cases hrefused : connects hostCheck.remoteCheckType = true ∧ a.reason ≠ .success
    · rw [if_pos hrefused]
      simp [Delivers, hrefused.1, hrefused.2]
    · rw [if_neg hrefused]
      have hconnected : connects hostCheck.remoteCheckType = true → a.reason = .success := by
        intro h
        by_contra hne
        exact hrefused ⟨h, hne⟩
      by_cases hok : a.hostGroupResults.1 = .ok
      · by_cases haux : fetchesLoadFeedback hostCheck.checkType = true
        · have hdelivers : Delivers hasCtx hostCheck a ↔
              a.loadFeedback.1 = .ok ∨ a.loadFeedback.1 = .empty :=
            ⟨fun h => h.2.2.2 haux, fun h => ⟨hsocket, hconnected, hok, fun _ => h⟩⟩
          simp [hok, haux, hdelivers]
        · have hdelivers : Delivers hasCtx hostCheck a :=
            ⟨hsocket, hconnected, hok, fun h => absurd h haux⟩
          simp [hok, haux, hdelivers]
      · simp [Delivers, hok]
  · rw [if_neg hsocket, if_neg hsocket]
    rfl

/-- The attempts of a list of candidates: nothing where one reads a missing socket, else whether
one of them delivers. -/
def scan (verdict : ℕ → Option Bool) : ℕ → ℕ → Option Bool
  | 0, _ => some false
  | n + 1, i =>
    match verdict i with
    | some false => scan verdict n (i + 1)
    | ended => ended

theorem scan_eq_iff (verdict : ℕ → Option Bool) (n i : ℕ) :
    scan verdict n i = some (decide (∃ j < n, verdict (i + j) = some true)) ↔
      ∀ j < n, (∀ k < j, verdict (i + k) ≠ some true) → verdict (i + j) ≠ none := by
  induction n generalizing i with
  | zero => simp [scan]
  | succ n ih =>
    have hshift : ∀ j, verdict (i + (j + 1)) = verdict (i + 1 + j) := fun j => by
      rw [Nat.add_assoc, Nat.add_comm 1 j]
    simp only [scan, Nat.exists_lt_succ_left, Nat.forall_lt_succ_left]
    cases verdict i with
    | none => simp
    | some b =>
      cases b with
      | true => simp
      | false => simp [hshift, ih]

/-- The candidates that the loops reach, one after the other. -/
def attemptLoop (hasCtx : Bool) (hostCheck : HMDataHostCheck) (attempts : ℕ → FetchAttempt ρ α) :
    List HMDataCheckResult → LoopState ρ α → Option (Option Bool × LoopState ρ α)
  | [], st => some (none, st)
  | _ :: results, st =>
    match tryHost hasCtx hostCheck attempts st with
    | some (none, st) => attemptLoop hasCtx hostCheck attempts results st
    | ended => ended

theorem attemptLoop_append (xs ys : List HMDataCheckResult) (st : LoopState ρ α) :
    attemptLoop hasCtx hostCheck attempts (xs ++ ys) st =
      match attemptLoop hasCtx hostCheck attempts xs st with
      | some (none, st) => attemptLoop hasCtx hostCheck attempts ys st
      | ended => ended := by
  induction xs generalizing st with
  | nil => rfl
  | cons x xs ih =>
    rw [List.cons_append, attemptLoop, attemptLoop]
    split
    · exact ih _
    · next hended => split <;> simp_all

theorem addressLoop_eq (checkResult : HMIPAddress → Option HMDataCheckResult)
    (addresses : List HMIPAddress) (st : LoopState ρ α) :
    addressLoop hasCtx hostCheck attempts checkResult addresses st =
      attemptLoop hasCtx hostCheck attempts
        ((addresses.filterMap checkResult).filter (·.response = .connected)) st := by
  induction addresses generalizing st with
  | nil => rfl
  | cons address addresses ih =>
    rw [addressLoop, List.filterMap_cons]
    cases hresult : checkResult address with
    | none => exact ih st
    | some result =>
      by_cases hconnected : result.response = .connected
      · simp only [hconnected, ne_eq, not_true_eq_false, if_false, decide_true,
          List.filter_cons_of_pos, attemptLoop, ih]
      · simp only [hconnected, ne_eq, not_false_eq_true, if_true, decide_false, Bool.false_eq_true,
          List.filter_cons_of_neg, ih]

theorem hostLoop_eq (addresses : HMString → List HMIPAddress)
    (checkResult : HMString → HMIPAddress → Option HMDataCheckResult) (hosts : List HMString)
    (st : LoopState ρ α) :
    hostLoop hasCtx hostCheck attempts addresses checkResult hosts st =
      attemptLoop hasCtx hostCheck attempts (hosts.flatMap fun host =>
        ((addresses host).filterMap (checkResult host)).filter (·.response = .connected)) st := by
  induction hosts generalizing st with
  | nil => rfl
  | cons host hosts ih =>
    rw [hostLoop, List.flatMap_cons, attemptLoop_append, addressLoop_eq]
    simp only [ih]

/-- What an attempt returns, or nothing where it reads a missing socket. -/
def verdict (hasCtx : Bool) (hostCheck : HMDataHostCheck) (attempts : ℕ → FetchAttempt ρ α)
    (i : ℕ) : Option Bool :=
  if createsSocket hasCtx hostCheck.remoteCheckType (attempts i) then
    some (decide (Delivers hasCtx hostCheck (attempts i)))
  else none

theorem verdict_eq_true {i : ℕ} : verdict hasCtx hostCheck attempts i = some true ↔
    Delivers hasCtx hostCheck (attempts i) := by
  unfold verdict
  split
  · simp
  · next hsocket => simp [Delivers, hsocket]

theorem verdict_ne_none {i : ℕ} : verdict hasCtx hostCheck attempts i ≠ none ↔
    createsSocket hasCtx hostCheck.remoteCheckType (attempts i) = true := by
  unfold verdict
  split <;> simp_all

/-- The loops try every candidate, or only the first. -/
theorem attemptLoop_fst (results : List HMDataCheckResult) (i : ℕ) (out : Fetched ρ α) :
    (attemptLoop hasCtx hostCheck attempts results (i, out)).map (fun x => x.1.getD false) =
      scan (verdict hasCtx hostCheck attempts)
        (if hostCheck.distributedFallback.hasLocal then results else results.take 1).length i := by
  induction results generalizing i out with
  | nil => simp [attemptLoop, scan]
  | cons result results ih =>
    have hfst : (getHostResult hasCtx hostCheck (attempts i) out).map Prod.fst =
        verdict hasCtx hostCheck attempts i := getHostResult_fst (attempts i) out
    rw [attemptLoop, tryHost]
    cases hresult : getHostResult hasCtx hostCheck (attempts i) out with
    | none =>
      rw [hresult] at hfst
      have hscan : ∀ n, scan (verdict hasCtx hostCheck attempts) (n + 1) i = none := fun n => by
        rw [scan, ← hfst]
        rfl
      cases hostCheck.distributedFallback.hasLocal <;> simp [hscan]
    | some x =>
      obtain ⟨success, out'⟩ := x
      rw [hresult] at hfst
      have hscan : ∀ n, scan (verdict hasCtx hostCheck attempts) (n + 1) i =
          if success then some true else scan (verdict hasCtx hostCheck attempts) n (i + 1) :=
        fun n => by
          rw [scan, ← hfst]
          cases success <;> rfl
      cases success with
      | true => cases hostCheck.distributedFallback.hasLocal <;> simp [hscan]
      | false =>
        cases hlocal : hostCheck.distributedFallback.hasLocal with
        | true =>
          have hrest := ih (i + 1) out'
          simp only [hlocal, if_true] at hrest
          simpa [hscan] using hrest
        | false => simp [hscan, scan]

/-- The lookup is one over its candidates. -/
theorem remoteLookup_fst (s : HMState) (w : RemoteGroupWork) (out : Fetched ρ α) :
    (remoteLookup hasCtx s w attempts out).map Prod.fst =
      (scan (verdict hasCtx w.hostCheck attempts) (tried s w).length 0).map fun success =>
        if success then .completeRemote else .remoteFallback := by
  unfold remoteLookup tried candidates
  split
  · split
    · next g _ =>
      rw [← attemptLoop_fst _ _ out, ← hostLoop_eq]
      unfold remoteCheck
      cases hostLoop hasCtx w.hostCheck attempts (hostAddresses s g w) (hostResult s g) g.hosts
        (0, out) <;> rfl
    · simp [scan]
  · simp [scan]

/-- The lookup gives the status that its attempts decide. -/
def LooksUp (hasCtx : Bool) (s : HMState) (w : RemoteGroupWork) (attempts : ℕ → FetchAttempt ρ α)
    (out : Fetched ρ α) : Prop :=
  (remoteLookup hasCtx s w attempts out).map Prod.fst =
    some (if ∃ i < (tried s w).length, Delivers hasCtx w.hostCheck (attempts i) then
      .completeRemote else .remoteFallback)

end RemoteFetch

open RemoteFetch

/-- A lookup ends with the status that its attempts decide just when every attempt that is made
has a socket object. -/
theorem remote_lookup_exhaustive_iff {ρ α : Type} (hasCtx : Bool) (s : HMState) (w : RemoteGroupWork)
    (attempts : ℕ → FetchAttempt ρ α) (out : Fetched ρ α) :
    LooksUp hasCtx s w attempts out ↔
      ∀ i < (tried s w).length, (∀ j < i, ¬ Delivers hasCtx w.hostCheck (attempts j)) →
        createsSocket hasCtx w.hostCheck.remoteCheckType (attempts i) = true := by
  have hscan := scan_eq_iff (verdict hasCtx w.hostCheck attempts) (tried s w).length 0
  simp only [Nat.zero_add, verdict_eq_true, verdict_ne_none, ne_eq] at hscan
  rw [← hscan, LooksUp, remoteLookup_fst]
  cases scan (verdict hasCtx w.hostCheck attempts) (tried s w).length 0 with
  | none => simp
  | some b =>
    by_cases hdelivers : ∃ i < (tried s w).length, Delivers hasCtx w.hostCheck (attempts i)
    · cases b <;> simp [hdelivers]
    · cases b <;> simp [hdelivers]

namespace RemoteFetch

/-- A remote group whose only host was connected at its only address. -/
def samplePeers : HMState :=
  let s := HMState.generateCheckList .default (SortedMap.empty.insert (bytes "peers")
    { HMDataHostGroup.new (bytes "peers") with hosts := [bytes "peer"], checkType := .tcp })
  let check := { HMDataHostCheck.default with checkType := .tcp, checkPlugin := .tcpRaw }
  { s with
    dnsCache := s.dnsCache.updateDNSEntry (bytes "peer") (.new .lookup false [])
      (SortedMap.empty.insert (.v4 1) ())
    checkList := s.checkList.updateCheck
      ⟨bytes "peer", .v4 1, check, (HMDataHostGroup.new (bytes "peers")).getCheckParameters⟩
      { HMDataCheckResult.new 0 with response := .connected } }

/-- A work for a group that is fetched over the shared connections of the pool. -/
def sampleWork : RemoteGroupWork where
  hostname := bytes "web"
  hostCheck := { HMDataHostCheck.default with
    remoteCheck := bytes "peers", remoteCheckType := .sharedTcps }
  ipAddress := .unset

/-- The pool gives no connection. -/
def missing : FetchAttempt Unit Unit := ⟨false, .none, (.failed, ()), (.failed, ())⟩

end RemoteFetch

/-- The reason of a connection that the pool does not have is read for the log. -/
theorem remote_lookup_missing_socket :
    ¬ ∀ (hasCtx : Bool) (s : HMState) (w : RemoteGroupWork) (attempts : ℕ → FetchAttempt Unit Unit)
      (out : Fetched Unit Unit), LooksUp hasCtx s w attempts out := by
  intro h
  have hlookup := h false samplePeers sampleWork (fun _ => missing) ⟨(), ()⟩
  have hfault : remoteLookup false samplePeers sampleWork (fun _ => missing) ⟨(), ()⟩ = none := by
    decide +kernel
  rw [LooksUp, hfault] at hlookup
  cases hlookup

end NetCHASM
