import NetCHASM.BaseTypes
import NetCHASM.Library.CountedLoop
import NetCHASM.Library.Doubles
import NetCHASM.YamlRoundTrip

/-! The pool of worker threads and its monitor. A worker that is told to shut down is taken to
leave its loop, so that joining it returns. A thread clears the flag when it begins to run, so this
is the case of workers that have begun: one told to shut down before that would stay in its loop.
The size of the pool has 64 bits, the counters of its loops have 32. -/
namespace NetCHASM

open CountedLoop Doubles

/-- A worker with its thread. -/
structure HMThreadWorker where
  idle : Bool
  nUsed : ℕ
  shutdown : Bool
  joinable : Bool
  deriving DecidableEq, Repr

/-- What ends a run of the monitor. -/
inductive PoolFault where
  | outOfRange (i : ℕ)
  | notJoinable (i : ℕ)
  | endless
  | notConvertible
  deriving DecidableEq, Repr

/-- An entry of the vector without a worker is one that `std::vector::resize` has made. -/
structure HMThreadPool where
  nThreads : ℕ
  workers : List (Option HMThreadWorker)
  /-- Some subtraction of unsigned numbers has passed zero. -/
  wrapped : Bool
  deriving DecidableEq, Repr

namespace HMThreadPool

abbrev Workers := List (Option HMThreadWorker)

def empty : HMThreadPool := ⟨0, [], false⟩

def startWorker (i : ℕ) (ws : Workers) : Except PoolFault Workers :=
  if i < ws.length then .ok (ws.set i (some ⟨false, 0, false, true⟩)) else .error (.outOfRange i)

def shutDownWorker (i : ℕ) (ws : Workers) : Except PoolFault Workers :=
  match ws[i]? with
  | some (some w) => .ok (ws.set i (some { w with shutdown := true }))
  | _ => .error (.outOfRange i)

def joinWorker (i : ℕ) (ws : Workers) : Except PoolFault Workers :=
  match ws[i]? with
  | some (some w) =>
    if w.joinable then .ok (ws.set i (some { w with joinable := false })) else .error (.notJoinable i)
  | _ => .error (.outOfRange i)

/-- `std::vector::resize` -/
def resizeVector (n : ℕ) (ws : Workers) : Workers :=
  ws.take n ++ List.replicate (n - ws.length) none

def resize (p : HMThreadPool) (n : ℕ) : Except PoolFault HMThreadPool :=
  if p.nThreads < n then
    (countUp .endless 32 n startWorker (2 ^ 32) (p.nThreads % 2 ^ 32)
      (resizeVector n p.workers)).map fun ws => { p with nThreads := n, workers := ws }
  else
    -- the 64-bit difference is cut to the 32 bits of the counter
    let last := (p.nThreads + (2 ^ 64 - 1)) % 2 ^ 64 % 2 ^ 32
    (countDown .endless 32 n shutDownWorker (2 ^ 32) last
      (p.workers, p.wrapped || p.nThreads = 0)).bind fun (ws, wrapped) =>
    (countDown .endless 32 n joinWorker (2 ^ 32) last (ws, wrapped)).map fun (ws, wrapped) =>
      ⟨n, resizeVector n ws, wrapped⟩

def countIdle (p : HMThreadPool) : ℕ := p.workers.countP fun e => e.any (·.idle)

/-- A worker that has been used often is replaced by a new one. -/
def recycleWorker (i : ℕ) (ws : Workers) : Except PoolFault Workers :=
  match ws[i]? with
  | some (some w) =>
    if 10000 < w.nUsed then
      (shutDownWorker i ws).bind fun ws => (joinWorker i ws).bind (startWorker i)
    else .ok ws
  | _ => .error (.outOfRange i)

def recycleThreads (p : HMThreadPool) : Except PoolFault HMThreadPool :=
  (countUp .endless 32 p.nThreads recycleWorker (2 ^ 32) 0 p.workers).map fun ws =>
    { p with workers := ws }

/-- A vector of this size whose first entries are running workers. -/
structure Running (n k : ℕ) (ws : Workers) : Prop where
  size : ws.length = n
  live : ∀ i < k, ∃ w, ws[i]? = some (some w) ∧ w.joinable = true

/-- Every entry of the vector is a running worker, and there are as many as the pool counts. -/
structure Sound (p : HMThreadPool) : Prop where
  running : Running p.nThreads p.nThreads p.workers
  bound : p.nThreads < 2 ^ 32
  unwrapped : p.wrapped = false

variable {p : HMThreadPool} {ws : Workers} {n k i : ℕ}

theorem sound_empty : Sound empty :=
  ⟨⟨rfl, fun i hi => absurd hi (Nat.not_lt_zero i)⟩, by decide, rfl⟩

/-- A running worker in any place lets the others run on. -/
theorem Running.set {w : HMThreadWorker} (h : Running n k ws) (hw : w.joinable = true) (i : ℕ) :
    Running n k (ws.set i (some w)) := by
  refine ⟨by simp [h.size], ?_⟩
  intro j hj
  obtain ⟨w', hw', hjoin⟩ := h.live j hj
  have hlen := (List.getElem?_eq_some_iff.mp hw').1
  by_cases hij : i = j
  · subst hij
    exact ⟨w, by rw [List.getElem?_set_self hlen], hw⟩
  · exact ⟨w', by rw [List.getElem?_set_ne hij, hw'], hjoin⟩

theorem Running.set_last {e : Option HMThreadWorker} (h : Running n (i + 1) ws) :
    Running n i (ws.set i e) := by
  refine ⟨by simp [h.size], ?_⟩
  intro j hj
  obtain ⟨w, hw, hjoin⟩ := h.live j (by omega)
  exact ⟨w, by rw [List.getElem?_set_ne (by omega), hw], hjoin⟩

theorem startWorker_ok (hi : i < n) (h : Running n i ws) :
    ∃ ws', startWorker i ws = .ok ws' ∧ Running n (i + 1) ws' := by
  have hlen : i < ws.length := by
    rw [h.size]
    exact hi
  refine ⟨_, if_pos hlen, by simp [h.size], ?_⟩
  intro j hj
  by_cases hij : i = j
  · subst hij
    exact ⟨_, by rw [List.getElem?_set_self hlen], rfl⟩
  · obtain ⟨w, hw, hjoin⟩ := h.live j (by omega)
    exact ⟨w, by rw [List.getElem?_set_ne hij, hw], hjoin⟩

theorem shutDownWorker_some {w : HMThreadWorker} (hw : ws[i]? = some (some w)) :
    shutDownWorker i ws = .ok (ws.set i (some { w with shutdown := true })) := by
  rw [shutDownWorker, hw]

theorem joinWorker_some {w : HMThreadWorker} (hw : ws[i]? = some (some w))
    (hjoin : w.joinable = true) :
    joinWorker i ws = .ok (ws.set i (some { w with joinable := false })) := by
  rw [joinWorker, hw]
  exact if_pos hjoin

theorem shutDownWorker_ok (hi : i < k) (h : Running n k ws) :
    ∃ ws', shutDownWorker i ws = .ok ws' ∧ Running n k ws' := by
  obtain ⟨w, hw, hjoin⟩ := h.live i hi
  exact ⟨_, shutDownWorker_some hw, h.set (w := { w with shutdown := true }) hjoin i⟩

theorem joinWorker_ok (h : Running n (i + 1) ws) :
    ∃ ws', joinWorker i ws = .ok ws' ∧ Running n i ws' := by
  obtain ⟨w, hw, hjoin⟩ := h.live i (by omega)
  exact ⟨_, joinWorker_some hw hjoin, h.set_last⟩

theorem recycleWorker_ok (hi : i < k) (h : Running n k ws) :
    ∃ ws', recycleWorker i ws = .ok ws' ∧ Running n k ws' := by
  obtain ⟨w, hw, hjoin⟩ := h.live i hi
  have hlen := (List.getElem?_eq_some_iff.mp hw).1
  rw [recycleWorker, hw]
  dsimp only
  split
  · refine ⟨ws.set i (some ⟨false, 0, false, true⟩), ?_, h.set rfl i⟩
    have hjoined := joinWorker_some (w := { w with shutdown := true })
      (List.getElem?_set_self hlen) hjoin
    simp [shutDownWorker_some hw, hjoined, Except.bind, startWorker, hlen]
  · exact ⟨ws, rfl, h⟩

theorem running_resizeVector (h : Running n k ws) {m : ℕ} (hm : k ≤ m) :
    Running m k (resizeVector m ws) := by
  constructor
  · simp only [resizeVector, List.length_append, List.length_take, List.length_replicate]
    omega
  · intro i hi
    obtain ⟨w, hw, hjoin⟩ := h.live i hi
    have hlen := (List.getElem?_eq_some_iff.mp hw).1
    refine ⟨w, ?_, hjoin⟩
    rw [resizeVector, List.getElem?_append_left (by rw [List.length_take]; omega),
      List.getElem?_take_of_lt (by omega), hw]

/-- Resizing a sound pool to a size that is neither zero nor beyond the counters succeeds. -/
theorem Sound.resize (h : Sound p) (hpos : 0 < n) (hn : n < 2 ^ 32) :
    ∃ q, p.resize n = .ok q ∧ Sound q ∧ q.nThreads = n := by
  have hbound := h.bound
  rw [HMThreadPool.resize]
  split
  · next hgrow =>
    obtain ⟨ws, hws, hrun⟩ := countUp_ok PoolFault.endless (Running n) hn
      (fun i ws hi hrun => startWorker_ok hi hrun) (2 ^ 32) hgrow.le (by omega)
      (running_resizeVector h.running hgrow.le)
    rw [Nat.mod_eq_of_lt hbound, hws]
    exact ⟨_, rfl, ⟨hrun, hn, h.unwrapped⟩, rfl⟩
  · next hshrink =>
    have hlast : (p.nThreads + (2 ^ 64 - 1)) % 2 ^ 64 % 2 ^ 32 = p.nThreads - 1 := by omega
    have hnote : (p.wrapped || decide (p.nThreads = 0)) = false := by
      simp only [h.unwrapped, Bool.false_or, decide_eq_false_iff_not]
      omega
    have hdown : ∀ i ws, n ≤ i → i + 1 ≤ p.nThreads ∧ Running p.nThreads p.nThreads ws →
        ∃ ws', shutDownWorker i ws = .ok ws' ∧ i ≤ p.nThreads ∧
          Running p.nThreads p.nThreads ws' := by
      intro i ws _ hheld
      rcases hheld with ⟨hle, hrun⟩
      obtain ⟨ws', hws', hrun'⟩ := shutDownWorker_ok (Nat.lt_of_succ_le hle) hrun
      exact ⟨ws', hws', (Nat.le_succ i).trans hle, hrun'⟩
    obtain ⟨ws₁, h₁, -, hrun₁⟩ := countDown_ok PoolFault.endless
      (fun i ws => i ≤ p.nThreads ∧ Running p.nThreads p.nThreads ws) hpos hdown (2 ^ 32)
      (by omega) hbound.le (by omega) ⟨le_rfl, h.running⟩ false
    obtain ⟨ws₂, h₂, hrun₂⟩ := countDown_ok PoolFault.endless (Running p.nThreads) hpos
      (fun i ws _ hrun => joinWorker_ok hrun) (2 ^ 32) (by omega) hbound.le (by omega) hrun₁ false
    simp only [hlast, hnote, h₁, Except.bind, h₂]
    exact ⟨_, rfl, ⟨running_resizeVector hrun₂ le_rfl, hn, rfl⟩, rfl⟩

theorem Sound.recycleThreads (h : Sound p) :
    ∃ q, p.recycleThreads = .ok q ∧ Sound q ∧ q.nThreads = p.nThreads := by
  have hbound := h.bound
  obtain ⟨ws, hws, hrun⟩ := countUp_ok PoolFault.endless
    (fun _ => Running p.nThreads p.nThreads) hbound
    (fun i ws hi hrun => recycleWorker_ok hi hrun) (2 ^ 32) (Nat.zero_le _) (by omega) h.running
  rw [HMThreadPool.recycleThreads, hws]
  exact ⟨_, rfl, ⟨hrun, hbound, h.unwrapped⟩, rfl⟩

end HMThreadPool

/-- What the monitor reads of the settings; every 32-bit number is one that `atoi` can give. -/
structure PoolSettings where
  minThreads : UInt32
  maxThreads : UInt32
  stridePercent : UInt32
  workPerThreadRatio : UInt32
  monitorFrequency : UInt32
  recycle : Bool
  deriving DecidableEq, Repr

/-- The value that `threads.min` or `threads.max` sets. -/
def threadsValue (val : HMString) : UInt32 := .ofInt (Decimal.atoi val)

theorem threadsValue_surjective (n : UInt32) : ∃ val, threadsValue val = n :=
  ⟨Decimal.decimal n.toNat, ofInt_atoi_uint32 n⟩

/-- What the monitor finds when it wakes up: how its workers have fared, and the queue. -/
structure MonitorTick where
  idle : ℕ → Bool
  nUsed : ℕ → ℕ
  numOffSchedule : UInt64
  queueSize : UInt32

namespace MonitorTick

def offSchedule (t : MonitorTick) : ℕ := (t.numOffSchedule.toNat + t.queueSize.toNat) % 2 ^ 64

end MonitorTick

structure HMThreadMonitor where
  pool : HMThreadPool
  confidence : ℕ
  counter : ℕ
  deriving DecidableEq, Repr

namespace HMThreadMonitor

open HMThreadPool

/-- The workers run on by themselves between two iterations. -/
def workersRun (t : MonitorTick) (p : HMThreadPool) : HMThreadPool :=
  { p with
    workers := p.workers.mapIdx fun i e =>
      e.map fun w => { w with idle := t.idle i, nUsed := t.nUsed i } }

/-- The number of threads for the work that has piled up, computed as a double. -/
def grownThreads (c : PoolSettings) (t : MonitorTick) (nThreads : ℕ) : ℕ :=
  nearest (nearest nThreads + ceilQuotient (nearest t.offSchedule) c.workPerThreadRatio.toNat)

/-- The double is finite and has a place in a 64-bit number. -/
def Convertible (c : PoolSettings) (t : MonitorTick) (nThreads : ℕ) : Prop :=
  c.workPerThreadRatio ≠ 0 ∧ grownThreads c t nThreads < 2 ^ 64

instance (c : PoolSettings) (t : MonitorTick) (nThreads : ℕ) :
    Decidable (Convertible c t nThreads) :=
  inferInstanceAs (Decidable (_ ∧ _))

def stride (c : PoolSettings) (nThreads : ℕ) : ℕ :=
  c.stridePercent.toNat * nThreads % 2 ^ 64 / 100 % 2 ^ 32

/-- Where the pool grows to, at most what the settings allow. -/
def grownTarget (c : PoolSettings) (t : MonitorTick) (nThreads : ℕ) : ℕ :=
  if c.maxThreads.toNat < grownThreads c t nThreads then c.maxThreads.toNat
  else grownThreads c t nThreads

def shrunkThreads (c : PoolSettings) (nThreads : ℕ) : ℕ :=
  (nThreads + (2 ^ 64 - stride c nThreads)) % 2 ^ 64

/-- Where the pool shrinks to, at least what the settings ask for. -/
def shrunkTarget (c : PoolSettings) (nThreads : ℕ) : ℕ :=
  if shrunkThreads c nThreads < c.minThreads.toNat then c.minThreads.toNat
  else shrunkThreads c nThreads

/-- The part of an iteration that resizes the pool. -/
def adjust (c : PoolSettings) (t : MonitorTick) (p : HMThreadPool) (confidence : ℕ) :
    Except PoolFault (HMThreadPool × ℕ) :=
  if 0 < t.offSchedule then
    if Convertible c t p.nThreads then
      (p.resize (grownTarget c t p.nThreads)).map fun p => (p, confidence)
    else .error .notConvertible
  else if stride c p.nThreads < p.countIdle then
    if 3 ≤ confidence + 1 then
      let p := { p with wrapped := p.wrapped || p.nThreads < stride c p.nThreads }
      (p.resize (shrunkTarget c p.nThreads)).map fun p => (p, 0)
    else .ok (p, confidence + 1)
  else .ok (p, 0)

/-- One round of the loop of `monitorThreads`. -/
def iteration (c : PoolSettings) (m : HMThreadMonitor) (t : MonitorTick) :
    Except PoolFault HMThreadMonitor :=
  (adjust c t (workersRun t m.pool) m.confidence).bind fun (p, confidence) =>
    let counter := (m.counter + c.monitorFrequency.toNat) % 2 ^ 64
    if c.recycle ∧ 3600 ≤ counter then p.recycleThreads.map fun p => ⟨p, confidence, 0⟩
    else .ok ⟨p, confidence, counter⟩

def monitorThreads (c : PoolSettings) (ts : List MonitorTick) : Except PoolFault HMThreadMonitor :=
  (HMThreadPool.empty.resize c.maxThreads.toNat).bind fun p => ts.foldlM (iteration c) ⟨p, 0, 0⟩

variable {c : PoolSettings} {t : MonitorTick} {p : HMThreadPool} {m : HMThreadMonitor}

/-- The pool works, has a worker, and is of a size that the settings ask for. -/
structure Fit (c : PoolSettings) (p : HMThreadPool) : Prop where
  sound : Sound p
  pos : 0 < p.nThreads
  range : c.minThreads ≤ c.maxThreads →
    c.minThreads.toNat ≤ p.nThreads ∧ p.nThreads ≤ c.maxThreads.toNat

theorem Sound.workersRun (h : Sound p) (t : MonitorTick) : Sound (workersRun t p) := by
  refine ⟨⟨by simp [HMThreadMonitor.workersRun, h.running.size], ?_⟩, h.bound, h.unwrapped⟩
  intro i hi
  obtain ⟨w, hw, hjoin⟩ := h.running.live i hi
  exact ⟨{ w with idle := t.idle i, nUsed := t.nUsed i },
    by simp [HMThreadMonitor.workersRun, List.getElem?_mapIdx, hw], hjoin⟩

theorem Fit.workersRun (h : Fit c p) (t : MonitorTick) : Fit c (workersRun t p) :=
  ⟨Sound.workersRun h.sound t, h.pos, h.range⟩

theorem countIdle_le (h : Sound p) : p.countIdle ≤ p.nThreads := by
  rw [← h.running.size]
  exact List.countP_le_length

theorem le_grownThreads {n : ℕ} (hn : n < 2 ^ 32) : n ≤ grownThreads c t n := by
  have hexact : nearest n = n := nearest_of_lt (by omega)
  apply le_nearest (by omega)
  rw [hexact]
  omega

theorem Fit.resize (h : Fit c p) {n : ℕ} (hpos : 0 < n) (hn : n < 2 ^ 32)
    (hrange : c.minThreads ≤ c.maxThreads → c.minThreads.toNat ≤ n ∧ n ≤ c.maxThreads.toNat) :
    ∃ q, p.resize n = .ok q ∧ Fit c q := by
  obtain ⟨q, hq, hsound, hsize⟩ := h.sound.resize hpos hn
  refine ⟨q, hq, hsound, ?_, ?_⟩
  · omega
  · rwa [hsize]

theorem shrunkThreads_eq {n : ℕ} (hn : n < 2 ^ 32) (hstride : stride c n < n) :
    shrunkThreads c n = n - stride c n := by
  rw [shrunkThreads]
  omega

/-- An iteration whose number can be converted leaves a pool that fits. -/
theorem adjust_ok (h : Fit c p) (hmax : c.maxThreads ≠ 0)
    (hconv : 0 < t.offSchedule → Convertible c t p.nThreads) (confidence : ℕ) :
    ∃ q k, adjust c t p confidence = .ok (q, k) ∧ Fit c q := by
  have hpos := h.pos
  have hbound := h.sound.bound
  have hrange := h.range
  have hmaxPos : 0 < c.maxThreads.toNat :=
    Nat.pos_of_ne_zero fun hzero => hmax (UInt32.toNat_inj.mp hzero)
  have hmaxBound := c.maxThreads.toNat_lt
  have hminBound := c.minThreads.toNat_lt
  rw [adjust]
  split
  · next hoff =>
    have hgrown : p.nThreads ≤ grownThreads c t p.nThreads := le_grownThreads hbound
    obtain ⟨q, hq, hfit⟩ := h.resize (n := grownTarget c t p.nThreads)
      (by rw [grownTarget]; split <;> omega) (by rw [grownTarget]; split <;> omega)
      (by intro hle; have := hrange hle; rw [grownTarget]; split <;> omega)
    rw [if_pos (hconv hoff), hq]
    exact ⟨q, confidence, rfl, hfit⟩
  · split
    · next hidle =>
      have hstride : stride c p.nThreads < p.nThreads := hidle.trans_le (countIdle_le h.sound)
      have hshrunk := shrunkThreads_eq hbound hstride
      have hsame : ({ p with wrapped := p.wrapped || p.nThreads < stride c p.nThreads } :
          HMThreadPool) = p := by
        rw [decide_eq_false (by omega), Bool.or_false]
      split
      · obtain ⟨q, hq, hfit⟩ := h.resize (n := shrunkTarget c p.nThreads)
          (by rw [shrunkTarget]; split <;> omega) (by rw [shrunkTarget]; split <;> omega)
          (by intro hle; have := hrange hle; rw [shrunkTarget]; split <;> omega)
        rw [hsame]
        dsimp only
        rw [hq]
        exact ⟨q, 0, rfl, hfit⟩
      · exact ⟨p, confidence + 1, rfl, h⟩
    · exact ⟨p, 0, rfl, h⟩

theorem iteration_ok (h : Fit c m.pool) (hmax : c.maxThreads ≠ 0)
    (hconv : 0 < t.offSchedule → Convertible c t m.pool.nThreads) :
    ∃ m', iteration c m t = .ok m' ∧ Fit c m'.pool := by
  obtain ⟨p, k, hp, hfit⟩ := adjust_ok (h.workersRun t) hmax hconv m.confidence
  rw [iteration, hp, Except.bind]
  dsimp only
  split
  · obtain ⟨q, hq, hsound, hsize⟩ := hfit.sound.recycleThreads
    refine ⟨⟨q, k, 0⟩, by rw [hq]; rfl, hsound, ?_, ?_⟩
    · exact hsize ▸ hfit.pos
    · exact hsize ▸ hfit.range
  · exact ⟨_, rfl, hfit⟩

theorem convertible_of_iteration {m' : HMThreadMonitor} (h : iteration c m t = .ok m')
    (hoff : 0 < t.offSchedule) : Convertible c t m.pool.nThreads := by
  by_contra hconv
  have hfault : adjust c t (workersRun t m.pool) m.confidence = .error .notConvertible := by
    rw [adjust, if_pos hoff]
    exact if_neg hconv
  rw [iteration, hfault] at h
  cases h

theorem monitorThreads_append (c : PoolSettings) (ts : List MonitorTick) (t : MonitorTick) :
    monitorThreads c (ts ++ [t]) = (monitorThreads c ts).bind fun m => iteration c m t := by
  unfold monitorThreads
  cases HMThreadPool.empty.resize c.maxThreads.toNat with
  | error f => rfl
  | ok p => simp [Except.bind, List.foldlM_append]; rfl

theorem resize_empty_zero : HMThreadPool.empty.resize 0 = .error (.outOfRange (2 ^ 32 - 1)) := by
  decide

theorem monitorThreads_nil_ok (hmax : c.maxThreads ≠ 0) :
    ∃ m, monitorThreads c [] = .ok m ∧ Fit c m.pool := by
  have hmaxPos : 0 < c.maxThreads.toNat :=
    Nat.pos_of_ne_zero fun hzero => hmax (UInt32.toNat_inj.mp hzero)
  obtain ⟨p, hp, hsound, hsize⟩ := sound_empty.resize hmaxPos c.maxThreads.toNat_lt
  refine ⟨⟨p, 0, 0⟩, by rw [monitorThreads, hp]; rfl, hsound, hsize ▸ hmaxPos, ?_⟩
  intro hle
  rw [hsize]
  exact ⟨hle, le_rfl⟩

/-- In the state after every iteration the pool has as many workers as it counts, no subtraction
has wrapped, and the settings' bounds are met. -/
def PoolSized (c : PoolSettings) (ts : List MonitorTick) : Prop :=
  ∀ ts₁, ts₁ <+: ts → ∃ m, monitorThreads c ts₁ = .ok m ∧
    m.pool.workers.length = m.pool.nThreads ∧ m.pool.wrapped = false ∧
    (c.minThreads ≤ c.maxThreads →
      c.minThreads.toNat ≤ m.pool.nThreads ∧ m.pool.nThreads ≤ c.maxThreads.toNat)

end HMThreadMonitor

open HMThreadMonitor

/-- The first resizing already fails where the settings allow no thread, and apart from that only
a number of threads beyond 64 bits is in the way. -/
theorem thread_pool_sized_iff (c : PoolSettings) (ts : List MonitorTick) :
    PoolSized c ts ↔ c.maxThreads ≠ 0 ∧
      ∀ ts₁ t, ts₁ ++ [t] <+: ts → ∀ m, monitorThreads c ts₁ = .ok m →
        0 < t.offSchedule → Convertible c t m.pool.nThreads := by
  constructor
  · intro h
    constructor
    · intro hzero
      obtain ⟨m, hm, -⟩ := h [] List.nil_prefix
      rw [monitorThreads, hzero] at hm
      exact absurd hm (by rw [show (0 : UInt32).toNat = 0 from rfl, resize_empty_zero]; nofun)
    · intro ts₁ t hle m hm
      obtain ⟨m', hm', -⟩ := h (ts₁ ++ [t]) hle
      rw [monitorThreads_append, hm] at hm'
      exact convertible_of_iteration hm'
  · rintro ⟨hmax, hconv⟩
    have hfit : ∀ ts₁, ts₁ <+: ts → ∃ m, monitorThreads c ts₁ = .ok m ∧ Fit c m.pool := by
      intro ts₁
      induction ts₁ using List.reverseRecOn with
      | nil => exact fun _ => monitorThreads_nil_ok hmax
      | append_singleton ts₁ t ih =>
        intro hle
        obtain ⟨m, hm, hfit⟩ := ih ((List.prefix_append ts₁ [t]).trans hle)
        obtain ⟨m', hm', hfit'⟩ := iteration_ok hfit hmax (hconv ts₁ t hle m hm)
        exact ⟨m', by rw [monitorThreads_append, hm]; exact hm', hfit'⟩
    intro ts₁ hle
    obtain ⟨m, hm, hsound, -, hrange⟩ := hfit ts₁ hle
    exact ⟨m, hm, hsound.running.size, hsound.unwrapped, hrange⟩

/-- With `threads.max: 0` the first loop reads an entry of an empty vector. -/
theorem thread_pool_zero :
    ¬ ∀ (minVal maxVal : HMString) (stridePercent workPerThreadRatio monitorFrequency : UInt32)
      (recycle : Bool) (ts : List MonitorTick), 1 ≤ workPerThreadRatio →
      PoolSized ⟨threadsValue minVal, threadsValue maxVal, stridePercent, workPerThreadRatio,
        monitorFrequency, recycle⟩ ts := by
  intro h
  obtain ⟨m, hm, -⟩ := h (bytes "0") (bytes "0") 10 4 2 false [] (by decide) [] List.nil_prefix
  have hfault : HMThreadPool.empty.resize (threadsValue (bytes "0")).toNat =
      .error (.outOfRange (2 ^ 32 - 1)) := by
    rw [show (threadsValue (bytes "0")).toNat = 0 by decide, resize_empty_zero]
  rw [monitorThreads, hfault] at hm
  cases hm

end NetCHASM
