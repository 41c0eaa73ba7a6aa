import NetCHASM.KeyComparators
import NetCHASM.Library.Runs
import NetCHASM.Library.Decimal

/-! The pool of kept connections to remote daemons. A call finds the connections of its key or
adds one; what the random generator gives and which socket object a new connection gets are part
of the call. -/
namespace NetCHASM

open OrderedMap Runs

/-- The number of connections that `max-remote-connections` sets. -/
def maxRemoteConnections (val : HMString) : UInt8 :=
  if 0 ≤ Decimal.atoi val ∧ Decimal.atoi val ≤ 128 then .ofInt (Decimal.atoi val) else 128

/-- The handler with the type of its socket objects, of which one may be missing. -/
structure HMConnectionHandler (V : Type) where
  connections : SortedMultimap HMConnectionCheck V
  maxConnections : UInt8

/-- A call of `getConnection` with what `rand` and `createConnection` give in it. -/
structure ConnectionCall (V : Type) where
  check : HMConnectionCheck
  rand : ℕ
  created : V

namespace HMConnectionHandler

variable {V : Type} {h h' : HMConnectionHandler V} {c : ConnectionCall V} {v : V}

def count (h : HMConnectionHandler V) (check : HMConnectionCheck) : ℕ :=
  (h.connections.range check).length

/-- The loop over the connections of a key, which counts down an 8-bit number. -/
def pick : UInt8 → List V → Option V
  | _, [] => none
  | randomValue, v :: vs => if randomValue = 0 then some v else pick (randomValue - 1) vs

/-- Nothing where the remainder divides by zero, else the connection that is found. -/
def findConnection (h : HMConnectionHandler V) (check : HMConnectionCheck) (rand : ℕ) :
    Option (Option V) :=
  if h.maxConnections = 0 then none
  else some (pick (.ofNat (rand % h.maxConnections.toNat)) (h.connections.range check))

/-- Nothing where the call divides by zero, else the handler after it and what it returns. The
test is made again under the lock. -/
def getConnection (h : HMConnectionHandler V) (c : ConnectionCall V) :
    Option (HMConnectionHandler V × Option V) :=
  if h.maxConnections.toNat ≤ h.count c.check then
    (h.findConnection c.check c.rand).map fun found => (h, found)
  else if h.maxConnections.toNat ≤ h.count c.check then
    (h.findConnection c.check c.rand).map fun found => (h, found)
  else
    some ({ h with connections := h.connections.insert c.check c.created }, some c.created)

def afterCall (h : HMConnectionHandler V) (c : ConnectionCall V) : Option (HMConnectionHandler V) :=
  (h.getConnection c).map Prod.fst

def empty (maxConnections : UInt8) : HMConnectionHandler V := ⟨.empty, maxConnections⟩

/-- No key has more connections than are allowed. -/
def Bounded (h : HMConnectionHandler V) : Prop := ∀ check, h.count check ≤ h.maxConnections.toNat

/-- A call that adds one connection and returns it, or returns one that is there and leaves the
pool alone. -/
structure Served (h : HMConnectionHandler V) (c : ConnectionCall V) (h' : HMConnectionHandler V)
    (v : V) : Prop where
  bounded : Bounded h'
  adds : h.count c.check < h.maxConnections.toNat →
    v = c.created ∧ h'.connections.entries.Perm ((c.check, v) :: h.connections.entries)
  finds : h.maxConnections.toNat ≤ h.count c.check →
    v ∈ h.connections.range c.check ∧ h' = h

theorem pick_of_lt {randomValue : UInt8} {vs : List V} (hlt : randomValue.toNat < vs.length) :
    ∃ v ∈ vs, pick randomValue vs = some v := by
  induction vs generalizing randomValue with
  | nil => cases hlt
  | cons v vs ih =>
    rw [pick]
    by_cases hzero : randomValue = 0
    · exact ⟨v, List.mem_cons_self, if_pos hzero⟩
    · have hne : randomValue.toNat ≠ 0 := fun h => hzero (UInt8.toNat_inj.mp h)
      have hpos : 1 ≤ randomValue := by
        rw [UInt8.le_iff_toNat_le, UInt8.toNat_one]
        omega
      have hprev : (randomValue - 1).toNat = randomValue.toNat - 1 := by
        rw [UInt8.toNat_sub_of_le _ _ hpos, UInt8.toNat_one]
      have hrest : (randomValue - 1).toNat < vs.length := by
        rw [List.length_cons] at hlt
        omega
      obtain ⟨w, hw, hpick⟩ := ih hrest
      exact ⟨w, List.mem_cons_of_mem v hw, by rw [if_neg hzero, hpick]⟩

theorem findConnection_of_full (hmax : h.maxConnections ≠ 0) {check : HMConnectionCheck}
    (hfull : h.maxConnections.toNat ≤ h.count check) (rand : ℕ) :
    ∃ v ∈ h.connections.range check, h.findConnection check rand = some (some v) := by
  have hpos : 0 < h.maxConnections.toNat :=
    Nat.pos_of_ne_zero fun hzero => hmax (UInt8.toNat_inj.mp hzero)
  have hlt : rand % h.maxConnections.toNat < h.maxConnections.toNat := Nat.mod_lt rand hpos
  have hsize := h.maxConnections.toNat_lt
  have hrandom : (UInt8.ofNat (rand % h.maxConnections.toNat)).toNat =
      rand % h.maxConnections.toNat := UInt8.toNat_ofNat_of_lt' (by rw [UInt8.size]; omega)
  have hfits : (UInt8.ofNat (rand % h.maxConnections.toNat)).toNat <
      (h.connections.range check).length := by
    rw [hrandom]
    exact hlt.trans_le hfull
  obtain ⟨v, hv, hpick⟩ := pick_of_lt hfits
  exact ⟨v, hv, by rw [findConnection, if_neg hmax, hpick]⟩

theorem Bounded.insert (hbounded : Bounded h) (hfew : h.count c.check < h.maxConnections.toNat)
    (v : V) : Bounded { h with connections := h.connections.insert c.check v } := by
  intro check
  have hcheck := hbounded check
  unfold count at hcheck hfew ⊢
  rw [SortedMultimap.range_insert]
  split
  · next heq =>
    rw [SortedMultimap.range_congr _ heq] at hfew
    rw [List.length_append, List.length_singleton]
    exact hfew
  · exact hcheck

/-- Every call on a bounded pool is served, unless no connection is allowed at all. -/
theorem served_getConnection (hmax : h.maxConnections ≠ 0) (hbounded : Bounded h)
    (c : ConnectionCall V) :
    ∃ h' v, h.getConnection c = some (h', some v) ∧ Served h c h' v ∧
      h'.maxConnections = h.maxConnections := by
  rw [getConnection]
  split
  · next hfull =>
    obtain ⟨v, hv, hfind⟩ := findConnection_of_full hmax hfull c.rand
    refine ⟨h, v, by rw [hfind]; rfl, ⟨hbounded, ?_, fun _ => ⟨hv, rfl⟩⟩, rfl⟩
    intro hfew
    omega
  · next hfew =>
    refine ⟨_, c.created, rfl, ⟨hbounded.insert (by omega) c.created, ?_, ?_⟩, rfl⟩
    · intro _
      exact ⟨rfl, insertUpper_perm c.check c.created h.connections.entries⟩
    · intro hfull
      exact absurd hfull hfew

theorem getConnection_of_zero (hmax : h.maxConnections = 0) (c : ConnectionCall V) :
    h.getConnection c = none := by
  have hfull : h.maxConnections.toNat ≤ h.count c.check := by
    rw [hmax]
    exact Nat.zero_le _
  rw [getConnection, if_pos hfull, findConnection, if_pos hmax]
  rfl

/-- Every call of a sequence is served by the handler that the calls before it have left. -/
def ServesAll (maxConnections : UInt8) (cs : List (ConnectionCall V)) : Prop :=
  ∀ cs₁ c, cs₁ ++ [c] <+: cs → ∃ h, runTrace afterCall (empty maxConnections) cs₁ = some h ∧
    ∃ h' v, h.getConnection c = some (h', some v) ∧ Served h c h' v

theorem runTrace_ok (hmax : h.maxConnections ≠ 0) (hbounded : Bounded h)
    (cs : List (ConnectionCall V)) : ∃ h', runTrace afterCall h cs = some h' ∧ Bounded h' ∧
      h'.maxConnections = h.maxConnections := by
  induction cs generalizing h with
  | nil => exact ⟨h, rfl, hbounded, rfl⟩
  | cons c cs ih =>
    obtain ⟨m, v, hm, hserved, hsame⟩ := served_getConnection hmax hbounded c
    obtain ⟨h', hrun, hbounded', hsame'⟩ := ih (hsame ▸ hmax) hserved.bounded
    refine ⟨h', ?_, hbounded', hsame'.trans hsame⟩
    exact runTrace_cons.mpr ⟨m, by rw [afterCall, hm]; rfl, hrun⟩

theorem bounded_empty (maxConnections : UInt8) :
    Bounded (empty maxConnections : HMConnectionHandler V) := fun _ => Nat.zero_le _

end HMConnectionHandler

open HMConnectionHandler

/-- A pool serves its calls just when some connection is allowed, or nothing is called. -/
theorem connection_pool_serves_iff {V : Type} (maxConnections : UInt8)
    (cs : List (ConnectionCall V)) :
    ServesAll maxConnections cs ↔ maxConnections ≠ 0 ∨ cs = [] := by
  constructor
  · intro h
    rw [or_iff_not_imp_left]
    intro hzero
    rcases cs with _ | ⟨c, cs⟩
    · rfl
    · obtain ⟨h₁, hrun, h', v, hcall, -⟩ := h [] c (by simp)
      obtain rfl := Option.some.inj hrun
      rw [getConnection_of_zero (not_not.mp hzero)] at hcall
      cases hcall
  · rintro (hmax | rfl)
    · intro cs₁ c _
      obtain ⟨h, hrun, hbounded, hsame⟩ :=
        runTrace_ok (h := empty maxConnections) hmax (bounded_empty maxConnections) cs₁
      obtain ⟨h', v, hcall, hserved, -⟩ := served_getConnection (hsame ▸ hmax) hbounded c
      exact ⟨h, hrun, h', v, hcall, hserved⟩
    · intro cs₁ c hle
      exact absurd (List.prefix_nil.mp hle) (by simp)

/-- With `max-remote-connections: 0` the first call divides by zero. -/
theorem connection_pool_zero :
    ¬ ∀ (val : HMString) (cs : List (ConnectionCall ℕ)),
      ServesAll (maxRemoteConnections val) cs := by
  intro h
  let check : HMConnectionCheck := ⟨10053, .unset, .sharedTcp, [], .unset, 0⟩
  obtain ⟨h₁, hrun, h', v, hcall, -⟩ := h (bytes "0") [⟨check, 0, 0⟩] [] ⟨check, 0, 0⟩ (by simp)
  obtain rfl := Option.some.inj hrun
  rw [getConnection_of_zero (by decide)] at hcall
  cases hcall

end NetCHASM
