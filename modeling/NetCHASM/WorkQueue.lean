import NetCHASM.Library.Runs
import Mathlib.Data.List.Perm.Basic
import Mathlib.Data.List.Nodup

/-! The work queue with the map of the works that wait for a callback. A step is what one thread
does while it holds a lock, so that `addWork` has two: it takes the work out of the map, and then
it inserts it. The lists of what was inserted, handed out, started and completed are read by
statements only. -/
namespace NetCHASM

/-- The address of a work, which is also its key in the map. -/
abbrev HMWorkPtr := ℕ

/-- An insertion into the queue, of a new work or of one whose callback has come. -/
inductive Insertion where
  | new (p : HMWorkPtr)
  | again (p : HMWorkPtr)
  deriving DecidableEq, Repr

namespace Insertion

def ptr : Insertion → HMWorkPtr
  | .new p => p
  | .again p => p

def again? : Insertion → Option HMWorkPtr
  | .new _ => none
  | .again p => some p

@[simp] theorem ptr_new (p : HMWorkPtr) : (new p).ptr = p := rfl
@[simp] theorem ptr_again (p : HMWorkPtr) : (again p).ptr = p := rfl

@[simp] theorem filterMap_new (p : HMWorkPtr) : [new p].filterMap again? = [] := rfl
@[simp] theorem filterMap_again (p : HMWorkPtr) : [again p].filterMap again? = [p] := rfl

end Insertion

structure HMWorkQueue (K : Type) where
  queue : List HMWorkPtr
  workMap : List HMWorkPtr
  /-- The workers that are in `processWork`, with their work. -/
  processing : List (K × HMWorkPtr)
  /-- The workers that have yet to put their work into the map. -/
  registering : List (K × HMWorkPtr)
  /-- The works whose callback is still to come. -/
  scheduled : List HMWorkPtr
  /-- The works that `addWork` has taken out of the map. -/
  returning : List HMWorkPtr
  /-- `std::map::at` has thrown. -/
  failed : Bool
  inserted : List Insertion
  handed : List (K × HMWorkPtr)
  started : List HMWorkPtr
  completed : List HMWorkPtr
  deriving DecidableEq, Repr

inductive QueueEvent (K : Type) where
  | insertWork (p : HMWorkPtr)
  | getWork (k : K)
  | processed (k : K) (p : HMWorkPtr)
  | inProgress (k : K) (p : HMWorkPtr)
  | insertMap (k : K) (p : HMWorkPtr)
  | addWork (p : HMWorkPtr)
  | requeue (p : HMWorkPtr)
  deriving DecidableEq, Repr

namespace HMWorkQueue

variable {K : Type} [DecidableEq K] {s s' : HMWorkQueue K} {e : QueueEvent K}

def empty : HMWorkQueue K := ⟨[], [], [], [], [], [], false, [], [], [], []⟩

/-- The works that some part of the daemon owns. -/
def live (s : HMWorkQueue K) : List HMWorkPtr :=
  s.queue ++ s.workMap ++ s.processing.map Prod.snd ++ s.registering.map Prod.snd ++ s.returning

def busy (s : HMWorkQueue K) (k : K) : Prop :=
  k ∈ s.processing.map Prod.fst ∨ k ∈ s.registering.map Prod.fst

instance (s : HMWorkQueue K) (k : K) : Decidable (s.busy k) := inferInstanceAs (Decidable (_ ∨ _))

/-- One step of one thread. A new work is at an address that no other work has. -/
def step (s : HMWorkQueue K) : QueueEvent K → Option (HMWorkQueue K)
  | .insertWork p =>
    if p ∈ s.live then none
    else some { s with queue := s.queue ++ [p], inserted := s.inserted ++ [.new p] }
  | .getWork k =>
    match s.queue with
    | [] => none
    | p :: queue =>
      if s.busy k then none
      else some { s with
        queue := queue, processing := (k, p) :: s.processing, handed := s.handed ++ [(k, p)] }
  | .processed k p =>
    if (k, p) ∈ s.processing then some { s with processing := s.processing.erase (k, p) } else none
  | .inProgress k p =>
    if (k, p) ∈ s.processing then
      some { s with
        processing := s.processing.erase (k, p), registering := (k, p) :: s.registering
        scheduled := p :: s.scheduled, started := p :: s.started }
    else none
  | .insertMap k p =>
    if (k, p) ∈ s.registering then
      -- a key that is there already keeps its value, and the new one is lost
      some { s with
        registering := s.registering.erase (k, p)
        workMap := if p ∈ s.workMap then s.workMap else p :: s.workMap }
    else none
  | .addWork p =>
    if p ∈ s.scheduled then
      if p ∈ s.workMap then
        some { s with
          scheduled := s.scheduled.erase p, workMap := s.workMap.erase p
          returning := p :: s.returning, completed := p :: s.completed }
      else some { s with scheduled := s.scheduled.erase p, failed := true }
    else none
  | .requeue p =>
    if p ∈ s.returning then
      some { s with
        returning := s.returning.erase p, queue := s.queue ++ [p]
        inserted := s.inserted ++ [.again p] }
    else none

/-- Every work is accounted for: an insertion is handed to one worker, in order, or is still in
the queue; a work in progress is completed or waits for its callback, and while it waits it is
kept; a completed one is inserted again once, or is about to be. -/
structure Delivered (s : HMWorkQueue K) : Prop where
  ok : s.failed = false
  fifo : s.handed.map Prod.snd ++ s.queue = s.inserted.map Insertion.ptr
  owned : s.live.Nodup
  kept : s.scheduled.Perm (s.registering.map Prod.snd ++ s.workMap)
  started : s.started.Perm (s.completed ++ s.scheduled)
  again : s.completed.Perm (s.inserted.filterMap Insertion.again? ++ s.returning)

/-- A callback comes only after the worker has put the work into the map. -/
def RegisteredFirst (s : HMWorkQueue K) (e : QueueEvent K) : Prop :=
  ∀ p, e = .addWork p → p ∈ s.scheduled → p ∉ s.registering.map Prod.snd

omit [DecidableEq K] in
theorem delivered_empty : Delivered (empty : HMWorkQueue K) :=
  ⟨rfl, rfl, List.nodup_nil, .nil, .nil, .nil⟩

theorem map_snd_perm_erase {k : K} {p : HMWorkPtr} {l : List (K × HMWorkPtr)} (h : (k, p) ∈ l) :
    (l.map Prod.snd).Perm (p :: (l.erase (k, p)).map Prod.snd) :=
  (List.perm_cons_erase h).map Prod.snd

omit [DecidableEq K] in
/-- A work that its worker still owns cannot be in the map. -/
theorem not_mem_workMap {p : HMWorkPtr} (howned : s.live.Nodup)
    (hmem : p ∈ s.registering.map Prod.snd) : p ∉ s.workMap := by
  intro hmap
  have hle := List.nodup_iff_count_le_one.mp howned p
  have hmapPos := List.count_pos_iff.mpr hmap
  have hregPos := List.count_pos_iff.mpr hmem
  simp only [live, List.count_append] at hle
  omega

theorem Delivered.insertWork (h : Delivered s) {p : HMWorkPtr}
    (hs : step s (.insertWork p) = some s') : Delivered s' := by
  rw [step] at hs
  split at hs
  · cases hs
  · next hfresh =>
    obtain rfl := Option.some.inj hs
    refine ⟨h.ok, by simp [← h.fifo], ?_, h.kept, h.started, by simpa using h.again⟩
    have hlive : (live { s with queue := s.queue ++ [p], inserted := s.inserted ++ [.new p] }).Perm
        (p :: s.live) := by
      rw [List.perm_iff_count]
      intro q
      simp only [live, List.count_append, List.count_cons, List.count_nil]
      omega
    exact hlive.nodup_iff.mpr (List.nodup_cons.mpr ⟨hfresh, h.owned⟩)

theorem Delivered.getWork (h : Delivered s) {k : K} (hs : step s (.getWork k) = some s') :
    Delivered s' := by
  rw [step] at hs
  split at hs
  · cases hs
  · next p queue hq =>
    split at hs
    · cases hs
    · obtain rfl := Option.some.inj hs
      refine ⟨h.ok, by simp [← h.fifo, hq], ?_, h.kept, h.started, h.again⟩
      apply List.Perm.nodup _ h.owned
      rw [List.perm_iff_count]
      intro q
      simp only [live, hq, List.count_append, List.count_cons, List.map_cons]
      omega

theorem Delivered.processed (h : Delivered s) {k : K} {p : HMWorkPtr}
    (hs : step s (.processed k p) = some s') : Delivered s' := by
  rw [step] at hs
  split at hs
  · next hmem =>
    obtain rfl := Option.some.inj hs
    refine ⟨h.ok, h.fifo, ?_, h.kept, h.started, h.again⟩
    have hlive : s.live.Perm (p :: live { s with processing := s.processing.erase (k, p) }) := by
      rw [List.perm_iff_count]
      intro q
      have hcount := (map_snd_perm_erase hmem).count_eq q
      simp only [live, List.count_append, List.count_cons] at hcount ⊢
      omega
    exact (List.nodup_cons.mp (hlive.nodup_iff.mp h.owned)).2
  · cases hs

theorem Delivered.inProgress (h : Delivered s) {k : K} {p : HMWorkPtr}
    (hs : step s (.inProgress k p) = some s') : Delivered s' := by
  rw [step] at hs
  split at hs
  · next hmem =>
    obtain rfl := Option.some.inj hs
    refine ⟨h.ok, h.fifo, ?_, h.kept.cons p, ?_, h.again⟩
    · apply List.Perm.nodup _ h.owned
      rw [List.perm_iff_count]
      intro q
      have hcount := (map_snd_perm_erase hmem).count_eq q
      simp only [live, List.count_append, List.count_cons, List.map_cons] at hcount ⊢
      omega
    · exact (h.started.cons p).trans List.perm_middle.symm
  · cases hs

theorem Delivered.insertMap (h : Delivered s) {k : K} {p : HMWorkPtr}
    (hs : step s (.insertMap k p) = some s') : Delivered s' := by
  rw [step] at hs
  split at hs
  · next hmem =>
    obtain rfl := Option.some.inj hs
    have hcounts := fun q => (map_snd_perm_erase hmem).count_eq q
    rw [if_neg (not_mem_workMap h.owned (List.mem_map_of_mem hmem))]
    refine ⟨h.ok, h.fifo, ?_, ?_, h.started, h.again⟩
    · apply List.Perm.nodup _ h.owned
      rw [List.perm_iff_count]
      intro q
      have hcount := hcounts q
      simp only [live, List.count_append, List.count_cons] at hcount ⊢
      omega
    · apply h.kept.trans
      rw [List.perm_iff_count]
      intro q
      have hcount := hcounts q
      simp only [List.count_append, List.count_cons] at hcount ⊢
      omega
  · cases hs

theorem Delivered.requeue (h : Delivered s) {p : HMWorkPtr}
    (hs : step s (.requeue p) = some s') : Delivered s' := by
  rw [step] at hs
  split at hs
  · next hmem =>
    obtain rfl := Option.some.inj hs
    have hcounts := fun q => (List.perm_cons_erase hmem).count_eq q
    refine ⟨h.ok, by simp [← h.fifo], ?_, h.kept, h.started, ?_⟩
    · apply List.Perm.nodup _ h.owned
      rw [List.perm_iff_count]
      intro q
      have hcount := hcounts q
      simp only [live, List.count_append, List.count_cons, List.count_nil] at hcount ⊢
      omega
    · apply h.again.trans
      rw [List.perm_iff_count]
      intro q
      have hcount := hcounts q
      simp only [List.filterMap_append, Insertion.filterMap_again, List.count_append,
        List.count_cons, List.count_nil] at hcount ⊢
      omega
  · cases hs

/-- A completed work is in the map, if its worker has put it there. -/
theorem Delivered.addWork (h : Delivered s) {p : HMWorkPtr}
    (hs : step s (.addWork p) = some s') (hfirst : RegisteredFirst s (.addWork p)) :
    Delivered s' := by
  rw [step] at hs
  split at hs
  · next hmem =>
    have hmap : p ∈ s.workMap :=
      (List.mem_append.mp (h.kept.mem_iff.mp hmem)).resolve_left (hfirst p rfl hmem)
    have hcounts := fun q => (List.perm_cons_erase hmem).count_eq q
    have hmapCounts := fun q => (List.perm_cons_erase hmap).count_eq q
    rw [if_pos hmap] at hs
    obtain rfl := Option.some.inj hs
    refine ⟨h.ok, h.fifo, ?_, ?_, ?_, (h.again.cons p).trans List.perm_middle.symm⟩
    · apply List.Perm.nodup _ h.owned
      rw [List.perm_iff_count]
      intro q
      have hcount := hmapCounts q
      simp only [live, List.count_append, List.count_cons] at hcount ⊢
      omega
    · rw [List.perm_iff_count]
      intro q
      have hcount := hcounts q
      have hmapCount := hmapCounts q
      have hkept := h.kept.count_eq q
      simp only [List.count_append, List.count_cons] at hcount hmapCount hkept ⊢
      omega
    · rw [List.perm_iff_count]
      intro q
      have hcount := hcounts q
      have hstarted := h.started.count_eq q
      simp only [List.count_append, List.count_cons] at hcount hstarted ⊢
      omega
  · cases hs

/-- A callback that comes too early finds nothing in the map. -/
theorem failed_of_not_registeredFirst (h : Delivered s) (hs : step s e = some s')
    (hearly : ¬ RegisteredFirst s e) : s'.failed = true := by
  simp only [RegisteredFirst, not_forall, not_not] at hearly
  rcases hearly with ⟨p, rfl, hmem, hreg⟩
  rw [step, if_pos hmem, if_neg (not_mem_workMap h.owned hreg)] at hs
  obtain rfl := Option.some.inj hs
  rfl

theorem delivered_step (h : Delivered s) (hs : step s e = some s') (hfirst : RegisteredFirst s e) :
    Delivered s' := by
  cases e with
  | insertWork p => exact h.insertWork hs
  | getWork k => exact h.getWork hs
  | processed k p => exact h.processed hs
  | inProgress k p => exact h.inProgress hs
  | insertMap k p => exact h.insertMap hs
  | addWork p => exact h.addWork hs hfirst
  | requeue p => exact h.requeue hs

theorem registeredFirst_of_disabled (hs : step s e = none) : RegisteredFirst s e := by
  rintro p rfl hmem
  rw [step, if_pos hmem] at hs
  split at hs <;> cases hs

omit [DecidableEq K] in
/-- A run with nothing left to do has handed every insertion out, and every work in progress once
more than it was inserted new. -/
theorem Delivered.quiescent (h : Delivered s) (hqueue : s.queue = []) (hscheduled : s.scheduled = [])
    (hreturning : s.returning = []) :
    s.handed.map Prod.snd = s.inserted.map Insertion.ptr ∧
      s.started.Perm (s.inserted.filterMap Insertion.again?) ∧ s.workMap = [] := by
  have hkept := h.kept
  have hstarted := h.started
  have hagain := h.again
  rw [hscheduled, List.append_nil] at hstarted
  rw [hreturning, List.append_nil] at hagain
  rw [hscheduled] at hkept
  refine ⟨by rw [← h.fifo, hqueue, List.append_nil], hstarted.trans hagain, ?_⟩
  exact (List.append_eq_nil_iff.mp hkept.nil_eq.symm).2

end HMWorkQueue

open HMWorkQueue Runs

/-- Works are delivered in every state of a run just when every callback of the run comes after
its work was put into the map. -/
theorem work_delivered_iff {K : Type} [DecidableEq K] (es : List (QueueEvent K)) :
    (∀ es₁ s, es₁ <+: es → runTrace step (empty : HMWorkQueue K) es₁ = some s → Delivered s) ↔
      Along step RegisteredFirst (empty : HMWorkQueue K) es := by
  apply observed_iff_along id _ registeredFirst_of_disabled delivered_empty
  intro s e s' h hs
  refine ⟨?_, delivered_step h hs⟩
  intro hdelivered
  by_contra hearly
  have hfailed := failed_of_not_registeredFirst h hs hearly
  rw [hdelivered.ok] at hfailed
  cases hfailed

/-- One worker, one work, and a callback that comes between `processWork` and `insertMap`. -/
theorem work_delivered_early_callback :
    ¬ ∀ (es : List (QueueEvent ℕ)) (s : HMWorkQueue ℕ),
      runTrace step empty es = some s → Delivered s := by
  intro h
  have hdelivered := h [.insertWork 1, .getWork 0, .inProgress 0 1, .addWork 1] _ rfl
  exact absurd hdelivered.ok (by decide)

end NetCHASM
