import Mathlib.Data.Nat.Notation

/-! A recurring job is kept going by a queued work or, while it is idle, by a pending
timeout. The works and the timeouts of all jobs share one queue and one heap. -/
namespace PendingWork

variable {W T : Type} {isWork isWork' : W → Prop} {isTimeout isTimeout' : T → Prop} {idle idle' : Prop}
  {works works' : List W} {timeouts timeouts' : List T}

def Kept (isWork : W → Prop) (isTimeout : T → Prop) (idle : Prop) (works : List W)
    (timeouts : List T) : Prop :=
  (∃ w ∈ works, isWork w) ∨ (idle ∧ ∃ t ∈ timeouts, isTimeout t)

theorem Kept.of_work {w : W} (hw : w ∈ works) (h : isWork w) :
    Kept isWork isTimeout idle works timeouts :=
  Or.inl ⟨w, hw, h⟩

theorem Kept.of_timeout {t : T} (hidle : idle) (ht : t ∈ timeouts) (h : isTimeout t) :
    Kept isWork isTimeout idle works timeouts :=
  Or.inr ⟨hidle, t, ht, h⟩

/-- More works and timeouts do no harm, nor does an entry that is due earlier. -/
theorem Kept.mono (h : Kept isWork isTimeout idle works timeouts)
    (hwork : ∀ w, isWork w → isWork' w) (htimeout : ∀ t, isTimeout t → isTimeout' t)
    (hidle : idle → idle') (hworks : works ⊆ works') (htimeouts : timeouts ⊆ timeouts') :
    Kept isWork' isTimeout' idle' works' timeouts' := by
  rcases h with ⟨w, hw, hown⟩ | ⟨hi, t, ht, htime⟩
  · exact Kept.of_work (hworks hw) (hwork w hown)
  · exact Kept.of_timeout (hidle hi) (htimeouts ht) (htimeout t htime)

private theorem mem_eraseIdx_of_ne {α : Type} {xs : List α} {i : ℕ} {x y : α} (hx : x ∈ xs)
    (hy : xs[i]? = some y) (hne : x ≠ y) : x ∈ xs.eraseIdx i := by
  rcases List.mem_iff_getElem?.mp hx with ⟨j, hj⟩
  rw [List.mem_eraseIdx_iff_getElem?]
  refine ⟨j, ?_, hj⟩
  rintro rfl
  exact hne (Option.some.inj (hj.symm.trans hy))

/-- A work that is not for the job may be taken from the queue. -/
theorem Kept.eraseWork (h : Kept isWork isTimeout idle works timeouts) {i : ℕ} {w : W}
    (hw : works[i]? = some w) (hnot : ¬ isWork w) :
    Kept isWork isTimeout idle (works.eraseIdx i) timeouts := by
  rcases h with ⟨v, hv, hwork⟩ | htimeout
  · have hne : v ≠ w := by
      rintro rfl
      exact hnot hwork
    exact Kept.of_work (mem_eraseIdx_of_ne hv hw hne) hwork
  · exact Or.inr htimeout

/-- A timeout that is not for the job may be taken from the heap. -/
theorem Kept.eraseTimeout (h : Kept isWork isTimeout idle works timeouts) {i : ℕ} {t : T}
    (ht : timeouts[i]? = some t) (hnot : ¬ (idle ∧ isTimeout t)) :
    Kept isWork isTimeout idle works (timeouts.eraseIdx i) := by
  rcases h with hwork | ⟨hidle, u, hu, htime⟩
  · exact Or.inl hwork
  · have hne : u ≠ t := by
      rintro rfl
      exact hnot ⟨hidle, htime⟩
    exact Kept.of_timeout hidle (mem_eraseIdx_of_ne hu ht hne) htime

end PendingWork
