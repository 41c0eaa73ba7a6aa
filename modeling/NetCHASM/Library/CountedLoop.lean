import Mathlib.Algebra.Order.Ring.Int
import Mathlib.Data.List.Basic

/-! Loops over a machine counter. The counter has a fixed number of bits and wraps at both ends,
a pass can fail, and a loop that is still going after as many passes as the counter has values
is reported as endless. -/
namespace CountedLoop

variable {W F : Type} {endless : F} {bits stop : ℕ} {body : ℕ → W → Except F W}

/-- `for (i = first; i < stop; ++i) body(i);` -/
def countUp (endless : F) (bits stop : ℕ) (body : ℕ → W → Except F W) :
    ℕ → ℕ → W → Except F W
  | 0, _, _ => .error endless
  | fuel + 1, i, w =>
    if i < stop then (body i w).bind (countUp endless bits stop body fuel ((i + 1) % 2 ^ bits))
    else .ok w

/-- `for (i = first; i >= stop; --i) body(i);`, with a note of whether the counter has wrapped. -/
def countDown (endless : F) (bits stop : ℕ) (body : ℕ → W → Except F W) :
    ℕ → ℕ → W × Bool → Except F (W × Bool)
  | 0, _, _ => .error endless
  | fuel + 1, i, (w, wrapped) =>
    if stop ≤ i then
      (body i w).bind fun w' =>
        countDown endless bits stop body fuel ((i + (2 ^ bits - 1)) % 2 ^ bits)
          (w', wrapped || i = 0)
    else .ok (w, wrapped)

/-- A rising loop whose bound the counter can hold ends with what its passes carry along. -/
theorem countUp_ok (endless : F) (Inv : ℕ → W → Prop) (hstop : stop < 2 ^ bits)
    (hbody : ∀ i w, i < stop → Inv i w → ∃ w', body i w = .ok w' ∧ Inv (i + 1) w') (fuel : ℕ)
    {i : ℕ} (hi : i ≤ stop) (hfuel : stop - i < fuel) {w : W} (hw : Inv i w) :
    ∃ w', countUp endless bits stop body fuel i w = .ok w' ∧ Inv stop w' := by
  induction fuel generalizing i w with
  | zero => omega
  | succ fuel ih =>
    rw [countUp]
    by_cases hlt : i < stop
    · obtain ⟨w', hw', hinv⟩ := hbody i w hlt hw
      rw [if_pos hlt, hw', Nat.mod_eq_of_lt (by omega)]
      exact ih (by omega) (by omega) hinv
    · obtain rfl : i = stop := by omega
      rw [if_neg hlt]
      exact ⟨w, rfl, hw⟩

/-- A falling loop that stops above zero ends with what its passes carry along, and its counter
does not wrap. -/
theorem countDown_ok (endless : F) (Inv : ℕ → W → Prop) (hstop : 0 < stop)
    (hbody : ∀ i w, stop ≤ i → Inv (i + 1) w → ∃ w', body i w = .ok w' ∧ Inv i w') (fuel : ℕ)
    {n : ℕ} (hn : stop ≤ n) (hbits : n ≤ 2 ^ bits) (hfuel : n - stop < fuel) {w : W}
    (hw : Inv n w) (wrapped : Bool) :
    ∃ w', countDown endless bits stop body fuel (n - 1) (w, wrapped) = .ok (w', wrapped) ∧
      Inv stop w' := by
  induction fuel generalizing n w with
  | zero => omega
  | succ fuel ih =>
    rw [countDown]
    by_cases hle : stop ≤ n - 1
    · have hpos : n - 1 ≠ 0 := by omega
      obtain ⟨w', hw', hinv⟩ := hbody (n - 1) w hle (by rwa [Nat.sub_add_cancel (by omega)])
      have hprev : (n - 1 + (2 ^ bits - 1)) % 2 ^ bits = n - 1 - 1 := by
        rw [show n - 1 + (2 ^ bits - 1) = n - 1 - 1 + 2 ^ bits by omega, Nat.add_mod_right]
        exact Nat.mod_eq_of_lt (by omega)
      rw [if_pos hle, hw', hprev]
      simpa [Except.bind, hpos] using ih hle (by omega) (by omega) hinv
    · obtain rfl : n = stop := by omega
      rw [if_neg hle]
      exact ⟨w, rfl, hw⟩

end CountedLoop
