import Mathlib.Algebra.Order.Ring.Int
import Mathlib.Order.Defs.LinearOrder

/-! Merging an offered value into a stored one by their stamps. The stored value stays on a
tie, so that a second merge of the same offer changes nothing. -/
namespace NewestWins

variable {V T : Type} [LinearOrder T] {stamp : V → T}

def keepNewest (stamp : V → T) (offered stored : Option V) : Option V :=
  match offered, stored with
  | none, s => s
  | some o, none => some o
  | some o, some s => if stamp s < stamp o then some o else some s

@[simp] theorem keepNewest_none (s : Option V) : keepNewest stamp none s = s := rfl

@[simp] theorem keepNewest_again (o s : Option V) :
    keepNewest stamp o (keepNewest stamp o s) = keepNewest stamp o s := by
  cases o with
  | none => rfl
  | some o =>
    cases s with
    | none => simp [keepNewest]
    | some s =>
      by_cases h : stamp s < stamp o
      · simp [keepNewest, h]
      · simp [keepNewest, h]

/-- What was there before is still there or has a newer value in its place. -/
def NotOlder (stamp : V → T) (before after : Option V) : Prop :=
  ∀ v, before = some v → ∃ w, after = some w ∧ stamp v ≤ stamp w

theorem NotOlder.refl (v : Option V) : NotOlder stamp v v := fun v hv => ⟨v, hv, le_refl _⟩

theorem NotOlder.trans {a b c : Option V} (hab : NotOlder stamp a b) (hbc : NotOlder stamp b c) :
    NotOlder stamp a c := by
  intro v hv
  obtain ⟨w, hw, hvw⟩ := hab v hv
  obtain ⟨x, hx, hwx⟩ := hbc w hw
  exact ⟨x, hx, le_trans hvw hwx⟩

theorem notOlder_keepNewest (o s : Option V) : NotOlder stamp s (keepNewest stamp o s) := by
  rintro v rfl
  cases o with
  | none => exact ⟨v, rfl, le_refl _⟩
  | some o =>
    by_cases h : stamp v < stamp o
    · exact ⟨o, by simp [keepNewest, h], le_of_lt h⟩
    · exact ⟨v, by simp [keepNewest, h], le_refl _⟩

end NewestWins
