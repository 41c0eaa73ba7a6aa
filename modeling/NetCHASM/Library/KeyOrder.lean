import Mathlib.Algebra.Order.Ring.Int
import Mathlib.Order.Defs.LinearOrder
import Mathlib.Data.List.Pairwise

/-! Boolean comparators of ordered containers. A container identifies two keys
when neither is below the other, so a comparator may ignore part of its keys;
it must be a strict weak order, given here as asymmetry and negative transitivity. -/
namespace KeyOrder

variable {K L : Type}

/-- What an ordered container asks of its comparator. -/
structure StrictWeak (lt : K → K → Bool) : Prop where
  asymm : ∀ {a b}, lt a b = true → lt b a = false
  negTrans : ∀ {a b c}, lt a b = false → lt b c = false → lt a c = false

namespace StrictWeak

theorem irrefl {lt : K → K → Bool} (h : StrictWeak lt) (a : K) : lt a a = false := by
  cases hab : lt a a with
  | false => rfl
  | true => exact hab ▸ h.asymm hab

theorem trans {lt : K → K → Bool} (h : StrictWeak lt) {a b c : K}
    (hab : lt a b = true) (hbc : lt b c = true) : lt a c = true := by
  cases hac : lt a c with
  | true => rfl
  | false =>
    have hcb : lt c b = false := h.asymm hbc
    rw [h.negTrans hac hcb] at hab
    exact hab

/-- Comparing the images of the keys. -/
theorem comap {lt : L → L → Bool} (h : StrictWeak lt) (f : K → L) :
    StrictWeak (fun a b => lt (f a) (f b)) where
  asymm := h.asymm
  negTrans := h.negTrans

/-- A linear order read as a comparator. -/
theorem ofLinear [LT L] [DecidableLT L] [Std.Asymm (fun x y : L => x < y)]
    [Trans (fun x y : L => x < y) (fun x y : L => x < y) (fun x y : L => x < y)]
    [Std.Trichotomous (fun x y : L => x < y)] : StrictWeak (fun x y : L => decide (x < y)) where
  asymm := by
    intro x y h
    have hlt : x < y := of_decide_eq_true h
    exact decide_eq_false (Std.Asymm.asymm x y hlt)
  negTrans := by
    intro x y z hxy hyz
    have hxy' : ¬ x < y := of_decide_eq_false hxy
    have hyz' : ¬ y < z := of_decide_eq_false hyz
    refine decide_eq_false fun hxz => ?_
    by_cases hyx : y < x
    · exact hyz' (Trans.trans hyx hxz)
    · obtain rfl : x = y := Std.Trichotomous.trichotomous x y hxy' hyx
      exact hyz' hxz

end StrictWeak

/-- A key type with the comparator its containers use. -/
class Ordered (K : Type) where
  lt : K → K → Bool
  weak : StrictWeak lt

section Equivalence

variable [Ordered K]

/-- The keys a container cannot tell apart. -/
def eqv (a b : K) : Bool := !Ordered.lt a b && !Ordered.lt b a

theorem eqv_iff {a b : K} :
    eqv a b = true ↔ Ordered.lt a b = false ∧ Ordered.lt b a = false := by
  simp [eqv]

@[simp] theorem eqv_refl (a : K) : eqv a a = true := by
  simp [eqv, Ordered.weak.irrefl a]

theorem eqv_comm (a b : K) : eqv a b = eqv b a := by
  simp [eqv, Bool.and_comm]

theorem eqv_symm {a b : K} (h : eqv a b = true) : eqv b a = true := by
  rwa [eqv_comm]

theorem eqv_trans {a b c : K} (h₁ : eqv a b = true) (h₂ : eqv b c = true) :
    eqv a c = true := by
  rw [eqv_iff] at *
  exact ⟨Ordered.weak.negTrans h₁.1 h₂.1, Ordered.weak.negTrans h₂.2 h₁.2⟩

/-- Equivalent keys are equivalent to the same keys. -/
theorem eqv_congr_left {a b : K} (h : eqv a b = true) (c : K) : eqv a c = eqv b c := by
  rw [Bool.eq_iff_iff]
  exact ⟨fun hac => eqv_trans (eqv_symm h) hac, fun hbc => eqv_trans h hbc⟩

theorem eqv_congr_right {a b : K} (h : eqv a b = true) (c : K) : eqv c a = eqv c b := by
  rw [eqv_comm c a, eqv_comm c b, eqv_congr_left h c]

theorem lt_not_eqv {a b : K} (h : Ordered.lt a b = true) : eqv a b = false := by
  simp [eqv, h]

theorem lt_of_lt_of_eqv {a b c : K} (h : Ordered.lt a b = true) (hbc : eqv b c = true) :
    Ordered.lt a c = true := by
  cases hac : Ordered.lt a c with
  | true => rfl
  | false => simpa [h] using Ordered.weak.negTrans hac (eqv_iff.mp hbc).2

theorem lt_of_eqv_of_lt {a b c : K} (hab : eqv a b = true) (h : Ordered.lt b c = true) :
    Ordered.lt a c = true := by
  cases hac : Ordered.lt a c with
  | true => rfl
  | false => simpa [h] using Ordered.weak.negTrans (eqv_iff.mp hab).2 hac

end Equivalence

/-- Comparators under which only equal keys are equivalent. -/
class Linear (K : Type) [Ordered K] : Prop where
  eq_of_eqv : ∀ {a b : K}, eqv a b = true → a = b

theorem eqv_iff_eq [Ordered K] [Linear K] {a b : K} : eqv a b = true ↔ a = b :=
  ⟨Linear.eq_of_eqv, fun h => h ▸ eqv_refl a⟩

theorem eqv_of_ne [Ordered K] [Linear K] {a b : K} (h : a ≠ b) : eqv a b = false := by
  rw [Bool.eq_false_iff]
  exact fun heqv => h (eqv_iff_eq.mp heqv)

theorem lt_of_ne [Ordered K] [Linear K] {a b : K} (hne : a ≠ b)
    (hnot : Ordered.lt a b = false) : Ordered.lt b a = true := by
  cases hba : Ordered.lt b a with
  | true => rfl
  | false => exact absurd (Linear.eq_of_eqv (eqv_iff.mpr ⟨hnot, hba⟩)) hne

section Instances

variable [LT L] [DecidableLT L] [Std.Asymm (fun x y : L => x < y)]
  [Trans (fun x y : L => x < y) (fun x y : L => x < y) (fun x y : L => x < y)]
  [Std.Trichotomous (fun x y : L => x < y)]

abbrev Ordered.ofLT (L : Type) [LT L] [DecidableLT L] [Std.Asymm (fun x y : L => x < y)]
    [Trans (fun x y : L => x < y) (fun x y : L => x < y) (fun x y : L => x < y)]
    [Std.Trichotomous (fun x y : L => x < y)] : Ordered L where
  lt x y := decide (x < y)
  weak := StrictWeak.ofLinear

theorem Linear.ofLT : @Linear L (Ordered.ofLT L) := by
  let _ := Ordered.ofLT L
  refine ⟨fun {x y} h => ?_⟩
  rcases eqv_iff.mp h with ⟨hxy, hyx⟩
  exact Std.Trichotomous.trichotomous x y (of_decide_eq_false hxy) (of_decide_eq_false hyx)

end Instances

instance : Ordered ℕ := Ordered.ofLT ℕ

instance : Linear ℕ := Linear.ofLT

instance : Ordered Int := Ordered.ofLT Int

instance : Ordered UInt8 := Ordered.ofLT UInt8

instance : Linear UInt8 := Linear.ofLT

instance : Ordered UInt16 := Ordered.ofLT UInt16

instance : Linear UInt16 := Linear.ofLT

instance : Ordered UInt32 := Ordered.ofLT UInt32

instance : Linear UInt32 := Linear.ofLT

instance : Ordered UInt64 := Ordered.ofLT UInt64

instance : Linear UInt64 := Linear.ofLT

instance : Ordered (List UInt8) := Ordered.ofLT (List UInt8)

instance : Linear (List UInt8) := Linear.ofLT

/-- Comparing a field first and falling through to `lt` when the fields agree. -/
def lexLt [DecidableEq L] [Ordered L] (f : K → L) (lt : K → K → Bool) (a b : K) : Bool :=
  if f a ≠ f b then Ordered.lt (f a) (f b) else lt a b

theorem StrictWeak.lex {lt : K → K → Bool} (h : StrictWeak lt) [DecidableEq L] [Ordered L]
    [Linear L] (f : K → L) : StrictWeak (lexLt f lt) where
  asymm := by
    intro a b hab
    by_cases hf : f a = f b
    · simp only [lexLt, hf, ne_eq, not_true_eq_false, if_false] at hab ⊢
      exact h.asymm hab
    · simp only [lexLt, hf, Ne.symm hf, ne_eq, not_false_eq_true, if_true] at hab ⊢
      exact Ordered.weak.asymm hab
  negTrans := by
    intro a b c hab hbc
    have below {x y : K} (hne : f x ≠ f y)
        (hx : lexLt f lt x y = false) : Ordered.lt (f y) (f x) = true :=
      lt_of_ne hne (by simpa [lexLt, hne] using hx)
    have above {x y : K} (hlt : Ordered.lt (f y) (f x) = true) : lexLt f lt x y = false := by
      have hne : f x ≠ f y := by
        intro heq
        rw [heq, Ordered.weak.irrefl] at hlt
        cases hlt
      simpa [lexLt, hne] using Ordered.weak.asymm hlt
    by_cases h₁ : f a = f b
    · by_cases h₂ : f b = f c
      · simp only [lexLt, h₁, h₂, ne_eq, not_true_eq_false, if_false] at hab hbc ⊢
        exact h.negTrans hab hbc
      · exact above (h₁ ▸ below h₂ hbc)
    · by_cases h₂ : f b = f c
      · exact above (h₂ ▸ below h₁ hab)
      · exact above (Ordered.weak.trans (below h₂ hbc) (below h₁ hab))

/-- Neither of two keys precedes the other when their fields agree and neither precedes
the other in the order the comparison falls through to. -/
theorem lexLt_incomparable {lt : K → K → Bool} [DecidableEq L] [Ordered L] [Linear L] {f : K → L}
    {a b : K} : (lexLt f lt a b = false ∧ lexLt f lt b a = false) ↔
      f a = f b ∧ lt a b = false ∧ lt b a = false := by
  by_cases hf : f a = f b
  · simp [lexLt, hf]
  · constructor
    · rintro ⟨hab, hba⟩
      have heqv : eqv (f a) (f b) = true :=
        eqv_iff.mpr ⟨by simpa [lexLt, hf] using hab, by simpa [lexLt, Ne.symm hf] using hba⟩
      exact absurd (Linear.eq_of_eqv heqv) hf
    · rintro ⟨heq, -⟩
      exact absurd heq hf

section Pairs

variable [Ordered K] [Ordered L]

/-- Pairs compare their first components first. -/
def pairLt (a b : K × L) : Bool :=
  Ordered.lt a.1 b.1 || (!Ordered.lt b.1 a.1 && Ordered.lt a.2 b.2)

theorem pairLt_weak : StrictWeak (pairLt (K := K) (L := L)) where
  asymm := by
    intro a b hab
    simp only [pairLt, Bool.or_eq_true, Bool.and_eq_true, Bool.not_eq_true'] at hab
    simp only [pairLt, Bool.or_eq_false_iff, Bool.and_eq_false_iff, Bool.not_eq_false']
    rcases hab with h | ⟨h₁, h₂⟩
    · exact ⟨Ordered.weak.asymm h, Or.inl h⟩
    · exact ⟨h₁, Or.inr (Ordered.weak.asymm h₂)⟩
  negTrans := by
    intro a b c hab hbc
    simp only [pairLt, Bool.or_eq_false_iff, Bool.and_eq_false_iff, Bool.not_eq_false']
      at hab hbc ⊢
    refine ⟨Ordered.weak.negTrans hab.1 hbc.1, ?_⟩
    rcases hab.2 with hba | hab₂
    · refine Or.inl ?_
      cases hcb : Ordered.lt c.1 b.1 with
      | true => exact Ordered.weak.trans hcb hba
      | false => exact lt_of_eqv_of_lt (eqv_iff.mpr ⟨hcb, hbc.1⟩) hba
    · rcases hbc.2 with hcb | hbc₂
      · refine Or.inl ?_
        cases hba : Ordered.lt b.1 a.1 with
        | true => exact Ordered.weak.trans hcb hba
        | false => exact lt_of_lt_of_eqv hcb (eqv_iff.mpr ⟨hba, hab.1⟩)
      · exact Or.inr (Ordered.weak.negTrans hab₂ hbc₂)

instance : Ordered (K × L) := ⟨pairLt, pairLt_weak⟩

theorem eqv_pair {a b : K × L} : eqv a b = (eqv a.1 b.1 && eqv a.2 b.2) := by
  simp only [eqv, Ordered.lt, pairLt]
  cases h₁ : Ordered.lt a.1 b.1 <;> cases h₂ : Ordered.lt b.1 a.1 <;> simp

instance [Linear K] [Linear L] : Linear (K × L) where
  eq_of_eqv {a b} h := by
    rw [eqv_pair, Bool.and_eq_true] at h
    exact Prod.ext (Linear.eq_of_eqv h.1) (Linear.eq_of_eqv h.2)

end Pairs

/-- `false` is below `true`. -/
instance : Ordered Bool := ⟨fun a b => !a && b, by constructor <;> decide⟩

instance : Linear Bool := ⟨by decide⟩

end KeyOrder
