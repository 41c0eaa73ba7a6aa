import NetCHASM.Library.KeyOrder
import Mathlib.Data.List.TakeWhile

/-! The difference of two ranges by a merge. The merge is meant for sorted ranges; here it runs over
any two lists. An element that the second list does not have is always kept. One that it has is left
out only when the merge meets it in both lists at the same time. -/
namespace MergeDifference

open KeyOrder

variable {K : Type} [Ordered K]

/-- The elements of the first list that the merge does not meet in the second. -/
def mergeDifference : List K → List K → List K
  | [], _ => []
  | x :: xs, ys =>
    match ys.dropWhile fun y => Ordered.lt y x with
    | [] => x :: mergeDifference xs []
    | y :: ys => if Ordered.lt x y then x :: mergeDifference xs (y :: ys) else mergeDifference xs ys

/-- The held elements of the first list occur in the second one in the same order, and whatever
stands between two of them, in either list, is smaller than the later one. -/
inductive Aligned (held : K → Prop) : List K → List K → Prop where
  | rest {xs ys : List K} : (∀ x ∈ xs, ¬ held x) → Aligned held xs ys
  | next {before skipped xs ys : List K} {v : K} :
      (∀ x ∈ before, ¬ held x ∧ Ordered.lt x v = true) → (∀ y ∈ skipped, Ordered.lt y v = true) →
      Aligned held xs ys → Aligned held (before ++ v :: xs) (skipped ++ v :: ys)

theorem mergeDifference_self (xs : List K) : mergeDifference xs xs = [] := by
  induction xs with
  | nil => rfl
  | cons x xs ih =>
    rw [mergeDifference, List.dropWhile_cons_of_neg (by simp [Ordered.weak.irrefl])]
    simp [Ordered.weak.irrefl, ih]

/-- An element that is not held can be put in front, up to the next one that is met. -/
theorem aligned_cons {held : K → Prop} {x : K} {xs skipped ys : List K} (hx : ¬ held x)
    (hskipped : ∀ y ∈ skipped, Ordered.lt y x = true)
    (hhead : ∀ y ∈ ys.head?, Ordered.lt x y = true) (h : Aligned held xs ys) :
    Aligned held (x :: xs) (skipped ++ ys) := by
  cases h with
  | rest hnone =>
    refine .rest ?_
    intro z hz
    rcases List.mem_cons.mp hz with rfl | hz
    · exact hx
    · exact hnone z hz
  | @next before skipped' xs ys v hbefore hskipped' htail =>
    have hlt : Ordered.lt x v = true := by
      cases skipped' with
      | nil => exact hhead v rfl
      | cons y skipped' =>
        exact Ordered.weak.trans (hhead y rfl) (hskipped' y List.mem_cons_self)
    rw [← List.cons_append, ← List.append_assoc]
    refine .next ?_ ?_ htail
    · intro z hz
      rcases List.mem_cons.mp hz with rfl | hz
      · exact ⟨hx, hlt⟩
      · exact hbefore z hz
    · intro y hy
      rcases List.mem_append.mp hy with hy | hy
      · exact Ordered.weak.trans (hskipped y hy) hlt
      · exact hskipped' y hy

/-- What the first element of the first list does: it is kept, or it is met in the second list. -/
theorem mergeDifference_cons [Linear K] (x : K) (xs ys : List K) : ∃ skipped rest,
    ys = skipped ++ rest ∧ (∀ y ∈ skipped, Ordered.lt y x = true) ∧
      ((mergeDifference (x :: xs) ys = x :: mergeDifference xs rest ∧
          ∀ y ∈ rest.head?, Ordered.lt x y = true) ∨
        ∃ after, rest = x :: after ∧
          mergeDifference (x :: xs) ys = mergeDifference xs after) := by
  refine ⟨ys.takeWhile fun y => Ordered.lt y x, ys.dropWhile fun y => Ordered.lt y x,
    List.takeWhile_append_dropWhile.symm, fun y hy => by simpa using List.mem_takeWhile_imp hy, ?_⟩
  rw [mergeDifference]
  cases hrest : ys.dropWhile fun y => Ordered.lt y x with
  | nil => exact Or.inl ⟨rfl, by simp⟩
  | cons y after =>
    have hnot : Ordered.lt y x = false := by
      simpa [hrest] using List.head?_dropWhile_not (fun y => Ordered.lt y x) ys
    by_cases hlt : Ordered.lt x y = true
    · exact Or.inl ⟨by simp [hlt], by simp [hlt]⟩
    · have hxy : y = x := eqv_iff_eq.mp (eqv_iff.mpr ⟨hnot, Bool.eq_false_iff.mpr hlt⟩)
      exact Or.inr ⟨after, by rw [hxy], by simp [hlt]⟩

section Linear

variable [Linear K] {xs ys : List K} {x : K}

theorem mergeDifference_sublist (xs ys : List K) : (mergeDifference xs ys).Sublist xs := by
  induction xs generalizing ys with
  | nil => exact List.Sublist.refl []
  | cons x xs ih =>
    obtain ⟨_, rest, -, -, ⟨heq, -⟩ | ⟨after, -, heq⟩⟩ := mergeDifference_cons x xs ys
    · rw [heq]
      exact (ih rest).cons_cons x
    · rw [heq]
      exact (ih after).cons x

/-- An element that the second list does not have is kept. -/
theorem mem_mergeDifference_of_not_mem (hx : x ∈ xs) (hnot : x ∉ ys) :
    x ∈ mergeDifference xs ys := by
  induction xs generalizing ys with
  | nil => exact absurd hx List.not_mem_nil
  | cons head xs ih =>
    obtain ⟨skipped, rest, rfl, -, ⟨heq, -⟩ | ⟨after, rfl, heq⟩⟩ := mergeDifference_cons head xs ys
    · rw [heq]
      rcases List.mem_cons.mp hx with rfl | hx
      · exact List.mem_cons_self
      · exact List.mem_cons_of_mem head (ih hx fun hmem => hnot (List.mem_append_right skipped hmem))
    · rw [heq]
      rcases List.mem_cons.mp hx with rfl | hx
      · exact absurd (List.mem_append_right skipped List.mem_cons_self) hnot
      · exact ih hx fun hmem =>
          hnot (List.mem_append_right skipped (List.mem_cons_of_mem head hmem))

/-- Nothing between two elements that are met is in the way. -/
theorem mem_mergeDifference_next {before skipped : List K} {v z : K}
    (hbefore : ∀ x ∈ before, Ordered.lt x v = true) (hskipped : ∀ y ∈ skipped, Ordered.lt y v = true)
    (hz : z ∈ mergeDifference (before ++ v :: xs) (skipped ++ v :: ys)) :
    z ∈ before ∨ z ∈ mergeDifference xs ys := by
  induction before generalizing skipped with
  | nil =>
    have hdrop : (skipped ++ v :: ys).dropWhile (fun y => Ordered.lt y v) = v :: ys := by
      rw [List.dropWhile_append_of_pos hskipped, List.dropWhile_cons_of_neg]
      simp [Ordered.weak.irrefl]
    rw [List.nil_append, mergeDifference, hdrop] at hz
    simp only [Ordered.weak.irrefl] at hz
    exact Or.inr hz
  | cons b before ih =>
    have hb := hbefore b List.mem_cons_self
    have htail : ∀ x ∈ before, Ordered.lt x v = true :=
      fun x hx => hbefore x (List.mem_cons_of_mem b hx)
    obtain ⟨dropped, rest, hsplit, hdropped, hcases⟩ :=
      mergeDifference_cons b (before ++ v :: xs) (skipped ++ v :: ys)
    -- the merge stops in front of `v`, which `b` does not reach
    obtain ⟨kept, hkept, hrest⟩ : ∃ kept, (∀ y ∈ kept, Ordered.lt y v = true) ∧
        rest = kept ++ v :: ys := by
      rcases List.append_eq_append_iff.mp hsplit with ⟨l, hl, htl⟩ | ⟨l, hl, htl⟩
      · cases l with
        | nil => exact ⟨[], by simp, htl.symm⟩
        | cons y l =>
          rcases List.cons.inj htl with ⟨rfl, -⟩
          have hlt := hdropped v (hl ▸ List.mem_append_right skipped List.mem_cons_self)
          exact absurd hb (by simp [Ordered.weak.asymm hlt])
      · exact ⟨l, fun y hy => hskipped y (hl ▸ List.mem_append_right dropped hy), htl⟩
    rw [List.cons_append] at hz
    rcases hcases with ⟨heq, -⟩ | ⟨after, hafter, heq⟩
    · rw [heq, hrest] at hz
      rcases List.mem_cons.mp hz with rfl | hz
      · exact Or.inl List.mem_cons_self
      · exact (ih htail hkept hz).imp_left (List.mem_cons_of_mem b)
    · rw [heq] at hz
      cases kept with
      | nil =>
        rcases List.cons.inj (hrest.symm.trans hafter) with ⟨rfl, -⟩
        exact absurd hb (by simp [Ordered.weak.irrefl])
      | cons y kept =>
        rcases List.cons.inj (hrest.symm.trans hafter) with ⟨rfl, rfl⟩
        exact (ih htail (fun y hy => hkept y (List.mem_cons_of_mem _ hy)) hz).imp_left
          (List.mem_cons_of_mem _)

/-- The merge leaves out all held elements exactly when the lists are aligned at them. -/
theorem mergeDifference_exact_iff {held : K → Prop} (hheld : ∀ y ∈ ys, held y) :
    (∀ x ∈ mergeDifference xs ys, ¬ held x) ↔ Aligned held xs ys := by
  constructor
  · intro h
    induction xs generalizing ys with
    | nil => exact .rest (by simp)
    | cons x xs ih =>
      obtain ⟨skipped, rest, rfl, hskipped, ⟨heq, hhead⟩ | ⟨after, rfl, heq⟩⟩ :=
        mergeDifference_cons x xs ys
      · rw [heq] at h
        have hx : ¬ held x := h x List.mem_cons_self
        have htail := ih (fun y hy => hheld y (List.mem_append_right skipped hy))
          fun z hz => h z (List.mem_cons_of_mem x hz)
        exact aligned_cons hx hskipped hhead htail
      · rw [heq] at h
        have htail := ih (fun y hy => hheld y (by simp [hy])) h
        exact @Aligned.next K _ held [] skipped xs after x (by simp) hskipped htail
  · intro h x hx hxheld
    induction h with
    | rest hnone => exact hnone x ((mergeDifference_sublist _ _).subset hx) hxheld
    | next hbefore hskipped _ ih =>
      rcases mem_mergeDifference_next (fun y hy => (hbefore y hy).2) hskipped hx with hx | hx
      · exact (hbefore x hx).1 hxheld
      · exact ih (fun y hy => hheld y (by simp [hy])) hx

/-- When the difference is empty, the first list runs through the second. -/
theorem sublist_of_mergeDifference_eq_nil (h : mergeDifference xs ys = []) : xs.Sublist ys := by
  induction xs generalizing ys with
  | nil => exact List.nil_sublist ys
  | cons x xs ih =>
    obtain ⟨skipped, rest, rfl, -, ⟨heq, -⟩ | ⟨after, rfl, heq⟩⟩ := mergeDifference_cons x xs ys
    · exact absurd (heq.symm.trans h) (by simp)
    · have htail : (x :: xs).Sublist (x :: after) := (ih (heq.symm.trans h)).cons_cons x
      exact htail.trans (List.sublist_append_right skipped (x :: after))

/-- Both differences are empty only for one and the same list. -/
theorem mergeDifference_eq_nil_iff :
    mergeDifference xs ys = [] ∧ mergeDifference ys xs = [] ↔ xs = ys := by
  constructor
  · rintro ⟨hxs, hys⟩
    exact (sublist_of_mergeDifference_eq_nil hxs).eq_of_length_le
      (sublist_of_mergeDifference_eq_nil hys).length_le
  · rintro rfl
    exact ⟨mergeDifference_self xs, mergeDifference_self xs⟩

/-- What the merge is meant for: of sorted lists without repetitions it gives the difference. -/
theorem not_mem_of_mem_mergeDifference (hxs : xs.Pairwise fun a b => Ordered.lt a b = true)
    (hys : ys.Pairwise fun a b => Ordered.lt a b = true) (hx : x ∈ mergeDifference xs ys) :
    x ∉ ys := by
  induction xs generalizing ys with
  | nil => exact absurd hx List.not_mem_nil
  | cons head xs ih =>
    rcases List.pairwise_cons.mp hxs with ⟨hhead, hxs⟩
    obtain ⟨skipped, rest, rfl, hskipped, hcases⟩ := mergeDifference_cons head xs ys
    have hrest := (List.pairwise_append.mp hys).2.1
    -- what was skipped is smaller than everything that is still to come
    have hpassed : ∀ z, head = z ∨ Ordered.lt head z = true → z ∉ skipped := by
      rintro z hz hmem
      have hlt := hskipped z hmem
      rcases hz with rfl | hz
      · exact absurd hlt (by simp [Ordered.weak.irrefl])
      · exact absurd hlt (by simp [Ordered.weak.asymm hz])
    have hlater : ∀ zs, x ∈ mergeDifference xs zs → Ordered.lt head x = true :=
      fun zs hmem => hhead x ((mergeDifference_sublist xs zs).subset hmem)
    rw [List.mem_append, not_or]
    rcases hcases with ⟨heq, hfirst⟩ | ⟨after, rfl, heq⟩
    · rw [heq] at hx
      rcases List.mem_cons.mp hx with rfl | hx
      · refine ⟨hpassed x (Or.inl rfl), ?_⟩
        cases rest with
        | nil => exact List.not_mem_nil
        | cons y rest =>
          have hy := hfirst y rfl
          intro hmem
          rcases List.mem_cons.mp hmem with rfl | hmem
          · exact absurd hy (by simp [Ordered.weak.irrefl])
          · have hlt := Ordered.weak.trans hy ((List.pairwise_cons.mp hrest).1 x hmem)
            exact absurd hlt (by simp [Ordered.weak.irrefl])
      · exact ⟨hpassed x (Or.inr (hlater rest hx)), ih hxs hrest hx⟩
    · rw [heq] at hx
      refine ⟨hpassed x (Or.inr (hlater after hx)), ?_⟩
      rw [List.mem_cons, not_or]
      refine ⟨?_, ih hxs (List.pairwise_cons.mp hrest).2 hx⟩
      rintro rfl
      exact absurd (hlater after hx) (by simp [Ordered.weak.irrefl])

theorem aligned_of_sorted (hxs : xs.Pairwise fun a b => Ordered.lt a b = true)
    (hys : ys.Pairwise fun a b => Ordered.lt a b = true) : Aligned (· ∈ ys) xs ys :=
  (mergeDifference_exact_iff fun _ hy => hy).mp fun _ hx =>
    not_mem_of_mem_mergeDifference hxs hys hx

end Linear

end MergeDifference
