import Mathlib.Data.List.Basic
import Mathlib.Data.List.Infix
import Mathlib.Data.List.TakeWhile

/-! Searching a text, as strings of characters do it: the position of a part, and the text before
and after a single character. -/
namespace TextSearch

variable {α : Type} [DecidableEq α]

/-- The position where a part occurs first. -/
def find (part : List α) : List α → Option ℕ
  | [] => if part = [] then some 0 else none
  | x :: s => if part <+: x :: s then some 0 else (find part s).map (· + 1)

/-- The first position of a part that is not before the given one. -/
def findFrom (part s : List α) (pos : ℕ) : Option ℕ :=
  if s.length < pos then none else (find part (s.drop pos)).map (· + pos)

theorem isSome_find_iff (part s : List α) : (find part s).isSome ↔ part <:+: s := by
  induction s with
  | nil =>
    rw [find, List.infix_nil]
    split
    · rename_i hnil
      simp [hnil]
    · rename_i hne
      simp [hne]
  | cons x s ih =>
    rw [find, List.infix_cons_iff, ← ih]
    split
    · rename_i hstarts
      simp [hstarts]
    · rename_i hstarts
      simp [hstarts]

theorem find_singleton_of_not_mem {c : α} {s : List α} (h : c ∉ s) : find [c] s = none := by
  have hnone : ¬ (find [c] s).isSome := by
    rw [isSome_find_iff]
    intro hpart
    exact h (hpart.subset List.mem_cons_self)
  simpa using hnone

theorem find_singleton_append {c : α} {a : List α} (h : c ∉ a) (b : List α) :
    find [c] (a ++ c :: b) = some a.length := by
  induction a with
  | nil =>
    have hstarts : [c] <+: c :: b := ⟨b, rfl⟩
    rw [List.nil_append, find, if_pos hstarts, List.length_nil]
  | cons x a ih =>
    rw [List.mem_cons, not_or] at h
    rcases h with ⟨hne, hrest⟩
    have hstarts : ¬ [c] <+: x :: (a ++ c :: b) := by
      rintro ⟨t, heq⟩
      exact hne (List.cons.inj heq).1
    rw [List.cons_append, find, if_neg hstarts, ih hrest, Option.map_some, List.length_cons]

/-- The text before a character, all of it where the character does not occur. -/
def before (c : α) (s : List α) : List α := s.takeWhile (· ≠ c)

/-- The text after the first of a character. -/
def after (c : α) (s : List α) : Option (List α) :=
  match s.dropWhile (· ≠ c) with
  | [] => none
  | _ :: t => some t

theorem ne_of_not_mem {c : α} {s : List α} (h : c ∉ s) : ∀ x ∈ s, decide (x ≠ c) = true := by
  intro x hx
  rw [decide_eq_true_eq]
  rintro rfl
  exact h hx

theorem before_of_not_mem {c : α} {s : List α} (h : c ∉ s) : before c s = s :=
  List.takeWhile_eq_self_iff.mpr (ne_of_not_mem h)

theorem after_of_not_mem {c : α} {s : List α} (h : c ∉ s) : after c s = none := by
  have hdrop : s.dropWhile (· ≠ c) = [] := List.dropWhile_eq_nil_iff.mpr (ne_of_not_mem h)
  rw [after, hdrop]

theorem before_append {c : α} {a : List α} (h : c ∉ a) (b : List α) :
    before c (a ++ c :: b) = a := by
  rw [before, List.takeWhile_append_of_pos (ne_of_not_mem h), List.takeWhile_cons_of_neg (by simp),
    List.append_nil]

theorem after_append {c : α} {a : List α} (h : c ∉ a) (b : List α) :
    after c (a ++ c :: b) = some b := by
  rw [after, List.dropWhile_append_of_pos (ne_of_not_mem h), List.dropWhile_cons_of_neg (by simp)]

/-- A text is split at the first of a character, or does not have it. -/
theorem split_at (c : α) (s : List α) :
    (c ∉ s ∧ find [c] s = none ∧ before c s = s ∧ after c s = none) ∨
      ∃ a b, s = a ++ c :: b ∧ c ∉ a ∧ find [c] s = some a.length ∧ before c s = a ∧
        after c s = some b := by
  by_cases h : c ∈ s
  · right
    obtain ⟨a, b, rfl, hnot⟩ := List.eq_append_cons_of_mem h
    exact ⟨a, b, rfl, hnot, find_singleton_append hnot b, before_append hnot b,
      after_append hnot b⟩
  · left
    exact ⟨h, find_singleton_of_not_mem h, before_of_not_mem h, after_of_not_mem h⟩

end TextSearch
