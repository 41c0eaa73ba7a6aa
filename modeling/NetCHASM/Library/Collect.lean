import NetCHASM.Library.OrderedMap
import Mathlib.Order.Bounds.Basic
import Mathlib.Order.MinMax

/-! Values gathered in a map: the first value under a key is stored, and each later one is merged
into what is there. -/
namespace OrderedMap

open KeyOrder

variable {K V : Type} [Ordered K] {merge : V → V → V}

/-- Store a value, or merge it into the one under its key. -/
def SortedMap.upsert (m : SortedMap K V) (merge : V → V → V) (k : K) (v : V) : SortedMap K V :=
  if m.contains k then m.modify k fun old => merge old v else m.insert k v

theorem SortedMap.get?_upsert (m : SortedMap K V) (merge : V → V → V) (k k' : K) (v : V) :
    (m.upsert merge k v).get? k' =
      if eqv k k' then some ((m.get? k').elim v (merge · v)) else m.get? k' := by
  rw [upsert, contains_eq]
  cases hget : m.get? k with
  | none =>
    rw [Option.isSome_none, if_neg Bool.false_ne_true, get?_insert, hget, Option.getD_none]
    split
    · rename_i hk
      rw [← get?_congr m hk, hget]
      rfl
    · rfl
  | some old =>
    rw [Option.isSome_some, if_pos rfl, get?_modify]
    split
    · rename_i hk
      rw [← get?_congr m hk, hget]
      rfl
    · rfl

theorem SortedMap.mem_keys_upsert {m : SortedMap K V} {k k' : K} {v : V}
    (h : k' ∈ (m.upsert merge k v).keys) : k' ∈ m.keys ∨ k' = k := by
  rw [upsert] at h
  split at h
  · refine Or.inl ?_
    simpa [keys, modify, mapVals] using h
  · rw [keys, insert] at h
    split at h
    · rcases List.mem_map.mp h with ⟨e, he, rfl⟩
      rcases mem_insertUpper.mp he with rfl | he
      · exact Or.inr rfl
      · exact Or.inl (List.mem_map_of_mem he)
    · exact Or.inl h

/-- Values with their keys, gathered one after the other. -/
def collect (merge : V → V → V) (es : List (K × V)) (m : SortedMap K V) : SortedMap K V :=
  es.foldl (fun m e => m.upsert merge e.1 e.2) m

theorem mem_keys_collect {es : List (K × V)} {m : SortedMap K V} {k : K}
    (h : k ∈ (collect merge es m).keys) : k ∈ m.keys ∨ ∃ e ∈ es, e.1 = k := by
  induction es generalizing m with
  | nil => exact Or.inl h
  | cons e es ih =>
    rcases ih h with h | ⟨x, hx, rfl⟩
    · rcases SortedMap.mem_keys_upsert h with h | rfl
      · exact Or.inl h
      · exact Or.inr ⟨e, List.mem_cons_self, rfl⟩
    · exact Or.inr ⟨x, List.mem_cons_of_mem e hx, rfl⟩

/-- The values that are given for a key. -/
def valuesAt (k : K) (es : List (K × V)) : List V := (es.filter fun e => eqv e.1 k).map Prod.snd

theorem mem_valuesAt {k : K} {es : List (K × V)} {v : V} :
    v ∈ valuesAt k es ↔ ∃ e ∈ es, eqv e.1 k = true ∧ e.2 = v := by
  simp only [valuesAt, List.mem_map, List.mem_filter, and_assoc]

/-- What is stored under a key depends on the values for this key alone, and on their order. -/
theorem get?_collect (merge : V → V → V) (es : List (K × V)) (m : SortedMap K V) (k : K) :
    (collect merge es m).get? k =
      (valuesAt k es).foldl (fun old v => some (old.elim v (merge · v))) (m.get? k) := by
  induction es generalizing m with
  | nil => rfl
  | cons e es ih =>
    rw [collect, List.foldl_cons, ← collect, ih, SortedMap.get?_upsert, valuesAt, valuesAt,
      List.filter_cons]
    split
    · rw [List.map_cons, List.foldl_cons]
    · rfl

theorem foldl_merge_some (v : V) (vs : List V) :
    vs.foldl (fun old v => some (old.elim v (merge · v))) (some v) = some (vs.foldl merge v) := by
  induction vs generalizing v with
  | nil => rfl
  | cons w vs ih => exact ih (merge v w)

/-- A map that starts empty has the first value of a key with the others merged into it. -/
theorem get?_collect_empty (merge : V → V → V) (es : List (K × V)) (k : K) :
    (collect merge es ∅).get? k =
      match valuesAt k es with
      | [] => none
      | v :: vs => some (vs.foldl merge v) := by
  rw [get?_collect, SortedMap.get?_empty]
  split
  · rename_i hnil
    rw [hnil]
    rfl
  · rename_i v vs hcons
    rw [hcons, List.foldl_cons]
    exact foldl_merge_some v vs

theorem isSome_collect_iff {es : List (K × V)} {k : K} :
    ((collect merge es ∅).get? k).isSome ↔ ∃ e ∈ es, eqv e.1 k = true := by
  rw [get?_collect_empty]
  have hmem : ∀ v, v ∈ valuesAt k es ↔ ∃ e ∈ es, eqv e.1 k = true ∧ e.2 = v :=
    fun v => mem_valuesAt
  split
  · rename_i hnil
    rw [hnil] at hmem
    simp only [Option.isSome_none, Bool.false_eq_true, false_iff]
    rintro ⟨e, he, hk⟩
    exact List.not_mem_nil ((hmem e.2).mpr ⟨e, he, hk, rfl⟩)
  · rename_i v vs hcons
    rw [hcons] at hmem
    obtain ⟨e, he, hk, -⟩ := (hmem v).mp List.mem_cons_self
    exact iff_of_true rfl ⟨e, he, hk⟩

/-- Merging by the smaller of two measures keeps the smallest. -/
theorem isLeast_foldl_merge {α : Type} [LinearOrder α] {g : V → α}
    (hmerge : ∀ a b, g (merge a b) = min (g a) (g b)) (v : V) (vs : List V) :
    IsLeast {x | ∃ w ∈ v :: vs, g w = x} (g (vs.foldl merge v)) := by
  induction vs generalizing v with
  | nil =>
    refine ⟨⟨v, List.mem_cons_self, rfl⟩, ?_⟩
    rintro x ⟨w, hw, rfl⟩
    rw [List.mem_singleton.mp hw]
    exact le_rfl
  | cons w vs ih =>
    obtain ⟨⟨u, hu, hleast⟩, hlower⟩ := ih (merge v w)
    constructor
    · rw [List.foldl_cons, ← hleast]
      rcases List.mem_cons.mp hu with rfl | hu
      · rw [hmerge]
        rcases min_choice (g v) (g w) with hmin | hmin
        · exact ⟨v, List.mem_cons_self, hmin.symm⟩
        · exact ⟨w, List.mem_cons_of_mem v List.mem_cons_self, hmin.symm⟩
      · exact ⟨u, List.mem_cons_of_mem v (List.mem_cons_of_mem w hu), rfl⟩
    · have hfirst : g (vs.foldl merge (merge v w)) ≤ min (g v) (g w) := by
        rw [← hmerge]
        exact hlower ⟨merge v w, List.mem_cons_self, rfl⟩
      rintro x ⟨u, hu, rfl⟩
      rw [List.foldl_cons]
      rcases List.mem_cons.mp hu with rfl | hu
      · exact hfirst.trans (min_le_left _ _)
      · rcases List.mem_cons.mp hu with rfl | hu
        · exact hfirst.trans (min_le_right _ _)
        · exact hlower ⟨u, List.mem_cons_of_mem _ hu, rfl⟩

/-- The value under a key has the smallest measure of all that were given for it. -/
theorem isLeast_collect {α : Type} [LinearOrder α] {g : V → α}
    (hmerge : ∀ a b, g (merge a b) = min (g a) (g b)) {es : List (K × V)} {k : K} {v : V}
    (h : (collect merge es ∅).get? k = some v) :
    IsLeast {x | ∃ e ∈ es, eqv e.1 k = true ∧ g e.2 = x} (g v) := by
  rw [get?_collect_empty] at h
  split at h
  · cases h
  · rename_i w vs hcons
    obtain rfl := Option.some.inj h
    have hset : {x | ∃ e ∈ es, eqv e.1 k = true ∧ g e.2 = x} = {x | ∃ u ∈ w :: vs, g u = x} := by
      ext x
      rw [← hcons]
      constructor
      · rintro ⟨e, he, hk, hx⟩
        exact ⟨e.2, mem_valuesAt.mpr ⟨e, he, hk, rfl⟩, hx⟩
      · rintro ⟨u, hu, hx⟩
        obtain ⟨e, he, hk, rfl⟩ := mem_valuesAt.mp hu
        exact ⟨e, he, hk, hx⟩
    rw [hset]
    exact isLeast_foldl_merge hmerge w vs

/-- What holds of the given values and is kept by merging holds of every stored value. -/
theorem of_collect {P : V → Prop} (hmerge : ∀ a b, P a → P b → P (merge a b)) {es : List (K × V)}
    (hes : ∀ e ∈ es, P e.2) {k : K} {v : V} (h : (collect merge es ∅).get? k = some v) : P v := by
  have hfold : ∀ (vs : List V) (w : V), P w → (∀ u ∈ vs, P u) → P (vs.foldl merge w) := by
    intro vs
    induction vs with
    | nil => exact fun w hw _ => hw
    | cons u vs ih =>
      intro w hw hvs
      exact ih _ (hmerge w u hw (hvs u List.mem_cons_self)) fun x hx =>
        hvs x (List.mem_cons_of_mem u hx)
  have hvalues : ∀ w ∈ valuesAt k es, P w := by
    intro w hw
    obtain ⟨e, he, -, rfl⟩ := mem_valuesAt.mp hw
    exact hes e he
  rw [get?_collect_empty] at h
  split at h
  · cases h
  · rename_i w vs hcons
    obtain rfl := Option.some.inj h
    rw [hcons] at hvalues
    exact hfold vs w (hvalues w List.mem_cons_self) fun u hu =>
      hvalues u (List.mem_cons_of_mem w hu)

end OrderedMap
