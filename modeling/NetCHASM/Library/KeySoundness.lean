import NetCHASM.Library.OrderedMap
import Mathlib.Data.Set.Basic

/-! When the comparator of a key type and its equality test agree, and what a search
that only uses the comparator then finds. -/
namespace KeyOrder

open OrderedMap

variable {K V : Type}

/-- A comparator and an equality test that agree on the keys in use. -/
structure ConsistentOn (keys : Set K) (lt eq : K → K → Bool) : Prop where
  asymm : ∀ a ∈ keys, ∀ b ∈ keys, lt a b = true → lt b a = false
  negTrans : ∀ a ∈ keys, ∀ b ∈ keys, ∀ c ∈ keys, lt a b = false → lt b c = false → lt a c = false
  incomparable_iff : ∀ a ∈ keys, ∀ b ∈ keys, (lt a b = false ∧ lt b a = false) ↔ eq a b = true

/-- Of two keys, exactly one of below, above and equal holds. -/
structure Trichotomy (lt eq : K → K → Bool) : Prop where
  irrefl : ∀ a, lt a a = false
  trans : ∀ a b c, lt a b = true → lt b c = true → lt a c = true
  exactlyOne : ∀ a b, (lt a b = true ∧ lt b a = false ∧ eq a b = false) ∨
    (lt a b = false ∧ lt b a = true ∧ eq a b = false) ∨
    (lt a b = false ∧ lt b a = false ∧ eq a b = true)

theorem Trichotomy.of_eqv [Ordered K] {eq : K → K → Bool} (h : ∀ a b : K, eqv a b = eq a b) :
    Trichotomy Ordered.lt eq where
  irrefl := Ordered.weak.irrefl
  trans _ _ _ := Ordered.weak.trans
  exactlyOne := by
    intro a b
    rw [← h a b]
    cases hab : Ordered.lt a b with
    | true => exact Or.inl ⟨rfl, Ordered.weak.asymm hab, lt_not_eqv hab⟩
    | false =>
      cases hba : Ordered.lt b a with
      | true => exact Or.inr (Or.inl ⟨rfl, rfl, by rw [eqv_comm, lt_not_eqv hba]⟩)
      | false => exact Or.inr (Or.inr ⟨rfl, rfl, eqv_iff.mpr ⟨hab, hba⟩⟩)

end KeyOrder

namespace OrderedMap

open KeyOrder

variable {K V : Type} [Ordered K]

/-- The entries from the lower to the upper bound of a key, as a search by the comparator
alone delimits them. -/
def bounds (k : K) (es : List (K × V)) : List (K × V) :=
  (es.dropWhile fun e => Ordered.lt e.1 k).takeWhile fun e => !Ordered.lt k e.1

theorem bounds_eq_filter {k : K} {es : List (K × V)}
    (hs : es.Pairwise fun a b => Ordered.lt b.1 a.1 = false) :
    bounds k es = es.filter fun e => eqv e.1 k := by
  induction es with
  | nil => rfl
  | cons e es ih =>
    rw [List.pairwise_cons] at hs
    cases hek : Ordered.lt e.1 k with
    | true =>
      have hne : eqv e.1 k = false := lt_not_eqv hek
      have hdrop : bounds k (e :: es) = bounds k es := by simp [bounds, hek]
      rw [hdrop, ih hs.2, List.filter_cons, hne]
      rfl
    | false =>
      -- no later entry is below the key, so the lower bound is here
      have hlater : ∀ x ∈ es, Ordered.lt x.1 k = false :=
        fun x hx => Ordered.weak.negTrans (hs.1 x hx) hek
      have hdrop : es.dropWhile (fun x => Ordered.lt x.1 k) = es := by
        cases es with
        | nil => rfl
        | cons x xs => simp [hlater x List.mem_cons_self]
      have hstart : bounds k (e :: es) = (e :: es).takeWhile fun x => !Ordered.lt k x.1 := by
        simp [bounds, hek]
      have hrest : es.takeWhile (fun x => !Ordered.lt k x.1) = es.filter fun x => eqv x.1 k := by
        rw [← ih hs.2, bounds, hdrop]
      rw [hstart]
      cases hke : Ordered.lt k e.1 with
      | true =>
        have hnone : es.filter (fun x => eqv x.1 k) = [] := by
          rw [List.filter_eq_nil_iff]
          intro x hx
          cases hkx : Ordered.lt k x.1 with
          | true => simp [eqv, hkx]
          | false => simpa [hke] using Ordered.weak.negTrans hkx (hs.1 x hx)
        have hne : eqv e.1 k = false := by rw [eqv_comm, lt_not_eqv hke]
        rw [List.filter_cons, hne, hnone]
        simp [hke]
      | false =>
        have heq : eqv e.1 k = true := eqv_iff.mpr ⟨hek, hke⟩
        rw [List.filter_cons, heq, ← hrest]
        simp [hke]

/-- A search of a map: the entry at the lower bound, unless the key is below it. -/
def SortedMap.search (m : SortedMap K V) (k : K) : Option (K × V) := (bounds k m.entries).head?

theorem SortedMap.search_eq_find? (m : SortedMap K V) (k : K) : m.search k = m.find? k := by
  have hweak : m.entries.Pairwise fun a b => Ordered.lt b.1 a.1 = false :=
    m.sorted.imp fun hab => Ordered.weak.asymm hab
  rw [search, bounds_eq_filter hweak, List.head?_filter]
  rfl

/-- A search of a multimap: the entries between the two bounds. -/
def SortedMultimap.search (m : SortedMultimap K V) (k : K) : List (K × V) := bounds k m.entries

theorem SortedMultimap.search_eq_equalRange (m : SortedMultimap K V) (k : K) :
    m.search k = m.equalRange k := bounds_eq_filter m.sorted

theorem SortedMap.search_inserted (es : List (K × V)) (k : K) :
    ((es.foldl (fun m e => m.insert e.1 e.2) (∅ : SortedMap K V)).search k).isSome = true ↔
      ∃ e ∈ es, eqv e.1 k = true := by
  have hfold : ∀ m : SortedMap K V,
      ((es.foldl (fun m e => m.insert e.1 e.2) m).find? k).isSome = true ↔
        (m.find? k).isSome = true ∨ ∃ e ∈ es, eqv e.1 k = true := by
    induction es with
    | nil => simp
    | cons e es ih =>
      intro m
      rw [List.foldl_cons, ih, find?_insert]
      by_cases hk : eqv e.1 k = true
      · simp [hk]
      · simp [hk]
  rw [search_eq_find?, hfold]
  simp

theorem SortedMultimap.search_inserted (es : List (K × V)) (k : K) :
    (es.foldl (fun m e => m.insert e.1 e.2) (∅ : SortedMultimap K V)).search k ≠ [] ↔
      ∃ e ∈ es, eqv e.1 k = true := by
  have hfold : ∀ m : SortedMultimap K V,
      (es.foldl (fun m e => m.insert e.1 e.2) m).range k ≠ [] ↔
        m.range k ≠ [] ∨ ∃ e ∈ es, eqv e.1 k = true := by
    induction es with
    | nil => simp
    | cons e es ih =>
      intro m
      rw [List.foldl_cons, ih, range_insert]
      by_cases hk : eqv e.1 k = true
      · simp [hk]
      · simp [hk]
  have hmap : ∀ m : SortedMultimap K V, m.range k ≠ [] ↔ m.equalRange k ≠ [] := by
    intro m
    simp [range]
  rw [search_eq_equalRange, ← hmap, hfold]
  simp

end OrderedMap

namespace KeyOrder

open OrderedMap

variable {K : Type}

/-- The containers of a key type use its comparator `lt`, which agrees with its equality
test `eq`, so that a search finds what was inserted under an equal key. -/
structure SoundKey [Ordered K] (lt eq : K → K → Bool) : Prop where
  comparator : Ordered.lt = lt
  order : Trichotomy lt eq
  search_map : ∀ (V : Type) (es : List (K × V)) (k : K),
    ((es.foldl (fun m e => m.insert e.1 e.2) (∅ : SortedMap K V)).search k).isSome = true ↔
      ∃ e ∈ es, eq e.1 k = true
  search_multimap : ∀ (V : Type) (es : List (K × V)) (k : K),
    (es.foldl (fun m e => m.insert e.1 e.2) (∅ : SortedMultimap K V)).search k ≠ [] ↔
      ∃ e ∈ es, eq e.1 k = true

theorem SoundKey.of_eqv [Ordered K] {eq : K → K → Bool} (h : ∀ a b : K, eqv a b = eq a b) :
    SoundKey Ordered.lt eq where
  comparator := rfl
  order := .of_eqv h
  search_map := by
    intro V es k
    simpa only [h] using SortedMap.search_inserted es k
  search_multimap := by
    intro V es k
    simpa only [h] using SortedMultimap.search_inserted es k

end KeyOrder
