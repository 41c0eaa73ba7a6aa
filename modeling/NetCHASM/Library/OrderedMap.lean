import NetCHASM.Library.KeyOrder

/-! Ordered associative containers over a strict weak order of keys: a map with
unique keys, a multimap, and a set. Entries are kept in key order, and a lookup
returns the stored key with the value, since the two keys need only be equivalent. -/
namespace OrderedMap

open KeyOrder

variable {K V W : Type} [Ordered K]

/-- Where at most one value passes a test, to erase the first one is to keep the others. -/
theorem eraseP_eq_filter {p : V → Bool} {vs : List V} (h : vs.countP p ≤ 1) :
    vs.eraseP p = vs.filter fun v => !p v := by
  induction vs with
  | nil => rfl
  | cons v vs ih =>
    cases hp : p v with
    | true =>
      rw [List.countP_cons_of_pos hp] at h
      have hnone : ∀ a ∈ vs, p a = false := by
        intro a ha
        have hzero : vs.countP p = 0 := by omega
        exact Bool.eq_false_iff.mpr (List.countP_eq_zero.mp hzero a ha)
      rw [List.eraseP_cons_of_pos hp, List.filter_cons_of_neg (by simp [hp])]
      symm
      rw [List.filter_eq_self]
      intro a ha
      simp [hnone a ha]
    | false =>
      rw [List.countP_cons_of_neg (by simp [hp])] at h
      rw [List.eraseP_cons_of_neg (by simp [hp]), List.filter_cons_of_pos (by simp [hp]), ih h]

/-- A test that no two values of a list pass holds of one at most. -/
theorem countP_le_one {p : V → Bool} {vs : List V}
    (h : vs.Pairwise fun a b => ¬ (p a = true ∧ p b = true)) : vs.countP p ≤ 1 := by
  induction vs with
  | nil => exact Nat.zero_le 1
  | cons v vs ih =>
    rw [List.pairwise_cons] at h
    rw [List.countP_cons]
    by_cases hv : p v = true
    · have hrest : vs.countP p = 0 := by
        rw [List.countP_eq_zero]
        exact fun b hb hpb => h.1 b hb ⟨hv, hpb⟩
      simp [hv, hrest]
    · simpa [hv] using ih h.2

/-- Insert before the first entry with a strictly greater key. -/
def insertUpper (k : K) (v : V) : List (K × V) → List (K × V)
  | [] => [(k, v)]
  | e :: es => if Ordered.lt k e.1 then (k, v) :: e :: es else e :: insertUpper k v es

theorem mem_insertUpper {k : K} {v : V} {es : List (K × V)} {x : K × V} :
    x ∈ insertUpper k v es ↔ x = (k, v) ∨ x ∈ es := by
  induction es with
  | nil => simp [insertUpper]
  | cons e es ih =>
    simp only [insertUpper]
    split
    · simp
    · simp only [List.mem_cons, ih]
      exact or_left_comm

theorem insertUpper_perm (k : K) (v : V) (es : List (K × V)) :
    (insertUpper k v es).Perm ((k, v) :: es) := by
  induction es with
  | nil => exact List.Perm.refl _
  | cons e es ih =>
    simp only [insertUpper]
    split
    · exact List.Perm.refl _
    · exact (ih.cons e).trans (List.Perm.swap _ _ _)

theorem map_insertUpper (f : K → V → W) (k : K) (v : V) (es : List (K × V)) :
    (insertUpper k v es).map (fun e => (e.1, f e.1 e.2)) =
      insertUpper k (f k v) (es.map fun e => (e.1, f e.1 e.2)) := by
  induction es with
  | nil => rfl
  | cons e es ih =>
    simp only [insertUpper, List.map_cons]
    split
    · rfl
    · rw [List.map_cons, ih]

theorem find?_insertUpper_of_false {k : K} {v : V} {p : K × V → Bool} (hp : p (k, v) = false)
    (es : List (K × V)) : (insertUpper k v es).find? p = es.find? p := by
  induction es with
  | nil => simp [insertUpper, hp]
  | cons e es ih =>
    simp only [insertUpper]
    split
    · simp [List.find?_cons, hp]
    · simp [List.find?_cons, ih]

theorem find?_insertUpper_of_true {k : K} {v : V} {p : K × V → Bool} (hp : p (k, v) = true)
    {es : List (K × V)} (hes : es.find? p = none) :
    (insertUpper k v es).find? p = some (k, v) := by
  induction es with
  | nil => simp [insertUpper, hp]
  | cons e es ih =>
    rw [List.find?_cons] at hes
    split at hes
    · cases hes
    · rename_i hpe
      simp only [insertUpper]
      split
      · simp [hp]
      · simp [hpe, ih hes]

theorem filter_insertUpper_of_false {k : K} {v : V} {p : K × V → Bool} (hp : p (k, v) = false)
    (es : List (K × V)) : (insertUpper k v es).filter p = es.filter p := by
  induction es with
  | nil => simp [insertUpper, hp]
  | cons e es ih =>
    simp only [insertUpper]
    split
    · simp [List.filter_cons, hp]
    · simp [List.filter_cons, ih]

/-- A map with at most one entry for each key, in key order. -/
structure SortedMap (K V : Type) [Ordered K] where
  entries : List (K × V)
  sorted : entries.Pairwise (fun a b => Ordered.lt a.1 b.1 = true)

namespace SortedMap

@[ext] theorem ext {m m' : SortedMap K V} (h : m.entries = m'.entries) : m = m' := by
  cases m
  cases m'
  simpa using h

instance [DecidableEq K] [DecidableEq V] : DecidableEq (SortedMap K V) := fun m m' =>
  decidable_of_iff (m.entries = m'.entries) ⟨ext, fun h => h ▸ rfl⟩

instance [Repr K] [Repr V] : Repr (SortedMap K V) := ⟨fun m n => reprPrec m.entries n⟩

def empty : SortedMap K V := ⟨[], .nil⟩

instance : Inhabited (SortedMap K V) := ⟨empty⟩

instance : EmptyCollection (SortedMap K V) := ⟨empty⟩

def find? (m : SortedMap K V) (k : K) : Option (K × V) :=
  m.entries.find? (fun e => eqv e.1 k)

def get? (m : SortedMap K V) (k : K) : Option V := (m.find? k).map Prod.snd

def contains (m : SortedMap K V) (k : K) : Bool := (m.find? k).isSome

def keys (m : SortedMap K V) : List K := m.entries.map Prod.fst

theorem find?_eqv {m : SortedMap K V} {k : K} {e : K × V} (h : m.find? k = some e) :
    eqv e.1 k = true := by
  simpa using List.find?_some h

theorem mem_of_find? {m : SortedMap K V} {k : K} {e : K × V} (h : m.find? k = some e) :
    e ∈ m.entries :=
  List.mem_of_find?_eq_some h

theorem find?_eq_none {m : SortedMap K V} {k : K} :
    m.find? k = none ↔ ∀ e ∈ m.entries, eqv e.1 k = false := by
  simp [find?]

theorem eq_of_mem {m : SortedMap K V} {a b : K × V} (ha : a ∈ m.entries) (hb : b ∈ m.entries)
    (hab : eqv a.1 b.1 = true) : a = b := by
  by_contra hne
  have apart : m.entries.Pairwise (fun x y => eqv x.1 y.1 = false) :=
    m.sorted.imp lt_not_eqv
  have hsymm : Std.Symm (fun x y : K × V => eqv x.1 y.1 = false) :=
    ⟨fun x y h => (eqv_comm y.1 x.1).trans h⟩
  have hfalse : eqv a.1 b.1 = false := apart.forall ha hb hne
  rw [hfalse] at hab
  cases hab

theorem find?_eq_some {m : SortedMap K V} {k : K} {e : K × V} :
    m.find? k = some e ↔ e ∈ m.entries ∧ eqv e.1 k = true := by
  constructor
  · intro h
    exact ⟨mem_of_find? h, find?_eqv h⟩
  · rintro ⟨he, hk⟩
    cases hf : m.find? k with
    | none => simpa [hk] using find?_eq_none.mp hf e he
    | some e' =>
      have hee : eqv e'.1 e.1 = true := eqv_trans (find?_eqv hf) (eqv_symm hk)
      rw [eq_of_mem (mem_of_find? hf) he hee]

theorem keys_nodup (m : SortedMap K V) : m.keys.Nodup := by
  have hsorted : m.keys.Pairwise fun a b => Ordered.lt a b = true := by
    rw [keys, List.pairwise_map]
    exact m.sorted
  refine hsorted.imp ?_
  rintro a _ hlt rfl
  rw [Ordered.weak.irrefl] at hlt
  cases hlt

theorem find?_congr {k k' : K} (m : SortedMap K V) (h : eqv k k' = true) :
    m.find? k = m.find? k' := by
  simp only [find?, eqv_congr_right h]

theorem get?_congr {k k' : K} (m : SortedMap K V) (h : eqv k k' = true) :
    m.get? k = m.get? k' := by
  simp only [get?, find?_congr m h]

theorem get?_eq_some {m : SortedMap K V} {k : K} {v : V} :
    m.get? k = some v ↔ ∃ k', (k', v) ∈ m.entries ∧ eqv k' k = true := by
  simp [get?, find?_eq_some]

theorem get?_of_mem {m : SortedMap K V} {e : K × V} (h : e ∈ m.entries) :
    m.get? e.1 = some e.2 :=
  get?_eq_some.mpr ⟨e.1, h, eqv_refl e.1⟩

theorem mem_of_get? [Linear K] {m : SortedMap K V} {k : K} {v : V} (h : m.get? k = some v) :
    (k, v) ∈ m.entries := by
  rcases get?_eq_some.mp h with ⟨k', hmem, hk⟩
  rw [eqv_iff_eq.mp hk] at hmem
  exact hmem

theorem mem_entries_iff [Linear K] {m : SortedMap K V} {e : K × V} :
    e ∈ m.entries ↔ m.get? e.1 = some e.2 :=
  ⟨get?_of_mem, mem_of_get?⟩

/-- A map is determined by its entries in any order, since it keeps them in order. -/
theorem ext_mem {m m' : SortedMap K V} (h : ∀ e, e ∈ m.entries ↔ e ∈ m'.entries) : m = m' := by
  have hirrefl : ∀ {a b : K × V}, Ordered.lt a.1 b.1 = true → Ordered.lt b.1 a.1 = true → a = b := by
    intro a b hab hba
    rw [Ordered.weak.asymm hab] at hba
    cases hba
  have hnodup : ∀ m : SortedMap K V, m.entries.Nodup := fun m =>
    (List.pairwise_map.mp m.keys_nodup).imp fun hne heq => hne (congrArg Prod.fst heq)
  have hperm : m.entries.Perm m'.entries :=
    (List.perm_ext_iff_of_nodup (hnodup m) (hnodup m')).mpr h
  exact ext (hperm.eq_of_pairwise (fun a b _ _ => hirrefl) m.sorted m'.sorted)

/-- A map is determined by what it stores. -/
theorem ext_get? [Linear K] {m m' : SortedMap K V} (h : ∀ k, m.get? k = m'.get? k) : m = m' :=
  ext_mem fun e => by rw [mem_entries_iff, mem_entries_iff, h]

@[simp] theorem find?_empty (k : K) : (∅ : SortedMap K V).find? k = none := rfl

@[simp] theorem get?_empty (k : K) : (∅ : SortedMap K V).get? k = none := rfl

theorem contains_eq (m : SortedMap K V) (k : K) : m.contains k = (m.get? k).isSome := by
  simp [contains, get?]

private theorem sorted_insertUpper {k : K} {v : V} {es : List (K × V)}
    (hs : es.Pairwise (fun a b => Ordered.lt a.1 b.1 = true))
    (hk : ∀ e ∈ es, eqv e.1 k = false) :
    (insertUpper k v es).Pairwise (fun a b => Ordered.lt a.1 b.1 = true) := by
  induction es with
  | nil => simp [insertUpper]
  | cons e es ih =>
    rw [List.pairwise_cons] at hs
    simp only [insertUpper]
    split
    · rename_i hlt
      refine List.pairwise_cons.mpr ⟨?_, List.pairwise_cons.mpr hs⟩
      intro x hx
      rcases List.mem_cons.mp hx with rfl | hx
      · exact hlt
      · exact Ordered.weak.trans hlt (hs.1 x hx)
    · rename_i hlt
      refine List.pairwise_cons.mpr ⟨?_, ih hs.2 fun x hx => hk x (List.mem_cons_of_mem e hx)⟩
      intro x hx
      rcases mem_insertUpper.mp hx with rfl | hx
      · have hne : eqv e.1 k = false := hk e List.mem_cons_self
        simpa [eqv, hlt] using hne
      · exact hs.1 x hx

/-- Insertion that keeps an entry already stored under an equivalent key. -/
def insert (m : SortedMap K V) (k : K) (v : V) : SortedMap K V :=
  if h : m.find? k = none then
    ⟨insertUpper k v m.entries, sorted_insertUpper m.sorted (find?_eq_none.mp h)⟩
  else m

theorem find?_insert (m : SortedMap K V) (k k' : K) (v : V) :
    (m.insert k v).find? k' =
      if eqv k k' then some ((m.find? k).getD (k, v)) else m.find? k' := by
  unfold insert
  split
  · rename_i h
    split
    · rename_i hk
      rw [find?_congr m hk] at h
      rw [find?_congr m hk, h]
      exact find?_insertUpper_of_true (p := fun e => eqv e.1 k') hk h
    · rename_i hk
      exact find?_insertUpper_of_false (p := fun e => eqv e.1 k') (by simpa using hk) m.entries
  · rename_i h
    rcases Option.ne_none_iff_exists'.mp h with ⟨e, he⟩
    split
    · rename_i hk
      rw [← find?_congr m hk, he]
      rfl
    · rfl

theorem get?_insert (m : SortedMap K V) (k k' : K) (v : V) :
    (m.insert k v).get? k' = if eqv k k' then some ((m.get? k).getD v) else m.get? k' := by
  simp only [get?, find?_insert]
  split
  · cases m.find? k <;> rfl
  · rfl

theorem contains_insert (m : SortedMap K V) (k k' : K) (v : V) :
    (m.insert k v).contains k' = (eqv k k' || m.contains k') := by
  rw [contains_eq, contains_eq, get?_insert]
  cases hget : m.get? k' <;> cases hk : eqv k k' <;> simp

/-- Apply a function to every value. -/
def mapVals (f : K → V → W) (m : SortedMap K V) : SortedMap K W :=
  ⟨m.entries.map (fun e => (e.1, f e.1 e.2)), by
    rw [List.pairwise_map]
    exact m.sorted⟩

theorem find?_mapVals (f : K → V → W) (m : SortedMap K V) (k : K) :
    (m.mapVals f).find? k = (m.find? k).map (fun e => (e.1, f e.1 e.2)) := by
  simp only [mapVals, find?, List.find?_map]
  rfl

theorem get?_mapVals (f : K → V → W) (m : SortedMap K V) (k : K) :
    (m.mapVals f).get? k = (m.find? k).map fun e => f e.1 e.2 := by
  rw [get?, find?_mapVals, Option.map_map]
  rfl

theorem mapVals_mapVals {X : Type} (m : SortedMap K V) (f : K → V → W) (g : K → W → X) :
    (m.mapVals f).mapVals g = m.mapVals fun k v => g k (f k v) := by
  apply ext
  simp [mapVals]

theorem mapVals_congr {m : SortedMap K V} {f g : K → V → W}
    (h : ∀ e ∈ m.entries, f e.1 e.2 = g e.1 e.2) : m.mapVals f = m.mapVals g := by
  apply ext
  apply List.map_congr_left
  intro e he
  rw [h e he]

/-- Apply a function to the value stored under a key, if there is one. -/
def modify (m : SortedMap K V) (k : K) (f : V → V) : SortedMap K V :=
  m.mapVals (fun k' v => if eqv k' k then f v else v)

theorem find?_modify (m : SortedMap K V) (k k' : K) (f : V → V) :
    (m.modify k f).find? k' =
      if eqv k k' then (m.find? k').map (fun e => (e.1, f e.2)) else m.find? k' := by
  rw [modify, find?_mapVals]
  cases hf : m.find? k' with
  | none => simp
  | some e =>
    have he : eqv e.1 k = eqv k k' := by
      rw [eqv_congr_left (find?_eqv hf) k, eqv_comm]
    simp only [Option.map_some, he]
    split <;> rfl

theorem get?_modify (m : SortedMap K V) (k k' : K) (f : V → V) :
    (m.modify k f).get? k' = if eqv k k' then (m.get? k').map f else m.get? k' := by
  simp only [get?, find?_modify]
  split
  · simp [Function.comp_def]
  · rfl

@[simp] theorem contains_modify (m : SortedMap K V) (k k' : K) (f : V → V) :
    (m.modify k f).contains k' = m.contains k' := by
  rw [contains_eq, contains_eq, get?_modify]
  split <;> simp

theorem modify_modify (m : SortedMap K V) (k : K) (f g : V → V) :
    (m.modify k f).modify k g = m.modify k fun v => g (f v) := by
  apply ext
  simp only [modify, mapVals, List.map_map]
  apply List.map_congr_left
  intro e _
  simp only [Function.comp_apply]
  split <;> rfl

/-- Assignment through the index operator: the stored key stays. -/
def set (m : SortedMap K V) (k : K) (v : V) : SortedMap K V :=
  (m.insert k v).modify k (fun _ => v)

theorem get?_set (m : SortedMap K V) (k k' : K) (v : V) :
    (m.set k v).get? k' = if eqv k k' then some v else m.get? k' := by
  rw [set, get?_modify, get?_insert]
  split <;> simp

/-- Assignments that agree on a key leave it with their value. -/
theorem get?_foldl_set {es : List (K × V)} {k : K} {v : V} {m : SortedMap K V}
    (hsame : ∀ e ∈ es, eqv e.1 k = true → e.2 = v)
    (h : m.get? k = some v ∨ ∃ e ∈ es, eqv e.1 k = true) :
    (es.foldl (fun m e => m.set e.1 e.2) m).get? k = some v := by
  induction es generalizing m with
  | nil => exact h.resolve_right fun ⟨e, he, _⟩ => absurd he List.not_mem_nil
  | cons e es ih =>
    rw [List.foldl_cons]
    refine ih (fun x hx => hsame x (List.mem_cons_of_mem e hx)) ?_
    rw [get?_set]
    by_cases hk : eqv e.1 k = true
    · rw [if_pos hk, hsame e List.mem_cons_self hk]
      exact Or.inl rfl
    · rw [if_neg hk]
      refine h.imp id fun ⟨x, hx, hxk⟩ => ?_
      rcases List.mem_cons.mp hx with rfl | hx
      · exact absurd hxk hk
      · exact ⟨x, hx, hxk⟩

/-- Assigning a key that is there changes its value. -/
theorem set_of_contains {m : SortedMap K V} {k : K} (v : V) (h : m.find? k ≠ none) :
    m.set k v = m.modify k fun _ => v := by
  rw [set, insert, dif_neg h]

/-- A key above all others goes to the end. -/
theorem entries_insert_of_lt {m : SortedMap K V} {k : K} (v : V)
    (hlt : ∀ e ∈ m.entries, Ordered.lt e.1 k = true) :
    (m.insert k v).entries = m.entries ++ [(k, v)] := by
  have hupper : ∀ es : List (K × V), (∀ e ∈ es, Ordered.lt e.1 k = true) →
      insertUpper k v es = es ++ [(k, v)] := by
    intro es hes
    induction es with
    | nil => rfl
    | cons e es ih =>
      have hnot : ¬ Ordered.lt k e.1 = true := by
        rw [Ordered.weak.asymm (hes e List.mem_cons_self)]
        exact Bool.false_ne_true
      rw [insertUpper, if_neg hnot, ih fun x hx => hes x (List.mem_cons_of_mem e hx)]
      rfl
  have hnone : m.find? k = none := find?_eq_none.mpr fun e he => lt_not_eqv (hlt e he)
  rw [insert, dif_pos hnone]
  exact hupper m.entries hlt

/-- The entries of a map, inserted one after the other, give the map. -/
theorem foldl_insert_entries (m : SortedMap K V) :
    m.entries.foldl (fun n e => n.insert e.1 e.2) ∅ = m := by
  have hfold : ∀ (es : List (K × V)) (n : SortedMap K V),
      (n.entries ++ es).Pairwise (fun a b => Ordered.lt a.1 b.1 = true) →
        (es.foldl (fun n e => n.insert e.1 e.2) n).entries = n.entries ++ es := by
    intro es
    induction es with
    | nil => exact fun n _ => (List.append_nil _).symm
    | cons e es ih =>
      intro n hsorted
      have hlt : ∀ x ∈ n.entries, Ordered.lt x.1 e.1 = true := fun x hx =>
        (List.pairwise_append.mp hsorted).2.2 x hx e List.mem_cons_self
      have hentries := entries_insert_of_lt e.2 hlt
      rw [List.foldl_cons, ih, hentries, List.append_assoc]
      · rfl
      · rw [hentries, List.append_assoc]
        exact hsorted
  exact ext (hfold m.entries ∅ m.sorted)

/-- Assigning a key above all others appends it. -/
theorem entries_set_of_lt {m : SortedMap K V} {k : K} (v : V)
    (hlt : ∀ e ∈ m.entries, Ordered.lt e.1 k = true) :
    (m.set k v).entries = m.entries ++ [(k, v)] := by
  have hkeep : ∀ e ∈ m.entries, (e.1, if eqv e.1 k then v else e.2) = e := by
    intro e he
    simp [lt_not_eqv (hlt e he)]
  change (m.insert k v).entries.map (fun e => (e.1, if eqv e.1 k then v else e.2)) = _
  rw [entries_insert_of_lt v hlt, List.map_append, List.map_congr_left hkeep]
  simp

/-- Remove the entry stored under a key. -/
def erase (m : SortedMap K V) (k : K) : SortedMap K V :=
  ⟨m.entries.filter (fun e => !eqv e.1 k), m.sorted.filter _⟩

theorem find?_erase (m : SortedMap K V) (k k' : K) :
    (m.erase k).find? k' = if eqv k k' then none else m.find? k' := by
  split
  · rename_i hk
    rw [find?_eq_none]
    intro e he
    rcases List.mem_filter.mp he with ⟨-, hek⟩
    rw [← eqv_congr_right hk]
    simpa using hek
  · rename_i hk
    cases hf : m.find? k' with
    | none =>
      rw [find?_eq_none] at hf ⊢
      exact fun e he => hf e (List.mem_filter.mp he).1
    | some e =>
      rw [find?_eq_some] at hf ⊢
      refine ⟨List.mem_filter.mpr ⟨hf.1, ?_⟩, hf.2⟩
      rw [eqv_congr_left hf.2 k, eqv_comm]
      simpa using hk

theorem get?_erase (m : SortedMap K V) (k k' : K) :
    (m.erase k).get? k' = if eqv k k' then none else m.get? k' := by
  simp only [get?, find?_erase]
  split <;> rfl

theorem contains_erase (m : SortedMap K V) (k k' : K) :
    (m.erase k).contains k' = (m.contains k' && !eqv k k') := by
  rw [contains_eq, contains_eq, get?_erase]
  cases eqv k k' <;> simp

end SortedMap

/-- A set is a map that stores no values. -/
abbrev SortedSet (K : Type) [Ordered K] := SortedMap K Unit

namespace SortedSet

def toList (s : SortedSet K) : List K := s.keys

def insertAll (s : SortedSet K) (ks : List K) : SortedSet K :=
  ks.foldl (fun s k => s.insert k ()) s

theorem contains_insertAll (s : SortedSet K) (ks : List K) (k : K) :
    (insertAll s ks).contains k = (s.contains k || ks.any fun k' => eqv k' k) := by
  induction ks generalizing s with
  | nil => simp [insertAll]
  | cons k' ks ih =>
    have hstep : insertAll s (k' :: ks) = insertAll (s.insert k' ()) ks := rfl
    rw [hstep, ih, SortedMap.contains_insert, List.any_cons]
    cases eqv k' k <;> simp

/-- A fold that adds the keys of each item has those of all items. -/
theorem contains_foldl {α : Type} {step : SortedSet K → α → SortedSet K} {P : α → K → Prop}
    (hstep : ∀ s x k, (step s x).contains k = true ↔ s.contains k = true ∨ P x k) (xs : List α)
    (s : SortedSet K) (k : K) :
    (xs.foldl step s).contains k = true ↔ s.contains k = true ∨ ∃ x ∈ xs, P x k := by
  induction xs generalizing s with
  | nil => simp
  | cons x xs ih => simp [ih, hstep, or_assoc]

theorem contains_iff_mem [Linear K] {s : SortedSet K} {k : K} :
    s.contains k = true ↔ k ∈ s.toList := by
  simp only [SortedMap.contains, SortedMap.find?, List.find?_isSome, toList, SortedMap.keys,
    List.mem_map]
  constructor
  · rintro ⟨e, he, hk⟩
    exact ⟨e, he, eqv_iff_eq.mp hk⟩
  · rintro ⟨e, he, rfl⟩
    exact ⟨e, he, eqv_refl _⟩

/-- The keys of a map as a set are listed in the same order. -/
theorem toList_insertAll_keys (m : SortedMap K V) : (insertAll ∅ m.keys).toList = m.keys := by
  have hfold := SortedMap.foldl_insert_entries (m.mapVals fun _ _ => ())
  simp only [SortedMap.mapVals, List.foldl_map] at hfold
  rw [insertAll, SortedMap.keys, List.foldl_map, hfold, toList, SortedMap.keys, List.map_map]
  rfl

/-- A set is determined by its elements. -/
theorem ext_contains [Linear K] {s t : SortedSet K} (h : ∀ k, s.contains k = t.contains k) :
    s = t := by
  apply SortedMap.ext_get?
  intro k
  have hk := h k
  rw [SortedMap.contains_eq, SortedMap.contains_eq] at hk
  cases hs : s.get? k with
  | none => cases ht : t.get? k <;> simp_all
  | some _ => cases ht : t.get? k <;> simp_all

end SortedSet

/-- A map that may store several entries under equivalent keys. -/
structure SortedMultimap (K V : Type) [Ordered K] where
  entries : List (K × V)
  sorted : entries.Pairwise (fun a b => Ordered.lt b.1 a.1 = false)

namespace SortedMultimap

@[ext] theorem ext {m m' : SortedMultimap K V} (h : m.entries = m'.entries) : m = m' := by
  cases m
  cases m'
  simpa using h

instance [DecidableEq K] [DecidableEq V] : DecidableEq (SortedMultimap K V) := fun m m' =>
  decidable_of_iff (m.entries = m'.entries) ⟨ext, fun h => h ▸ rfl⟩

instance [Repr K] [Repr V] : Repr (SortedMultimap K V) := ⟨fun m n => reprPrec m.entries n⟩

def empty : SortedMultimap K V := ⟨[], .nil⟩

instance : Inhabited (SortedMultimap K V) := ⟨empty⟩

instance : EmptyCollection (SortedMultimap K V) := ⟨empty⟩

/-- The entries stored under a key, oldest first. -/
def equalRange (m : SortedMultimap K V) (k : K) : List (K × V) :=
  m.entries.filter (fun e => eqv e.1 k)

private theorem weakly_sorted_insertUpper {k : K} {v : V} {es : List (K × V)}
    (hs : es.Pairwise (fun a b => Ordered.lt b.1 a.1 = false)) :
    (insertUpper k v es).Pairwise (fun a b => Ordered.lt b.1 a.1 = false) := by
  induction es with
  | nil => simp [insertUpper]
  | cons e es ih =>
    rw [List.pairwise_cons] at hs
    simp only [insertUpper]
    split
    · rename_i hlt
      refine List.pairwise_cons.mpr ⟨?_, List.pairwise_cons.mpr hs⟩
      intro x hx
      have hek : Ordered.lt e.1 k = false := Ordered.weak.asymm hlt
      rcases List.mem_cons.mp hx with rfl | hx
      · exact hek
      · exact Ordered.weak.negTrans (hs.1 x hx) hek
    · rename_i hlt
      refine List.pairwise_cons.mpr ⟨?_, ih hs.2⟩
      intro x hx
      rcases mem_insertUpper.mp hx with rfl | hx
      · simpa using hlt
      · exact hs.1 x hx

/-- Insertion at the upper bound of the key. -/
def insert (m : SortedMultimap K V) (k : K) (v : V) : SortedMultimap K V :=
  ⟨insertUpper k v m.entries, weakly_sorted_insertUpper m.sorted⟩

theorem entries_foldl_insert {α : Type} (f : α → K × V) (xs : List α) (m : SortedMultimap K V) :
    (xs.foldl (fun m x => m.insert (f x).1 (f x).2) m).entries.Perm (xs.map f ++ m.entries) := by
  induction xs generalizing m with
  | nil => exact List.Perm.refl _
  | cons x xs ih =>
    rw [List.foldl_cons, List.map_cons, List.cons_append]
    exact (ih _).trans ((List.Perm.append_left _ (insertUpper_perm _ _ _)).trans
      List.perm_middle)

/-- Apply a function to every value. -/
def mapVals (f : K → V → W) (m : SortedMultimap K V) : SortedMultimap K W :=
  ⟨m.entries.map (fun e => (e.1, f e.1 e.2)), by
    rw [List.pairwise_map]
    exact m.sorted⟩

/-- Remove the entries stored under a key. -/
def erase (m : SortedMultimap K V) (k : K) : SortedMultimap K V :=
  ⟨m.entries.filter (fun e => !eqv e.1 k), m.sorted.filter _⟩

/-- Remove the first entry under a key whose value satisfies a test. -/
def eraseFirst (m : SortedMultimap K V) (k : K) (p : V → Bool) : SortedMultimap K V :=
  ⟨m.entries.eraseP fun e => eqv e.1 k && p e.2, m.sorted.sublist List.eraseP_sublist⟩

/-- Apply a function to every value stored under a key. -/
def modify (m : SortedMultimap K V) (k : K) (f : V → V) : SortedMultimap K V :=
  m.mapVals (fun k' v => if eqv k' k then f v else v)

/-- Insert several values under one key, in their order. -/
def insertAll (m : SortedMultimap K V) (k : K) (vs : List V) : SortedMultimap K V :=
  vs.foldl (fun m v => m.insert k v) m

/-- The values stored under a key, oldest first. -/
def range (m : SortedMultimap K V) (k : K) : List V := (m.equalRange k).map Prod.snd

/-- Apply a function to the first value stored under a key that satisfies a test. -/
def modifyFirstEntry (k : K) (p : V → Bool) (f : V → V) : List (K × V) → List (K × V)
  | [] => []
  | e :: es =>
    if eqv e.1 k && p e.2 then (e.1, f e.2) :: es else e :: modifyFirstEntry k p f es

theorem keys_modifyFirstEntry (k : K) (p : V → Bool) (f : V → V) (es : List (K × V)) :
    (modifyFirstEntry k p f es).map Prod.fst = es.map Prod.fst := by
  induction es with
  | nil => rfl
  | cons e es ih =>
    simp only [modifyFirstEntry]
    split
    · rfl
    · simp [ih]

private theorem sorted_of_keys {es es' : List (K × V)} (h : es'.map Prod.fst = es.map Prod.fst)
    (hs : es.Pairwise (fun a b => Ordered.lt b.1 a.1 = false)) :
    es'.Pairwise (fun a b => Ordered.lt b.1 a.1 = false) := by
  rw [← List.pairwise_map (f := Prod.fst) (R := fun a b : K => Ordered.lt b a = false)] at hs ⊢
  rwa [h]

/-- Where no two entries qualify, changing the first one is changing each one. -/
theorem modifyFirstEntry_eq_map {k : K} {p : V → Bool} {f : V → V} {es : List (K × V)}
    (hone : es.Pairwise fun a b =>
      ¬ ((eqv a.1 k && p a.2) = true ∧ (eqv b.1 k && p b.2) = true)) :
    modifyFirstEntry k p f es =
      es.map fun e => if eqv e.1 k && p e.2 then (e.1, f e.2) else e := by
  induction es with
  | nil => rfl
  | cons e es ih =>
    rw [List.pairwise_cons] at hone
    simp only [modifyFirstEntry, List.map_cons]
    split
    · rename_i he
      have hrest : (es.map fun x => if eqv x.1 k && p x.2 then (x.1, f x.2) else x) = es := by
        refine (List.map_congr_left fun x hx => ?_).trans (List.map_id es)
        rw [if_neg fun hxk => hone.1 x hx ⟨he, hxk⟩]
        rfl
      rw [hrest]
    · rw [ih hone.2]

theorem map_modifyFirstEntry {k : K} {p : V → Bool} {q : W → Bool} {f : V → V} {g : W → W}
    {h : V → W} (hp : ∀ v, q (h v) = p v) (hf : ∀ v, h (f v) = g (h v)) (es : List (K × V)) :
    (modifyFirstEntry k p f es).map (fun e => (e.1, h e.2)) =
      modifyFirstEntry k q g (es.map fun e => (e.1, h e.2)) := by
  induction es with
  | nil => rfl
  | cons e es ih =>
    simp only [modifyFirstEntry, List.map_cons, hp]
    split
    · simp [hf]
    · simp [ih]

def modifyFirst (m : SortedMultimap K V) (k : K) (p : V → Bool) (f : V → V) :
    SortedMultimap K V :=
  ⟨modifyFirstEntry k p f m.entries, sorted_of_keys (keys_modifyFirstEntry k p f m.entries) m.sorted⟩

/-- Apply a function to the first value of a list that satisfies a test. -/
def modifyFirstVal (p : V → Bool) (f : V → V) : List V → List V
  | [] => []
  | v :: vs => if p v then f v :: vs else v :: modifyFirstVal p f vs

theorem map_modifyFirstVal {p : V → Bool} {q : W → Bool} {f : V → V} {g : W → W} {h : V → W}
    (hp : ∀ v, p v = q (h v)) (hf : ∀ v, h (f v) = g (h v)) (vs : List V) :
    (modifyFirstVal p f vs).map h = modifyFirstVal q g (vs.map h) := by
  induction vs with
  | nil => rfl
  | cons v vs ih =>
    simp only [modifyFirstVal, List.map_cons, ← hp v]
    split
    · simp [hf]
    · simp [ih]

/-- A projection that the function keeps is unchanged throughout the list. -/
theorem map_modifyFirstVal_of_eq {p : V → Bool} {f : V → V} {h : V → W}
    (hf : ∀ v, h (f v) = h v) (vs : List V) : (modifyFirstVal p f vs).map h = vs.map h := by
  induction vs with
  | nil => rfl
  | cons v vs ih =>
    simp only [modifyFirstVal]
    split
    · simp [hf]
    · simp [ih]

theorem getElem?_modifyFirstVal (p : V → Bool) (f : V → V) (vs : List V) (i : ℕ) :
    (modifyFirstVal p f vs)[i]? = if i = vs.findIdx p then vs[i]?.map f else vs[i]? := by
  induction vs generalizing i with
  | nil => simp [modifyFirstVal]
  | cons v vs ih =>
    rw [modifyFirstVal, List.findIdx_cons]
    cases hp : p v with
    | true =>
      cases i with
      | zero => simp
      | succ i => simp
    | false =>
      cases i with
      | zero => simp
      | succ i => simp [ih]

@[simp] theorem length_modifyFirstVal (p : V → Bool) (f : V → V) (vs : List V) :
    (modifyFirstVal p f vs).length = vs.length := by
  induction vs with
  | nil => rfl
  | cons v vs ih =>
    rw [modifyFirstVal]
    split <;> simp [ih]

theorem mem_modifyFirstVal {p : V → Bool} {f : V → V} {vs : List V} {v : V}
    (h : v ∈ modifyFirstVal p f vs) : v ∈ vs ∨ ∃ u ∈ vs, p u = true ∧ v = f u := by
  induction vs with
  | nil => cases h
  | cons u vs ih =>
    rw [modifyFirstVal] at h
    split at h
    next hp =>
      rcases List.mem_cons.mp h with rfl | h
      · exact Or.inr ⟨u, List.mem_cons_self, hp, rfl⟩
      · exact Or.inl (List.mem_cons_of_mem u h)
    next =>
      rcases List.mem_cons.mp h with rfl | h
      · exact Or.inl List.mem_cons_self
      · rcases ih h with h | ⟨w, hw, hp, rfl⟩
        · exact Or.inl (List.mem_cons_of_mem u h)
        · exact Or.inr ⟨w, List.mem_cons_of_mem u hw, hp, rfl⟩

theorem exists_mem_modifyFirstVal {p : V → Bool} {f : V → V} {vs : List V}
    (h : vs.any p = true) : ∃ v ∈ vs, p v = true ∧ f v ∈ modifyFirstVal p f vs := by
  induction vs with
  | nil => cases h
  | cons u vs ih =>
    rw [modifyFirstVal]
    cases hp : p u with
    | true => exact ⟨u, List.mem_cons_self, hp, by simp⟩
    | false =>
      rw [List.any_cons, hp, Bool.false_or] at h
      obtain ⟨v, hv, hpv, hmem⟩ := ih h
      exact ⟨v, List.mem_cons_of_mem u hv, hpv, by simpa using Or.inr hmem⟩

/-- A relation between the values of a list is kept if the changed value has it with those before
it, which fail the test, and with those after it. -/
theorem pairwise_modifyFirstVal {R : V → V → Prop} {p : V → Bool} {f : V → V} {vs : List V}
    (h : vs.Pairwise R) (hbefore : ∀ a ∈ vs, ∀ b, p a = false → p b = true → R a b → R a (f b))
    (hafter : ∀ a, ∀ b ∈ vs, p a = true → R a b → R (f a) b) :
    (modifyFirstVal p f vs).Pairwise R := by
  induction vs with
  | nil => exact .nil
  | cons v vs ih =>
    rw [List.pairwise_cons] at h
    rw [modifyFirstVal]
    split
    next hp =>
      refine List.pairwise_cons.mpr ⟨?_, h.2⟩
      intro b hb
      exact hafter v b (List.mem_cons_of_mem v hb) hp (h.1 b hb)
    next hp =>
      refine List.pairwise_cons.mpr ⟨?_, ?_⟩
      · intro b hb
        rcases mem_modifyFirstVal hb with hb | ⟨u, hu, hpu, rfl⟩
        · exact h.1 b hb
        · exact hbefore v List.mem_cons_self u (Bool.eq_false_iff.mpr hp) hpu (h.1 u hu)
      · apply ih h.2
        · exact fun a ha => hbefore a (List.mem_cons_of_mem v ha)
        · exact fun a b hb => hafter a b (List.mem_cons_of_mem v hb)

theorem mem_insertAll {m : SortedMultimap K V} {k : K} {vs : List V} {e : K × V} :
    e ∈ (m.insertAll k vs).entries ↔ e ∈ m.entries ∨ e.1 = k ∧ e.2 ∈ vs := by
  induction vs generalizing m with
  | nil => simp [insertAll]
  | cons v vs ih =>
    have hstep : m.insertAll k (v :: vs) = (m.insert k v).insertAll k vs := rfl
    rw [hstep, ih, insert, mem_insertUpper, List.mem_cons, Prod.ext_iff]
    constructor
    · rintro ((⟨hk, hv⟩ | he) | ⟨hk, hv⟩)
      · exact Or.inr ⟨hk, Or.inl hv⟩
      · exact Or.inl he
      · exact Or.inr ⟨hk, Or.inr hv⟩
    · rintro (he | ⟨hk, hv | hv⟩)
      · exact Or.inl (Or.inr he)
      · exact Or.inl (Or.inl ⟨hk, hv⟩)
      · exact Or.inr ⟨hk, hv⟩

theorem range_mapVals (f : V → W) (m : SortedMultimap K V) (k : K) :
    (m.mapVals fun _ => f).range k = (m.range k).map f := by
  simp only [range, equalRange, mapVals, List.filter_map, List.map_map]
  rfl

theorem mem_range {m : SortedMultimap K V} {k : K} {v : V} :
    v ∈ m.range k ↔ ∃ e ∈ m.entries, eqv e.1 k = true ∧ e.2 = v := by
  simp only [range, equalRange, List.mem_map, List.mem_filter, and_assoc]

theorem range_eq_nil {m : SortedMultimap K V} {k : K} :
    m.range k = [] ↔ ∀ e ∈ m.entries, eqv e.1 k = false := by
  simp [range, equalRange, List.filter_eq_nil_iff]

theorem range_congr (m : SortedMultimap K V) {k k' : K} (h : eqv k k' = true) :
    m.range k = m.range k' := by
  simp only [range, equalRange, eqv_congr_right h]

@[simp] theorem range_empty (k : K) : (∅ : SortedMultimap K V).range k = [] := rfl

private theorem equalRange_insertUpper {k k' : K} (hk : eqv k k' = true) (v : V)
    {es : List (K × V)} (hs : es.Pairwise (fun a b => Ordered.lt b.1 a.1 = false)) :
    (insertUpper k v es).filter (fun e => eqv e.1 k') =
      es.filter (fun e => eqv e.1 k') ++ [(k, v)] := by
  induction es with
  | nil => simp [insertUpper, hk]
  | cons e es ih =>
    rw [List.pairwise_cons] at hs
    simp only [insertUpper]
    split
    · rename_i hlt
      have hnone : (e :: es).filter (fun e => eqv e.1 k') = [] := by
        rw [List.filter_eq_nil_iff]
        intro x hx
        have hkx : Ordered.lt k x.1 = true := by
          rcases List.mem_cons.mp hx with rfl | hx
          · exact hlt
          · cases hkx : Ordered.lt k x.1 with
            | true => rfl
            | false => simpa [hlt] using Ordered.weak.negTrans hkx (hs.1 x hx)
        have hne : eqv k x.1 = false := lt_not_eqv hkx
        rw [← eqv_congr_right hk, eqv_comm, hne]
        simp
      rw [List.filter_cons, hnone]
      simp [hk]
    · simp only [List.filter_cons, ih hs.2]
      split <;> simp

theorem range_insert (m : SortedMultimap K V) (k k' : K) (v : V) :
    (m.insert k v).range k' = if eqv k k' then m.range k' ++ [v] else m.range k' := by
  simp only [range, equalRange, insert]
  split
  · rename_i hk
    rw [equalRange_insertUpper hk v m.sorted]
    simp
  · rename_i hk
    rw [filter_insertUpper_of_false (by simpa using hk)]

theorem range_insertAll (m : SortedMultimap K V) (k k' : K) (vs : List V) :
    (m.insertAll k vs).range k' = if eqv k k' then m.range k' ++ vs else m.range k' := by
  induction vs generalizing m with
  | nil => simp [insertAll]
  | cons v vs ih =>
    have hstep : m.insertAll k (v :: vs) = (m.insert k v).insertAll k vs := rfl
    rw [hstep, ih, range_insert]
    split <;> simp

theorem range_erase (m : SortedMultimap K V) (k k' : K) :
    (m.erase k).range k' = if eqv k k' then [] else m.range k' := by
  simp only [range, equalRange, erase, List.filter_filter]
  split
  · rename_i hk
    rw [List.map_eq_nil_iff, List.filter_eq_nil_iff]
    intro e _
    rw [← eqv_congr_right hk]
    simp
  · rename_i hk
    congr 1
    apply List.filter_congr
    intro e _
    cases he : eqv e.1 k' with
    | false => simp
    | true =>
      rw [eqv_congr_left he, eqv_comm]
      simpa using hk

theorem range_eraseFirst (m : SortedMultimap K V) (k k' : K) (p : V → Bool) :
    (m.eraseFirst k p).range k' = if eqv k k' then (m.range k').eraseP p else m.range k' := by
  simp only [range, equalRange, eraseFirst]
  induction m.entries with
  | nil => simp
  | cons e es ih =>
    by_cases hk : eqv k k' = true
    · have hee : eqv e.1 k = eqv e.1 k' := eqv_congr_right hk e.1
      rw [if_pos hk] at ih ⊢
      cases hek : eqv e.1 k' with
      | false => simp [hee, hek, ih]
      | true =>
        cases hp : p e.2 with
        | false => simp [hee, hek, hp, ih]
        | true => simp [hee, hek, hp]
    · rw [if_neg hk] at ih ⊢
      cases hek : eqv e.1 k' with
      | false => cases hp : eqv e.1 k && p e.2 <;> simp [hek, hp, ih]
      | true =>
        have hee : eqv e.1 k = false := by
          rw [eqv_congr_left hek, eqv_comm]
          simpa using hk
        simp [hee, hek, ih]

theorem range_eraseFirst_sublist (m : SortedMultimap K V) (k k' : K) (p : V → Bool) :
    ((m.eraseFirst k p).range k').Sublist (m.range k') :=
  (List.eraseP_sublist.filter _).map Prod.snd

theorem range_modify (m : SortedMultimap K V) (k k' : K) (f : V → V) :
    (m.modify k f).range k' = if eqv k k' then (m.range k').map f else m.range k' := by
  simp only [range, equalRange, modify, mapVals, List.filter_map, List.map_map]
  split
  · rename_i hk
    apply List.map_congr_left
    intro e he
    have hek : eqv e.1 k' = true := (List.mem_filter.mp he).2
    simp [eqv_congr_left hek, eqv_comm k' k, hk]
  · rename_i hk
    apply List.map_congr_left
    intro e he
    have hek : eqv e.1 k' = true := (List.mem_filter.mp he).2
    simp [eqv_congr_left hek, eqv_comm k' k, hk]

theorem range_modifyFirst (m : SortedMultimap K V) (k k' : K) (p : V → Bool) (f : V → V) :
    (m.modifyFirst k p f).range k' =
      if eqv k k' then modifyFirstVal p f (m.range k') else m.range k' := by
  simp only [range, equalRange, modifyFirst]
  induction m.entries with
  | nil => simp [modifyFirstEntry, modifyFirstVal]
  | cons e es ih =>
    by_cases hk : eqv k k' = true
    · simp only [hk, if_true] at ih ⊢
      have hee : eqv e.1 k = eqv e.1 k' := eqv_congr_right hk e.1
      cases hek : eqv e.1 k' with
      | false => simp [modifyFirstEntry, hee, hek, ih]
      | true =>
        cases hp : p e.2 with
        | false => simp [modifyFirstEntry, modifyFirstVal, hee, hek, hp, ih]
        | true => simp [modifyFirstEntry, modifyFirstVal, hee, hek, hp]
    · simp only [hk] at ih ⊢
      cases hek : eqv e.1 k' with
      | false =>
        simp only [modifyFirstEntry]
        split
        · simp [hek]
        · simp [hek, ih]
      | true =>
        have hee : eqv e.1 k = false := by
          rw [eqv_congr_left hek, eqv_comm]
          simpa using hk
        simp [modifyFirstEntry, hee, hek, ih]

end SortedMultimap

end OrderedMap
