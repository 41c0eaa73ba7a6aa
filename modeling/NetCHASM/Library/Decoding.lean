import NetCHASM.Library.ByteStream
import Mathlib.Data.List.TakeWhile

/-! Reading from a buffer of known size. A read that leaves the buffer, an exception, an
overflow and the like are faults; a reader is safe on a buffer if it comes to none of them. -/
namespace Decoding

open ByteStream

inductive Fault where
  | outside
  | thrown
  | null
  | overrun
  | overflow
  deriving DecidableEq, Repr

abbrev Read (α : Type) := Except Fault α

variable {α β : Type}

def Safe (r : Read α) : Prop := ∃ a, r = .ok a

@[simp] theorem safe_ok (a : α) : Safe (.ok a : Read α) := ⟨a, rfl⟩

@[simp] theorem safe_pure (a : α) : Safe (pure a : Read α) := ⟨a, rfl⟩

@[simp] theorem not_safe_error (e : Fault) : ¬ Safe (.error e : Read α) := by
  rintro ⟨a, ha⟩
  cases ha

theorem ok_bind (a : α) (f : α → Read β) : ((.ok a : Read α) >>= f) = f a := rfl

theorem bind_eq_ok {r : Read α} {f : α → Read β} {b : β} :
    r >>= f = .ok b ↔ ∃ a, r = .ok a ∧ f a = .ok b := by
  cases r with
  | error e =>
    constructor
    · intro h
      cases h
    · rintro ⟨a, ha, -⟩
      cases ha
  | ok a =>
    constructor
    · intro h
      exact ⟨a, rfl, h⟩
    · rintro ⟨a', ha', h⟩
      obtain rfl := Except.ok.inj ha'
      exact h

theorem safe_bind {r : Read α} {f : α → Read β} :
    Safe (r >>= f) ↔ ∃ a, r = .ok a ∧ Safe (f a) := by
  simp only [Safe, bind_eq_ok]
  constructor
  · rintro ⟨b, a, ha, hb⟩
    exact ⟨a, ha, b, hb⟩
  · rintro ⟨a, ha, b, hb⟩
    exact ⟨b, a, ha, hb⟩

theorem not_safe_of_error {r : Read α} {e : Fault} (h : r = .error e) : ¬ Safe r := by
  rw [h]
  exact not_safe_error e

/-- A check that stops the reader. -/
theorem safe_stop {p : Prop} [Decidable p] {a : α} {r : Read α} :
    Safe (if p then .ok a else r) ↔ (¬ p → Safe r) := by
  by_cases hp : p
  · simp [hp]
  · simp [hp]

theorem safe_guard {p : Prop} [Decidable p] {e : Fault} {r : Read α} :
    Safe (if p then .error e else r) ↔ ¬ p ∧ Safe r := by
  by_cases hp : p
  · simp [hp]
  · simp [hp]

/-- The number in the first bytes of a buffer. -/
def readWord (width : ℕ) (src : List UInt8) : Read ℕ :=
  if width ≤ src.length then .ok (leNat (src.take width)) else .error .outside

theorem readWord_of_le {width : ℕ} {src : List UInt8} (h : width ≤ src.length) :
    readWord width src = .ok (leNat (src.take width)) := if_pos h

theorem readWord_eq_ok {width n : ℕ} {src : List UInt8} :
    readWord width src = .ok n ↔ width ≤ src.length ∧ n = leNat (src.take width) := by
  unfold readWord
  split
  · rename_i hle
    simp [hle, eq_comm]
  · rename_i hlt
    simp [hlt]

theorem readWord_append {width n : ℕ} (h : n < 256 ^ width) (rest : List UInt8) :
    readWord width (leBytes width n ++ rest) = .ok n := by
  have hle : width ≤ (leBytes width n ++ rest).length := by simp
  rw [readWord_of_le hle, List.take_left' (length_leBytes width n), leNat_leBytes h]

/-- A copy of at most the given number of bytes, which ends at a zero byte and is padded with
zeros. -/
def padded (n : ℕ) (s : List UInt8) : List UInt8 :=
  s.takeWhile (· ≠ 0) ++ List.replicate (n - (s.takeWhile (· ≠ 0)).length) 0

theorem takeWhile_eq_self_iff (s : List UInt8) : s.takeWhile (· ≠ 0) = s ↔ 0 ∉ s := by
  rw [List.takeWhile_eq_self_iff]
  constructor
  · intro h hzero
    exact absurd (h 0 hzero) (by decide)
  · intro h b hb
    rw [decide_eq_true_eq]
    rintro rfl
    exact h hb

theorem padded_of_not_mem {s : List UInt8} (h : 0 ∉ s) : padded s.length s = s := by
  rw [padded, (takeWhile_eq_self_iff s).mpr h, Nat.sub_self, List.replicate_zero,
    List.append_nil]

@[simp] theorem length_padded (s : List UInt8) : (padded s.length s).length = s.length := by
  have hle : (s.takeWhile (· ≠ 0)).length ≤ s.length :=
    (List.takeWhile_prefix _).sublist.length_le
  simp only [padded, List.length_append, List.length_replicate]
  omega

theorem takeWhile_padded (n : ℕ) (s : List UInt8) :
    (padded n s).takeWhile (· ≠ 0) = s.takeWhile (· ≠ 0) := by
  rw [padded, List.takeWhile_append_of_pos]
  · simp
  · intro b hb
    exact List.mem_takeWhile_imp (p := fun b => decide (b ≠ 0)) hb

/-- A copy of a copy is the copy. -/
@[simp] theorem padded_padded (n : ℕ) (s : List UInt8) : padded n (padded n s) = padded n s := by
  rw [padded, takeWhile_padded, padded]

/-- The bytes that a copy reads are in the buffer: all of them, or up to a zero byte. -/
def StringFits (n : ℕ) (src : List UInt8) : Prop := n ≤ src.length ∨ 0 ∈ src

instance (n : ℕ) (src : List UInt8) : Decidable (StringFits n src) :=
  inferInstanceAs (Decidable (_ ∨ _))

/-- A copy out of the buffer into a string of the given length. -/
def readString (n : ℕ) (src : List UInt8) : Read (List UInt8) :=
  if StringFits n src then .ok (padded n (src.take n)) else .error .outside

theorem safe_readString {n : ℕ} {src : List UInt8} :
    Safe (readString n src) ↔ StringFits n src := by
  unfold readString
  split
  · rename_i hfits
    simp [hfits]
  · rename_i hfits
    simp [hfits]

theorem length_readString {n : ℕ} {src s : List UInt8} (h : readString n src = .ok s) :
    s.length = n := by
  unfold readString at h
  split at h
  · have hle : ((src.take n).takeWhile (· ≠ 0)).length ≤ n :=
      Nat.le_trans (List.takeWhile_prefix _).sublist.length_le (List.length_take_le n src)
    rw [← Except.ok.inj h]
    simp only [padded, List.length_append, List.length_replicate]
    omega
  · cases h

theorem readString_padded (s rest : List UInt8) :
    readString s.length (padded s.length s ++ rest) = .ok (padded s.length s) := by
  have hfits : StringFits s.length (padded s.length s ++ rest) := Or.inl (by simp)
  rw [readString, if_pos hfits, List.take_left' (length_padded s), padded_padded]

/-- A copy to the start of a string, which an empty string does not have. -/
def readName (n : ℕ) (src : List UInt8) : Read (List UInt8) :=
  if n = 0 then .error .thrown else readString n src

theorem safe_readName {n : ℕ} {src : List UInt8} :
    Safe (readName n src) ↔ n ≠ 0 ∧ StringFits n src := by
  unfold readName
  split
  · rename_i hzero
    simp [hzero]
  · rename_i hne
    simp [hne, safe_readString]

theorem readName_padded (s rest : List UInt8) :
    readName s.length (padded s.length s ++ rest) =
      if s = [] then .error .thrown else .ok (padded s.length s) := by
  simp only [readName, readString_padded, List.length_eq_zero_iff]

/-- A string that stays as it is when the buffer has none for it. -/
def readMember (n : ℕ) (old src : List UInt8) : Read (List UInt8) :=
  if 0 < n then readString n src else .ok old

theorem safe_readMember {n : ℕ} {old src : List UInt8} :
    Safe (readMember n old src) ↔ StringFits n src := by
  unfold readMember
  split
  · exact safe_readString
  · rename_i hzero
    have hn : n = 0 := by omega
    exact iff_of_true ⟨old, rfl⟩ (Or.inl (by omega))

theorem exists_readMember {n : ℕ} {old src : List UInt8} :
    (∃ s, readMember n old src = .ok s) ↔ StringFits n src := safe_readMember

theorem length_readMember {n : ℕ} {src s : List UInt8} (h : readMember n [] src = .ok s) :
    s.length = n := by
  unfold readMember at h
  split at h
  · exact length_readString h
  · rename_i hzero
    rw [← Except.ok.inj h, List.length_nil]
    omega

theorem readMember_padded (s rest : List UInt8) :
    readMember s.length [] (padded s.length s ++ rest) = .ok (padded s.length s) := by
  unfold readMember
  split
  · exact readString_padded s rest
  · rename_i hzero
    have hnil : s = [] := List.eq_nil_of_length_eq_zero (by omega)
    rw [hnil]
    rfl

/-- Names, each after a word with its length. -/
def readNames : ℕ → List UInt8 → Read (List (List UInt8) × List UInt8)
  | 0, src => .ok ([], src)
  | n + 1, src => do
    let size ← readWord 4 src
    let name ← readName size (src.drop 4)
    let (names, rest) ← readNames n (src.drop (4 + size))
    return (name :: names, rest)

/-- What is left of a buffer after some names. -/
def afterNames : ℕ → List UInt8 → List UInt8
  | 0, src => src
  | n + 1, src => afterNames n (src.drop (4 + leNat (src.take 4)))

/-- Every one of the names has its length in the buffer, is not empty, and fits. -/
def NamesFit : ℕ → List UInt8 → Prop
  | 0, _ => True
  | n + 1, src =>
    4 ≤ src.length ∧ leNat (src.take 4) ≠ 0 ∧ StringFits (leNat (src.take 4)) (src.drop 4) ∧
      NamesFit n (src.drop (4 + leNat (src.take 4)))

def decidableNamesFit : (n : ℕ) → (src : List UInt8) → Decidable (NamesFit n src)
  | 0, _ => isTrue trivial
  | n + 1, src =>
    have := decidableNamesFit n (src.drop (4 + leNat (src.take 4)))
    inferInstanceAs (Decidable (_ ∧ _ ∧ _ ∧ _))

instance (n : ℕ) (src : List UInt8) : Decidable (NamesFit n src) := decidableNamesFit n src

/-- The names of a buffer are read without a fault just when they fit. -/
theorem readNames_iff {n : ℕ} {src rest : List UInt8} :
    (∃ names, readNames n src = .ok (names, rest)) ↔ NamesFit n src ∧ rest = afterNames n src := by
  induction n generalizing src with
  | zero => simp [readNames, NamesFit, afterNames, eq_comm]
  | succ n ih =>
    simp only [readNames, bind_eq_ok, NamesFit, afterNames, and_assoc, ← ih]
    constructor
    · rintro ⟨names, size, hsize, name, hname, ⟨rest', tail⟩, htail, heq⟩
      rcases readWord_eq_ok.mp hsize with ⟨hle, rfl⟩
      obtain ⟨hne, hfits⟩ := safe_readName.mp ⟨name, hname⟩
      cases heq
      exact ⟨hle, hne, hfits, _, htail⟩
    · rintro ⟨hle, hne, hfits, names, hnames⟩
      obtain ⟨name, hname⟩ := safe_readName.mpr ⟨hne, hfits⟩
      exact ⟨_, _, readWord_of_le hle, name, hname, _, hnames, rfl⟩

/-- The bytes of names with their lengths. -/
def writeNames (names : List (List UInt8)) : List UInt8 :=
  names.flatMap fun name => leBytes 4 name.length ++ padded name.length name

/-- Names are read back as they were copied, unless one of them is empty. -/
theorem readNames_writeNames {names : List (List UInt8)}
    (hlen : ∀ name ∈ names, name.length < 256 ^ 4) (rest : List UInt8) :
    readNames names.length (writeNames names ++ rest) =
      if [] ∈ names then .error .thrown
      else .ok (names.map fun name => padded name.length name, rest) := by
  induction names with
  | nil => rfl
  | cons name names ih =>
    have htail := ih fun s hs => hlen s (List.mem_cons_of_mem _ hs)
    have hbytes : writeNames (name :: names) ++ rest =
        leBytes 4 name.length ++ (padded name.length name ++ (writeNames names ++ rest)) := by
      simp [writeNames]
    have hdrop : (leBytes 4 name.length ++ (padded name.length name ++
        (writeNames names ++ rest))).drop (4 + name.length) = writeNames names ++ rest := by
      rw [← List.drop_drop, List.drop_left' (length_leBytes _ _),
        List.drop_left' (length_padded name)]
    rw [hbytes, List.length_cons, readNames, readWord_append (hlen name List.mem_cons_self)]
    simp only [bind, Except.bind, List.mem_cons]
    rw [List.drop_left' (length_leBytes _ _), readName_padded]
    by_cases hempty : name = []
    · simp [hempty]
    · rw [if_neg hempty]
      simp only
      rw [hdrop, htail]
      by_cases hmem : [] ∈ names
      · simp [hmem]
      · simp only [hmem, if_false, or_false, Ne.symm hempty]
        rfl

end Decoding
