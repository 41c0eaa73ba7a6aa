import Mathlib.Data.List.Basic
import Mathlib.Data.List.TakeWhile
import Mathlib.Data.Nat.Digits.Lemmas

/-! Numbers as decimal text: what an output stream prints, and what `strtol` reads where a
long has 64 bits. -/
namespace Decimal

def digit (d : ℕ) : UInt8 := .ofNat (48 + d)

def isDigit (b : UInt8) : Bool := 48 ≤ b && b ≤ 57

def isSpace (b : UInt8) : Bool := b = 32 || (9 ≤ b && b ≤ 13)

def decimal (n : ℕ) : List UInt8 :=
  if n = 0 then [digit 0] else (Nat.digits 10 n).reverse.map digit

def decimalInt (z : Int) : List UInt8 :=
  if z < 0 then 45 :: decimal z.natAbs else decimal z.natAbs

/-- The number that a text starts with. -/
def value (s : List UInt8) : ℕ :=
  (s.takeWhile isDigit).foldl (fun n b => 10 * n + (b.toNat - 48)) 0

def longMax : Int := 2 ^ 63 - 1

def longMin : Int := -2 ^ 63

/-- The signed number that a text starts with. -/
def signedValue : List UInt8 → Int
  | 45 :: s => -value s
  | 43 :: s => value s
  | s => value s

/-- The number after leading space, and whether it had to be cut to the range of a long. -/
def strtol (s : List UInt8) : Int × Bool :=
  let v := signedValue (s.dropWhile isSpace)
  if longMax < v then (longMax, true) else if v < longMin then (longMin, true) else (v, false)

theorem toNat_digit {d : ℕ} (h : d < 10) : (digit d).toNat = 48 + d := by
  rw [digit, UInt8.toNat_ofNat_of_lt' (by rw [UInt8.size]; omega)]

theorem isDigit_digit {d : ℕ} (h : d < 10) : isDigit (digit d) = true := by
  have hnat := toNat_digit h
  simp only [isDigit, Bool.and_eq_true, decide_eq_true_eq, UInt8.le_iff_toNat_le, hnat,
    UInt8.reduceToNat]
  omega

theorem decimal_ne_nil (n : ℕ) : decimal n ≠ [] := by
  rw [decimal]
  split
  · exact List.cons_ne_nil _ _
  · rename_i hne
    simpa [Nat.digits_eq_nil_iff_eq_zero] using hne

theorem isDigit_of_mem_decimal {n : ℕ} {b : UInt8} (h : b ∈ decimal n) : isDigit b = true := by
  rw [decimal] at h
  split at h
  · obtain rfl := List.mem_singleton.mp h
    decide
  · rcases List.mem_map.mp h with ⟨d, hd, rfl⟩
    exact isDigit_digit (Nat.digits_lt_base (by decide) (List.mem_reverse.mp hd))

theorem value_decimal (n : ℕ) : value (decimal n) = n := by
  have hall : (decimal n).takeWhile isDigit = decimal n :=
    List.takeWhile_eq_self_iff.mpr fun b hb => isDigit_of_mem_decimal hb
  rw [value, hall]
  rw [decimal]
  split
  · rename_i hzero
    rw [hzero]
    rfl
  · rw [List.foldl_map, List.foldl_reverse]
    have hdigits : (Nat.digits 10 n).foldr (fun d m => 10 * m + ((digit d).toNat - 48)) 0 =
        Nat.ofDigits 10 (Nat.digits 10 n) := by
      rw [Nat.ofDigits_eq_foldr]
      apply List.foldr_ext
      intro d hd m
      rw [toNat_digit (Nat.digits_lt_base (by decide) hd)]
      simp only [Nat.cast_id]
      omega
    rw [hdigits, Nat.ofDigits_digits]

/-- The first byte of a printed number is a digit, so neither space nor a sign. -/
theorem decimal_eq_cons (n : ℕ) : ∃ b s, decimal n = b :: s ∧ isDigit b = true := by
  cases hs : decimal n with
  | nil => exact absurd hs (decimal_ne_nil n)
  | cons b s => exact ⟨b, s, rfl, isDigit_of_mem_decimal (hs ▸ List.mem_cons_self)⟩

theorem not_isSpace_of_isDigit {b : UInt8} (h : isDigit b = true) : isSpace b = false := by
  simp only [isDigit, Bool.and_eq_true, decide_eq_true_eq, UInt8.le_iff_toNat_le,
    UInt8.reduceToNat] at h
  have hne : ¬ b = 32 := by
    rintro rfl
    exact absurd h.1 (by decide)
  simp only [isSpace, hne, decide_false, Bool.false_or, Bool.and_eq_false_iff,
    decide_eq_false_iff_not, UInt8.le_iff_toNat_le, UInt8.reduceToNat]
  omega

theorem signedValue_decimal (n : ℕ) : signedValue (decimal n) = n := by
  obtain ⟨b, s, hs, hdigit⟩ := decimal_eq_cons n
  have hvalue := value_decimal n
  rw [hs] at hvalue ⊢
  unfold signedValue
  split
  · rename_i heq
    obtain rfl := (List.cons.inj heq).1
    exact absurd hdigit (by decide)
  · rename_i heq
    obtain rfl := (List.cons.inj heq).1
    exact absurd hdigit (by decide)
  · rw [hvalue]

theorem dropWhile_decimal (n : ℕ) : (decimal n).dropWhile isSpace = decimal n := by
  obtain ⟨b, s, hs, hdigit⟩ := decimal_eq_cons n
  rw [hs, List.dropWhile_cons_of_neg (by simp [not_isSpace_of_isDigit hdigit])]

/-- A printed number is read back, or cut to the largest long. -/
theorem strtol_decimal (n : ℕ) :
    strtol (decimal n) = if n < 2 ^ 63 then ((n : Int), false) else (longMax, true) := by
  simp only [strtol, dropWhile_decimal, signedValue_decimal, longMax, longMin]
  split
  · rw [if_neg (by omega)]
  · rw [if_neg (by omega), if_pos (by omega)]

theorem strtol_decimalInt (z : Int64) : strtol (decimalInt z.toInt) = (z.toInt, false) := by
  have hlow : -2 ^ 63 ≤ z.toInt := z.le_toInt
  have hhigh : z.toInt < 2 ^ 63 := z.toInt_lt
  have hsigned : signedValue ((decimalInt z.toInt).dropWhile isSpace) = z.toInt := by
    rw [decimalInt]
    split
    · have hminus : isSpace 45 = false := by decide
      rw [List.dropWhile_cons_of_neg (by simp [hminus])]
      rw [signedValue, value_decimal]
      omega
    · rw [dropWhile_decimal, signedValue_decimal]
      omega
  simp only [strtol, hsigned, longMax, longMin]
  rw [if_neg (by omega), if_neg (by omega)]

/-- The conversion of a text to an int of 32 bits, which cuts the long that was read. -/
def atoi (s : List UInt8) : Int := (strtol s).1.bmod (2 ^ 32)

theorem atoi_decimal_of_lt {n : ℕ} (h : n < 2 ^ 63) : atoi (decimal n) = (n : Int).bmod (2 ^ 32) := by
  rw [atoi, strtol_decimal, if_pos h]

/-- A number beyond a long is read as the largest one, whose low bits are all set. -/
theorem atoi_decimal_of_ge {n : ℕ} (h : ¬ n < 2 ^ 63) : atoi (decimal n) = -1 := by
  rw [atoi, strtol_decimal, if_neg h]
  decide

def isOctal (b : UInt8) : Bool := 48 ≤ b && b ≤ 55

/-- The value of a hexadecimal digit. -/
def hexDigit (b : UInt8) : Option ℕ :=
  if isDigit b then some (b.toNat - 48)
  else if 97 ≤ b && b ≤ 102 then some (b.toNat - 87)
  else if 65 ≤ b && b ≤ 70 then some (b.toNat - 55)
  else none

/-- The number that a text starts with in the base that its prefix names. -/
def prefixedValue : List UInt8 → ℕ
  | 48 :: x :: s =>
    if (x = 120 || x = 88) && (s.head?.bind hexDigit).isSome then
      ((s.map hexDigit).takeWhile Option.isSome).foldl (fun n d => 16 * n + d.getD 0) 0
    else ((x :: s).takeWhile isOctal).foldl (fun n b => 8 * n + (b.toNat - 48)) 0
  | s => value s

/-- The unsigned long that a text starts with, in the base of its prefix; a minus sign negates it
in 64 bits. -/
def strtoul (s : List UInt8) : ℕ :=
  let cut (v : ℕ) : ℕ := min v (2 ^ 64 - 1)
  match s.dropWhile isSpace with
  | 45 :: s => (2 ^ 64 - cut (prefixedValue s)) % 2 ^ 64
  | 43 :: s => cut (prefixedValue s)
  | s => cut (prefixedValue s)

/-- The exceptions of the conversions below. -/
inductive ConvError where
  | invalidArgument
  | outOfRange
  deriving DecidableEq, Repr

/-- A text behind leading space and a sign. -/
def unsigned (s : List UInt8) : List UInt8 :=
  match s.dropWhile isSpace with
  | 45 :: s => s
  | 43 :: s => s
  | s => s

/-- The conversion to an unsigned long, in the base of the prefix, that throws. -/
def stoul (s : List UInt8) : Except ConvError ℕ :=
  if !(unsigned s).head?.any isDigit then .error .invalidArgument
  else if 2 ^ 64 ≤ prefixedValue (unsigned s) then .error .outOfRange
  else .ok (strtoul s)

/-- The conversion to an int that throws. -/
def stoi (s : List UInt8) : Except ConvError Int :=
  let v := signedValue (s.dropWhile isSpace)
  if !(unsigned s).head?.any isDigit then .error .invalidArgument
  else if v < -2 ^ 31 || 2 ^ 31 ≤ v then .error .outOfRange
  else .ok v

/-- No number but zero is printed with a leading zero. -/
theorem decimal_head_ne_zero {n : ℕ} (h : n ≠ 0) (b : UInt8) (s : List UInt8)
    (heq : decimal n = b :: s) : b ≠ 48 := by
  rw [decimal, if_neg h] at heq
  rcases List.map_eq_cons_iff.mp heq with ⟨d, ds, hreverse, rfl, -⟩
  have hdigits : Nat.digits 10 n = ds.reverse ++ [d] := by
    rw [← List.reverse_reverse (Nat.digits 10 n), hreverse, List.reverse_cons]
  have hlast := Nat.getLast_digit_ne_zero 10 h
  simp only [hdigits, List.getLast_append_singleton] at hlast
  have hlt : d < 10 := Nat.digits_lt_base (by decide) (hdigits ▸ by simp : d ∈ Nat.digits 10 n)
  intro hzero
  have hnat := congrArg UInt8.toNat hzero
  rw [toNat_digit hlt] at hnat
  exact hlast (by simpa using hnat)

theorem strtoul_decimal {n : ℕ} (h : n ≠ 0) (hlt : n < 2 ^ 64) : strtoul (decimal n) = n := by
  obtain ⟨b, s, hs, hdigit⟩ := decimal_eq_cons n
  have hvalue := value_decimal n
  have hzero := decimal_head_ne_zero h b s hs
  have hprefixed : prefixedValue (decimal n) = n := by
    rw [hs, prefixedValue]
    · rw [← hs, hvalue]
    · intro x s' heq
      exact hzero (List.cons.inj heq).1
  have hne : ∀ {c : UInt8}, isDigit c = false → b ≠ c := by
    rintro c hc rfl
    rw [hdigit] at hc
    cases hc
  rw [strtoul, dropWhile_decimal]
  split
  next heq =>
    rw [hs] at heq
    exact absurd (List.cons.inj heq).1 (hne (by decide))
  next heq =>
    rw [hs] at heq
    exact absurd (List.cons.inj heq).1 (hne (by decide))
  next =>
    rw [hprefixed]
    exact Nat.min_eq_left (by omega)

end Decimal
