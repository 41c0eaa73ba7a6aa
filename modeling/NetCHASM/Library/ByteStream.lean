import Mathlib.Data.List.Basic
import Mathlib.Tactic.Ring

/-! Byte streams built by concatenation. A field of fixed width can be read back
from the front of a stream; a field of varying width only when its length is known. -/
namespace ByteStream

/-- The bytes of a number in a field of the given width, least significant first. -/
def leBytes : ℕ → ℕ → List UInt8
  | 0, _ => []
  | width + 1, n => n.toUInt8 :: leBytes width (n / 256)

/-- The bytes of a number in a field of the given width, most significant first. -/
def beBytes (width n : ℕ) : List UInt8 := (leBytes width n).reverse

@[simp] theorem length_leBytes (width n : ℕ) : (leBytes width n).length = width := by
  induction width generalizing n with
  | zero => rfl
  | succ width ih => simp [leBytes, ih]

@[simp] theorem length_beBytes (width n : ℕ) : (beBytes width n).length = width := by
  simp [beBytes]

/-- The number with the given bytes, least significant first. -/
def leNat : List UInt8 → ℕ
  | [] => 0
  | b :: bs => b.toNat + 256 * leNat bs

/-- The number with the given bytes, most significant first. -/
def beNat (bs : List UInt8) : ℕ := leNat bs.reverse

theorem leNat_leBytes {width n : ℕ} (h : n < 256 ^ width) : leNat (leBytes width n) = n := by
  induction width generalizing n with
  | zero =>
    simp only [pow_zero, Nat.lt_one_iff] at h
    exact h.symm
  | succ width ih =>
    have hhigh : n / 256 < 256 ^ width := by
      rw [Nat.div_lt_iff_lt_mul (by decide), ← pow_succ]
      exact h
    have hlow : n.toUInt8.toNat = n % 256 := by simp
    rw [leBytes, leNat, ih hhigh, hlow]
    omega

theorem leBytes_leNat (bs : List UInt8) : leBytes bs.length (leNat bs) = bs := by
  induction bs with
  | nil => rfl
  | cons b bs ih =>
    have hdiv : (b.toNat + 256 * leNat bs) / 256 = leNat bs := by
      have hlt := b.toNat_lt
      omega
    have hlow : (b.toNat + 256 * leNat bs).toUInt8 = b := by
      apply UInt8.toNat_inj.mp
      have hlt := b.toNat_lt
      simp only [Nat.toUInt8_eq, UInt8.toNat_ofNat']
      omega
    rw [List.length_cons, leNat, leBytes, hdiv, ih, hlow]

theorem leNat_lt (bs : List UInt8) : leNat bs < 256 ^ bs.length := by
  induction bs with
  | nil => decide
  | cons b bs ih =>
    have hlt := b.toNat_lt
    rw [leNat, List.length_cons, pow_succ]
    omega

theorem take_leBytes (width rest n : ℕ) :
    (leBytes (width + rest) n).take width = leBytes width n := by
  induction width generalizing n with
  | zero => simp [leBytes]
  | succ width ih =>
    rw [Nat.succ_add, leBytes, List.take_succ_cons, ih, leBytes]

theorem leBytes_inj {width n m : ℕ} (hn : n < 256 ^ width) (hm : m < 256 ^ width)
    (h : leBytes width n = leBytes width m) : n = m := by
  rw [← leNat_leBytes hn, h, leNat_leBytes hm]

theorem beBytes_inj {width n m : ℕ} (hn : n < 256 ^ width) (hm : m < 256 ^ width)
    (h : beBytes width n = beBytes width m) : n = m :=
  leBytes_inj hn hm (List.reverse_injective h)

/-- A row of fixed-width fields, each given by its width and its value. -/
def encodeFields (fs : List (ℕ × ℕ)) : List UInt8 := fs.flatMap fun f => leBytes f.1 f.2

@[simp] theorem length_encodeFields (fs : List (ℕ × ℕ)) :
    (encodeFields fs).length = (fs.map Prod.fst).sum := by
  simp [encodeFields, List.length_flatMap]

/-- The numbers in consecutive fields of the given widths. -/
def decodeFields : List ℕ → List UInt8 → List ℕ
  | [], _ => []
  | w :: ws, bs => leNat (bs.take w) :: decodeFields ws (bs.drop w)

/-- Values that fit their fields are read back. -/
theorem decodeFields_encodeFields {ws vs : List ℕ} (hlen : ws.length = vs.length)
    (h : ∀ f ∈ ws.zip vs, f.2 < 256 ^ f.1) (rest : List UInt8) :
    decodeFields ws (encodeFields (ws.zip vs) ++ rest) = vs := by
  induction ws generalizing vs with
  | nil =>
    rw [List.eq_nil_of_length_eq_zero hlen.symm]
    rfl
  | cons w ws ih =>
    cases vs with
    | nil => cases hlen
    | cons v vs =>
      have hwidth := length_leBytes w v
      have hsplit : encodeFields ((w :: ws).zip (v :: vs)) ++ rest =
          leBytes w v ++ (encodeFields (ws.zip vs) ++ rest) := by
        simp [encodeFields]
      have htail := ih (Nat.succ.inj hlen) fun f hf => h f (List.mem_cons_of_mem _ hf)
      rw [hsplit, decodeFields, List.take_left' hwidth, List.drop_left' hwidth, htail,
        leNat_leBytes (h (w, v) List.mem_cons_self)]

/-- Fields of the same widths are read back from the front of a stream. -/
theorem encodeFields_append_inj {fs gs : List (ℕ × ℕ)} {s t : List UInt8}
    (hwidth : fs.map Prod.fst = gs.map Prod.fst) (hfs : ∀ f ∈ fs, f.2 < 256 ^ f.1)
    (hgs : ∀ g ∈ gs, g.2 < 256 ^ g.1) (h : encodeFields fs ++ s = encodeFields gs ++ t) :
    fs = gs ∧ s = t := by
  induction fs generalizing gs with
  | nil =>
    obtain rfl : gs = [] := by simpa using hwidth.symm
    exact ⟨rfl, by simpa [encodeFields] using h⟩
  | cons f fs ih =>
    cases gs with
    | nil => simp at hwidth
    | cons g gs =>
      obtain ⟨w, n⟩ := f
      obtain ⟨w', m⟩ := g
      simp only [List.map_cons, List.cons.injEq] at hwidth
      rcases hwidth with ⟨rfl, hwidth⟩
      simp only [encodeFields, List.flatMap_cons, List.append_assoc] at h
      obtain ⟨hfirst, hrest⟩ := List.append_inj h (by simp)
      have hn : n < 256 ^ w := hfs (w, n) List.mem_cons_self
      have hm : m < 256 ^ w := hgs (w, m) List.mem_cons_self
      obtain rfl : n = m := leBytes_inj hn hm hfirst
      obtain ⟨rfl, hst⟩ := ih hwidth (fun f hf => hfs f (List.mem_cons_of_mem _ hf))
        (fun g hg => hgs g (List.mem_cons_of_mem _ hg)) hrest
      exact ⟨rfl, hst⟩

/-- A list of names is read back from the front of a stream when their lengths are known. -/
theorem flatten_append_inj {xs ys : List (List UInt8)} {s t : List UInt8}
    (hlen : xs.map List.length = ys.map List.length)
    (h : xs.flatten ++ s = ys.flatten ++ t) : xs = ys ∧ s = t := by
  have htotal : xs.flatten.length = ys.flatten.length := by
    simp [List.length_flatten, hlen]
  obtain ⟨hflat, hst⟩ := List.append_inj h htotal
  exact ⟨List.eq_iff_flatten_eq.mpr ⟨hflat, hlen⟩, hst⟩

end ByteStream
