import NetCHASM.ResultRoundTrip
import NetCHASM.StorageInit

/-! The key of an aux cache entry as bytes: two lengths, the address and two strings. The size
that the writer reports, the stores that it makes and the reads that follow are three layouts,
compared here. -/
namespace NetCHASM

open ByteStream Decoding

/-- Some bytes stored at a position of a buffer. -/
abbrev Store := ℕ × List UInt8

/-- A buffer after a store; what a store puts behind the end is not part of it. -/
def overlay (buf : List UInt8) (s : Store) : List UInt8 :=
  buf.take s.1 ++ s.2.take (buf.length - s.1) ++ buf.drop (s.1 + s.2.length)

/-- The stores touch only the first bytes of a buffer. -/
def Within (n : ℕ) (ss : List Store) : Prop := ∀ s ∈ ss, s.2 = [] ∨ s.1 + s.2.length ≤ n

instance (n : ℕ) (ss : List Store) : Decidable (Within n ss) :=
  inferInstanceAs (Decidable (∀ s ∈ ss, _))

namespace HMAuxKey

def totalSize (k : HMAuxKey) : ℕ := (4 * 2 + k.1.length + k.2.2.length) % 2 ^ 32

/-- What a key stores. A length goes through a pointer to characters, so one byte of it is
stored. -/
def stores (k : HMAuxKey) : List Store :=
  [(0, leBytes 1 k.1.length), (4, leBytes 1 k.2.2.length), (8, k.2.1.image.encode),
    (8 + AddressImage.size, padded k.1.length k.1),
    (8 + AddressImage.size + k.1.length, padded k.2.2.length k.2.2)]

/-- The size that is returned, and the stores, for a buffer that may be missing. -/
def serialize (k : HMAuxKey) (buf : Option (List UInt8)) (size : ℕ) : ℕ × List Store :=
  if buf = none ∨ size < k.totalSize then (k.totalSize, []) else (k.totalSize, k.stores)

/-- A signed character as a 32-bit size. -/
def charSize (n : ℕ) : ℕ := (Int8.ofNat n).toInt32.toUInt32.toNat

def readSize (src : List UInt8) : Read ℕ := do
  let c ← readWord 1 src
  return charSize c

/-- The key in a buffer; `none` is the answer that there is no key. -/
def deserialize (buf : Option (List UInt8)) (size : ℕ) : Read (Option HMAuxKey) :=
  match buf with
  | none => .ok none
  | some src =>
    if size < 2 * 4 then .ok none
    else do
      let hostSize ← readSize src
      let sourceUrlSize ← readSize (src.drop 4)
      if size < 8 + AddressImage.size + hostSize + sourceUrlSize then return none
      else
        let address ← AddressImage.read (src.drop 8)
        let hostName ← readName hostSize (src.drop (8 + AddressImage.size))
        let sourceUrl ← readName sourceUrlSize (src.drop (8 + AddressImage.size + hostSize))
        return some (hostName, address.address, sourceUrl)

end HMAuxKey

end NetCHASM

namespace AuxKeyBytes

open NetCHASM ByteStream Decoding ResultRoundTrip HMAuxKey

theorem overlay_append {off : ℕ} {a b c bs : List UInt8} (ha : a.length = off)
    (hb : b.length = bs.length) : overlay (a ++ (b ++ c)) (off, bs) = a ++ (bs ++ c) := by
  have hroom : bs.length ≤ (a ++ (b ++ c)).length - off := by
    simp only [List.length_append]
    omega
  simp only [overlay]
  rw [List.take_left' ha, List.take_of_length_le hroom, ← List.drop_drop, List.drop_left' ha,
    List.drop_left' hb, List.append_assoc]

/-- A store that fits one part of a buffer replaces this part. -/
theorem overlay_flatten {ps : List (List UInt8)} {bs : List UInt8} {off : ℕ} (i : ℕ)
    (hi : i < ps.length) (hoff : (ps.take i).flatten.length = off)
    (hb : ps[i].length = bs.length) : overlay ps.flatten (off, bs) = (ps.set i bs).flatten := by
  have hsplit : ps.flatten = (ps.take i).flatten ++ (ps[i] ++ (ps.drop (i + 1)).flatten) := by
    rw [← List.flatten_cons, ← List.flatten_append, List.getElem_cons_drop,
      List.take_append_drop]
  rw [hsplit, overlay_append hoff hb, List.set_eq_take_append_cons_drop, if_pos hi,
    List.flatten_append, List.flatten_cons]

/-- The address that is kept is the one that comes back. -/
theorem address_image (a : HMIPAddress) : a.image.address = a := by
  cases a with
  | unset => rfl
  | v4 a =>
    have hbytes := leNat_lt (beBytes 4 a.toNat)
    rw [length_beBytes] at hbytes
    have htake : (leBytes 16 (leNat (beBytes 4 a.toNat))).take 4 = beBytes 4 a.toNat := by
      have h := leBytes_leNat (beBytes 4 a.toNat)
      rw [length_beBytes] at h
      rw [take_leBytes 4 12, h]
    have hword : a.toNat < 256 ^ 4 := a.toNat_lt
    have hlt : leNat (beBytes 4 a.toNat) < 2 ^ 128 := by omega
    simp only [HMIPAddress.image, AddressImage.address, BitVec.toNat_ofNat, if_true,
      Nat.mod_eq_of_lt hlt, htake]
    rw [beNat, beBytes, List.reverse_reverse, leNat_leBytes hword, UInt32.ofNat_toNat]
  | v6 a =>
    have hbytes := leNat_lt (beBytes 16 a.toNat)
    rw [length_beBytes] at hbytes
    have hall := leBytes_leNat (beBytes 16 a.toNat)
    rw [length_beBytes] at hall
    have hword : a.toNat < 256 ^ 16 := a.isLt
    have hfamily : ¬ afInet6 = afInet := by decide
    have hlt : leNat (beBytes 16 a.toNat) < 2 ^ 128 := by omega
    simp only [HMIPAddress.image, AddressImage.address, BitVec.toNat_ofNat, if_true,
      if_neg hfamily, Nat.mod_eq_of_lt hlt, hall]
    rw [beNat, beBytes, List.reverse_reverse, leNat_leBytes hword, BitVec.ofNat_toNat,
      BitVec.setWidth_eq]

/-- One byte of a length, and what a signed character makes of it. -/
theorem charSize_byte (n : ℕ) : charSize (n % 256) = charSize n := by
  have hbyte : Int8.ofNat (n % 256) = Int8.ofNat n := by
    have hlow : UInt8.ofNat (n % 256) = UInt8.ofNat n := by
      apply UInt8.toNat_inj.mp
      simp
    exact congrArg Int8.ofUInt8 hlow
  rw [charSize, charSize, hbyte]

theorem readSize_byte (n : ℕ) (rest : List UInt8) :
    readSize (leBytes 1 n ++ rest) = .ok (charSize n) := by
  have hlow : n.toUInt8 = (n % 256).toUInt8 := by
    apply UInt8.toNat_inj.mp
    simp
  have hbyte : leBytes 1 n = leBytes 1 (n % 256) := by
    rw [leBytes, leBytes, hlow]
    rfl
  have hlt : n % 256 < 256 ^ 1 := Nat.mod_lt _ (by decide)
  rw [readSize, hbyte, readWord_append hlt, ← charSize_byte]
  rfl

/-- A key that is read takes its two lengths, the address and its strings out of the size. -/
theorem room_of_deserialize {src : List UInt8} {size : ℕ} {k : HMAuxKey}
    (h : HMAuxKey.deserialize (some src) size = .ok (some k)) :
    8 + AddressImage.size + k.1.length + k.2.2.length ≤ size ∧
      readSize src = .ok k.1.length ∧ readSize (src.drop 4) = .ok k.2.2.length ∧
      k.1 ≠ [] ∧ k.2.2 ≠ [] := by
  simp only [HMAuxKey.deserialize] at h
  split at h
  · cases h
  · rcases bind_eq_ok.mp h with ⟨hostSize, hhost, h⟩
    rcases bind_eq_ok.mp h with ⟨sourceUrlSize, hurl, h⟩
    split at h
    · cases h
    · rename_i hroom
      rcases bind_eq_ok.mp h with ⟨address, -, h⟩
      rcases bind_eq_ok.mp h with ⟨hostName, hhostName, h⟩
      rcases bind_eq_ok.mp h with ⟨sourceUrl, hsourceUrl, h⟩
      cases h
      obtain ⟨hhost0, -⟩ := safe_readName.mp ⟨hostName, hhostName⟩
      obtain ⟨hurl0, -⟩ := safe_readName.mp ⟨sourceUrl, hsourceUrl⟩
      rw [readName, if_neg hhost0] at hhostName
      rw [readName, if_neg hurl0] at hsourceUrl
      have hhostLength := length_readString hhostName
      have hurlLength := length_readString hsourceUrl
      refine ⟨?_, ?_, ?_, ?_, ?_⟩
      · rw [hhostLength, hurlLength]
        omega
      · rw [hhostLength]
        exact hhost
      · rw [hurlLength]
        exact hurl
      · rintro rfl
        exact hhost0 hhostLength.symm
      · rintro rfl
        exact hurl0 hurlLength.symm

/-- The room that the stores of a key need. -/
def storedSize (k : HMAuxKey) : ℕ := 8 + AddressImage.size + k.1.length + k.2.2.length

theorem within_stores_iff (k : HMAuxKey) (n : ℕ) : Within n k.stores ↔ storedSize k ≤ n := by
  simp only [Within, HMAuxKey.stores, List.forall_mem_cons, length_encodeAddress, length_padded,
    length_leBytes, ← List.length_eq_zero_iff, storedSize, AddressImage.size]
  constructor
  · rintro ⟨-, -, haddress, hhost, hurl, -⟩
    omega
  · intro h
    refine ⟨Or.inr (by omega), Or.inr (by omega), Or.inr (by omega), Or.inr (by omega),
      Or.inr (by omega), fun s hs => ?_⟩
    cases hs

theorem totalSize_lt_storedSize (k : HMAuxKey) : k.totalSize < storedSize k := by
  have hle : k.totalSize ≤ 4 * 2 + k.1.length + k.2.2.length := Nat.mod_le _ _
  simp only [storedSize, AddressImage.size]
  omega

/-- The strings of a key have no zero byte. -/
def NulFree (k : HMAuxKey) : Prop := 0 ∉ k.1 ∧ 0 ∉ k.2.2

instance (k : HMAuxKey) : Decidable (NulFree k) := inferInstanceAs (Decidable (_ ∧ _))

/-- A buffer after the stores of a key. -/
def written (k : HMAuxKey) (buf : List UInt8) : List UInt8 :=
  (k.serialize (some buf) buf.length).2.foldl overlay buf

/-- A buffer of the size that a key reports holds its stores, and the key is read from it. -/
def RoundTrips (k : HMAuxKey) : Prop :=
  ∀ buf : List UInt8, buf.length = (k.serialize none 0).1 →
    Within buf.length (k.serialize (some buf) buf.length).2 ∧
      HMAuxKey.deserialize (some (written k buf)) buf.length = .ok (some k)

theorem serialize_null (k : HMAuxKey) : (k.serialize none 0).1 = k.totalSize := by
  rw [HMAuxKey.serialize, if_pos (Or.inl rfl)]

theorem serialize_of_le {k : HMAuxKey} {buf : List UInt8} (h : k.totalSize ≤ buf.length) :
    (k.serialize (some buf) buf.length).2 = k.stores := by
  have hstored : ¬ (some buf = none ∨ buf.length < k.totalSize) := by
    rintro (hnone | hlt)
    · cases hnone
    · omega
  rw [HMAuxKey.serialize, if_neg hstored]

/-- In a buffer of the size that a key reports its stores leave the buffer, and whatever stands
in the buffer the key is not read from it. -/
theorem aux_key_never_round_trips (k : HMAuxKey) (buf : List UInt8)
    (hsize : buf.length = (k.serialize none 0).1) :
    ¬ Within buf.length (k.serialize (some buf) buf.length).2 ∧
      ∀ src, HMAuxKey.deserialize (some src) buf.length ≠ .ok (some k) := by
  rw [serialize_null] at hsize
  have hlt := totalSize_lt_storedSize k
  constructor
  · rw [serialize_of_le hsize.ge, within_stores_iff]
    omega
  · intro src h
    obtain ⟨hroom, -⟩ := room_of_deserialize h
    simp only [storedSize] at hlt
    omega

/-- A key with two short strings. -/
def shortKey : HMAuxKey := ([104], .v4 1, [117])

theorem aux_key_never_round_trips_short :
    ¬ Within 10 (shortKey.serialize (some (List.replicate 10 0)) 10).2 ∧
      ∀ src, HMAuxKey.deserialize (some src) 10 ≠ .ok (some shortKey) :=
  aux_key_never_round_trips shortKey (List.replicate 10 0) (by decide)

theorem short_key_does_not_round_trip : NulFree shortKey ∧ ¬ RoundTrips shortKey := by
  refine ⟨by decide, fun h => ?_⟩
  obtain ⟨hwithin, -⟩ := h (List.replicate 10 0) (by decide)
  revert hwithin
  decide

theorem exists_prefix (w : ℕ) (xs : List UInt8) (h : w ≤ xs.length) :
    ∃ a b, xs = a ++ b ∧ a.length = w :=
  ⟨xs.take w, xs.drop w, (List.take_append_drop w xs).symm, List.length_take_of_le h⟩

/-- In a buffer with room for the stores each of the five parts is in its place. -/
theorem exists_written {k : HMAuxKey} {buf : List UInt8} (hroom : storedSize k ≤ buf.length) :
    ∃ p q rest : List UInt8, p.length = 3 ∧ q.length = 3 ∧
      written k buf = [leBytes 1 k.1.length, p, leBytes 1 k.2.2.length, q, k.2.1.image.encode,
        padded k.1.length k.1, padded k.2.2.length k.2.2, rest].flatten := by
  have hlt := totalSize_lt_storedSize k
  rw [written, serialize_of_le (by omega)]
  simp only [storedSize, AddressImage.size] at hroom
  obtain ⟨x, buf₁, rfl, hx⟩ := exists_prefix 1 buf (by omega)
  rw [List.length_append] at hroom
  obtain ⟨p, buf₂, rfl, hp⟩ := exists_prefix 3 buf₁ (by omega)
  rw [List.length_append] at hroom
  obtain ⟨y, buf₃, rfl, hy⟩ := exists_prefix 1 buf₂ (by omega)
  rw [List.length_append] at hroom
  obtain ⟨q, buf₄, rfl, hq⟩ := exists_prefix 3 buf₃ (by omega)
  rw [List.length_append] at hroom
  obtain ⟨a, buf₅, rfl, ha⟩ := exists_prefix 20 buf₄ (by omega)
  rw [List.length_append] at hroom
  obtain ⟨s, buf₆, rfl, hs⟩ := exists_prefix k.1.length buf₅ (by omega)
  rw [List.length_append] at hroom
  obtain ⟨t, rest, rfl, ht⟩ := exists_prefix k.2.2.length buf₆ (by omega)
  have hparts : x ++ (p ++ (y ++ (q ++ (a ++ (s ++ (t ++ rest)))))) =
      [x, p, y, q, a, s, t, rest].flatten := by simp
  refine ⟨p, q, rest, hp, hq, ?_⟩
  simp only [HMAuxKey.stores, List.foldl_cons, List.foldl_nil]
  rw [hparts, overlay_flatten 0 (by simp) (by simp) (by simp [hx])]
  simp only [List.set_cons_zero]
  rw [overlay_flatten 2 (by simp) (by simp [hp]) (by simp [hy])]
  simp only [List.set_cons_succ, List.set_cons_zero]
  rw [overlay_flatten 4 (by simp) (by simp [hp, hq])
    (by simp [ha, length_encodeAddress, AddressImage.size])]
  simp only [List.set_cons_succ, List.set_cons_zero]
  rw [overlay_flatten 5 (by simp)
    (by simp [hp, hq, length_encodeAddress, AddressImage.size]) (by simp [hs])]
  simp only [List.set_cons_succ, List.set_cons_zero]
  rw [overlay_flatten 6 (by simp)
    (by simp [hp, hq, length_encodeAddress, AddressImage.size]; omega) (by simp [ht])]
  simp only [List.set_cons_succ, List.set_cons_zero]

/-- The stores and the reads agree otherwise: with room for the address a key comes back just
when neither string is empty and a signed character holds both lengths. -/
theorem restored_with_room_iff {k : HMAuxKey} (hfree : NulFree k) {buf : List UInt8}
    (hroom : storedSize k ≤ buf.length) :
    HMAuxKey.deserialize (some (written k buf)) buf.length = .ok (some k) ↔
      (k.1 ≠ [] ∧ charSize k.1.length = k.1.length) ∧
        (k.2.2 ≠ [] ∧ charSize k.2.2.length = k.2.2.length) := by
  rcases hfree with ⟨hhostFree, hurlFree⟩
  obtain ⟨p, q, rest, hp, hq, hwritten⟩ := exists_written hroom
  simp only [List.flatten_cons, List.flatten_nil, List.append_nil] at hwritten
  rw [padded_of_not_mem hhostFree, padded_of_not_mem hurlFree] at hwritten
  have hhost : readSize (written k buf) = .ok (charSize k.1.length) := by
    rw [hwritten]
    exact readSize_byte _ _
  have hdrop : (written k buf).drop 4 = leBytes 1 k.2.2.length ++ (q ++
      (k.2.1.image.encode ++ (k.1 ++ (k.2.2 ++ rest)))) := by
    rw [hwritten, ← List.append_assoc]
    exact List.drop_left' (by simp [hp])
  have hurl : readSize ((written k buf).drop 4) = .ok (charSize k.2.2.length) := by
    rw [hdrop]
    exact readSize_byte _ _
  constructor
  · intro h
    obtain ⟨-, hhost', hurl', hhost0, hurl0⟩ := room_of_deserialize h
    rw [hhost] at hhost'
    rw [hurl] at hurl'
    exact ⟨⟨hhost0, Except.ok.inj hhost'⟩, ⟨hurl0, Except.ok.inj hurl'⟩⟩
  · rintro ⟨⟨hhost0, hhostSize⟩, ⟨hurl0, hurlSize⟩⟩
    rw [hhostSize] at hhost
    rw [hurlSize] at hurl
    have hdrop8 : (written k buf).drop 8 = k.2.1.image.encode ++ (k.1 ++ (k.2.2 ++ rest)) := by
      rw [show 8 = 4 + 4 from rfl, ← List.drop_drop, hdrop, ← List.append_assoc]
      exact List.drop_left' (by simp [hq])
    have hdropHost : (written k buf).drop (8 + AddressImage.size) = k.1 ++ (k.2.2 ++ rest) := by
      rw [← List.drop_drop, hdrop8, List.drop_left' (length_encodeAddress _)]
    have hdropUrl : (written k buf).drop (8 + AddressImage.size + k.1.length) =
        k.2.2 ++ rest := by
      rw [← List.drop_drop, hdropHost, List.drop_left' rfl]
    have hreadName {s rest : List UInt8} (hne : s ≠ []) (hs : 0 ∉ s) :
        readName s.length (s ++ rest) = .ok s := by
      have hname := readName_padded s rest
      rw [padded_of_not_mem hs, if_neg hne] at hname
      exact hname
    have hroom' := hroom
    simp only [storedSize] at hroom'
    have hhead : ¬ buf.length < 2 * 4 := by omega
    have hsizes : ¬ buf.length < 8 + AddressImage.size + k.1.length + k.2.2.length := by omega
    simp only [HMAuxKey.deserialize, if_neg hhead, hhost, hurl, ok_bind, if_neg hsizes, hdrop8,
      hdropHost, hdropUrl, readAddress_encode, hreadName hhost0 hhostFree,
      hreadName hurl0 hurlFree, address_image]
    rfl

end AuxKeyBytes
