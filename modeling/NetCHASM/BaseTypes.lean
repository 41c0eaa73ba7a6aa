import NetCHASM.Constants
import NetCHASM.Library.OrderedMap

/-! Strings, time stamps and IP addresses. A string is its bytes, a time stamp
counts milliseconds since the epoch, and an address keeps its bytes as one
big-endian number, so that comparing memory is comparing numbers. -/
namespace NetCHASM

open KeyOrder

abbrev HMString := List UInt8

instance : LawfulBEq HMString := inferInstance

/-- The bytes of an ASCII literal. -/
def bytes (s : String) : HMString := s.toList.map (fun c => c.toNat.toUInt8)

/-- A string up to its first zero byte. -/
def cStr (s : HMString) : HMString := s.takeWhile (· ≠ 0)

abbrev HMTimeStamp := Int

theorem toNat_ofInt (z : Int) : (UInt64.ofInt z).toNat = (z % 2 ^ 64).toNat := by
  rw [UInt64.ofInt, UInt64.toNat_ofNat_of_lt' (by rw [UInt64.size]; omega)]

namespace HMTimeStamp

/-- The constant is named for an hour and holds a day. -/
def hourInMs : UInt64 := 86400000

/-- A duration given as an unsigned word is converted to the signed count of the clock. -/
def ofUInt64 (d : UInt64) : HMTimeStamp := d.toInt64.toInt

def plus (ts : HMTimeStamp) (offset : UInt64) : HMTimeStamp := ts + ofUInt64 offset

def minus (ts₁ ts₂ : HMTimeStamp) : UInt64 := UInt64.ofInt (ts₁ - ts₂)

def getTimeSinceEpoch (ts : HMTimeStamp) : UInt64 := UInt64.ofInt ts

@[simp] theorem getTimeSinceEpoch_ofUInt64 (d : UInt64) : (ofUInt64 d).getTimeSinceEpoch = d := by
  have hword : (d.toBitVec.toInt % (2 ^ 64 : Nat)).toNat = d.toNat := by
    rw [← BitVec.toNat_ofInt, BitVec.ofInt_toInt]
    rfl
  calc (ofUInt64 d).getTimeSinceEpoch
      = UInt64.ofNat (d.toBitVec.toInt % (2 ^ 64 : Nat)).toNat := rfl
    _ = d := by rw [hword, UInt64.ofNat_toNat]

end HMTimeStamp

/-- The address families, by their numeric codes. -/
def afUnspec : UInt8 := 0

def afInet : UInt8 := 2

def afInet6 : UInt8 := 10

inductive HMIPAddress where
  | unset
  | v4 (addr : UInt32)
  | v6 (addr : BitVec 128)
  deriving DecidableEq, Repr

namespace HMIPAddress

def getType : HMIPAddress → UInt8
  | .unset => afUnspec
  | .v4 _ => afInet
  | .v6 _ => afInet6

def isSet (a : HMIPAddress) : Bool := a.getType != afUnspec

/-- The constructor from a family leaves the address zero. -/
def ofType (type : UInt8) : HMIPAddress :=
  if type = afInet then .v4 0 else if type = afInet6 then .v6 0 else .unset

/-- The zero address of a family, which stands for a host that is not resolved. -/
def isBlank (a : HMIPAddress) : Bool := a = ofType afInet || a = ofType afInet6

def value : HMIPAddress → ℕ
  | .unset => 0
  | .v4 a => a.toNat
  | .v6 a => a.toNat

def lt (a b : HMIPAddress) : Bool :=
  if a.getType ≠ b.getType then decide (a.getType < b.getType) else decide (a.value < b.value)

theorem eq_of_getType_value {a b : HMIPAddress} (ht : a.getType = b.getType)
    (hv : a.value = b.value) : a = b := by
  cases a <;> cases b <;> simp_all [getType, value, afUnspec, afInet, afInet6]
  · exact UInt32.toNat_inj.mp hv
  · exact BitVec.eq_of_toNat_eq hv

instance : Ordered HMIPAddress where
  lt := lt
  weak := ((Ordered.weak (K := ℕ)).comap value).lex getType

instance : Linear HMIPAddress where
  eq_of_eqv {a b} h := by
    rcases eqv_iff.mp h with ⟨hab, hba⟩
    change lt a b = false at hab
    change lt b a = false at hba
    by_cases ht : a.getType = b.getType
    · have hv : a.value = b.value := by
        simp only [lt, ht, ne_eq, not_true_eq_false, if_false, decide_eq_false_iff_not] at hab hba
        omega
      exact eq_of_getType_value ht hv
    · have hlt : ¬ a.getType < b.getType := by simpa [lt, ht] using hab
      have hgt : ¬ b.getType < a.getType := by simpa [lt, Ne.symm ht] using hba
      exact absurd (Std.Trichotomous.trichotomous _ _ hlt hgt) ht

end HMIPAddress

end NetCHASM
