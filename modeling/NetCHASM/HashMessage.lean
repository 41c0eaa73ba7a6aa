import NetCHASM.BaseTypes

/-! Hashes in messages between daemons and their clients. The part of the array of a hash that
its size leaves unused is never read and is left out; parsing is taken to give back the message
that was serialized. -/
namespace NetCHASM

open KeyOrder OrderedMap

/-- The length of the array that holds a hash. -/
def hashMaxSize : ℕ := 64

/-- A hash: the bytes of its array that are in use. -/
@[ext] structure StoredHash where
  bytes : List UInt8
  bounded : bytes.length ≤ hashMaxSize
  deriving DecidableEq, Repr

/-- The class of the daemon and the class of the client library that hold a hash. -/
inductive HashClass where
  | hmHash
  | apiHash
  deriving DecidableEq, Repr

namespace HMDataPacking

structure PHashHGPair where
  hostgroupname : HMString
  size : Int32
  hash : List UInt8
  deriving DecidableEq, Repr

/-- A call to copy bytes of the hash field of a message into the array of a hash. -/
structure MemCopy where
  present : ℕ
  count : ℕ
  deriving DecidableEq, Repr

/-- The call writes within the array and reads within the field. -/
def MemCopy.Safe (c : MemCopy) : Prop := c.count ≤ hashMaxSize ∧ c.count ≤ c.present

/-- What a call leaves: the value it returns, the copies it made, and the value it filled in,
which is not known after a copy that left one of its buffers. -/
structure Unpacked (α : Type) where
  returned : Bool
  copies : List MemCopy
  value : Option α

/-- The size of a pair as the unsigned count of the copy. -/
def copyCount (p : PHashHGPair) : ℕ := (p.size.toInt % 2 ^ 64).toNat

def copies (p : PHashHGPair) : List MemCopy :=
  if p.size = 0 then [] else [⟨p.hash.length, copyCount p⟩]

/-- The hash that is filled in; the bytes of the field are followed by a terminator. -/
def copied (p : PHashHGPair) : Option StoredHash :=
  if h : copyCount p ≤ hashMaxSize ∧ copyCount p ≤ p.hash.length + 1 then
    some ⟨(p.hash ++ [0]).take (copyCount p), by
      rw [List.length_take, List.length_append, List.length_singleton]
      omega⟩
  else none

def packHash (name : HMString) (hash : StoredHash) : PHashHGPair :=
  ⟨name, Int32.ofNat hash.bytes.length, hash.bytes⟩

/-- The two overloads differ only in the class they fill in. -/
def unpackHash (_ : HashClass) (p : PHashHGPair) : Unpacked StoredHash :=
  ⟨true, copies p, copied p⟩

/-- Pack the hashes of the groups of a map. -/
def packHashInfo (hostGroupHashes : SortedMap HMString StoredHash) : List PHashHGPair :=
  hostGroupHashes.entries.map fun e => packHash e.1 e.2

/-- The overload for the class of the daemon has no return after its loop. -/
def unpackHashInfo (c : HashClass) (items : List PHashHGPair)
    (hashInfo : SortedMap HMString StoredHash) : Unpacked (SortedMap HMString StoredHash) :=
  ⟨c = .apiHash, items.flatMap copies,
    items.foldlM (fun m p => (copied p).map fun hash => m.set p.hostgroupname hash) hashInfo⟩

/-- The size of a pair is that of a hash, and the field has as many bytes. -/
def PHashHGPair.Fits (p : PHashHGPair) : Prop :=
  0 ≤ p.size.toInt ∧ p.size.toInt ≤ hashMaxSize ∧ p.size.toInt ≤ p.hash.length

/-- The map of a message that was packed from a map is that map. -/
def RestoresHashes (c : HashClass) (m : SortedMap HMString StoredHash) : Prop :=
  (unpackHashInfo c (packHashInfo m) ∅).returned = true ∧
    (unpackHashInfo c (packHashInfo m) ∅).value = some m

theorem copies_safe_iff (p : PHashHGPair) : (∀ c ∈ copies p, c.Safe) ↔ p.Fits := by
  have hlower := Int32.le_toInt p.size
  have hupper := Int32.toInt_lt p.size
  rw [copies, PHashHGPair.Fits]
  split
  · rename_i hzero
    simp [hzero]
  · simp only [List.mem_singleton, forall_eq, MemCopy.Safe, copyCount, hashMaxSize]
    omega

theorem copied_packHash (name : HMString) (hash : StoredHash) :
    copied (packHash name hash) = some hash := by
  have hbound := hash.bounded
  have hcount : copyCount (packHash name hash) = hash.bytes.length := by
    rw [copyCount, packHash, Int32.toInt_ofNat_of_lt (by rw [hashMaxSize] at hbound; omega)]
    rw [hashMaxSize] at hbound
    omega
  have hfits : copyCount (packHash name hash) ≤ hashMaxSize ∧
      copyCount (packHash name hash) ≤ (packHash name hash).hash.length + 1 := by
    rw [hcount]
    exact ⟨hbound, Nat.le_succ _⟩
  rw [copied, dif_pos hfits]
  congr 1
  apply StoredHash.ext
  change (hash.bytes ++ [0]).take (copyCount (packHash name hash)) = hash.bytes
  rw [hcount, List.take_left]

/-- Packing entries in key order and filling them in appends them. -/
theorem foldlM_copied {m : SortedMap HMString StoredHash}
    {es : List (HMString × StoredHash)}
    (hsorted : (m.entries ++ es).Pairwise fun a b => Ordered.lt a.1 b.1 = true) :
    ∃ m', (es.map fun e => packHash e.1 e.2).foldlM
        (fun m p => (copied p).map fun hash => SortedMap.set m p.hostgroupname hash) m = some m' ∧
      m'.entries = m.entries ++ es := by
  induction es generalizing m with
  | nil => exact ⟨m, rfl, (List.append_nil _).symm⟩
  | cons e es ih =>
    have hlt : ∀ x ∈ m.entries, Ordered.lt x.1 e.1 = true := fun x hx =>
      (List.pairwise_append.mp hsorted).2.2 x hx e List.mem_cons_self
    have hset : (m.set e.1 e.2).entries = m.entries ++ [e] := SortedMap.entries_set_of_lt e.2 hlt
    have hrest : ((m.set e.1 e.2).entries ++ es).Pairwise fun a b => Ordered.lt a.1 b.1 = true := by
      rw [hset, ← List.append_cons]
      exact hsorted
    obtain ⟨m', hm', hentries⟩ := ih hrest
    refine ⟨m', ?_, ?_⟩
    · rw [List.map_cons, List.foldlM_cons, copied_packHash]
      exact hm'
    · rw [hentries, hset, ← List.append_cons]

theorem unpackHashInfo_packHashInfo (c : HashClass) (m : SortedMap HMString StoredHash) :
    (unpackHashInfo c (packHashInfo m) ∅).value = some m := by
  have hsorted : ((∅ : SortedMap HMString StoredHash).entries ++ m.entries).Pairwise
      fun a b => Ordered.lt a.1 b.1 = true := m.sorted
  obtain ⟨m', hm', hentries⟩ := foldlM_copied hsorted
  have heq : m' = m := SortedMap.ext hentries
  rw [← heq] at hm' ⊢
  exact hm'

/-- The copies stay within their buffers exactly when every size fits, and the hashes of a map are
restored exactly by the overload of the client library. -/
theorem hash_decoding_iff (c : HashClass) (p : PHashHGPair) (items : List PHashHGPair)
    (hashInfo m : SortedMap HMString StoredHash) :
    ((∀ x ∈ (unpackHash c p).copies, x.Safe) ↔ p.Fits) ∧
      ((∀ x ∈ (unpackHashInfo c items hashInfo).copies, x.Safe) ↔ ∀ p ∈ items, p.Fits) ∧
      (RestoresHashes c m ↔ c = .apiHash) := by
  refine ⟨copies_safe_iff p, ?_, ?_⟩
  · simp only [unpackHashInfo, List.mem_flatMap, forall_exists_index, and_imp]
    constructor
    · intro h p hp
      exact (copies_safe_iff p).mp fun x hx => h x p hp hx
    · intro h x p hp hx
      exact (copies_safe_iff p).mpr (h p hp) x hx
  · rw [RestoresHashes, unpackHashInfo_packHashInfo]
    simp [unpackHashInfo]

/-- A size of 65 writes one byte behind the array, and the daemon's own overload fails on the
message of an empty map. -/
theorem hash_decoding_fails :
    ¬ ((∀ c p, ∀ x ∈ (unpackHash c p).copies, x.Safe) ∧
        (∀ c items m, ∀ x ∈ (unpackHashInfo c items m).copies, x.Safe) ∧
        ∀ c m, RestoresHashes c m) ∧
      ¬ (∀ x ∈ (unpackHash .hmHash ⟨bytes "group", 65, List.replicate 65 0⟩).copies, x.Safe) ∧
      ¬ RestoresHashes .hmHash ∅ := by
  have hcopy : ¬ ∀ x ∈ (unpackHash .hmHash ⟨bytes "group", 65, List.replicate 65 0⟩).copies,
      x.Safe := by
    intro h
    have hsafe := h ⟨65, 65⟩ (by decide)
    exact absurd hsafe.1 (by decide)
  refine ⟨fun h => hcopy (h.1 _ _), hcopy, ?_⟩
  rintro ⟨hreturned, -⟩
  cases hreturned

end HMDataPacking

end NetCHASM
