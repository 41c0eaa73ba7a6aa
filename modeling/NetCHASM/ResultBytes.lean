import NetCHASM.AuxBytes
import NetCHASM.StorageHostGroup

/-! The records of a group in the backend as bytes: its check results, its aux info and the
list of group names. A record starts with its size and the number of its entries; an entry is
a host name with its length, an address and a payload, and the reader finds the next entry by
the sizes that it meets on the way. -/
namespace NetCHASM

open ByteStream Decoding

/-- The size that the backend reports for a value, in a signed word. -/
def dsize (val : List UInt8) : Int := (Int32.ofNat val.length).toInt

/-- An entry of a record as memory holds it. -/
structure EntryImage (σ : Type) where
  hostName : HMString
  address : AddressImage
  payload : σ
  deriving DecidableEq, Repr

/-- Aux info as memory holds it. -/
structure AuxInfoImage where
  ts : UInt64
  auxData : List AuxImage
  deriving DecidableEq, Repr

def HMAuxInfo.image (a : HMAuxInfo) : AuxInfoImage :=
  ⟨a.ts.getTimeSinceEpoch, a.auxData.map HMAuxBase.image⟩

/-- The image of an entry, given that of its payload. -/
def GroupEntry.image {ρ σ : Type} (f : ρ → σ) (e : GroupEntry ρ) : EntryImage σ :=
  ⟨e.hostName, e.address.image, f e.payload⟩

namespace AddressImage

def size : ℕ := 20

def encode (a : AddressImage) : List UInt8 := encodeFields (widths.zip a.values)

def decode (src : List UInt8) : AddressImage :=
  let field (i : ℕ) : ℕ := (decodeFields widths src).getD i 0
  ⟨.ofNat (field 0), .ofNat 128 (field 2)⟩

def read (src : List UInt8) : Read AddressImage :=
  if size ≤ src.length then .ok (decode src) else .error .outside

end AddressImage

namespace StoredCheckResult

/-- The fields of the structure of a result, with the padding between them. -/
def widths : List ℕ :=
  AddressImage.widths ++ [4, 8, 8, 4, 4, 4, 4, 4, 4, 8, 4, 4, 4, 4, 4, 4, 2, 1, 1, 1, 1, 1, 1, 2, 6,
    8, 8, 1, 7, 8, 8, 8]

def values (r : StoredCheckResult) : List ℕ :=
  r.address.image.values ++ [0, r.start.toNat, r.stop.toNat, r.responseTime.toNat,
    r.totalResponseTime.toNat, r.minResponseTime.toNat, r.maxResponseTime.toNat,
    r.smoothedResponseTime.toNat, 0, r.sumResponseTime.toNat, r.numChecks.toNat,
    r.numResponses.toNat, r.numConnectFailures.toNat, r.numFailures.toNat, r.numTimeouts.toNat,
    r.numFlaps.toNat, r.status.toNat, r.response.code.toNat, r.reason.code.toNat,
    r.softReason.code.toNat, r.numFailedChecks.toNat, r.numSlowResponses.toNat, 0, r.port.toNat, 0,
    r.changeTime.toNat, r.prevTime.toNat, r.forceHostDown.toNat, 0, r.queueCheckTime.toNat,
    r.checkTime.toNat, r.remoteCheckTime.toNat]

/-- The size of the structure. -/
def size : ℕ := 160

def encode (r : StoredCheckResult) : List UInt8 := encodeFields (widths.zip r.values)

/-- The fields of a result, if the given size has room for it, and the bytes they take. -/
def read (src : List UInt8) (room : ℕ) : Read (Option (List ℕ × ℕ)) :=
  if room < size then .ok none
  else if src.length < size then .error .outside
  else .ok (some (decodeFields widths src, size))

end StoredCheckResult

/-- The fields of a result that are stored. -/
def HMDataCheckResult.fields (r : HMDataCheckResult) : List ℕ := r.serialize.values

def HMDataCheckResult.encode (r : HMDataCheckResult) : List UInt8 := r.serialize.encode

namespace AuxInfoImage

/-- The bytes before the aux records: the update time and the number of the records. -/
def headSize : ℕ := 12

def encode (a : AuxInfoImage) : List UInt8 :=
  leBytes 8 a.ts.toNat ++ leBytes 4 a.auxData.length ++ a.auxData.flatMap AuxImage.serialize

/-- The aux info of an entry and the bytes it takes. -/
def read (src : List UInt8) (room : ℕ) : Read (Option (AuxInfoImage × ℕ)) := do
  let ts ← readWord 8 src
  let numberRecords ← readWord 4 (src.drop 8)
  match ← AuxImage.readRecords numberRecords (src.drop headSize) (room - headSize) with
  | none => return none
  | some (auxData, _, left) => return some (⟨.ofNat ts, auxData⟩, room - left)

end AuxInfoImage

def HMAuxInfo.encode (a : HMAuxInfo) : List UInt8 := a.image.encode

section Entries

variable {σ : Type}

/-- The name is resized by the first byte of its length, which is read as a signed character,
and then all of the length is copied into it. -/
def readHostName (size : ℕ) (src : List UInt8) : Read HMString :=
  if (Int8.ofNat size).toInt ≤ 0 then .error .thrown
  else if (Int8.ofNat size).toInt < size then .error .overrun
  else readString size src

/-- Entries back to back. Before an entry is read its name and address and the `head` of its
payload are checked against the room that the size of the record leaves. -/
def readEntries (head : ℕ) (payload : List UInt8 → ℕ → Read (Option (σ × ℕ))) :
    ℕ → List UInt8 → ℕ → Read (Option (List (EntryImage σ)))
  | 0, _, _ => .ok (some [])
  | n + 1, src, room => do
    let size ← readWord 4 src
    if room < 4 + size + AddressImage.size + head then return none
    else
      let hostName ← readHostName size (src.drop 4)
      let src := src.drop (4 + size)
      let address ← AddressImage.read src
      let src := src.drop AddressImage.size
      let room := room - (4 + size + AddressImage.size)
      match ← payload src room with
      | none => return none
      | some (p, taken) =>
        match ← readEntries head payload n (src.drop taken) (room - taken) with
        | none => return none
        | some entries => return some (⟨hostName, address, p⟩ :: entries)

def getHostGroupCheckResults (val : List UInt8) : Read (Option (List (EntryImage (List ℕ)))) :=
  if dsize val < 4 then .ok none
  else do
    let size ← readWord 4 val
    if dsize val < (Int32.ofNat size).toInt then return none
    else
      let entries ← readWord 4 (val.drop 4)
      -- the number is signed, and no list has a negative length
      if (Int32.ofNat entries).toInt < 0 then .error .thrown
      else readEntries 0 StoredCheckResult.read entries (val.drop 8) (size - 8)

/-- The size of an aux record is compared by its first byte alone. -/
def getHostGroupGroupAuxInfo (val : List UInt8) :
    Read (Option (List (EntryImage AuxInfoImage))) :=
  if dsize val < 4 then .ok none
  else do
    let first ← readWord 1 val
    if dsize val < (Int8.ofNat first).toInt then return none
    else
      let size ← readWord 4 val
      let entries ← readWord 4 (val.drop 4)
      readEntries AuxInfoImage.headSize AuxInfoImage.read entries (val.drop 8) (size - 8)

/-- Group names back to back, each compared with the room after its length is read. -/
def readGroupNames : ℕ → List UInt8 → ℕ → Read (Option (List HMString))
  | 0, _, _ => .ok (some [])
  | n + 1, src, room => do
    let size ← readWord 4 src
    if room < 4 + size then return none
    else
      let name ← readName size (src.drop 4)
      match ← readGroupNames n (src.drop (4 + size)) (room - (4 + size)) with
      | none => return none
      | some names => return some (name :: names)

def getHostGroupNames (val : List UInt8) : Read (Option (List HMString)) := do
  let size ← readWord 4 val
  readGroupNames size (val.drop 4) ((dsize val).toNat - 4)

variable {ρ : Type}

/-- The bytes of an entry. -/
def GroupEntry.encode (payload : ρ → List UInt8) (e : GroupEntry ρ) : List UInt8 :=
  leBytes 4 e.hostName.length ++ padded e.hostName.length e.hostName ++ e.address.image.encode ++
    payload e.payload

/-- The size of a record, before it is cut to its word. -/
def recordSize (payload : ρ → List UInt8) (entries : List (GroupEntry ρ)) : ℕ :=
  8 + (entries.map fun e => (e.encode payload).length).sum

def recordBytes (payload : ρ → List UInt8) (entries : List (GroupEntry ρ)) : List UInt8 :=
  leBytes 4 (recordSize payload entries) ++ leBytes 4 entries.length ++
    entries.flatMap fun e => e.encode payload

/-- The value of a key after a record is written over it. A host without a name stops the
write; a record whose size does not fit its word is written past the end of its buffer. -/
def writeRecord (payload : ρ → List UInt8) (old : Option (List UInt8))
    (entries : List (GroupEntry ρ)) : Read (Option (List UInt8)) :=
  if entries.any fun e => e.hostName = [] then .ok old
  else if recordSize payload entries < 2 ^ 32 then .ok (some (recordBytes payload entries))
  else .error .overrun

/-- A read of a key, which may have no value. -/
def fetched {α : Type} (get : List UInt8 → Read (Option α)) :
    Option (List UInt8) → Read (Option α)
  | none => .ok none
  | some val => get val

def storeHostGroupCheckResults (old : Option (List UInt8)) (entries : List HMGroupCheckResult) :
    Read (Option (List UInt8)) :=
  writeRecord HMDataCheckResult.encode old entries

def storeHostGroupAuxInfo (old : Option (List UInt8)) (entries : List HMGroupAuxResult) :
    Read (Option (List UInt8)) :=
  writeRecord HMAuxInfo.encode old entries

end Entries

end NetCHASM

namespace ResultBytes

open NetCHASM ByteStream Decoding AuxImage

/-! Buffers that are read safely. A read is asked for only where the checks before it let the
reader come to it. -/

/-- The number in the four bytes at an offset. -/
def wordAt (src : List UInt8) (offset : ℕ) : ℕ := leNat ((src.drop offset).take 4)

/-- The structure of a type of aux record: its size, and where the sizes of its strings are. -/
def layout (type : ℕ) : Option (ℕ × List ℕ) :=
  if type = oobFile then some (oobSize, [4, 8])
  else if type = loadFile then some (loadSize, [4, 8, 40])
  else none

/-- The size of a record with its strings. -/
def announced (l : ℕ × List ℕ) (src : List UInt8) : ℕ := l.1 + (l.2.map (wordAt src)).sum

/-- Strings back to back are in the buffer. -/
def StringsFit : List ℕ → List UInt8 → Prop
  | [], _ => True
  | n :: ns, src => StringFits n src ∧ StringsFit ns (src.drop n)

/-- The structure of a record and its strings are in the buffer. -/
def LayoutFits (l : ℕ × List ℕ) (src : List UInt8) (room : ℕ) : Prop :=
  l.1 ≤ room → (∀ o ∈ l.2, o + 4 ≤ src.length) ∧
    (announced l src ≤ room → l.1 ≤ src.length ∧ StringsFit (l.2.map (wordAt src)) (src.drop l.1))

/-- An aux record has a known type, and what is read of it is in the buffer. -/
def RecordFits (src : List UInt8) (room : ℕ) : Prop :=
  0 < room → 0 < src.length ∧ ∃ l, layout (leNat (src.take 1)) = some l ∧ LayoutFits l src room

/-- The bytes of the record at the start of a buffer, if there is room for them. -/
def recordTaken (src : List UInt8) (room : ℕ) : Option ℕ :=
  (layout (leNat (src.take 1))).bind fun l =>
    if room < announced l src then none else some (announced l src)

def RecordsFit : ℕ → List UInt8 → ℕ → Prop
  | 0, _, _ => True
  | n + 1, src, room => RecordFits src room ∧
      ∀ taken, recordTaken src room = some taken → RecordsFit n (src.drop taken) (room - taken)

/-- The room that is left after some records. -/
def recordsLeft : ℕ → List UInt8 → ℕ → Option ℕ
  | 0, _, room => some room
  | n + 1, src, room => (recordTaken src room).bind fun taken =>
      recordsLeft n (src.drop taken) (room - taken)

/-- The structure of a check result is in the buffer if there is room for it. -/
def ResultFits (src : List UInt8) (room : ℕ) : Prop :=
  StoredCheckResult.size ≤ room → StoredCheckResult.size ≤ src.length

def resultTaken (_ : List UInt8) (room : ℕ) : Option ℕ :=
  if room < StoredCheckResult.size then none else some StoredCheckResult.size

/-- Time, number and records of aux info are in the buffer. -/
def AuxInfoFits (src : List UInt8) (room : ℕ) : Prop :=
  AuxInfoImage.headSize ≤ src.length ∧
    RecordsFit (wordAt src 8) (src.drop AuxInfoImage.headSize) (room - AuxInfoImage.headSize)

def auxInfoTaken (src : List UInt8) (room : ℕ) : Option ℕ :=
  (recordsLeft (wordAt src 8) (src.drop AuxInfoImage.headSize)
    (room - AuxInfoImage.headSize)).map fun left => room - left

/-- Entries have their length in the buffer, and where the room has a whole entry, it has a
name of 1 to 127 bytes, an address and a payload that are in the buffer. -/
def EntriesFit (head : ℕ) (Fits : List UInt8 → ℕ → Prop) (taken : List UInt8 → ℕ → Option ℕ) :
    ℕ → List UInt8 → ℕ → Prop
  | 0, _, _ => True
  | n + 1, src, room =>
    let size := leNat (src.take 4)
    let fixed := 4 + size + AddressImage.size
    4 ≤ src.length ∧ (fixed + head ≤ room → 0 < size ∧ size < 128 ∧ fixed ≤ src.length ∧
      Fits (src.drop fixed) (room - fixed) ∧ ∀ t, taken (src.drop fixed) (room - fixed) = some t →
        EntriesFit head Fits taken n (src.drop (fixed + t)) (room - (fixed + t)))

/-- Names have their length in the buffer, and those that are in it are not empty. -/
def GroupNamesFit : ℕ → List UInt8 → ℕ → Prop
  | 0, _, _ => True
  | n + 1, src, room =>
    let size := leNat (src.take 4)
    4 ≤ src.length ∧ (4 + size ≤ room →
      size ≠ 0 ∧ GroupNamesFit n (src.drop (4 + size)) (room - (4 + size)))

/-- The values that are read safely: the list of group names, check results and aux info. -/
def NamesConsistent (val : List UInt8) : Prop :=
  4 ≤ val.length ∧ GroupNamesFit (leNat (val.take 4)) (val.drop 4) ((dsize val).toNat - 4)

def ResultsConsistent (val : List UInt8) : Prop :=
  4 ≤ dsize val → (Int32.ofNat (leNat (val.take 4))).toInt ≤ dsize val →
    8 ≤ val.length ∧ 0 ≤ (Int32.ofNat (wordAt val 4)).toInt ∧
      EntriesFit 0 ResultFits resultTaken (wordAt val 4) (val.drop 8) (leNat (val.take 4) - 8)

def AuxConsistent (val : List UInt8) : Prop :=
  4 ≤ dsize val → (Int8.ofNat (leNat (val.take 1))).toInt ≤ dsize val →
    8 ≤ val.length ∧ EntriesFit AuxInfoImage.headSize AuxInfoFits auxInfoTaken (wordAt val 4)
      (val.drop 8) (leNat (val.take 4) - 8)

theorem readWord_four {src : List UInt8} {offset n : ℕ} :
    readWord 4 (src.drop offset) = .ok n ↔ offset + 4 ≤ src.length ∧ n = wordAt src offset := by
  rw [readWord_eq_ok, List.length_drop, wordAt]
  constructor
  · rintro ⟨hle, hn⟩
    exact ⟨by omega, hn⟩
  · rintro ⟨hle, hn⟩
    exact ⟨by omega, hn⟩

/-- The two kinds of records are read without a fault just when they fit. -/
theorem safe_readOOB {src : List UInt8} {room : ℕ} :
    Safe (readOOB src room) ↔ LayoutFits (oobSize, [4, 8]) src room := by
  simp only [readOOB, safe_stop, safe_guard, safe_bind, readWord_four, safe_pure, and_true,
    exists_readMember, exists_and_right, exists_and_left, exists_eq_left, Nat.not_lt, and_assoc,
    LayoutFits, announced, List.forall_mem_cons, List.not_mem_nil, false_implies, implies_true,
    List.map_cons, List.map_nil, List.sum_cons, List.sum_nil, StringsFit, Nat.add_assoc,
    Nat.add_zero]

theorem safe_readLoadFB {src : List UInt8} {room : ℕ} :
    Safe (readLoadFB src room) ↔ LayoutFits (loadSize, [4, 8, 40]) src room := by
  simp only [readLoadFB, safe_stop, safe_guard, safe_bind, readWord_four, safe_pure, and_true,
    exists_readMember, exists_and_right, exists_and_left, exists_eq_left, Nat.not_lt, and_assoc,
    LayoutFits, announced, List.forall_mem_cons, List.not_mem_nil, false_implies, implies_true,
    List.map_cons, List.map_nil, List.sum_cons, List.sum_nil, StringsFit, Nat.add_assoc,
    Nat.add_zero]

/-- A record that is read has the announced size. -/
theorem size_readOOB {src : List UInt8} {room : ℕ} {o : Option AuxImage}
    (h : readOOB src room = .ok o) :
    o.map AuxImage.size = if room < announced (oobSize, [4, 8]) src then none
      else some (announced (oobSize, [4, 8]) src) := by
  have hannounced : announced (oobSize, [4, 8]) src = oobSize + wordAt src 4 + wordAt src 8 := by
    simp [announced, Nat.add_assoc]
  rw [hannounced]
  rw [readOOB] at h
  split at h
  · rename_i hroom
    obtain rfl := Except.ok.inj h
    rw [if_pos (by omega)]
    rfl
  · simp only [bind_eq_ok, readWord_four] at h
    rcases h with ⟨_, ⟨-, rfl⟩, _, ⟨-, rfl⟩, hread⟩
    split at hread
    · rename_i hshort
      obtain rfl := Except.ok.inj hread
      rw [if_pos hshort]
      rfl
    · rename_i hlong
      split at hread
      · cases hread
      · simp only [bind_eq_ok] at hread
        rcases hread with ⟨host, hhost, resource, hresource, heq⟩
        obtain rfl := Except.ok.inj heq
        rw [if_neg hlong, Option.map_some, AuxImage.size, length_readMember hhost,
          length_readMember hresource]

theorem size_readLoadFB {src : List UInt8} {room : ℕ} {o : Option AuxImage}
    (h : readLoadFB src room = .ok o) :
    o.map AuxImage.size = if room < announced (loadSize, [4, 8, 40]) src then none
      else some (announced (loadSize, [4, 8, 40]) src) := by
  have hannounced : announced (loadSize, [4, 8, 40]) src =
      loadSize + wordAt src 4 + wordAt src 8 + wordAt src 40 := by
    simp [announced, Nat.add_assoc]
  rw [hannounced]
  rw [readLoadFB] at h
  split at h
  · rename_i hroom
    obtain rfl := Except.ok.inj h
    rw [if_pos (by omega)]
    rfl
  · simp only [bind_eq_ok, readWord_four] at h
    rcases h with ⟨_, ⟨-, rfl⟩, _, ⟨-, rfl⟩, _, ⟨-, rfl⟩, hread⟩
    split at hread
    · rename_i hshort
      obtain rfl := Except.ok.inj hread
      rw [if_pos hshort]
      rfl
    · rename_i hlong
      split at hread
      · cases hread
      · simp only [bind_eq_ok] at hread
        rcases hread with ⟨host, hhost, resource, hresource, datacenter, hdatacenter, heq⟩
        obtain rfl := Except.ok.inj heq
        rw [if_neg hlong, Option.map_some, AuxImage.size, length_readMember hhost,
          length_readMember hresource, length_readMember hdatacenter]

theorem safe_deserialize {src : List UInt8} {room : ℕ} :
    Safe (AuxImage.deserialize src room) ↔ RecordFits src room := by
  simp only [AuxImage.deserialize, safe_stop, safe_bind, readWord_eq_ok, RecordFits, Nat.not_lt,
    Nat.succ_le_iff]
  apply imp_congr_right
  intro _
  constructor
  · rintro ⟨type, ⟨hsrc, rfl⟩, hsafe⟩
    refine ⟨hsrc, ?_⟩
    by_cases hoob : leNat (src.take 1) = oobFile
    · rw [if_pos hoob, safe_readOOB] at hsafe
      exact ⟨_, if_pos hoob, hsafe⟩
    · rw [if_neg hoob] at hsafe
      by_cases hload : leNat (src.take 1) = loadFile
      · rw [if_pos hload, safe_readLoadFB] at hsafe
        exact ⟨_, (if_neg hoob).trans (if_pos hload), hsafe⟩
      · rw [if_neg hload] at hsafe
        exact absurd hsafe (not_safe_error _)
  · rintro ⟨hsrc, l, hlayout, hfits⟩
    refine ⟨_, ⟨hsrc, rfl⟩, ?_⟩
    rw [layout] at hlayout
    split at hlayout
    · rename_i hoob
      obtain rfl := Option.some.inj hlayout
      rw [if_pos hoob]
      exact safe_readOOB.mpr hfits
    · rename_i hoob
      split at hlayout
      · rename_i hload
        obtain rfl := Option.some.inj hlayout
        rw [if_neg hoob, if_pos hload]
        exact safe_readLoadFB.mpr hfits
      · cases hlayout

theorem size_deserialize {src : List UInt8} {room : ℕ} {o : Option AuxImage}
    (h : AuxImage.deserialize src room = .ok o) : o.map AuxImage.size = recordTaken src room := by
  rw [AuxImage.deserialize] at h
  split at h
  · rename_i hroom
    obtain rfl := Except.ok.inj h
    -- every structure is larger than the room
    rw [recordTaken, layout]
    split
    · rw [Option.bind_some, if_pos (by simp only [announced, oobSize]; omega)]
      rfl
    · split
      · rw [Option.bind_some, if_pos (by simp only [announced, loadSize]; omega)]
        rfl
      · rfl
  · simp only [bind_eq_ok, readWord_eq_ok] at h
    rcases h with ⟨type, ⟨-, rfl⟩, hread⟩
    by_cases hoob : leNat (src.take 1) = oobFile
    · rw [if_pos hoob] at hread
      rw [size_readOOB hread, recordTaken, layout, if_pos hoob, Option.bind_some]
    · rw [if_neg hoob] at hread
      by_cases hload : leNat (src.take 1) = loadFile
      · rw [if_pos hload] at hread
        rw [size_readLoadFB hread, recordTaken, layout, if_neg hoob, if_pos hload,
          Option.bind_some]
      · rw [if_neg hload] at hread
        cases hread

theorem safe_readRecords {n : ℕ} {src : List UInt8} {room : ℕ} :
    Safe (readRecords n src room) ↔ RecordsFit n src room := by
  induction n generalizing src room with
  | zero => exact iff_of_true (safe_ok _) trivial
  | succ n ih =>
    simp only [readRecords, RecordsFit, safe_bind, ← safe_deserialize]
    constructor
    · rintro ⟨o, ho, htail⟩
      have htaken := size_deserialize ho
      cases o with
      | none =>
        refine ⟨⟨none, ho⟩, fun taken h => ?_⟩
        rw [← htaken] at h
        cases h
      | some r =>
        refine ⟨⟨some r, ho⟩, fun taken h => ?_⟩
        rw [← htaken] at h
        obtain rfl := Option.some.inj h
        rcases safe_bind.mp htail with ⟨tail, htail, -⟩
        exact ih.mp ⟨tail, htail⟩
    · rintro ⟨⟨o, ho⟩, htail⟩
      have htaken := size_deserialize ho
      refine ⟨o, ho, ?_⟩
      cases o with
      | none => exact safe_ok none
      | some r =>
        obtain ⟨tail, htail⟩ := ih.mpr (htail r.size htaken.symm)
        refine safe_bind.mpr ⟨tail, htail, ?_⟩
        cases tail with
        | none => exact safe_ok none
        | some rs => exact safe_ok _

theorem left_readRecords {n : ℕ} {src : List UInt8} {room : ℕ}
    {o : Option (List AuxImage × List UInt8 × ℕ)} (h : readRecords n src room = .ok o) :
    o.map (fun r => r.2.2) = recordsLeft n src room := by
  induction n generalizing src room o with
  | zero =>
    obtain rfl := Except.ok.inj h
    rfl
  | succ n ih =>
    rw [readRecords, bind_eq_ok] at h
    rcases h with ⟨first, hfirst, htail⟩
    have htaken := size_deserialize hfirst
    cases first with
    | none =>
      obtain rfl := Except.ok.inj htail
      rw [recordsLeft, ← htaken]
      rfl
    | some r =>
      rcases bind_eq_ok.mp htail with ⟨tail, htail, hresult⟩
      have hleft := ih htail
      rw [recordsLeft, ← htaken, Option.map_some, Option.bind_some, ← hleft]
      cases tail with
      | none =>
        obtain rfl := Except.ok.inj hresult
        rfl
      | some rs =>
        obtain rfl := Except.ok.inj hresult
        rfl

/-- Only a length that is its own first byte, read as a signed character, is taken. -/
theorem safe_readHostName {size : ℕ} {src : List UInt8} :
    Safe (readHostName size src) ↔ 0 < size ∧ size < 128 ∧ StringFits size src := by
  have hchar : (Int8.ofNat size).toInt = Int.bmod size (2 ^ 8) := Int8.toInt_ofNat
  simp only [readHostName, safe_guard, safe_readString, hchar, Int.bmod]
  constructor
  · rintro ⟨hpos, hlt, hfits⟩
    exact ⟨by omega, by omega, hfits⟩
  · rintro ⟨hpos, hlt, hfits⟩
    exact ⟨by omega, by omega, hfits⟩

theorem safe_readAddress {src : List UInt8} :
    Safe (AddressImage.read src) ↔ AddressImage.size ≤ src.length := by
  rw [AddressImage.read]
  by_cases hle : AddressImage.size ≤ src.length
  · simp [hle]
  · simp [hle]

theorem safe_readResult {src : List UInt8} {room : ℕ} :
    Safe (StoredCheckResult.read src room) ↔ ResultFits src room := by
  simp only [StoredCheckResult.read, safe_stop, safe_guard, safe_ok, and_true, Nat.not_lt,
    ResultFits]

theorem taken_readResult {src : List UInt8} {room : ℕ} {o : Option (List ℕ × ℕ)}
    (h : StoredCheckResult.read src room = .ok o) : o.map Prod.snd = resultTaken src room := by
  rw [StoredCheckResult.read] at h
  rw [resultTaken]
  split at h
  · rename_i hroom
    obtain rfl := Except.ok.inj h
    rw [if_pos hroom]
    rfl
  · rename_i hroom
    split at h
    · cases h
    · obtain rfl := Except.ok.inj h
      rw [if_neg hroom]
      rfl

theorem safe_readAuxInfo {src : List UInt8} {room : ℕ} :
    Safe (AuxInfoImage.read src room) ↔ AuxInfoFits src room := by
  simp only [AuxInfoImage.read, safe_bind, readWord_four, AuxInfoFits, AuxInfoImage.headSize,
    ← safe_readRecords]
  constructor
  · rintro ⟨_, -, _, ⟨hlen, rfl⟩, o, hrecords, -⟩
    exact ⟨hlen, o, hrecords⟩
  · rintro ⟨hlen, o, hrecords⟩
    refine ⟨_, readWord_of_le (by omega), _, ⟨hlen, rfl⟩, o, hrecords, ?_⟩
    cases o with
    | none => exact safe_ok none
    | some r => exact safe_ok _

theorem taken_readAuxInfo {src : List UInt8} {room : ℕ} {o : Option (AuxInfoImage × ℕ)}
    (h : AuxInfoImage.read src room = .ok o) : o.map Prod.snd = auxInfoTaken src room := by
  simp only [AuxInfoImage.read, bind_eq_ok, readWord_four] at h
  rcases h with ⟨_, -, _, ⟨-, rfl⟩, records, hrecords, hresult⟩
  have hleft := left_readRecords hrecords
  rw [auxInfoTaken, ← hleft]
  cases records with
  | none =>
    obtain rfl := Except.ok.inj hresult
    rfl
  | some r =>
    obtain rfl := Except.ok.inj hresult
    rfl

section Entries

variable {σ : Type} {head : ℕ} {payload : List UInt8 → ℕ → Read (Option (σ × ℕ))}
  {Fits : List UInt8 → ℕ → Prop} {taken : List UInt8 → ℕ → Option ℕ}

/-- Entries are read without a fault just when they fit, given that their payloads are. -/
theorem safe_readEntries (hsafe : ∀ src room, Safe (payload src room) ↔ Fits src room)
    (htaken : ∀ src room o, payload src room = .ok o → o.map Prod.snd = taken src room) {n : ℕ}
    {src : List UInt8} {room : ℕ} :
    Safe (readEntries head payload n src room) ↔ EntriesFit head Fits taken n src room := by
  induction n generalizing src room with
  | zero => exact iff_of_true (safe_ok _) trivial
  | succ n ih =>
    simp only [readEntries, EntriesFit, safe_bind, readWord_eq_ok]
    constructor
    · rintro ⟨_, ⟨hlen, rfl⟩, hread⟩
      refine ⟨hlen, fun hroom => ?_⟩
      rw [if_neg (Nat.not_lt.mpr hroom)] at hread
      simp only [safe_bind, List.drop_drop] at hread
      rcases hread with ⟨name, hname, address, haddress, o, ho, htail⟩
      obtain ⟨hpos, hlt, -⟩ := safe_readHostName.mp ⟨name, hname⟩
      have hfixed := safe_readAddress.mp ⟨address, haddress⟩
      rw [List.length_drop, AddressImage.size] at hfixed
      refine ⟨hpos, hlt, by rw [AddressImage.size]; omega, (hsafe _ _).mp ⟨o, ho⟩, fun t ht => ?_⟩
      rw [← htaken _ _ _ ho] at ht
      cases o with
      | none => cases ht
      | some r =>
        obtain rfl := Option.some.inj ht
        rcases safe_bind.mp htail with ⟨tail, htail, -⟩
        rw [Nat.sub_sub] at htail
        exact ih.mp ⟨tail, htail⟩
    · rintro ⟨hlen, hfits⟩
      refine ⟨_, ⟨hlen, rfl⟩, ?_⟩
      by_cases hroom : room < 4 + leNat (src.take 4) + AddressImage.size + head
      · rw [if_pos hroom]
        exact safe_ok none
      · rcases hfits (Nat.not_lt.mp hroom) with ⟨hpos, hlt, hfixed, hpayload, htail⟩
        have hname : Safe (readHostName (leNat (src.take 4)) (src.drop 4)) := by
          refine safe_readHostName.mpr ⟨hpos, hlt, Or.inl ?_⟩
          rw [List.length_drop]
          omega
        have haddress : Safe (AddressImage.read (src.drop (4 + leNat (src.take 4)))) := by
          rw [safe_readAddress, List.length_drop]
          omega
        rcases hname with ⟨name, hname⟩
        rcases haddress with ⟨address, haddress⟩
        obtain ⟨o, ho⟩ := (hsafe _ _).mpr hpayload
        rw [if_neg hroom]
        simp only [safe_bind, List.drop_drop]
        refine ⟨name, hname, address, haddress, o, ho, ?_⟩
        cases o with
        | none => exact safe_ok none
        | some r =>
          obtain ⟨tail, htail⟩ := ih.mpr (htail r.2 (htaken _ _ _ ho).symm)
          rw [← Nat.sub_sub] at htail
          refine safe_bind.mpr ⟨tail, htail, ?_⟩
          cases tail with
          | none => exact safe_ok none
          | some entries => exact safe_ok _

end Entries

theorem safe_readGroupNames {n : ℕ} {src : List UInt8} {room : ℕ} (hroom : room ≤ src.length) :
    Safe (readGroupNames n src room) ↔ GroupNamesFit n src room := by
  induction n generalizing src room with
  | zero => exact iff_of_true (safe_ok _) trivial
  | succ n ih =>
    have hrest : room - (4 + leNat (src.take 4)) ≤ (src.drop (4 + leNat (src.take 4))).length := by
      rw [List.length_drop]
      omega
    simp only [readGroupNames, GroupNamesFit, safe_bind, readWord_eq_ok, ← ih hrest]
    constructor
    · rintro ⟨_, ⟨hlen, rfl⟩, hread⟩
      refine ⟨hlen, fun hle => ?_⟩
      rw [if_neg (Nat.not_lt.mpr hle), safe_bind] at hread
      rcases hread with ⟨name, hname, hread⟩
      rcases safe_bind.mp hread with ⟨tail, htail, -⟩
      exact ⟨(safe_readName.mp ⟨name, hname⟩).1, tail, htail⟩
    · rintro ⟨hlen, hfits⟩
      refine ⟨_, ⟨hlen, rfl⟩, ?_⟩
      by_cases hshort : room < 4 + leNat (src.take 4)
      · rw [if_pos hshort]
        exact safe_ok none
      · rcases hfits (Nat.not_lt.mp hshort) with ⟨hne, tail, htail⟩
        have hname : Safe (readName (leNat (src.take 4)) (src.drop 4)) := by
          refine safe_readName.mpr ⟨hne, Or.inl ?_⟩
          rw [List.length_drop]
          omega
        rcases hname with ⟨name, hname⟩
        rw [if_neg hshort]
        refine safe_bind.mpr ⟨name, hname, safe_bind.mpr ⟨tail, htail, ?_⟩⟩
        cases tail with
        | none => exact safe_ok none
        | some names => exact safe_ok _

theorem dsize_le (val : List UInt8) : dsize val ≤ val.length := by
  have hword : dsize val = Int.bmod val.length (2 ^ 32) := Int32.toInt_ofNat
  rw [hword, Int.bmod]
  omega

theorem safe_getHostGroupNames (val : List UInt8) :
    Safe (getHostGroupNames val) ↔ NamesConsistent val := by
  have hdsize := dsize_le val
  have hroom : (dsize val).toNat - 4 ≤ (val.drop 4).length := by
    rw [List.length_drop]
    omega
  simp only [getHostGroupNames, safe_bind, readWord_eq_ok, NamesConsistent,
    ← safe_readGroupNames hroom]
  constructor
  · rintro ⟨_, ⟨hlen, rfl⟩, hread⟩
    exact ⟨hlen, hread⟩
  · rintro ⟨hlen, hread⟩
    exact ⟨_, ⟨hlen, rfl⟩, hread⟩

theorem safe_getHostGroupCheckResults (val : List UInt8) :
    Safe (getHostGroupCheckResults val) ↔ ResultsConsistent val := by
  have hdsize := dsize_le val
  simp only [getHostGroupCheckResults, safe_stop, ResultsConsistent, not_lt]
  apply imp_congr_right
  intro hfour
  rw [safe_bind]
  constructor
  · rintro ⟨_, hsize, hread⟩ hle
    rcases readWord_eq_ok.mp hsize with ⟨-, rfl⟩
    rw [if_neg (not_lt.mpr hle)] at hread
    simp only [safe_bind, readWord_four, safe_guard, not_lt] at hread
    rcases hread with ⟨_, ⟨hlen, rfl⟩, hcount, hread⟩
    exact ⟨hlen, hcount,
      (safe_readEntries (fun _ _ => safe_readResult) fun _ _ _ => taken_readResult).mp hread⟩
  · intro hfits
    refine ⟨_, readWord_of_le (by omega), ?_⟩
    by_cases hshort : dsize val < (Int32.ofNat (leNat (val.take 4))).toInt
    · rw [if_pos hshort]
      exact safe_ok none
    · rcases hfits (not_lt.mp hshort) with ⟨hlen, hcount, hentries⟩
      rw [if_neg hshort]
      simp only [safe_bind, readWord_four, safe_guard, not_lt]
      exact ⟨_, ⟨hlen, rfl⟩, hcount,
        (safe_readEntries (fun _ _ => safe_readResult) fun _ _ _ => taken_readResult).mpr hentries⟩

theorem safe_getHostGroupGroupAuxInfo (val : List UInt8) :
    Safe (getHostGroupGroupAuxInfo val) ↔ AuxConsistent val := by
  have hdsize := dsize_le val
  simp only [getHostGroupGroupAuxInfo, safe_stop, AuxConsistent, not_lt]
  apply imp_congr_right
  intro hfour
  rw [safe_bind]
  constructor
  · rintro ⟨_, hfirst, hread⟩ hle
    rcases readWord_eq_ok.mp hfirst with ⟨-, rfl⟩
    rw [if_neg (not_lt.mpr hle)] at hread
    simp only [safe_bind, readWord_four] at hread
    rcases hread with ⟨_, hsize, _, ⟨hlen, rfl⟩, hread⟩
    rcases readWord_eq_ok.mp hsize with ⟨-, rfl⟩
    exact ⟨hlen,
      (safe_readEntries (fun _ _ => safe_readAuxInfo) fun _ _ _ => taken_readAuxInfo).mp hread⟩
  · intro hfits
    refine ⟨_, readWord_of_le (by omega), ?_⟩
    by_cases hshort : dsize val < (Int8.ofNat (leNat (val.take 1))).toInt
    · rw [if_pos hshort]
      exact safe_ok none
    · rcases hfits (not_lt.mp hshort) with ⟨hlen, hentries⟩
      rw [if_neg hshort]
      simp only [safe_bind, readWord_four]
      exact ⟨_, readWord_of_le (by omega), _, ⟨hlen, rfl⟩,
        (safe_readEntries (fun _ _ => safe_readAuxInfo) fun _ _ _ => taken_readAuxInfo).mpr
          hentries⟩

/-- Each of the three kinds of values is read without a fault just when it is consistent. -/
theorem stored_values_decode_safely_iff (val : List UInt8) :
    (Safe (getHostGroupNames val) ↔ NamesConsistent val) ∧
    (Safe (getHostGroupCheckResults val) ↔ ResultsConsistent val) ∧
    (Safe (getHostGroupGroupAuxInfo val) ↔ AuxConsistent val) :=
  ⟨safe_getHostGroupNames val, safe_getHostGroupCheckResults val,
    safe_getHostGroupGroupAuxInfo val⟩

/-- An empty value and an empty group name, check results of four bytes or with an empty host
name, aux info without its number of entries or with a record of an unknown type. -/
theorem inconsistent_values_decode_unsafely :
    ¬ Safe (getHostGroupNames []) ∧ ¬ Safe (getHostGroupNames [1, 0, 0, 0, 0, 0, 0, 0]) ∧
    ¬ Safe (getHostGroupCheckResults [0, 0, 0, 0]) ∧
    ¬ Safe (getHostGroupCheckResults (leBytes 4 32 ++ leBytes 4 1 ++ List.replicate 24 0)) ∧
    ¬ Safe (getHostGroupGroupAuxInfo [0, 0, 0, 0]) ∧
    ¬ Safe (getHostGroupGroupAuxInfo (leBytes 4 46 ++ leBytes 4 1 ++ leBytes 4 1 ++ [97] ++
      List.replicate 20 0 ++ leBytes 8 0 ++ leBytes 4 1 ++ [7])) := by
  refine ⟨not_safe_of_error (e := .outside) ?_, not_safe_of_error (e := .thrown) ?_,
    not_safe_of_error (e := .outside) ?_, not_safe_of_error (e := .thrown) ?_,
    not_safe_of_error (e := .outside) ?_, not_safe_of_error (e := .null) ?_⟩
  · decide +kernel
  · decide +kernel
  · decide +kernel
  · decide +kernel
  · decide +kernel
  · decide +kernel

end ResultBytes
