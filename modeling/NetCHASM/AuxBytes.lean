import NetCHASM.HostGroupBytes

/-! Aux records as bytes. A record starts with its type and has no length of its own: the
reader finds the next one by the size of the record that it has decoded. -/
namespace NetCHASM

open ByteStream Decoding

/-- The tags of the aux record classes. -/
def loadFile : ℕ := 0

def oobFile : ℕ := 1

def OobForcedown.code : OobForcedown → UInt8
  | .false => 0
  | .true => 1
  | .none => 2

/-- An aux record as memory holds it. -/
inductive AuxImage where
  | loadFB (host resource : HMString) (ip : AddressImage) (ts : UInt64) (datacenter : HMString)
      (load target max : UInt64)
  | oob (host resource : HMString) (ip : AddressImage) (ts : UInt64) (forceDown : UInt8)
      (shed : UInt32)
  deriving DecidableEq, Repr

def HMAuxBase.image : HMAuxBase → AuxImage
  | .loadFB host resource ip ts datacenter load target max =>
    .loadFB host resource ip.image ts.getTimeSinceEpoch datacenter load.toUInt64 target.toUInt64
      max.toUInt64
  | .oob host resource ip ts forceDown shed =>
    .oob host resource ip.image ts.getTimeSinceEpoch forceDown.code shed

namespace AuxImage

/-- The fields of the two structures, with the padding between them. -/
def loadWidths : List ℕ := [1, 3, 4, 4] ++ AddressImage.widths ++ [8, 4, 4, 8, 8, 8]

def oobWidths : List ℕ := [1, 3, 4, 4] ++ AddressImage.widths ++ [8, 1, 3, 4]

def loadSize : ℕ := 72

def oobSize : ℕ := 48

/-- The size that a record reports for itself. -/
def size : AuxImage → ℕ
  | .loadFB host resource _ _ datacenter _ _ _ =>
    loadSize + host.length + resource.length + datacenter.length
  | .oob host resource _ _ _ _ => oobSize + host.length + resource.length

/-- The structure of a record. A length is cut to its 32-bit field. -/
def serStruct : AuxImage → List UInt8
  | .loadFB host resource ip ts datacenter load target max =>
    encodeFields (loadWidths.zip ([loadFile, 0, host.length % 2 ^ 32, resource.length % 2 ^ 32] ++
      ip.values ++ [ts.toNat, datacenter.length % 2 ^ 32, 0, load.toNat, target.toNat, max.toNat]))
  | .oob host resource ip ts forceDown shed =>
    encodeFields (oobWidths.zip ([oobFile, 0, host.length % 2 ^ 32, resource.length % 2 ^ 32] ++
      ip.values ++ [ts.toNat, forceDown.toNat, 0, shed.toNat]))

def serialize : AuxImage → List UInt8
  | .loadFB host resource ip ts datacenter load target max =>
    (AuxImage.loadFB host resource ip ts datacenter load target max).serStruct ++
      padded host.length host ++ padded resource.length resource ++
      padded datacenter.length datacenter
  | .oob host resource ip ts forceDown shed =>
    (AuxImage.oob host resource ip ts forceDown shed).serStruct ++ padded host.length host ++
      padded resource.length resource

/-- A load record at the start of the bytes, if the given size has room for it. The sizes of
its strings are read before the rest of the structure. -/
def readLoadFB (src : List UInt8) (size : ℕ) : Read (Option AuxImage) :=
  if size < loadSize then .ok none
  else do
    let hostSize ← readWord 4 (src.drop 4)
    let resourceSize ← readWord 4 (src.drop 8)
    let datacenterSize ← readWord 4 (src.drop 40)
    if size < loadSize + hostSize + resourceSize + datacenterSize then .ok none
    else if src.length < loadSize then .error .outside
    else
      let field (i : ℕ) : ℕ := (decodeFields loadWidths src).getD i 0
      let strings := src.drop loadSize
      let host ← readMember hostSize [] strings
      let strings := strings.drop hostSize
      let resource ← readMember resourceSize [] strings
      let datacenter ← readMember datacenterSize [] (strings.drop resourceSize)
      return some (.loadFB host resource ⟨.ofNat (field 4), .ofNat 128 (field 6)⟩ (.ofNat (field 7))
        datacenter (.ofNat (field 10)) (.ofNat (field 11)) (.ofNat (field 12)))

/-- An out-of-band record at the start of the bytes. -/
def readOOB (src : List UInt8) (size : ℕ) : Read (Option AuxImage) :=
  if size < oobSize then .ok none
  else do
    let hostSize ← readWord 4 (src.drop 4)
    let resourceSize ← readWord 4 (src.drop 8)
    if size < oobSize + hostSize + resourceSize then .ok none
    else if src.length < oobSize then .error .outside
    else
      let field (i : ℕ) : ℕ := (decodeFields oobWidths src).getD i 0
      let strings := src.drop oobSize
      let host ← readMember hostSize [] strings
      let resource ← readMember resourceSize [] (strings.drop hostSize)
      return some (.oob host resource ⟨.ofNat (field 4), .ofNat 128 (field 6)⟩ (.ofNat (field 7))
        (.ofNat (field 8)) (.ofNat (field 10)))

/-- Read a record; an unknown type has no object to read into. -/
def deserialize (src : List UInt8) (size : ℕ) : Read (Option AuxImage) :=
  if size < 1 then .ok none
  else do
    let type ← readWord 1 src
    if type = oobFile then readOOB src size
    else if type = loadFile then readLoadFB src size
    else .error .null

/-- Read records back to back; `none` when one of them does not parse. -/
def readRecords : ℕ → List UInt8 → ℕ → Read (Option (List AuxImage × List UInt8 × ℕ))
  | 0, src, size => .ok (some ([], src, size))
  | n + 1, src, size => do
    match ← deserialize src size with
    | none => return none
    | some r =>
      match ← readRecords n (src.drop r.size) (size - r.size) with
      | none => return none
      | some (rs, rest) => return some (r :: rs, rest)

end AuxImage

end NetCHASM

namespace AuxBytes

open NetCHASM ByteStream Decoding AuxImage

/-- A record after its strings have been copied up to their first zero byte. -/
def copied : AuxImage → AuxImage
  | .loadFB host resource ip ts datacenter load target max =>
    .loadFB (padded host.length host) (padded resource.length resource) ip ts
      (padded datacenter.length datacenter) load target max
  | .oob host resource ip ts forceDown shed =>
    .oob (padded host.length host) (padded resource.length resource) ip ts forceDown shed

@[simp] theorem size_copied (r : AuxImage) : (copied r).size = r.size := by
  cases r with
  | loadFB host resource ip ts datacenter load target max => simp [copied, AuxImage.size]
  | oob host resource ip ts forceDown shed => simp [copied, AuxImage.size]

/-- The strings of a record have no zero byte. -/
def NulFree : AuxImage → Prop
  | .loadFB host resource _ _ datacenter _ _ _ => 0 ∉ host ∧ 0 ∉ resource ∧ 0 ∉ datacenter
  | .oob host resource _ _ _ _ => 0 ∉ host ∧ 0 ∉ resource

theorem length_serStruct_loadFB (host resource : HMString) (ip : AddressImage) (ts : UInt64)
    (datacenter : HMString) (load target max : UInt64) :
    (AuxImage.loadFB host resource ip ts datacenter load target max).serStruct.length =
      loadSize := by
  rw [serStruct, length_encodeFields]
  simp [loadWidths, AddressImage.widths, AddressImage.values, loadSize]

theorem length_serStruct_oob (host resource : HMString) (ip : AddressImage) (ts : UInt64)
    (forceDown : UInt8) (shed : UInt32) :
    (AuxImage.oob host resource ip ts forceDown shed).serStruct.length = oobSize := by
  rw [serStruct, length_encodeFields]
  simp [oobWidths, AddressImage.widths, AddressImage.values, oobSize]

@[simp] theorem length_serialize (r : AuxImage) : r.serialize.length = r.size := by
  cases r with
  | loadFB host resource ip ts datacenter load target max =>
    simp [serialize, size, length_serStruct_loadFB, Nat.add_assoc]
  | oob host resource ip ts forceDown shed =>
    simp [serialize, size, length_serStruct_oob, Nat.add_assoc]

/-- The sizes of the strings are the third and fourth field of both structures, and that of
the data center is the ninth of a load record. -/
theorem readWord_sizes {src : List UInt8} (h : oobSize ≤ src.length) :
    readWord 4 (src.drop 4) = .ok ((decodeFields oobWidths src).getD 2 0) ∧
      readWord 4 (src.drop 8) = .ok ((decodeFields oobWidths src).getD 3 0) := by
  simp only [oobSize] at h
  constructor
  · rw [readWord_of_le (by rw [List.length_drop]; omega)]
    simp [oobWidths, AddressImage.widths, decodeFields, List.drop_drop]
  · rw [readWord_of_le (by rw [List.length_drop]; omega)]
    simp [oobWidths, AddressImage.widths, decodeFields, List.drop_drop]

theorem readWord_load_sizes {src : List UInt8} (h : loadSize ≤ src.length) :
    readWord 4 (src.drop 4) = .ok ((decodeFields loadWidths src).getD 2 0) ∧
      readWord 4 (src.drop 8) = .ok ((decodeFields loadWidths src).getD 3 0) ∧
      readWord 4 (src.drop 40) = .ok ((decodeFields loadWidths src).getD 8 0) := by
  simp only [loadSize] at h
  refine ⟨?_, ?_, ?_⟩
  · rw [readWord_of_le (by rw [List.length_drop]; omega)]
    simp [loadWidths, AddressImage.widths, decodeFields, List.drop_drop]
  · rw [readWord_of_le (by rw [List.length_drop]; omega)]
    simp [loadWidths, AddressImage.widths, decodeFields, List.drop_drop]
  · rw [readWord_of_le (by rw [List.length_drop]; omega)]
    simp [loadWidths, AddressImage.widths, decodeFields, List.drop_drop]

section Fields

variable {host resource datacenter : HMString} {ip : AddressImage} {ts load target max : UInt64}
  {forceDown : UInt8} {shed : UInt32}

theorem bounded_length (s : HMString) : s.length % 2 ^ 32 < 256 ^ 4 :=
  Nat.mod_lt _ (by decide)

theorem decodeFields_loadFB (rest : List UInt8) :
    decodeFields loadWidths
        ((AuxImage.loadFB host resource ip ts datacenter load target max).serStruct ++ rest) =
      [loadFile, 0, host.length % 2 ^ 32, resource.length % 2 ^ 32] ++ ip.values ++
        [ts.toNat, datacenter.length % 2 ^ 32, 0, load.toNat, target.toNat, max.toNat] := by
  apply decodeFields_encodeFields
  · rfl
  · have hword : ∀ x : UInt64, x.toNat < 256 ^ 8 := fun x => x.toNat_lt
    have htype : ip.type.toNat < 256 ^ 1 := ip.type.toNat_lt
    have hip : ip.ip.toNat < 256 ^ 16 := ip.ip.isLt
    simp only [loadWidths, AddressImage.widths, AddressImage.values, List.cons_append,
      List.nil_append, List.zip_cons_cons, List.zip_nil_right, List.forall_mem_cons,
      List.not_mem_nil, false_implies, implies_true, and_true, bounded_length, hword, htype, hip,
      true_and]
    decide

theorem decodeFields_oob (rest : List UInt8) :
    decodeFields oobWidths ((AuxImage.oob host resource ip ts forceDown shed).serStruct ++ rest) =
      [oobFile, 0, host.length % 2 ^ 32, resource.length % 2 ^ 32] ++ ip.values ++
        [ts.toNat, forceDown.toNat, 0, shed.toNat] := by
  apply decodeFields_encodeFields
  · rfl
  · have hbyte : ∀ x : UInt8, x.toNat < 256 ^ 1 := fun x => x.toNat_lt
    have hts : ts.toNat < 256 ^ 8 := ts.toNat_lt
    have hshed : shed.toNat < 256 ^ 4 := shed.toNat_lt
    have hip : ip.ip.toNat < 256 ^ 16 := ip.ip.isLt
    simp only [oobWidths, AddressImage.widths, AddressImage.values, List.cons_append,
      List.nil_append, List.zip_cons_cons, List.zip_nil_right, List.forall_mem_cons,
      List.not_mem_nil, false_implies, implies_true, and_true, bounded_length, hbyte, hts, hshed,
      hip, true_and]
    decide

theorem readLoadFB_serialize
    (hfit : (AuxImage.loadFB host resource ip ts datacenter load target max).size < 2 ^ 32)
    {size : ℕ}
    (hsize : (AuxImage.loadFB host resource ip ts datacenter load target max).size ≤ size)
    (rest : List UInt8) :
    readLoadFB ((AuxImage.loadFB host resource ip ts datacenter load target max).serStruct ++
        (padded host.length host ++ (padded resource.length resource ++
          (padded datacenter.length datacenter ++ rest)))) size =
      .ok (some (copied (.loadFB host resource ip ts datacenter load target max))) := by
  simp only [AuxImage.size] at hfit hsize
  generalize hstrings : padded host.length host ++ (padded resource.length resource ++
    (padded datacenter.length datacenter ++ rest)) = strings
  have hstruct := length_serStruct_loadFB host resource ip ts datacenter load target max
  have hlen : loadSize ≤ ((AuxImage.loadFB host resource ip ts datacenter load target
      max).serStruct ++ strings).length := by
    rw [List.length_append, hstruct]
    omega
  obtain ⟨h₁, h₂, h₃⟩ := readWord_load_sizes hlen
  rw [decodeFields_loadFB] at h₁ h₂ h₃
  simp only [AddressImage.values, List.cons_append, List.nil_append, List.getD_cons_zero,
    List.getD_cons_succ] at h₁ h₂ h₃
  rw [Nat.mod_eq_of_lt (by omega)] at h₁ h₂ h₃
  have hroom : ¬ size < loadSize := by omega
  have hsizes : ¬ size < loadSize + host.length + resource.length + datacenter.length := by omega
  simp only [readLoadFB, if_neg hroom, h₁, h₂, h₃, bind, Except.bind, if_neg hsizes,
    if_neg (Nat.not_lt.mpr hlen), List.drop_left' hstruct, decodeFields_loadFB]
  rw [← hstrings, readMember_padded]
  simp only
  rw [List.drop_left' (length_padded host), readMember_padded]
  simp only
  rw [List.drop_left' (length_padded resource), readMember_padded]
  simp [AddressImage.values, copied, pure, Except.pure]

theorem readOOB_serialize
    (hfit : (AuxImage.oob host resource ip ts forceDown shed).size < 2 ^ 32) {size : ℕ}
    (hsize : (AuxImage.oob host resource ip ts forceDown shed).size ≤ size) (rest : List UInt8) :
    readOOB ((AuxImage.oob host resource ip ts forceDown shed).serStruct ++
        (padded host.length host ++ (padded resource.length resource ++ rest))) size =
      .ok (some (copied (.oob host resource ip ts forceDown shed))) := by
  simp only [AuxImage.size] at hfit hsize
  generalize hstrings : padded host.length host ++ (padded resource.length resource ++ rest) =
    strings
  have hstruct := length_serStruct_oob host resource ip ts forceDown shed
  have hlen : oobSize ≤
      ((AuxImage.oob host resource ip ts forceDown shed).serStruct ++ strings).length := by
    rw [List.length_append, hstruct]
    omega
  obtain ⟨h₁, h₂⟩ := readWord_sizes hlen
  rw [decodeFields_oob] at h₁ h₂
  simp only [AddressImage.values, List.cons_append, List.nil_append, List.getD_cons_zero,
    List.getD_cons_succ] at h₁ h₂
  rw [Nat.mod_eq_of_lt (by omega)] at h₁ h₂
  have hroom : ¬ size < oobSize := by omega
  have hsizes : ¬ size < oobSize + host.length + resource.length := by omega
  simp only [readOOB, if_neg hroom, h₁, h₂, bind, Except.bind, if_neg hsizes,
    if_neg (Nat.not_lt.mpr hlen), List.drop_left' hstruct, decodeFields_oob]
  rw [← hstrings, readMember_padded]
  simp only
  rw [List.drop_left' (length_padded host), readMember_padded]
  simp [AddressImage.values, copied, pure, Except.pure]

end Fields

/-- The first byte of a record is its type. -/
theorem readWord_type (r : AuxImage) (rest : List UInt8) :
    readWord 1 (r.serStruct ++ rest) = .ok (match r with
      | .loadFB _ _ _ _ _ _ _ _ => loadFile
      | .oob _ _ _ _ _ _ => oobFile) := by
  cases r with
  | loadFB host resource ip ts datacenter load target max =>
    rw [serStruct, loadWidths, encodeFields]
    exact readWord_append (by decide) _
  | oob host resource ip ts forceDown shed =>
    rw [serStruct, oobWidths, encodeFields]
    exact readWord_append (by decide) _

/-- A record is read back from the front of a stream that has room for it. -/
theorem deserialize_serialize {r : AuxImage} (hfit : r.size < 2 ^ 32) {size : ℕ}
    (hsize : r.size ≤ size) (rest : List UInt8) :
    AuxImage.deserialize (r.serialize ++ rest) size = .ok (some (copied r)) := by
  cases r with
  | loadFB host resource ip ts datacenter load target max =>
    have hroom : ¬ size < 1 := by
      simp only [AuxImage.size, loadSize] at hsize
      omega
    simp only [serialize, List.append_assoc, AuxImage.deserialize, if_neg hroom]
    rw [readWord_type]
    exact readLoadFB_serialize hfit hsize rest
  | oob host resource ip ts forceDown shed =>
    have hroom : ¬ size < 1 := by
      simp only [AuxImage.size, oobSize] at hsize
      omega
    simp only [serialize, List.append_assoc, AuxImage.deserialize, if_neg hroom]
    rw [readWord_type]
    exact readOOB_serialize hfit hsize rest

/-- Records are read back from the front of a stream, and the reader stands after them. -/
theorem readRecords_serialize {rs : List AuxImage} (hfit : (rs.map AuxImage.size).sum < 2 ^ 32)
    {size : ℕ} (hsize : (rs.map AuxImage.size).sum ≤ size) (rest : List UInt8) :
    readRecords rs.length (rs.flatMap AuxImage.serialize ++ rest) size =
      .ok (some (rs.map copied, rest, size - (rs.map AuxImage.size).sum)) := by
  induction rs generalizing size with
  | nil => rfl
  | cons r rs ih =>
    rw [List.map_cons, List.sum_cons] at hfit hsize
    have hfirst := deserialize_serialize (by omega : r.size < 2 ^ 32) (by omega : r.size ≤ size)
      (rs.flatMap AuxImage.serialize ++ rest)
    have htail := ih (by omega) (by omega : (rs.map AuxImage.size).sum ≤ size - r.size)
    rw [List.length_cons, List.flatMap_cons, List.append_assoc, readRecords, hfirst]
    simp only [bind, Except.bind, size_copied]
    rw [List.drop_left' (length_serialize r), htail, List.map_cons, List.map_cons, List.sum_cons,
      Nat.sub_sub]
    rfl

theorem copied_of_nulFree {r : AuxImage} (h : NulFree r) : copied r = r := by
  cases r with
  | loadFB host resource ip ts datacenter load target max =>
    rcases h with ⟨hhost, hresource, hdatacenter⟩
    rw [copied, padded_of_not_mem hhost, padded_of_not_mem hresource,
      padded_of_not_mem hdatacenter]
  | oob host resource ip ts forceDown shed =>
    rcases h with ⟨hhost, hresource⟩
    rw [copied, padded_of_not_mem hhost, padded_of_not_mem hresource]

theorem map_copied_of_nulFree {rs : List AuxImage} (h : ∀ r ∈ rs, NulFree r) :
    rs.map copied = rs := by
  rw [List.map_congr_left fun r hr => copied_of_nulFree (h r hr), List.map_id']

/-- A record as the model of the backend returns it is the copy that its bytes give. -/
theorem image_stored (r : HMAuxBase) : r.stored.image = copied r.image := by
  cases r with
  | loadFB host resource ip ts datacenter load target max =>
    rw [HMAuxBase.stored, HMAuxBase.image, HMTimeStamp.getTimeSinceEpoch_ofUInt64]
    rfl
  | oob host resource ip ts forceDown shed =>
    rw [HMAuxBase.stored, HMAuxBase.image, HMTimeStamp.getTimeSinceEpoch_ofUInt64]
    rfl

/-- Records without zero bytes in their strings, written back to back, are read back in order
up to the end of the stream. -/
theorem aux_stream_read_back {rs : List AuxImage} (hnul : ∀ r ∈ rs, NulFree r)
    (hsize : (rs.map AuxImage.size).sum < 2 ^ 31) :
    readRecords rs.length (rs.flatMap AuxImage.serialize)
        (rs.flatMap AuxImage.serialize).length = .ok (some (rs, [], 0)) := by
  have hlength : (rs.flatMap AuxImage.serialize).length = (rs.map AuxImage.size).sum := by
    rw [List.length_flatMap]
    simp only [length_serialize]
  have hread := readRecords_serialize (by omega : (rs.map AuxImage.size).sum < 2 ^ 32)
    (Nat.le_refl _) []
  rw [List.append_nil, Nat.sub_self, map_copied_of_nulFree hnul] at hread
  rw [hlength]
  exact hread

/-- A stream of both kinds of records, one of them without strings. -/
def sampleStream : List AuxImage :=
  [.loadFB (bytes "a") (bytes "web") (HMIPAddress.v4 1).image 5 (bytes "east") 10 20 30,
    .oob [] [] HMIPAddress.unset.image 6 OobForcedown.true.code 50]

theorem sampleStream_read_back :
    (∀ r ∈ sampleStream, NulFree r) ∧ (sampleStream.map AuxImage.size).sum < 2 ^ 31 ∧
    readRecords sampleStream.length (sampleStream.flatMap AuxImage.serialize)
      (sampleStream.flatMap AuxImage.serialize).length = .ok (some (sampleStream, [], 0)) := by
  have hnul : ∀ r ∈ sampleStream, NulFree r := by
    intro r hr
    simp only [sampleStream, List.mem_cons, List.not_mem_nil, or_false] at hr
    rcases hr with rfl | rfl
    · exact ⟨by decide, by decide, by decide⟩
    · exact ⟨by decide, by decide⟩
  have hsize : (sampleStream.map AuxImage.size).sum < 2 ^ 31 := by decide +kernel
  exact ⟨hnul, hsize, aux_stream_read_back hnul hsize⟩

end AuxBytes
