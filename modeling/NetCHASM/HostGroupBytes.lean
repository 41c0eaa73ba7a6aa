import NetCHASM.StorageRecords

/-! Host groups as bytes, in the layout that the structures of the source have on a 64-bit
little-endian machine. Enumerations are kept by their codes, since a buffer may hold any;
padding is written as zeros, and memory for a string or a list is there. -/
namespace NetCHASM

open ByteStream Decoding

/-- The address of a socket as memory holds it. -/
structure AddressImage where
  type : UInt8
  ip : BitVec 128
  deriving DecidableEq, Repr

namespace AddressImage

def widths : List ℕ := [1, 3, 16]

def values (a : AddressImage) : List ℕ := [a.type.toNat, 0, a.ip.toNat]

/-- The address that an image stands for. -/
def address (a : AddressImage) : HMIPAddress :=
  let bytes := leBytes 16 a.ip.toNat
  if a.type = afInet then .v4 (.ofNat (beNat (bytes.take 4)))
  else if a.type = afInet6 then .v6 (.ofNat 128 (beNat bytes))
  else .unset

end AddressImage

def HMIPAddress.image : HMIPAddress → AddressImage
  | .unset => ⟨afUnspec, 0⟩
  | .v4 a => ⟨afInet, .ofNat 128 (leNat (beBytes 4 a.toNat))⟩
  | .v6 a => ⟨afInet6, .ofNat 128 (leNat (beBytes 16 a.toNat))⟩

/-- The members of a group of fixed size that are stored. -/
structure GroupWords where
  measurementOptions : UInt16
  dualstack : UInt8
  checkType : UInt8
  port : UInt16
  numCheckRetries : UInt8
  checkRetryDelay : UInt32
  smoothingWindow : UInt32
  groupThreshold : UInt32
  slowThreshold : UInt32
  maxFlaps : UInt32
  checkTimeout : UInt64
  checkTTL : UInt64
  flapThreshold : UInt32
  passthroughInfo : UInt32
  distributedFallback : UInt8
  sourceAddress : AddressImage
  tosValue : UInt8
  flowType : UInt8
  deriving DecidableEq, Repr

/-- A group as memory holds it. -/
structure GroupImage extends GroupWords where
  dnsType : UInt8
  checkPlugin : UInt8
  remoteCheckType : UInt8
  groupName : HMString
  checkInfo : HMString
  remoteCheck : HMString
  hosts : List HMString
  hostGroups : List HMString
  deriving DecidableEq, Repr

structure GroupSerStruct extends GroupWords where
  groupNameSize : UInt32
  checkInfoSize : UInt32
  numHosts : UInt32
  remoteCheckSize : UInt32
  totalHostSize : UInt32
  numHostGroups : UInt32
  totalHostGroupSize : UInt32
  deriving DecidableEq, Repr

namespace GroupSerStruct

/-- The widths of the fields, with the padding between them and the plugin field that
nothing sets. -/
def widths : List ℕ :=
  [2, 1, 1, 2, 1, 1, 4, 4, 4, 4, 4, 4, 8, 8, 4, 4, 1, 3, 4, 4, 4, 4, 4, 4, 4] ++
    AddressImage.widths ++ [1, 1, 1, 1]

def values (s : GroupSerStruct) : List ℕ :=
  [s.measurementOptions.toNat, s.dualstack.toNat, s.checkType.toNat, s.port.toNat,
    s.numCheckRetries.toNat, 0, s.checkRetryDelay.toNat, s.smoothingWindow.toNat,
    s.groupThreshold.toNat, s.slowThreshold.toNat, s.maxFlaps.toNat, 0, s.checkTimeout.toNat,
    s.checkTTL.toNat, s.flapThreshold.toNat, s.passthroughInfo.toNat,
    s.distributedFallback.toNat, 0, s.groupNameSize.toNat, s.checkInfoSize.toNat,
    s.numHosts.toNat, s.remoteCheckSize.toNat, s.totalHostSize.toNat, s.numHostGroups.toNat,
    s.totalHostGroupSize.toNat] ++ s.sourceAddress.values ++
    [s.tosValue.toNat, 0, s.flowType.toNat, 0]

/-- The size of the structure. -/
def size : ℕ := 112

def encode (s : GroupSerStruct) : List UInt8 := encodeFields (widths.zip s.values)

/-- The structure at the start of a buffer that is long enough for it. -/
def decode (buf : List UInt8) : GroupSerStruct :=
  let field (i : ℕ) : ℕ := (decodeFields widths buf).getD i 0
  { measurementOptions := .ofNat (field 0)
    dualstack := .ofNat (field 1)
    checkType := .ofNat (field 2)
    port := .ofNat (field 3)
    numCheckRetries := .ofNat (field 4)
    checkRetryDelay := .ofNat (field 6)
    smoothingWindow := .ofNat (field 7)
    groupThreshold := .ofNat (field 8)
    slowThreshold := .ofNat (field 9)
    maxFlaps := .ofNat (field 10)
    checkTimeout := .ofNat (field 12)
    checkTTL := .ofNat (field 13)
    flapThreshold := .ofNat (field 14)
    passthroughInfo := .ofNat (field 15)
    distributedFallback := .ofNat (field 16)
    groupNameSize := .ofNat (field 18)
    checkInfoSize := .ofNat (field 19)
    numHosts := .ofNat (field 20)
    remoteCheckSize := .ofNat (field 21)
    totalHostSize := .ofNat (field 22)
    numHostGroups := .ofNat (field 23)
    totalHostGroupSize := .ofNat (field 24)
    sourceAddress := ⟨.ofNat (field 25), .ofNat 128 (field 27)⟩
    tosValue := .ofNat (field 28)
    flowType := .ofNat (field 30) }

/-- The size that the sizes of the structure announce; that of the remote check is not
counted. -/
def announced (s : GroupSerStruct) : ℕ :=
  size + s.groupNameSize.toNat + s.checkInfoSize.toNat + s.totalHostSize.toNat +
    s.totalHostGroupSize.toNat

theorem length_encode (s : GroupSerStruct) : (encode s).length = size := by
  rw [encode, length_encodeFields, List.map_fst_zip]
  · rfl
  · exact Nat.le_refl _

theorem decode_encode (s : GroupSerStruct) (rest : List UInt8) : decode (encode s ++ rest) = s := by
  have hbounded : ∀ f ∈ widths.zip s.values, f.2 < 256 ^ f.1 := by
    simp only [widths, values, AddressImage.widths, AddressImage.values, List.cons_append,
      List.nil_append, List.zip_cons_cons, List.zip_nil_right, List.forall_mem_cons,
      List.not_mem_nil, false_implies, implies_true, and_true]
    have hword16 : ∀ x : UInt16, x.toNat < 256 ^ 2 := fun x => x.toNat_lt
    have hword32 : ∀ x : UInt32, x.toNat < 256 ^ 4 := fun x => x.toNat_lt
    have hword64 : ∀ x : UInt64, x.toNat < 256 ^ 8 := fun x => x.toNat_lt
    have hbyte : ∀ x : UInt8, x.toNat < 256 ^ 1 := fun x => x.toNat_lt
    have hip : s.sourceAddress.ip.toNat < 256 ^ 16 := s.sourceAddress.ip.isLt
    simp only [hword16, hword32, hword64, hbyte, hip, true_and]
    decide
  have hlen : widths.length = s.values.length := rfl
  have hvalues : decodeFields widths (encode s ++ rest) = s.values :=
    decodeFields_encodeFields hlen hbounded rest
  simp only [decode, hvalues]
  simp [values, AddressImage.values]

end GroupSerStruct

namespace GroupImage

/-- The strings of a group, once its words are set and the sizes have been checked. -/
def readStrings (g : GroupImage) (ptr : GroupSerStruct) (src : List UInt8) :
    Read (Bool × GroupImage) := do
  let groupName ← readName ptr.groupNameSize.toNat src
  let src := src.drop ptr.groupNameSize.toNat
  let checkInfo ← readMember ptr.checkInfoSize.toNat g.checkInfo src
  let src := src.drop ptr.checkInfoSize.toNat
  let remoteCheck ← readMember ptr.remoteCheckSize.toNat g.remoteCheck src
  let src := src.drop ptr.remoteCheckSize.toNat
  let (hosts, src) ← readNames ptr.numHosts.toNat src
  let (hostGroups, _) ← readNames ptr.numHostGroups.toNat src
  return (true, { g with
    groupName := groupName
    checkInfo := checkInfo
    remoteCheck := remoteCheck
    hosts := hosts
    hostGroups := hostGroups })

/-- Read a group from the bytes of a buffer, or from a null pointer. -/
def deserialize (g : GroupImage) : Option (List UInt8) → Read (Bool × GroupImage)
  | none => .ok (false, g)
  | some buf =>
    if buf.length < GroupSerStruct.size then .ok (false, g)
    else
      let ptr := GroupSerStruct.decode buf
      let g := { g with toGroupWords := ptr.toGroupWords }
      if buf.length < ptr.announced then .ok (false, g)
      else g.readStrings ptr (buf.drop GroupSerStruct.size)

end GroupImage

namespace HMDataHostGroup

def words (g : HMDataHostGroup) : GroupWords where
  measurementOptions := g.measurementOptions
  dualstack := g.dualstack.code
  checkType := g.checkType.code
  port := g.port
  numCheckRetries := g.numCheckRetries
  checkRetryDelay := g.checkRetryDelay
  smoothingWindow := g.smoothingWindow
  groupThreshold := g.groupThreshold
  slowThreshold := g.slowThreshold
  maxFlaps := g.maxFlaps
  checkTimeout := g.checkTimeout
  checkTTL := g.checkTTL
  flapThreshold := g.flapThreshold
  passthroughInfo := g.passthroughInfo
  distributedFallback := g.distributedFallback.code
  sourceAddress := g.sourceAddress.image
  tosValue := g.tosValue
  flowType := g.flowType.code

def image (g : HMDataHostGroup) : GroupImage where
  toGroupWords := g.words
  dnsType := g.dnsType.code
  checkPlugin := g.checkPlugin.code
  remoteCheckType := g.remoteCheckType.code
  groupName := g.groupName
  checkInfo := g.checkInfo
  remoteCheck := g.remoteCheck
  hosts := g.hosts
  hostGroups := g.hostGroups

/-- The bytes that a list of names takes up. -/
def namesSize (names : List HMString) : ℕ := (names.map fun name => 4 + name.length).sum

def totalSize (g : HMDataHostGroup) : ℕ :=
  GroupSerStruct.size + g.groupName.length + g.checkInfo.length + g.remoteCheck.length +
    namesSize g.hosts + namesSize g.hostGroups

def serStruct (g : HMDataHostGroup) : GroupSerStruct where
  toGroupWords := g.words
  groupNameSize := .ofNat g.groupName.length
  checkInfoSize := .ofNat g.checkInfo.length
  numHosts := .ofNat g.hosts.length
  remoteCheckSize := .ofNat g.remoteCheck.length
  totalHostSize := .ofNat (namesSize g.hosts)
  numHostGroups := .ofNat g.hostGroups.length
  totalHostGroupSize := .ofNat (namesSize g.hostGroups)

/-- Write a group into a buffer of the size it asks for. That size is counted in 32 bits, so
a group that needs more is written past the end of its buffer. -/
def serialize (g : HMDataHostGroup) : Read (List UInt8) :=
  if g.totalSize < 2 ^ 32 then
    .ok (g.serStruct.encode ++ padded g.groupName.length g.groupName ++
      padded g.checkInfo.length g.checkInfo ++ padded g.remoteCheck.length g.remoteCheck ++
      writeNames g.hosts ++ writeNames g.hostGroups)
  else .error .overrun

end HMDataHostGroup

end NetCHASM

namespace HostGroupBytes

open NetCHASM ByteStream Decoding

/-- The strings that follow a structure: the name is not empty, and all that the sizes of the
check information do not cover is in the buffer. -/
def StringsFit (ptr : GroupSerStruct) (src : List UInt8) : Prop :=
  let strings := src.drop (ptr.groupNameSize.toNat + ptr.checkInfoSize.toNat)
  let lists := strings.drop ptr.remoteCheckSize.toNat
  ptr.groupNameSize ≠ 0 ∧ StringFits ptr.remoteCheckSize.toNat strings ∧
    NamesFit ptr.numHosts.toNat lists ∧
    NamesFit ptr.numHostGroups.toNat (afterNames ptr.numHosts.toNat lists)

/-- A buffer from which a group is read safely: too short for the structure, or with sizes
that it does not have and the words of the group, or with strings that fit. -/
def Consistent (g : GroupImage) : Option (List UInt8) → Prop
  | none => True
  | some buf =>
    let ptr := GroupSerStruct.decode buf
    if buf.length < GroupSerStruct.size then True
    else if buf.length < ptr.announced then ptr.toGroupWords = g.toGroupWords
    else StringsFit ptr (buf.drop GroupSerStruct.size)

/-- What decoding promises: it ends without a fault, and failing it leaves the group. -/
def DecodesSafely (g : GroupImage) (buf : Option (List UInt8)) : Prop :=
  ∃ b g', g.deserialize buf = .ok (b, g') ∧ (b = false → g' = g)

/-- The strings are read without a fault just when they fit, if the sizes that were checked
are in the buffer. -/
theorem readStrings_iff {g : GroupImage} {ptr : GroupSerStruct} {src : List UInt8}
    (hsize : ptr.groupNameSize.toNat + ptr.checkInfoSize.toNat ≤ src.length) :
    (∃ g', g.readStrings ptr src = .ok (true, g')) ↔ StringsFit ptr src := by
  have hname : Safe (readName ptr.groupNameSize.toNat src) ↔ ptr.groupNameSize ≠ 0 := by
    rw [safe_readName, ← UInt32.toNat_zero, ne_eq, UInt32.toNat_inj]
    exact and_iff_left (Or.inl (by omega))
  have hinfo : Safe (readMember ptr.checkInfoSize.toNat g.checkInfo
      (src.drop ptr.groupNameSize.toNat)) := by
    rw [safe_readMember]
    left
    rw [List.length_drop]
    omega
  simp only [GroupImage.readStrings, bind_eq_ok, StringsFit, List.drop_drop]
  constructor
  · rintro ⟨g', name, hread, info, -, remote, hremote, ⟨hosts, rest⟩, hhosts,
      ⟨hostGroups, rest'⟩, hgroups, -⟩
    obtain ⟨hfit, rfl⟩ := readNames_iff.mp ⟨hosts, hhosts⟩
    exact ⟨hname.mp ⟨name, hread⟩, safe_readMember.mp ⟨remote, hremote⟩, hfit,
      (readNames_iff.mp ⟨hostGroups, hgroups⟩).1⟩
  · rintro ⟨hne, hremote, hhosts, hgroups⟩
    obtain ⟨name, hread⟩ := hname.mpr hne
    rcases hinfo with ⟨info, hinfo⟩
    obtain ⟨remote, hremote⟩ := safe_readMember.mpr hremote
    obtain ⟨hosts, hhosts⟩ := readNames_iff.mpr ⟨hhosts, rfl⟩
    obtain ⟨hostGroups, hgroups⟩ := readNames_iff.mpr ⟨hgroups, rfl⟩
    exact ⟨_, name, hread, info, hinfo, remote, hremote, _, hhosts, _, hgroups, rfl⟩

theorem readStrings_true {g g' : GroupImage} {ptr : GroupSerStruct} {src : List UInt8} {b : Bool}
    (h : g.readStrings ptr src = .ok (b, g')) : b = true := by
  simp only [GroupImage.readStrings, bind_eq_ok] at h
  rcases h with ⟨_, -, _, -, _, -, _, -, _, -, heq⟩
  cases heq
  rfl

/-- A group is read safely from a buffer just when the buffer is consistent. -/
theorem decodes_safely_iff (g : GroupImage) (buf : Option (List UInt8)) :
    DecodesSafely g buf ↔ Consistent g buf := by
  cases buf with
  | none => exact iff_of_true ⟨false, g, rfl, fun _ => rfl⟩ trivial
  | some buf =>
    simp only [DecodesSafely, GroupImage.deserialize, Consistent]
    by_cases hshort : buf.length < GroupSerStruct.size
    · rw [if_pos hshort, if_pos hshort]
      exact iff_of_true ⟨false, g, rfl, fun _ => rfl⟩ trivial
    · rw [if_neg hshort, if_neg hshort]
      by_cases hsizes : buf.length < (GroupSerStruct.decode buf).announced
      · rw [if_pos hsizes, if_pos hsizes]
        constructor
        · rintro ⟨b, g', heq, hsame⟩
          cases heq
          exact congrArg GroupImage.toGroupWords (hsame rfl)
        · intro hwords
          refine ⟨false, _, rfl, fun _ => ?_⟩
          rw [hwords]
      · rw [if_neg hsizes, if_neg hsizes]
        have hsize : (GroupSerStruct.decode buf).groupNameSize.toNat +
            (GroupSerStruct.decode buf).checkInfoSize.toNat ≤
              (buf.drop GroupSerStruct.size).length := by
          rw [List.length_drop]
          simp only [GroupSerStruct.announced] at hsizes
          omega
        rw [← readStrings_iff hsize]
        constructor
        · rintro ⟨b, g', heq, -⟩
          obtain rfl := readStrings_true heq
          exact ⟨g', heq⟩
        · rintro ⟨g', heq⟩
          exact ⟨true, g', heq, fun hfalse => absurd hfalse (by decide)⟩

theorem not_decodesSafely_of_error {g : GroupImage} {buf : Option (List UInt8)} (fault : Fault)
    (h : g.deserialize buf = .error fault) : ¬ DecodesSafely g buf := by
  rintro ⟨b, g', heq, -⟩
  rw [h] at heq
  cases heq

theorem not_decodesSafely_of_changed {g : GroupImage} {buf : Option (List UInt8)}
    (g' : GroupImage) (h : g.deserialize buf = .ok (false, g')) (hne : g' ≠ g) :
    ¬ DecodesSafely g buf := by
  rintro ⟨b, g'', heq, hsame⟩
  rw [h] at heq
  cases heq
  exact hne (hsame rfl)

/-- A buffer of zeros announces an empty name, one whose remote check is cut off is read past
its end, and one whose name is cut off has its words taken over. -/
theorem inconsistent_buffers_decode_unsafely :
    ¬ DecodesSafely (HMDataHostGroup.new []).image (some (List.replicate 112 0)) ∧
    ¬ DecodesSafely (HMDataHostGroup.new []).image (some ((GroupSerStruct.encode
      { toGroupWords := (HMDataHostGroup.new []).words, groupNameSize := 1, checkInfoSize := 0,
        numHosts := 0, remoteCheckSize := 1, totalHostSize := 0, numHostGroups := 0,
        totalHostGroupSize := 0 }) ++ [97])) ∧
    ¬ DecodesSafely (HMDataHostGroup.new []).image (some (GroupSerStruct.encode
      { toGroupWords := { (HMDataHostGroup.new []).words with port := 80 }, groupNameSize := 1,
        checkInfoSize := 0, numHosts := 0, remoteCheckSize := 0, totalHostSize := 0,
        numHostGroups := 0, totalHostGroupSize := 0 })) := by
  refine ⟨?_, ?_, ?_⟩
  · apply not_decodesSafely_of_error .thrown
    decide +kernel
  · apply not_decodesSafely_of_error .outside
    decide +kernel
  · apply not_decodesSafely_of_changed { (HMDataHostGroup.new []).image with port := 80 }
    · decide +kernel
    · decide

/-! Groups that are written and read back. -/

variable {g : HMDataHostGroup}

theorem toNat_ofNat {n : ℕ} (h : n < 2 ^ 32) : (UInt32.ofNat n).toNat = n :=
  UInt32.toNat_ofNat_of_lt' h

theorem length_writeNames (names : List HMString) :
    (writeNames names).length = HMDataHostGroup.namesSize names := by
  simp [writeNames, HMDataHostGroup.namesSize, List.length_flatMap]

theorem namesSize_cons (name : HMString) (names : List HMString) :
    HMDataHostGroup.namesSize (name :: names) =
      4 + name.length + HMDataHostGroup.namesSize names := rfl

theorem length_le_namesSize (names : List HMString) :
    names.length ≤ HMDataHostGroup.namesSize names := by
  induction names with
  | nil => exact Nat.le_refl 0
  | cons name names ih =>
    rw [List.length_cons, namesSize_cons]
    omega

theorem length_le_of_mem {names : List HMString} {name : HMString} (h : name ∈ names) :
    name.length ≤ HMDataHostGroup.namesSize names := by
  induction names with
  | nil => cases h
  | cons first names ih =>
    rw [namesSize_cons]
    rcases List.mem_cons.mp h with rfl | hmem
    · omega
    · have hle := ih hmem
      omega

/-- What follows the structure of a group. -/
def strings (g : HMDataHostGroup) : List UInt8 :=
  padded g.groupName.length g.groupName ++ (padded g.checkInfo.length g.checkInfo ++
    (padded g.remoteCheck.length g.remoteCheck ++ (writeNames g.hosts ++ writeNames g.hostGroups)))

theorem length_strings (g : HMDataHostGroup) :
    (strings g).length = g.groupName.length + g.checkInfo.length + g.remoteCheck.length +
      HMDataHostGroup.namesSize g.hosts + HMDataHostGroup.namesSize g.hostGroups := by
  simp only [strings, List.length_append, length_padded, length_writeNames]
  omega

theorem readStrings_strings (hsize : g.totalSize < 2 ^ 32) (name : HMString) :
    GroupImage.readStrings { (HMDataHostGroup.new name).image with toGroupWords := g.words }
        g.serStruct (strings g) =
      match g.restore with
      | .found stored => .ok (true, stored.image)
      | _ => .error .thrown := by
  simp only [HMDataHostGroup.totalSize] at hsize
  have hhosts := length_le_namesSize g.hosts
  have hgroups := length_le_namesSize g.hostGroups
  have hhost : ∀ host ∈ g.hosts, host.length < 256 ^ 4 := by
    intro host hmem
    have hle := length_le_of_mem hmem
    omega
  have hgroup : ∀ group ∈ g.hostGroups, group.length < 256 ^ 4 := by
    intro group hmem
    have hle := length_le_of_mem hmem
    omega
  simp only [GroupImage.readStrings, HMDataHostGroup.serStruct]
  rw [toNat_ofNat (by omega), toNat_ofNat (by omega), toNat_ofNat (by omega),
    toNat_ofNat (by omega), toNat_ofNat (by omega), strings, readName_padded]
  rw [HMDataHostGroup.restore]
  by_cases hname : g.groupName = []
  · simp [hname, bind, Except.bind]
  · rw [if_neg hname]
    simp only [bind, Except.bind]
    rw [List.drop_left' (length_padded _), show (HMDataHostGroup.new name).image.checkInfo = [] from
      rfl, show (HMDataHostGroup.new name).image.remoteCheck = [] from rfl, readMember_padded]
    simp only
    rw [List.drop_left' (length_padded _), readMember_padded]
    simp only
    rw [List.drop_left' (length_padded _), readNames_writeNames hhost]
    by_cases hemptyHost : [] ∈ g.hosts
    · simp [hemptyHost]
    · rw [if_neg hemptyHost]
      simp only
      rw [← List.append_nil (writeNames g.hostGroups), readNames_writeNames hgroup]
      by_cases hemptyGroup : [] ∈ g.hostGroups
      · simp [hemptyGroup]
      · rw [if_neg hemptyGroup, if_neg (by simp [hname, hemptyHost, hemptyGroup])]
        rfl

/-- The bytes of a group give the group that the records of the backend return. -/
theorem deserialize_serialize (hsize : g.totalSize < 2 ^ 32) (name : HMString) :
    (g.serialize >>= fun bytes => (HMDataHostGroup.new name).image.deserialize (some bytes)) =
      match g.restore with
      | .found stored => .ok (true, stored.image)
      | _ => .error .thrown := by
  have htotal := hsize
  simp only [HMDataHostGroup.totalSize] at htotal
  have hshort : ¬ (g.serStruct.encode ++ strings g).length < GroupSerStruct.size := by
    rw [List.length_append, GroupSerStruct.length_encode]
    omega
  have hsizes : ¬ (g.serStruct.encode ++ strings g).length < g.serStruct.announced := by
    rw [List.length_append, GroupSerStruct.length_encode, length_strings]
    simp only [GroupSerStruct.announced, HMDataHostGroup.serStruct]
    rw [toNat_ofNat (by omega), toNat_ofNat (by omega), toNat_ofNat (by omega),
      toNat_ofNat (by omega)]
    omega
  have hbytes : g.serialize = .ok (g.serStruct.encode ++ strings g) := by
    simp only [HMDataHostGroup.serialize, if_pos hsize, strings, List.append_assoc]
  simp only [hbytes, ok_bind, GroupImage.deserialize, if_neg hshort, GroupSerStruct.decode_encode,
    if_neg hsizes, List.drop_left' (GroupSerStruct.length_encode g.serStruct)]
  exact readStrings_strings hsize name

/-- The strings of a group have no zero byte. -/
structure NulFree (g : HMDataHostGroup) : Prop where
  groupName : 0 ∉ g.groupName
  checkInfo : 0 ∉ g.checkInfo
  remoteCheck : 0 ∉ g.remoteCheck
  hosts : ∀ host ∈ g.hosts, 0 ∉ host
  hostGroups : ∀ group ∈ g.hostGroups, 0 ∉ group

/-- A group written and read into a fresh one gives the same checks. -/
def RoundTrips (g : HMDataHostGroup) (name : HMString) : Prop :=
  ∃ g' : HMDataHostGroup,
    (g.serialize >>= fun bytes => (HMDataHostGroup.new name).image.deserialize (some bytes)) =
      .ok (true, g'.image) ∧
    g'.getHostCheck = g.getHostCheck ∧ g'.getCheckParameters = g.getCheckParameters ∧
    g'.remoteCheckType = g.remoteCheckType ∧ g'.hosts = g.hosts ∧ g'.hostGroups = g.hostGroups

/-- The names are not empty, the size fits its word, and what is not stored has the value of
a fresh group. -/
structure Storable (g : HMDataHostGroup) : Prop where
  size : g.totalSize < 2 ^ 32
  groupName : g.groupName ≠ []
  hosts : [] ∉ g.hosts
  hostGroups : [] ∉ g.hostGroups
  remoteCheckType : g.remoteCheckType = .none
  check : g.checkType ≠ .invalid → g.dnsType = .lookup ∧ g.checkPlugin = .default

theorem strncpy_of_not_mem {s : HMString} (h : 0 ∉ s) : strncpy s = s := padded_of_not_mem h

theorem map_strncpy_of_not_mem {names : List HMString} (h : ∀ name ∈ names, 0 ∉ name) :
    names.map strncpy = names := by
  rw [List.map_congr_left fun name hname => strncpy_of_not_mem (h name hname), List.map_id']

/-- What the records return for a group without zero bytes. -/
theorem restore_of_nulFree (hnul : NulFree g) :
    g.restore = if g.groupName = [] ∨ [] ∈ g.hosts ∨ [] ∈ g.hostGroups then .raised
      else .found
        { g with dnsType := .lookup, remoteCheckType := .none, checkPlugin := .default } := by
  rw [HMDataHostGroup.restore]
  rw [strncpy_of_not_mem hnul.groupName, strncpy_of_not_mem hnul.checkInfo,
    strncpy_of_not_mem hnul.remoteCheck, map_strncpy_of_not_mem hnul.hosts,
    map_strncpy_of_not_mem hnul.hostGroups]

theorem storable_of_roundTrips (hnul : NulFree g) {name : HMString} (h : RoundTrips g name) :
    Storable g := by
  rcases h with ⟨g', hread, hcheck, -, hremote, -, -⟩
  have hsize : g.totalSize < 2 ^ 32 := by
    by_contra hlarge
    rw [HMDataHostGroup.serialize, if_neg hlarge] at hread
    cases hread
  rw [deserialize_serialize hsize, restore_of_nulFree hnul] at hread
  by_cases hempty : g.groupName = [] ∨ [] ∈ g.hosts ∨ [] ∈ g.hostGroups
  · rw [if_pos hempty] at hread
    cases hread
  · rw [if_neg hempty] at hread
    simp only [Except.ok.injEq, Prod.mk.injEq, true_and] at hread
    have hdns : g'.dnsType = .lookup :=
      DnsType.code_inj.mp (congrArg GroupImage.dnsType hread).symm
    have hplugin : g'.checkPlugin = .default :=
      CheckPluginClass.code_inj.mp (congrArg GroupImage.checkPlugin hread).symm
    have htype : g'.remoteCheckType = .none :=
      RemoteCheckType.code_inj.mp (congrArg GroupImage.remoteCheckType hread).symm
    rw [not_or, not_or] at hempty
    refine ⟨hsize, hempty.1, hempty.2.1, hempty.2.2, hremote.symm.trans htype, ?_⟩
    intro hvalid
    rw [HMDataHostGroup.getHostCheck, HMDataHostGroup.getHostCheck, if_pos hvalid] at hcheck
    split at hcheck
    · have hsame := Option.some.inj hcheck
      exact ⟨(congrArg HMDataHostCheck.dnsType hsame).symm.trans hdns,
        (congrArg HMDataHostCheck.checkPlugin hsame).symm.trans hplugin⟩
    · cases hcheck

theorem roundTrips_of_storable (hnul : NulFree g) (name : HMString) (h : Storable g) :
    RoundTrips g name := by
  have hempty : ¬ (g.groupName = [] ∨ [] ∈ g.hosts ∨ [] ∈ g.hostGroups) := by
    simp [h.groupName, h.hosts, h.hostGroups]
  refine ⟨{ g with dnsType := .lookup, remoteCheckType := .none, checkPlugin := .default }, ?_, ?_,
    rfl, h.remoteCheckType.symm, rfl, rfl⟩
  · rw [deserialize_serialize h.size, restore_of_nulFree hnul, if_neg hempty]
  · unfold HMDataHostGroup.getHostCheck
    by_cases hvalid : g.checkType = .invalid
    · simp [hvalid]
    · obtain ⟨hdns, hplugin⟩ := h.check hvalid
      simp [hvalid, ← hdns, ← hplugin, ← h.remoteCheckType]

/-- A group without zero bytes in its strings survives the backend just when it is
storable. -/
theorem round_trips_iff (hnul : NulFree g) (name : HMString) : RoundTrips g name ↔ Storable g :=
  ⟨storable_of_roundTrips hnul, roundTrips_of_storable hnul name⟩

def sampleGroup : HMDataHostGroup :=
  { HMDataHostGroup.new (bytes "web") with
    hosts := [bytes "a", bytes "b"]
    hostGroups := [bytes "front"]
    checkType := .http
    checkInfo := bytes "/status"
    port := 80 }

theorem sampleGroup_round_trips :
    NulFree sampleGroup ∧ Storable sampleGroup ∧ RoundTrips sampleGroup [] := by
  have hnul : NulFree sampleGroup := ⟨by decide, by decide, by decide, by decide, by decide⟩
  have hstorable : Storable sampleGroup :=
    ⟨by decide, by decide, by decide, by decide, by decide, fun _ => by decide⟩
  exact ⟨hnul, hstorable, (round_trips_iff hnul []).mpr hstorable⟩

/-- A group with static DNS comes back without it, and one with an empty host name does not
come back. -/
theorem static_group_does_not_round_trip :
    (NulFree { sampleGroup with dnsType := .static } ∧
      ¬ RoundTrips { sampleGroup with dnsType := .static } []) ∧
    (NulFree { sampleGroup with hosts := [[]] } ∧
      ¬ RoundTrips { sampleGroup with hosts := [[]] } []) := by
  have hstatic : NulFree { sampleGroup with dnsType := .static } :=
    ⟨by decide, by decide, by decide, by decide, by decide⟩
  have hempty : NulFree { sampleGroup with hosts := [[]] } :=
    ⟨by decide, by decide, by decide, by decide, by decide⟩
  refine ⟨⟨hstatic, ?_⟩, hempty, ?_⟩
  · intro h
    have hdns := ((storable_of_roundTrips hstatic h).check (by decide)).1
    cases hdns
  · intro h
    exact (storable_of_roundTrips hempty h).hosts (by decide)

end HostGroupBytes
