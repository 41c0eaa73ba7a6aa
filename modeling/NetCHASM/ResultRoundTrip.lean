import NetCHASM.ResultBytes

/-! Records that are written and read back. Check results and aux info share the argument:
an entry is read from the front of a stream if its payload is, and the entries of a record
follow by induction. -/
namespace ResultRoundTrip

open NetCHASM ByteStream Decoding HostGroupBytes AuxBytes ResultBytes

/-! The parts of an entry. -/

theorem length_encodeAddress (a : AddressImage) : a.encode.length = AddressImage.size := by
  simp [AddressImage.encode, AddressImage.widths, AddressImage.values, AddressImage.size]

theorem readAddress_encode (a : AddressImage) (rest : List UInt8) :
    AddressImage.read (a.encode ++ rest) = .ok a := by
  have hbounded : ∀ f ∈ AddressImage.widths.zip a.values, f.2 < 256 ^ f.1 := by
    have htype : a.type.toNat < 256 ^ 1 := a.type.toNat_lt
    have hip : a.ip.toNat < 256 ^ 16 := a.ip.isLt
    simp only [AddressImage.widths, AddressImage.values, List.zip_cons_cons, List.zip_nil_right,
      List.forall_mem_cons, List.not_mem_nil, false_implies, implies_true, and_true, htype, hip,
      true_and]
    decide
  have hlength : AddressImage.widths.length = a.values.length := rfl
  have hfields : decodeFields AddressImage.widths (a.encode ++ rest) = a.values :=
    decodeFields_encodeFields hlength hbounded rest
  have hlen : AddressImage.size ≤ (a.encode ++ rest).length := by
    rw [List.length_append, length_encodeAddress]
    omega
  rw [AddressImage.read, if_pos hlen, AddressImage.decode, hfields]
  simp [AddressImage.values]

theorem length_encodeResult (r : StoredCheckResult) :
    r.encode.length = StoredCheckResult.size := by
  simp [StoredCheckResult.encode, StoredCheckResult.widths, StoredCheckResult.values,
    AddressImage.widths, AddressImage.values, StoredCheckResult.size]

theorem readResult_encode (r : StoredCheckResult) (rest : List UInt8) {room : ℕ}
    (hroom : r.encode.length ≤ room) :
    StoredCheckResult.read (r.encode ++ rest) room = .ok (some (r.values, r.encode.length)) := by
  have hbounded : ∀ f ∈ StoredCheckResult.widths.zip r.values, f.2 < 256 ^ f.1 := by
    have hbyte : ∀ x : UInt8, x.toNat < 256 ^ 1 := fun x => x.toNat_lt
    have hword16 : ∀ x : UInt16, x.toNat < 256 ^ 2 := fun x => x.toNat_lt
    have hword32 : ∀ x : UInt32, x.toNat < 256 ^ 4 := fun x => x.toNat_lt
    have hword64 : ∀ x : UInt64, x.toNat < 256 ^ 8 := fun x => x.toNat_lt
    have hip : r.address.image.ip.toNat < 256 ^ 16 := r.address.image.ip.isLt
    have hflag : r.forceHostDown.toNat < 256 ^ 1 :=
      Nat.lt_of_le_of_lt r.forceHostDown.toNat_le (by decide)
    simp only [StoredCheckResult.widths, StoredCheckResult.values, AddressImage.widths,
      AddressImage.values, List.cons_append, List.nil_append, List.zip_cons_cons,
      List.zip_nil_right, List.forall_mem_cons, List.not_mem_nil, false_implies, implies_true,
      and_true, hbyte, hword16, hword32, hword64, hip, hflag, true_and]
    decide
  have hlength : StoredCheckResult.widths.length = r.values.length := rfl
  have hfields : decodeFields StoredCheckResult.widths (r.encode ++ rest) = r.values :=
    decodeFields_encodeFields hlength hbounded rest
  have hlen : ¬ (r.encode ++ rest).length < StoredCheckResult.size := by
    rw [List.length_append, length_encodeResult]
    omega
  rw [length_encodeResult] at hroom
  rw [StoredCheckResult.read, if_neg (Nat.not_lt.mpr hroom), if_neg hlen, hfields,
    length_encodeResult]

/-- Aux info after the strings of its records have been copied. -/
def copiedInfo (a : AuxInfoImage) : AuxInfoImage := ⟨a.ts, a.auxData.map copied⟩

theorem length_encodeAuxInfo (a : AuxInfoImage) :
    a.encode.length = AuxInfoImage.headSize + (a.auxData.map AuxImage.size).sum := by
  simp only [AuxInfoImage.encode, AuxInfoImage.headSize, List.length_append, length_leBytes,
    List.length_flatMap, length_serialize]

theorem length_le_sizes (rs : List AuxImage) : rs.length ≤ (rs.map AuxImage.size).sum := by
  induction rs with
  | nil => exact Nat.le_refl 0
  | cons r rs ih =>
    have hpos : 1 ≤ r.size := by
      cases r with
      | loadFB host resource ip ts datacenter load target max =>
        simp only [AuxImage.size, AuxImage.loadSize]
        omega
      | oob host resource ip ts forceDown shed =>
        simp only [AuxImage.size, AuxImage.oobSize]
        omega
    rw [List.length_cons, List.map_cons, List.sum_cons]
    omega

theorem readAuxInfo_encode (a : AuxInfoImage) (rest : List UInt8) {room : ℕ}
    (hroom : a.encode.length ≤ room) (hfit : a.encode.length < 2 ^ 32) :
    AuxInfoImage.read (a.encode ++ rest) room = .ok (some (copiedInfo a, a.encode.length)) := by
  have hlen := length_encodeAuxInfo a
  have hcount := length_le_sizes a.auxData
  rw [hlen, AuxInfoImage.headSize] at hroom hfit
  have hts : readWord 8 (a.encode ++ rest) = .ok a.ts.toNat := by
    rw [AuxInfoImage.encode, List.append_assoc, List.append_assoc]
    exact readWord_append a.ts.toNat_lt _
  have hnumber : readWord 4 ((a.encode ++ rest).drop 8) = .ok a.auxData.length := by
    rw [AuxInfoImage.encode, List.append_assoc, List.append_assoc,
      List.drop_left' (length_leBytes _ _)]
    exact readWord_append (by omega) _
  have hrecords : (a.encode ++ rest).drop AuxInfoImage.headSize =
      a.auxData.flatMap AuxImage.serialize ++ rest := by
    rw [AuxInfoImage.encode, List.append_assoc]
    exact List.drop_left' (by simp [AuxInfoImage.headSize])
  have hleft : (a.auxData.map AuxImage.size).sum ≤ room - AuxInfoImage.headSize := by
    rw [AuxInfoImage.headSize]
    omega
  have hread := readRecords_serialize (by omega) hleft rest
  simp only [AuxInfoImage.read, hts, hnumber, hrecords, hread, bind, Except.bind]
  have htaken : room - (room - AuxInfoImage.headSize - (a.auxData.map AuxImage.size).sum) =
      a.encode.length := by
    rw [hlen, AuxInfoImage.headSize]
    omega
  rw [htaken, UInt64.ofNat_toNat]
  rfl

/-- The names that come back have 1 to 127 bytes. -/
def ShortName (name : HMString) : Prop := 0 < name.length ∧ name.length < 128

instance (name : HMString) : Decidable (ShortName name) :=
  inferInstanceAs (Decidable (0 < name.length ∧ name.length < 128))

theorem readHostName_padded {name : HMString} (h : ShortName name) (rest : List UInt8) :
    readHostName name.length (padded name.length name ++ rest) =
      .ok (padded name.length name) := by
  have hsafe : Safe (readHostName name.length (padded name.length name ++ rest)) :=
    safe_readHostName.mpr ⟨h.1, h.2, Or.inl (by simp)⟩
  rw [readHostName] at hsafe ⊢
  rw [safe_guard, safe_guard] at hsafe
  rw [if_neg hsafe.1, if_neg hsafe.2.1, readString_padded]

theorem readHostName_ne_nil {size : ℕ} {src : List UInt8} {name : HMString}
    (h : readHostName size src = .ok name) : name ≠ [] := by
  have hpos := (safe_readHostName.mp ⟨name, h⟩).1
  rw [readHostName] at h
  split at h
  · cases h
  · split at h
    · cases h
    · have hlength := length_readString h
      intro hnil
      rw [hnil, List.length_nil] at hlength
      omega

section Records

variable {ρ σ : Type} {head : ℕ} {payload : List UInt8 → ℕ → Read (Option (σ × ℕ))}
  {encode : ρ → List UInt8} {image : ρ → σ} {copy : σ → σ}

/-- An entry after its strings have been copied. -/
def copiedEntry (copy : σ → σ) (e : EntryImage σ) : EntryImage σ :=
  ⟨padded e.hostName.length e.hostName, e.address, copy e.payload⟩

theorem length_encodeEntry (e : GroupEntry ρ) :
    (e.encode encode).length =
      4 + e.hostName.length + AddressImage.size + (encode e.payload).length := by
  simp only [GroupEntry.encode, List.length_append, length_leBytes, length_padded,
    length_encodeAddress]

/-- Payloads are read back from the front of a stream, and are not shorter than their head. -/
structure Readable (head : ℕ) (payload : List UInt8 → ℕ → Read (Option (σ × ℕ)))
    (encode : ρ → List UInt8) (image : ρ → σ) (copy : σ → σ) : Prop where
  head_le : ∀ p, head ≤ (encode p).length
  read : ∀ p rest room, (encode p).length ≤ room → (encode p).length < 2 ^ 32 →
    payload (encode p ++ rest) room = .ok (some (copy (image p), (encode p).length))

/-- The entries of a record are read back just when their names are short. -/
theorem readEntries_encode (hreadable : Readable head payload encode image copy)
    {es : List (GroupEntry ρ)} (hfit : (es.map fun e => (e.encode encode).length).sum < 2 ^ 32)
    {room : ℕ} (hroom : (es.map fun e => (e.encode encode).length).sum ≤ room)
    {o : Option (List (EntryImage σ))} :
    readEntries head payload es.length (es.flatMap fun e => e.encode encode) room = .ok o ↔
      (∀ e ∈ es, ShortName e.hostName) ∧
        o = some (es.map fun e => copiedEntry copy (e.image image)) := by
  induction es generalizing room o with
  | nil => simp [readEntries, eq_comm]
  | cons e es ih =>
    have hlength : (e.encode encode).length =
        4 + e.hostName.length + AddressImage.size + (encode e.payload).length :=
      length_encodeEntry e
    have hhead := hreadable.head_le e.payload
    rw [List.map_cons, List.sum_cons, hlength] at hfit hroom
    have hbytes : ((e :: es).flatMap fun e => e.encode encode) =
        leBytes 4 e.hostName.length ++ (padded e.hostName.length e.hostName ++
          (e.address.image.encode ++
            (encode e.payload ++ es.flatMap fun e => e.encode encode))) := by
      simp [GroupEntry.encode]
    have hchecked : ¬ room < 4 + e.hostName.length + AddressImage.size + head := by omega
    rw [hbytes, List.length_cons]
    simp only [readEntries]
    rw [readWord_append (by omega), ok_bind, if_neg hchecked, List.drop_left' (length_leBytes _ _),
      ← List.drop_drop, List.drop_left' (length_leBytes _ _), List.drop_left' (length_padded _),
      List.forall_mem_cons]
    by_cases hshort : ShortName e.hostName
    · have hleft : (es.map fun e => (e.encode encode).length).sum ≤
          room - (4 + e.hostName.length + AddressImage.size) - (encode e.payload).length := by
        omega
      rw [readHostName_padded hshort, ok_bind, readAddress_encode, ok_bind,
        List.drop_left' (length_encodeAddress _),
        hreadable.read e.payload _ _ (by omega) (by omega), ok_bind]
      simp only
      rw [List.drop_left' rfl, and_iff_right hshort, bind_eq_ok]
      constructor
      · rintro ⟨tail, htail, hresult⟩
        rcases (ih (by omega) hleft).mp htail with ⟨hnames, rfl⟩
        exact ⟨hnames, (Except.ok.inj hresult).symm⟩
      · rintro ⟨hnames, rfl⟩
        exact ⟨_, (ih (by omega) hleft).mpr ⟨hnames, rfl⟩, rfl⟩
    · constructor
      · intro h
        rcases bind_eq_ok.mp h with ⟨name, hname, -⟩
        obtain ⟨hpos, hlt, -⟩ := safe_readHostName.mp ⟨name, hname⟩
        exact absurd ⟨hpos, hlt⟩ hshort
      · rintro ⟨⟨hname, -⟩, -⟩
        exact absurd hname hshort

/-- No name that is read is empty. -/
theorem hostName_ne_nil {n : ℕ} {src : List UInt8} {room : ℕ} {rs : List (EntryImage σ)}
    (h : readEntries head payload n src room = .ok (some rs)) : ∀ r ∈ rs, r.hostName ≠ [] := by
  induction n generalizing src room rs with
  | zero =>
    obtain rfl := Option.some.inj (Except.ok.inj h)
    intro r hr
    cases hr
  | succ n ih =>
    simp only [readEntries] at h
    rcases bind_eq_ok.mp h with ⟨size, -, h⟩
    split at h
    · cases h
    · simp only [bind_eq_ok] at h
      rcases h with ⟨name, hname, address, -, o, -, h⟩
      cases o with
      | none => cases h
      | some p =>
        rcases bind_eq_ok.mp h with ⟨tail, htail, hresult⟩
        cases tail with
        | none => cases hresult
        | some entries =>
          obtain rfl := Option.some.inj (Except.ok.inj hresult)
          intro r hr
          rcases List.mem_cons.mp hr with rfl | hmem
          · exact readHostName_ne_nil hname
          · exact ih htail r hmem

/-- A record is read back just when its size fits a signed word and its names are short. -/
def ReadsBack (get : List UInt8 → Read (Option (List (EntryImage σ)))) (encode : ρ → List UInt8)
    (image : ρ → σ) (copy : σ → σ) : Prop :=
  ∀ es : List (GroupEntry ρ), recordSize encode es < 2 ^ 32 → ∀ o,
    get (recordBytes encode es) = .ok o ↔
      if recordSize encode es < 2 ^ 31 then (∀ e ∈ es, ShortName e.hostName) ∧
        o = some (es.map fun e => copiedEntry copy (e.image image))
      else o = none

/-- A record is written, and the read of its key returns its entries. -/
def RoundTrips (get : List UInt8 → Read (Option (List (EntryImage σ)))) (encode : ρ → List UInt8)
    (image : ρ → σ) (old : Option (List UInt8)) (es : List (GroupEntry ρ)) : Prop :=
  ∃ rs, (writeRecord encode old es >>= fetched get) = .ok (some rs) ∧
    rs.Perm (es.map fun e => e.image image)

theorem copiedEntry_of_not_mem {e : GroupEntry ρ} (h : 0 ∉ e.hostName) :
    copiedEntry copy (e.image image) = ⟨e.hostName, e.address.image, copy (image e.payload)⟩ := by
  simp only [copiedEntry, GroupEntry.image, padded_of_not_mem h]

/-- Copies of entries are the entries up to their order just if no payload is changed by its
copy: an image that is one of the copies does not change again. -/
theorem perm_copied_iff (hcopy : ∀ x, copy (copy x) = copy x) {es : List (GroupEntry ρ)}
    (hnul : ∀ e ∈ es, 0 ∉ e.hostName) :
    (es.map fun e => copiedEntry copy (e.image image)).Perm (es.map fun e => e.image image) ↔
      ∀ e ∈ es, copy (image e.payload) = image e.payload := by
  constructor
  · intro hperm e he
    have hmem := hperm.mem_iff.mpr (List.mem_map.mpr ⟨e, he, rfl⟩)
    rcases List.mem_map.mp hmem with ⟨e', he', heq⟩
    rw [copiedEntry_of_not_mem (hnul e' he')] at heq
    have hpayload : copy (image e'.payload) = image e.payload := congrArg EntryImage.payload heq
    rw [← hpayload, hcopy]
  · intro h
    apply List.Perm.of_eq
    apply List.map_congr_left
    intro e he
    rw [copiedEntry_of_not_mem (hnul e he), h e he]
    rfl

theorem roundTrips_iff {get : List UInt8 → Read (Option (List (EntryImage σ)))}
    (hget : ReadsBack get encode image copy)
    (hnames : ∀ val rs, get val = .ok (some rs) → ∀ r ∈ rs, r.hostName ≠ [])
    (hcopy : ∀ x, copy (copy x) = copy x) {es : List (GroupEntry ρ)}
    (hnul : ∀ e ∈ es, 0 ∉ e.hostName) (old : Option (List UInt8)) :
    RoundTrips get encode image old es ↔ recordSize encode es < 2 ^ 31 ∧
      ∀ e ∈ es, ShortName e.hostName ∧ copy (image e.payload) = image e.payload := by
  rw [RoundTrips, writeRecord]
  by_cases hempty : (es.any fun e => e.hostName = []) = true
  · -- the old value stays, and no record has an empty name
    rw [if_pos hempty, ok_bind]
    rcases List.any_eq_true.mp hempty with ⟨e, he, hname⟩
    have hnil : e.hostName = [] := of_decide_eq_true hname
    constructor
    · rintro ⟨rs, hread, hperm⟩
      have hmem : e.image image ∈ rs := hperm.mem_iff.mpr (List.mem_map.mpr ⟨e, he, rfl⟩)
      cases old with
      | none => cases hread
      | some val => exact absurd hnil (hnames val rs hread _ hmem)
    · rintro ⟨-, hshort⟩
      have hpos := (hshort e he).1.1
      rw [hnil] at hpos
      exact absurd hpos (Nat.lt_irrefl 0)
  · rw [if_neg hempty]
    by_cases hword : recordSize encode es < 2 ^ 32
    · rw [if_pos hword, ok_bind]
      by_cases hsize : recordSize encode es < 2 ^ 31
      · have hiff := hget es hword
        simp only [if_pos hsize] at hiff
        simp only [fetched, hiff, and_iff_right hsize]
        constructor
        · rintro ⟨rs, ⟨hshort, hrs⟩, hperm⟩
          obtain rfl := Option.some.inj hrs
          have hsame := (perm_copied_iff hcopy hnul).mp hperm
          exact fun e he => ⟨hshort e he, hsame e he⟩
        · intro h
          refine ⟨_, ⟨fun e he => (h e he).1, rfl⟩, ?_⟩
          exact (perm_copied_iff hcopy hnul).mpr fun e he => (h e he).2
      · have hiff := hget es hword
        simp only [if_neg hsize] at hiff
        simp only [fetched, hiff]
        constructor
        · rintro ⟨rs, hrs, -⟩
          cases hrs
        · rintro ⟨hlt, -⟩
          exact absurd hlt hsize
    · rw [if_neg hword]
      constructor
      · rintro ⟨rs, hread, -⟩
        cases hread
      · rintro ⟨hlt, -⟩
        omega

end Records

/-! The bytes and the records of the store's model agree. -/

section Model

variable {ρ σ τ : Type} {ser : ρ → τ} {de : τ → ρ}

/-- An entry as the store's model returns it. -/
def returned (ser : ρ → τ) (de : τ → ρ) (e : GroupEntry ρ) : GroupEntry ρ :=
  ⟨strncpy e.hostName, e.address, false, 0, de (ser e.payload)⟩

theorem fetch_store (e : GroupEntry ρ) :
    (e.store ser).fetch de = if 0 < e.hostName.length ∧ e.hostName.length < 128 then
      some (returned ser de e) else none := by
  have hcopy : strncpy e.hostName = padded e.hostName.length e.hostName := rfl
  have hagain : strncpy (strncpy e.hostName) = strncpy e.hostName := by
    rw [hcopy, strncpy, length_padded, padded_padded]
  simp only [StoredEntry.fetch, GroupEntry.store, returned, hagain]
  rw [hcopy, length_padded]

theorem mapM_fetch_store {es rs : List (GroupEntry ρ)} :
    ((es.map fun e => e.store ser).mapM fun e => e.fetch de) = some rs ↔
      (∀ e ∈ es, ShortName e.hostName) ∧ rs = es.map (returned ser de) := by
  induction es generalizing rs with
  | nil => simp [eq_comm]
  | cons e es ih =>
    simp only [List.map_cons, List.mapM_cons, fetch_store, Option.bind_eq_bind,
      Option.bind_eq_some_iff, Option.pure_def, Option.some.injEq, ih, List.forall_mem_cons]
    constructor
    · rintro ⟨first, hfirst, tail, ⟨hshort, rfl⟩, rfl⟩
      split at hfirst
      · rename_i hname
        obtain rfl := Option.some.inj hfirst
        exact ⟨⟨hname, hshort⟩, rfl⟩
      · cases hfirst
    · rintro ⟨⟨hname, hshort⟩, rfl⟩
      exact ⟨_, if_pos hname, _, ⟨hshort, rfl⟩, rfl⟩

/-- A record that fits a signed word is read from its bytes just when the store's model
returns it, with the same entries. -/
theorem fetched_iff_readRecord {get : List UInt8 → Read (Option (List (EntryImage σ)))}
    {encode : ρ → List UInt8} {image : ρ → σ} {copy : σ → σ}
    (hget : ReadsBack get encode image copy) (hser : ∀ p, image (de (ser p)) = copy (image p))
    {es : List (GroupEntry ρ)} (hsize : recordSize encode es < 2 ^ 31)
    {rs : List (EntryImage σ)} :
    (writeRecord encode none es >>= fetched get) = .ok (some rs) ↔
      ∃ found, readRecord de (groupRecord ser es) = .found found ∧
        rs = found.map fun e => e.image image := by
  have hword : recordSize encode es < 2 ^ 32 := by omega
  have hiff := hget es hword
  simp only [if_pos hsize] at hiff
  rw [writeRecord, groupRecord]
  by_cases hempty : (es.any fun e => e.hostName = []) = true
  · rw [if_pos hempty, if_pos hempty]
    constructor
    · intro h
      cases h
    · rintro ⟨found, h, -⟩
      cases h
  · rw [if_neg hempty, if_neg hempty, if_pos hword, ok_bind, fetched, hiff, Option.some.injEq]
    have himages : ((es.map (returned ser de)).map fun e => e.image image) =
        es.map fun e => copiedEntry copy (e.image image) := by
      simp only [List.map_map, Function.comp_def, returned, GroupEntry.image, hser]
      rfl
    constructor
    · rintro ⟨hshort, rfl⟩
      refine ⟨es.map (returned ser de), ?_, himages.symm⟩
      simp only [readRecord, mapM_fetch_store.mpr ⟨hshort, rfl⟩]
    · rintro ⟨found, hfound, rfl⟩
      simp only [readRecord] at hfound
      split at hfound
      · rename_i rs hread
        rcases mapM_fetch_store.mp hread with ⟨hshort, rfl⟩
        obtain rfl := Fetch.found.inj hfound
        exact ⟨hshort, himages⟩
      · cases hfound

end Model

/-! The two kinds of records. -/

section Sizes

variable {ρ : Type} {encode : ρ → List UInt8} {es : List (GroupEntry ρ)}

theorem length_recordBytes : (recordBytes encode es).length = recordSize encode es := by
  simp only [recordBytes, recordSize, List.length_append, length_leBytes, List.length_flatMap]

/-- The size of a value that fits a signed word, and of one that fits an unsigned word only. -/
theorem dsize_recordBytes (h : recordSize encode es < 2 ^ 31) :
    dsize (recordBytes encode es) = recordSize encode es := by
  rw [dsize, length_recordBytes]
  exact Int32.toInt_ofNat_of_lt h

theorem dsize_recordBytes_neg (h : ¬ recordSize encode es < 2 ^ 31)
    (hword : recordSize encode es < 2 ^ 32) : dsize (recordBytes encode es) < 0 := by
  have hbmod : dsize (recordBytes encode es) = Int.bmod (recordSize encode es) (2 ^ 32) := by
    rw [dsize, length_recordBytes]
    exact Int32.toInt_ofNat
  rw [hbmod, Int.bmod]
  omega

theorem length_le_recordSize : es.length ≤ recordSize encode es := by
  have hle : es.length ≤ (es.map fun e => (e.encode encode).length).sum := by
    induction es with
    | nil => exact Nat.le_refl 0
    | cons e es ih =>
      have hlength : (e.encode encode).length =
          4 + e.hostName.length + AddressImage.size + (encode e.payload).length :=
        length_encodeEntry e
      rw [List.length_cons, List.map_cons, List.sum_cons]
      omega
  rw [recordSize]
  omega

/-- The two words and the entries of a record. -/
theorem recordBytes_parts (hword : recordSize encode es < 2 ^ 32) :
    readWord 4 (recordBytes encode es) = .ok (recordSize encode es) ∧
    readWord 4 ((recordBytes encode es).drop 4) = .ok es.length ∧
    (recordBytes encode es).drop 8 = es.flatMap fun e => e.encode encode := by
  have hcount : es.length ≤ recordSize encode es := length_le_recordSize
  refine ⟨?_, ?_, ?_⟩
  · rw [recordBytes, List.append_assoc]
    exact readWord_append hword _
  · rw [recordBytes, List.append_assoc, List.drop_left' (length_leBytes _ _)]
    exact readWord_append (by omega) _
  · rw [recordBytes]
    exact List.drop_left' (by simp)

end Sizes

theorem readable_checkResults :
    Readable 0 StoredCheckResult.read HMDataCheckResult.encode HMDataCheckResult.fields id where
  head_le _ := Nat.zero_le _
  read r rest _ hroom _ := readResult_encode r.serialize rest hroom

theorem readable_auxInfo :
    Readable AuxInfoImage.headSize AuxInfoImage.read HMAuxInfo.encode HMAuxInfo.image
      copiedInfo where
  head_le a := by
    rw [HMAuxInfo.encode, length_encodeAuxInfo]
    exact Nat.le_add_right _ _
  read a rest _ hroom hfit := readAuxInfo_encode a.image rest hroom hfit

theorem readsBack_checkResults :
    ReadsBack getHostGroupCheckResults HMDataCheckResult.encode HMDataCheckResult.fields id := by
  intro es hword o
  obtain ⟨hsize, hentries, hdrop⟩ := recordBytes_parts hword
  rw [getHostGroupCheckResults]
  by_cases hsigned : recordSize HMDataCheckResult.encode es < 2 ^ 31
  · have hcount : es.length ≤ recordSize HMDataCheckResult.encode es := length_le_recordSize
    have hdsize := dsize_recordBytes hsigned
    have hfour : ¬ dsize (recordBytes HMDataCheckResult.encode es) < 4 := by
      rw [hdsize, recordSize]
      omega
    have hle : ¬ dsize (recordBytes HMDataCheckResult.encode es) <
        (Int32.ofNat (recordSize HMDataCheckResult.encode es)).toInt := by
      rw [hdsize, Int32.toInt_ofNat_of_lt hsigned]
      exact lt_irrefl _
    have hnonneg : ¬ (Int32.ofNat es.length).toInt < 0 := by
      rw [Int32.toInt_ofNat_of_lt (by omega)]
      omega
    rw [if_pos hsigned, if_neg hfour, hsize, ok_bind, if_neg hle, hentries, ok_bind,
      if_neg hnonneg, hdrop]
    rw [recordSize] at hword ⊢
    exact readEntries_encode readable_checkResults (by omega) (by omega)
  · have hneg := dsize_recordBytes_neg hsigned hword
    rw [if_neg hsigned, if_pos (by omega), Except.ok.injEq, eq_comm]

theorem readWord_one {n : ℕ} (rest : List UInt8) :
    readWord 1 (leBytes 4 n ++ rest) = .ok (n % 256) := by
  have hle : 1 ≤ (leBytes 4 n ++ rest).length := by
    rw [List.length_append, length_leBytes]
    omega
  rw [readWord_of_le hle]
  simp [leBytes, leNat]

theorem readsBack_auxInfo :
    ReadsBack getHostGroupGroupAuxInfo HMAuxInfo.encode HMAuxInfo.image copiedInfo := by
  intro es hword o
  obtain ⟨hsize, hentries, hdrop⟩ := recordBytes_parts hword
  rw [getHostGroupGroupAuxInfo]
  by_cases hsigned : recordSize HMAuxInfo.encode es < 2 ^ 31
  · have hdsize := dsize_recordBytes hsigned
    have hfour : ¬ dsize (recordBytes HMAuxInfo.encode es) < 4 := by
      rw [hdsize, recordSize]
      omega
    have hfirst : readWord 1 (recordBytes HMAuxInfo.encode es) =
        .ok (recordSize HMAuxInfo.encode es % 256) := by
      rw [recordBytes, List.append_assoc]
      exact readWord_one _
    have hle : ¬ dsize (recordBytes HMAuxInfo.encode es) <
        (Int8.ofNat (recordSize HMAuxInfo.encode es % 256)).toInt := by
      have hchar : (Int8.ofNat (recordSize HMAuxInfo.encode es % 256)).toInt =
          Int.bmod (recordSize HMAuxInfo.encode es % 256 : ℕ) (2 ^ 8) := Int8.toInt_ofNat
      rw [hdsize, hchar, Int.bmod]
      omega
    rw [if_pos hsigned, if_neg hfour, hfirst, ok_bind, if_neg hle, hsize, ok_bind, hentries,
      ok_bind, hdrop]
    rw [recordSize] at hword ⊢
    exact readEntries_encode readable_auxInfo (by omega) (by omega)
  · have hneg := dsize_recordBytes_neg hsigned hword
    rw [if_neg hsigned, if_pos (by omega), Except.ok.injEq, eq_comm]

/-- The bytes of check results and of aux info give what the store's model returns. -/
theorem checkResults_agree {es : List HMGroupCheckResult}
    (hsize : recordSize HMDataCheckResult.encode es < 2 ^ 31) {rs : List (EntryImage (List ℕ))} :
    (storeHostGroupCheckResults none es >>= fetched getHostGroupCheckResults) = .ok (some rs) ↔
      ∃ found, readRecord HMDataCheckResult.deserialize
          (groupRecord HMDataCheckResult.serialize es) = .found found ∧
        rs = found.map fun e => e.image HMDataCheckResult.fields := by
  apply fetched_iff_readRecord readsBack_checkResults _ hsize
  intro r
  simp [HMDataCheckResult.fields, HMDataCheckResult.deserialize, HMDataCheckResult.serialize]

theorem auxInfo_agree {es : List HMGroupAuxResult}
    (hsize : recordSize HMAuxInfo.encode es < 2 ^ 31) {rs : List (EntryImage AuxInfoImage)} :
    (storeHostGroupAuxInfo none es >>= fetched getHostGroupGroupAuxInfo) = .ok (some rs) ↔
      ∃ found, readRecord id (groupRecord HMAuxInfo.stored es) = .found found ∧
        rs = found.map fun e => e.image HMAuxInfo.image := by
  apply fetched_iff_readRecord readsBack_auxInfo _ hsize
  intro a
  simp [HMAuxInfo.image, HMAuxInfo.stored, copiedInfo, Function.comp_def, image_stored]

theorem checkResults_ne_nil {val : List UInt8} {rs : List (EntryImage (List ℕ))}
    (h : getHostGroupCheckResults val = .ok (some rs)) : ∀ r ∈ rs, r.hostName ≠ [] := by
  rw [getHostGroupCheckResults] at h
  split at h
  · cases h
  · rcases bind_eq_ok.mp h with ⟨size, -, h⟩
    split at h
    · cases h
    · rcases bind_eq_ok.mp h with ⟨entries, -, h⟩
      split at h
      · cases h
      · exact hostName_ne_nil h

theorem auxInfo_ne_nil {val : List UInt8} {rs : List (EntryImage AuxInfoImage)}
    (h : getHostGroupGroupAuxInfo val = .ok (some rs)) : ∀ r ∈ rs, r.hostName ≠ [] := by
  rw [getHostGroupGroupAuxInfo] at h
  split at h
  · cases h
  · rcases bind_eq_ok.mp h with ⟨first, -, h⟩
    split at h
    · cases h
    · simp only [bind_eq_ok] at h
      rcases h with ⟨size, -, entries, -, h⟩
      exact hostName_ne_nil h

theorem copied_copied (r : AuxImage) : copied (copied r) = copied r := by
  cases r with
  | loadFB host resource ip ts datacenter load target max => simp [copied]
  | oob host resource ip ts forceDown shed => simp [copied]

theorem copiedInfo_copiedInfo (a : AuxInfoImage) : copiedInfo (copiedInfo a) = copiedInfo a := by
  simp [copiedInfo, Function.comp_def, copied_copied]

theorem copiedInfo_image_eq_iff (a : HMAuxInfo) :
    copiedInfo a.image = a.image ↔ ∀ r ∈ a.auxData, copied r.image = r.image := by
  simp [copiedInfo, HMAuxInfo.image]

/-- The results of a group are stored, and the read of its key returns the same ones. -/
def ChecksRoundTrip (old : Option (List UInt8)) (es : List HMGroupCheckResult) : Prop :=
  ∃ rs, (storeHostGroupCheckResults old es >>= fetched getHostGroupCheckResults) =
      .ok (some rs) ∧
    rs.Perm (es.map fun e => e.image HMDataCheckResult.fields)

def AuxRoundTrip (old : Option (List UInt8)) (es : List HMGroupAuxResult) : Prop :=
  ∃ rs, (storeHostGroupAuxInfo old es >>= fetched getHostGroupGroupAuxInfo) = .ok (some rs) ∧
    rs.Perm (es.map fun e => e.image HMAuxInfo.image)

/-- Check results come back just when the record fits a signed word and the host names are
short; the strings of aux records must also be such that copying them changes nothing. -/
theorem stored_results_round_trip_iff (old : Option (List UInt8))
    {checks : List HMGroupCheckResult} (hchecks : ∀ e ∈ checks, 0 ∉ e.hostName)
    {aux : List HMGroupAuxResult} (haux : ∀ e ∈ aux, 0 ∉ e.hostName) :
    (ChecksRoundTrip old checks ↔ recordSize HMDataCheckResult.encode checks < 2 ^ 31 ∧
      ∀ e ∈ checks, ShortName e.hostName) ∧
    (AuxRoundTrip old aux ↔ recordSize HMAuxInfo.encode aux < 2 ^ 31 ∧
      ∀ e ∈ aux, ShortName e.hostName ∧ ∀ r ∈ e.payload.auxData, copied r.image = r.image) := by
  have hresults := roundTrips_iff readsBack_checkResults (fun _ _ => checkResults_ne_nil)
    (fun _ => rfl) hchecks old
  have hinfo := roundTrips_iff readsBack_auxInfo (fun _ _ => auxInfo_ne_nil)
    copiedInfo_copiedInfo haux old
  simp only [id, and_true] at hresults
  simp only [copiedInfo_image_eq_iff] at hinfo
  exact ⟨hresults, hinfo⟩

def sampleResult (host : HMString) (ip : UInt32) : HMGroupCheckResult :=
  ⟨host, .v4 ip, false, 0, .new 0⟩

def sampleAux (host : HMString) (records : List HMAuxBase) : HMGroupAuxResult :=
  ⟨host, .v4 1, false, 0, records, 6⟩

def sampleResults : List HMGroupCheckResult :=
  [sampleResult (bytes "a") 1, sampleResult (bytes "b") 2]

/-- A host with a record of each kind, and a host without. -/
def sampleAuxes : List HMGroupAuxResult :=
  [sampleAux (bytes "a") [.oob (bytes "a") (bytes "web") (.v4 1) 5 .true 50,
      .loadFB (bytes "a") (bytes "web") (.v4 1) 5 (bytes "dc") 10 20 30],
    sampleAux (bytes "b") []]

theorem sample_records_round_trip :
    ChecksRoundTrip none sampleResults ∧ AuxRoundTrip none sampleAuxes := by
  have hchecks : ∀ e ∈ sampleResults, 0 ∉ e.hostName ∧ ShortName e.hostName := by decide
  have haux : ∀ e ∈ sampleAuxes, 0 ∉ e.hostName ∧ ShortName e.hostName ∧
      ∀ r ∈ e.payload.auxData, copied r.image = r.image := by decide
  obtain ⟨hresults, hinfo⟩ := stored_results_round_trip_iff none (fun e he => (hchecks e he).1)
    fun e he => (haux e he).1
  exact ⟨hresults.mpr ⟨by decide +kernel, fun e he => (hchecks e he).2⟩,
    hinfo.mpr ⟨by decide +kernel, fun e he => (haux e he).2⟩⟩

def longName : HMString := List.replicate 128 97

/-- A host name of 128 bytes is not read back. -/
theorem long_name_does_not_round_trip :
    0 ∉ longName ∧ ¬ ChecksRoundTrip none [sampleResult longName 1] ∧
    ¬ AuxRoundTrip none [sampleAux longName []] := by
  have hnul : 0 ∉ longName := by decide
  have hlong : ¬ ShortName longName := fun hshort => absurd hshort.2 (by simp [longName])
  refine ⟨hnul, ?_, ?_⟩
  · intro h
    have hstored := (roundTrips_iff readsBack_checkResults (fun _ _ => checkResults_ne_nil)
      (fun _ => rfl) (List.forall_mem_singleton.mpr hnul) none).mp h
    exact hlong (hstored.2 _ (List.mem_singleton.mpr rfl)).1
  · intro h
    have hstored := (roundTrips_iff readsBack_auxInfo (fun _ _ => auxInfo_ne_nil)
      copiedInfo_copiedInfo (List.forall_mem_singleton.mpr hnul) none).mp h
    exact hlong (hstored.2 _ (List.mem_singleton.mpr rfl)).1

end ResultRoundTrip
