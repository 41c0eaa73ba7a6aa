import NetCHASM.AuxXml

/-! The records of a load-feedback document, compared with those of the documents that hold one
host each. A host without a number keeps what the record object holds from the hosts before it in
the same resource. -/
namespace LoadFeedback

open NetCHASM Decoding Decimal

variable {address : HMIPAddress} {resource : HMString} {filets : HMTimeStamp} {n : XmlNode}
  {ns : List XmlNode} {info : HMAuxInfo}

def hostName (n : XmlNode) : HMString := (n.firstAttribute (bytes "name")).getD []

def isNamed (n : XmlNode) : Bool := (n.firstAttribute (bytes "name")).isSome

/-- The host nodes that the parser comes to, by the resource nodes that hold them. -/
def parsedResources : List XmlNode → List (HMString × List XmlNode)
  | [] => []
  | n :: ns =>
    match n.firstAttribute (bytes "name") with
    | none => []
    | some resource =>
      (resource, (n.nodes (bytes "host")).takeWhile isNamed) ::
        if n.nodes (bytes "host") ≠ [] ∧ (n.nodes (bytes "host")).all isNamed then parsedResources ns
        else []

/-- The time of a document, if it has one. -/
def fileTime (root : XmlNode) : Read (Option HMTimeStamp) :=
  match root.firstAttribute (bytes "updated") with
  | none => .ok none
  | some updated => readTime updated

def parsedFile (root : XmlNode) : List (HMString × List XmlNode) :=
  match fileTime root with
  | .ok (some _) => parsedResources (root.nodes (bytes "resource"))
  | _ => []

/-- The document of the same time with this host as the only one, in a resource of this name. -/
def aloneDocument (root : XmlNode) (resource : HMString) (n : XmlNode) : XmlNode :=
  match root with
  | .element name attributes value _ =>
    .element name attributes value
      [.element (bytes "resource") [(bytes "name", resource)] [] [n]]

/-- The records that the parser makes of one host alone. -/
def recordsAlone (address : HMIPAddress) (root : XmlNode) (resource : HMString) (n : XmlNode) :
    List HMAuxBase :=
  match parseNewLFB address (aloneDocument root resource n) ⟨[], 0⟩ with
  | .ok (_, info) => info.auxData
  | .error _ => []

/-- Every host of the document gives the records that it gives alone. -/
def Independent (address : HMIPAddress) (root : XmlNode) (info : HMAuxInfo) : Prop :=
  ∃ parsed info', parseNewLFB address root info = .ok (parsed, info') ∧
    info'.auxData = info.auxData ++ (parsedFile root).flatMap fun g =>
      g.2.flatMap (recordsAlone address root g.1)

/-- The number of a tag in the nearest of these hosts that has one, and zero if none has. -/
def inherited (before : List XmlNode) (tag : HMString) : Int64 :=
  match before.reverse.find? fun n => (n.firstNode tag).isSome with
  | some n => readNumber 0 n tag
  | none => 0

def numberTags : List HMString := [bytes "load", bytes "target", bytes "max"]

/-- A host without a number comes after hosts whose nearest number is zero, or after none. -/
def NothingInherited (hosts : List XmlNode) : Prop :=
  ∀ before n after, hosts = before ++ n :: after →
    ∀ tag ∈ numberTags, n.firstNode tag = none → inherited before tag = 0

/-- The product of a host's time with a thousand fits a long. -/
def TimeFits (filets : HMTimeStamp) (n : XmlNode) : Prop := Safe (readHostTime filets n)

/-- Every time that the parser reads fits a long. -/
def TimesFit (root : XmlNode) : Prop :=
  Safe (fileTime root) ∧ ∀ filets, fileTime root = .ok (some filets) →
    ∀ g ∈ parsedFile root, ∀ n ∈ g.2, TimeFits filets n

def hostTimeOf (filets : HMTimeStamp) (n : XmlNode) : HMTimeStamp :=
  match readHostTime filets n with
  | .ok ts => ts
  | .error _ => filets

/-- The record of a host that comes after these numbers. -/
def recordOf (address : HMIPAddress) (resource : HMString) (filets : HMTimeStamp)
    (load target max : Int64) (n : XmlNode) : HMAuxBase :=
  .loadFB (hostName n) resource address (hostTimeOf filets n) [] (readNumber load n (bytes "load"))
    (readNumber target n (bytes "target")) (readNumber max n (bytes "max"))

/-- The records of the hosts of a resource, with the numbers that they carry along. -/
def records (address : HMIPAddress) (resource : HMString) (filets : HMTimeStamp) :
    Int64 → Int64 → Int64 → List XmlNode → List HMAuxBase
  | _, _, _, [] => []
  | load, target, max, n :: ns =>
    recordOf address resource filets load target max n ::
      records address resource filets (readNumber load n (bytes "load"))
        (readNumber target n (bytes "target")) (readNumber max n (bytes "max")) ns

theorem hostTimeOf_of_ok {ts : HMTimeStamp} (h : readHostTime filets n = .ok ts) :
    hostTimeOf filets n = ts := by
  rw [hostTimeOf, h]

/-- Hosts whose times fit give their records, up to the first that has no name. -/
theorem parseLoadHosts_ok (address : HMIPAddress) (resource : HMString) (load target max : Int64)
    (hfit : ∀ n ∈ ns.takeWhile isNamed, TimeFits filets n) (info : HMAuxInfo) :
    parseLoadHosts address resource filets load target max ns info =
      .ok (ns.all isNamed, { info with
        auxData := info.auxData ++
          records address resource filets load target max (ns.takeWhile isNamed) }) := by
  induction ns generalizing load target max info with
  | nil => simp [parseLoadHosts, records]
  | cons n ns ih =>
    rw [parseLoadHosts]
    cases hname : n.firstAttribute (bytes "name") with
    | none => simp [isNamed, hname, records]
    | some host =>
      have hnamed : isNamed n = true := by rw [isNamed, hname]; rfl
      rw [List.takeWhile_cons_of_pos hnamed] at hfit ⊢
      obtain ⟨ts, hts⟩ := hfit n List.mem_cons_self
      have hhost : hostName n = host := by rw [hostName, hname]; rfl
      simp only [hts, ok_bind]
      rw [ih _ _ _ (fun m hm => hfit m (List.mem_cons_of_mem n hm)) _]
      simp [hnamed, records, recordOf, hhost, hostTimeOf_of_ok hts]

theorem timesFit_of_parseLoadHosts {load target max : Int64}
    (h : Safe (parseLoadHosts address resource filets load target max ns info)) :
    ∀ n ∈ ns.takeWhile isNamed, TimeFits filets n := by
  induction ns generalizing load target max info with
  | nil => simp
  | cons n ns ih =>
    rw [parseLoadHosts] at h
    cases hname : n.firstAttribute (bytes "name") with
    | none => simp [isNamed, hname]
    | some host =>
      have hnamed : isNamed n = true := by rw [isNamed, hname]; rfl
      rw [hname] at h
      rcases safe_bind.mp h with ⟨ts, hts, hrest⟩
      rw [List.takeWhile_cons_of_pos hnamed]
      intro m hm
      rcases List.mem_cons.mp hm with rfl | hm
      · exact ⟨ts, hts⟩
      · exact ih hrest m hm

/-- The records of all hosts that the parser comes to. -/
def fileRecords (address : HMIPAddress) (filets : HMTimeStamp)
    (gs : List (HMString × List XmlNode)) : List HMAuxBase :=
  gs.flatMap fun g => records address g.1 filets 0 0 0 g.2

theorem parseResources_ok (address : HMIPAddress)
    (hfit : ∀ g ∈ parsedResources ns, ∀ n ∈ g.2, TimeFits filets n) (info : HMAuxInfo) :
    ∃ parsed, parseResources .loadFile address filets ns info =
      .ok (parsed, { info with
        auxData := info.auxData ++ fileRecords address filets (parsedResources ns) }) := by
  induction ns generalizing info with
  | nil => exact ⟨true, by simp [parseResources, parsedResources, fileRecords]⟩
  | cons n ns ih =>
    rw [parseResources]
    rw [parsedResources] at hfit ⊢
    cases hname : n.firstAttribute (bytes "name") with
    | none => exact ⟨false, by simp [fileRecords]⟩
    | some resource =>
      rw [hname] at hfit
      dsimp only at hfit ⊢
      cases hhosts : n.nodes (bytes "host") with
      | nil => exact ⟨false, by simp [fileRecords, records]⟩
      | cons h hs =>
        simp only [hhosts, ne_eq, reduceCtorEq, not_false_eq_true, true_and] at hfit ⊢
        have hfirst := parseLoadHosts_ok address resource 0 0 0 (hfit _ List.mem_cons_self) info
        simp only [parseHosts, hfirst, ok_bind]
        by_cases hall : (h :: hs).all isNamed = true
        · rw [if_pos hall] at hfit
          obtain ⟨parsed, hrest⟩ := ih (fun g hg => hfit g (List.mem_cons_of_mem _ hg))
            { info with
              auxData := info.auxData ++
                records address resource filets 0 0 0 ((h :: hs).takeWhile isNamed) }
          exact ⟨parsed, by simp [hall, hrest, fileRecords]⟩
        · exact ⟨false, by simp [hall, fileRecords]; rfl⟩

theorem timesFit_of_parseResources
    (h : Safe (parseResources .loadFile address filets ns info)) :
    ∀ g ∈ parsedResources ns, ∀ n ∈ g.2, TimeFits filets n := by
  induction ns generalizing info with
  | nil => simp [parsedResources]
  | cons n ns ih =>
    rw [parseResources] at h
    rw [parsedResources]
    cases hname : n.firstAttribute (bytes "name") with
    | none => simp
    | some resource =>
      rw [hname] at h
      dsimp only at h ⊢
      cases hhosts : n.nodes (bytes "host") with
      | nil => simp
      | cons m ms =>
        rw [hhosts] at h
        rcases safe_bind.mp h with ⟨⟨parsed, info'⟩, hparsed, hrest⟩
        have hfit := timesFit_of_parseLoadHosts ⟨_, hparsed⟩
        intro g hg
        rcases List.mem_cons.mp hg with rfl | hg
        · exact hfit
        · split at hg
          · next hall =>
            have hok := parseLoadHosts_ok address resource 0 0 0 hfit info
            rw [parseHosts, hok] at hparsed
            rcases Prod.mk.inj (Except.ok.inj hparsed) with ⟨rfl, rfl⟩
            rw [if_pos hall.2] at hrest
            exact ih hrest g hg
          · cases hg

/-- The time of a document that has one. -/
def filetsOf (root : XmlNode) : HMTimeStamp :=
  match fileTime root with
  | .ok (some filets) => filets
  | _ => 0

/-- The parse after the time of the document is read. -/
theorem parseNewLFB_eq (root : XmlNode) :
    parseNewLFB address root info = fileTime root >>= fun time =>
      match time with
      | none => .ok (false, info)
      | some filets =>
        match root.nodes (bytes "resource") with
        | [] => .ok (false, { info with ts := filets })
        | resources => parseResources .loadFile address filets resources { info with ts := filets } := by
  unfold parseNewLFB parseFile fileTime
  cases root.firstAttribute (bytes "updated") with
  | none => rfl
  | some updated => rfl

/-- A document whose times fit gives the records of the hosts that the parser comes to. -/
theorem parseNewLFB_ok (address : HMIPAddress) {root : XmlNode} (h : TimesFit root)
    (info : HMAuxInfo) :
    ∃ parsed info', parseNewLFB address root info = .ok (parsed, info') ∧
      info'.auxData =
        info.auxData ++ fileRecords address (filetsOf root) (parsedFile root) := by
  rcases h with ⟨⟨time, htime⟩, hfit⟩
  rw [parseNewLFB_eq, htime, ok_bind]
  cases time with
  | none => exact ⟨false, info, rfl, by simp [parsedFile, htime, fileRecords]⟩
  | some filets =>
    have hfits := hfit filets htime
    have htsOf : filetsOf root = filets := by rw [filetsOf, htime]
    rw [parsedFile, htime] at hfits ⊢
    rw [htsOf]
    dsimp only at hfits ⊢
    split
    · next hnone =>
      rw [hnone]
      exact ⟨false, { info with ts := filets }, rfl, by simp [parsedResources, fileRecords]⟩
    · obtain ⟨parsed, hparsed⟩ := parseResources_ok address hfits { info with ts := filets }
      exact ⟨parsed, _, hparsed, rfl⟩

theorem timesFit_of_parseNewLFB {root : XmlNode} (h : Safe (parseNewLFB address root info)) :
    TimesFit root := by
  rw [parseNewLFB_eq] at h
  rcases safe_bind.mp h with ⟨time, htime, hrest⟩
  refine ⟨⟨time, htime⟩, ?_⟩
  intro filets hfilets
  obtain rfl : time = some filets := Except.ok.inj (htime.symm.trans hfilets)
  rw [parsedFile, htime]
  dsimp only at hrest ⊢
  split at hrest
  · next hnone =>
    rw [hnone]
    simp [parsedResources]
  · exact timesFit_of_parseResources hrest

/-- The hosts that the parser comes to are host nodes with a name. -/
theorem named_of_mem_parsedResources {g : HMString × List XmlNode} (hg : g ∈ parsedResources ns)
    {m : XmlNode} (hm : m ∈ g.2) : m.name = bytes "host" ∧ isNamed m = true := by
  induction ns with
  | nil => cases hg
  | cons n ns ih =>
    rw [parsedResources] at hg
    split at hg
    · cases hg
    · rcases List.mem_cons.mp hg with rfl | hg
      · have hnode := (List.takeWhile_sublist _).subset hm
        exact ⟨by simpa using (List.mem_filter.mp hnode).2, List.mem_takeWhile_imp hm⟩
      · split at hg
        · exact ih hg
        · cases hg

/-- A host alone gives the record that comes after zeros. -/
theorem recordsAlone_eq {root : XmlNode} (htime : fileTime root = .ok (some filets))
    (hname : n.name = bytes "host") (hnamed : isNamed n = true) (hfit : TimeFits filets n) :
    recordsAlone address root resource n = [recordOf address resource filets 0 0 0 n] := by
  have hsame : fileTime (aloneDocument root resource n) = .ok (some filets) := by
    cases root
    exact htime
  have hresources : parsedResources ((aloneDocument root resource n).nodes (bytes "resource")) =
      [(resource, [n])] := by
    have hnode : (aloneDocument root resource n).nodes (bytes "resource") =
        [.element (bytes "resource") [(bytes "name", resource)] [] [n]] := by
      cases root
      rfl
    have hhosts : (XmlNode.element (bytes "resource") [(bytes "name", resource)] [] [n]).nodes
        (bytes "host") = [n] := List.filter_eq_self.mpr (by simpa [XmlNode.children] using hname)
    rw [hnode, parsedResources, hhosts]
    simp [XmlNode.firstAttribute, hnamed, parsedResources]
  have hfile : parsedFile (aloneDocument root resource n) = [(resource, [n])] := by
    rw [parsedFile, hsame]
    exact hresources
  have hfits : TimesFit (aloneDocument root resource n) := by
    refine ⟨⟨_, hsame⟩, ?_⟩
    intro filets' hfilets g hg m hm
    obtain rfl : filets = filets' := Option.some.inj (Except.ok.inj (hsame.symm.trans hfilets))
    rw [hfile, List.mem_singleton] at hg
    subst hg
    rwa [List.mem_singleton.mp hm]
  obtain ⟨parsed, info', hparse, hdata⟩ := parseNewLFB_ok address hfits ⟨[], 0⟩
  have htsOf : filetsOf (aloneDocument root resource n) = filets := by rw [filetsOf, hsame]
  rw [recordsAlone, hparse]
  dsimp only
  rw [hdata, htsOf, hfile]
  rfl

/-! What a host inherits. -/

/-- The number that is carried past some hosts. -/
def carry (old : Int64) (before : List XmlNode) (tag : HMString) : Int64 :=
  before.foldl (fun old n => readNumber old n tag) old

theorem readNumber_eq_iff (old : Int64) (n : XmlNode) (tag : HMString) :
    readNumber old n tag = readNumber 0 n tag ↔ (n.firstNode tag = none → old = 0) := by
  unfold readNumber
  cases n.firstNode tag <;> simp

theorem carry_eq_inherited (before : List XmlNode) (tag : HMString) :
    carry 0 before tag = inherited before tag := by
  induction before using List.reverseRecOn with
  | nil => rfl
  | append_singleton before n ih =>
    rw [carry, List.foldl_append, inherited, List.reverse_append]
    rw [carry] at ih
    cases htag : n.firstNode tag with
    | none => simpa [readNumber, htag, inherited] using ih
    | some node => simp [readNumber, htag]

theorem forall_split_cons {α : Type} {P : List α → α → Prop} {x : α} {xs : List α} :
    (∀ before y after, x :: xs = before ++ y :: after → P before y) ↔
      P [] x ∧ ∀ before y after, xs = before ++ y :: after → P (x :: before) y := by
  constructor
  · intro h
    refine ⟨h [] x xs rfl, ?_⟩
    rintro before y after rfl
    exact h (x :: before) y after rfl
  · rintro ⟨hfirst, hrest⟩ before y after heq
    cases before with
    | nil =>
      rcases List.cons.inj heq with ⟨rfl, -⟩
      exact hfirst
    | cons x' before =>
      rcases List.cons.inj heq with ⟨rfl, htail⟩
      exact hrest before y after htail

theorem recordOf_eq_iff (load target max : Int64) (n : XmlNode) :
    recordOf address resource filets load target max n = recordOf address resource filets 0 0 0 n ↔
      (n.firstNode (bytes "load") = none → load = 0) ∧
        (n.firstNode (bytes "target") = none → target = 0) ∧
        (n.firstNode (bytes "max") = none → max = 0) := by
  simp only [recordOf, HMAuxBase.loadFB.injEq, true_and, readNumber_eq_iff]

/-- The records are those of the hosts alone, if what is carried to a host is zero wherever it
counts. -/
theorem records_eq_map_iff (load target max : Int64) (ns : List XmlNode) :
    records address resource filets load target max ns =
        ns.map (recordOf address resource filets 0 0 0) ↔
      ∀ before n after, ns = before ++ n :: after →
        (n.firstNode (bytes "load") = none → carry load before (bytes "load") = 0) ∧
          (n.firstNode (bytes "target") = none → carry target before (bytes "target") = 0) ∧
          (n.firstNode (bytes "max") = none → carry max before (bytes "max") = 0) := by
  induction ns generalizing load target max with
  | nil => simp [records]
  | cons n ns ih =>
    rw [records, List.map_cons, List.cons.injEq, recordOf_eq_iff, ih, forall_split_cons
      (P := fun before n => (n.firstNode (bytes "load") = none → carry load before (bytes "load") = 0)
        ∧ (n.firstNode (bytes "target") = none → carry target before (bytes "target") = 0) ∧
          (n.firstNode (bytes "max") = none → carry max before (bytes "max") = 0))]
    rfl

theorem records_eq_map_iff_nothingInherited (ns : List XmlNode) :
    records address resource filets 0 0 0 ns = ns.map (recordOf address resource filets 0 0 0) ↔
      NothingInherited ns := by
  rw [records_eq_map_iff]
  simp only [carry_eq_inherited, NothingInherited, numberTags, List.forall_mem_cons, List.not_mem_nil,
    false_imp_iff, implies_true, and_true]

theorem length_records (load target max : Int64) (ns : List XmlNode) :
    (records address resource filets load target max ns).length = ns.length := by
  induction ns generalizing load target max with
  | nil => rfl
  | cons n ns ih => rw [records, List.length_cons, ih, List.length_cons]

/-- Lists of lists of the same lengths have the same elements just when they agree list by list. -/
theorem flatMap_eq_flatMap_iff {α β : Type} {f g : α → List β} {xs : List α}
    (hlen : ∀ x, (f x).length = (g x).length) :
    xs.flatMap f = xs.flatMap g ↔ ∀ x ∈ xs, f x = g x := by
  induction xs with
  | nil => simp
  | cons x xs ih =>
    rw [List.flatMap_cons, List.flatMap_cons, List.forall_mem_cons, ← ih]
    constructor
    · exact fun h => List.append_inj h (hlen x)
    · rintro ⟨hfirst, hrest⟩
      rw [hfirst, hrest]

theorem fileRecords_eq_iff (gs : List (HMString × List XmlNode)) :
    fileRecords address filets gs =
        (gs.flatMap fun g => g.2.map (recordOf address g.1 filets 0 0 0)) ↔
      ∀ g ∈ gs, NothingInherited g.2 := by
  rw [fileRecords, flatMap_eq_flatMap_iff fun g => by rw [length_records, List.length_map]]
  simp only [records_eq_map_iff_nothingInherited]

/-- The records of the hosts alone, for a document whose times fit. -/
theorem flatMap_recordsAlone {root : XmlNode} (h : TimesFit root) :
    ((parsedFile root).flatMap fun g => g.2.flatMap (recordsAlone address root g.1)) =
      (parsedFile root).flatMap fun g => g.2.map (recordOf address g.1 (filetsOf root) 0 0 0) := by
  rcases h with ⟨⟨time, htime⟩, hfit⟩
  cases time with
  | none => simp [parsedFile, htime]
  | some filets =>
    have htsOf : filetsOf root = filets := by rw [filetsOf, htime]
    have hfile : parsedFile root = parsedResources (root.nodes (bytes "resource")) := by
      rw [parsedFile, htime]
    apply List.flatMap_congr
    intro g hg
    rw [htsOf, ← List.flatMap_singleton' (g.2.map _), List.flatMap_map]
    apply List.flatMap_congr
    intro n hn
    obtain ⟨hname, hnamed⟩ := named_of_mem_parsedResources (hfile ▸ hg) hn
    exact recordsAlone_eq htime hname hnamed (hfit filets htime g hg n hn)

/-- Every host gives the records that it gives alone just when no host inherits a number, and
every time can be multiplied. -/
theorem load_feedback_independent_iff (address : HMIPAddress) (root : XmlNode) (info : HMAuxInfo) :
    Independent address root info ↔
      TimesFit root ∧ ∀ g ∈ parsedFile root, NothingInherited g.2 := by
  constructor
  · rintro ⟨parsed, info', hparse, hdata⟩
    have hfit := timesFit_of_parseNewLFB ⟨_, hparse⟩
    obtain ⟨parsed', info'', hparse', hdata'⟩ := parseNewLFB_ok address hfit info
    rcases Prod.mk.inj (Except.ok.inj (hparse.symm.trans hparse')) with ⟨-, rfl⟩
    rw [flatMap_recordsAlone hfit] at hdata
    have hrecords := List.append_cancel_left (hdata'.symm.trans hdata)
    exact ⟨hfit, (fileRecords_eq_iff _).mp hrecords⟩
  · rintro ⟨hfit, hnothing⟩
    obtain ⟨parsed, info', hparse, hdata⟩ := parseNewLFB_ok address hfit info
    refine ⟨parsed, info', hparse, ?_⟩
    rw [hdata, flatMap_recordsAlone hfit, (fileRecords_eq_iff _).mpr hnothing]

/-- A host with a load and one without. -/
def sampleDocument : XmlNode :=
  .element (bytes "load-file") [(bytes "updated", bytes "1000")] []
    [.element (bytes "resource") [(bytes "name", bytes "r")] []
      [.element (bytes "host") [(bytes "name", bytes "a")] [] [.leaf (bytes "load") (bytes "90")],
        .element (bytes "host") [(bytes "name", bytes "b")] [] []]]

/-- The second host gets the load of the first. -/
theorem load_feedback_inherits :
    ¬ ∀ (address : HMIPAddress) (root : XmlNode) (info : HMAuxInfo),
      Independent address root info := by
  intro h
  obtain ⟨parsed, info', hparse, hdata⟩ := h (.v4 1) sampleDocument ⟨[], 0⟩
  have hcode : parseNewLFB (.v4 1) sampleDocument ⟨[], 0⟩ = .ok (true,
      ⟨[.loadFB (bytes "a") (bytes "r") (.v4 1) 1000000 [] 90 0 0,
        .loadFB (bytes "b") (bytes "r") (.v4 1) 1000000 [] 90 0 0], 1000000⟩) := by
    rfl
  rcases Prod.mk.inj (Except.ok.inj (hparse.symm.trans hcode)) with ⟨-, rfl⟩
  exact absurd hdata (by decide)

end LoadFeedback
