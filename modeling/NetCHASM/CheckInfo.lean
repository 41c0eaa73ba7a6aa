import NetCHASM.DataHostGroup
import NetCHASM.Library.Decimal
import NetCHASM.Library.TextSearch

/-! The check info of a host check: the Host header of a request, the port and the host that it
names. The text is `//host/path` or `//host:port/path`, with `<host>` and `<host:port>` standing
for the host that is checked. -/
namespace NetCHASM

open Decimal TextSearch

def slash : UInt8 := 47

def colon : UInt8 := 58

def lessThan : UInt8 := 60

def hostMark : HMString := bytes "<host>"

def hostPortMark : HMString := bytes "<host:port>"

/-- A part of a string; a start behind its end is out of range. -/
def substr (s : HMString) (pos : ℕ) (len : Option ℕ) : Except ConvError HMString :=
  if s.length < pos then .error .outOfRange
  else .ok (len.elim (s.drop pos) (s.drop pos).take)

/-- An int stored as a 32-bit number without sign. -/
def toUint32 (v : Int) : ℕ := (v % 2 ^ 32).toNat

/-- What the parser leaves: the header, the port and the host of the check info. -/
structure CheckInfoResult where
  hostname : HMString
  port : ℕ
  checkInfoHost : HMString
  deriving DecidableEq, Repr

def CheckType.isHttp (t : CheckType) : Bool := t = .http || t = .auxHttp

def CheckType.isPlain (t : CheckType) : Bool := t.isHttp || t = .markHttp

namespace HMDataHostCheck

def hostHeader (host : HMString) : HMString := bytes "Host: " ++ host

def hostPortHeader (host : HMString) (port : ℕ) : HMString :=
  hostHeader host ++ colon :: decimal port

/-- The port of a check info that names one; the check port if it is the same text. -/
def checkInfoPort (c : HMDataHostCheck) (checkInfoHost : HMString) :
    Option ℕ → Except ConvError ℕ
  | none => .ok c.port.toNat
  | some portindex => do
    let portnum ← substr checkInfoHost (portindex + 1) none
    if portnum = decimal c.port.toNat then return c.port.toNat
    else
      let v ← stoi portnum
      return toUint32 v

/-- The host of the check info stays as the caller has it when the text holds a mark. -/
def parseCheckInfo (c : HMDataHostCheck) (host checkInfoHost : HMString) :
    Except ConvError CheckInfoResult :=
  let port := c.port.toNat
  if (find hostMark c.checkInfo).isSome then
    if port ≠ 443 ∧ !c.checkType.isHttp then .ok ⟨hostPortHeader host port, port, checkInfoHost⟩
    else .ok ⟨hostHeader host, port, checkInfoHost⟩
  else if (find hostPortMark c.checkInfo).isSome then
    .ok ⟨hostPortHeader host port, port, checkInfoHost⟩
  else do
    let index := findFrom [slash] c.checkInfo 2
    let checkInfoHost ← substr c.checkInfo 2 (index.map (· - 2))
    let portindex := find [colon] checkInfoHost
    if portindex = none ∧ port ≠ 443 ∧ !c.checkType.isPlain then
      return ⟨hostPortHeader checkInfoHost port, port, checkInfoHost⟩
    else if c.checkType.isPlain then
      return ⟨hostHeader checkInfoHost, port, checkInfoHost⟩
    else
      let port ← c.checkInfoPort checkInfoHost portindex
      let hostname := hostHeader checkInfoHost
      let checkInfoHost ← substr checkInfoHost 0 portindex
      return ⟨hostname, port, checkInfoHost⟩

end HMDataHostCheck

/-- The check types that send a request over a secure connection. -/
def CheckType.isHttps : CheckType → Bool
  | .https | .httpsNoPeerCheck | .auxHttps | .auxHttpsNoPeerCheck | .mtlsHttps
  | .mtlsHttpsNoPeerCheck | .auxMtlsHttps | .auxMtlsHttpsNoPeerCheck | .markHttps
  | .markHttpsNoPeerCheck => true
  | _ => false

end NetCHASM

namespace CheckInfo

open NetCHASM Decimal TextSearch HMDataHostCheck

variable {c : HMDataHostCheck} {host old : HMString}

/-! The two numbers of a text: what an int is read from, and the port. -/

/-- A text that an int can be read from: after spaces and a sign there is a digit, and the
number is in range. -/
def ReadsInt (s : HMString) : Prop :=
  (unsigned s).head?.any isDigit = true ∧ -2 ^ 31 ≤ signedValue (s.dropWhile isSpace) ∧
    signedValue (s.dropWhile isSpace) < 2 ^ 31

theorem stoi_ok_iff (s : HMString) : (∃ v, stoi s = .ok v) ↔ ReadsInt s := by
  simp only [stoi, ReadsInt]
  cases hdigit : (unsigned s).head?.any isDigit with
  | false => simp
  | true =>
    simp only [Bool.not_true, Bool.false_eq_true, if_false, true_and]
    split
    · rename_i hrange
      simp only [Bool.or_eq_true, decide_eq_true_eq] at hrange
      simp only [reduceCtorEq, exists_false, false_iff]
      omega
    · rename_i hrange
      simp only [Bool.or_eq_true, decide_eq_true_eq, not_or] at hrange
      exact iff_of_true ⟨_, rfl⟩ ⟨by omega, by omega⟩

theorem stoi_digits {p : HMString} (hne : p ≠ []) (hdigits : ∀ b ∈ p, isDigit b = true)
    (hlt : value p < 2 ^ 31) : stoi p = .ok (value p) := by
  cases p with
  | nil => exact absurd rfl hne
  | cons b p =>
    have hb := hdigits b List.mem_cons_self
    have hspace : (b :: p).dropWhile isSpace = b :: p :=
      List.dropWhile_cons_of_neg (by simp [not_isSpace_of_isDigit hb])
    have hminus : b ≠ 45 := by
      rintro rfl
      exact absurd hb (by decide)
    have hplus : b ≠ 43 := by
      rintro rfl
      exact absurd hb (by decide)
    have hunsigned : unsigned (b :: p) = b :: p := by
      rw [unsigned, hspace]
      split
      · rename_i heq
        exact absurd (List.cons.inj heq).1 hminus
      · rename_i heq
        exact absurd (List.cons.inj heq).1 hplus
      · rfl
    have hsigned : signedValue (b :: p) = value (b :: p) := by
      unfold signedValue
      split
      · rename_i heq
        exact absurd (List.cons.inj heq).1 hminus
      · rename_i heq
        exact absurd (List.cons.inj heq).1 hplus
      · rfl
    have hrange : ¬ ((value (b :: p) : Int) < -2 ^ 31 ∨ (2 : Int) ^ 31 ≤ value (b :: p)) := by
      omega
    simp only [stoi, hunsigned, hspace, hsigned, List.head?_cons, Option.any_some, hb,
      Bool.not_true, Bool.false_eq_true, if_false, Bool.or_eq_true, decide_eq_true_eq]
    rw [if_neg hrange]

/-! The text without a mark. -/

/-- The part between the two slashes at the start and the next one. -/
def hostPart (checkInfo : HMString) : HMString := before slash (checkInfo.drop 2)

/-- What follows the first colon of that part. -/
def portText (checkInfo : HMString) : Option HMString := after colon (hostPart checkInfo)

theorem substr_hostPart {s : HMString} (h : 2 ≤ s.length) :
    substr s 2 ((findFrom [slash] s 2).map (· - 2)) = .ok (hostPart s) := by
  have hroom : ¬ s.length < 2 := by omega
  rw [substr, if_neg hroom, findFrom, if_neg hroom, hostPart]
  rcases split_at slash (s.drop 2) with ⟨-, hfind, hbefore, -⟩ | ⟨a, b, heq, -, hfind, hbefore, -⟩
  · rw [hfind, hbefore]
    rfl
  · rw [hfind, hbefore, heq]
    simp

theorem substr_short {s : HMString} (h : s.length < 2) (len : Option ℕ) :
    substr s 2 len = .error .outOfRange := if_pos h

/-- The port of a check info that names one in the given text. -/
def portOf (c : HMDataHostCheck) (text : HMString) : Except ConvError ℕ :=
  if text = decimal c.port.toNat then .ok c.port.toNat else (stoi text).map toUint32

theorem checkInfoPort_append (c : HMDataHostCheck) (a text : HMString) :
    c.checkInfoPort (a ++ colon :: text) (some a.length) = portOf c text := by
  have hroom : ¬ (a ++ colon :: text).length < a.length + 1 := by
    simp only [List.length_append, List.length_cons]
    omega
  have hdrop : (a ++ colon :: text).drop (a.length + 1) = text := by
    rw [← List.drop_drop, List.drop_left]
    rfl
  rw [checkInfoPort, substr, if_neg hroom, Option.elim_none, hdrop, portOf]
  simp only [bind, Except.bind, pure, Except.pure]
  split
  · rfl
  · cases stoi text with
    | error e => rfl
    | ok v => rfl

/-! The parser. -/

/-- The text holds one of the marks for the host. -/
def Marked (checkInfo : HMString) : Prop := hostMark <:+: checkInfo ∨ hostPortMark <:+: checkInfo

instance (checkInfo : HMString) : Decidable (Marked checkInfo) :=
  inferInstanceAs (Decidable (_ ∨ _))

theorem parse_marked (h : Marked c.checkInfo) (host : HMString) :
    ∃ name, ∀ old, c.parseCheckInfo host old = .ok ⟨name, c.port.toNat, old⟩ := by
  simp only [Marked, ← isSome_find_iff] at h
  unfold parseCheckInfo
  by_cases hhost : (find hostMark c.checkInfo).isSome
  · simp only [if_pos hhost]
    split
    · exact ⟨_, fun _ => rfl⟩
    · exact ⟨_, fun _ => rfl⟩
  · have hport := h.resolve_left hhost
    simp only [if_neg hhost, if_pos hport]
    exact ⟨_, fun _ => rfl⟩

theorem parse_short (hmark : ¬ Marked c.checkInfo) (h : c.checkInfo.length < 2) :
    c.parseCheckInfo host old = .error .outOfRange := by
  simp only [Marked, ← isSome_find_iff, not_or] at hmark
  simp only [parseCheckInfo, if_neg hmark.1, if_neg hmark.2, substr_short h]
  rfl

/-- Without a mark the parser depends on the host part and its port text alone. -/
theorem parse_unmarked (hmark : ¬ Marked c.checkInfo) (h : 2 ≤ c.checkInfo.length) :
    c.parseCheckInfo host old =
      match portText c.checkInfo with
      | none => .ok ⟨if c.port.toNat ≠ 443 ∧ !c.checkType.isPlain
          then hostPortHeader (hostPart c.checkInfo) c.port.toNat
          else hostHeader (hostPart c.checkInfo), c.port.toNat, hostPart c.checkInfo⟩
      | some text =>
        if c.checkType.isPlain then
          .ok ⟨hostHeader (hostPart c.checkInfo), c.port.toNat, hostPart c.checkInfo⟩
        else (portOf c text).map fun port =>
          ⟨hostHeader (hostPart c.checkInfo), port, before colon (hostPart c.checkInfo)⟩ := by
  simp only [Marked, ← isSome_find_iff, not_or] at hmark
  simp only [parseCheckInfo, if_neg hmark.1, if_neg hmark.2, substr_hostPart h, bind,
    Except.bind, pure, Except.pure, portText]
  generalize hostPart c.checkInfo = info
  rcases split_at colon info with ⟨-, hfind, -, hafter⟩ | ⟨a, text, rfl, -, hfind, hbefore, hafter⟩
  · rw [hfind, hafter]
    simp only [true_and]
    split
    · rfl
    · split
      · rfl
      · simp [checkInfoPort, substr]
  · rw [hfind, hafter, hbefore, checkInfoPort_append]
    simp only [reduceCtorEq, false_and, if_false]
    split
    · rfl
    · have hzero : substr (a ++ colon :: text) 0 (some a.length) = .ok a := by
        simp [substr]
      rw [hzero]
      cases portOf c text with
      | error e => rfl
      | ok port => rfl

/-! The form that is documented. -/

/-- A check info `//h`, with `:p` and `/path` behind it if given. -/
structure HostForm (checkInfo h : HMString) (p path : Option HMString) : Prop where
  text : checkInfo = slash :: slash :: h ++ p.elim [] (colon :: ·) ++ path.elim [] (slash :: ·)
  host : colon ∉ h ∧ slash ∉ h ∧ lessThan ∉ h
  port : ∀ text ∈ p, text ≠ [] ∧ (∀ b ∈ text, isDigit b = true) ∧ value text < 2 ^ 16

/-- What is expected of such a check info: its own port or else the check port, and a header
without a port only where the check port is 443. -/
def expected (c : HMDataHostCheck) (h : HMString) : Option HMString → CheckInfoResult
  | some p => ⟨hostHeader (h ++ colon :: p), value p, h⟩
  | none =>
    ⟨if c.port = 443 then hostHeader h else hostPortHeader h c.port.toNat, c.port.toNat, h⟩

/-- No host makes the parser throw, and check info of the documented form gives the expected
result for every type over a secure connection. -/
def Parses (c : HMDataHostCheck) : Prop :=
  (∀ host old, ∃ r, c.parseCheckInfo host old = .ok r) ∧
    ∀ h p path, c.checkType.isHttps = true → HostForm c.checkInfo h p path →
      ∀ host old, c.parseCheckInfo host old = .ok (expected c h p)

/-- The texts that the parser is right about: with a mark, all but those of the documented form
for a secure connection; else those with two characters at least whose port, if it matters, is
that of the check or can be read. -/
def Accepted (c : HMDataHostCheck) : Prop :=
  (Marked c.checkInfo ∧
      ¬ (c.checkType.isHttps = true ∧ ∃ h p path, HostForm c.checkInfo h p path)) ∨
    (¬ Marked c.checkInfo ∧ 2 ≤ c.checkInfo.length ∧
      (c.checkType.isPlain = true ∨
        ∀ text ∈ portText c.checkInfo, text = decimal c.port.toNat ∨ ReadsInt text))

theorem portOf_ok_iff (c : HMDataHostCheck) (text : HMString) :
    (∃ n, portOf c text = .ok n) ↔ text = decimal c.port.toNat ∨ ReadsInt text := by
  rw [portOf, ← stoi_ok_iff]
  split
  · rename_i heq
    simp [heq]
  · rename_i hne
    cases stoi text with
    | error e => simp [hne, Except.map]
    | ok v => simp [Except.map]

/-- The parser throws nothing just on these texts, or on any with a mark. -/
theorem parse_ok_iff (c : HMDataHostCheck) (hmark : ¬ Marked c.checkInfo) :
    (∃ r, c.parseCheckInfo host old = .ok r) ↔
      2 ≤ c.checkInfo.length ∧ (c.checkType.isPlain = true ∨
        ∀ text ∈ portText c.checkInfo, text = decimal c.port.toNat ∨ ReadsInt text) := by
  by_cases h : 2 ≤ c.checkInfo.length
  · rw [parse_unmarked hmark h]
    cases htext : portText c.checkInfo with
    | none => simp [h]
    | some text =>
      cases hplain : c.checkType.isPlain with
      | true => simp [h]
      | false =>
        simp only [Bool.false_eq_true, if_false, h, true_and, false_or, Option.mem_def,
          Option.some.injEq, forall_eq']
        rw [← portOf_ok_iff]
        cases portOf c text with
        | error e => simp [Except.map]
        | ok port => simp [Except.map]
  · rw [parse_short hmark (by omega)]
    simp [h]

section Form

variable {h : HMString} {p path : Option HMString}

theorem slash_not_mem_port (hform : HostForm c.checkInfo h p path) :
    slash ∉ h ++ p.elim [] (colon :: ·) := by
  rw [List.mem_append, not_or]
  refine ⟨hform.host.2.1, ?_⟩
  cases p with
  | none => exact List.not_mem_nil
  | some text =>
    obtain ⟨-, hdigits, -⟩ := hform.port text rfl
    rw [Option.elim_some, List.mem_cons]
    rintro (heq | hmem)
    · exact absurd heq (by decide)
    · exact absurd (hdigits slash hmem) (by decide)

theorem hostPart_form (hform : HostForm c.checkInfo h p path) :
    hostPart c.checkInfo = h ++ p.elim [] (colon :: ·) := by
  have hslash := slash_not_mem_port hform
  rw [hostPart, hform.text]
  cases path with
  | none =>
    rw [Option.elim_none, List.append_nil]
    exact before_of_not_mem hslash
  | some rest => exact before_append hslash rest

theorem two_le_length (hform : HostForm c.checkInfo h p path) : 2 ≤ c.checkInfo.length := by
  rw [hform.text]
  simp only [List.cons_append, List.length_cons]
  omega

theorem not_isPlain {t : CheckType} (h : t.isHttps = true) : t.isPlain = false := by
  cases t with
  | https | httpsNoPeerCheck | auxHttps | auxHttpsNoPeerCheck | mtlsHttps
  | mtlsHttpsNoPeerCheck | auxMtlsHttps | auxMtlsHttpsNoPeerCheck | markHttps
  | markHttpsNoPeerCheck => rfl
  | _ => cases h

theorem portOf_digits {text : HMString} (hne : text ≠ [])
    (hdigits : ∀ b ∈ text, isDigit b = true) (hlt : value text < 2 ^ 16) :
    portOf c text = .ok (value text) := by
  rw [portOf]
  split
  · rename_i heq
    rw [heq, value_decimal]
  · rw [stoi_digits hne hdigits (by omega), Except.map, toUint32]
    congr 1
    omega

/-- Check info of the documented form without a mark. -/
theorem parse_form (hhttps : c.checkType.isHttps = true) (hform : HostForm c.checkInfo h p path)
    (hmark : ¬ Marked c.checkInfo) : c.parseCheckInfo host old = .ok (expected c h p) := by
  have hcolon := hform.host.1
  have hplain := not_isPlain hhttps
  have hpart := hostPart_form hform
  rw [parse_unmarked hmark (two_le_length hform), portText, hpart]
  cases p with
  | none =>
    rw [Option.elim_none, List.append_nil, after_of_not_mem hcolon]
    have hdefault : c.port = 443 ↔ c.port.toNat = 443 := UInt16.toNat_inj.symm
    simp only [hplain, Bool.not_false, and_true, expected, hdefault]
    split
    · rfl
    · rename_i hport
      rw [if_pos (not_not.mp hport)]
  | some text =>
    obtain ⟨hne, hdigits, hlt⟩ := hform.port text rfl
    rw [Option.elim_some, after_append hcolon, before_append hcolon]
    simp only [hplain, Bool.false_eq_true, if_false, portOf_digits hne hdigits hlt, expected]
    rfl

end Form

/-- The parser meets its documentation just on the texts above. -/
theorem parses_iff (c : HMDataHostCheck) : Parses c ↔ Accepted c := by
  by_cases hmark : Marked c.checkInfo
  · simp only [Accepted, hmark, true_and, not_true_eq_false, false_and, or_false]
    constructor
    · rintro ⟨-, hparse⟩ ⟨hhttps, h, p, path, hform⟩
      obtain ⟨name, hname⟩ := parse_marked hmark []
      have heq := hparse h p path hhttps hform [] (0 :: h)
      rw [hname] at heq
      have hhost := congrArg CheckInfoResult.checkInfoHost (Except.ok.inj heq)
      cases p with
      | none => exact List.cons_ne_self 0 h hhost
      | some text => exact List.cons_ne_self 0 h hhost
    · intro hnot
      refine ⟨fun host old => ?_, fun h p path hhttps hform => ?_⟩
      · obtain ⟨name, hname⟩ := parse_marked hmark host
        exact ⟨_, hname old⟩
      · exact absurd ⟨hhttps, h, p, path, hform⟩ hnot
  · simp only [Accepted, hmark, false_and, not_false_eq_true, true_and, false_or]
    constructor
    · rintro ⟨hok, -⟩
      exact (parse_ok_iff c hmark).mp (hok [] [])
    · intro haccepted
      exact ⟨fun host old => (parse_ok_iff c hmark).mpr haccepted,
        fun h p path hhttps hform host old => parse_form hhttps hform hmark⟩

/-- A check of a web page over a secure connection. -/
def webCheck (checkInfo : HMString) : HMDataHostCheck :=
  { HMDataHostCheck.default with checkType := .https, port := 443, checkInfo }

/-- The port of `//w:abc/x` is no number, and the parser throws. -/
theorem port_name_throws : ¬ Parses (webCheck (bytes "//w:abc/x")) := by
  rintro ⟨hok, -⟩
  obtain ⟨r, hr⟩ := hok [] []
  have hthrown : (webCheck (bytes "//w:abc/x")).parseCheckInfo [] [] =
      .error .invalidArgument := by decide
  rw [hthrown] at hr
  cases hr

end CheckInfo
