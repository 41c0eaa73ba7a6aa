import NetCHASM.MasterConfig
import Mathlib.Data.List.Nodup

/-! The control sockets that the master configuration selects. Four of its keys rewrite the list
of sockets, each from what the keys before it have left; the selection behind the list keeps one
switch for each key. -/
namespace NetCHASM

inductive ControlSocket where
  | linux
  | tcpV4
  | tcpV6
  | tlsV4
  | tlsV6
  deriving DecidableEq, Repr

/-- An address family that a control server can listen on. -/
inductive SocketFamily where
  | v4
  | v6
  deriving DecidableEq, Repr

namespace ControlSocket

def tcp : SocketFamily → ControlSocket
  | .v4 => .tcpV4
  | .v6 => .tcpV6

def tls : SocketFamily → ControlSocket
  | .v4 => .tlsV4
  | .v6 => .tlsV6

end ControlSocket

/-- The keys of the master configuration that select sockets. -/
inductive ControlKey where
  | controlServerLinux
  | controlServer (f : SocketFamily)
  | enableSecureRemote
  deriving DecidableEq, Repr

namespace ControlKey

def name : ControlKey → HMString
  | .controlServerLinux => bytes "control-server-linux"
  | .controlServer .v4 => bytes "control-server-ipv4"
  | .controlServer .v6 => bytes "control-server-ipv6"
  | .enableSecureRemote => bytes "enable-secure-remote"

def ofName (n : HMString) : Option ControlKey :=
  [.controlServerLinux, .controlServer .v4, .controlServer .v6, .enableSecureRemote].find?
    fun k : ControlKey => k.name = n

theorem name_of_ofName {n : HMString} {k : ControlKey} (h : ofName n = some k) : n = k.name := by
  have hname := List.find?_some h
  simpa [eq_comm] using hname

end ControlKey

/-- The part of the daemon's settings that these keys read and write. -/
structure ControlSockets where
  controlSocket : List ControlSocket
  enableSecureRemote : Bool
  deriving DecidableEq, Repr

namespace ControlSockets

/-- What the settings start with. -/
def initial : ControlSockets := ⟨[.linux], false⟩

/-- Every occurrence of one socket goes, and a single other one is added for them. -/
def convert (a b : ControlSocket) (l : List ControlSocket) : List ControlSocket :=
  if a ∈ l then l.filter (· ≠ a) ++ [b] else l

/-- Read one key. A value that no branch knows is ignored. -/
def setControlKey (s : ControlSockets) (e : HMString × HMString) : ControlSockets :=
  match ControlKey.ofName e.1 with
  | none => s
  | some .controlServerLinux =>
    if e.2 = bytes "off" then { s with controlSocket := s.controlSocket.filter (· ≠ .linux) } else s
  | some (.controlServer f) =>
    if e.2 = bytes "on" then
      { s with
        controlSocket := s.controlSocket ++ [if s.enableSecureRemote then .tls f else .tcp f] }
    else s
  | some .enableSecureRemote =>
    if e.2 = bytes "off" then
      { controlSocket :=
          convert (.tls .v6) (.tcp .v6) (convert (.tls .v4) (.tcp .v4) s.controlSocket)
        enableSecureRemote := false }
    else if e.2 = bytes "on" then
      { controlSocket :=
          convert (.tcp .v6) (.tls .v6) (convert (.tcp .v4) (.tls .v4) s.controlSocket)
        enableSecureRemote := true }
    else s

/-- Read the keys in the order of the file. -/
def parseControlSockets (es : List (HMString × HMString)) (s : ControlSockets) : ControlSockets :=
  es.foldl setControlKey s

theorem mem_convert {a b k : ControlSocket} {l : List ControlSocket} :
    k ∈ convert a b l ↔ (k ∈ l ∧ k ≠ a) ∨ (k = b ∧ a ∈ l) := by
  unfold convert
  split
  · next h => simp [h]
  · next h =>
    constructor
    · intro hk
      exact Or.inl ⟨hk, fun heq => h (heq ▸ hk)⟩
    · rintro (⟨hk, -⟩ | ⟨-, ha⟩)
      · exact hk
      · exact absurd ha h

end ControlSockets

/-- What an operator asks for: the local socket, a server for each family, and whether the
servers speak TLS. -/
structure SocketSelection where
  linux : Bool
  server : SocketFamily → Bool
  secure : Bool

namespace SocketSelection

def initial : SocketSelection := ⟨true, fun _ => false, false⟩

def has (c : SocketSelection) : ControlSocket → Bool
  | .linux => c.linux
  | .tcpV4 => c.server .v4 && !c.secure
  | .tcpV6 => c.server .v6 && !c.secure
  | .tlsV4 => c.server .v4 && c.secure
  | .tlsV6 => c.server .v6 && c.secure

/-- A key turns the switch it names and leaves the others. -/
def next (c : SocketSelection) (e : HMString × HMString) : SocketSelection :=
  match ControlKey.ofName e.1 with
  | none => c
  | some .controlServerLinux => { c with linux := c.linux && e.2 ≠ bytes "off" }
  | some (.controlServer f) =>
    { c with server := fun f' => c.server f' || (f' = f && e.2 = bytes "on") }
  | some .enableSecureRemote =>
    { c with
      secure := if e.2 = bytes "off" then false else if e.2 = bytes "on" then true else c.secure }

theorem next_comm {e e' : HMString × HMString} (hne : e.1 ≠ e'.1) (c : SocketSelection) :
    (c.next e).next e' = (c.next e').next e := by
  cases h : ControlKey.ofName e.1 with
  | none => simp only [next, h]
  | some k =>
    cases h' : ControlKey.ofName e'.1 with
    | none => simp only [next, h, h']
    | some k' =>
      have hkey : k ≠ k' := by
        rintro rfl
        exact hne ((ControlKey.name_of_ofName h).trans (ControlKey.name_of_ofName h').symm)
      cases k <;> cases k' <;> simp_all [next, Bool.or_right_comm]

theorem foldl_next_perm {es es' : List (HMString × HMString)} (hperm : es.Perm es')
    (hnodup : (es.map Prod.fst).Nodup) (c : SocketSelection) :
    es.foldl next c = es'.foldl next c := by
  apply hperm.foldl_eq'
  intro e he e' he' c
  by_cases heq : e = e'
  · rw [heq]
  · apply next_comm
    intro hkey
    exact heq (List.inj_on_of_nodup_map hnodup he he' hkey)

end SocketSelection

namespace ControlSockets

variable {s : ControlSockets} {c : SocketSelection}

/-- The list holds just the sockets of the selection. -/
structure Shows (s : ControlSockets) (c : SocketSelection) : Prop where
  mem : ∀ k, k ∈ s.controlSocket ↔ c.has k = true
  secure : s.enableSecureRemote = c.secure

theorem shows_initial : Shows initial SocketSelection.initial := by
  constructor
  · intro k
    cases k <;> decide
  · rfl

/-- Turning the secure mode converts the sockets of both families, whatever they were before. -/
theorem mem_convert_both {l : List ControlSocket} (h : ∀ k, k ∈ l ↔ c.has k = true) (secure : Bool)
    (k : ControlSocket) :
    k ∈ (if secure then convert (.tcp .v6) (.tls .v6) (convert (.tcp .v4) (.tls .v4) l)
      else convert (.tls .v6) (.tcp .v6) (convert (.tls .v4) (.tcp .v4) l)) ↔
      ({ c with secure := secure } : SocketSelection).has k = true := by
  cases secure <;> cases hc : c.secure <;> cases k <;>
    simp [mem_convert, h, SocketSelection.has, ControlSocket.tcp, ControlSocket.tls, hc]

theorem Shows.controlServerLinux (h : Shows s c) (b : Bool) :
    Shows (if b then { s with controlSocket := s.controlSocket.filter (· ≠ .linux) } else s)
      { c with linux := c.linux && !b } := by
  constructor
  · intro k
    cases b <;> cases k <;> simp [h.mem, SocketSelection.has]
  · cases b <;> exact h.secure

theorem Shows.controlServer (h : Shows s c) (f : SocketFamily) :
    Shows { s with
        controlSocket := s.controlSocket ++ [if s.enableSecureRemote then .tls f else .tcp f] }
      { c with server := fun f' => c.server f' || f' = f } := by
  constructor
  · intro k
    rw [List.mem_append, h.mem, List.mem_singleton, h.secure]
    cases f <;> cases hc : c.secure <;> cases k <;>
      simp [SocketSelection.has, ControlSocket.tcp, ControlSocket.tls, hc]
  · exact h.secure

/-- Every key does to the list what it does to the selection behind it. -/
theorem Shows.setControlKey (h : Shows s c) (e : HMString × HMString) :
    Shows (s.setControlKey e) (c.next e) := by
  unfold ControlSockets.setControlKey SocketSelection.next
  split
  · exact h
  · have hlinux := h.controlServerLinux (decide (e.2 = bytes "off"))
    simpa using hlinux
  · next f _ =>
    split
    · next hval => simpa [hval] using h.controlServer f
    · next hval => simpa [hval] using h
  · split
    · exact ⟨mem_convert_both h.mem false, rfl⟩
    · split
      · exact ⟨mem_convert_both h.mem true, rfl⟩
      · exact h

theorem shows_parseControlSockets (h : Shows s c) (es : List (HMString × HMString)) :
    Shows (parseControlSockets es s) (es.foldl SocketSelection.next c) := by
  induction es generalizing s c with
  | nil => exact h
  | cons e es ih => exact ih (h.setControlKey e)

/-- The secure mode after one more key. -/
def nextSecure (secure : Bool) (e : HMString × HMString) : Bool :=
  if e.1 = bytes "enable-secure-remote" then
    if e.2 = bytes "off" then false else if e.2 = bytes "on" then true else secure
  else secure

theorem enableSecureRemote_setControlKey (s : ControlSockets) (e : HMString × HMString) :
    (s.setControlKey e).enableSecureRemote = nextSecure s.enableSecureRemote e := by
  unfold setControlKey nextSecure
  by_cases hname : e.1 = bytes "enable-secure-remote"
  · have hkey : ControlKey.ofName e.1 = some .enableSecureRemote := by
      rw [hname]
      decide
    rw [if_pos hname]
    simp only [hkey]
    split
    · rfl
    · split <;> rfl
  · rw [if_neg hname]
    split
    · rfl
    · split <;> rfl
    · split <;> rfl
    · next hkey => exact absurd (ControlKey.name_of_ofName hkey) hname

theorem enableSecureRemote_setMasterKey {isAddress : HMString → Bool} {settings settings' : Settings}
    {e : HMString × HMString} (h : settings.setMasterKey isAddress e = some settings') :
    settings'.enableSecureRemote = nextSecure settings.enableSecureRemote e := by
  unfold Settings.setMasterKey at h
  unfold nextSecure
  by_cases hname : e.1 = bytes "enable-secure-remote"
  · have hkey : MasterKey.ofName e.1 = some .enableSecureRemote := MasterKey.ofName_eq_some.mpr hname
    rw [hkey] at h
    obtain rfl := Option.some.inj h
    rw [if_pos hname]
    split
    · rfl
    · split <;> rfl
  · rw [if_neg hname]
    split at h
    case h_11 hkey => exact absurd (MasterKey.ofName_eq_some.mp hkey) hname
    all_goals
      repeat' split at h
      all_goals cases h
      all_goals rfl

/-- The secure mode is the one that the whole configuration is read with. -/
theorem enableSecureRemote_parseMasterYaml {isAddress : HMString → Bool} {settings settings' : Settings}
    {es : List (HMString × HMString)} (hflag : s.enableSecureRemote = settings.enableSecureRemote)
    (h : Settings.parseMasterYaml isAddress es settings = some settings') :
    (parseControlSockets es s).enableSecureRemote = settings'.enableSecureRemote := by
  induction es generalizing s settings with
  | nil =>
    obtain rfl := Option.some.inj h
    exact hflag
  | cons e es ih =>
    rcases Option.bind_eq_some_iff.mp h with ⟨m, hm, hrest⟩
    apply ih _ hrest
    rw [enableSecureRemote_setControlKey, enableSecureRemote_setMasterKey hm, hflag]

end ControlSockets

/-- A socket that speaks TLS is open only in the secure mode and one that does not only outside
it, and which sockets are open is decided by the values of the keys. -/
theorem control_sockets_follow_keys (es : List (HMString × HMString)) :
    (∀ f, ControlSocket.tls f ∈ (ControlSockets.parseControlSockets es .initial).controlSocket →
      (ControlSockets.parseControlSockets es .initial).enableSecureRemote = true) ∧
    (∀ f, ControlSocket.tcp f ∈ (ControlSockets.parseControlSockets es .initial).controlSocket →
      (ControlSockets.parseControlSockets es .initial).enableSecureRemote = false) ∧
    ∀ es' : List (HMString × HMString), (es.map Prod.fst).Nodup → es.Perm es' →
      ∀ k, k ∈ (ControlSockets.parseControlSockets es .initial).controlSocket ↔
        k ∈ (ControlSockets.parseControlSockets es' .initial).controlSocket := by
  have hshows := ControlSockets.shows_parseControlSockets ControlSockets.shows_initial
  refine ⟨?_, ?_, ?_⟩
  · intro f hf
    rw [(hshows es).mem] at hf
    rw [(hshows es).secure]
    cases f <;> simp_all [SocketSelection.has, ControlSocket.tls]
  · intro f hf
    rw [(hshows es).mem] at hf
    rw [(hshows es).secure]
    cases f <;> simp_all [SocketSelection.has, ControlSocket.tcp]
  · intro es' hnodup hperm k
    rw [(hshows es).mem, (hshows es').mem, SocketSelection.foldl_next_perm hperm hnodup]

/-- The server speaks TLS whether the secure mode is turned on before it or after. -/
theorem control_sockets_follow_keys_tls :
    let es := [(bytes "control-server-ipv4", bytes "on"), (bytes "enable-secure-remote", bytes "on")]
    (ControlSockets.parseControlSockets es .initial).enableSecureRemote = true ∧
      (.tlsV4 ∈ (ControlSockets.parseControlSockets es .initial).controlSocket ↔
        .tlsV4 ∈ (ControlSockets.parseControlSockets es.reverse .initial).controlSocket) := by
  intro es
  obtain ⟨htls, -, hperm⟩ := control_sockets_follow_keys es
  exact ⟨htls .v4 (by decide), hperm es.reverse (by decide) es.reverse_perm.symm .tlsV4⟩

end NetCHASM
