import NetCHASM.State

/-! The master configuration: a list of keys with their values, read in the order of the file.
Of the keys that nothing here reads only the one whose value can be refused is kept, with the
test for a printed address as a parameter. -/
namespace NetCHASM

/-- The keys of the master configuration that matter here. -/
inductive MasterKey where
  | dnsHost
  | dnsLookuptype
  | dnsStatictype
  | httpType
  | ftpType
  | tcpType
  | tcpsType
  | dnscheckType
  | noneType
  | enableSecureRemote
  | enableSharedConnection
  deriving DecidableEq, Repr

namespace MasterKey

def name : MasterKey → HMString
  | .dnsHost => bytes "dns.host"
  | .dnsLookuptype => bytes "dns.lookuptype"
  | .dnsStatictype => bytes "dns.statictype"
  | .httpType => bytes "http.type"
  | .ftpType => bytes "ftp.type"
  | .tcpType => bytes "tcp.type"
  | .tcpsType => bytes "tcps.type"
  | .dnscheckType => bytes "dnscheck.type"
  | .noneType => bytes "none.type"
  | .enableSecureRemote => bytes "enable-secure-remote"
  | .enableSharedConnection => bytes "enable-shared-connection"

def ofName (n : HMString) : Option MasterKey :=
  [.dnsHost, .dnsLookuptype, .dnsStatictype, .httpType, .ftpType, .tcpType, .tcpsType,
    .dnscheckType, .noneType, .enableSecureRemote, .enableSharedConnection].find?
    fun k : MasterKey => k.name = n

theorem ofName_eq_some {n : HMString} {k : MasterKey} : ofName n = some k ↔ n = k.name := by
  constructor
  · intro h
    have hname := List.find?_some h
    simpa [eq_comm] using hname
  · rintro rfl
    cases k <;> decide

end MasterKey

namespace Settings

variable (isAddress : HMString → Bool)

/-- Read one key. A value that no branch knows is ignored, except for the DNS keys. -/
def setMasterKey (s : Settings) (e : HMString × HMString) : Option Settings :=
  match MasterKey.ofName e.1 with
  | none => some s
  | some .dnsHost => if isAddress e.2 then some s else none
  | some .dnsLookuptype =>
    if e.2 = bytes "ares" then some { s with dnsLookDefaultPlugin := .ares }
    else if e.2 = bytes "none" then some { s with dnsLookDefaultPlugin := .none }
    else none
  | some .dnsStatictype =>
    if e.2 = bytes "static" then some { s with dnsStaticDefaultPlugin := .static }
    else if e.2 = bytes "none" then some { s with dnsStaticDefaultPlugin := .none }
    else none
  | some .httpType =>
    some (if e.2 = bytes "curl" then { s with httpDefaultCheckClass := .httpCurl } else s)
  | some .ftpType =>
    some (if e.2 = bytes "curl" then { s with ftpDefaultCheckClass := .ftpCurl } else s)
  | some .tcpType =>
    some (if e.2 = bytes "rawsocket" then { s with tcpDefaultCheckClass := .tcpRaw } else s)
  -- the plugin of the encrypted checks is stored as that of the plain ones
  | some .tcpsType =>
    some (if e.2 = bytes "rawsocket" then { s with tcpDefaultCheckClass := .tcpsRaw } else s)
  | some .dnscheckType =>
    some (if e.2 = bytes "ares" then { s with dnsDefaultCheckClass := .dnsAres } else s)
  | some .noneType =>
    some (if e.2 = bytes "none" then { s with noneDefaultCheckClass := .default } else s)
  | some .enableSecureRemote =>
    some (if e.2 = bytes "off" then { s with enableSecureRemote := false }
      else if e.2 = bytes "on" then { s with enableSecureRemote := true }
      else s)
  | some .enableSharedConnection =>
    some (if e.2 = bytes "on" then { s with enableSharedConnection := true }
      else if e.2 = bytes "off" then { s with enableSharedConnection := false }
      else s)

/-- Read all keys of a master configuration; a refused value ends the reading. -/
def parseMasterYaml : List (HMString × HMString) → Settings → Option Settings
  | [], s => some s
  | e :: es, s => (setMasterKey isAddress s e).bind (parseMasterYaml es)

def tcpRawsocket : HMString × HMString := (bytes "tcp.type", bytes "rawsocket")

def tcpsRawsocket : HMString × HMString := (bytes "tcps.type", bytes "rawsocket")

/-- Every class but that of the plain TCP checks is the one it starts with. -/
structure OtherClassesKept (s : Settings) : Prop where
  http : s.httpDefaultCheckClass = .httpCurl
  ftp : s.ftpDefaultCheckClass = .ftpCurl
  aux : s.auxDefaultCheckClass = .auxCurl
  mark : s.markDefaultCheckClass = .markCurl
  tcps : s.tcpsDefaultCheckClass = .tcpsRaw
  dns : s.dnsDefaultCheckClass = .dnsAres
  none : s.noneDefaultCheckClass = .default

/-- The class of the plain TCP checks after one more key. -/
def nextTcpClass (c : CheckPluginClass) (e : HMString × HMString) : CheckPluginClass :=
  if e = tcpRawsocket then .tcpRaw else if e = tcpsRawsocket then .tcpsRaw else c

theorem nextTcpClass_of_ne {e : HMString × HMString} (c : CheckPluginClass)
    (htcp : MasterKey.ofName e.1 ≠ some .tcpType) (htcps : MasterKey.ofName e.1 ≠ some .tcpsType) :
    nextTcpClass c e = c := by
  rw [nextTcpClass, if_neg, if_neg]
  · exact fun heq => htcps (MasterKey.ofName_eq_some.mpr (congrArg Prod.fst heq))
  · exact fun heq => htcp (MasterKey.ofName_eq_some.mpr (congrArg Prod.fst heq))

theorem nextTcpClass_tcp {e : HMString × HMString} (c : CheckPluginClass)
    (h : MasterKey.ofName e.1 = some .tcpType) :
    nextTcpClass c e = if e.2 = bytes "rawsocket" then .tcpRaw else c := by
  obtain ⟨key, val⟩ := e
  obtain rfl : key = bytes "tcp.type" := MasterKey.ofName_eq_some.mp h
  have htcps : (bytes "tcp.type", val) ≠ tcpsRawsocket := by
    intro heq
    have hkey : bytes "tcp.type" = bytes "tcps.type" := congrArg Prod.fst heq
    exact absurd hkey (by decide)
  simp only [nextTcpClass, if_neg htcps, tcpRawsocket, Prod.mk.injEq, true_and]

theorem nextTcpClass_tcps {e : HMString × HMString} (c : CheckPluginClass)
    (h : MasterKey.ofName e.1 = some .tcpsType) :
    nextTcpClass c e = if e.2 = bytes "rawsocket" then .tcpsRaw else c := by
  obtain ⟨key, val⟩ := e
  obtain rfl : key = bytes "tcps.type" := MasterKey.ofName_eq_some.mp h
  have htcp : (bytes "tcps.type", val) ≠ tcpRawsocket := by
    intro heq
    have hkey : bytes "tcps.type" = bytes "tcp.type" := congrArg Prod.fst heq
    exact absurd hkey (by decide)
  simp only [nextTcpClass, if_neg htcp, tcpsRawsocket, Prod.mk.injEq, true_and]

/-- What one key can do to the plugin classes. -/
theorem setMasterKey_classes {s s' : Settings} {e : HMString × HMString}
    (h : setMasterKey isAddress s e = some s') (hkept : OtherClassesKept s) :
    OtherClassesKept s' ∧ s'.tcpDefaultCheckClass = nextTcpClass s.tcpDefaultCheckClass e := by
  rcases hkept with ⟨hhttp, hftp, haux, hmark, htcps, hdns, hnone⟩
  rw [setMasterKey] at h
  cases hk : MasterKey.ofName e.1 with
  | none =>
    rw [hk] at h
    obtain rfl := Option.some.inj h
    rw [nextTcpClass_of_ne _ (by simp [hk]) (by simp [hk])]
    exact ⟨⟨hhttp, hftp, haux, hmark, htcps, hdns, hnone⟩, rfl⟩
  | some k =>
    rw [hk] at h
    cases k with
    | tcpType =>
      obtain rfl := Option.some.inj h
      rw [nextTcpClass_tcp _ hk]
      split
      · exact ⟨⟨hhttp, hftp, haux, hmark, htcps, hdns, hnone⟩, rfl⟩
      · exact ⟨⟨hhttp, hftp, haux, hmark, htcps, hdns, hnone⟩, rfl⟩
    | tcpsType =>
      obtain rfl := Option.some.inj h
      rw [nextTcpClass_tcps _ hk]
      split
      · exact ⟨⟨hhttp, hftp, haux, hmark, htcps, hdns, hnone⟩, rfl⟩
      · exact ⟨⟨hhttp, hftp, haux, hmark, htcps, hdns, hnone⟩, rfl⟩
    | _ =>
      -- no other key has a class to set but the one that is there
      rw [nextTcpClass_of_ne _ (by simp [hk]) (by simp [hk])]
      dsimp only at h
      repeat' split at h
      all_goals cases h
      all_goals exact ⟨by constructor <;> first | rfl | assumption, rfl⟩

theorem parseMasterYaml_classes {keys : List (HMString × HMString)} {s s' : Settings}
    (h : parseMasterYaml isAddress keys s = some s') (hkept : OtherClassesKept s) :
    OtherClassesKept s' ∧
      s'.tcpDefaultCheckClass = keys.foldl nextTcpClass s.tcpDefaultCheckClass := by
  induction keys generalizing s with
  | nil =>
    obtain rfl := Option.some.inj h
    exact ⟨hkept, rfl⟩
  | cons e keys ih =>
    rcases Option.bind_eq_some_iff.mp h with ⟨m, hm, hrest⟩
    obtain ⟨hkept', hclass⟩ := setMasterKey_classes isAddress hm hkept
    obtain ⟨hkept'', hclass'⟩ := ih hrest hkept'
    exact ⟨hkept'', by rw [hclass', hclass, List.foldl_cons]⟩

/-- The key for encrypted checks stands after every key for plain ones. -/
def TcpsKeyLast (keys : List (HMString × HMString)) : Prop :=
  ∃ before after, keys = before ++ tcpsRawsocket :: after ∧ tcpRawsocket ∉ after

theorem tcpsKeyLast_cons {e : HMString × HMString} {keys : List (HMString × HMString)} :
    TcpsKeyLast (e :: keys) ↔ TcpsKeyLast keys ∨ (e = tcpsRawsocket ∧ tcpRawsocket ∉ keys) := by
  constructor
  · rintro ⟨before, after, heq, hafter⟩
    cases before with
    | nil =>
      rcases List.cons.inj heq with ⟨rfl, rfl⟩
      exact Or.inr ⟨rfl, hafter⟩
    | cons b before =>
      rcases List.cons.inj heq with ⟨rfl, rfl⟩
      exact Or.inl ⟨before, after, rfl, hafter⟩
  · rintro (⟨before, after, rfl, hafter⟩ | ⟨rfl, hkeys⟩)
    · exact ⟨e :: before, after, rfl, hafter⟩
    · exact ⟨[], keys, rfl, hkeys⟩

theorem foldl_nextTcpClass {keys : List (HMString × HMString)} {c : CheckPluginClass} :
    keys.foldl nextTcpClass c = .tcpsRaw ↔
      TcpsKeyLast keys ∨ (c = .tcpsRaw ∧ tcpRawsocket ∉ keys) := by
  induction keys generalizing c with
  | nil =>
    have hnil : ¬ TcpsKeyLast [] := by
      rintro ⟨before, after, heq, -⟩
      simp at heq
    simp [hnil]
  | cons e keys ih =>
    have hapart : tcpRawsocket ≠ tcpsRawsocket := by decide
    rw [List.foldl_cons, ih, tcpsKeyLast_cons, nextTcpClass, List.mem_cons]
    by_cases htcp : e = tcpRawsocket
    · simp [htcp, hapart]
    · by_cases htcps : e = tcpsRawsocket
      · simp only [htcps, hapart, hapart.symm, if_true, if_false, true_and, false_or]
        refine ⟨Or.inl, ?_⟩
        rintro (h | ⟨-, hkeys⟩)
        · exact h
        · exact Or.inr hkeys
      · simp [htcp, htcps, Ne.symm htcp]

/-- The keys can only ever give the plain TCP checks one of two plugins. -/
theorem foldl_nextTcpClass_of_ne {keys : List (HMString × HMString)} {c : CheckPluginClass}
    (hc : c = .tcpRaw ∨ c = .tcpsRaw) :
    keys.foldl nextTcpClass c = .tcpRaw ∨ keys.foldl nextTcpClass c = .tcpsRaw := by
  induction keys generalizing c with
  | nil => exact hc
  | cons e keys ih =>
    rw [List.foldl_cons]
    apply ih
    rw [nextTcpClass]
    split
    · exact Or.inl rfl
    · split
      · exact Or.inr rfl
      · exact hc

end Settings

/-- The kinds of work that a check can be queued as. -/
inductive WorkKind where
  | healthCheckCurl
  | healthCheckTCP
  | healthCheckTCPS
  | healthCheckDNS
  | healthCheckNone
  | auxFetchCurl
  | multiWork
  deriving DecidableEq, Repr

/-- The kind of work that a check type calls for. -/
def CheckType.workKind : CheckType → Option WorkKind
  | .http | .https | .httpsNoPeerCheck | .mtlsHttps | .mtlsHttpsNoPeerCheck => some .healthCheckCurl
  | .ftp | .ftpsImplicit | .ftpsImplicitNoPeerCheck | .ftpsExplicit | .ftpsExplicitNoPeerCheck =>
    some .healthCheckCurl
  | .tcp => some .healthCheckTCP
  | .tcps => some .healthCheckTCPS
  | .dns | .dnsvc => some .healthCheckDNS
  | .none | .default => some .healthCheckNone
  | .auxHttp | .auxHttps | .auxHttpsNoPeerCheck | .auxMtlsHttps | .auxMtlsHttpsNoPeerCheck =>
    some .auxFetchCurl
  | .markHttp | .markHttps | .markHttpsNoPeerCheck => some .multiWork
  | .invalid => Option.none

/-- The kind of work that is created for a check, in a build with the c-ares library; a plugin
that does not fit creates none. -/
def HMDataHostCheck.createdWork (check : HMDataHostCheck) : Option WorkKind :=
  let p := check.checkPlugin
  match check.checkType with
  | .http | .https | .httpsNoPeerCheck | .mtlsHttps | .mtlsHttpsNoPeerCheck =>
    if p = .default || p = .httpCurl then some .healthCheckCurl else none
  | .ftp | .ftpsImplicit | .ftpsImplicitNoPeerCheck | .ftpsExplicit | .ftpsExplicitNoPeerCheck =>
    if p = .ftpCurl || p = .default then some .healthCheckCurl else none
  | .tcp => if p = .tcpRaw || p = .default then some .healthCheckTCP else none
  | .tcps => if p = .tcpsRaw || p = .default then some .healthCheckTCPS else none
  | .dns | .dnsvc => if p = .dnsAres || p = .default then some .healthCheckDNS else none
  | .none | .default => if p = .default then some .healthCheckNone else none
  | .auxHttp | .auxHttps | .auxHttpsNoPeerCheck | .auxMtlsHttps | .auxMtlsHttpsNoPeerCheck =>
    if p = .auxCurl || p = .default then some .auxFetchCurl else none
  | .markHttp | .markHttps | .markHttpsNoPeerCheck =>
    if p = .default || p = .markCurl then some .multiWork else none
  | .invalid => none

theorem createdWork_eq (check : HMDataHostCheck) : check.createdWork =
    if check.checkType.runsOn check.checkPlugin then check.checkType.workKind else none := by
  rw [HMDataHostCheck.createdWork]
  cases check.checkType <;> cases check.checkPlugin <;> rfl

/-- Queueing a check of the group at any address creates one work, of the kind it calls for. -/
def Dispatched (g : HMDataHostGroup) : Prop :=
  (∃ kind, g.checkType.workKind = some kind ∧ g.toHMDataHostCheck.createdWork = some kind) ∧
    ∀ (l : HMDataCheckList) hostname ip, (l.queueCheck hostname ip g.toHMDataHostCheck).2 =
      [⟨hostname, ip, g.toHMDataHostCheck, g.flowType = .dnsHealth⟩]

theorem dispatched_iff_runsOn {g : HMDataHostGroup} (hvalid : g.checkType ≠ .invalid) :
    Dispatched g ↔ g.checkType.runsOn g.checkPlugin = true := by
  constructor
  · rintro ⟨⟨kind, hkind, hcreated⟩, -⟩
    by_contra hruns
    rw [createdWork_eq, if_neg hruns] at hcreated
    cases hcreated
  · intro hruns
    refine ⟨?_, fun l hostname ip => if_pos hruns⟩
    have hkind : ∃ kind, g.checkType.workKind = some kind := by
      cases htype : g.checkType with
      | invalid => exact absurd htype hvalid
      | _ => exact ⟨_, rfl⟩
    rcases hkind with ⟨kind, hkind⟩
    refine ⟨kind, hkind, ?_⟩
    rw [createdWork_eq, if_pos hruns, hkind]

/-- The plugins that the classes of the settings give to a group fit, but for plain TCP. -/
theorem runsOn_prepare {s : Settings} (hkept : s.OtherClassesKept)
    (htcp : s.tcpDefaultCheckClass = .tcpRaw ∨ s.tcpDefaultCheckClass = .tcpsRaw)
    {g : HMDataHostGroup} (hvalid : g.checkType ≠ .invalid) :
    (s.prepare g).checkType.runsOn (s.prepare g).checkPlugin = true ↔
      ¬ (g.checkType = .tcp ∧ s.tcpDefaultCheckClass = .tcpsRaw) := by
  have htype : (s.prepare g).checkType = g.checkType := by
    simp only [Settings.prepare]
    split <;> rfl
  have hplugin : (s.prepare g).checkPlugin = (s.checkPlugin g.checkType).getD g.checkPlugin := by
    simp only [Settings.prepare]
    split <;> rfl
  rw [htype, hplugin]
  cases hg : g.checkType with
  | invalid => exact absurd hg hvalid
  | tcp =>
    rcases htcp with htcp | htcp
    · simp [Settings.checkPlugin, CheckType.runsOn, htcp]
    · simp [Settings.checkPlugin, CheckType.runsOn, htcp]
  | _ =>
    simp [Settings.checkPlugin, CheckType.runsOn, hkept.http, hkept.ftp, hkept.aux, hkept.mark,
      hkept.tcps, hkept.dns, hkept.none]

/-- Every configured check can be dispatched, except the plain TCP checks of a configuration in
which the key for encrypted ones has the last word. -/
theorem configured_check_dispatched_iff (isAddress : HMString → Bool)
    (keys : List (HMString × HMString)) (s : Settings)
    (hparse : Settings.parseMasterYaml isAddress keys .default = some s) (g : HMDataHostGroup)
    (hvalid : g.checkType ≠ .invalid) :
    Dispatched (s.prepare g) ↔ ¬ (g.checkType = .tcp ∧ Settings.TcpsKeyLast keys) := by
  obtain ⟨hkept, htcp⟩ := Settings.parseMasterYaml_classes isAddress hparse
    ⟨rfl, rfl, rfl, rfl, rfl, rfl, rfl⟩
  have hclass : s.tcpDefaultCheckClass = .tcpRaw ∨ s.tcpDefaultCheckClass = .tcpsRaw := by
    rw [htcp]
    exact Settings.foldl_nextTcpClass_of_ne (Or.inl rfl)
  have hlast : s.tcpDefaultCheckClass = .tcpsRaw ↔ Settings.TcpsKeyLast keys := by
    rw [htcp, Settings.foldl_nextTcpClass]
    simp [Settings.default]
  have htype : (s.prepare g).checkType ≠ .invalid := by
    simp only [Settings.prepare]
    split <;> exact hvalid
  rw [dispatched_iff_runsOn htype, runsOn_prepare hkept hclass hvalid, hlast]

theorem tcp_check_dispatched_by_default :
    Dispatched (Settings.default.prepare
      { HMDataHostGroup.new (bytes "tcp") with checkType := .tcp }) := by
  refine (configured_check_dispatched_iff (fun _ => false) [(bytes "tcp.type", bytes "rawsocket")]
    .default (by decide) _ (by decide)).mpr ?_
  rintro ⟨-, before, after, heq, -⟩
  have hmem : Settings.tcpsRawsocket ∈ before ++ Settings.tcpsRawsocket :: after :=
    List.mem_append_right before List.mem_cons_self
  rw [← heq] at hmem
  exact absurd hmem (by decide)

/-- The key for encrypted checks leaves the plain ones with a plugin that never runs. -/
theorem tcp_check_not_dispatched :
    ¬ ∀ (isAddress : HMString → Bool) (keys : List (HMString × HMString)) (s : Settings),
      Settings.parseMasterYaml isAddress keys .default = some s →
        ∀ g : HMDataHostGroup, g.checkType ≠ .invalid → Dispatched (s.prepare g) := by
  intro h
  have hdispatched := h (fun _ => false) [(bytes "tcps.type", bytes "rawsocket")]
    { Settings.default with tcpDefaultCheckClass := .tcpsRaw } (by decide)
    { HMDataHostGroup.new (bytes "tcp") with checkType := .tcp } (by decide)
  exact absurd ((dispatched_iff_runsOn (by decide)).mp hdispatched) (by decide)

end NetCHASM
