import NetCHASM.LoadConfigs
import NetCHASM.Library.Decimal

/-! Host groups in YAML files: the parser of the configuration, and the writer of the
configuration that a daemon runs with. The parser reads the tree of nodes that is loaded from a
file; the writer prints the bytes of a file, with texts as they are. -/
namespace NetCHASM

open KeyOrder OrderedMap Decimal

inductive YamlNode where
  | null
  | scalar (text : HMString)
  | sequence (nodes : List YamlNode)
  | map (pairs : List (HMString × YamlNode))
  deriving Repr

namespace YamlNode

/-- The text of a node. Nodes that are not scalars have none. -/
def text : YamlNode → HMString
  | .scalar text => text
  | _ => []

/-- The texts of the nodes below a node. The pairs of a map are no nodes, and to ask them for a
text is an exception. -/
def texts : YamlNode → Option (List HMString)
  | .sequence nodes => some (nodes.map text)
  | .map (_ :: _) => none
  | _ => some []

/-- What a text that is not quoted is to stand for: itself, or nothing if it is empty. -/
def plain : HMString → YamlNode
  | [] => .null
  | b :: bs => .scalar (b :: bs)

@[simp] theorem text_plain (s : HMString) : (plain s).text = s := by
  cases s <;> rfl

end YamlNode

/-- The keys of a host group. -/
inductive GroupKey where
  | name
  | rtMode
  | host
  | dualStackMode
  | checkType
  | checkPort
  | uri
  | checkInfo
  | checkRetries
  | checkRetryDelay
  | timeout
  | connCheckInterval
  | ttl
  | errorTtl
  | groupThreshold
  | smoothingWindow
  | flapThreshold
  | maxFlaps
  | slowThreshold
  | remoteFallback
  | localFallback
  | sourceAddress
  | tosValue
  | dnsType
  | flowType
  | hostGroup
  | failureResponse
  | allowHosts
  | authDomain
  deriving DecidableEq, Repr

namespace GroupKey

def text : GroupKey → HMString
  | .name => bytes "name"
  | .rtMode => bytes "rt-mode"
  | .host => bytes "host"
  | .dualStackMode => bytes "dual-stack-mode"
  | .checkType => bytes "check-type"
  | .checkPort => bytes "check-port"
  | .uri => bytes "uri"
  | .checkInfo => bytes "check-info"
  | .checkRetries => bytes "check-retries"
  | .checkRetryDelay => bytes "check-retry-delay"
  | .timeout => bytes "timeout"
  | .connCheckInterval => bytes "conn-check-interval"
  | .ttl => bytes "ttl"
  | .errorTtl => bytes "error-ttl"
  | .groupThreshold => bytes "group-threshold"
  | .smoothingWindow => bytes "smoothing-window"
  | .flapThreshold => bytes "flap-threshold"
  | .maxFlaps => bytes "max-flaps"
  | .slowThreshold => bytes "slow-threshold"
  | .remoteFallback => bytes "remote-fallback"
  | .localFallback => bytes "local-fallback"
  | .sourceAddress => bytes "source-address"
  | .tosValue => bytes "tos-value"
  | .dnsType => bytes "dns-type"
  | .flowType => bytes "flow-type"
  | .hostGroup => bytes "host-group"
  | .failureResponse => bytes "failure-response"
  | .allowHosts => bytes "allow-hosts"
  | .authDomain => bytes "auth-domain"

def ofText (s : HMString) : Option GroupKey :=
  [.name, .rtMode, .host, .dualStackMode, .checkType, .checkPort, .uri, .checkInfo, .checkRetries,
    .checkRetryDelay, .timeout, .connCheckInterval, .ttl, .errorTtl, .groupThreshold,
    .smoothingWindow, .flapThreshold, .maxFlaps, .slowThreshold, .remoteFallback, .localFallback,
    .sourceAddress, .tosValue, .dnsType, .flowType, .hostGroup, .failureResponse, .allowHosts,
    .authDomain].find? fun k : GroupKey => k.text = s

@[simp] theorem ofText_text (k : GroupKey) : ofText k.text = some k := by
  cases k <;> decide

theorem ofText_eq_some_iff {s : HMString} {k : GroupKey} : ofText s = some k ↔ s = k.text := by
  constructor
  · intro h
    rw [ofText] at h
    exact (by simpa using List.find?_some h : k.text = s).symm
  · rintro rfl
    exact ofText_text k

end GroupKey

def rtTotal : MeasurementOptions := 0x10

def rtSmoothedTotal : MeasurementOptions := 0x12

section Names

/-! The texts of the values, as the parser knows them and as the writer prints them. -/

def rtModes : List (HMString × MeasurementOptions) :=
  [(bytes "connect", rtConnect), (bytes "smoothed-connect", rtSmoothedConnect),
    (bytes "total", rtTotal), (bytes "smoothed-total", rtSmoothedTotal)]

def dualStackModes : List (HMString × DualStack) :=
  [(bytes "ipv4-only", .ipv4Only), (bytes "both", .both), (bytes "ipv6-only", .ipv6Only)]

def dnsTypes : List (HMString × DnsType) :=
  [(bytes "lookup", .lookup), (bytes "static", .static)]

def flowTypes : List (HMString × FlowType) :=
  [(bytes "dns-health", .dnsHealth), (bytes "remote-hostgroup", .remoteHostgroup),
    (bytes "remote-host", .remoteHost)]

/-- The check types, with the ports they set if there is none. -/
def checkTypes : List (HMString × CheckType × Option UInt16) :=
  [(bytes "http", .http, some 80), (bytes "https", .https, some 443),
    (bytes "https-mtls", .mtlsHttps, some 443), (bytes "tcp", .tcp, some 80),
    (bytes "tcps", .tcps, some 80), (bytes "none", .none, none), (bytes "ftp", .ftp, some 21),
    (bytes "dns", .dns, some 53), (bytes "dnsvc", .dnsvc, some 53),
    (bytes "https-no-peer-check", .httpsNoPeerCheck, some 443),
    (bytes "https-mtls-no-peer-check", .mtlsHttpsNoPeerCheck, some 443),
    (bytes "ftps-implicit", .ftpsImplicit, some 990),
    (bytes "ftps-implicit-no-peer-check", .ftpsImplicitNoPeerCheck, some 990),
    (bytes "ftps", .ftpsExplicit, some 21), (bytes "ftps-explicit", .ftpsExplicit, some 21),
    (bytes "ftps-explicit-no-peer-check", .ftpsExplicitNoPeerCheck, some 21),
    (bytes "http-auxfetch", .auxHttp, some 80), (bytes "https-auxfetch", .auxHttps, some 443),
    (bytes "https-no-peer-check-auxfetch", .auxHttpsNoPeerCheck, some 443),
    (bytes "http-mark", .markHttp, some 80), (bytes "https-mark", .markHttps, some 443),
    (bytes "https-mark-no-peer-check", .markHttpsNoPeerCheck, some 443)]

/-- The printer has no text of its own for the checks that fetch, nor one for the encrypted TCP
checks. -/
def printCheckTypeConfigs : CheckType → HMString
  | .none => bytes "none"
  | .http | .auxHttp => bytes "http"
  | .tcp => bytes "tcp"
  | .https | .auxHttps => bytes "https"
  | .httpsNoPeerCheck | .auxHttpsNoPeerCheck => bytes "https-no-peer-check"
  | .ftp => bytes "ftp"
  | .dns => bytes "dns"
  | .dnsvc => bytes "dnsvc"
  | .ftpsImplicit => bytes "ftps-implicit"
  | .ftpsImplicitNoPeerCheck => bytes "ftps-implicit-no-peer-check"
  | .ftpsExplicit => bytes "ftps-explicit"
  | .ftpsExplicitNoPeerCheck => bytes "ftps-explicit-no-peer-check"
  | .mtlsHttps | .auxMtlsHttps => bytes "https-mtls"
  | .mtlsHttpsNoPeerCheck | .auxMtlsHttpsNoPeerCheck => bytes "https-mtls-no-peer-check"
  | .markHttp => bytes "http-mark"
  | .markHttps => bytes "https-mark"
  | .markHttpsNoPeerCheck => bytes "https-mark-no-peer-check"
  | .default | .tcps | .invalid => bytes "default (empty) value"

def printMeasurementOptions (rtMode : MeasurementOptions) : HMString :=
  if rtMode = rtConnect then bytes "connect"
  else if rtMode = rtSmoothedConnect then bytes "smoothed-connect"
  else if rtMode = rtTotal then bytes "total"
  else if rtMode = rtSmoothedTotal then bytes "smoothed-total"
  else bytes "connect"

def printDualStack : DualStack → HMString
  | .ipv6Only => bytes "ipv6-only"
  | .both => bytes "both"
  | .undefined | .ipv4Only => bytes "ipv4-only"

def printFlowType : FlowType → HMString
  | .dnsHealth => bytes "dns-health"
  | .remoteHostgroup => bytes "remote-hostgroup"
  | .remoteHost => bytes "remote-host"

end Names

/-- Both flags without those of a set. -/
def DistributedFallback.without : DistributedFallback → DistributedFallback → DistributedFallback
  | f, .none => f
  | _, .both => .none
  | .none, _ => .none
  | .local, .local | .remote, .remote => .none
  | .local, .remote | .both, .remote => .local
  | .remote, .local | .both, .local => .remote

theorem DistributedFallback.code_without (a b : DistributedFallback) :
    (a.without b).code = a.code &&& ~~~b.code := by
  cases a <;> cases b <;> rfl

/-- The group that is read, and what the parser keeps beside it. An invalid mode sets the last
valid one, of this or of an earlier group. -/
structure GroupParse where
  group : HMDataHostGroup
  indirectHost : SortedMap HMString HMString
  temp : MeasurementOptions
  nerr : UInt32
  deriving DecidableEq, Repr

namespace GroupParse

def error (p : GroupParse) : GroupParse := { p with nerr := p.nerr + 1 }

/-- Set a value that was found in a table, or count an error. -/
def setOr {α : Type} (p : GroupParse) (value : Option α) (set : HMDataHostGroup → α → HMDataHostGroup) :
    GroupParse :=
  match value with
  | some a => { p with group := set p.group a }
  | none => p.error

def setRtMode (p : GroupParse) (val : HMString) : GroupParse :=
  match rtModes.lookup val with
  | some mode => { p with temp := mode, group := { p.group with measurementOptions := mode } }
  | none => { p.error with group := { p.group with measurementOptions := p.temp } }

/-- Set a check type, and its port if there is none. -/
def setCheckType (g : HMDataHostGroup) (type : CheckType × Option UInt16) : HMDataHostGroup :=
  { g with
    checkType := type.1
    port := if g.port = 0 then type.2.getD g.port else g.port }

def setCheckInfo (p : GroupParse) (val : HMString) : GroupParse :=
  { p with
    group := { p.group with checkInfo := val }
    indirectHost := p.indirectHost.modify p.group.groupName fun _ => val }

def setPort (p : GroupParse) (val : HMString) : GroupParse :=
  if 0 ≤ atoi val && atoi val ≤ 65535 then
    { p with group := { p.group with port := UInt16.ofInt (atoi val) } }
  else p.error

/-- The unsigned long of the text, assigned to an int. -/
def tos (val : HMString) : Int := (strtoul val : Int).bmod (2 ^ 32)

/-- A negative value passes the test, and is cut to its low byte. -/
def setTOSValue (p : GroupParse) (val : HMString) : GroupParse :=
  if tos val ≤ 255 then { p with group := { p.group with tosValue := UInt8.ofInt (tos val) } }
  else p.error

/-- Turn a fallback on or off. -/
def setFallback (p : GroupParse) (val : HMString)
    (on off : DistributedFallback → DistributedFallback) : GroupParse :=
  if val = bytes "on" then
    { p with group := { p.group with distributedFallback := on p.group.distributedFallback } }
  else if val = bytes "off" then
    { p with group := { p.group with distributedFallback := off p.group.distributedFallback } }
  else p.error

variable (parseAddress : HMString → Option HMIPAddress)

/-- Read one key of a group. -/
def setKey (p : GroupParse) (pair : HMString × YamlNode) : Option GroupParse :=
  let val := pair.2.text
  let set (g : HMDataHostGroup) : Option GroupParse := some { p with group := g }
  match GroupKey.ofText pair.1 with
  | none => some p.error
  | some .name => some p
  | some .rtMode => some (p.setRtMode val)
  | some .host => pair.2.texts.bind fun hosts => set (hosts.foldl HMDataHostGroup.addHost p.group)
  | some .dualStackMode =>
    some (p.setOr (dualStackModes.lookup val) fun g mode => { g with dualstack := mode })
  | some .checkType =>
    if val = bytes "indirect-host" then
      some { p with
        indirectHost := p.indirectHost.insert p.group.groupName p.group.checkInfo }
    else some (p.setOr (checkTypes.lookup val) setCheckType)
  | some .checkPort => some (p.setPort val)
  | some .uri => some ({ p with group := setCheckType p.group (.http, some 80) }.setCheckInfo val)
  | some .checkInfo => some (p.setCheckInfo val)
  | some .checkRetries => set { p.group with numCheckRetries := .ofInt (atoi val) }
  | some .checkRetryDelay => set { p.group with checkRetryDelay := .ofInt (atoi val) }
  | some .timeout => set { p.group with checkTimeout := .ofInt (atoi val) }
  | some .ttl => set { p.group with checkTTL := .ofInt (atoi val) }
  | some .groupThreshold => set { p.group with groupThreshold := .ofInt (atoi val) }
  | some .smoothingWindow => set { p.group with smoothingWindow := .ofInt (atoi val) }
  | some .flapThreshold => set { p.group with flapThreshold := .ofInt ((atoi val).tdiv 1000) }
  | some .maxFlaps => set { p.group with maxFlaps := .ofInt (atoi val) }
  | some .slowThreshold => set { p.group with slowThreshold := .ofInt (atoi val) }
  -- the remote fallback is turned on either way
  | some .remoteFallback => some (p.setFallback val (.or · .remote) (.or · .remote))
  | some .localFallback => some (p.setFallback val (.or · .local) (.without · .local))
  | some .sourceAddress =>
    some (p.setOr (parseAddress val) fun g address => { g with sourceAddress := address })
  | some .tosValue => some (p.setTOSValue val)
  | some .dnsType => some (p.setOr (dnsTypes.lookup val) fun g type => { g with dnsType := type })
  | some .flowType => some (p.setOr (flowTypes.lookup val) fun g type => { g with flowType := type })
  | some .hostGroup =>
    pair.2.texts.bind fun names => set (names.foldl HMDataHostGroup.addHostGroup p.group)
  | some .connCheckInterval | some .errorTtl | some .failureResponse | some .allowHosts
  | some .authDomain => some p

end GroupParse

/-- The state of the parser of one file. -/
structure YamlParse where
  hostGroups : HMDataHostGroupMap
  configParams : HMConfigParams
  temp : MeasurementOptions
  nerr : UInt32
  deriving DecidableEq, Repr

namespace YamlParse

variable (parseAddress : HMString → Option HMIPAddress)

def error (p : YamlParse) : YamlParse := { p with nerr := p.nerr + 1 }

def setMasterMode (p : YamlParse) (val : HMString) : YamlParse :=
  if val = bytes "slave" then { p with configParams := { p.configParams with masterMode := false } }
  else if val = bytes "master" then
    { p with configParams := { p.configParams with masterMode := true } }
  else p

/-- The remote host that checks a domain. -/
def setMasterDomain (p : YamlParse) (name : HMString) (pairs : List (HMString × YamlNode)) :
    YamlParse :=
  let p := { p with
    configParams := { p.configParams with
      remoteChecks := p.configParams.remoteChecks.insert name [] } }
  pairs.foldl (fun p pair =>
    if pair.1 = bytes "master-check-domain" then p
    else if pair.1 = bytes "master-check-host" then
      { p with
        configParams := { p.configParams with
          remoteChecks := p.configParams.remoteChecks.modify name fun _ => pair.2.text } }
    else p.error) p

/-- Read the keys of a group into the one with its name, or into a new one. -/
def setGroup (p : YamlParse) (name : HMString) (pairs : List (HMString × YamlNode)) :
    Option YamlParse :=
  let group := (p.hostGroups.get? name).getD (.new name)
  (pairs.foldlM (GroupParse.setKey parseAddress)
    ⟨group, p.configParams.indirectHost, p.temp, p.nerr⟩).map fun r =>
      { hostGroups := p.hostGroups.set name r.group
        configParams := { p.configParams with indirectHost := r.indirectHost }
        temp := r.temp
        nerr := r.nerr }

def setNode (p : YamlParse) (pairs : List (HMString × YamlNode)) : Option YamlParse :=
  match pairs.lookup (bytes "master-check-mode") with
  | some mode => some (p.setMasterMode mode.text)
  | none =>
    match pairs.lookup (bytes "master-check-domain") with
    | some domain => some (p.setMasterDomain domain.text pairs)
    | none =>
      match pairs.lookup (bytes "name") with
      | some name => p.setGroup parseAddress name.text pairs
      | none => some p.error

/-- Read one node after the other; one that is not a map ends the file. -/
def setNodes : List YamlNode → YamlParse → Option YamlParse
  | [], p => some p
  | .map pairs :: nodes, p => (p.setNode parseAddress pairs).bind (setNodes nodes)
  | _ :: _, p => some p.error

end YamlParse

namespace HMConfigParserYAML

/-- Read the groups of a file into the configuration. -/
def parseConfig (parseAddress : HMString → Option HMIPAddress) (file : YamlNode)
    (hostGroups : HMDataHostGroupMap) (configParams : HMConfigParams) : Option YamlParse :=
  let p : YamlParse := ⟨hostGroups, configParams, rtConnect, 0⟩
  match file with
  | .sequence nodes => YamlParse.setNodes parseAddress nodes p
  | _ => some p.error

/-- One line of a group, by what it is to stand for. -/
def line (key : GroupKey) (text : HMString) : HMString × YamlNode := (key.text, .plain text)

/-- The lines of a list of names under a key, left out when it is empty. -/
def lines (key : GroupKey) (texts : List HMString) : List (HMString × YamlNode) :=
  if 0 < texts.length then [(key.text, .sequence (texts.map .plain))] else []

/-- The lines of a group in the order in which they are written. -/
def groupLines (printAddress : HMIPAddress → HMString) (g : HMDataHostGroup) :
    List (HMString × YamlNode) :=
  [line .name g.groupName, line .ttl (decimal g.checkTTL.toNat),
    line .checkType (printCheckTypeConfigs g.checkType)] ++
  (if 0 < g.checkInfo.length then [line .checkInfo g.checkInfo] else []) ++
  [line .timeout (decimal g.checkTimeout.toNat), line .checkPort (decimal g.port.toNat),
    line .dualStackMode (printDualStack g.dualstack)] ++
  (if 0 < g.numCheckRetries then
    [line .checkRetries (decimal g.numCheckRetries.toNat),
      line .checkRetryDelay (decimal g.checkRetryDelay.toNat)]
  else []) ++
  [line .groupThreshold (decimal g.groupThreshold.toNat), line .maxFlaps (decimal g.maxFlaps.toNat),
    line .flapThreshold (decimal (g.flapThreshold * 1000).toNat),
    line .slowThreshold (decimal g.slowThreshold.toNat),
    line .smoothingWindow (decimal g.smoothingWindow.toNat),
    line .rtMode (printMeasurementOptions g.measurementOptions)] ++
  (if g.sourceAddress.isSet then [line .sourceAddress (printAddress g.sourceAddress)] else []) ++
  (if g.tosValue ≠ 0 then [line .tosValue (decimal g.tosValue.toNat)] else []) ++
  [line .flowType (printFlowType g.flowType)] ++
  lines .host g.hosts ++ lines .hostGroup g.hostGroups

/-- A key with the text behind it, or with a line for each text below it. -/
def printLine (pair : HMString × YamlNode) : HMString :=
  pair.1 ++ bytes ": " ++
    match pair.2 with
    | .sequence nodes =>
      bytes "\n" ++ nodes.flatMap fun node => bytes "       - " ++ node.text ++ bytes "\n"
    | node => node.text ++ bytes "\n"

/-- The first line of a group carries the mark of the list, and a blank line ends the group. -/
def printGroup : List (HMString × YamlNode) → HMString
  | [] => []
  | name :: pairs =>
    bytes "-   " ++ printLine name ++ pairs.flatMap (fun pair => bytes "    " ++ printLine pair) ++
      bytes "\n"

def writeConfigs (printAddress : HMIPAddress → HMString) (groups : HMDataHostGroupMap) : HMString :=
  groups.entries.flatMap fun e => printGroup (groupLines printAddress e.2)

/-- The tree that the lines are to stand for. A file without a line is no list. -/
def spelledOut (printAddress : HMIPAddress → HMString) (groups : HMDataHostGroupMap) : YamlNode :=
  match groups.entries with
  | [] => .null
  | es => .sequence (es.map fun e => .map (groupLines printAddress e.2))

end HMConfigParserYAML

end NetCHASM
