import NetCHASM.StorageRecords
import NetCHASM.Library.Decimal
import NetCHASM.Library.Decoding

/-! Aux info as a document of elements. Printing a document and parsing the text are taken to
be inverse, so that the generator makes a tree of elements and the parser reads one. -/
namespace NetCHASM

open Decimal Decoding

inductive XmlNode where
  | element (name : HMString) (attributes : List (HMString × HMString)) (value : HMString)
      (children : List XmlNode)

namespace XmlNode

def name : XmlNode → HMString
  | element name _ _ _ => name

def value : XmlNode → HMString
  | element _ _ value _ => value

def children : XmlNode → List XmlNode
  | element _ _ _ children => children

def firstAttribute : XmlNode → HMString → Option HMString
  | element _ attributes _ _, name => (attributes.find? fun a => a.1 = name).map Prod.snd

def firstNode (n : XmlNode) (name : HMString) : Option XmlNode :=
  n.children.find? fun child => child.name = name

/-- The first node of a name and its siblings of the same name. -/
def nodes (n : XmlNode) (name : HMString) : List XmlNode :=
  n.children.filter fun child => child.name = name

def leaf (name value : HMString) : XmlNode := element name [] value []

end XmlNode

inductive AuxType where
  | loadFile
  | oobFile
  deriving DecidableEq, Repr

namespace AuxType

def rootName : AuxType → HMString
  | .loadFile => bytes "load-file"
  | .oobFile => bytes "oob-file"

def resourceName : AuxType → HMString
  | .loadFile => bytes "resource"
  | .oobFile => bytes "resource-oob"

end AuxType

namespace HMAuxBase

def type : HMAuxBase → AuxType
  | .loadFB .. => .loadFile
  | .oob .. => .oobFile

def host : HMAuxBase → HMString
  | .loadFB host .. => host
  | .oob host .. => host

def resource : HMAuxBase → HMString
  | .loadFB _ resource .. => resource
  | .oob _ resource .. => resource

def ts : HMAuxBase → HMTimeStamp
  | .loadFB _ _ _ ts .. => ts
  | .oob _ _ _ ts .. => ts

end HMAuxBase

section Generator

def timeNode (ts : HMTimeStamp) : XmlNode :=
  .leaf (bytes "time") (decimal ts.getTimeSinceEpoch.toNat)

/-- The nodes below a host. A force-down value that is not defined is printed as true. -/
def hostFields : HMAuxBase → List XmlNode
  | .loadFB _ _ _ ts _ load target max =>
    [timeNode ts, .leaf (bytes "load") (decimalInt load.toInt),
      .leaf (bytes "target") (decimalInt target.toInt), .leaf (bytes "max") (decimalInt max.toInt)]
  | .oob _ _ _ ts forceDown shed =>
    [timeNode ts,
      .leaf (bytes "force-down") (if forceDown ≠ .false then bytes "true" else bytes "false")] ++
      if shed ≠ 0 then [.leaf (bytes "shed") (decimal shed.toNat)] else []

def hostNode (r : HMAuxBase) : XmlNode :=
  .element (bytes "host") [(bytes "name", cStr r.host)] [] (hostFields r)

/-- The time of a host node that is there already. -/
def hostTime (n : XmlNode) : UInt64 :=
  .ofInt (strtol (((n.firstNode (bytes "time")).map XmlNode.value).getD [])).1

def isHost (host : HMString) (n : XmlNode) : Bool := n.firstAttribute (bytes "name") = some host

/-- A host is added to its resource, unless a node of its name is there that is not older. -/
def addHost (r : HMAuxBase) (hosts : List XmlNode) : List XmlNode :=
  match hosts.find? (isHost r.host) with
  | none => hosts ++ [hostNode r]
  | some old =>
    if hostTime old < r.ts.getTimeSinceEpoch then hosts.eraseP (isHost r.host) ++ [hostNode r]
    else hosts

/-- The resources met so far, with their host nodes, in the order of their nodes. -/
def addRecord (type : AuxType) (resources : List (HMString × List XmlNode)) (r : HMAuxBase) :
    List (HMString × List XmlNode) :=
  if r.type ≠ type then resources
  else if (resources.any fun e => e.1 = r.resource) then
    resources.map fun e => if e.1 = r.resource then (e.1, addHost r e.2) else e
  else resources ++ [(r.resource, addHost r [])]

/-- The document of the records of a type. -/
def genAuxData (info : HMAuxInfo) (type : AuxType) : XmlNode :=
  .element type.rootName [(bytes "updated", decimal info.ts.getTimeSinceEpoch.toNat)] []
    ((info.auxData.foldl (addRecord type) []).map fun e =>
      .element type.resourceName [(bytes "name", cStr e.1)] [] e.2)

end Generator

section Parser

/-- A time in seconds, as milliseconds. A product that does not fit a long is undefined. -/
def readTime (s : HMString) : Read (Option HMTimeStamp) :=
  let (seconds, range) := strtol s
  let tempTime := seconds * 1000
  if tempTime < longMin ∨ longMax < tempTime then .error .overflow
  else if range && (tempTime = longMax || tempTime = longMin || tempTime = 0) then .ok none
  else .ok (some (.ofUInt64 (.ofInt tempTime)))

/-- The time of a host, which is that of the file if it has none of its own. -/
def readHostTime (filets : HMTimeStamp) (host : XmlNode) : Read HMTimeStamp :=
  match host.firstNode (bytes "time") with
  | none => .ok filets
  | some n => do return (← readTime n.value).getD filets

/-- A number below a host; one that is missing keeps the value of the host before. -/
def readNumber (old : Int64) (host : XmlNode) (tag : HMString) : Int64 :=
  match host.firstNode tag with
  | none => old
  | some n =>
    let (v, range) := strtol n.value
    if range && (v = longMax || v = longMin || v = 0) then 0 else .ofInt v

/-- The hosts of a load resource. -/
def parseLoadHosts (address : HMIPAddress) (resource : HMString) (filets : HMTimeStamp) :
    Int64 → Int64 → Int64 → List XmlNode → HMAuxInfo → Read (Bool × HMAuxInfo)
  | _, _, _, [], info => .ok (true, info)
  | load, target, max, n :: ns, info =>
    match n.firstAttribute (bytes "name") with
    | none => .ok (false, info)
    | some host => do
      let load := readNumber load n (bytes "load")
      let target := readNumber target n (bytes "target")
      let max := readNumber max n (bytes "max")
      let ts ← readHostTime filets n
      parseLoadHosts address resource filets load target max ns
        { info with
          auxData := info.auxData ++ [.loadFB host resource address ts [] load target max] }

/-- The shed percentage of a host; a value above 100 is dropped. -/
def readShed (host : XmlNode) : UInt32 :=
  match host.firstNode (bytes "shed") with
  | none => 0
  | some n =>
    let (v, range) := strtol n.value
    let shed : UInt32 := .ofInt v
    if (range && (shed = 4294967295 || shed = 0)) || decide (100 < shed) then 0 else shed

def readForceDown (host : XmlNode) : OobForcedown :=
  match host.firstNode (bytes "force-down") with
  | none => .none
  | some n => if n.value = bytes "true" then .true else .false

/-- The hosts of an out-of-band resource. -/
def parseOOBHosts (address : HMIPAddress) (resource : HMString) (filets : HMTimeStamp) :
    List XmlNode → HMAuxInfo → Read (Bool × HMAuxInfo)
  | [], info => .ok (true, info)
  | n :: ns, info =>
    match n.firstAttribute (bytes "name") with
    | none => .ok (false, info)
    | some host => do
      let ts ← readHostTime filets n
      parseOOBHosts address resource filets ns
        { info with
          auxData := info.auxData ++
            [.oob host resource address ts (readForceDown n) (readShed n)] }

def parseHosts (type : AuxType) (address : HMIPAddress) (resource : HMString)
    (filets : HMTimeStamp) (hosts : List XmlNode) (info : HMAuxInfo) : Read (Bool × HMAuxInfo) :=
  match type with
  | .loadFile => parseLoadHosts address resource filets 0 0 0 hosts info
  | .oobFile => parseOOBHosts address resource filets hosts info

/-- The resources of a file; the first one without a name or a host ends the parse. -/
def parseResources (type : AuxType) (address : HMIPAddress) (filets : HMTimeStamp) :
    List XmlNode → HMAuxInfo → Read (Bool × HMAuxInfo)
  | [], info => .ok (true, info)
  | n :: ns, info =>
    match n.firstAttribute (bytes "name") with
    | none => .ok (false, info)
    | some resource =>
      match n.nodes (bytes "host") with
      | [] => .ok (false, info)
      | hosts => do
        let (parsed, info) ← parseHosts type address resource filets hosts info
        if parsed then parseResources type address filets ns info else return (false, info)

def parseFile (type : AuxType) (address : HMIPAddress) (root : XmlNode) (info : HMAuxInfo) :
    Read (Bool × HMAuxInfo) :=
  match root.firstAttribute (bytes "updated") with
  | none => .ok (false, info)
  | some updated => do
    match ← readTime updated with
    | none => return (false, info)
    | some filets =>
      let info := { info with ts := filets }
      match root.nodes type.resourceName with
      | [] => return (false, info)
      | resources => parseResources type address filets resources info

def parseNewLFB (address : HMIPAddress) (root : XmlNode) (info : HMAuxInfo) :
    Read (Bool × HMAuxInfo) :=
  parseFile .loadFile address root info

def parseOOB (address : HMIPAddress) (root : XmlNode) (info : HMAuxInfo) :
    Read (Bool × HMAuxInfo) :=
  parseFile .oobFile address root info

def parseAuxData (address : HMIPAddress) (root : XmlNode) (info : HMAuxInfo) :
    Read (Bool × HMAuxInfo) :=
  if root.name = bytes "load-file" then parseNewLFB address root info
  else if root.name = bytes "oob-file" then parseOOB address root info
  else .ok (false, info)

end Parser

end NetCHASM
