import AdminPlane.CommandLine.Reading
import AdminPlane.Server.Basic

namespace AdminPlane.CommandLine

open Payload (InitialisationRequest InspectPeerRequest ChangePeerStatusRequest)

structure LogOptions where
  quiet : Bool := false
  verbosity : Nat := 0
  filter : Option String := none
  json : Bool := false
deriving DecidableEq, Repr

/-- What the command line says on a node, and the key the environment gives. -/
structure NodeOptions where
  config : Option String
  addr : Option String
  key : Option String
  maxBodySize : Option Nat
  environmentKey : Option String
deriving DecidableEq, Repr

/-- Where the value of an option was found. -/
inductive ValueSource where
  | commandLine
  | environment
  | default
deriving DecidableEq, Repr

/-- The value of an option, and where it was found. -/
structure Found (α : Type) where
  value : α
  source : ValueSource
deriving DecidableEq, Repr

/-- The environment stands behind the command line and the default behind both. -/
def Found.of (given environment : Option α) (default : α) : Found α :=
  match given, environment with
  | some a, _ => ⟨a, .commandLine⟩
  | none, some a => ⟨a, .environment⟩
  | none, none => ⟨default, .default⟩

/-- Where the value of each setting was found. -/
structure Sources where
  addr : ValueSource
  key : ValueSource
  maxBodySize : ValueSource
deriving DecidableEq, Repr

namespace NodeOptions

def addrFound (o : NodeOptions) : Found String := .of o.addr none ServerConfig.defaultAddr

/-- The key alone is looked for in the environment. -/
def keyFound (o : NodeOptions) : Found String := .of o.key o.environmentKey ""

def maxBodySizeFound (o : NodeOptions) : Found Nat :=
  .of o.maxBodySize none ServerConfig.defaultMaxBodySize

/-- What the options alone come to. -/
def admin (o : NodeOptions) : ServerConfig :=
  ⟨o.addrFound.value, o.keyFound.value, o.maxBodySizeFound.value⟩

def sources (o : NodeOptions) : Sources :=
  ⟨o.addrFound.source, o.keyFound.source, o.maxBodySizeFound.source⟩

end NodeOptions

/-- What an operator asks for. -/
inductive Operation where
  | init (request : InitialisationRequest)
  | listPeers
  | inspectPeer (request : InspectPeerRequest)
  | changePeerStatus (request : ChangePeerStatusRequest)
  | generateKey
deriving DecidableEq, Repr

structure AdminOptions where
  addr : String
  key : Option String
  operation : Operation
deriving DecidableEq, Repr

inductive Command where
  | node (options : NodeOptions)
  | admin (options : AdminOptions)
deriving DecidableEq, Repr

structure Invocation where
  logs : LogOptions
  command : Command
deriving DecidableEq, Repr

/-- The environment variable that holds the key. -/
def keyVariable : String := "FCR_ADMIN_KEY"

namespace Entry

def text? (e : Entry) (slot : Slot) : Option String :=
  match e.given.lookup slot with
  | some (.text s) => some s
  | _ => none

def number? (e : Entry) (slot : Slot) : Option Nat :=
  match e.given.lookup slot with
  | some (.number n) => some n
  | _ => none

def status? (e : Entry) (slot : Slot) : Option Payload.PeerStatus :=
  match e.given.lookup slot with
  | some (.status s) => some s
  | _ => none

def nodeOptions (e : Entry) (environment : Option String) : NodeOptions where
  config := e.text? .config
  addr := e.text? .nodeAddr
  key := e.text? .nodeKey
  maxBodySize := e.number? .maxBodySize
  environmentKey := environment

/-- Nothing if the level is no operation or lacks an argument that it requires. -/
def operation? (e : Entry) : Option Operation :=
  match e.level with
  | .init => do
    return .init ⟨← e.text? .nodeId, ← e.text? .privateKey,
      UInt32.ofNat ((e.number? .keyVersion).getD 0)⟩
  | .listPeers => some .listPeers
  | .inspectPeer => do
    return .inspectPeer ⟨← e.text? .peerId, UInt64.ofNat ((e.number? .first).getD 0),
      UInt64.ofNat ((e.number? .last).getD Payload.defaultInspectRange.toNat)⟩
  | .changePeerStatus => do
    return .changePeerStatus ⟨← e.text? .peerId, ← e.status? .status⟩
  | .generateKey => some .generateKey
  | _ => none

end Entry

namespace LogOptions

/-- The innermost level that says something on a slot decides. -/
def innermost (entries : List Entry) (slot : Slot) : Option Argument :=
  entries.reverse.findSome? fun e => e.given.lookup slot

def ofEntries (entries : List Entry) : LogOptions where
  quiet := (innermost entries .quiet).isSome
  verbosity :=
    match innermost entries .verbosity with
    | some (.count n) => n
    | _ => 0
  filter :=
    match innermost entries .logFilter with
    | some (.text s) => some s
    | _ => none
  json := (innermost entries .logJson).isSome

end LogOptions

namespace Command

def ofEntries? (environment : Option String) : List Entry → Option Command
  | [_, ⟨.node, given⟩] => some (.node ((⟨.node, given⟩ : Entry).nodeOptions environment))
  | [_, channel, last] => do
    return .admin {
      addr := (channel.text? .adminAddr).getD ServerConfig.defaultAddr
      key := (channel.text? .adminKey).or environment
      operation := ← last.operation? }
  | _ => none

end Command

/-- The words behind the program's name, and the key that the environment holds. -/
def Invocation.ofWords (environment : Option String) (words : List String) :
    Except Stop Invocation := do
  let entries ← read environment .program (.ofLevel .program) words
  match Command.ofEntries? environment entries with
  | some command => return ⟨.ofEntries entries, command⟩
  | none => throw .missingSubcommand

end AdminPlane.CommandLine
