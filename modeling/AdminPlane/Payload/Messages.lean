import AdminPlane.Payload.Basic

namespace AdminPlane.Payload

open AdminPlane.Json (Member)

/-- The first message from an operator: it hands the node its identity. -/
structure InitialisationRequest where
  nodeId : String
  privateKey : String
  keyVersion : UInt32
deriving DecidableEq, Repr

/-- The private key is never shown. -/
def InitialisationRequest.debug (m : InitialisationRequest) : String :=
  "InitialisationRequest \x7b node_id: " ++ Text.quoted m.nodeId ++
    ", private_key: \"[REDACTED]\", key_version: " ++ Decimal.natural m.keyVersion.toNat ++ " \x7d"

structure InitialisationRequest.Draft where
  nodeId : Option String := none
  privateKey : Option String := none
  keyVersion : Option UInt32 := none

instance : Payload InitialisationRequest where
  json m := .object
    [("node_id", .string m.nodeId), ("private_key", .string m.privateKey),
     ("key_version", .integer m.keyVersion.toNat)]
  read := Member.readRecord "InitialisationRequest"
    [field "node_id" InitialisationRequest.Draft.nodeId Json.Reader.string
       (fun d x => { d with nodeId := some x }) false,
     field "private_key" InitialisationRequest.Draft.privateKey Json.Reader.string
       (fun d x => { d with privateKey := some x }) false,
     field "key_version" InitialisationRequest.Draft.keyVersion Json.Reader.uint32
       (fun d x => { d with keyVersion := some x }) true]
    {}
    fun d => do
      return ⟨← require "node_id" d.nodeId, ← require "private_key" d.privateKey,
        d.keyVersion.getD 0⟩

/-- A request was carried out. -/
structure Ack where
  ack : Bool
  message : String
deriving DecidableEq, Repr

def Ack.ok (message : String) : Ack := ⟨true, message⟩

structure Ack.Draft where
  ack : Option Bool := none
  message : Option String := none

instance : Payload Ack where
  json m := .object [("ack", .bool m.ack), ("message", .string m.message)]
  read := Member.readRecord "Ack"
    [field "ack" Ack.Draft.ack Json.Reader.boolean (fun d x => { d with ack := some x }) false,
     field "message" Ack.Draft.message Json.Reader.string (fun d x => { d with message := some x }) true]
    {}
    fun d => do
      return ⟨← require "ack" d.ack, d.message.getD ""⟩

structure ListPeersRequest where
deriving DecidableEq, Repr

instance : Payload ListPeersRequest where
  json _ := .object []
  read := Member.readRecord "ListPeersRequest" ([] : List (Member Unit)) () fun _ => .ok ⟨⟩

structure ListPeersResponse where
  peers : List Reputation
deriving DecidableEq, Repr

instance : Payload ListPeersResponse where
  json m := .object [("peers", .array (m.peers.map Payload.json))]
  read := Member.readRecord "ListPeersResponse"
    [field "peers" id (Json.List.read Payload.read) (fun _ x => some x) false]
    (none : Option (List Reputation))
    fun d => do return ⟨← require "peers" d⟩

structure InspectPeerRequest where
  peerId : String
  first : UInt64
  last : UInt64
deriving DecidableEq, Repr

def InspectPeerRequest.ofPeer (id : String) : InspectPeerRequest := ⟨id, 0, defaultInspectRange⟩

structure InspectPeerRequest.Draft where
  peerId : Option String := none
  first : Option UInt64 := none
  last : Option UInt64 := none

instance : Payload InspectPeerRequest where
  json m := .object
    [("peer_id", .string m.peerId), ("from", .integer m.first.toNat), ("to", .integer m.last.toNat)]
  read := Member.readRecord "InspectPeerRequest"
    [field "peer_id" InspectPeerRequest.Draft.peerId Json.Reader.string
       (fun d x => { d with peerId := some x }) false,
     field "from" InspectPeerRequest.Draft.first Json.Reader.uint64
       (fun d x => { d with first := some x }) true,
     field "to" InspectPeerRequest.Draft.last Json.Reader.uint64
       (fun d x => { d with last := some x }) true]
    {}
    fun d => do
      return ⟨← require "peer_id" d.peerId, d.first.getD 0, d.last.getD defaultInspectRange⟩

/-- The answer on an untracked peer has no reputation and empty logs. -/
abbrev InspectPeerResponse := Snapshot

structure InspectPeerResponse.Draft where
  reputation : Option (Option Reputation) := none
  history : Option (List Record) := none
  violations : Option (List Record) := none

instance : Payload InspectPeerResponse where
  json m := .object
    [("reputation", m.reputation.elim .null Payload.json),
     ("history", .array (m.history.map Payload.json)),
     ("violations", .array (m.violations.map Payload.json))]
  read := Member.readRecord "InspectPeerResponse"
    [field "reputation" InspectPeerResponse.Draft.reputation (Json.Reader.nullable Payload.read)
       (fun d x => { d with reputation := some x }) false,
     field "history" InspectPeerResponse.Draft.history (Json.List.read Payload.read)
       (fun d x => { d with history := some x }) true,
     field "violations" InspectPeerResponse.Draft.violations (Json.List.read Payload.read)
       (fun d x => { d with violations := some x }) true]
    {}
    fun d => .ok ⟨d.reputation.join, d.history.getD [], d.violations.getD []⟩

inductive PeerStatus where
  | pend
  | resume
  | block
  | unblock
deriving DecidableEq, Repr

namespace PeerStatus

def text : PeerStatus → String
  | pend => "pend"
  | resume => "resume"
  | block => "block"
  | unblock => "unblock"

def all : List PeerStatus := [pend, resume, block, unblock]

/-- Exactly the lower-case names. -/
def ofText? (s : String) : Option PeerStatus := all.find? (·.text = s)

/-- The member of a ledger that a status names. -/
def mutation (id : String) : PeerStatus → Mutation
  | pend => .pend id
  | resume => .resume id
  | block => .block id
  | unblock => .unblock id

end PeerStatus

/-- Said of a text that names no status. -/
def statusNotFound : String := "Matching variant not found"

structure ChangePeerStatusRequest where
  peerId : String
  status : PeerStatus
deriving DecidableEq, Repr

structure ChangePeerStatusRequest.Draft where
  peerId : Option String := none
  status : Option PeerStatus := none

instance : Payload ChangePeerStatusRequest where
  json m := .object [("peer_id", .string m.peerId), ("status", .string m.status.text)]
  read := Member.readRecord "ChangePeerStatusRequest"
    [field "peer_id" ChangePeerStatusRequest.Draft.peerId Json.Reader.string
       (fun d x => { d with peerId := some x }) false,
     field "status" ChangePeerStatusRequest.Draft.status
       (Json.Variant.read (PeerStatus.all.map fun s => (s.text, s)))
       (fun d x => { d with status := some x }) false]
    {}
    fun d => do
      return ⟨← require "peer_id" d.peerId, ← require "status" d.status⟩

/-- Why a payload is not the message it should be. -/
inductive MessageError where
  | malformed (error : Json.Error)
  | unexpectedType (expected : Channel.MessageType) (actual : UInt8)
deriving DecidableEq, Repr

def MessageError.message : MessageError → String
  | malformed error => "malformed message payload: " ++ error.message
  | unexpectedType expected actual =>
    "expected " ++ expected.display ++ " response, got " ++ Channel.MessageType.label actual

def expectType (expected : Channel.MessageType) (actual : UInt8) : Except MessageError Unit :=
  if expected.toByte = actual then .ok () else .error (.unexpectedType expected actual)

end AdminPlane.Payload
