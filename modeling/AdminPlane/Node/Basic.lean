import AdminPlane.Ledger.Basic
import AdminPlane.Node.Registration
import AdminPlane.Payload.Messages
import AdminPlane.Server.Basic

namespace AdminPlane

open Channel (Frame MessageType)

/-- What the handlers of a node act on. -/
structure NodeState where
  ledger : Ledger
  registration : Registration

namespace NodeState

def start : NodeState := ⟨.empty, .start⟩

def replyWith [Payload α] (type : MessageType) (message : α) : Outcome :=
  .reply ⟨type.toByte, Payload.encode message⟩

def acknowledgement (message : String) : Outcome := replyWith .ack (Payload.Ack.ok message)

/-- The wording of a payload that does not decode. -/
def malformed (e : Json.Error) : Outcome :=
  .refuse (Payload.MessageError.malformed e).message

/-- Accepts the identity of the node. -/
def initialise : Handler NodeState := fun payload node =>
  match Payload.decode Payload.InitialisationRequest payload with
  | .error e => (malformed e, node)
  | .ok request =>
    let accepted := do
      let identity ← Identity.check request.nodeId request.privateKey request.keyVersion
      node.registration.initialise identity
    match accepted with
    | .error e => (.refuse e.message, node)
    | .ok registration => (acknowledgement "initialisation accepted", { node with registration })

def notInitialised : String := "node not initialised"

/-- Refuses until the node is registered, whatever the payload, and then decodes it. -/
def whenRegistered (α : Type) [Payload α] (act : α → NodeState → Outcome × NodeState) :
    Handler NodeState := fun payload node =>
  if node.registration.isRegistered then
    match Payload.decode α payload with
    | .error e => (malformed e, node)
    | .ok request => act request node
  else (.refuse notInitialised, node)

/-- The ledger lists its peers in no order; here they are sorted by name. -/
def peers (node : NodeState) : List Reputation :=
  (node.ledger.listPeers.filterMap node.ledger.accounts.reputation?).mergeSort
    fun a b => (compare a.peerId b.peerId).isLE

def listPeers : Handler NodeState :=
  whenRegistered Payload.ListPeersRequest fun _ node =>
    (replyWith .listPeersResponse (⟨node.peers⟩ : Payload.ListPeersResponse), node)

def inspectPeer : Handler NodeState :=
  whenRegistered Payload.InspectPeerRequest fun request node =>
    let snapshot :=
      node.ledger.accounts.inspect request.peerId request.first.toNat request.last.toNat
    (replyWith .inspectPeerResponse (snapshot : Payload.InspectPeerResponse), node)

def changePeerStatus : Handler NodeState :=
  whenRegistered Payload.ChangePeerStatusRequest fun request node =>
    if node.ledger.accounts.contains request.peerId then
      (acknowledgement ("peer " ++ request.peerId ++ ": " ++ request.status.text),
        { node with ledger := node.ledger.apply (request.status.mutation request.peerId) })
    else (.refuse ("peer not found: " ++ request.peerId), node)

def handlers : List (MessageType × Handler NodeState) :=
  [(.initialisation, initialise),
   (.listPeersRequest, listPeers),
   (.inspectPeerRequest, inspectPeer),
   (.changePeerStatusRequest, changePeerStatus)]

end NodeState

/-- A node: its state, and the server that gives access to it. -/
structure Node where
  state : NodeState
  server : Server NodeState

namespace Node

def ofConfig (config : ServerConfig) : Node where
  state := .start
  server := NodeState.handlers.foldl (fun s (type, handler) => s.addHandler type.toByte handler)
    (.ofConfig config)

def start (n : Node) (bind : String → Except BindError Endpoint) : Except StartError Node :=
  (n.server.start bind).map fun server => { n with server }

def shutdown (n : Node) : Node := { n with server := n.server.shutdown }

def receive (n : Node) (nonce : Channel.Nonce) (request : Request) : Option Response × Node :=
  let (response, server, state) := n.server.receive nonce request n.state
  (response, ⟨state, server⟩)

/-- Nothing stands between the two phases: a pending registration is acknowledged. -/
def completeRegistration (n : Node) : Node :=
  match n.state.registration.acknowledge with
  | .ok registration => { n with state := { n.state with registration } }
  | .error _ => n

end Node

end AdminPlane
