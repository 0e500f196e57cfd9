import AdminPlane.CommandLine.Operator
import AdminPlane.Proofs.Client.Verdict
import AdminPlane.Proofs.Ledger.Listing
import AdminPlane.Proofs.Node.Reachable
import AdminPlane.Proofs.Server.Relay

namespace AdminPlane

open Channel (Frame Key MessageType Nonce)
open CommandLine (AdminOptions OperatorError)
open Payload (Ack ChangePeerStatusRequest Faithful InspectPeerRequest InspectPeerResponse
  ListPeersRequest ListPeersResponse)

namespace Payload.PeerStatus

/-- What a status asks for: a flag, and the value that the flag is to have. -/
inductive Sets : PeerStatus → Flag → Bool → Prop
  | pend : Sets .pend .pending true
  | resume : Sets .resume .pending false
  | block : Sets .block .blocked true
  | unblock : Sets .unblock .blocked false

theorem exists_sets (status : PeerStatus) : ∃ flag value, status.Sets flag value := by
  cases status with
  | pend => exact ⟨_, _, .pend⟩
  | resume => exact ⟨_, _, .resume⟩
  | block => exact ⟨_, _, .block⟩
  | unblock => exact ⟨_, _, .unblock⟩

/-- The member that a status names does what the status asks for. -/
theorem Sets.mutation_eq {status : PeerStatus} {flag : Flag} {value : Bool}
    (h : status.Sets flag value) (id : String) : status.mutation id = .setFlag id flag value := by
  cases h
  all_goals rfl

end Payload.PeerStatus

namespace Node

/-- The way to a node and back, with the nonce of its answer. -/
def exchange (answered : Nonce) (request : Request) : StateM Node (Option Response) :=
  fun n => n.receive answered request

/-- A call of an operator on a node: what comes of it, and the node behind it. -/
def call [Payload α] (β : Type) [Payload β] (n : Node) (c : Client) (asked answered : Nonce)
    (type : MessageType) (message : α) (expected : MessageType) :
    Except OperatorError β × Node :=
  (AdminOptions.call β c asked type message expected (exchange answered)).run n

/-- The sealed form of a request is no longer than the node takes. -/
def Fits [Payload α] (n : Node) (c : Client) (asked : Nonce) (type : MessageType)
    (message : α) : Prop :=
  (c.key.sealFrame asked ⟨type.toByte, Payload.encode message⟩).length ≤ n.server.config.maxBodySize

/-- What an operator makes of the response that comes back. -/
theorem call_of_receive [Payload α] [Payload β] {n m : Node} {c : Client} {asked answered : Nonce}
    {type : MessageType} {message : α} (expected : MessageType) {r : Response}
    (hr : n.receive answered (c.post asked ⟨type.toByte, Payload.encode message⟩) = (some r, m)) :
    n.call β c asked answered type message expected = (do
      let frame ← (c.verdict r).mapError (.request type)
      (Payload.expectType expected frame.type).mapError .reply
      (Payload.decode β frame.payload).mapError fun e => .reply (.malformed e), m) := by
  have hrun : (exchange answered (c.post asked ⟨type.toByte, Payload.encode message⟩)).run n =
      pure (some r, m) := hr
  simp only [call, AdminOptions.call, Client.request, StateT.run_bind, hrun, pure_bind,
    StateT.run_pure]
  rfl

section Link

variable {config : ServerConfig} {n : Node} {c : Client} (h : Reachable config n)
  (running : n.server.isRunning = true) (key : Key.parse config.key = .ok c.key) (root : c.AtRoot)
include h running key root

theorem receive_handled {type : MessageType} {handler : Handler NodeState}
    (hm : (type, handler) ∈ NodeState.handlers) (asked answered : Nonce) (payload : List UInt8)
    (hfits : (c.key.sealFrame asked ⟨type.toByte, payload⟩).length ≤ n.server.config.maxBodySize) :
    ∃ m, n.receive answered (c.post asked ⟨type.toByte, payload⟩) =
        (some ((handler payload n.state).1.response c.key answered), m) ∧
      m.state = (handler payload n.state).2 := by
  obtain ⟨tally, hreceive⟩ :=
    Server.receive_post h.server running key root asked answered ⟨type.toByte, payload⟩ n.state
  have hopen := c.key.openFrame_sealFrame asked ⟨type.toByte, payload⟩
  have hprocess := Dispatch.process_opened (d := n.server.dispatch c.key) hfits hopen n.state
  have hentry : (n.server.dispatch c.key).handlers[type.toByte]? = some handler :=
    (reachable_serves h).own _ hm
  rw [hentry] at hprocess
  rw [hprocess, ← Outcome.response_eq] at hreceive
  exact ⟨⟨_, { n.server with tally }⟩, by rw [Node.receive, hreceive], rfl⟩

theorem call_reply [Payload α] [Payload β] {type expected : MessageType}
    {handler : Handler NodeState} (hm : (type, handler) ∈ NodeState.handlers)
    (asked answered : Nonce) {message : α} (hfits : n.Fits c asked type message) {reply : β}
    {s : NodeState} (hβ : Faithful β)
    (hreply : handler (Payload.encode message) n.state = (NodeState.replyWith expected reply, s)) :
    ∃ m, n.call β c asked answered type message expected = (.ok reply, m) ∧ m.state = s := by
  obtain ⟨m, hreceive, hstate⟩ := receive_handled h running key root hm asked answered _ hfits
  rw [hreply] at hreceive hstate
  refine ⟨m, ?_, hstate⟩
  have hexpected : Payload.expectType expected expected.toByte = .ok () := if_pos rfl
  rw [call_of_receive expected hreceive, NodeState.replyWith, c.verdict_reply]
  simp only [Except.mapError, bind, Except.bind, hexpected, hβ.decode_encode]

theorem call_refuse [Payload α] [Payload β] {type expected : MessageType}
    {handler : Handler NodeState} (hm : (type, handler) ∈ NodeState.handlers)
    (asked answered : Nonce) {message : α} (hfits : n.Fits c asked type message) {text : String}
    {s : NodeState} (htext : text ≠ Channel.verifyFailure)
    (hrefuse : handler (Payload.encode message) n.state = (.refuse text, s)) :
    ∃ m, n.call β c asked answered type message expected =
      (.error (.request type (.rejected 400 text)), m) ∧ m.state = s := by
  obtain ⟨m, hreceive, hstate⟩ := receive_handled h running key root hm asked answered _ hfits
  rw [hrefuse] at hreceive hstate
  refine ⟨m, ?_, hstate⟩
  rw [call_of_receive expected hreceive, c.verdict_refuse _ htext]
  rfl

end Link

/-- The calls by which an operator administers the peers of a node. -/
def listPeers (n : Node) (c : Client) (asked answered : Nonce) :
    Except OperatorError ListPeersResponse × Node :=
  n.call _ c asked answered .listPeersRequest (⟨⟩ : ListPeersRequest) .listPeersResponse

def inspectPeer (n : Node) (c : Client) (asked answered : Nonce) (request : InspectPeerRequest) :
    Except OperatorError InspectPeerResponse × Node :=
  n.call _ c asked answered .inspectPeerRequest request .inspectPeerResponse

def changePeerStatus (n : Node) (c : Client) (asked answered : Nonce)
    (request : ChangePeerStatusRequest) : Except OperatorError Ack × Node :=
  n.call _ c asked answered .changePeerStatusRequest request .ack

/-- A client finds in its replies what the ledger of the node would say on the spot, and changes
there what it would change on the spot. -/
structure Transparent (n : Node) (c : Client) (asked answered : Nonce) : Prop where
  list : n.Fits c asked .listPeersRequest (⟨⟩ : ListPeersRequest) →
    ∃ peers m, n.listPeers c asked answered = (.ok ⟨peers⟩, m) ∧ m.state = n.state ∧
      (∀ r, r ∈ peers ↔ ∃ id, n.state.ledger.accounts.reputation? id = some r) ∧
      peers.Pairwise fun x y => Text.Utf8.encode x.peerId < Text.Utf8.encode y.peerId
  inspect : ∀ request, n.Fits c asked .inspectPeerRequest request →
    ∃ snapshot m, n.inspectPeer c asked answered request = (.ok snapshot, m) ∧ m.state = n.state ∧
      snapshot = n.state.ledger.accounts.inspect request.peerId request.first.toNat
        request.last.toNat ∧
      (n.state.ledger.accounts.contains request.peerId = false → snapshot = ⟨none, [], []⟩)
  change : ∀ request flag value, request.status.Sets flag value →
    n.Fits c asked .changePeerStatusRequest request →
    n.state.ledger.accounts.contains request.peerId = true →
    ∃ m, n.changePeerStatus c asked answered request =
        (.ok ⟨true, "peer " ++ request.peerId ++ ": " ++ request.status.text⟩, m) ∧
      m.state = { n.state with
        ledger := n.state.ledger.apply (.setFlag request.peerId flag value) }
  refuse : ∀ request, n.Fits c asked .changePeerStatusRequest request →
    n.state.ledger.accounts.contains request.peerId = false →
    ∃ m, n.changePeerStatus c asked answered request =
        (.error (.request .changePeerStatusRequest
          (.rejected 400 ("peer not found: " ++ request.peerId))), m) ∧ m.state = n.state

end Node

namespace NodeState

/-- In whatever order the ledger lists its peers, the reply has each of them. -/
theorem mem_peers (s : NodeState) (r : Reputation) :
    r ∈ s.peers ↔ ∃ id, s.ledger.accounts.reputation? id = some r := by
  rw [peers, List.mem_mergeSort]
  exact Accounts.mem_listing (s.ledger.order.perm _) r

theorem peers_increasing (s : NodeState) (h : s.ledger.accounts.Sound) :
    s.peers.Pairwise fun x y => Text.Utf8.encode x.peerId < Text.Utf8.encode y.peerId :=
  Accounts.mergeSort_increasing (h.listing_distinct (s.ledger.order.perm _))

end NodeState

namespace Node

theorem whenRegistered_encode [Payload α] (hα : Faithful α) {s : NodeState}
    (registered : s.registration.isRegistered = true) (act : α → NodeState → Outcome × NodeState)
    (message : α) :
    NodeState.whenRegistered α act (Payload.encode message) s = act message s := by
  rw [NodeState.whenRegistered, if_pos registered, hα.decode_encode]

theorem notFound_ne_verifyFailure (id : String) :
    "peer not found: " ++ id ≠ Channel.verifyFailure :=
  Client.append_ne_verifyFailure rfl (by decide) id

/-- Remote administration is local administration, for every client that holds the key and goes to
the root, the one place a node answers at. -/
theorem remote_transparent {config : ServerConfig} {n : Node} {c : Client}
    (h : Reachable config n) (running : n.server.isRunning = true)
    (registered : n.state.registration.isRegistered = true)
    (key : Key.parse config.key = .ok c.key) (root : c.AtRoot) (asked answered : Nonce) :
    n.Transparent c asked answered := by
  have hsound := (reachable_invariant h).sound
  have hlist : (.listPeersRequest, NodeState.listPeers) ∈ NodeState.handlers := .tail _ (.head _)
  have hinspect : (.inspectPeerRequest, NodeState.inspectPeer) ∈ NodeState.handlers :=
    .tail _ (.tail _ (.head _))
  have hchange : (.changePeerStatusRequest, NodeState.changePeerStatus) ∈ NodeState.handlers :=
    .tail _ (.tail _ (.tail _ (.head _)))
  refine ⟨fun hfits => ?_, fun request hfits => ?_,
    fun request flag value hsets hfits hid => ?_, fun request hfits hid => ?_⟩
  · obtain ⟨m, hcall, hstate⟩ := call_reply h running key root hlist asked answered hfits
      Payload.faithful_listPeersResponse
      (whenRegistered_encode Payload.faithful_listPeersRequest registered _ _)
    exact ⟨_, m, hcall, hstate, n.state.mem_peers, n.state.peers_increasing hsound⟩
  · obtain ⟨m, hcall, hstate⟩ := call_reply h running key root hinspect asked answered hfits
      Payload.faithful_inspectPeerResponse
      (whenRegistered_encode Payload.faithful_inspectPeerRequest registered _ _)
    exact ⟨_, m, hcall, hstate, rfl, fun hid => hsound.inspect_untracked hid _ _⟩
  · rw [← hsets.mutation_eq]
    exact call_reply h running key root hchange asked answered hfits Payload.faithful_ack
      ((whenRegistered_encode Payload.faithful_changePeerStatusRequest registered _ _).trans
        (if_pos hid))
  · exact call_refuse h running key root hchange asked answered hfits
      (notFound_ne_verifyFailure _)
      ((whenRegistered_encode Payload.faithful_changePeerStatusRequest registered _ _).trans
        (if_neg (by simp [hid])))

/-- A registered node that runs and tracks one peer, and a client of it. -/
def sampleConfig : ServerConfig where
  addr := "127.0.0.1:9010"
  key := "0000000000000000000000000000000000000000000000000000000000000000"
  maxBodySize := 1024

def sampleClient : Client := ⟨"http://127.0.0.1:9010", ⟨Vector.replicate 32 0⟩⟩

def sampleNonce : Nonce := Vector.replicate 12 0

def sampleIdentity : Identity := ⟨"node", "abcd", 0⟩

def sampleState : NodeState :=
  ⟨Ledger.empty.apply (.add "p"), ⟨.registered sampleIdentity, 2⟩⟩

def sample : Node where
  state := sampleState
  server := { (ofConfig sampleConfig).server with
    frozen := true
    session := some ⟨⟨"127.0.0.1", 9010⟩,
      ⟨sampleClient.key, (ofConfig sampleConfig).server.handlers, 1024⟩⟩ }

theorem sample_key : Key.parse sampleConfig.key = .ok sampleClient.key := rfl

def sampleBind (_ : String) : Except BindError Endpoint := .ok ⟨"127.0.0.1", 9010⟩

theorem sample_work : NodeState.start.Leads sampleState :=
  have haccepted : Registration.start.initialise sampleIdentity =
      .ok ⟨.pending sampleIdentity, 1⟩ := rfl
  have hpending : Registration.acknowledge ⟨.pending sampleIdentity, 1⟩ =
      .ok ⟨.registered sampleIdentity, 2⟩ := rfl
  .acknowledge (.initialise (.mutate (.add "p") .refl) haccepted) hpending

theorem start_sample :
    { ofConfig sampleConfig with state := sampleState }.start sampleBind = .ok sample := by
  have hconfig : (ofConfig sampleConfig).server.config = sampleConfig := rfl
  have hstopped : (ofConfig sampleConfig).server.isRunning = false := rfl
  simp only [start, Server.start, hstopped, hconfig, sample_key]
  rfl

theorem reachable_sample : Reachable sampleConfig sample :=
  .start (.act .ofConfig sample_work) sampleBind start_sample

theorem sample_transparent : Reachable sampleConfig sample ∧
    sample.server.isRunning = true ∧ sample.state.registration.isRegistered = true ∧
    Key.parse sampleConfig.key = .ok sampleClient.key ∧ sampleClient.AtRoot ∧
    sample.Fits sampleClient sampleNonce .listPeersRequest (⟨⟩ : ListPeersRequest) ∧
    sample.Transparent sampleClient sampleNonce sampleNonce := by
  have hconnect : Client.connect sampleConfig.addr sampleConfig.key = .ok sampleClient := by
    rw [Client.connect, sample_key]
    rfl
  have hhost : ∀ x ∈ sampleConfig.addr.toList, Address.endsHost x = false := by
    simp [sampleConfig, Address.endsHost, Address.isSlash]
  have hroot : sampleClient.AtRoot := Client.atRoot_of_connect hconnect hhost
  have hfits : sample.Fits sampleClient sampleNonce .listPeersRequest (⟨⟩ : ListPeersRequest) := by
    have hencode : Payload.encode (⟨⟩ : ListPeersRequest) = [0x7B, 0x7D] := by
      simp [Payload.encode, Payload.json, Json.compact, Json.compactMembers,
        Text.Ascii.openBrace, Text.Ascii.closeBrace]
    rw [Fits, Key.length_sealFrame, hencode]
    decide
  exact ⟨reachable_sample, rfl, rfl, sample_key, hroot, hfits,
    remote_transparent reachable_sample rfl rfl sample_key hroot sampleNonce sampleNonce⟩

end Node

end AdminPlane
