import AdminPlane.Client.Basic
import AdminPlane.CommandLine.Basic

namespace AdminPlane.CommandLine

open Channel (Frame Key MessageType Nonce)
open Payload (MessageError)

/-- Why an operator's command fails. -/
inductive OperatorError where
  | keyRequired
  | client (error : ClientError)
  | request (type : MessageType) (error : ClientError)
  | reply (error : MessageError)
deriving DecidableEq, Repr

/-- The outermost message first, then the messages of what caused it. -/
def OperatorError.chain : OperatorError → List String
  | keyRequired => ["admin key required (--key or " ++ keyVariable ++ ")"]
  | client e => e.chain
  | request type e => (type.display ++ " request failed") :: e.chain
  | reply (.malformed e) => [(MessageError.malformed e).message, e.message]
  | reply e => [e.message]

namespace AdminOptions

def connect (o : AdminOptions) : Except OperatorError Client :=
  match o.key with
  | none => .error .keyRequired
  | some key => (Client.connect o.addr key).mapError .client

/-- Sends a request and reads the one type of reply it has. -/
def call [Monad m] [Payload α] (β : Type) [Payload β] (c : Client) (nonce : Nonce)
    (type : MessageType) (message : α) (expected : MessageType)
    (exchange : Request → m (Option Response)) : m (Except OperatorError β) := do
  let answer ← c.request nonce ⟨type.toByte, Payload.encode message⟩ exchange
  return do
    let frame ← answer.mapError (.request type)
    (Payload.expectType expected frame.type).mapError .reply
    (Payload.decode β frame.payload).mapError fun e => .reply (.malformed e)

/-- A reply is printed one member a line. -/
def printed [Payload β] (reply : β) : List UInt8 :=
  (Payload.json reply).pretty 0 ++ [Text.Ascii.lineFeed]

/-- What a command prints. Only the generation of a key does without a connection. -/
def run [Monad m] (o : AdminOptions) (fresh : Key) (nonce : Nonce)
    (exchange : Request → m (Option Response)) : m (Except OperatorError (List UInt8)) :=
  match o.operation, o.connect with
  | .generateKey, _ => return .ok (Text.Utf8.encode fresh.hex ++ [Text.Ascii.lineFeed])
  | _, .error e => return .error e
  | .init request, .ok c => do
    let ack ← call Payload.Ack c nonce .initialisation request .ack exchange
    return ack.map printed
  | .listPeers, .ok c => do
    let peers ← call Payload.ListPeersResponse c nonce .listPeersRequest
      (⟨⟩ : Payload.ListPeersRequest) .listPeersResponse exchange
    return peers.map printed
  | .inspectPeer request, .ok c => do
    let snapshot ← call Payload.InspectPeerResponse c nonce .inspectPeerRequest request
      .inspectPeerResponse exchange
    return snapshot.map printed
  | .changePeerStatus request, .ok c => do
    let ack ← call Payload.Ack c nonce .changePeerStatusRequest request .ack exchange
    return ack.map printed

end AdminOptions

end AdminPlane.CommandLine
