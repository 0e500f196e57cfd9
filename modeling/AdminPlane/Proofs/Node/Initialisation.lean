import AdminPlane.Node.Basic
import AdminPlane.Proofs.Channel.KeyText
import AdminPlane.Proofs.Payload.RoundTrip

namespace AdminPlane

open Payload (InitialisationRequest)

namespace Identity

/-- Pairs of hex digits, one at least, behind one mark or none. -/
def KeyText (s : String) : Prop :=
  ∃ mark ∈ ["", "0x"], ∃ digits : List Char, s.toList = mark.toList ++ digits ∧ digits ≠ [] ∧
    digits.length % 2 = 0 ∧ ∀ c ∈ digits, c ∈ Text.Hex.digits

example : ["", "0x", "0X12", "abc", " ab", "0x0x12"].all (isPrivateKey · = false) := by decide

end Identity

/-- A reply of the type of acknowledgements, whose payload is one with the message. -/
def Outcome.Acknowledges (outcome : Outcome) (message : String) : Prop :=
  ∃ payload, outcome = .reply ⟨255, payload⟩ ∧
    Payload.decode Payload.Ack payload = .ok ⟨true, message⟩

namespace NodeState

theorem acknowledges_acknowledgement (message : String) :
    (acknowledgement message).Acknowledges message :=
  ⟨_, rfl, Payload.faithful_ack.decode_encode (.ok message)⟩

/-- A request that nothing is wrong with, at a node that waits for one. -/
structure Passes (request : InitialisationRequest) (r : Registration) : Prop where
  named : ∃ c ∈ request.nodeId.toList, Text.isBlank c = false
  key : Identity.KeyText request.privateKey
  awaited : r.phase = .awaitingInitialisation

/-- Why a payload is refused: each reason stands behind the ones above it. -/
inductive Refuses (payload : List UInt8) (r : Registration) : String → Prop where
  | malformed {e : Json.Error} (undecoded : Payload.decode InitialisationRequest payload = .error e) :
    Refuses payload r (Payload.MessageError.malformed e).message
  | emptyNodeId {request : InitialisationRequest}
    (decoded : Payload.decode InitialisationRequest payload = .ok request)
    (blank : ∀ c ∈ request.nodeId.toList, Text.isBlank c = true) :
    Refuses payload r "invalid identity: empty node id"
  | badPrivateKey {request : InitialisationRequest}
    (decoded : Payload.decode InitialisationRequest payload = .ok request)
    (named : ∃ c ∈ request.nodeId.toList, Text.isBlank c = false)
    (key : ¬ Identity.KeyText request.privateKey) :
    Refuses payload r "invalid identity: private key must be non-empty hex"
  | alreadyInitialised {request : InitialisationRequest}
    (decoded : Payload.decode InitialisationRequest payload = .ok request)
    (named : ∃ c ∈ request.nodeId.toList, Text.isBlank c = false)
    (key : Identity.KeyText request.privateKey) (late : r.phase ≠ .awaitingInitialisation) :
    Refuses payload r ("node already initialised (" ++ r.phase.text ++ ")")

variable {payload : List UInt8} {node : NodeState}

end NodeState

end AdminPlane
