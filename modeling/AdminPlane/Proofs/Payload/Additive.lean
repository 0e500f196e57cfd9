import AdminPlane.Proofs.Payload.RoundTrip

namespace AdminPlane.Payload

open AdminPlane.Json

/-- A value is read from every text that says what its own text says, with members at their
default left out and others put in. -/
structure Tolerates (α : Type) [Payload α] (defaults : List (String × Json)) : Prop where
  written : ∀ m : α, Says defaults (Payload.json m) (encode m)
  decodes : ∀ (m : α) (w text w' : List UInt8), Blank w → Says defaults (Payload.json m) text →
    Blank w' → decode α (w ++ (text ++ w')) = .ok m

theorem Lenient.tolerates [Payload α] {defaults : List (String × Json)}
    (h : Lenient α defaults) : Tolerates α defaults := by
  refine ⟨h.written, fun m w text w' hw hsay hw' => ?_⟩
  have hfollows : Follows w' := by
    have hblank := follows_blank hw' follows_nil
    rwa [List.append_nil] at hblank
  refine decode_blank (h.accepts m w text w' hw hsay hfollows) fun b hb => ?_
  simpa [isSpace, or_assoc] using hw' b hb

/-- Payloads can grow: members that no field takes are passed over, and members at their default
need not be written. -/
theorem payloads_additive :
    Tolerates InitialisationRequest [("key_version", .integer 0)] ∧
      Tolerates Ack [("message", .string "")] ∧ Tolerates ListPeersRequest [] ∧
      Tolerates ListPeersResponse [] ∧
      Tolerates InspectPeerRequest [("from", .integer 0), ("to", .integer 10)] ∧
      Tolerates InspectPeerResponse
        [("reputation", .null), ("history", .array []), ("violations", .array [])] ∧
      Tolerates ChangePeerStatusRequest [] ∧ Tolerates Record [] ∧ Tolerates Reputation [] :=
  ⟨lenient_initialisationRequest.tolerates, lenient_ack.tolerates,
    lenient_listPeersRequest.tolerates, lenient_listPeersResponse.tolerates,
    lenient_inspectPeerRequest.tolerates, lenient_inspectPeerResponse.tolerates,
    lenient_changePeerStatusRequest.tolerates, lenient_record.tolerates,
    lenient_reputation.tolerates⟩

end AdminPlane.Payload
