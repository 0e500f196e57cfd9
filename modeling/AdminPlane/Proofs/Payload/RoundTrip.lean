import AdminPlane.Proofs.Json.Closed
import AdminPlane.Proofs.Payload.Lenient
import Mathlib.Data.List.Basic
import Mathlib.Data.List.TakeWhile

namespace AdminPlane.Payload

open AdminPlane.Json

/-- Spaces, line ends and tabs: all that may stand around a document. -/
def IsBlank (w : List UInt8) : Prop := ∀ b ∈ w, b = 0x20 ∨ b = 0x0A ∨ b = 0x09 ∨ b = 0x0D

/-- What is written is read back behind any padding, and it says itself where it ends. -/
structure RoundTrips (α : Type) [Payload α] : Prop where
  padded : ∀ (m : α) (w : List UInt8), IsBlank w → decode α (encode m ++ w) = .ok m
  trailed : ∀ (m : α) (x : List UInt8), ¬ IsBlank x → ∃ e, decode α (encode m ++ x) = .error e
  cut : ∀ (m : α) (p q : List UInt8), encode m = p ++ q → q ≠ [] → ∃ e, decode α p = .error e

/-- What the reader of a payload has to do with its writer. -/
structure Faithful (α : Type) [Payload α] : Prop where
  reads : ∀ m : α, Reads Payload.read (Payload.json m) m
  steady : Steady (Payload.read : Reader α)
  closed : Closed (Payload.read : Reader α)
  asks : ∀ y, (Payload.read : Reader α) [] ≠ .ok y

theorem isBlank_iff (w : List UInt8) : IsBlank w ↔ w.dropWhile isSpace = [] := by
  rw [List.dropWhile_eq_nil_iff]
  simp only [IsBlank, isSpace, Bool.or_eq_true, decide_eq_true_eq, or_assoc]

section Decode

variable {r : Reader α} {s u : List UInt8} {x : α}

theorem decode_blank (h : r s = .ok (x, u)) (hu : IsBlank u) : Json.decode r s = .ok x := by
  have hpeek : peekToken u = .ok (none, []) := by
    change Except.ok ((u.dropWhile isSpace).head?, u.dropWhile isSpace) = _
    rw [(isBlank_iff u).mp hu]
    rfl
  rw [Json.decode, document, bind_of_ok h, bind_of_ok hpeek]
  rfl

theorem decode_trailed (h : r s = .ok (x, u)) (hu : ¬ IsBlank u) :
    ∃ e, Json.decode r s = .error e := by
  obtain ⟨b, t, hb⟩ := List.exists_cons_of_ne_nil (mt (isBlank_iff u).mpr hu)
  have hpeek : peekToken u = .ok (some b, b :: t) := by
    change Except.ok ((u.dropWhile isSpace).head?, u.dropWhile isSpace) = _
    rw [hb]
    rfl
  rw [Json.decode, document, bind_of_ok h, bind_of_ok hpeek]
  exact ⟨_, rfl⟩

theorem decode_fails (h : ∀ y, r s ≠ .ok y) : ∃ e, Json.decode r s = .error e := by
  have hdocument : ∀ y, document r s ≠ .ok y := by
    intro y hy
    obtain ⟨x, u, hx, _⟩ := bind_eq_ok (t := y.2) hy
    exact h _ hx
  rw [Json.decode]
  split
  · rename_i y t hy
    exact absurd hy (hdocument _)
  · exact ⟨_, rfl⟩

end Decode

theorem Faithful.read_encode [Payload α] (h : Faithful α) (m : α) :
    Payload.read (encode m) = .ok (m, []) := by
  have hread := h.reads m [] follows_nil
  rwa [List.append_nil] at hread

theorem Faithful.decode_encode [Payload α] (h : Faithful α) (m : α) :
    decode α (encode m) = .ok m :=
  decode_blank (h.read_encode m) (fun _ hb => by cases hb)

theorem Faithful.roundTrips [Payload α] (h : Faithful α) : RoundTrips α := by
  have hread := h.read_encode
  have hne : ∀ m : α, encode m ≠ [] := by
    intro m he
    have hm := hread m
    rw [he] at hm
    exact h.asks _ hm
  have hmore : ∀ (m : α) x, Payload.read (encode m ++ x) = .ok (m, x) :=
    fun m x => h.closed _ _ _ (hne m) (hread m) x
  refine ⟨fun m w hw => decode_blank (hmore m w) hw, fun m x hx => decode_trailed (hmore m x) hx,
    fun m p q hpq hq => decode_fails fun y hy => ?_⟩
  have hp : p ≠ [] := by
    rintro rfl
    exact h.asks y hy
  -- A value read from the part would be read from the whole, which leaves nothing behind.
  have hwhole := h.closed p y.1 y.2 hp hy q
  rw [← hpq, hread m] at hwhole
  cases y with
  | mk m' u =>
    simp only [Except.ok.injEq, Prod.mk.injEq] at hwhole
    exact hq (List.append_eq_nil_iff.mp hwhole.2.symm).2

section Record

variable [Payload α] {fields : List (Member σ)} {start : σ} {finish : σ → Except String α}
  {name : String} {defaults : List (String × Json)}

theorem faithful_of_lenient (h : Lenient α defaults)
    (hread : Payload.read = Member.readRecord name fields start finish)
    (hsteady : fields.Forall fun field => ∀ draft, Steady (field.read draft)) : Faithful α := by
  have hsteady' := List.forall_iff_forall_mem.mp hsteady
  refine ⟨fun m rest hrest => ?_, ?_, ?_, fun y => ?_⟩
  · exact h.accepts m [] _ rest blank_nil (h.written m) hrest
  · rw [hread]
    exact Member.steady_readRecord name hsteady'
  · rw [hread]
    exact Member.closed_readRecord name hsteady'
  · rw [hread]
    exact value_nil _ _ y

end Record

theorem steady_field {r : Reader β} {given : σ → Option β} {set : σ → β → σ} {optional : Bool}
    (name : String) (hr : Steady r) (draft : σ) :
    Steady ((field name given r set optional).read draft) :=
  steady_map (set draft) hr

theorem faithful_record : Faithful Record :=
  faithful_of_lenient lenient_record rfl
    ⟨steady_field _ Reader.steady_string, steady_field _ (Reader.steady_integer _ _),
      steady_field _ Reader.steady_boolean⟩

theorem faithful_reputation : Faithful Reputation :=
  faithful_of_lenient lenient_reputation rfl
    ⟨steady_field _ Reader.steady_string, steady_field _ (Reader.steady_integer _ _),
      steady_field _ Reader.steady_boolean, steady_field _ Reader.steady_boolean⟩

theorem faithful_initialisationRequest : Faithful InitialisationRequest :=
  faithful_of_lenient lenient_initialisationRequest rfl
    ⟨steady_field _ Reader.steady_string, steady_field _ Reader.steady_string,
      steady_field _ (Reader.steady_integer _ _)⟩

theorem faithful_ack : Faithful Ack :=
  faithful_of_lenient lenient_ack rfl
    ⟨steady_field _ Reader.steady_boolean, steady_field _ Reader.steady_string⟩

theorem faithful_listPeersRequest : Faithful ListPeersRequest :=
  faithful_of_lenient lenient_listPeersRequest rfl trivial

theorem faithful_listPeersResponse : Faithful ListPeersResponse :=
  faithful_of_lenient lenient_listPeersResponse rfl
    (steady_field _ (List.steady_read faithful_reputation.steady))

theorem faithful_inspectPeerRequest : Faithful InspectPeerRequest :=
  faithful_of_lenient lenient_inspectPeerRequest rfl
    ⟨steady_field _ Reader.steady_string, steady_field _ (Reader.steady_integer _ _),
      steady_field _ (Reader.steady_integer _ _)⟩

theorem faithful_inspectPeerResponse : Faithful InspectPeerResponse := by
  have hrecords : Steady (Json.List.read (Payload.read : Reader Record)) :=
    List.steady_read faithful_record.steady
  exact faithful_of_lenient lenient_inspectPeerResponse rfl
    ⟨steady_field _ (Reader.steady_nullable faithful_reputation.steady),
      steady_field _ hrecords, steady_field _ hrecords⟩

theorem faithful_changePeerStatusRequest : Faithful ChangePeerStatusRequest :=
  faithful_of_lenient lenient_changePeerStatusRequest rfl
    ⟨steady_field _ Reader.steady_string, steady_field _ (Variant.steady_read _)⟩

/-- Every payload comes back from its text, spaces may follow it, nothing else may, and no part
of it stands for another payload. -/
theorem payloads_roundTrip :
    RoundTrips InitialisationRequest ∧ RoundTrips Ack ∧ RoundTrips ListPeersRequest ∧
      RoundTrips ListPeersResponse ∧ RoundTrips InspectPeerRequest ∧
      RoundTrips InspectPeerResponse ∧ RoundTrips ChangePeerStatusRequest ∧ RoundTrips Record ∧
      RoundTrips Reputation :=
  ⟨faithful_initialisationRequest.roundTrips, faithful_ack.roundTrips,
    faithful_listPeersRequest.roundTrips, faithful_listPeersResponse.roundTrips,
    faithful_inspectPeerRequest.roundTrips, faithful_inspectPeerResponse.roundTrips,
    faithful_changePeerStatusRequest.roundTrips, faithful_record.roundTrips,
    faithful_reputation.roundTrips⟩

end AdminPlane.Payload
