import AdminPlane.Payload.Messages
import AdminPlane.Proofs.Json.Loose

namespace AdminPlane.Payload

open AdminPlane.Json

/-- The reader of a payload has its value from every text that says what the value's document says,
and the text that is written is one of them. -/
structure Lenient (α : Type) [Payload α] (defaults : List (String × Json)) : Prop where
  written : ∀ m : α, Says defaults (Payload.json m) (Payload.json m).compact
  accepts : ∀ m : α, Accepts defaults Payload.read (Payload.json m) m

theorem Lenient.written_list [Payload α] {defaults : List (String × Json)} (h : Lenient α [])
    (xs : List α) :
    Says defaults (.array (xs.map Payload.json)) (Json.array (xs.map Payload.json)).compact := by
  refine says_array fun j hj => ?_
  obtain ⟨x, _, rfl⟩ := List.mem_map.mp hj
  exact h.written x

theorem Lenient.accepts_list [Payload α] {defaults : List (String × Json)} (h : Lenient α [])
    (xs : List α) :
    Accepts defaults (Json.List.read Payload.read) (.array (xs.map Payload.json)) xs :=
  List.accepts_list fun x _ => h.accepts x

/-- A field of the draft, which has it once its member has come. -/
def fieldOf (seen : List String) (name : String) (x : α) : Option α :=
  if name ∈ seen then some x else none

theorem fieldOf_of_mem {seen : List String} {name : String} (h : name ∈ seen) (x : α) :
    fieldOf seen name x = some x :=
  if_pos h

theorem fieldOf_getD {seen : List String} {name : String} {x d : α} (h : name ∈ seen ∨ x = d) :
    (fieldOf seen name x).getD d = x := by
  by_cases hmem : name ∈ seen
  · rw [fieldOf_of_mem hmem]
    rfl
  · rw [fieldOf, if_neg hmem]
    exact (h.resolve_left hmem).symm

section Record

variable [Payload α] {fields : List (Member σ)} {start : σ} {finish : σ → Except String α}
  {name : String} {defaults : List (String × Json)}

/-- A record whose fields take the members of its document, whichever record it is. -/
theorem lenient_of_takes {ms : α → List (String × Json)} (draft : α → List String → σ)
    (hread : Payload.read = Member.readRecord name fields start finish)
    (hjson : ∀ m : α, Payload.json m = .object (ms m))
    (hdistinct : ∀ m, ((ms m).map (·.1)).Nodup)
    (hsay : ∀ m, (ms m).Forall fun x => Says [] x.2 x.2.compact)
    (hstart : ∀ m, draft m [] = start)
    (htakes : ∀ m, List.Forall₂ (Member.Takes (draft m)) fields (ms m))
    (hfinish : ∀ m seen, (∀ x ∈ ms m, x.1 ∈ seen ∨ x ∈ defaults) →
      finish (draft m seen) = .ok m) : Lenient α defaults := by
  refine ⟨fun m => ?_, fun m => ?_⟩
  · rw [hjson]
    exact says_object (hdistinct m) (hsay m)
  · rw [hread, hjson]
    exact Member.accepts_record name ⟨hdistinct m, htakes m⟩ (hstart m) (hfinish m)

end Record

theorem takes_field {r : Reader β} {j : Json} {x : β} {given : σ → Option β} {set : σ → β → σ}
    {optional : Bool} {draft : List String → σ} (name : String) (h : Accepts [] r j x)
    (hgiven : ∀ seen, given (draft seen) = fieldOf seen name x)
    (hset : ∀ seen, set (draft seen) x = draft (name :: seen)) :
    Member.Takes draft (field name given r set optional) (name, j) := by
  refine ⟨rfl, fun seen hname => ⟨?_, ?_⟩⟩
  · simpa [field, hgiven, fieldOf] using hname
  · rw [← hset]
    exact accepts_map (set (draft seen)) h

theorem lenient_record : Lenient Record [] := by
  refine lenient_of_takes
    (fun m seen => ⟨fieldOf seen "reason" m.reason, fieldOf seen "point" m.point,
      fieldOf seen "violation" m.violation⟩)
    rfl (fun _ => rfl) (fun _ => by simp)
    (fun _ => ⟨.scalar trivial, .scalar trivial, .scalar trivial⟩)
    (fun _ => rfl) (fun m => ?_) fun m seen h => ?_
  · exact .cons (takes_field _ (accepts_string _) (fun _ => rfl) fun _ => by simp [fieldOf]) <|
      .cons (takes_field _ (accepts_integer (reads_int64 _)) (fun _ => rfl)
        fun _ => by simp [fieldOf]) <|
      .cons (takes_field _ (accepts_boolean _) (fun _ => rfl) fun _ => by simp [fieldOf]) .nil
  · obtain ⟨hreason, hpoint, hviolation⟩ :
        "reason" ∈ seen ∧ "point" ∈ seen ∧ "violation" ∈ seen := by
      simpa using h
    simp only [fieldOf_of_mem hreason, fieldOf_of_mem hpoint, fieldOf_of_mem hviolation]
    rfl

theorem lenient_reputation : Lenient Reputation [] := by
  refine lenient_of_takes
    (fun m seen => ⟨fieldOf seen "peer_id" m.peerId, fieldOf seen "score" m.score,
      fieldOf seen "pending" m.pending, fieldOf seen "blocked" m.blocked⟩)
    rfl (fun _ => rfl) (fun _ => by simp)
    (fun _ => ⟨.scalar trivial, .scalar trivial, .scalar trivial, .scalar trivial⟩)
    (fun _ => rfl) (fun m => ?_) fun m seen h => ?_
  · exact .cons (takes_field _ (accepts_string _) (fun _ => rfl) fun _ => by simp [fieldOf]) <|
      .cons (takes_field _ (accepts_integer (reads_int64 _)) (fun _ => rfl)
        fun _ => by simp [fieldOf]) <|
      .cons (takes_field _ (accepts_boolean _) (fun _ => rfl) fun _ => by simp [fieldOf]) <|
      .cons (takes_field _ (accepts_boolean _) (fun _ => rfl) fun _ => by simp [fieldOf]) .nil
  · obtain ⟨hpeer, hscore, hpending, hblocked⟩ : "peer_id" ∈ seen ∧ "score" ∈ seen ∧
        "pending" ∈ seen ∧ "blocked" ∈ seen := by
      simpa using h
    simp only [fieldOf_of_mem hpeer, fieldOf_of_mem hscore, fieldOf_of_mem hpending,
      fieldOf_of_mem hblocked]
    rfl

theorem lenient_initialisationRequest :
    Lenient InitialisationRequest [("key_version", .integer 0)] := by
  refine lenient_of_takes
    (fun m seen => ⟨fieldOf seen "node_id" m.nodeId, fieldOf seen "private_key" m.privateKey,
      fieldOf seen "key_version" m.keyVersion⟩)
    rfl (fun _ => rfl) (fun _ => by simp)
    (fun _ => ⟨.scalar trivial, .scalar trivial, .scalar trivial⟩)
    (fun _ => rfl) (fun m => ?_) fun m seen h => ?_
  · exact .cons (takes_field _ (accepts_string _) (fun _ => rfl) fun _ => by simp [fieldOf]) <|
      .cons (takes_field _ (accepts_string _) (fun _ => rfl) fun _ => by simp [fieldOf]) <|
      .cons (takes_field _ (accepts_integer (reads_uint32 _)) (fun _ => rfl)
        fun _ => by simp [fieldOf]) .nil
  · obtain ⟨hnode, hkey, hversion⟩ : "node_id" ∈ seen ∧ "private_key" ∈ seen ∧
        ("key_version" ∈ seen ∨ m.keyVersion.toNat = 0) := by
      simpa using h
    have hdefault := fieldOf_getD (hversion.imp_right (UInt32.toNat_inj (b := 0)).mp)
    simp only [fieldOf_of_mem hnode, fieldOf_of_mem hkey, hdefault]
    rfl

theorem lenient_ack : Lenient Ack [("message", .string "")] := by
  refine lenient_of_takes
    (fun m seen => ⟨fieldOf seen "ack" m.ack, fieldOf seen "message" m.message⟩)
    rfl (fun _ => rfl) (fun _ => by simp)
    (fun _ => ⟨.scalar trivial, .scalar trivial⟩)
    (fun _ => rfl) (fun m => ?_) fun m seen h => ?_
  · exact .cons (takes_field _ (accepts_boolean _) (fun _ => rfl) fun _ => by simp [fieldOf]) <|
      .cons (takes_field _ (accepts_string _) (fun _ => rfl) fun _ => by simp [fieldOf]) .nil
  · obtain ⟨hack, hmessage⟩ : "ack" ∈ seen ∧ ("message" ∈ seen ∨ m.message = "") := by
      simpa using h
    simp only [fieldOf_of_mem hack, fieldOf_getD hmessage]
    rfl

theorem lenient_listPeersRequest : Lenient ListPeersRequest [] :=
  lenient_of_takes (fun _ _ => ()) rfl (fun _ => rfl) (fun _ => .nil) (fun _ => trivial)
    (fun _ => rfl) (fun _ => .nil) fun _ _ _ => rfl

theorem lenient_listPeersResponse : Lenient ListPeersResponse [] := by
  refine lenient_of_takes (fun m seen => fieldOf seen "peers" m.peers) rfl (fun _ => rfl)
    (fun _ => by simp) (fun m => lenient_reputation.written_list m.peers) (fun _ => rfl) (fun m => ?_)
    fun m seen h => ?_
  · exact .cons (takes_field _ (lenient_reputation.accepts_list _) (fun _ => rfl)
      fun _ => by simp [fieldOf]) .nil
  · have hpeers : "peers" ∈ seen := by simpa using h
    rw [fieldOf_of_mem hpeers]
    rfl

theorem lenient_inspectPeerRequest :
    Lenient InspectPeerRequest [("from", .integer 0), ("to", .integer 10)] := by
  refine lenient_of_takes
    (fun m seen => ⟨fieldOf seen "peer_id" m.peerId, fieldOf seen "from" m.first,
      fieldOf seen "to" m.last⟩)
    rfl (fun _ => rfl) (fun _ => by simp)
    (fun _ => ⟨.scalar trivial, .scalar trivial, .scalar trivial⟩)
    (fun _ => rfl) (fun m => ?_) fun m seen h => ?_
  · exact .cons (takes_field _ (accepts_string _) (fun _ => rfl) fun _ => by simp [fieldOf]) <|
      .cons (takes_field _ (accepts_integer (reads_uint64 _)) (fun _ => rfl)
        fun _ => by simp [fieldOf]) <|
      .cons (takes_field _ (accepts_integer (reads_uint64 _)) (fun _ => rfl)
        fun _ => by simp [fieldOf]) .nil
  · obtain ⟨hpeer, hfrom, hto⟩ : "peer_id" ∈ seen ∧
        ("from" ∈ seen ∨ m.first.toNat = 0) ∧ ("to" ∈ seen ∨ (m.last.toNat : Int) = 10) := by
      simpa using h
    have hfirst := fieldOf_getD (hfrom.imp_right (UInt64.toNat_inj (b := 0)).mp)
    have hlast := fieldOf_getD (hto.imp_right fun h =>
      (UInt64.toNat_inj (b := defaultInspectRange)).mp (Int.ofNat_inj.mp h))
    simp only [fieldOf_of_mem hpeer, hfirst, hlast]
    rfl

theorem lenient_inspectPeerResponse :
    Lenient InspectPeerResponse
      [("reputation", .null), ("history", .array []), ("violations", .array [])] := by
  have hreputation : ∀ r : Option Reputation,
      Accepts [] (Reader.nullable Payload.read) (r.elim .null Payload.json) r := by
    intro r
    cases r with
    | none => exact accepts_null _
    | some r => exact accepts_some (lenient_reputation.accepts r)
  have hsay : ∀ r : Option Reputation,
      Says [] (r.elim .null Payload.json) (r.elim .null Payload.json).compact := by
    intro r
    cases r with
    | none => exact .scalar trivial
    | some r => exact lenient_reputation.written r
  have hnull : ∀ r : Option Reputation, r.elim .null Payload.json = .null → r = none := by
    intro r hr
    cases r with
    | none => rfl
    | some r => cases hr
  refine lenient_of_takes
    (fun m seen => ⟨fieldOf seen "reputation" m.reputation, fieldOf seen "history" m.history,
      fieldOf seen "violations" m.violations⟩)
    rfl (fun _ => rfl) (fun _ => by simp)
    (fun m => ⟨hsay m.reputation, lenient_record.written_list m.history,
      lenient_record.written_list m.violations⟩)
    (fun _ => rfl) (fun m => ?_) fun m seen h => ?_
  · exact .cons (takes_field _ (hreputation _) (fun _ => rfl) fun _ => by simp [fieldOf]) <|
      .cons (takes_field _ (lenient_record.accepts_list _) (fun _ => rfl)
        fun _ => by simp [fieldOf]) <|
      .cons (takes_field _ (lenient_record.accepts_list _) (fun _ => rfl)
        fun _ => by simp [fieldOf]) .nil
  · obtain ⟨hrep, hhistory, hviolations⟩ :
        ("reputation" ∈ seen ∨ m.reputation.elim .null Payload.json = .null) ∧
          ("history" ∈ seen ∨ m.history = []) ∧ ("violations" ∈ seen ∨ m.violations = []) := by
      simpa using h
    have hjoin : (fieldOf seen "reputation" m.reputation).join = m.reputation := by
      refine Eq.trans ?_ (fieldOf_getD (hrep.imp_right (hnull _)))
      cases fieldOf seen "reputation" m.reputation
      all_goals rfl
    simp only [hjoin, fieldOf_getD hhistory, fieldOf_getD hviolations]

theorem find?_text (status : PeerStatus) :
    (PeerStatus.all.map fun s => (s.text, s)).find? (·.1 = status.text) =
      some (status.text, status) := by
  cases status
  all_goals rfl

theorem lenient_changePeerStatusRequest : Lenient ChangePeerStatusRequest [] := by
  refine lenient_of_takes
    (fun m seen => ⟨fieldOf seen "peer_id" m.peerId, fieldOf seen "status" m.status⟩)
    rfl (fun _ => rfl) (fun _ => by simp)
    (fun _ => ⟨.scalar trivial, .scalar trivial⟩)
    (fun _ => rfl) (fun m => ?_) fun m seen h => ?_
  · exact .cons (takes_field _ (accepts_string _) (fun _ => rfl) fun _ => by simp [fieldOf]) <|
      .cons (takes_field _ (accepts_variant (find?_text _)) (fun _ => rfl)
        fun _ => by simp [fieldOf]) .nil
  · obtain ⟨hpeer, hstatus⟩ : "peer_id" ∈ seen ∧ "status" ∈ seen := by
      simpa using h
    simp only [fieldOf_of_mem hpeer, fieldOf_of_mem hstatus]
    rfl

end AdminPlane.Payload
