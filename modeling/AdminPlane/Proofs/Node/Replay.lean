import AdminPlane.Proofs.Node.Confinement
import AdminPlane.Proofs.Node.Initialisation
import AdminPlane.Proofs.Node.Secrecy

namespace AdminPlane

open Channel (Frame Key MessageType Nonce)
open Payload (ChangePeerStatusRequest InitialisationRequest InspectPeerRequest ListPeersRequest)

theorem Outcome.response_ne_unverified {outcome : Outcome} (key : Key) (nonce : Nonce)
    (h : ∀ m, outcome = .refuse m → m ≠ Channel.verifyFailure) (h' : ∀ m, outcome ≠ .crash m) :
    outcome.response key nonce ≠ .unverified := by
  cases outcome with
  | reply frame => exact fun he => absurd (congrArg Response.status he) (of_decide_eq_false rfl)
  | refuse m =>
    intro he
    rw [← Rejection.response_unverified] at he
    have htext := congrArg (fun r : Response => Client.refusalText r.body) he
    have hsame : m = Channel.verifyFailure :=
      ((Client.refusalText_response (.handler m)).symm.trans htext).trans
        (Client.refusalText_response .unverified)
    exact h m rfl hsame
  | crash m => exact absurd rfl (h' m)

namespace NodeState

/-- What was initialised stays so. -/
theorem Leads.initialised {s t : NodeState} (h : s.Leads t)
    (hs : s.registration.phase ≠ .awaitingInitialisation) :
    t.registration.phase ≠ .awaitingInitialisation := by
  induction h with
  | refl => exact hs
  | mutate _ _ ih => exact ih
  | reorder _ _ ih => exact ih
  | initialise _ accepted _ =>
    rw [(Registration.initialise_eq_ok accepted).2]
    exact nofun
  | acknowledge _ pending _ =>
    rw [(Registration.acknowledge_eq_ok pending).2]
    exact nofun

/-- One of the types that a node has a handler for itself. -/
def Own (type : UInt8) : Prop := ∃ entry ∈ handlers, entry.1.toByte = type

/-- What a node makes of a frame that it has replied to before. It does not take an identity twice;
whatever else it was asked for, it does again. -/
inductive Rehandles (s : NodeState) (frame : Frame) : Outcome → NodeState → Prop
  | identity (type : frame.type = MessageType.initialisation.toByte) :
      Rehandles s frame
        (.refuse (RegistrationError.alreadyInitialised s.registration.phase).message) s
  | read (type : frame.type = MessageType.listPeersRequest.toByte ∨
        frame.type = MessageType.inspectPeerRequest.toByte) (reply : Frame) :
      Rehandles s frame (.reply reply) s
  | status {request : ChangePeerStatusRequest} {flag : Flag} {value : Bool}
      (asked : s.AsksStatus frame request flag value) {outcome : Outcome}
      (acknowledged :
        outcome.Acknowledges ("peer " ++ request.peerId ++ ": " ++ request.status.text)) :
      Rehandles s frame outcome (s.withFlag request.peerId flag value)
  | untracked {request : ChangePeerStatusRequest}
      (type : frame.type = MessageType.changePeerStatusRequest.toByte)
      (decoded : Payload.decode ChangePeerStatusRequest frame.payload = .ok request)
      (untracked : s.ledger.accounts.contains request.peerId = false) :
      Rehandles s frame (.refuse ("peer not found: " ++ request.peerId)) s

section Rehandles

variable {s t : NodeState} {frame : Frame} {outcome : Outcome} (h : s.Rehandles frame outcome t)
include h

theorem Rehandles.registration : t.registration = s.registration := by
  cases h <;> rfl

theorem Rehandles.response_ne_unverified (key : Key) (nonce : Nonce) :
    outcome.response key nonce ≠ .unverified := by
  refine Outcome.response_ne_unverified key nonce (fun m hm => ?_) fun m hm => ?_
  · cases h with
    | identity _ =>
      obtain rfl := Outcome.refuse.inj hm
      unfold RegistrationError.message
      dsimp only
      rw [String.append_assoc]
      exact Client.append_ne_verifyFailure rfl (by decide) _
    | read _ reply => cases hm
    | status _ acknowledged =>
      obtain ⟨_, rfl, _⟩ := acknowledged
      cases hm
    | untracked _ _ _ =>
      obtain rfl := Outcome.refuse.inj hm
      exact Node.notFound_ne_verifyFailure _
  · cases h with
    | identity _ | read _ _ | untracked _ _ _ => cases hm
    | status _ acknowledged =>
      obtain ⟨_, rfl, _⟩ := acknowledged
      cases hm

end Rehandles

theorem initialise_replied {payload : List UInt8} {s : NodeState} {reply : Frame}
    (h : (initialise payload s).1 = .reply reply) :
    ∃ identity, s.AsksIdentity ⟨MessageType.initialisation.toByte, payload⟩ identity := by
  unfold initialise at h
  cases hdecode : Payload.decode InitialisationRequest payload with
  | error e =>
    rw [hdecode] at h
    cases h
  | ok request =>
    cases hcheck : Identity.check request.nodeId request.privateKey request.keyVersion with
    | error e =>
      simp only [hdecode, hcheck, bind, Except.bind] at h
      cases h
    | ok identity =>
      cases haccepted : s.registration.initialise identity with
      | error e =>
        simp only [hdecode, hcheck, bind, Except.bind, haccepted] at h
        cases h
      | ok registration =>
        exact ⟨identity, rfl, (Registration.initialise_eq_ok haccepted).1, request, hdecode,
          hcheck⟩

/-- An identity that was fit to be taken is refused for the one that is there already. -/
theorem AsksIdentity.refused {s t : NodeState} {frame : Frame} {identity : Identity}
    (h : s.AsksIdentity frame identity)
    (initialised : t.registration.phase ≠ .awaitingInitialisation) :
    NodeState.initialise frame.payload t =
      (.refuse (RegistrationError.alreadyInitialised t.registration.phase).message, t) := by
  obtain ⟨request, hdecode, hcheck⟩ := h.valid
  cases hrefused : t.registration.initialise identity with
  | ok registration => exact absurd (Registration.initialise_eq_ok hrefused).1 initialised
  | error e =>
    obtain ⟨_, rfl⟩ := Registration.initialise_eq_error hrefused
    simp only [NodeState.initialise, hdecode, hcheck, bind, Except.bind, hrefused]

section WhenRegistered

variable {α : Type} [Payload α] {act : α → NodeState → Outcome × NodeState} {payload : List UInt8}

theorem whenRegistered_replied {s : NodeState} {reply : Frame}
    (h : (whenRegistered α act payload s).1 = .reply reply) :
    s.registration.phase = .registered ∧ ∃ request, Payload.decode α payload = .ok request := by
  unfold whenRegistered at h
  split at h
  · rename_i hregistered
    refine ⟨of_decide_eq_true hregistered, ?_⟩
    split at h
    · cases h
    · exact ⟨_, ‹_›⟩
  · cases h

theorem whenRegistered_decoded {s : NodeState} {request : α}
    (registered : s.registration.phase = .registered)
    (decoded : Payload.decode α payload = .ok request) :
    whenRegistered α act payload s = act request s := by
  rw [whenRegistered, Registration.isRegistered, registered, decoded]
  rfl

end WhenRegistered

/-- A handler of a node that has replied to a frame sees it again. -/
theorem rehandles {entry : MessageType × Handler NodeState} (hm : entry ∈ handlers)
    {payload : List UInt8} {s t : NodeState} {reply : Frame}
    (replied : (entry.2 payload s).1 = .reply reply) (later : (entry.2 payload s).2.Leads t) :
    t.Rehandles ⟨entry.1.toByte, payload⟩ (entry.2 payload t).1 (entry.2 payload t).2 := by
  have hlawful : s.Leads t := (lawful_handlers entry hm payload s).trans later
  simp only [handlers, List.mem_cons, List.not_mem_nil, or_false] at hm
  rcases hm with rfl | rfl | rfl | rfl
  · obtain ⟨identity, hasked⟩ := initialise_replied replied
    have hpending : (initialise payload s).2 = s.withIdentity identity := hasked.initialise
    have hinitialised := later.initialised (by
      dsimp only
      rw [hpending]
      intro hawaiting
      cases hawaiting)
    dsimp only
    rw [hasked.refused hinitialised]
    exact .identity rfl
  · obtain ⟨hregistered, request, hdecoded⟩ := whenRegistered_replied replied
    dsimp only [listPeers]
    rw [whenRegistered_decoded (hlawful.registered hregistered) hdecoded]
    exact .read (.inl rfl) _
  · obtain ⟨hregistered, request, hdecoded⟩ := whenRegistered_replied replied
    dsimp only [inspectPeer]
    rw [whenRegistered_decoded (hlawful.registered hregistered) hdecoded]
    exact .read (.inr rfl) _
  · obtain ⟨hregistered, request, hdecoded⟩ := whenRegistered_replied replied
    have hregistered' := hlawful.registered hregistered
    cases htracked : t.ledger.accounts.contains request.peerId with
    | true =>
      obtain ⟨flag, value, hsets⟩ := request.status.exists_sets
      have hasked : t.AsksStatus ⟨MessageType.changePeerStatusRequest.toByte, payload⟩ request
          flag value :=
        ⟨rfl, decide_eq_true hregistered', hdecoded, htracked, hsets⟩
      dsimp only
      rw [hasked.changePeerStatus]
      exact .status hasked (acknowledges_acknowledgement _)
    | false =>
      dsimp only [changePeerStatus]
      rw [whenRegistered_decoded hregistered' hdecoded, if_neg (by simp [htracked])]
      exact .untracked rfl hdecoded htracked

end NodeState

namespace Node

variable {config : ServerConfig} {n m : Node}

/-- What can become of a node, whoever works on it, visits it or adds to its handlers. -/
inductive Later (n : Node) : Node → Prop
  | refl : Later n n
  | act {m : Node} {s : NodeState} (h : Later n m) (work : m.state.Leads s) :
      Later n { m with state := s }
  | addHandler {m : Node} (h : Later n m) (type : UInt8) (handler : Handler NodeState) :
      Later n { m with server := m.server.addHandler type handler }
  | visit {m : Node} (h : Later n m) (v : Visit) : Later n (m.visit v)

/-- What a node keeps once it has run: the handlers that it had then. -/
structure Continues (config : ServerConfig) (n m : Node) : Prop where
  operated : Operated config m
  frozen : m.server.frozen = true
  handlers : m.server.handlers = n.server.handlers
  leads : n.state.Leads m.state

theorem visit_frozen (v : Visit) (h : n.server.frozen = true) :
    (n.visit v).server.frozen = true := by
  cases v with
  | start bind =>
    rcases n.visit_start bind with hsame | ⟨server, hserver, hstarted⟩
    · rw [hsame]
      exact h
    · rw [hstarted]
      exact Server.start_frozen hserver
  | shutdown => exact h
  | receive nonce request =>
    obtain ⟨tally, htally⟩ := n.server.receive_tally nonce request n.state
    rw [visit, receive_eq, htally]
    exact h

theorem receive_isRunning (n : Node) (nonce : Nonce) (request : Request) :
    (n.receive nonce request).2.server.isRunning = n.server.isRunning := by
  obtain ⟨tally, htally⟩ := n.server.receive_tally nonce request n.state
  rw [receive_eq, htally]
  rfl

theorem Operated.visit_leads (h : Operated config n) (v : Visit) :
    n.state.Leads (n.visit v).state := by
  cases v with
  | start bind =>
    rcases n.visit_start bind with hsame | ⟨_, _, hstarted⟩
    · rw [hsame]
      exact .refl
    · rw [hstarted]
      exact .refl
  | shutdown => exact .refl
  | receive nonce request => exact receive_leads h.reachable nonce request

theorem Later.continues (later : n.Later m) (h : Operated config n)
    (frozen : n.server.frozen = true) : Continues config n m := by
  induction later with
  | refl => exact ⟨h, frozen, rfl, .refl⟩
  | act _ work ih => exact ⟨.act ih.operated work, ih.frozen, ih.handlers, ih.leads.trans work⟩
  | @addHandler m _ type handler ih =>
    have hsame : m.server.addHandler type handler = m.server := by
      rw [Server.addHandler, if_pos ih.frozen]
    rw [hsame]
    exact ih
  | visit _ v ih =>
    exact ⟨ih.operated.visit v, visit_frozen v ih.frozen, (visit_handlers _ v).trans ih.handlers,
      ih.leads.trans (ih.operated.visit_leads v)⟩

theorem Operated.continues_receive (h : Operated config n) (running : n.server.isRunning = true)
    (nonce : Nonce) (request : Request) : Continues config n (n.receive nonce request).2 :=
  (Later.visit .refl (.receive nonce request)).continues h
    ((Server.reachable_invariant h.reachable.server).frozen running)

/-- A frame that comes is answered by what the handler of its type makes of it. -/
theorem receive_answer (h : Reachable config n) {request : Request} {frame : Frame}
    (heard : n.server.Hears request frame) {handler : Handler NodeState}
    (hentry : n.server.handlers[frame.type]? = some handler) (nonce : Nonce) :
    ∃ key, Key.parse config.key = .ok key ∧
      (n.receive nonce request).1 = some ((handler frame.payload n.state).1.response key nonce) ∧
      (n.receive nonce request).2.state = (handler frame.payload n.state).2 := by
  obtain ⟨key, hkey, hopen⟩ := heard.opened
  obtain ⟨tally, hreceive⟩ :=
    Server.receive_root h.server heard.running hkey heard.root heard.post nonce n.state
  have hlookup : (n.server.dispatch key).handlers[frame.type]? = some handler := hentry
  have hprocess := Dispatch.process_opened (d := n.server.dispatch key) heard.fits hopen n.state
  rw [hlookup] at hprocess
  rw [(Server.reachable_invariant h.server).configured] at hkey
  rw [Node.receive, hreceive, hprocess]
  exact ⟨key, hkey, congrArg some (Outcome.response_eq key nonce _).symm, rfl⟩

/-- Success is for a frame that a handler replied to. -/
theorem receive_success (h : Reachable config n) {nonce : Nonce} {request : Request}
    {response : Response} (answered : (n.receive nonce request).1 = some response)
    (success : response.status = 200) :
    ∃ frame handler reply, n.server.Hears request frame ∧
      n.server.handlers[frame.type]? = some handler ∧
      (handler frame.payload n.state).1 = .reply reply := by
  cases hsession : n.server.session with
  | none =>
    rw [Node.receive, Server.receive_stopped hsession] at answered
    cases answered
  | some session =>
    have hrunning : n.server.isRunning = true := by rw [Server.isRunning, hsession]; rfl
    obtain ⟨_, key, hsession', hkey, hdispatch⟩ := Server.session_dispatch h.server hrunning
    cases hsession.symm.trans hsession'
    rw [Node.receive, Server.receive_running hsession, hdispatch] at answered
    cases answered
    obtain ⟨frame, handler, reply, hhears, hentry, hreply, _⟩ := Dispatch.handle_success success
    exact ⟨frame, handler, reply,
      ⟨hrunning, hhears.root, hhears.post, hhears.fits, key, hkey, hhears.opened⟩, hentry, hreply⟩

/-- A body that a node has replied to comes again: the same frame is taken from it, and the same
handler is run on that as if it had come for the first time. Of a frame of the node's own types the
answer never says that it does not verify. -/
structure Repeats (m : Node) (nonce : Nonce) (again : Request) (frame : Frame)
    (handler : Handler NodeState) : Prop where
  heard : m.server.Hears again frame
  answer : ∃ key, Key.parse m.server.config.key = .ok key ∧
    (m.receive nonce again).1 = some ((handler frame.payload m.state).1.response key nonce)
  state : (m.receive nonce again).2.state = (handler frame.payload m.state).2
  own : NodeState.Own frame.type →
    m.state.Rehandles frame (handler frame.payload m.state).1 (handler frame.payload m.state).2
  verified : NodeState.Own frame.type → (m.receive nonce again).1 ≠ some .unverified
  foreign : ¬ NodeState.Own frame.type → (m.receive nonce again).2.state = m.state
  registration : (m.receive nonce again).2.state.registration = m.state.registration
  records : m.state.ledger.accounts.SameRecords (m.receive nonce again).2.state.ledger.accounts

/-- A frame of a type that is not the node's own changes nothing. -/
theorem Operated.inert (h : Operated config n) {type : UInt8} {handler : Handler NodeState}
    (hentry : n.server.handlers[type]? = some handler) (foreign : ¬ NodeState.Own type)
    (payload : List UInt8) (s : NodeState) : (handler payload s).2 = s := by
  rcases h.confined_entry hentry payload s with hsame | ⟨hasked, _⟩ | ⟨hasked, _⟩
  · exact hsame
  · exact absurd ⟨_, .tail _ (.tail _ (.tail _ (.head _))), hasked.type.symm⟩ foreign
  · exact absurd ⟨_, .head _, hasked.type.symm⟩ foreign

/-- Nothing in a node or in a body tells the second time that it comes from the first. It is opened
and handled again, at any later state and however often. The registration and the records stay as
they are, and a flag changes if the body asks for it. -/
theorem replay_served (h : Operated config n) {nonce : Nonce} {request : Request}
    {response : Response} (answered : (n.receive nonce request).1 = some response)
    (success : response.status = 200) (later : (n.receive nonce request).2.Later m)
    (running : m.server.isRunning = true) {again : Request} (same : again.body = request.body)
    (root : again.path = "/") (post : again.method = "POST") (nonce' : Nonce) :
    ∃ frame handler, n.server.Hears request frame ∧
      n.server.handlers[frame.type]? = some handler ∧ m.Repeats nonce' again frame handler := by
  obtain ⟨frame, handler, reply, hheard, hentry, hreply⟩ :=
    receive_success h.reachable answered success
  obtain ⟨_, _, _, hstate⟩ := receive_answer h.reachable hheard hentry nonce
  have hcontinues := h.continues_receive hheard.running nonce request
  have hlater := later.continues hcontinues.operated hcontinues.frozen
  have hconfig : m.server.config = n.server.config :=
    (Server.reachable_invariant hlater.operated.reachable.server).configured.trans
      (Server.reachable_invariant h.reachable.server).configured.symm
  have hagain : m.server.Hears again frame :=
    ⟨running, root, post, by rw [same, hconfig]; exact hheard.fits,
      by rw [same, hconfig]; exact hheard.opened⟩
  have hentry' : m.server.handlers[frame.type]? = some handler := by
    rw [hlater.handlers, hcontinues.handlers]
    exact hentry
  obtain ⟨key, hkey, hanswer, hstate'⟩ :=
    receive_answer hlater.operated.reachable hagain hentry' nonce'
  have hown : NodeState.Own frame.type →
      m.state.Rehandles frame (handler frame.payload m.state).1
        (handler frame.payload m.state).2 := by
    rintro ⟨entry, hm, htype⟩
    have hserves := (reachable_serves h.reachable).own entry hm
    rw [htype, hentry] at hserves
    cases hserves
    have hleads := hlater.leads
    rw [hstate] at hleads
    have hrehandles := NodeState.rehandles hm hreply hleads
    rw [htype] at hrehandles
    exact hrehandles
  have hforeign : ¬ NodeState.Own frame.type → (m.receive nonce' again).2.state = m.state := by
    intro hforeign
    rw [hstate', hlater.operated.inert hentry' hforeign]
  have hconfined := hlater.operated.confined (.receive nonce' again)
  rw [← (Server.reachable_invariant hlater.operated.reachable.server).configured] at hkey
  refine ⟨frame, handler, hheard, hentry, hagain, ⟨key, hkey, hanswer⟩, hstate', hown, ?_, hforeign,
    ?_, hconfined.records⟩
  · intro htype
    rw [hanswer]
    exact fun he => (hown htype).response_ne_unverified key nonce' (Option.some.inj he)
  · by_cases htype : NodeState.Own frame.type
    · rw [hstate']
      exact (hown htype).registration
    · rw [hforeign htype]

def sampleRequest : Request := sampleClient.post sampleNonce sampleFrame

theorem sample_asks : sample.state.AsksStatus sampleFrame sampleChange .blocked true :=
  ⟨rfl, rfl, Payload.faithful_changePeerStatusRequest.decode_encode _, rfl, .block⟩

/-- A node on the key of the sample answers its request by blocking the peer. -/
theorem receive_sampleRequest (h : Operated sampleConfig n) (running : n.server.isRunning = true)
    (asked : n.state.AsksStatus sampleFrame sampleChange .blocked true) :
    (∃ response, (n.receive sampleNonce sampleRequest).1 = some response ∧
        response.status = 200) ∧
      (n.receive sampleNonce sampleRequest).2.state = n.state.withFlag "p" .blocked true := by
  have hchange : (MessageType.changePeerStatusRequest, NodeState.changePeerStatus) ∈
      NodeState.handlers := .tail _ (.tail _ (.tail _ (.head _)))
  have hencode : (Payload.encode sampleChange).length = 32 := by
    simp only [sampleChange, Payload.encode, Payload.json, Json.compact, Json.compactMembers,
      Payload.PeerStatus.text]
    decide
  have hfits : 29 + sampleFrame.payload.length ≤ n.server.config.maxBodySize := by
    rw [(Server.reachable_invariant h.reachable.server).configured, sampleFrame, hencode]
    decide
  have hheard : n.server.Hears sampleRequest sampleFrame :=
    Server.hears_post h.reachable.server running sample_key rfl sampleNonce hfits
  have hentry : n.server.handlers[sampleFrame.type]? = some NodeState.changePeerStatus :=
    (reachable_serves h.reachable).own _ hchange
  obtain ⟨key, _, hanswer, hstate⟩ := receive_answer h.reachable hheard hentry sampleNonce
  rw [asked.changePeerStatus] at hanswer hstate
  exact ⟨⟨_, hanswer, rfl⟩, hstate⟩

/-- The sample once its peer was blocked by a request and unblocked on the spot. -/
def sampleUnblocked : Node :=
  (sample.receive sampleNonce sampleRequest).2.chore (.mutate (.setFlag "p" .blocked false))

/-- What becomes of the sample, in states alone. -/
theorem state_sampleUnblocked : sampleUnblocked.state = { sample.state with
    ledger := (sample.state.withFlag "p" .blocked true).ledger.apply
      (.setFlag "p" .blocked false) } := by
  have hstate := (receive_sampleRequest operated_sample rfl sample_asks).2
  rw [sampleUnblocked, chore]
  dsimp only
  rw [hstate]
  rfl

theorem later_sampleUnblocked :
    (sample.receive sampleNonce sampleRequest).2.Later sampleUnblocked :=
  .act .refl (chore_leads _ (.mutate (.setFlag "p" .blocked false)))

theorem running_sampleUnblocked : sampleUnblocked.server.isRunning = true := by
  rw [sampleUnblocked, chore_server, receive_isRunning]
  rfl

theorem sample_served : Operated sampleConfig sample ∧
    (∃ response, (sample.receive sampleNonce sampleRequest).1 = some response ∧
      response.status = 200) ∧
    (sample.receive sampleNonce sampleRequest).2.Later sampleUnblocked ∧
    sampleUnblocked.server.isRunning = true ∧
    ∃ frame handler, sample.server.Hears sampleRequest frame ∧
      sample.server.handlers[frame.type]? = some handler ∧
      sampleUnblocked.Repeats sampleNonce sampleRequest frame handler := by
  obtain ⟨⟨response, hanswer, hsuccess⟩, _⟩ :=
    receive_sampleRequest operated_sample rfl sample_asks
  exact ⟨operated_sample, ⟨response, hanswer, hsuccess⟩, later_sampleUnblocked,
    running_sampleUnblocked,
    replay_served operated_sample hanswer hsuccess later_sampleUnblocked running_sampleUnblocked
      rfl rfl rfl sampleNonce⟩

/-- A request that blocks a peer does so again once the peer was unblocked. -/
theorem block_replayed : Operated sampleConfig sample ∧
    (∃ response, (sample.receive sampleNonce sampleRequest).1 = some response ∧
      response.status = 200) ∧
    (sample.receive sampleNonce sampleRequest).2.Later sampleUnblocked ∧
    sampleUnblocked.server.isRunning = true ∧
    sampleUnblocked.state.ledger.accounts.flag? "p" .blocked = some false ∧
    (∃ response, (sampleUnblocked.receive sampleNonce sampleRequest).1 = some response ∧
      response.status = 200) ∧
    (sampleUnblocked.receive sampleNonce sampleRequest).1 ≠ some .unverified ∧
    (sampleUnblocked.receive sampleNonce sampleRequest).2.state.ledger.accounts.flag? "p"
      .blocked = some true := by
  have hblocked := operated_sample.continues_receive rfl sampleNonce sampleRequest
  have hoperated : Operated sampleConfig sampleUnblocked :=
    (later_sampleUnblocked.continues hblocked.operated hblocked.frozen).operated
  have hasks : sampleUnblocked.state.AsksStatus sampleFrame sampleChange .blocked true := by
    rw [state_sampleUnblocked]
    exact ⟨rfl, rfl, Payload.faithful_changePeerStatusRequest.decode_encode _, rfl, .block⟩
  obtain ⟨hanswer, _⟩ := receive_sampleRequest operated_sample rfl sample_asks
  obtain ⟨⟨response, hagain, hsuccess⟩, hstate⟩ :=
    receive_sampleRequest hoperated running_sampleUnblocked hasks
  refine ⟨operated_sample, hanswer, later_sampleUnblocked, running_sampleUnblocked, ?_,
    ⟨response, hagain, hsuccess⟩, fun he => ?_, ?_⟩
  · rw [state_sampleUnblocked]
    rfl
  · rw [hagain] at he
    cases he
    cases hsuccess
  · rw [hstate, state_sampleUnblocked]
    rfl

end Node

end AdminPlane
