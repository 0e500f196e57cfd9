import AdminPlane.Proofs.Ledger.Flags
import AdminPlane.Proofs.Node.Remote

namespace AdminPlane

open Channel (Frame MessageType Nonce)
open Payload (ChangePeerStatusRequest InitialisationRequest)

namespace NodeState

/-- A frame by which a registered node is asked to set a flag of a peer that it tracks. -/
structure AsksStatus (s : NodeState) (frame : Frame) (request : ChangePeerStatusRequest)
    (flag : Flag) (value : Bool) : Prop where
  type : frame.type = MessageType.changePeerStatusRequest.toByte
  registered : s.registration.isRegistered = true
  decoded : Payload.decode ChangePeerStatusRequest frame.payload = .ok request
  tracked : s.ledger.accounts.contains request.peerId = true
  sets : request.status.Sets flag value

/-- A frame by which a node that has no identity is asked to take one. -/
structure AsksIdentity (s : NodeState) (frame : Frame) (identity : Identity) : Prop where
  type : frame.type = MessageType.initialisation.toByte
  awaiting : s.registration.phase = .awaitingInitialisation
  valid : ∃ request, Payload.decode InitialisationRequest frame.payload = .ok request ∧
    Identity.check request.nodeId request.privateKey request.keyVersion = .ok identity

def withFlag (s : NodeState) (id : String) (flag : Flag) (value : Bool) : NodeState :=
  { s with ledger := s.ledger.apply (.setFlag id flag value) }

theorem withFlag_accounts (s : NodeState) (id : String) (flag : Flag) (value : Bool) :
    (s.withFlag id flag value).ledger.accounts =
      (s.ledger.accounts.apply (.setFlag id flag value)).1 :=
  Ledger.apply_accounts s.ledger (.setFlag id flag value)

def withIdentity (s : NodeState) (identity : Identity) : NodeState :=
  { s with registration := ⟨.pending identity, s.registration.steps + 1⟩ }

/-- The two ways in which a frame can change a node. -/
inductive Changes (s : NodeState) (frame : Frame) (t : NodeState) : Prop
  | status {request : ChangePeerStatusRequest} {flag : Flag} {value : Bool}
      (asked : s.AsksStatus frame request flag value)
      (result : t = s.withFlag request.peerId flag value)
  | identity {identity : Identity} (asked : s.AsksIdentity frame identity)
      (result : t = s.withIdentity identity)

/-- A handler that changes a node in these ways alone, if at all. -/
def Confined (type : UInt8) (handler : Handler NodeState) : Prop :=
  ∀ (payload : List UInt8) (s : NodeState),
    (handler payload s).2 = s ∨ s.Changes ⟨type, payload⟩ (handler payload s).2

theorem awaiting_iff {r : Registration} :
    r.phase = .awaitingInitialisation ↔ r.progress = .awaiting := by
  cases hr : r.progress <;> simp [Registration.phase, Progress.phase, hr]

theorem AsksIdentity.initialise {s : NodeState} {frame : Frame} {identity : Identity}
    (h : s.AsksIdentity frame identity) :
    (initialise frame.payload s).2 = s.withIdentity identity := by
  obtain ⟨request, hdecode, hcheck⟩ := h.valid
  have haccepted : s.registration.initialise identity =
      .ok ⟨.pending identity, s.registration.steps + 1⟩ := by
    rw [Registration.initialise, awaiting_iff.mp h.awaiting]
  simp only [NodeState.initialise, hdecode, hcheck, bind, Except.bind, haccepted, withIdentity]

theorem confined_initialise : Confined MessageType.initialisation.toByte initialise := by
  intro payload s
  cases hdecode : Payload.decode InitialisationRequest payload with
  | error e => exact .inl (by simp only [initialise, hdecode])
  | ok request =>
    cases hcheck : Identity.check request.nodeId request.privateKey request.keyVersion with
    | error e => exact .inl (by simp only [initialise, hdecode, hcheck, bind, Except.bind])
    | ok identity =>
      by_cases hawaiting : s.registration.phase = .awaitingInitialisation
      · have hasked : s.AsksIdentity ⟨MessageType.initialisation.toByte, payload⟩ identity :=
          ⟨rfl, hawaiting, request, hdecode, hcheck⟩
        exact .inr (.identity hasked hasked.initialise)
      · have hrefused : s.registration.initialise identity =
            .error (.alreadyInitialised s.registration.phase) := by
          rw [awaiting_iff] at hawaiting
          unfold Registration.initialise
          split
          · contradiction
          · rfl
        exact .inl (by simp only [initialise, hdecode, hcheck, bind, Except.bind, hrefused])

theorem AsksStatus.changePeerStatus {s : NodeState} {frame : Frame}
    {request : ChangePeerStatusRequest} {flag : Flag} {value : Bool}
    (h : s.AsksStatus frame request flag value) :
    changePeerStatus frame.payload s =
      (acknowledgement ("peer " ++ request.peerId ++ ": " ++ request.status.text),
        s.withFlag request.peerId flag value) := by
  simp only [NodeState.changePeerStatus, whenRegistered, h.registered, h.decoded, h.tracked,
    h.sets.mutation_eq, if_true]
  rfl

/-- Nothing changes but by what a registered node makes of a request. -/
theorem whenRegistered_state {α : Type} [Payload α] {act : α → NodeState → Outcome × NodeState}
    {s : NodeState} (payload : List UInt8)
    (h : s.registration.isRegistered = true → ∀ request,
      Payload.decode α payload = .ok request → (act request s).2 = s) :
    (whenRegistered α act payload s).2 = s := by
  unfold whenRegistered
  split
  · rename_i hregistered
    split
    · rfl
    · exact h hregistered _ ‹_›
  · rfl

theorem confined_changePeerStatus :
    Confined MessageType.changePeerStatusRequest.toByte changePeerStatus := by
  intro payload s
  by_cases hasked : ∃ request flag value,
      s.AsksStatus ⟨MessageType.changePeerStatusRequest.toByte, payload⟩ request flag value
  · obtain ⟨request, flag, value, hasked⟩ := hasked
    exact .inr (.status hasked (congrArg Prod.snd hasked.changePeerStatus))
  · refine .inl (whenRegistered_state payload fun hregistered request hdecode => ?_)
    obtain ⟨flag, value, hsets⟩ := request.status.exists_sets
    rw [if_neg fun htracked =>
      hasked ⟨request, flag, value, rfl, hregistered, hdecode, htracked, hsets⟩]

theorem confined_handlers : ∀ entry ∈ handlers, Confined entry.1.toByte entry.2 := by
  simp only [handlers, List.forall_mem_cons, List.not_mem_nil, false_implies, implies_true,
    and_true]
  exact ⟨confined_initialise,
    fun payload _ => .inl (whenRegistered_state payload fun _ _ _ => rfl),
    fun payload _ => .inl (whenRegistered_state payload fun _ _ _ => rfl),
    confined_changePeerStatus⟩

end NodeState

/-- What happens to a node from outside. -/
inductive Visit where
  | start (bind : String → Except BindError Endpoint)
  | shutdown
  | receive (nonce : Nonce) (request : Request)

namespace Node

/-- A start that fails leaves the node as it is. -/
def visit (n : Node) : Visit → Node
  | .start bind => (n.start bind).toOption.getD n
  | .shutdown => n.shutdown
  | .receive nonce request => (n.receive nonce request).2

def visits (n : Node) (vs : List Visit) : Node := vs.foldl visit n

/-- The frame that a visit brings to a node. -/
def Brings (n : Node) (frame : Frame) : Visit → Prop
  | .receive _ request => n.server.Hears request frame
  | .start _ | .shutdown => False

/-- The states of a node with a configuration, as long as the handlers that are added beside its
own ones leave it as it is. -/
inductive Operated (config : ServerConfig) : Node → Prop
  | ofConfig : Operated config (.ofConfig config)
  | act {n : Node} {s : NodeState} (h : Operated config n) (work : n.state.Leads s) :
      Operated config { n with state := s }
  | addHandler {n : Node} (h : Operated config n) (type : UInt8) (handler : Handler NodeState)
      (inert : ∀ payload s, (handler payload s).2 = s)
      (foreign : ∀ entry ∈ NodeState.handlers, entry.1.toByte ≠ type) :
      Operated config { n with server := n.server.addHandler type handler }
  | visit {n : Node} (h : Operated config n) (v : Visit) : Operated config (n.visit v)

theorem visit_start (n : Node) (bind : String → Except BindError Endpoint) :
    n.visit (.start bind) = n ∨
      ∃ server, n.server.start bind = .ok server ∧ n.visit (.start bind) = { n with server } := by
  rw [visit]
  cases hstart : n.start bind with
  | error e => exact .inl rfl
  | ok m => exact .inr (start_eq_ok hstart)

theorem visit_handlers (n : Node) (v : Visit) :
    (n.visit v).server.handlers = n.server.handlers := by
  cases v with
  | start bind =>
    rcases n.visit_start bind with hsame | ⟨server, hserver, hstarted⟩
    · rw [hsame]
    · rw [hstarted]
      exact Server.start_handlers hserver
  | shutdown => rfl
  | receive nonce request =>
    obtain ⟨tally, htally⟩ := n.server.receive_tally nonce request n.state
    rw [visit, receive_eq, htally]

section Operated

variable {config : ServerConfig} {n : Node} (h : Operated config n)
include h

theorem Operated.reachable : Reachable config n := by
  induction h with
  | ofConfig => exact .ofConfig
  | act _ work ih => exact .act ih work
  | addHandler _ type handler inert foreign ih =>
    refine .addHandler ih type handler (fun payload s => ?_) foreign
    rw [inert]
    exact .refl
  | @visit n _ v ih =>
    cases v with
    | start bind =>
      rw [Node.visit]
      cases hstart : n.start bind with
      | error e => exact ih
      | ok m => exact .start ih bind hstart
    | shutdown => exact .shutdown ih
    | receive nonce request => exact .receive ih nonce request

theorem Operated.confined_entry {type : UInt8} {handler : Handler NodeState}
    (hentry : n.server.handlers[type]? = some handler) : NodeState.Confined type handler := by
  induction h with
  | ofConfig =>
    obtain ⟨entry, hm, rfl, rfl⟩ := handlers_ofConfig hentry
    exact NodeState.confined_handlers entry hm
  | act _ _ ih => exact ih hentry
  | addHandler _ _ added inert _ ih =>
    rcases Server.addHandler_entry hentry with ⟨rfl, rfl⟩ | hentry
    · exact fun payload s => .inl (inert payload s)
    · exact ih hentry
  | visit _ v ih =>
    rw [visit_handlers] at hentry
    exact ih hentry

/-- A visit changes a node only by a frame that it brings. -/
theorem Operated.visit_state (v : Visit) : (n.visit v).state = n.state ∨
    ∃ frame, n.Brings frame v ∧ n.state.Changes frame (n.visit v).state := by
  cases v with
  | start bind =>
    rcases n.visit_start bind with hsame | ⟨_, _, hstarted⟩
    · exact .inl (by rw [hsame])
    · exact .inl (by rw [hstarted])
  | shutdown => exact .inl rfl
  | receive nonce request =>
    rw [Node.visit, receive_eq]
    rcases Server.receive_state h.reachable.server nonce request n.state with
      hsame | ⟨frame, handler, hheard, hentry, hstate⟩
    · exact .inl hsame
    · rw [hstate]
      exact (h.confined_entry hentry frame.payload n.state).imp_right fun hchanges =>
        ⟨frame, hheard, hchanges⟩

/-- A frame that is brought comes to the handler of its type. -/
theorem Operated.brings_state {v : Visit} {frame : Frame} (hbrings : n.Brings frame v)
    {entry : MessageType × Handler NodeState} (hm : entry ∈ NodeState.handlers)
    (htype : frame.type = entry.1.toByte) :
    (n.visit v).state = (entry.2 frame.payload n.state).2 := by
  cases v with
  | start _ | shutdown => exact hbrings.elim
  | receive nonce request =>
    have hentry : n.server.handlers[frame.type]? = some entry.2 :=
      htype ▸ (reachable_serves h.reachable).own entry hm
    exact Server.receive_heard h.reachable.server hbrings hentry nonce n.state

end Operated

/-- What a visit can change: one flag of one peer, as a request asks, and the identity of a node
that has none. -/
structure Confined (n : Node) (v : Visit) : Prop where
  records : n.state.ledger.accounts.SameRecords (n.visit v).state.ledger.accounts
  registered : (n.visit v).state.registration.isRegistered = n.state.registration.isRegistered
  flag : ∀ id flag,
    (n.visit v).state.ledger.accounts.flag? id flag ≠ n.state.ledger.accounts.flag? id flag →
    ∃ frame request value, n.Brings frame v ∧ n.state.AsksStatus frame request flag value ∧
      request.peerId = id ∧ (n.visit v).state.ledger.accounts.flag? id flag = some value
  status : ∀ frame request flag value, n.Brings frame v →
    n.state.AsksStatus frame request flag value →
    (n.visit v).state.registration = n.state.registration ∧
      ∀ k f, (n.visit v).state.ledger.accounts.flag? k f =
        if k = request.peerId ∧ f = flag then some value
        else n.state.ledger.accounts.flag? k f
  registration : (n.visit v).state.registration ≠ n.state.registration →
    ∃ frame identity, n.Brings frame v ∧ n.state.AsksIdentity frame identity
  identity : ∀ frame identity, n.Brings frame v → n.state.AsksIdentity frame identity →
    (n.visit v).state = { n.state with
      registration := ⟨.pending identity, n.state.registration.steps + 1⟩ }

theorem Operated.confined {config : ServerConfig} {n : Node} (h : Operated config n) (v : Visit) :
    n.Confined v where
  records := by
    rcases h.visit_state v with hsame | ⟨frame, _, ⟨_, hresult⟩ | ⟨_, hresult⟩⟩
    · rw [hsame]
      exact .refl _
    · rw [hresult, NodeState.withFlag_accounts]
      exact Accounts.sameRecords_setFlag _ _ _ _
    · rw [hresult]
      exact .refl _
  registered := by
    rcases h.visit_state v with hsame | ⟨frame, _, ⟨_, hresult⟩ | ⟨hasked, hresult⟩⟩
    · rw [hsame]
    · rw [hresult]
      rfl
    · rw [hresult, Registration.isRegistered, Registration.isRegistered, hasked.awaiting]
      rfl
  flag id flag hflag := by
    rcases h.visit_state v with
      hsame | ⟨frame, hbrings, @⟨request, asked, value, hasked, hresult⟩ | ⟨_, hresult⟩⟩
    · exact absurd (by rw [hsame]) hflag
    · have hset := Accounts.flag?_setFlag hasked.tracked asked value id flag
      rw [← NodeState.withFlag_accounts, ← hresult] at hset
      by_cases hnamed : id = request.peerId ∧ flag = asked
      · obtain ⟨rfl, rfl⟩ := hnamed
        exact ⟨frame, request, value, hbrings, hasked, rfl, hset.trans (if_pos ⟨rfl, rfl⟩)⟩
      · exact absurd (hset.trans (if_neg hnamed)) hflag
    · exact absurd (by rw [hresult]; rfl) hflag
  status frame request flag value hbrings hasked := by
    -- `visit_state` has some frame of the visit; this is about a given one.
    have hchange : (MessageType.changePeerStatusRequest, NodeState.changePeerStatus) ∈
        NodeState.handlers := .tail _ (.tail _ (.tail _ (.head _)))
    have hstate : (n.visit v).state = n.state.withFlag request.peerId flag value :=
      (h.brings_state hbrings hchange hasked.type).trans
        (congrArg Prod.snd hasked.changePeerStatus)
    rw [hstate]
    refine ⟨rfl, fun k f => ?_⟩
    rw [NodeState.withFlag_accounts]
    exact Accounts.flag?_setFlag hasked.tracked flag value k f
  registration hregistration := by
    rcases h.visit_state v with hsame | ⟨frame, hbrings, ⟨_, hresult⟩ | @⟨identity, hasked, _⟩⟩
    · exact absurd (by rw [hsame]) hregistration
    · exact absurd (by rw [hresult]; rfl) hregistration
    · exact ⟨frame, identity, hbrings, hasked⟩
  identity frame identity hbrings hasked := by
    rw [h.brings_state hbrings (List.mem_cons_self (a := (_, NodeState.initialise))) hasked.type]
    exact hasked.initialise

theorem Operated.visits {config : ServerConfig} {n : Node} (h : Operated config n)
    (vs : List Visit) : Operated config (n.visits vs) := by
  induction vs generalizing n with
  | nil => exact h
  | cons v vs ih => exact ih (h.visit v)

/-- The channel changes nothing of a node but flags and, once, its identity, each on a request for
just that. The peers, their scores and their logs stay, and no request makes a node registered. -/
theorem channel_confined {config : ServerConfig} {n : Node} (h : Operated config n)
    (vs : List Visit) :
    n.state.ledger.accounts.SameRecords (n.visits vs).state.ledger.accounts ∧
      (n.visits vs).state.registration.isRegistered = n.state.registration.isRegistered ∧
      ∀ v, (n.visits vs).Confined v := by
  refine ⟨?_, ?_, (h.visits vs).confined⟩
  · induction vs generalizing n with
    | nil => exact .refl _
    | cons v vs ih => exact (h.confined v).records.trans (ih (h.visit v))
  · induction vs generalizing n with
    | nil => rfl
    | cons v vs ih => exact (ih (h.visit v)).trans (h.confined v).registered

/-- A request to block the peer of the sample, as its client sends it. -/
def sampleChange : ChangePeerStatusRequest := ⟨"p", .block⟩

def sampleFrame : Frame :=
  ⟨MessageType.changePeerStatusRequest.toByte, Payload.encode sampleChange⟩

def sampleVisit : Visit := .receive sampleNonce (sampleClient.post sampleNonce sampleFrame)

theorem operated_sample : Operated sampleConfig sample := by
  have hstarted : { ofConfig sampleConfig with state := sampleState }.visit (.start sampleBind) =
      sample := by
    rw [visit, start_sample]
    rfl
  rw [← hstarted]
  exact .visit (.act .ofConfig sample_work) _

theorem restart_sample : sample.visits [.shutdown, .start sampleBind] = sample := by
  have hrestarted : sample.shutdown.start sampleBind = .ok sample := by
    have hconfig : sample.shutdown.server.config = sampleConfig := rfl
    have hstopped : sample.shutdown.server.isRunning = false := rfl
    simp only [start, Server.start, hstopped, hconfig, sample_key]
    rfl
  rw [visits, List.foldl_cons, List.foldl_cons, List.foldl_nil, visit, visit, hrestarted]
  rfl

theorem sample_confined : Operated sampleConfig sample ∧
    sample.state.ledger.accounts.SameRecords
      (sample.visits [.shutdown, .start sampleBind]).state.ledger.accounts ∧
    sample.Brings sampleFrame sampleVisit ∧
    sample.state.AsksStatus sampleFrame sampleChange .blocked true ∧
    (sample.visit sampleVisit).state.ledger.accounts.flag? "p" .blocked = some true := by
  obtain ⟨hrecords, _, hconfined⟩ :=
    channel_confined operated_sample [.shutdown, .start sampleBind]
  have hfits : 29 + sampleFrame.payload.length ≤ sample.server.config.maxBodySize := by
    have hencode : (Payload.encode sampleChange).length = 32 := by
      simp only [sampleChange, Payload.encode, Payload.json, Json.compact, Json.compactMembers,
        Payload.PeerStatus.text]
      decide
    rw [sampleFrame, hencode]
    decide
  have hbrings : sample.Brings sampleFrame sampleVisit :=
    Server.hears_post reachable_sample.server rfl sample_key rfl sampleNonce hfits
  have hasked : sample.state.AsksStatus sampleFrame sampleChange .blocked true :=
    ⟨rfl, rfl, Payload.faithful_changePeerStatusRequest.decode_encode _, rfl, .block⟩
  have hstatus := (restart_sample ▸ hconfined sampleVisit).status _ _ _ _ hbrings hasked
  exact ⟨operated_sample, hrecords, hbrings, hasked,
    (hstatus.2 "p" .blocked).trans (if_pos ⟨rfl, rfl⟩)⟩

end Node

end AdminPlane
