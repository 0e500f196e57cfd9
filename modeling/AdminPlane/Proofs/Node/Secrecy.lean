import AdminPlane.Proofs.Node.Remote
import AdminPlane.Proofs.Server.Authentication

namespace AdminPlane

open Channel (Frame Key MessageType Nonce)

/-- Two responses that one who holds the key cannot tell apart: what is in the clear is the same,
and so is what is sealed, once it is opened. -/
structure Response.Alike (key : Key) (a b : Response) : Prop where
  status : a.status = b.status
  contentType : a.contentType = b.contentType
  cleartext : a.status ≠ 200 → a.body = b.body
  sealed : a.status = 200 →
    ∃ frame, key.openFrame a.body = .ok frame ∧ key.openFrame b.body = .ok frame

theorem Response.Alike.refused (key : Key) {a : Response} (h : a.status ≠ 200) : a.Alike key a :=
  ⟨rfl, rfl, fun _ => rfl, fun hsuccess => absurd hsuccess h⟩

/-- The nonce is all that two answers differ in when the same came of two requests. -/
theorem Response.alike_ofResult (key : Key) (m n : Nonce) (result : Except Rejection Frame) :
    (ofResult key m result).Alike key (ofResult key n result) := by
  cases result with
  | ok frame =>
    refine ⟨rfl, rfl, fun h => absurd rfl h, fun _ => ⟨frame, ?_, ?_⟩⟩
    · exact key.openFrame_sealFrame m frame
    · exact key.openFrame_sealFrame n frame
  | error rejection => exact .refused key rejection.status_ne_success

/-- The answer to every request for peers before registration. -/
def Response.notInitialised : Response where
  status := 400
  contentType := some "application/json"
  body := Text.Utf8.encode "\x7b\"Error\":\"node not initialised\"\x7d"

theorem Rejection.response_notInitialised :
    (handler NodeState.notInitialised).response = Response.notInitialised := by
  rw [response, Response.notInitialised]
  simp only [Json.compact, Json.compactMembers]
  rfl

section Related

variable {σ : Type} {R : σ → σ → Prop}

/-- On related states a handler has the same outcome, and leaves related states. -/
def Handler.Respects (handler : Handler σ) (R : σ → σ → Prop) : Prop :=
  ∀ (payload : List UInt8) (s t : σ), R s t →
    (handler payload s).1 = (handler payload t).1 ∧
      R (handler payload s).2 (handler payload t).2

variable {d : Dispatch σ}
  (hd : ∀ (type : UInt8) handler, d.handlers[type]? = some handler → handler.Respects R)
include hd

theorem Dispatch.process_related (body : List UInt8) {s t : σ} (h : R s t) :
    (d.process body s).1 = (d.process body t).1 ∧
      R (d.process body s).2 (d.process body t).2 := by
  by_cases hlong : d.maxBodySize < body.length
  · rw [process_tooLong hlong, process_tooLong hlong]
    exact ⟨rfl, h⟩
  · have hfits : body.length ≤ d.maxBodySize := Nat.le_of_not_lt hlong
    cases hopen : d.key.openFrame body with
    | error e =>
      rw [process_unopened hfits hopen, process_unopened hfits hopen]
      exact ⟨rfl, h⟩
    | ok frame =>
      rw [process_opened hfits hopen, process_opened hfits hopen]
      cases hhandler : d.handlers[frame.type]? with
      | none => exact ⟨rfl, h⟩
      | some handler =>
        obtain ⟨houtcome, hstates⟩ := hd _ handler hhandler frame.payload s t h
        exact ⟨congrArg Outcome.result houtcome, hstates⟩

theorem Dispatch.handle_related (m n : Nonce) (request : Request) {s t : σ} (h : R s t)
    (u v : Tally) :
    (d.handle m request s u).1.Alike d.key (d.handle n request t v).1 ∧
      R (d.handle m request s u).2.1 (d.handle n request t v).2.1 := by
  by_cases hpath : request.path = "/"
  · by_cases hmethod : request.method = "POST"
    · obtain ⟨hresult, hstates⟩ := process_related hd request.body h
      obtain ⟨_, hs⟩ := d.handle_root hpath hmethod m s u
      obtain ⟨_, ht⟩ := d.handle_root hpath hmethod n t v
      rw [hs, ht, hresult]
      exact ⟨Response.alike_ofResult d.key m n _, hstates⟩
    · have hrefused (nonce : Nonce) (s : σ) (tally : Tally) :
          d.handle nonce request s tally = (.empty 405, s, tally) := by
        rw [handle, route, if_neg (by simpa using hpath), if_pos hmethod]
      rw [hrefused, hrefused]
      exact ⟨.refused d.key (of_decide_eq_false rfl), h⟩
  · have hmissing (nonce : Nonce) (s : σ) (tally : Tally) :
        d.handle nonce request s tally = (.empty 404, s, tally) := by
      rw [handle, route, if_pos hpath]
    rw [hmissing, hmissing]
    exact ⟨.refused d.key (of_decide_eq_false rfl), h⟩

end Related

namespace Registration

theorem initialise_eq_ok {r q : Registration} {identity : Identity}
    (h : r.initialise identity = .ok q) :
    r.phase = .awaitingInitialisation ∧ q.phase = .pendingRegistration := by
  obtain ⟨progress, steps⟩ := r
  cases progress with
  | awaiting =>
    cases h
    exact ⟨rfl, rfl⟩
  | pending i => cases h
  | registered i => cases h

theorem initialise_eq_error {r : Registration} {identity : Identity} {e : RegistrationError}
    (h : r.initialise identity = .error e) :
    r.phase ≠ .awaitingInitialisation ∧ e = .alreadyInitialised r.phase := by
  obtain ⟨progress, steps⟩ := r
  cases progress with
  | awaiting => cases h
  | pending i =>
    cases h
    exact ⟨nofun, rfl⟩
  | registered i =>
    cases h
    exact ⟨nofun, rfl⟩

theorem acknowledge_eq_ok {r q : Registration} (h : r.acknowledge = .ok q) :
    r.phase = .pendingRegistration ∧ q.phase = .registered := by
  obtain ⟨progress, steps⟩ := r
  cases progress with
  | awaiting => cases h
  | pending i =>
    cases h
    exact ⟨rfl, rfl⟩
  | registered i => cases h

end Registration

namespace NodeState

/-- Two nodes that are as far from being registered. Nothing is said of their ledgers. -/
structure Alike (s t : NodeState) : Prop where
  phase : s.registration.phase = t.registration.phase
  unregistered : s.registration.phase ≠ .registered

theorem isRegistered_eq_false {s : NodeState} (h : s.registration.phase ≠ .registered) :
    s.registration.isRegistered = false :=
  decide_eq_false h

theorem Alike.initialise {s t : NodeState} (h : s.Alike t) (identity : Identity) :
    (∃ r q, s.registration.initialise identity = .ok r ∧
        t.registration.initialise identity = .ok q ∧
        ({ s with registration := r } : NodeState).Alike { t with registration := q }) ∨
      ∃ e, s.registration.initialise identity = .error e ∧
        t.registration.initialise identity = .error e := by
  cases hs : s.registration.initialise identity with
  | ok r =>
    obtain ⟨hawaiting, hr⟩ := Registration.initialise_eq_ok hs
    cases ht : t.registration.initialise identity with
    | ok q =>
      have hq := (Registration.initialise_eq_ok ht).2
      refine .inl ⟨r, q, rfl, rfl, hr.trans hq.symm, ?_⟩
      rw [hr]
      exact nofun
    | error e => exact absurd (h.phase ▸ hawaiting) (Registration.initialise_eq_error ht).1
  | error e =>
    obtain ⟨hnot, rfl⟩ := Registration.initialise_eq_error hs
    cases ht : t.registration.initialise identity with
    | ok q => exact absurd (h.phase.trans (Registration.initialise_eq_ok ht).1) hnot
    | error e =>
      obtain ⟨_, rfl⟩ := Registration.initialise_eq_error ht
      exact .inr ⟨_, rfl, by rw [h.phase]⟩

theorem respects_initialise : Handler.Respects NodeState.initialise Alike := by
  intro payload s t h
  unfold NodeState.initialise
  cases Payload.decode Payload.InitialisationRequest payload with
  | error e => exact ⟨rfl, h⟩
  | ok request =>
    dsimp only
    cases Identity.check request.nodeId request.privateKey request.keyVersion with
    | error e => exact ⟨rfl, h⟩
    | ok identity =>
      simp only [bind, Except.bind]
      rcases h.initialise identity with ⟨r, q, hs, ht, halike⟩ | ⟨e, hs, ht⟩
      · rw [hs, ht]
        exact ⟨rfl, halike⟩
      · rw [hs, ht]
        exact ⟨rfl, h⟩

theorem whenRegistered_refuses {α : Type} [Payload α]
    (act : α → NodeState → Outcome × NodeState) {s : NodeState}
    (h : s.registration.phase ≠ .registered) (payload : List UInt8) :
    whenRegistered α act payload s = (.refuse notInitialised, s) := by
  rw [whenRegistered, isRegistered_eq_false h]
  rfl

theorem respects_whenRegistered {α : Type} [Payload α]
    (act : α → NodeState → Outcome × NodeState) :
    Handler.Respects (whenRegistered α act) Alike := by
  intro payload s t h
  rw [whenRegistered_refuses act h.unregistered,
    whenRegistered_refuses act (h.phase ▸ h.unregistered)]
  exact ⟨rfl, h⟩

theorem respects_handlers : ∀ entry ∈ handlers, entry.2.Respects Alike := by
  simp only [handlers, List.forall_mem_cons, List.not_mem_nil, false_implies, implies_true,
    and_true]
  exact ⟨respects_initialise, respects_whenRegistered _, respects_whenRegistered _,
    respects_whenRegistered _⟩

/-- The types of the requests that ask for the ledger or for a change of it. -/
def peersTypes : List UInt8 :=
  [MessageType.listPeersRequest, .inspectPeerRequest, .changePeerStatusRequest].map
    MessageType.toByte

theorem exists_peers_entry {type : UInt8} (h : type ∈ peersTypes) :
    ∃ entry ∈ handlers, entry.1.toByte = type := by
  simp only [peersTypes, List.map_cons, List.map_nil, List.mem_cons, List.not_mem_nil,
    or_false] at h
  rcases h with rfl | rfl | rfl
  · exact ⟨_, .tail _ (.head _), rfl⟩
  · exact ⟨_, .tail _ (.tail _ (.head _)), rfl⟩
  · exact ⟨_, .tail _ (.tail _ (.tail _ (.head _))), rfl⟩

theorem peers_refuses {entry : MessageType × Handler NodeState} (hm : entry ∈ handlers)
    (htype : entry.1.toByte ∈ peersTypes) {s : NodeState}
    (h : s.registration.phase ≠ .registered) (payload : List UInt8) :
    entry.2 payload s = (.refuse notInitialised, s) := by
  simp only [handlers, List.mem_cons, List.not_mem_nil, or_false] at hm
  rcases hm with rfl | rfl | rfl | rfl
  · exact absurd htype (by decide)
  · exact whenRegistered_refuses _ h payload
  · exact whenRegistered_refuses _ h payload
  · change changePeerStatus payload s = _
    rw [changePeerStatus, whenRegistered_refuses _ h]

/-- What was registered stays so. -/
theorem Leads.registered {s t : NodeState} (h : s.Leads t)
    (hs : s.registration.phase = .registered) : t.registration.phase = .registered := by
  induction h with
  | refl => exact hs
  | mutate _ _ ih => exact ih
  | reorder _ _ ih => exact ih
  | initialise _ accepted ih =>
    have hawaiting := (Registration.initialise_eq_ok accepted).1
    rw [ih] at hawaiting
    cases hawaiting
  | acknowledge _ pending _ => exact (Registration.acknowledge_eq_ok pending).2

end NodeState

/-- What is done to a node on the spot. -/
inductive Chore where
  | mutate (m : Mutation)
  | reorder (order : KeyOrder)
  | acknowledge

/-- What is done on the spot, and the request that comes then. -/
structure Turn where
  chores : List Chore
  nonce : Nonce
  request : Request

namespace Node

/-- An acknowledgement that fails leaves the node as it is. -/
def chore (n : Node) : Chore → Node
  | .mutate m => { n with state := { n.state with ledger := n.state.ledger.apply m } }
  | .reorder order =>
    { n with state := { n.state with ledger := { n.state.ledger with order } } }
  | .acknowledge => n.completeRegistration

def turn (n : Node) (t : Turn) : Option Response × Node :=
  (t.chores.foldl chore n).receive t.nonce t.request

def turns (n : Node) : List Turn → List (Option Response) × Node
  | [] => ([], n)
  | t :: rest =>
    let (answer, n) := n.turn t
    let (answers, n) := n.turns rest
    (answer :: answers, n)

/-- A node that runs with its own handlers alone. Its ledger may hold anything. -/
structure Hosts (config : ServerConfig) (n : Node) : Prop where
  server : n.server.Reachable config
  own : n.server.handlers = (ofConfig config).server.handlers
  running : n.server.isRunning = true

variable {config : ServerConfig} {n m : Node}

theorem chore_server (n : Node) (c : Chore) : (n.chore c).server = n.server := by
  cases c with
  | mutate _ | reorder _ => rfl
  | acknowledge =>
    rw [chore, completeRegistration]
    cases n.state.registration.acknowledge with
    | error e => rfl
    | ok r => rfl

theorem chores_server (n : Node) (chores : List Chore) :
    (chores.foldl chore n).server = n.server := by
  induction chores generalizing n with
  | nil => rfl
  | cons c chores ih => exact (ih _).trans (n.chore_server c)

theorem chore_leads (n : Node) (c : Chore) : n.state.Leads (n.chore c).state := by
  cases c with
  | mutate m => exact .mutate m .refl
  | reorder order => exact .reorder order .refl
  | acknowledge =>
    rw [chore, completeRegistration]
    cases hpending : n.state.registration.acknowledge with
    | error e => exact .refl
    | ok r => exact .acknowledge .refl hpending

theorem chores_leads (n : Node) (chores : List Chore) :
    n.state.Leads (chores.foldl chore n).state := by
  induction chores generalizing n with
  | nil => exact .refl
  | cons c chores ih => exact (n.chore_leads c).trans (ih _)

/-- Nothing that is done on the spot brings a node further but its registration. -/
theorem chores_phase {chores : List Chore}
    (h : (chores.foldl chore n).state.registration.phase ≠ .registered) :
    (chores.foldl chore n).state.registration.phase = n.state.registration.phase := by
  induction chores generalizing n with
  | nil => rfl
  | cons c chores ih =>
    have hchore : (n.chore c).state.registration.phase = n.state.registration.phase := by
      cases c with
      | mutate _ | reorder _ => rfl
      | acknowledge =>
        cases hpending : n.state.registration.acknowledge with
        | error e => rw [chore, completeRegistration, hpending]
        | ok r =>
          refine absurd ((chores_leads (n.chore .acknowledge) chores).registered ?_) h
          rw [chore, completeRegistration, hpending]
          exact (Registration.acknowledge_eq_ok hpending).2
    exact (ih h).trans hchore

/-- A node hosts once it is started, whatever its ledger holds then. -/
theorem hosts_of_start {state : NodeState} {bind : String → Except BindError Endpoint}
    (started : { ofConfig config with state }.start bind = .ok n) : n.Hosts config := by
  obtain ⟨server, hserver, rfl⟩ := start_eq_ok started
  have hreachable : (ofConfig config).server.Reachable config := Reachable.ofConfig.server
  exact ⟨.start hreachable bind hserver, Server.start_handlers hserver,
    Server.start_running hserver⟩

namespace Hosts

theorem chores (h : n.Hosts config) (chores : List Chore) :
    (chores.foldl chore n).Hosts config := by
  obtain ⟨hserver, hown, hrunning⟩ := h
  rw [← chores_server n chores] at hserver hown hrunning
  exact ⟨hserver, hown, hrunning⟩

theorem receive (h : n.Hosts config) (nonce : Nonce) (request : Request) :
    (n.receive nonce request).2.Hosts config := by
  obtain ⟨tally, htally⟩ := n.server.receive_tally nonce request n.state
  rw [receive_eq]
  refine ⟨.receive h.server nonce request n.state, ?_, ?_⟩
  · rw [htally]
    exact h.own
  · rw [htally]
    exact h.running

theorem turn (h : n.Hosts config) (t : Turn) : (n.turn t).2.Hosts config :=
  (h.chores t.chores).receive t.nonce t.request

theorem turns (h : n.Hosts config) (ts : List Turn) : (n.turns ts).2.Hosts config := by
  induction ts generalizing n with
  | nil => exact h
  | cons t ts ih => exact ih (h.turn t)

theorem receive_leads (h : n.Hosts config) (nonce : Nonce) (request : Request) :
    n.state.Leads (n.receive nonce request).2.state :=
  receive_leads_of_serves h.server (h.own ▸ serves_ofConfig config) nonce request

theorem turn_leads (h : n.Hosts config) (t : Turn) : n.state.Leads (n.turn t).2.state :=
  (n.chores_leads t.chores).trans ((h.chores t.chores).receive_leads t.nonce t.request)

theorem turns_leads (h : n.Hosts config) (ts : List Turn) :
    n.state.Leads (n.turns ts).2.state := by
  induction ts generalizing n with
  | nil => exact .refl
  | cons t ts ih => exact (h.turn_leads t).trans (ih (h.turn t))

/-- What is not registered at the end was not when the first request came. -/
theorem unregistered_arrival (h : n.Hosts config) {t : Turn} {ts : List Turn}
    (hend : (n.turns (t :: ts)).2.state.registration.phase ≠ .registered) :
    (t.chores.foldl chore n).state.registration.phase ≠ .registered :=
  have hreceive := (h.chores t.chores).receive_leads t.nonce t.request
  fun hregistered =>
    hend ((hreceive.trans ((h.turn t).turns_leads ts)).registered hregistered)

variable {key : Key} (hkey : Key.parse config.key = .ok key)
include hkey

theorem receive_session (h : n.Hosts config) (nonce : Nonce) (request : Request) :
    let d : Dispatch NodeState := ⟨key, (ofConfig config).server.handlers, config.maxBodySize⟩
    (n.receive nonce request).1 = some (d.handle nonce request n.state n.server.tally).1 ∧
      (n.receive nonce request).2.state = (d.handle nonce request n.state n.server.tally).2.1 := by
  have hconfigured := (Server.reachable_invariant h.server).configured
  obtain ⟨session, key', hsession, hkey', hdispatch⟩ := Server.session_dispatch h.server h.running
  rw [hconfigured, hkey] at hkey'
  cases hkey'
  rw [Server.dispatch, h.own, hconfigured] at hdispatch
  rw [Node.receive, Server.receive_running hsession, hdispatch]
  exact ⟨rfl, rfl⟩

/-- One request tells nothing of the ledgers, and leaves two nodes as far as each other. -/
theorem receive_alike (hn : n.Hosts config) (hm : m.Hosts config) (h : n.state.Alike m.state)
    (x y : Nonce) (request : Request) :
    (∃ a b, (n.receive x request).1 = some a ∧ (m.receive y request).1 = some b ∧
        a.Alike key b) ∧
      (n.receive x request).2.state.Alike (m.receive y request).2.state := by
  obtain ⟨ha, hs⟩ := hn.receive_session hkey x request
  obtain ⟨hb, ht⟩ := hm.receive_session hkey y request
  have hrespects : ∀ (type : UInt8) handler,
      (ofConfig config).server.handlers[type]? = some handler →
        Handler.Respects handler NodeState.Alike := by
    intro type handler hhandler
    obtain ⟨entry, hmem, _, rfl⟩ := handlers_ofConfig hhandler
    exact NodeState.respects_handlers entry hmem
  obtain ⟨hanswers, hstates⟩ := Dispatch.handle_related
    (d := ⟨key, (ofConfig config).server.handlers, config.maxBodySize⟩) hrespects x y request h
    n.server.tally m.server.tally
  rw [hs, ht]
  exact ⟨⟨_, _, ha, hb, hanswers⟩, hstates⟩

theorem turn_alike (hn : n.Hosts config) (hm : m.Hosts config)
    (phase : n.state.registration.phase = m.state.registration.phase) {a b : Turn}
    (same : a.request = b.request)
    (hna : (a.chores.foldl chore n).state.registration.phase ≠ .registered)
    (hmb : (b.chores.foldl chore m).state.registration.phase ≠ .registered) :
    (∃ r q, (n.turn a).1 = some r ∧ (m.turn b).1 = some q ∧ r.Alike key q) ∧
      (n.turn a).2.state.Alike (m.turn b).2.state := by
  have halike : (a.chores.foldl chore n).state.Alike (b.chores.foldl chore m).state :=
    ⟨(chores_phase hna).trans (phase.trans (chores_phase hmb).symm), hna⟩
  rw [Node.turn, Node.turn, ← same]
  exact receive_alike hkey (hn.chores a.chores) (hm.chores b.chores) halike a.nonce b.nonce
    a.request

/-- A run tells nothing of the ledgers before a registration is acknowledged. -/
theorem turns_alike {as bs : List Turn} (hn : n.Hosts config) (hm : m.Hosts config)
    (phase : n.state.registration.phase = m.state.registration.phase)
    (same : as.map Turn.request = bs.map Turn.request)
    (hna : (n.turns as).2.state.registration.phase ≠ .registered)
    (hmb : (m.turns bs).2.state.registration.phase ≠ .registered) :
    List.Forall₂ (fun a b => ∃ r q, a = some r ∧ b = some q ∧ r.Alike key q)
      (n.turns as).1 (m.turns bs).1 := by
  induction as generalizing bs n m with
  | nil =>
    obtain rfl := List.map_eq_nil_iff.mp same.symm
    exact .nil
  | cons a as ih =>
    -- The chores of the two sides differ; what they keep is how far the registration is.
    cases bs with
    | nil => cases same
    | cons b bs =>
      obtain ⟨hrequest, hrest⟩ := List.cons.inj same
      obtain ⟨hanswers, hstates⟩ := turn_alike hkey hn hm phase hrequest
        (hn.unregistered_arrival hna) (hm.unregistered_arrival hmb)
      exact .cons hanswers (ih (hn.turn a) (hm.turn b) hstates.phase hrest hna hmb)

omit hkey in
/-- Whatever its payload, a request for peers is refused, and changes nothing. -/
theorem receive_peers (h : n.Hosts config) (unregistered : n.state.registration.phase ≠ .registered)
    {request : Request} {frame : Frame} (heard : n.server.Hears request frame)
    (htype : frame.type ∈ NodeState.peersTypes) (nonce : Nonce) :
    (n.receive nonce request).1 = some .notInitialised ∧
      (n.receive nonce request).2.state = n.state := by
  obtain ⟨entry, hm, hentry⟩ := NodeState.exists_peers_entry htype
  have hhandler : n.server.handlers[frame.type]? = some entry.2 := by
    rw [h.own, ← hentry]
    exact (serves_ofConfig config).own entry hm
  have hrefuses := NodeState.peers_refuses hm (hentry ▸ htype) unregistered frame.payload
  obtain ⟨key, hparse, hopen⟩ := heard.opened
  obtain ⟨tally, hreceive⟩ := Server.receive_root h.server heard.running hparse heard.root
    heard.post nonce n.state
  have hlookup : (n.server.dispatch key).handlers[frame.type]? = some entry.2 := hhandler
  have hprocess := Dispatch.process_opened (d := n.server.dispatch key) heard.fits hopen n.state
  rw [hlookup] at hprocess
  dsimp only at hprocess
  rw [hrefuses] at hprocess
  rw [Node.receive, hreceive, hprocess]
  exact ⟨congrArg some Rejection.response_notInitialised, rfl⟩

end Hosts

/-- What two nodes of one configuration keep of their ledgers from those who hold the key, until a
registration is acknowledged: all of it. A registration that is pending tells no more. -/
structure Hides (key : Key) (n m : Node) : Prop where
  alike : ∀ as bs : List Turn, as.map Turn.request = bs.map Turn.request →
    (n.turns as).2.state.registration.phase ≠ .registered →
    (m.turns bs).2.state.registration.phase ≠ .registered →
    List.Forall₂ (fun a b => ∃ r q, a = some r ∧ b = some q ∧ r.Alike key q)
      (n.turns as).1 (m.turns bs).1
  refused : ∀ as : List Turn, (n.turns as).2.state.registration.phase ≠ .registered →
    ∀ (nonce : Nonce) (request : Request) (frame : Frame),
      (n.turns as).2.server.Hears request frame → frame.type ∈ NodeState.peersTypes →
      ((n.turns as).2.receive nonce request).1 = some .notInitialised ∧
        ((n.turns as).2.receive nonce request).2.state = (n.turns as).2.state

theorem ledger_hidden {key : Key} (hn : n.Hosts config) (hm : m.Hosts config)
    (hkey : Key.parse config.key = .ok key)
    (phase : n.state.registration.phase = m.state.registration.phase) : Hides key n m where
  alike _ _ same hna hmb := Hosts.turns_alike hkey hn hm phase same hna hmb
  refused as hna nonce _ _ heard htype := (hn.turns as).receive_peers hna heard htype nonce

/-- Two nodes that wait for an identity. The second one tracks a peer. -/
def sampleBlank : Node := { sample with state := .start }

def sampleTracking : Node := { sample with state := ⟨Ledger.empty.apply (.add "p"), .start⟩ }

theorem sample_hidden : sampleBlank.Hosts sampleConfig ∧ sampleTracking.Hosts sampleConfig ∧
    Key.parse sampleConfig.key = .ok sampleClient.key ∧
    sampleBlank.state.registration.phase = sampleTracking.state.registration.phase ∧
    sampleBlank.state.ledger.accounts.contains "p" = false ∧
    sampleTracking.state.ledger.accounts.contains "p" = true ∧
    Hides sampleClient.key sampleBlank sampleTracking := by
  have hsample : sample.Hosts sampleConfig := hosts_of_start start_sample
  have hblank : sampleBlank.Hosts sampleConfig := ⟨hsample.server, hsample.own, hsample.running⟩
  have htracking : sampleTracking.Hosts sampleConfig :=
    ⟨hsample.server, hsample.own, hsample.running⟩
  exact ⟨hblank, htracking, sample_key, rfl, rfl, rfl,
    ledger_hidden hblank htracking sample_key rfl⟩

end Node

end AdminPlane
