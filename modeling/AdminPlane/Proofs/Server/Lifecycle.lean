import AdminPlane.Proofs.Server.Answer
import AdminPlane.Server.Basic

namespace AdminPlane.Server

open Channel (Frame Key Nonce)

/-- The states of a server with a configuration. -/
inductive Reachable {σ : Type} (config : ServerConfig) : Server σ → Prop
  | ofConfig : Reachable config (.ofConfig config)
  | addHandler {s : Server σ} (h : Reachable config s) (type : UInt8) (handler : Handler σ) :
      Reachable config (s.addHandler type handler)
  | start {s t : Server σ} (h : Reachable config s) (bind : String → Except BindError Endpoint)
      (started : s.start bind = .ok t) : Reachable config t
  | shutdown {s : Server σ} (h : Reachable config s) : Reachable config s.shutdown
  | receive {s : Server σ} (h : Reachable config s) (nonce : Nonce) (request : Request)
      (state : σ) : Reachable config (s.receive nonce request state).2.1

variable {σ : Type} {config : ServerConfig} {s t : Server σ}

/-- What a session was started with: the key and the limit of the configuration, and the handlers,
which no one changes from then on. -/
structure Invariant (config : ServerConfig) (s : Server σ) : Prop where
  configured : s.config = config
  frozen : s.isRunning = true → s.frozen = true
  session : ∀ t, s.session = some t → Key.parse config.key = .ok t.dispatch.key ∧
    t.dispatch.maxBodySize = config.maxBodySize ∧ t.dispatch.handlers = s.handlers

theorem invariant_addHandler (h : Invariant config s) (type : UInt8) (handler : Handler σ) :
    Invariant config (s.addHandler type handler) := by
  unfold addHandler
  split
  · exact h
  · rename_i hfrozen
    have hstopped : s.session = none := by
      cases hsession : s.session with
      | none => rfl
      | some t => exact absurd (h.frozen (by rw [isRunning, hsession]; rfl)) hfrozen
    refine ⟨h.configured, h.frozen, fun t ht => ?_⟩
    rw [hstopped] at ht
    cases ht

theorem invariant_start (h : Invariant config s) {bind : String → Except BindError Endpoint}
    (started : s.start bind = .ok t) : Invariant config t := by
  unfold start at started
  split at started
  · cases started
  · split at started
    · cases started
    · rename_i key hkey
      split at started
      · cases started
      · cases started
        refine ⟨h.configured, fun _ => rfl, fun u hu => ?_⟩
        cases hu
        rw [h.configured] at hkey
        exact ⟨hkey, congrArg ServerConfig.maxBodySize h.configured, rfl⟩

/-- What is in the table of a server was there before, or is the handler that is added. -/
theorem addHandler_entry {type t : UInt8} {handler f : Handler σ}
    (h : (s.addHandler type handler).handlers[t]? = some f) :
    (t = type ∧ f = handler) ∨ s.handlers[t]? = some f := by
  unfold addHandler at h
  split at h
  · exact .inr h
  · rw [Std.ExtTreeMap.getElem?_insert] at h
    split at h
    · rename_i htype
      cases h
      exact .inl ⟨(Std.LawfulEqCmp.eq_of_compare htype).symm, rfl⟩
    · exact .inr h

theorem start_handlers {bind : String → Except BindError Endpoint}
    (started : s.start bind = .ok t) : t.handlers = s.handlers := by
  unfold start at started
  repeat' split at started
  all_goals cases started
  rfl

theorem start_running {bind : String → Except BindError Endpoint}
    (started : s.start bind = .ok t) : t.isRunning = true := by
  unfold start at started
  repeat' split at started
  all_goals cases started
  rfl

theorem start_frozen {bind : String → Except BindError Endpoint}
    (started : s.start bind = .ok t) : t.frozen = true := by
  unfold start at started
  repeat' split at started
  all_goals cases started
  rfl

theorem receive_stopped (h : s.session = none) (nonce : Nonce) (request : Request) (state : σ) :
    s.receive nonce request state = (none, s, state) := by
  simp only [receive, h]

theorem receive_running {session : Session σ} (h : s.session = some session) (nonce : Nonce)
    (request : Request) (state : σ) : s.receive nonce request state =
      let (response, state, tally) := session.dispatch.handle nonce request state s.tally
      (some response, { s with tally }, state) := by
  simp only [receive, h]

/-- A request leaves a server as it is, but for the counts. -/
theorem receive_tally (s : Server σ) (nonce : Nonce) (request : Request) (state : σ) :
    ∃ tally, (s.receive nonce request state).2.1 = { s with tally } := by
  rcases Option.eq_none_or_eq_some s.session with hsession | ⟨session, hsession⟩
  · exact ⟨s.tally, congrArg (·.2.1) (receive_stopped hsession nonce request state)⟩
  · exact ⟨_, congrArg (·.2.1) (receive_running hsession nonce request state)⟩

theorem reachable_invariant (h : Reachable config s) : Invariant config s := by
  induction h with
  | ofConfig =>
    exact ⟨rfl, fun h => absurd h Bool.false_ne_true, fun t ht => by cases ht⟩
  | addHandler _ type handler ih => exact invariant_addHandler ih type handler
  | start _ bind started ih => exact invariant_start ih started
  | shutdown _ ih =>
    exact ⟨ih.configured, fun h => absurd h Bool.false_ne_true, fun t ht => by cases ht⟩
  | @receive s _ nonce request state ih =>
    obtain ⟨tally, htally⟩ := s.receive_tally nonce request state
    rw [htally]
    exact ⟨ih.configured, ih.frozen, ih.session⟩

/-- What the dispatch of a running server is made of. -/
def dispatch (s : Server σ) (key : Key) : Dispatch σ := ⟨key, s.handlers, s.config.maxBodySize⟩

theorem session_dispatch (h : Reachable config s) (running : s.isRunning = true) :
    ∃ session key, s.session = some session ∧ Key.parse s.config.key = .ok key ∧
      session.dispatch = s.dispatch key := by
  have hi := reachable_invariant h
  obtain ⟨session, hsession⟩ := Option.isSome_iff_exists.mp running
  obtain ⟨hkey, hsize, hhandlers⟩ := hi.session session hsession
  rw [← hi.configured] at hkey hsize
  refine ⟨session, session.dispatch.key, hsession, hkey, ?_⟩
  rw [dispatch, ← hhandlers, ← hsize]

/-- A running server answers a request to its root as its key, its handlers and its limit have
it. -/
theorem receive_root (h : Reachable config s) (running : s.isRunning = true) {key : Key}
    (hkey : Key.parse s.config.key = .ok key) {request : Request} (hpath : request.path = "/")
    (hmethod : request.method = "POST") (nonce : Nonce) (state : σ) :
    let result := (s.dispatch key).process request.body state
    ∃ tally, s.receive nonce request state =
      (some (.ofResult key nonce result.1), { s with tally }, result.2) := by
  obtain ⟨session, key', hsession, hkey', hdispatch⟩ := session_dispatch h running
  rw [hkey] at hkey'
  cases hkey'
  obtain ⟨tally, hhandle⟩ := session.dispatch.handle_root hpath hmethod nonce state s.tally
  rw [receive_running hsession, hhandle, hdispatch]
  exact ⟨tally, rfl⟩

/-- A frame comes to a server in a request. -/
structure Hears (s : Server σ) (request : Request) (frame : Frame) : Prop where
  running : s.isRunning = true
  root : request.path = "/"
  post : request.method = "POST"
  fits : request.body.length ≤ s.config.maxBodySize
  opened : ∃ key, Key.parse s.config.key = .ok key ∧ key.openFrame request.body = .ok frame

/-- A request changes the state only through the handler of a frame that comes in it. -/
theorem receive_state (h : Reachable config s) (nonce : Nonce) (request : Request) (state : σ) :
    (s.receive nonce request state).2.2 = state ∨
      ∃ frame handler, s.Hears request frame ∧ s.handlers[frame.type]? = some handler ∧
        (s.receive nonce request state).2.2 = (handler frame.payload state).2 := by
  by_cases running : s.isRunning = true
  · by_cases hroot : request.path = "/" ∧ request.method = "POST"
    · obtain ⟨_, key, _, hkey, _⟩ := session_dispatch h running
      obtain ⟨tally, hreceive⟩ := receive_root h running hkey hroot.1 hroot.2 nonce state
      rw [hreceive]
      rcases (s.dispatch key).process_state request.body state with
        hsame | ⟨frame, handler, hfits, hopen, hhandler, hstate⟩
      · exact .inl hsame
      · exact .inr ⟨frame, handler, ⟨running, hroot.1, hroot.2, hfits, key, hkey, hopen⟩, hhandler,
          hstate⟩
    · obtain ⟨session, _, hsession, _⟩ := session_dispatch h running
      rw [receive_running hsession]
      exact .inl (session.dispatch.handle_elsewhere hroot nonce state s.tally)
  · have hstopped : s.session = none := Option.not_isSome_iff_eq_none.mp running
    exact .inl (by rw [receive_stopped hstopped])

theorem receive_heard (h : Reachable config s) {request : Request} {frame : Frame}
    (heard : s.Hears request frame) {handler : Handler σ}
    (hhandler : s.handlers[frame.type]? = some handler) (nonce : Nonce) (state : σ) :
    (s.receive nonce request state).2.2 = (handler frame.payload state).2 := by
  obtain ⟨key, hkey, hopen⟩ := heard.opened
  obtain ⟨tally, hreceive⟩ :=
    receive_root h heard.running hkey heard.root heard.post nonce state
  have hprocess := Dispatch.process_opened (d := s.dispatch key) heard.fits hopen state
  have hentry : (s.dispatch key).handlers[frame.type]? = some handler := hhandler
  rw [hentry] at hprocess
  rw [hreceive, hprocess]

end AdminPlane.Server
