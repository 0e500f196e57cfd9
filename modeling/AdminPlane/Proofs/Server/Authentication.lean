import AdminPlane.Proofs.Server.Relay

namespace AdminPlane

open Channel (Frame Key Nonce)

variable {σ : Type}

/-- The answer to every body that does not open, whatever is wrong with it. -/
def Response.unverified : Response where
  status := 400
  contentType := some "application/json"
  body := Text.Utf8.encode "\x7b\"Error\":\"request fails to verify\"\x7d"

theorem Rejection.response_unverified : Rejection.unverified.response = Response.unverified := by
  rw [response, Response.unverified]
  simp only [Json.compact, Json.compactMembers]
  rfl

theorem Rejection.status_ne_success (r : Rejection) : r.response.status ≠ 200 := by
  cases r
  all_goals exact of_decide_eq_false rfl

/-- Success is for replies alone. -/
theorem Response.reply_of_success {key : Key} {nonce : Nonce} {result : Except Rejection Frame}
    (h : (ofResult key nonce result).status = 200) : ∃ reply, result = .ok reply := by
  cases result with
  | ok reply => exact ⟨reply, rfl⟩
  | error rejection => exact absurd h rejection.status_ne_success

theorem Outcome.reply_of_result {outcome : Outcome} {reply : Frame}
    (h : outcome.result = .ok reply) : outcome = .reply reply := by
  cases outcome with
  | reply frame => exact congrArg Outcome.reply (Except.ok.inj h)
  | refuse m => cases h
  | crash m => cases h

namespace Dispatch

variable {d : Dispatch σ} {request : Request} {frame : Frame}

/-- A request whose body is looked at: it is posted to the root and is short enough. -/
structure Takes (d : Dispatch σ) (request : Request) : Prop where
  root : request.path = "/"
  post : request.method = "POST"
  fits : request.body.length ≤ d.maxBodySize

/-- A body from which no frame comes under the key. -/
def Unopened (d : Dispatch σ) (body : List UInt8) : Prop :=
  ∀ frame, d.key.openFrame body ≠ .ok frame

/-- A frame comes in a request. Whether its type has a handler is left open. -/
structure Hears (d : Dispatch σ) (request : Request) (frame : Frame) : Prop
    extends d.Takes request where
  opened : d.key.openFrame request.body = .ok frame

/-- What is too short for a nonce, a tag and a type byte does not open. -/
theorem unopened_of_short {body : List UInt8}
    (h : body.length < Channel.minSealedFrameSize) : d.Unopened body := by
  intro frame hopen
  have hlength := (d.key.eq_sealFrame_of_openFrame hopen).1
  omega

theorem handle_takes (h : d.Takes request) (nonce : Nonce) (s : σ) (tally : Tally) :
    ∃ tally', d.handle nonce request s tally =
      (.ofResult d.key nonce (d.process request.body s).1, (d.process request.body s).2, tally') :=
  handle_root h.root h.post nonce s tally

theorem handle_unopened (h : d.Takes request) (hbody : d.Unopened request.body) (nonce : Nonce)
    (s : σ) (tally : Tally) :
    (d.handle nonce request s tally).1 = Response.unverified ∧
      (d.handle nonce request s tally).2.1 = s := by
  obtain ⟨tally', hhandle⟩ := handle_takes h nonce s tally
  cases hopen : d.key.openFrame request.body with
  | ok frame => exact absurd hopen (hbody frame)
  | error e =>
    rw [hhandle, process_unopened h.fits hopen]
    exact ⟨Rejection.response_unverified, rfl⟩

/-- The frame that a handler is run on at a request, if there is one. -/
def heard? (d : Dispatch σ) (request : Request) : Option Frame :=
  if request.path = "/" ∧ request.method = "POST" ∧ request.body.length ≤ d.maxBodySize then
    (d.key.openFrame request.body).toOption.filter fun frame => d.handlers.contains frame.type
  else none

theorem heard?_eq_some : d.heard? request = some frame ↔
    d.Hears request frame ∧ d.handlers.contains frame.type = true := by
  have hopened : (d.key.openFrame request.body).toOption = some frame ↔
      d.key.openFrame request.body = .ok frame := by
    cases d.key.openFrame request.body <;> simp [Except.toOption]
  rw [heard?]
  split
  · rename_i htakes
    rw [Option.filter_eq_some_iff, hopened]
    constructor
    · rintro ⟨hopen, hhandler⟩
      exact ⟨⟨⟨htakes.1, htakes.2.1, htakes.2.2⟩, hopen⟩, hhandler⟩
    · rintro ⟨hhears, hhandler⟩
      exact ⟨hhears.opened, hhandler⟩
  · rename_i htakes
    constructor
    · intro h
      cases h
    · rintro ⟨hhears, _⟩
      exact absurd ⟨hhears.root, hhears.post, hhears.fits⟩ htakes

/-- Nothing changes at a request that comes to no handler. -/
theorem handle_unheard (h : d.heard? request = none) (nonce : Nonce) (s : σ) (tally : Tally) :
    (d.handle nonce request s tally).2.1 = s := by
  by_cases hroot : request.path = "/" ∧ request.method = "POST"
  · obtain ⟨tally', hhandle⟩ := handle_root hroot.1 hroot.2 nonce s tally
    rw [hhandle]
    rcases d.process_state request.body s with
      hsame | ⟨frame, handler, hfits, hopen, hhandler, _⟩
    · exact hsame
    · have hcontains : d.handlers.contains frame.type = true := by
        rw [Std.ExtTreeMap.contains_eq_isSome_getElem?, hhandler]
        rfl
      have hheard : d.heard? request = some frame :=
        heard?_eq_some.mpr ⟨⟨⟨hroot.1, hroot.2, hfits⟩, hopen⟩, hcontains⟩
      rw [h] at hheard
      cases hheard
  · exact handle_elsewhere hroot nonce s tally

/-- A request that is answered with success comes to the root. -/
theorem root_of_success {nonce : Nonce} {s : σ} {tally : Tally}
    (h : (d.handle nonce request s tally).1.status = 200) :
    request.path = "/" ∧ request.method = "POST" := by
  rw [handle, route] at h
  split at h
  · cases h
  · split at h
    · cases h
    · rename_i hpath hmethod
      exact ⟨Decidable.not_not.mp hpath, Decidable.not_not.mp hmethod⟩

/-- What is replied to a body is the reply of the handler of a frame that it opens to. -/
theorem process_reply {body : List UInt8} {s : σ} {reply : Frame}
    (h : (d.process body s).1 = .ok reply) :
    ∃ frame handler, body.length ≤ d.maxBodySize ∧ d.key.openFrame body = .ok frame ∧
      d.handlers[frame.type]? = some handler ∧ (handler frame.payload s).1 = .reply reply := by
  by_cases hlong : d.maxBodySize < body.length
  · rw [process_tooLong hlong] at h
    cases h
  · have hfits : body.length ≤ d.maxBodySize := Nat.le_of_not_lt hlong
    cases hopen : d.key.openFrame body with
    | error e =>
      rw [process_unopened hfits hopen] at h
      cases h
    | ok frame =>
      rw [process_opened hfits hopen] at h
      cases hhandler : d.handlers[frame.type]? with
      | none =>
        rw [hhandler] at h
        cases h
      | some handler =>
        rw [hhandler] at h
        exact ⟨frame, handler, hfits, rfl, hhandler, Outcome.reply_of_result h⟩

/-- An answer of success is a reply of the handler of a frame that came, sealed. -/
theorem handle_success {nonce : Nonce} {s : σ} {tally : Tally}
    (h : (d.handle nonce request s tally).1.status = 200) :
    ∃ frame handler reply, d.Hears request frame ∧ d.handlers[frame.type]? = some handler ∧
      (handler frame.payload s).1 = .reply reply ∧
      d.key.openFrame (d.handle nonce request s tally).1.body = .ok reply := by
  obtain ⟨hpath, hmethod⟩ := root_of_success h
  obtain ⟨tally', hhandle⟩ := handle_root hpath hmethod nonce s tally
  rw [hhandle] at h ⊢
  obtain ⟨reply, hreply⟩ := Response.reply_of_success h
  obtain ⟨frame, handler, hfits, hopen, hhandler, houtcome⟩ := process_reply hreply
  refine ⟨frame, handler, reply, ⟨⟨hpath, hmethod, hfits⟩, hopen⟩, hhandler, houtcome, ?_⟩
  rw [hreply]
  exact d.key.openFrame_sealFrame nonce reply

/-- The requests of one run of a server, each with the nonce of its answer, one after the other. -/
def serve (d : Dispatch σ) : List (Nonce × Request) → σ → Tally → List Response × σ × Tally
  | [], s, tally => ([], s, tally)
  | (nonce, request) :: rest, s, tally =>
    let (response, t, tally) := d.handle nonce request s tally
    let (responses, u, tally) := d.serve rest t tally
    (response :: responses, u, tally)

theorem serve_cons (nonce : Nonce) (request : Request) (rest : List (Nonce × Request)) (s : σ)
    (tally : Tally) : d.serve ((nonce, request) :: rest) s tally =
      let next := d.handle nonce request s tally
      let later := d.serve rest next.2.1 next.2.2
      (next.1 :: later.1, later.2) := by
  rw [serve]

/-- Every answer of success was given to a request that brought a frame, and opens itself. -/
theorem serve_success (requests : List (Nonce × Request)) (s : σ) (tally : Tally) :
    List.Forall₂ (fun arrival response => response.status = 200 →
        (∃ frame, d.Hears arrival.2 frame) ∧ ∃ reply, d.key.openFrame response.body = .ok reply)
      requests (d.serve requests s tally).1 := by
  induction requests generalizing s tally with
  | nil => exact .nil
  | cons arrival rest ih =>
    rw [serve_cons]
    refine .cons (fun hsuccess => ?_) (ih _ _)
    obtain ⟨frame, _, reply, hhears, _, _, hopen⟩ := handle_success hsuccess
    exact ⟨⟨frame, hhears⟩, reply, hopen⟩

end Dispatch

namespace Server

/-- The requests that come to a server one after the other, each with the nonce of its answer. -/
def serve (server : Server σ) : List (Nonce × Request) → σ → List (Option Response) × Server σ × σ
  | [], s => ([], server, s)
  | (nonce, request) :: rest, s =>
    let (response, server, t) := server.receive nonce request s
    let (responses, server, u) := server.serve rest t
    (response :: responses, server, u)

/-- A server that runs serves as its session does, which no request ends. -/
theorem serve_running {server : Server σ} {session : Session σ} (h : server.session = some session)
    (requests : List (Nonce × Request)) (s : σ) :
    (server.serve requests s).1 =
        (session.dispatch.serve requests s server.tally).1.map some ∧
      (server.serve requests s).2.2 = (session.dispatch.serve requests s server.tally).2.1 := by
  induction requests generalizing server s with
  | nil => exact ⟨rfl, rfl⟩
  | cons arrival rest ih =>
    obtain ⟨nonce, request⟩ := arrival
    have hreceive := receive_running h nonce request s
    rw [serve, hreceive, Dispatch.serve_cons]
    generalize session.dispatch.handle nonce request s server.tally = next
    obtain ⟨response, t, tally⟩ := next
    have hsession : ({ server with tally } : Server σ).session = some session := h
    obtain ⟨hresponses, hstate⟩ := ih hsession t
    dsimp only
    rw [hresponses, hstate, List.map_cons]
    exact ⟨rfl, rfl⟩

end Server

section Noting

variable {table : HandlerTable σ} {d : Dispatch (σ × List Frame)}
  (hnoting : d.handlers = table.noting)
include hnoting

/-- A request runs one handler, on the frame that it brings, or none. -/
theorem Dispatch.handle_noted (nonce : Nonce) (request : Request) (t : σ × List Frame)
    (tally : Tally) :
    (d.handle nonce request t tally).2.1.2 = (d.heard? request).toList ++ t.2 := by
  cases hheard : d.heard? request with
  | none =>
    rw [handle_unheard hheard]
    rfl
  | some frame =>
    obtain ⟨hhears, hcontains⟩ := heard?_eq_some.mp hheard
    have hentry : d.handlers[frame.type]? = table[frame.type]?.map (Handler.noting frame.type) := by
      rw [hnoting, HandlerTable.noting, Std.ExtTreeMap.getElem?_map]
    rw [Std.ExtTreeMap.contains_eq_isSome_getElem?, hentry, Option.isSome_map] at hcontains
    obtain ⟨handler, hhandler⟩ := Option.isSome_iff_exists.mp hcontains
    have hprocess := process_opened hhears.fits hhears.opened t
    rw [hentry, hhandler, Option.map_some] at hprocess
    obtain ⟨tally', hhandle⟩ := handle_takes hhears.toTakes nonce t tally
    rw [hhandle, hprocess]
    rfl

/-- The frames that the handlers were run on in a run: those that came, each once and in order. -/
theorem Dispatch.serve_noted (requests : List (Nonce × Request)) (t : σ × List Frame)
    (tally : Tally) : (d.serve requests t tally).2.1.2 =
      (requests.filterMap fun arrival => d.heard? arrival.2).reverse ++ t.2 := by
  induction requests generalizing t tally with
  | nil => rfl
  | cons arrival rest ih =>
    obtain ⟨nonce, request⟩ := arrival
    rw [serve_cons]
    dsimp only
    rw [ih, handle_noted hnoting]
    cases hheard : d.heard? request with
    | none => simp only [List.filterMap_cons, hheard, Option.toList_none, List.nil_append]
    | some frame =>
      simp only [List.filterMap_cons, hheard, Option.toList_some, List.reverse_cons,
        List.append_assoc]

end Noting

/-- What a server keeps from those who do not hold its key. All bodies that do not open are answered
alike and run no handler. A handler is run at most once at a request, on the frame that comes in it.
Success is answered under the key, and to a request that opened under it. -/
structure Dispatch.Guards (d : Dispatch (σ × List Frame)) : Prop where
  uniform : ∀ a b, d.Takes a → d.Unopened a.body → d.Takes b → d.Unopened b.body →
    ∀ (m n : Nonce) (s t : σ × List Frame) (u v : Tally),
      (d.handle m a s u).1 = (d.handle n b t v).1 ∧ (d.handle m a s u).1 = .unverified ∧
        (d.handle m a s u).2.1 = s
  short : ∀ body : List UInt8, body.length < 29 → d.Unopened body
  heard : ∀ request frame, d.heard? request = some frame ↔
    d.Hears request frame ∧ d.handlers.contains frame.type = true
  runs : ∀ (requests : List (Nonce × Request)) (t : σ × List Frame) (tally : Tally),
    (d.serve requests t tally).2.1.2 =
      (requests.filterMap fun arrival => d.heard? arrival.2).reverse ++ t.2
  success : ∀ (requests : List (Nonce × Request)) (t : σ × List Frame) (tally : Tally),
    List.Forall₂ (fun arrival response => response.status = 200 →
        (∃ frame, d.Hears arrival.2 frame) ∧ ∃ reply, d.key.openFrame response.body = .ok reply)
      requests (d.serve requests t tally).1
  serves : ∀ (server : Server (σ × List Frame)) endpoint, server.session = some ⟨endpoint, d⟩ →
    ∀ (requests : List (Nonce × Request)) (t : σ × List Frame),
      (server.serve requests t).1 = (d.serve requests t server.tally).1.map some ∧
        (server.serve requests t).2.2 = (d.serve requests t server.tally).2.1

theorem Dispatch.requests_authenticated (key : Key) (table : HandlerTable σ) (maxBodySize : Nat) :
    (⟨key, table.noting, maxBodySize⟩ : Dispatch (σ × List Frame)).Guards where
  uniform a b ha hunopeneda hb hunopenedb m n s t u v := by
    obtain ⟨hanswer, hstate⟩ := handle_unopened ha hunopeneda m s u
    obtain ⟨hanswer', _⟩ := handle_unopened hb hunopenedb n t v
    exact ⟨hanswer.trans hanswer'.symm, hanswer, hstate⟩
  short _ h := unopened_of_short h
  heard _ _ := heard?_eq_some
  runs := serve_noted rfl
  success := serve_success
  serves _ _ h := Server.serve_running h

end AdminPlane
