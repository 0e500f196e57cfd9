import AdminPlane.Proofs.Server.Authentication
import AdminPlane.Proofs.Server.Starts
import Mathlib

namespace AdminPlane

open Channel (Frame Key Nonce)

/-- What refused requests are counted by. -/
inductive Reason where
  | verify
  | unsupportedType
  | handler
  | body
  | internal
deriving DecidableEq, Repr

def Reason.all : List Reason := [.verify, .unsupportedType, .handler, .body, .internal]

def Rejection.reason : Rejection → Reason
  | unverified => .verify
  | unsupportedType _ => .unsupportedType
  | handler _ => .handler
  | bodyTooLong => .body
  | bodyBroken _ => .body
  | crashed _ => .internal

namespace Tally

/-- The count of the requests that were refused for a reason. -/
def of (t : Tally) : Reason → Nat
  | .verify => t.verify
  | .unsupportedType => t.unsupportedType
  | .handler => t.handler
  | .body => t.body
  | .internal => t.internal

theorem rejected_eq_sum (t : Tally) : t.rejected = (Reason.all.map t.of).sum := by
  simp only [rejected, Reason.all, List.map_cons, List.map_nil, of, List.sum_cons, List.sum_nil]
  omega

/-- One reason is counted, and by one. -/
theorem of_countRejection (t : Tally) (r : Rejection) (reason : Reason) :
    (t.countRejection r).of reason = t.of reason + if reason = r.reason then 1 else 0 := by
  cases r <;> cases reason <;> rfl

theorem requests_countRejection (t : Tally) (r : Rejection) :
    (t.countRejection r).requests = t.requests := by
  cases r <;> rfl

theorem rejected_countRejection (t : Tally) (r : Rejection) :
    (t.countRejection r).rejected = t.rejected + 1 := by
  cases r <;> simp only [rejected, countRejection] <;> omega

/-- What is counted of a request by what comes of it. -/
def count (t : Tally) : Except Rejection Frame → Tally
  | .ok _ => t.countRequest
  | .error r => t.countRequest.countRejection r

end Tally

namespace Dispatch

variable {σ : Type} {d : Dispatch σ} {body : List UInt8} {s : σ}

/-- Why a body is refused: each reason stands behind the ones above it. -/
inductive Refuses (d : Dispatch σ) (body : List UInt8) (s : σ) : Reason → Prop where
  | body (long : d.maxBodySize < body.length) : Refuses d body s .body
  | verify (fits : body.length ≤ d.maxBodySize) (unopened : d.Unopened body) :
    Refuses d body s .verify
  | unsupportedType {frame : Frame} (fits : body.length ≤ d.maxBodySize)
    (opened : d.key.openFrame body = .ok frame) (unhandled : d.handlers[frame.type]? = none) :
    Refuses d body s .unsupportedType
  | handler {frame : Frame} {handler : Handler σ} {m : String}
    (fits : body.length ≤ d.maxBodySize) (opened : d.key.openFrame body = .ok frame)
    (handled : d.handlers[frame.type]? = some handler)
    (refused : (handler frame.payload s).1 = .refuse m) : Refuses d body s .handler
  | internal {frame : Frame} {handler : Handler σ} {m : String}
    (fits : body.length ≤ d.maxBodySize) (opened : d.key.openFrame body = .ok frame)
    (handled : d.handlers[frame.type]? = some handler)
    (crashed : (handler frame.payload s).1 = .crash m) : Refuses d body s .internal

theorem refuses_of_error {r : Rejection} (h : (d.process body s).1 = .error r) :
    d.Refuses body s r.reason := by
  by_cases hfits : body.length ≤ d.maxBodySize
  · cases hopen : d.key.openFrame body with
    | error e =>
      rw [process_unopened hfits hopen] at h
      cases h
      exact .verify hfits fun frame hframe => by rw [hopen] at hframe; cases hframe
    | ok frame =>
      rw [process_opened hfits hopen] at h
      cases hhandler : d.handlers[frame.type]? with
      | none =>
        rw [hhandler] at h
        cases h
        exact .unsupportedType hfits hopen hhandler
      | some handler =>
        rw [hhandler] at h
        dsimp only at h
        cases houtcome : (handler frame.payload s).1 with
        | reply frame =>
          rw [houtcome] at h
          cases h
        | refuse m =>
          rw [houtcome] at h
          cases h
          exact .handler hfits hopen hhandler houtcome
        | crash m =>
          rw [houtcome] at h
          cases h
          exact .internal hfits hopen hhandler houtcome
  · rw [process_tooLong (Nat.lt_of_not_le hfits)] at h
    cases h
    exact .body (Nat.lt_of_not_le hfits)

theorem error_of_refuses {reason : Reason} (h : d.Refuses body s reason) :
    ∃ r, (d.process body s).1 = .error r ∧ r.reason = reason := by
  cases h with
  | body long =>
    rw [process_tooLong long]
    exact ⟨_, rfl, rfl⟩
  | verify fits unopened =>
    cases hopen : d.key.openFrame body with
    | ok frame => exact absurd hopen (unopened frame)
    | error e =>
      rw [process_unopened fits hopen]
      exact ⟨_, rfl, rfl⟩
  | unsupportedType fits opened unhandled =>
    rw [process_opened fits opened, unhandled]
    exact ⟨_, rfl, rfl⟩
  | handler fits opened handled refused =>
    rw [process_opened fits opened, handled]
    dsimp only
    rw [refused]
    exact ⟨_, rfl, rfl⟩
  | internal fits opened handled crashed =>
    rw [process_opened fits opened, handled]
    dsimp only
    rw [crashed]
    exact ⟨_, rfl, rfl⟩

/-- A request that the one resource takes. Every other is turned away uncounted. -/
def isPosted (request : Request) : Bool := request.path = "/" ∧ request.method = "POST"

theorem route_posted {α : Type} {request : Request} (h : isPosted request = true)
    (turned : Response → α) (posted : α) : route request turned posted = posted := by
  obtain ⟨hpath, hmethod⟩ := of_decide_eq_true h
  rw [route, if_neg (not_not.mpr hpath), if_neg (not_not.mpr hmethod)]

theorem route_turned {α : Type} {request : Request} (h : isPosted request = false)
    (turned : Response → α) (posted : α) :
    ∃ response, response.status ≠ 200 ∧ route request turned posted = turned response := by
  rw [route]
  split
  · exact ⟨_, of_decide_eq_false rfl, rfl⟩
  · split
    · exact ⟨_, of_decide_eq_false rfl, rfl⟩
    · rename_i hpath hmethod
      have hposted : isPosted request = true :=
        decide_eq_true ⟨not_not.mp hpath, not_not.mp hmethod⟩
      rw [h] at hposted
      cases hposted

theorem handle_posted {request : Request} (h : isPosted request = true) (nonce : Nonce) (s : σ)
    (t : Tally) : d.handle nonce request s t =
      (.ofResult d.key nonce (d.process request.body s).1, (d.process request.body s).2,
        t.count (d.process request.body s).1) := by
  rw [handle, route_posted h, post]
  cases d.process request.body s with
  | mk result s =>
    cases result with
    | ok reply => rfl
    | error r => rfl

theorem handle_turned {request : Request} (h : isPosted request = false) (nonce : Nonce) (s : σ)
    (t : Tally) : (d.handle nonce request s t).1.status ≠ 200 ∧
      (d.handle nonce request s t).2.2 = t := by
  obtain ⟨response, hstatus, hturned⟩ := route_turned h (fun response => (response, s, t))
    (d.post nonce request.body s t)
  rw [handle, hturned]
  exact ⟨hstatus, rfl⟩

theorem interrupted_posted {request : Request} (h : isPosted request = true) (cause : String)
    (t : Tally) : interrupted request cause t =
      ((Rejection.bodyBroken cause).response, t.count (.error (.bodyBroken cause))) := by
  rw [interrupted, route_posted h]
  rfl

theorem interrupted_turned {request : Request} (h : isPosted request = false) (cause : String)
    (t : Tally) : (interrupted request cause t).1.status ≠ 200 ∧
      (interrupted request cause t).2 = t := by
  obtain ⟨response, hstatus, hturned⟩ := route_turned h (fun response => (response, t))
    ((Rejection.bodyBroken cause).response,
      t.countRequest.countRejection (.bodyBroken cause))
  rw [interrupted, hturned]
  exact ⟨hstatus, rfl⟩

end Dispatch

/-- What an answer to a posted body does to the counts: success raises no reason, and a refusal
raises the one reason that there is for it. -/
structure Dispatch.Counted {σ : Type} (d : Dispatch σ) (body : List UInt8) (s : σ)
    (response : Response) (t t' : Tally) : Prop where
  requests : t'.requests = t.requests + 1
  served : response.status = 200 →
    (∀ reason, ¬ d.Refuses body s reason) ∧ ∀ reason, t'.of reason = t.of reason
  refused : response.status ≠ 200 → ∃ reason, (∀ other, d.Refuses body s other ↔ other = reason) ∧
    ∀ other, t'.of other = t.of other + if other = reason then 1 else 0

theorem Dispatch.counted_handle {σ : Type} (d : Dispatch σ) {request : Request}
    (h : isPosted request = true) (nonce : Nonce) (s : σ) (t : Tally) :
    d.Counted request.body s (d.handle nonce request s t).1 t (d.handle nonce request s t).2.2 := by
  rw [handle_posted h]
  cases hresult : (d.process request.body s).1 with
  | ok reply =>
    refine ⟨rfl, fun _ => ⟨fun reason hrefuses => ?_, fun reason => ?_⟩, fun hstatus => ?_⟩
    · obtain ⟨r, hr, _⟩ := error_of_refuses hrefuses
      rw [hresult] at hr
      cases hr
    · cases reason <;> rfl
    · exact absurd rfl hstatus
  | error r =>
    refine ⟨?_, fun hstatus => absurd hstatus r.status_ne_success, fun _ =>
      ⟨r.reason, fun other => ⟨fun hrefuses => ?_, ?_⟩, fun other => ?_⟩⟩
    · exact t.countRequest.requests_countRejection r
    · obtain ⟨r', hr', rfl⟩ := error_of_refuses hrefuses
      rw [hresult] at hr'
      cases hr'
      rfl
    · rintro rfl
      exact refuses_of_error hresult
    · rw [Tally.count, Tally.of_countRejection]
      cases other <;> rfl

namespace Server

variable {σ : Type}

/-- What happens to a server: its holder does something to it, the state that its handlers act on
changes, or a request comes, whole or with a body that breaks off. -/
inductive Act (σ : Type) where
  | hold (step : Step σ)
  | work (change : σ → σ)
  | arrive (nonce : Nonce) (request : Request)
  | interrupt (request : Request) (cause : String)

/-- An answer is noted with the request that it was given to. -/
def act (server : Server σ) (s : σ) : Act σ → Option (Request × Response) × Server σ × σ
  | .hold step => (none, server.step step, s)
  | .work change => (none, server, change s)
  | .arrive nonce request =>
    let (response, server, s) := server.receive nonce request s
    (response.map fun response => (request, response), server, s)
  | .interrupt request cause =>
    let (response, server) := server.interrupt request cause
    (response.map fun response => (request, response), server, s)

def run (server : Server σ) (s : σ) : List (Act σ) → List (Request × Response) × Server σ × σ
  | [] => ([], server, s)
  | a :: rest =>
    let (answer, server, s) := server.act s a
    let (answers, server, s) := server.run s rest
    (answer.toList ++ answers, server, s)

theorem run_cons (server : Server σ) (s : σ) (a : Act σ) (rest : List (Act σ)) :
    server.run s (a :: rest) =
      let next := server.act s a
      let later := next.2.1.run next.2.2 rest
      (next.1.toList ++ later.1, later.2) := rfl

/-- How many of the answers were given to posted requests. -/
def posted (answers : List (Request × Response)) : Nat :=
  answers.countP fun answer => Dispatch.isPosted answer.1

def successes (answers : List (Request × Response)) : Nat :=
  answers.countP fun answer => answer.2.status = 200

/-- What some answers were counted as. -/
structure Balanced (answers : List (Request × Response)) (t t' : Tally) : Prop where
  requests : t'.requests = t.requests + posted answers
  rejected : t'.rejected + successes answers = t.rejected + posted answers

theorem Balanced.nil (t : Tally) : Balanced [] t t := ⟨rfl, rfl⟩

theorem Balanced.append {xs ys : List (Request × Response)} {t u v : Tally} (h : Balanced xs t u)
    (h' : Balanced ys u v) : Balanced (xs ++ ys) t v := by
  obtain ⟨hrequests, hrejected⟩ := h
  obtain ⟨hrequests', hrejected'⟩ := h'
  have hposted : posted (xs ++ ys) = posted xs + posted ys := List.countP_append
  have hsuccesses : successes (xs ++ ys) = successes xs + successes ys := List.countP_append
  constructor
  · omega
  · omega

theorem Balanced.refused {request : Request} (h : Dispatch.isPosted request = true)
    (r : Rejection) (t : Tally) : Balanced [(request, r.response)] t (t.count (.error r)) := by
  have hstatus := r.status_ne_success
  constructor
  · simp [posted, h, Tally.count, Tally.requests_countRejection, Tally.countRequest]
  · simp [posted, successes, h, hstatus, Tally.count, Tally.rejected_countRejection]
    rfl

/-- A posted request is counted by what comes of it. -/
theorem Balanced.count {request : Request} (h : Dispatch.isPosted request = true) (key : Key)
    (nonce : Nonce) (result : Except Rejection Frame) (t : Tally) :
    Balanced [(request, .ofResult key nonce result)] t (t.count result) := by
  cases result with
  | ok reply =>
    have hstatus : (Response.ofResult key nonce (.ok reply)).status = 200 := rfl
    refine ⟨by simp [posted, h, Tally.count, Tally.countRequest], ?_⟩
    simp [posted, successes, h, hstatus, Tally.count, Tally.countRequest, Tally.rejected]
  | error r => exact .refused h r t

theorem Balanced.turned {request : Request} (h : Dispatch.isPosted request = false)
    {response : Response} (hstatus : response.status ≠ 200) (t : Tally) :
    Balanced [(request, response)] t t :=
  ⟨by simp [posted, h], by simp [posted, successes, h, hstatus]⟩

theorem balanced_handle (d : Dispatch σ) (nonce : Nonce) (request : Request) (s : σ) (t : Tally) :
    Balanced [(request, (d.handle nonce request s t).1)] t (d.handle nonce request s t).2.2 := by
  cases hposted : Dispatch.isPosted request with
  | false =>
    obtain ⟨hstatus, htally⟩ := Dispatch.handle_turned (d := d) hposted nonce s t
    rw [htally]
    exact .turned hposted hstatus t
  | true =>
    rw [Dispatch.handle_posted hposted]
    exact .count hposted d.key nonce _ t

theorem balanced_interrupted (request : Request) (cause : String) (t : Tally) :
    Balanced [(request, (Dispatch.interrupted request cause t).1)] t
      (Dispatch.interrupted request cause t).2 := by
  cases hposted : Dispatch.isPosted request with
  | false =>
    obtain ⟨hstatus, htally⟩ := Dispatch.interrupted_turned hposted cause t
    rw [htally]
    exact .turned hposted hstatus t
  | true =>
    rw [Dispatch.interrupted_posted hposted]
    exact .refused hposted (.bodyBroken cause) t

theorem interrupt_stopped {server : Server σ} (h : server.session = none) (request : Request)
    (cause : String) : server.interrupt request cause = (none, server) := by
  simp only [interrupt, h]

theorem interrupt_running {server : Server σ} {session : Session σ}
    (h : server.session = some session) (request : Request) (cause : String) :
    server.interrupt request cause =
      (some (Dispatch.interrupted request cause server.tally).1,
        { server with tally := (Dispatch.interrupted request cause server.tally).2 }) := by
  simp only [interrupt, h]

theorem step_tally (server : Server σ) (step : Step σ) :
    (server.step step).tally = server.tally := by
  cases step with
  | addHandler type handler =>
    rw [Server.step, addHandler]
    split
    · rfl
    · rfl
  | start bind =>
    rw [Server.step, start]
    repeat' split
    all_goals rfl
  | shutdown => rfl

theorem balanced_act (server : Server σ) (s : σ) (a : Act σ) :
    Balanced (server.act s a).1.toList server.tally (server.act s a).2.1.tally := by
  cases a with
  | hold step =>
    rw [act, step_tally]
    exact .nil _
  | work change => exact .nil _
  | arrive nonce request =>
    rw [act]
    rcases Option.eq_none_or_eq_some server.session with hsession | ⟨session, hsession⟩
    · rw [receive_stopped hsession]
      exact .nil _
    · rw [receive_running hsession]
      exact balanced_handle session.dispatch nonce request s server.tally
  | interrupt request cause =>
    rw [act]
    rcases Option.eq_none_or_eq_some server.session with hsession | ⟨session, hsession⟩
    · rw [interrupt_stopped hsession]
      exact .nil _
    · rw [interrupt_running hsession]
      exact balanced_interrupted request cause server.tally

/-- Whatever happens to a server, the counts go with the answers. -/
theorem balanced_run (server : Server σ) (s : σ) (acts : List (Act σ)) :
    Balanced (server.run s acts).1 server.tally (server.run s acts).2.1.tally := by
  induction acts generalizing server s with
  | nil => exact .nil _
  | cons a rest ih =>
    rw [run_cons]
    exact (balanced_act server s a).append (ih _ _)

/-- A server is left by a body that breaks off as it is by one that is too long. -/
theorem reachable_interrupt {config : ServerConfig} {server : Server σ}
    (h : Reachable config server) (s : σ) (request : Request) (cause : String) :
    Reachable config (server.interrupt request cause).2 := by
  rcases Option.eq_none_or_eq_some server.session with hsession | ⟨session, hsession⟩
  · rw [interrupt_stopped hsession]
    exact h
  · rw [interrupt_running hsession]
    cases hposted : Dispatch.isPosted request with
    | false =>
      rw [(Dispatch.interrupted_turned hposted cause server.tally).2]
      exact h
    | true =>
      let tooLong : Request :=
        ⟨"POST", "/", List.replicate (session.dispatch.maxBodySize + 1) 0⟩
      have hlong : session.dispatch.maxBodySize < tooLong.body.length := by simp [tooLong]
      have hpath : "/".toList.takeWhile (· ≠ '?') = ['/'] := rfl
      have hroot : Dispatch.isPosted tooLong = true :=
        decide_eq_true ⟨congrArg String.ofList hpath, rfl⟩
      have hreceive := receive_running hsession (Vector.replicate 12 0) tooLong s
      rw [Dispatch.handle_posted hroot, Dispatch.process_tooLong hlong] at hreceive
      have hsame : (server.receive (Vector.replicate 12 0) tooLong s).2.1 = { server with
          tally := (Dispatch.interrupted request cause server.tally).2 } := by
        rw [hreceive, Dispatch.interrupted_posted hposted]
        rfl
      rw [← hsame]
      exact .receive h _ tooLong s

theorem reachable_act {config : ServerConfig} {server : Server σ} (h : Reachable config server)
    (s : σ) (a : Act σ) : Reachable config (server.act s a).2.1 := by
  cases a with
  | hold step =>
    cases step with
    | addHandler type handler => exact .addHandler h type handler
    | start bind =>
      rw [act, Server.step]
      cases hstart : server.start bind with
      | error e => exact h
      | ok started => exact .start h bind hstart
    | shutdown => exact .shutdown h
  | work change => exact h
  | arrive nonce request => exact .receive h nonce request s
  | interrupt request cause => exact reachable_interrupt h s request cause

theorem reachable_run {config : ServerConfig} {server : Server σ} (h : Reachable config server)
    (s : σ) (acts : List (Act σ)) : Reachable config (server.run s acts).2.1 := by
  induction acts generalizing server s with
  | nil => exact h
  | cons a rest ih =>
    rw [run_cons]
    exact ih (reachable_act h s a) _

/-- How a body that broke off is counted by a server: under its one reason, if it was posted. -/
structure CountsBroken (server : Server σ) (request : Request) (cause : String) : Prop where
  stopped : server.isRunning = false → (server.interrupt request cause).1 = none ∧
    (server.interrupt request cause).2.tally = server.tally
  turned : Dispatch.isPosted request = false →
    (server.interrupt request cause).2.tally = server.tally
  refused : server.isRunning = true → Dispatch.isPosted request = true →
    (∃ response, (server.interrupt request cause).1 = some response ∧ response.status = 400) ∧
      (server.interrupt request cause).2.tally.requests = server.tally.requests + 1 ∧
      ∀ reason, (server.interrupt request cause).2.tally.of reason =
        server.tally.of reason + if reason = .body then 1 else 0

theorem countsBroken_interrupt (server : Server σ) (request : Request) (cause : String) :
    server.CountsBroken request cause := by
  rcases Option.eq_none_or_eq_some server.session with hsession | ⟨session, hsession⟩
  · have hstopped : server.isRunning = false := by rw [isRunning, hsession]; rfl
    refine ⟨fun _ => ?_, fun _ => ?_, fun hrunning => ?_⟩
    · rw [interrupt_stopped hsession]
      exact ⟨rfl, rfl⟩
    · rw [interrupt_stopped hsession]
    · rw [hstopped] at hrunning
      cases hrunning
  · have hrunning : server.isRunning = true := by rw [isRunning, hsession]; rfl
    refine ⟨fun hstopped => ?_, fun hturned => ?_, fun _ hposted => ?_⟩
    · rw [hrunning] at hstopped
      cases hstopped
    · rw [interrupt_running hsession]
      exact (Dispatch.interrupted_turned hturned cause server.tally).2
    · rw [interrupt_running hsession, Dispatch.interrupted_posted hposted]
      refine ⟨⟨_, rfl, rfl⟩, rfl, fun reason => ?_⟩
      exact (Tally.of_countRejection _ (.bodyBroken cause) reason).trans (by cases reason <;> rfl)

/-- How a request is counted by a server. -/
structure Counts (config : ServerConfig) (server : Server σ) (s : σ) (nonce : Nonce)
    (request : Request) : Prop where
  stopped : server.isRunning = false → (server.receive nonce request s).1 = none ∧
    (server.receive nonce request s).2.1.tally = server.tally
  turned : Dispatch.isPosted request = false →
    (server.receive nonce request s).2.1.tally = server.tally
  posted : server.isRunning = true → Dispatch.isPosted request = true →
    ∃ key response, Key.parse config.key = .ok key ∧
      (server.receive nonce request s).1 = some response ∧
      (⟨key, server.handlers, config.maxBodySize⟩ : Dispatch σ).Counted request.body s response
        server.tally (server.receive nonce request s).2.1.tally
  broken : ∀ cause, server.CountsBroken request cause

theorem counts_receive {config : ServerConfig} {server : Server σ} (h : Reachable config server)
    (s : σ) (nonce : Nonce) (request : Request) : server.Counts config s nonce request := by
  cases hrunning : server.isRunning with
  | false =>
    have hsession : server.session = none := by
      rwa [isRunning, Option.isSome_eq_false_iff, Option.isNone_iff_eq_none] at hrunning
    have hreceive := receive_stopped hsession nonce request s
    refine ⟨fun _ => ?_, fun _ => ?_, fun hstarted => ?_, server.countsBroken_interrupt request⟩
    · rw [hreceive]
      exact ⟨rfl, rfl⟩
    · rw [hreceive]
    · rw [hrunning] at hstarted
      cases hstarted
  | true =>
    obtain ⟨session, key, hsession, hkey, hdispatch⟩ := session_dispatch h hrunning
    rw [dispatch, (reachable_invariant h).configured] at hdispatch
    rw [(reachable_invariant h).configured] at hkey
    have hreceive := receive_running hsession nonce request s
    rw [hdispatch] at hreceive
    refine ⟨fun hstopped => ?_, fun hturned => ?_, fun _ hposted => ?_,
      server.countsBroken_interrupt request⟩
    · rw [hrunning] at hstopped
      cases hstopped
    · rw [hreceive]
      exact (Dispatch.handle_turned hturned nonce s server.tally).2
    · rw [hreceive]
      exact ⟨key, _, hkey, rfl, Dispatch.counted_handle _ hposted nonce s server.tally⟩

/-- The counts of a server, whatever happened to it: every posted request that was answered was
counted, and it was answered with success or is counted under one reason. So will be the next one. -/
theorem requests_counted (config : ServerConfig) (s : σ) (acts : List (Act σ)) :
    let ended := (ofConfig config).run s acts
    let t := ended.2.1.tally
    t.requests = posted ended.1 ∧ t.requests = successes ended.1 + (Reason.all.map t.of).sum ∧
      ∀ nonce request, ended.2.1.Counts config ended.2.2 nonce request := by
  intro ended t
  have hbalanced : Balanced ended.1 (ofConfig config : Server σ).tally t := balanced_run _ s acts
  obtain ⟨hrequests, hrejected⟩ := hbalanced
  have hzero : (ofConfig config : Server σ).tally.requests = 0 := rfl
  have hnone : (ofConfig config : Server σ).tally.rejected = 0 := rfl
  refine ⟨by omega, ?_, counts_receive (reachable_run .ofConfig s acts) ended.2.2⟩
  rw [← Tally.rejected_eq_sum]
  omega

end Server

end AdminPlane
