import AdminPlane.Proofs.Channel.Sealing
import AdminPlane.Server.Dispatch

namespace AdminPlane

open Channel (Frame Key Nonce)

/-- What a server makes of the outcome of a handler. -/
def Outcome.result : Outcome → Except Rejection Frame
  | reply frame => .ok frame
  | refuse m => .error (.handler m)
  | crash m => .error (.crashed m)

/-- The response to a request that came to its handler. -/
def Outcome.response (key : Key) (nonce : Nonce) (outcome : Outcome) : Response :=
  match outcome.result with
  | .ok frame => ⟨200, some "application/octet-stream", key.sealFrame nonce frame⟩
  | .error rejection => rejection.response

/-- The response to a request by what comes of it. -/
def Response.ofResult (key : Key) (nonce : Nonce) : Except Rejection Frame → Response
  | .ok frame => ⟨200, some "application/octet-stream", key.sealFrame nonce frame⟩
  | .error rejection => rejection.response

theorem Outcome.response_eq (key : Key) (nonce : Nonce) (outcome : Outcome) :
    outcome.response key nonce = .ofResult key nonce outcome.result := by
  cases outcome
  all_goals rfl

namespace Dispatch

variable {σ : Type} {d : Dispatch σ} {asked : Nonce} {frame : Frame}

/-- A body that is short enough and opens comes to the handler of its type, if there is one. -/
theorem process_opened {body : List UInt8} (hfits : body.length ≤ d.maxBodySize)
    (hopen : d.key.openFrame body = .ok frame) (s : σ) : d.process body s =
      match d.handlers[frame.type]? with
      | none => (.error (.unsupportedType frame.type), s)
      | some handler => ((handler frame.payload s).1.result, (handler frame.payload s).2) := by
  have hlength := (d.key.eq_sealFrame_of_openFrame hopen).1
  have hmin : 1 < Channel.minSealedFrameSize := by decide
  rw [process, if_neg (by omega), if_neg (by omega), hopen]
  dsimp only
  cases d.handlers[frame.type]? with
  | none => rfl
  | some handler =>
    dsimp only
    cases handler frame.payload s with
    | mk outcome t =>
      cases outcome
      all_goals rfl

theorem process_tooLong {body : List UInt8} (h : d.maxBodySize < body.length) (s : σ) :
    d.process body s = (.error .bodyTooLong, s) := by
  rw [process, if_pos h]

theorem process_unopened {body : List UInt8} {e : Channel.OpenError}
    (hfits : body.length ≤ d.maxBodySize) (hopen : d.key.openFrame body = .error e) (s : σ) :
    d.process body s = (.error .unverified, s) := by
  rw [process, if_neg (by omega), hopen]
  split
  · rfl
  · rfl

/-- A request to the root is answered by what comes of its body. -/
theorem handle_root {request : Request} (hpath : request.path = "/")
    (hmethod : request.method = "POST") (answered : Nonce) (s : σ) (tally : Tally) :
    ∃ tally', d.handle answered request s tally =
      (.ofResult d.key answered (d.process request.body s).1, (d.process request.body s).2,
        tally') := by
  rw [handle, route, if_neg (by simpa using hpath), if_neg (by simpa using hmethod), post]
  cases d.process request.body s with
  | mk result t =>
    cases result with
    | ok reply => exact ⟨_, rfl⟩
    | error rejection => exact ⟨_, rfl⟩

/-- A request changes the state only through the handler of a frame that it opens to. -/
theorem process_state (body : List UInt8) (s : σ) : (d.process body s).2 = s ∨
    ∃ frame handler, body.length ≤ d.maxBodySize ∧ d.key.openFrame body = .ok frame ∧
      d.handlers[frame.type]? = some handler ∧
      (d.process body s).2 = (handler frame.payload s).2 := by
  by_cases hlong : d.maxBodySize < body.length
  · exact .inl (by rw [process_tooLong hlong])
  · have hfits : body.length ≤ d.maxBodySize := Nat.le_of_not_lt hlong
    cases hopen : d.key.openFrame body with
    | error e => exact .inl (by rw [process_unopened hfits hopen])
    | ok frame =>
      have hprocess := process_opened hfits hopen s
      cases hhandler : d.handlers[frame.type]? with
      | none =>
        rw [hhandler] at hprocess
        exact .inl (congrArg Prod.snd hprocess)
      | some handler =>
        rw [hhandler] at hprocess
        exact .inr ⟨frame, handler, hfits, rfl, hhandler, congrArg Prod.snd hprocess⟩

theorem handle_elsewhere {request : Request} (h : ¬ (request.path = "/" ∧ request.method = "POST"))
    (nonce : Nonce) (s : σ) (tally : Tally) : (d.handle nonce request s tally).2.1 = s := by
  rw [handle, route]
  split
  · rfl
  · split
    · rfl
    · rename_i hpath hmethod
      exact absurd ⟨Decidable.not_not.mp hpath, Decidable.not_not.mp hmethod⟩ h

end Dispatch

end AdminPlane
