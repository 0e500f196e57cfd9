import AdminPlane.Channel.Frame
import AdminPlane.Json.Value
import AdminPlane.Server.Http
import AdminPlane.Text.Quoted
import Std.Data.ExtTreeMap

namespace AdminPlane

open Channel (Frame Key Nonce)

/-- What a handler makes of a payload. -/
inductive Outcome where
  | reply (frame : Frame)
  | refuse (message : String)
  | crash (message : String)
deriving DecidableEq, Repr

/-- The work for one type of message, on a state of the node. -/
abbrev Handler (σ : Type) := List UInt8 → σ → Outcome × σ

/-- At most one handler for each type byte. -/
abbrev HandlerTable (σ : Type) := Std.ExtTreeMap UInt8 (Handler σ)

/-- Why a request is refused. -/
inductive Rejection where
  | unverified
  | unsupportedType (type : UInt8)
  | handler (message : String)
  | bodyTooLong
  /-- The body did not come to its end, for this cause. -/
  | bodyBroken (cause : String)
  /-- The handler stopped with this message. -/
  | crashed (message : String)
deriving DecidableEq, Repr

namespace Rejection

/-- The number of the crashed task is written `N`. -/
def message : Rejection → String
  | unverified => Channel.verifyFailure
  | unsupportedType type => "unsupported message type: " ++ Decimal.natural type.toNat
  | handler m => m
  | bodyTooLong => "Failed to buffer the request body: length limit exceeded"
  | bodyBroken cause => "Failed to buffer the request body: " ++ cause
  | crashed m => "handler task failed: task N panicked with message " ++ Text.quoted m

def status : Rejection → Nat
  | bodyTooLong => 413
  | _ => 400

/-- Refusals are not encrypted. -/
def response (r : Rejection) : Response :=
  ⟨r.status, some "application/json", (Json.object [("Error", .string r.message)]).compact⟩

end Rejection

/-- Counts of requests and of refusals by reason. -/
structure Tally where
  requests : Nat := 0
  verify : Nat := 0
  unsupportedType : Nat := 0
  handler : Nat := 0
  body : Nat := 0
  internal : Nat := 0
deriving DecidableEq, Repr

namespace Tally

def rejected (t : Tally) : Nat := t.verify + t.unsupportedType + t.handler + t.body + t.internal

def countRequest (t : Tally) : Tally := { t with requests := t.requests + 1 }

def countRejection (t : Tally) : Rejection → Tally
  | .unverified => { t with verify := t.verify + 1 }
  | .unsupportedType _ => { t with unsupportedType := t.unsupportedType + 1 }
  | .handler _ => { t with handler := t.handler + 1 }
  | .bodyTooLong => { t with body := t.body + 1 }
  | .bodyBroken _ => { t with body := t.body + 1 }
  | .crashed _ => { t with internal := t.internal + 1 }

end Tally

/-- What answers the requests of one run of a server. -/
structure Dispatch (σ : Type) where
  key : Key
  handlers : HandlerTable σ
  maxBodySize : Nat

namespace Dispatch

/-- Verifies the body and runs the handler of its type. -/
def process (d : Dispatch σ) (body : List UInt8) (state : σ) : Except Rejection Frame × σ :=
  if d.maxBodySize < body.length then (.error .bodyTooLong, state)
  else if body.length ≤ 1 then (.error .unverified, state)
  else
    match d.key.openFrame body with
    | .error _ => (.error .unverified, state)
    | .ok frame =>
      match d.handlers[frame.type]? with
      | none => (.error (.unsupportedType frame.type), state)
      | some handler =>
        match handler frame.payload state with
        | (.reply reply, state) => (.ok reply, state)
        | (.refuse m, state) => (.error (.handler m), state)
        | (.crash m, state) => (.error (.crashed m), state)

/-- A reply is sealed under the nonce; a refusal is counted. Sealing does not fail here. The cipher
itself would refuse a frame of more than 2 ^ 36 - 32 bytes, which is then an internal refusal. -/
def post (d : Dispatch σ) (nonce : Nonce) (body : List UInt8) (state : σ) (tally : Tally) :
    Response × σ × Tally :=
  let (result, state) := d.process body state
  match result with
  | .ok reply =>
    (⟨200, some "application/octet-stream", d.key.sealFrame nonce reply⟩, state,
      tally.countRequest)
  | .error rejection => (rejection.response, state, tally.countRequest.countRejection rejection)

/-- The one resource is `/`, and its one method is POST. All else is turned away. -/
def route (request : Request) (turned : Response → α) (posted : α) : α :=
  if request.path ≠ "/" then turned (.empty 404)
  else if request.method ≠ "POST" then turned (.empty 405)
  else posted

def handle (d : Dispatch σ) (nonce : Nonce) (request : Request) (state : σ) (tally : Tally) :
    Response × σ × Tally :=
  route request (fun response => (response, state, tally)) (d.post nonce request.body state tally)

/-- A request whose body breaks off on the way comes to no handler. -/
def interrupted (request : Request) (cause : String) (tally : Tally) : Response × Tally :=
  let rejection := Rejection.bodyBroken cause
  route request (fun response => (response, tally))
    (rejection.response, tally.countRequest.countRejection rejection)

end Dispatch

end AdminPlane
