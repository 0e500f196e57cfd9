import AdminPlane.Channel.Frame
import AdminPlane.Client.Address
import AdminPlane.Payload.Messages
import AdminPlane.Server.Http

namespace AdminPlane

open Channel (Frame Key KeyError Nonce OpenError)
open Payload (field require)

/-- The cleartext body of a refusal. -/
structure ErrorBody where
  error : String
deriving DecidableEq, Repr

instance : Payload ErrorBody where
  json e := .object [("Error", .string e.error)]
  read := Json.Member.readRecord "ErrorBody"
    [field "Error" id Json.Reader.string (fun _ x => some x) false]
    (none : Option String)
    fun d => do return ⟨← require "Error" d⟩

inductive ClientError where
  | invalidKey (error : KeyError)
  | network
  /-- The server could not verify the request. -/
  | unauthenticated (message : String)
  | rejected (status : Nat) (message : String)
  | tooShort (size : Nat)
  | decryption (error : OpenError)
deriving DecidableEq, Repr

namespace ClientError

def message : ClientError → String
  | invalidKey e => "invalid admin key: " ++ e.message
  | network => "admin request failed"
  | unauthenticated m => "admin server rejected request: " ++ m
  | rejected status m => "admin server returned " ++ Decimal.natural status ++ ": " ++ m
  | tooShort size => "protocol error: response too short: " ++ Decimal.natural size ++ " bytes"
  | decryption e => "failed to open response: " ++ e.message

/-- The message, then the message of what caused it. -/
def chain (e : ClientError) : List String :=
  e.message :: match e with
    | invalidKey k => [k.message]
    | decryption d => [d.message]
    | _ => []

/-- Whether the request or the response failed to authenticate. -/
def isAuthentication : ClientError → Bool
  | unauthenticated _ => true
  | decryption .authentication => true
  | _ => false

end ClientError

/-- A client of one server, with the key they share. -/
structure Client where
  url : String
  key : Key

namespace Client

def requestTimeoutSeconds : Nat := 90

/-- An address without a scheme is one of HTTP. -/
def urlOf (addr : String) : String :=
  if "http://".toList.isPrefixOf addr.toList || "https://".toList.isPrefixOf addr.toList then addr
  else "http://" ++ addr

def connect (addr key : String) : Except ClientError Client :=
  match Key.parse key with
  | .error e => .error (.invalidKey e)
  | .ok key => .ok ⟨urlOf addr, key⟩

def debug (c : Client) : String := "AdminClient \x7b url: " ++ Text.quoted c.url ++ ", .. \x7d"

/-- The host of an address of plain HTTP, with its port if it has one. -/
def host? (url : String) : Option String :=
  if "http://".toList.isPrefixOf url.toList then some (String.ofList (Address.host url.toList))
  else none

/-- The path and the query of the address. -/
def target (c : Client) : String := String.ofList (Address.target c.url.toList)

def post (c : Client) (nonce : Nonce) (frame : Frame) : Request :=
  ⟨"POST", c.target, c.key.sealFrame nonce frame⟩

/-- What a response of no success says: the error it holds, or all of its text. -/
def refusalText (body : List UInt8) : String :=
  match Payload.decode ErrorBody body with
  | .ok e => e.error
  | .error _ => Text.Utf8.lossy body

def refusal (status : Nat) (body : List UInt8) : ClientError :=
  let message := refusalText body
  if status = 400 ∧ message = Channel.verifyFailure then .unauthenticated message
  else .rejected status message

/-- What a response comes to. -/
def verdict (c : Client) (r : Response) : Except ClientError Frame :=
  if ¬ r.isSuccess then .error (refusal r.status r.body)
  else if r.body.length ≤ 1 then .error (.tooShort r.body.length)
  else
    match c.key.openFrame r.body with
    | .ok frame => .ok frame
    | .error e => .error (.decryption e)

/-- Sends a frame and opens the answer; `exchange` carries requests, and may fail to. -/
def request [Monad m] (c : Client) (nonce : Nonce) (frame : Frame)
    (exchange : Request → m (Option Response)) : m (Except ClientError Frame) := do
  match ← exchange (c.post nonce frame) with
  | none => return .error .network
  | some response => return c.verdict response

end Client

end AdminPlane
