import AdminPlane.Channel.MessageType
import AdminPlane.Ledger.Accounts
import AdminPlane.Json.Shape
import AdminPlane.Json.Value

namespace AdminPlane

open AdminPlane.Json (Reader Member)

/-- A type of payload: how a value is written, and how one is read. -/
class Payload (α : Type) where
  json : α → Json
  read : Reader α

namespace Payload

def encode [Payload α] (m : α) : List UInt8 := (Payload.json m).compact

def decode (α : Type) [Payload α] (payload : List UInt8) : Except Json.Error α :=
  Json.decode Payload.read payload

/-- A field that the draft keeps as an option. -/
def field (name : String) (given : σ → Option α) (read : Reader α) (set : σ → α → σ)
    (optional : Bool) : Member σ :=
  ⟨name, fun d => (given d).isSome, fun d => set d <$> read, optional⟩

def require (name : String) : Option α → Except String α
  | some x => .ok x
  | none => .error name

/-- How many log entries are shown if a request does not say. -/
def defaultInspectRange : UInt64 := 10

end Payload

open Payload (field require)

structure Record.Draft where
  reason : Option String := none
  point : Option Int64 := none
  violation : Option Bool := none

instance : Payload Record where
  json r := .object
    [("reason", .string r.reason), ("point", .integer r.point.toInt), ("violation", .bool r.violation)]
  read := Member.readRecord "Record"
    [field "reason" Record.Draft.reason Json.Reader.string (fun d x => { d with reason := some x }) false,
     field "point" Record.Draft.point Json.Reader.int64 (fun d x => { d with point := some x }) false,
     field "violation" Record.Draft.violation Json.Reader.boolean
       (fun d x => { d with violation := some x }) false]
    {}
    fun d => do
      return ⟨← require "reason" d.reason, ← require "point" d.point,
        ← require "violation" d.violation⟩

structure Reputation.Draft where
  peerId : Option String := none
  score : Option Int64 := none
  pending : Option Bool := none
  blocked : Option Bool := none

instance : Payload Reputation where
  json r := .object
    [("peer_id", .string r.peerId), ("score", .integer r.score.toInt), ("pending", .bool r.pending),
     ("blocked", .bool r.blocked)]
  read := Member.readRecord "Reputation"
    [field "peer_id" Reputation.Draft.peerId Json.Reader.string
       (fun d x => { d with peerId := some x }) false,
     field "score" Reputation.Draft.score Json.Reader.int64 (fun d x => { d with score := some x }) false,
     field "pending" Reputation.Draft.pending Json.Reader.boolean
       (fun d x => { d with pending := some x }) false,
     field "blocked" Reputation.Draft.blocked Json.Reader.boolean
       (fun d x => { d with blocked := some x }) false]
    {}
    fun d => do
      return ⟨← require "peer_id" d.peerId, ← require "score" d.score,
        ← require "pending" d.pending, ← require "blocked" d.blocked⟩

end AdminPlane
