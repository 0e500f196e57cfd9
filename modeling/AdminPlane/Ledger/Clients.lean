import AdminPlane.Ledger.Basic

namespace AdminPlane

/-- A record that a client applies to a peer once, and `replica` times more. -/
structure Call where
  record : Record
  replica : UInt64
deriving DecidableEq, Repr

/-- What a call leaves in the history of the peer. -/
def Call.copies (c : Call) : List Record :=
  List.replicate (Accounts.applications c.replica) c.record

/-- What a call adds to the score of the peer, wherever that ends. -/
def Call.points (c : Call) : Int := c.record.point.toInt * (c.replica.toNat + 1)

/-- How far a call can move the score of the peer. -/
def Call.weight (c : Call) : Nat := c.record.point.toInt.natAbs * (c.replica.toNat + 1)

/-- A ledger, and the calls that each of its clients has yet to make, its next one first. -/
structure Clients where
  ledger : Ledger
  waiting : List (List Call)

namespace Clients

/-- A client has the ledger to itself for one call on the peer, if it has a call left. -/
def turn (id : String) (s : Clients) (i : Nat) : Option Clients :=
  match s.waiting[i]? with
  | some (c :: rest) =>
    some ⟨s.ledger.apply (.update id c.record c.replica), s.waiting.set i rest⟩
  | _ => none

/-- The clients have their turns in the order of a schedule. -/
def run (id : String) (s : Clients) : List Nat → Option Clients
  | [] => some s
  | i :: schedule => do (← s.turn id i).run id schedule

/-- The calls that a client has left; one who is not there has none. -/
def queue (s : Clients) (i : Nat) : List Call := s.waiting[i]?.getD []

/-- The calls that all clients have left. -/
def calls (s : Clients) : List Call := s.waiting.flatten

def isDone (s : Clients) : Bool := s.calls.isEmpty

end Clients

end AdminPlane
