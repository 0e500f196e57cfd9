import AdminPlane.Ledger.Basic
import AdminPlane.Ledger.Ring

namespace AdminPlane

/-- What is done to a ledger with subscribers, who are counted from the first one on. -/
inductive Act where
  | mutate (m : Mutation)
  | subscribe
  | drain (i : Nat)
deriving DecidableEq, Repr

/-- A ledger with its subscribers. -/
structure Audience where
  ledger : Ledger
  receivers : List Receiver

namespace Audience

def ofCapacity (n : Nat) : Audience := ⟨.ofCapacity n, []⟩

/-- The state after an act, with what a subscriber gets from it. -/
def step (s : Audience) : Act → Audience × Option (Nat × Delivery Event)
  | .mutate m => ({ s with ledger := s.ledger.apply m }, none)
  | .subscribe => ({ s with receivers := s.receivers ++ [s.ledger.events.subscribe] }, none)
  | .drain i =>
    match s.receivers[i]? with
    | none => (s, none)
    | some r =>
      let (delivery, r) := s.ledger.events.drain r
      ({ s with receivers := s.receivers.set i r }, some (i, delivery))

def run (s : Audience) : List Act → Audience × List (Nat × Delivery Event)
  | [] => (s, [])
  | act :: rest =>
    let (t, answer) := s.step act
    let (u, answers) := t.run rest
    (u, answer.toList ++ answers)

end Audience

/-- A ledger whose events go around a ring, with its subscribers. -/
structure RingAudience where
  accounts : Accounts
  ring : Ring Event
  receivers : List Receiver

namespace RingAudience

def ofCapacity (n : Nat) : RingAudience := ⟨.empty, .ofCapacity n, []⟩

/-- The state after an act, with what a subscriber gets from it. -/
def step (s : RingAudience) : Act → RingAudience × Option (Nat × List (Received Event))
  | .mutate m =>
    let (accounts, event) := s.accounts.apply m
    ({ s with accounts, ring := event.toList.foldl Ring.send s.ring }, none)
  | .subscribe =>
    let (ring, r) := s.ring.subscribe
    ({ s with ring, receivers := s.receivers ++ [r] }, none)
  | .drain i =>
    match s.receivers[i]? with
    | none => (s, none)
    | some r =>
      let (looks, r) := s.ring.drain r
      ({ s with receivers := s.receivers.set i r }, some (i, looks))

def run (s : RingAudience) : List Act → RingAudience × List (Nat × List (Received Event))
  | [] => (s, [])
  | act :: rest =>
    let (t, answer) := s.step act
    let (u, answers) := t.run rest
    (u, answer.toList ++ answers)

end RingAudience

end AdminPlane
