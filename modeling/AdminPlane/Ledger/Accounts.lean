import AdminPlane.Ledger.Event
import Std.Data.ExtTreeMap
import Std.Data.ExtTreeSet

namespace AdminPlane

/-- What is asked of a ledger. Every request on an untracked peer but `add` is without effect. -/
inductive Mutation where
  | add (id : String)
  | remove (id : String)
  /-- Applies the record once, and `replica` times more. -/
  | update (id : String) (record : Record) (replica : UInt64)
  | setFlag (id : String) (flag : Flag) (value : Bool)
deriving DecidableEq, Repr

namespace Mutation

@[match_pattern]
def pend (id : String) : Mutation := .setFlag id .pending true

@[match_pattern]
def resume (id : String) : Mutation := .setFlag id .pending false

@[match_pattern]
def block (id : String) : Mutation := .setFlag id .blocked true

@[match_pattern]
def unblock (id : String) : Mutation := .setFlag id .blocked false

def peerId : Mutation → String
  | add id => id
  | remove id => id
  | update id _ _ => id
  | setFlag id _ _ => id

end Mutation

/-- Trust state of every tracked peer. Logs are newest first; the two sets index the flags. -/
structure Accounts where
  reputations : Std.ExtTreeMap String Reputation
  history : Std.ExtTreeMap String (List Record)
  violations : Std.ExtTreeMap String (List Record)
  pending : Std.ExtTreeSet String
  blocked : Std.ExtTreeSet String

/-- The entry of one peer while records are applied to it. -/
structure Book where
  reputation : Reputation
  history : List Record
  violations : List Record

def Book.post (record : Record) (book : Book) : Book where
  reputation := book.reputation.addPoints record.point
  history := record :: book.history
  violations := if record.violation then record :: book.violations else book.violations

/-- One peer's reputation and a page of each log, all of one state. -/
structure Snapshot where
  reputation : Option Reputation
  history : List Record
  violations : List Record
deriving DecidableEq, Repr

/-- Positions `i` with `first ≤ i < last`, clipped to the log. -/
def page (log : List α) (first last : Nat) : List α :=
  if first < last then (log.drop first).take (last - first) else []

namespace Accounts

def empty : Accounts := ⟨∅, ∅, ∅, ∅, ∅⟩

instance : Inhabited Accounts := ⟨empty⟩

def contains (a : Accounts) (id : String) : Bool := a.reputations.contains id

/-- Every tracked peer once. -/
def ids (a : Accounts) : List String := a.reputations.keys

def count (a : Accounts) : Nat := a.reputations.size

def reputation? (a : Accounts) (id : String) : Option Reputation := a.reputations[id]?

def historyOf (a : Accounts) (id : String) : List Record := a.history[id]?.getD []

def violationsOf (a : Accounts) (id : String) : List Record := a.violations[id]?.getD []

def index (a : Accounts) : Flag → Std.ExtTreeSet String
  | .pending => a.pending
  | .blocked => a.blocked

def withIndex (a : Accounts) (flag : Flag) (ids : Std.ExtTreeSet String) : Accounts :=
  match flag with
  | .pending => { a with pending := ids }
  | .blocked => { a with blocked := ids }

def historyPage (a : Accounts) (id : String) (first last : Nat) : List Record :=
  page (a.historyOf id) first last

def violationsPage (a : Accounts) (id : String) (first last : Nat) : List Record :=
  page (a.violationsOf id) first last

def inspect (a : Accounts) (id : String) (first last : Nat) : Snapshot :=
  ⟨a.reputation? id, a.historyPage id first last, a.violationsPage id first last⟩

def add (a : Accounts) (id : String) : Accounts × Option Event :=
  if a.contains id then (a, none)
  else
    ({ a with
        reputations := a.reputations.insert id (Reputation.ofPeer id)
        history := a.history.insert id []
        violations := a.violations.insert id [] }, some (.peerAdded id))

def remove (a : Accounts) (id : String) : Accounts × Option Event :=
  if a.contains id then
    (⟨a.reputations.erase id, a.history.erase id, a.violations.erase id,
      a.pending.erase id, a.blocked.erase id⟩, some (.peerRemoved id))
  else (a, none)

/-- The greatest count of 64 bits stands for itself and for one more. -/
def applications (replica : UInt64) : Nat := min (replica.toNat + 1) (UInt64.size - 1)

def update (a : Accounts) (id : String) (record : Record) (replica : UInt64) :
    Accounts × Option Event :=
  match a.reputation? id with
  | none => (a, none)
  | some reputation =>
    let n := applications replica
    let book := Nat.repeat (Book.post record) n ⟨reputation, a.historyOf id, a.violationsOf id⟩
    ({ a with
        reputations := a.reputations.insert id book.reputation
        history := a.history.insert id book.history
        violations := a.violations.insert id book.violations },
      some (.recordApplied id record.reason record.point n book.reputation.score))

/-- The flag and its index change together, and only if the value is new. -/
def setFlag (a : Accounts) (id : String) (flag : Flag) (value : Bool) : Accounts × Option Event :=
  match a.reputation? id with
  | none => (a, none)
  | some reputation =>
    if reputation.flag flag = value then (a, none)
    else
      let ids := if value then (a.index flag).insert id else (a.index flag).erase id
      ({ a with reputations := a.reputations.insert id (reputation.setFlag flag value) }.withIndex
        flag ids, some (.flagChanged id flag value))

/-- The state after a mutation, with the event of a change. -/
def apply (a : Accounts) : Mutation → Accounts × Option Event
  | .add id => a.add id
  | .remove id => a.remove id
  | .update id record replica => a.update id record replica
  | .setFlag id flag value => a.setFlag id flag value

/-- The state after all mutations, with the events in order. -/
def run (a : Accounts) : List Mutation → Accounts × List Event
  | [] => (a, [])
  | m :: rest =>
    let (b, event) := a.apply m
    let (c, events) := b.run rest
    (c, event.toList ++ events)

end Accounts

end AdminPlane
