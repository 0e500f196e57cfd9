import AdminPlane.Ledger.Accounts
import AdminPlane.Ledger.Feed

namespace AdminPlane

/-- An order in which a hash table gives its keys: any, so long as each comes once. -/
structure KeyOrder where
  arrange : List String → List String
  perm : ∀ ids, (arrange ids).Perm ids

/-- The order in which the keys are kept. -/
def KeyOrder.kept : KeyOrder := ⟨id, fun _ => .refl _⟩

/-- The accounts, the order in which their peers are listed, and the feed that announces their
changes. -/
structure Ledger where
  accounts : Accounts
  events : Feed Event
  order : KeyOrder := .kept

namespace Ledger

def defaultCapacity : Nat := 256

def ofCapacity (n : Nat) : Ledger where
  accounts := .empty
  events := .ofCapacity n

def empty : Ledger := ofCapacity defaultCapacity

/-- An event is sent exactly when there is one. -/
def apply (l : Ledger) (m : Mutation) : Ledger :=
  let (accounts, event) := l.accounts.apply m
  { l with
    accounts
    events := match event with
      | none => l.events
      | some e => l.events.send e }

/-- The tracked peers, in no order that a caller may rely on. -/
def listPeers (l : Ledger) : List String := l.order.arrange l.accounts.ids

end Ledger

end AdminPlane
