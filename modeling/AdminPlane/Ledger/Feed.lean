namespace AdminPlane

/-- A broadcast of items that keeps the newest `capacity` of them, for receivers that read at their
own pace. -/
structure Feed (α : Type) where
  capacity : Nat
  /-- Newest first. -/
  kept : List α
  /-- How many items were ever sent. -/
  sent : Nat

/-- A receiver's place: how many of the items sent it has seen or lost. -/
structure Receiver where
  next : Nat
deriving DecidableEq, Repr

/-- What a receiver gets: the number of items lost, then the items still kept, oldest first. -/
structure Delivery (α : Type) where
  lost : Nat
  items : List α
deriving DecidableEq, Repr

namespace Feed

/-- Room for at least `n` items, and for one at least, rounded up to a power of two. -/
def room (n : Nat) : Nat := if n ≤ 1 then 1 else Nat.pow 2 ((n - 1).log2 + 1)

def ofCapacity (n : Nat) : Feed α := ⟨room n, [], 0⟩

def send (f : Feed α) (x : α) : Feed α :=
  { f with kept := (x :: f.kept).take f.capacity, sent := f.sent + 1 }

/-- Sees what is sent from now on. -/
def subscribe (f : Feed α) : Receiver := ⟨f.sent⟩

/-- Everything receivable now. -/
def drain (f : Feed α) (r : Receiver) : Delivery α × Receiver :=
  let oldest := f.sent - f.kept.length
  (⟨oldest - r.next, (f.kept.take (f.sent - r.next)).reverse⟩, ⟨f.sent⟩)

end Feed

end AdminPlane
