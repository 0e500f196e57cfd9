import AdminPlane.Ledger.Feed
import Mathlib.Logic.Function.Basic

namespace AdminPlane

/-- A place of a ring, with the item that it took last and the position of that item. -/
structure Slot (α : Type) where
  pos : Int
  item : Option α

/-- A broadcast in which each item takes the slot of the oldest one. -/
structure Ring (α : Type) where
  capacity : Nat
  nonempty : 0 < capacity
  slots : Fin capacity → Slot α
  /-- The position of the next item. -/
  tail : Nat
  receivers : Nat

/-- What a receiver gets when it looks once. -/
inductive Received (α : Type) where
  | item (x : α)
  | lagged (missed : Nat)
  | empty
  | closed
deriving DecidableEq, Repr

/-- The looks that make up a delivery. -/
def Delivery.looks (d : Delivery α) : List (Received α) :=
  (if d.lost = 0 then [] else [.lagged d.lost]) ++ d.items.map .item

theorem Feed.room_pos (n : Nat) : 0 < room n := by
  unfold room
  split
  · exact Nat.one_pos
  · exact Nat.two_pow_pos _

namespace Ring

/-- The slot of a position. -/
def index (ring : Ring α) (pos : Nat) : Fin ring.capacity :=
  ⟨pos % ring.capacity, Nat.mod_lt pos ring.nonempty⟩

/-- Each slot is one round behind the first item that it will take. -/
def ofCapacity (n : Nat) : Ring α where
  capacity := Feed.room n
  nonempty := Feed.room_pos n
  slots i := ⟨i.val - Feed.room n, none⟩
  tail := 0
  receivers := 0

/-- What no one would see is not kept. -/
def send (ring : Ring α) (x : α) : Ring α :=
  if ring.receivers = 0 then ring
  else
    { ring with
      slots := Function.update ring.slots (ring.index ring.tail) ⟨ring.tail, some x⟩
      tail := ring.tail + 1 }

/-- Sees what is sent from now on. -/
def subscribe (ring : Ring α) : Ring α × Receiver :=
  ({ ring with receivers := ring.receivers + 1 }, ⟨ring.tail⟩)

def Slot.received (slot : Slot α) : Received α :=
  match slot.item with
  | some x => .item x
  | none => .closed

/-- Looks once. A slot one round behind has not been written yet, and one ahead has been
overwritten: then the receiver goes on from the oldest item. -/
def tryReceive (ring : Ring α) (r : Receiver) : Received α × Receiver :=
  let slot := ring.slots (ring.index r.next)
  if slot.pos = r.next then (Slot.received slot, ⟨r.next + 1⟩)
  else if slot.pos + ring.capacity = r.next then (.empty, r)
  else
    let oldest := ring.tail - ring.capacity
    if oldest = r.next then (Slot.received slot, ⟨r.next + 1⟩)
    else (.lagged (oldest - r.next), ⟨oldest⟩)

/-- Looks until there is nothing more; `fuel` bounds the number of looks. -/
def receiveAll (ring : Ring α) : (fuel : Nat) → Receiver → List (Received α) × Receiver
  | 0, r => ([], r)
  | fuel + 1, r =>
    match ring.tryReceive r with
    | (.empty, r) | (.closed, r) => ([], r)
    | (received, r) =>
      let (rest, r) := receiveAll ring fuel r
      (received :: rest, r)

/-- Everything receivable now: one report of a lag, and no more items than there are slots. -/
def drain (ring : Ring α) (r : Receiver) : List (Received α) × Receiver :=
  ring.receiveAll (ring.capacity + 2) r

end Ring

end AdminPlane
