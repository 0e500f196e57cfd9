import AdminPlane.Ledger.Record

namespace AdminPlane

/-- A change the ledger made. -/
inductive Event where
  | peerAdded (id : String)
  | peerRemoved (id : String)
  /-- The score is the one after all applications. -/
  | recordApplied (id reason : String) (point : Int64) (applications : Nat) (score : Int64)
  | flagChanged (id : String) (flag : Flag) (value : Bool)
deriving DecidableEq, Repr

namespace Event

@[match_pattern]
def pended (id : String) : Event := .flagChanged id .pending true

@[match_pattern]
def resumed (id : String) : Event := .flagChanged id .pending false

@[match_pattern]
def blocked (id : String) : Event := .flagChanged id .blocked true

@[match_pattern]
def unblocked (id : String) : Event := .flagChanged id .blocked false

def peerId : Event → String
  | peerAdded id => id
  | peerRemoved id => id
  | recordApplied id _ _ _ _ => id
  | flagChanged id _ _ => id

def isStatus : Event → Bool
  | flagChanged _ _ _ => true
  | _ => false

end Event

end AdminPlane
