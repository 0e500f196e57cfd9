namespace AdminPlane

/-- One scored event about a peer. A violation is logged twice: as history and as a violation. -/
structure Record where
  reason : String
  point : Int64
  violation : Bool
deriving DecidableEq, Repr, Inhabited

namespace Record

def networkError : Record := ⟨"network error", -5, true⟩
def invalidResponse : Record := ⟨"invalid response", -10, true⟩

/-- The peer took payment and then served bad data. -/
def invalidResponseAfterPayment : Record := ⟨"invalid response after payment", -50, true⟩

def offerVerificationFailed : Record := ⟨"offer verification failed", -20, true⟩
def retrievalSuccess : Record := ⟨"retrieval success", 5, false⟩
def paymentSuccess : Record := ⟨"payment success", 10, false⟩

/-- The records the retrieval layer applies, each under its name. -/
def catalogue : List (String × Record) :=
  [("network_error", networkError),
   ("invalid_response", invalidResponse),
   ("invalid_response_after_payment", invalidResponseAfterPayment),
   ("offer_verification_failed", offerVerificationFailed),
   ("retrieval_success", retrievalSuccess),
   ("payment_success", paymentSuccess)]

end Record

/-- One of the two independent flags on a peer. -/
inductive Flag where
  | pending
  | blocked
deriving DecidableEq, Repr

/-- A peer's standing. -/
structure Reputation where
  peerId : String
  score : Int64
  pending : Bool
  blocked : Bool
deriving DecidableEq, Repr, Inhabited

namespace Reputation

def ofPeer (id : String) : Reputation := ⟨id, 0, false, false⟩

/-- Scores stop at the ends of the 64-bit range. -/
def addPoints (r : Reputation) (point : Int64) : Reputation :=
  { r with score := Int64.ofIntClamp (r.score.toInt + point.toInt) }

def flag (r : Reputation) : Flag → Bool
  | .pending => r.pending
  | .blocked => r.blocked

def setFlag (r : Reputation) (flag : Flag) (value : Bool) : Reputation :=
  match flag with
  | .pending => { r with pending := value }
  | .blocked => { r with blocked := value }

end Reputation

end AdminPlane
