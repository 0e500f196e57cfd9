import AdminPlane.Channel.Key
import AdminPlane.Text.Quoted

namespace AdminPlane

/-- Who the node is, as an operator told it. -/
structure Identity where
  nodeId : String
  privateKey : String
  keyVersion : UInt32
deriving DecidableEq, Repr

inductive Phase where
  | awaitingInitialisation
  | pendingRegistration
  | registered
deriving DecidableEq, Repr

def Phase.text : Phase → String
  | awaitingInitialisation => "awaiting initialisation"
  | pendingRegistration => "pending registration"
  | registered => "registered"

inductive RegistrationError where
  | emptyNodeId
  | badPrivateKey
  | alreadyInitialised (phase : Phase)
  | notPending (phase : Phase)
deriving DecidableEq, Repr

def RegistrationError.message : RegistrationError → String
  | emptyNodeId => "invalid identity: empty node id"
  | badPrivateKey => "invalid identity: private key must be non-empty hex"
  | alreadyInitialised phase => "node already initialised (" ++ phase.text ++ ")"
  | notPending phase => "registration is not pending (" ++ phase.text ++ ")"

namespace Identity

/-- Hex digits in pairs, one at least, behind a mark or not; blanks are not removed. -/
def isPrivateKey (s : String) : Bool :=
  let digits := Channel.withoutMark s.toList
  digits ≠ [] && (Text.Hex.decode? digits).isSome

/-- The id may not be blank, and the key has to be a private key. -/
def check (nodeId privateKey : String) (keyVersion : UInt32) :
    Except RegistrationError Identity :=
  if Text.trim nodeId.toList = [] then .error .emptyNodeId
  else if isPrivateKey privateKey then .ok ⟨nodeId, privateKey, keyVersion⟩
  else .error .badPrivateKey

/-- The private key is never shown. -/
def debug (i : Identity) : String :=
  "NodeIdentity \x7b node_id: " ++ Text.quoted i.nodeId ++
    ", private_key: \"[REDACTED]\", key_version: " ++ Decimal.natural i.keyVersion.toNat ++ " \x7d"

end Identity

/-- How far registration has come. -/
inductive Progress where
  | awaiting
  | pending (identity : Identity)
  | registered (identity : Identity)
deriving DecidableEq, Repr

def Progress.phase : Progress → Phase
  | awaiting => .awaitingInitialisation
  | pending _ => .pendingRegistration
  | registered _ => .registered

def Progress.identity? : Progress → Option Identity
  | awaiting => none
  | pending i => some i
  | registered i => some i

/-- The registration of a node, with the number of phases it has entered since the start. -/
structure Registration where
  progress : Progress
  steps : Nat
deriving DecidableEq, Repr

/-- An observer's place: how many of the steps it has seen. -/
structure Watcher where
  seen : Nat
deriving DecidableEq, Repr

namespace Registration

def start : Registration := ⟨.awaiting, 0⟩

def phase (r : Registration) : Phase := r.progress.phase

def isRegistered (r : Registration) : Bool := r.phase = .registered

def identity? (r : Registration) : Option Identity := r.progress.identity?

/-- Only before any initialisation. -/
def initialise (r : Registration) (identity : Identity) : Except RegistrationError Registration :=
  match r.progress with
  | .awaiting => .ok ⟨.pending identity, r.steps + 1⟩
  | _ => .error (.alreadyInitialised r.phase)

/-- Only while registration is pending. -/
def acknowledge (r : Registration) : Except RegistrationError Registration :=
  match r.progress with
  | .pending identity => .ok ⟨.registered identity, r.steps + 1⟩
  | _ => .error (.notPending r.phase)

def watch (r : Registration) : Watcher := ⟨r.steps⟩

/-- Whether a phase was entered since the last look, and the phase. -/
def observe (r : Registration) (w : Watcher) : Bool × Phase × Watcher :=
  (w.seen ≠ r.steps, r.phase, ⟨r.steps⟩)

end Registration

end AdminPlane
