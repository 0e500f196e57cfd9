import AdminPlane.Payload.Messages

namespace AdminPlane.CommandLine

/-- Why a command line asks for no work: it is wrong, or it asks for help. -/
inductive Stop where
  | displayHelp
  | displayVersion
  | displayHelpOnMissing
  | unknownArgument
  | invalidSubcommand
  | missingSubcommand
  | invalidValue
  | valueValidation
  | tooManyValues
  | argumentConflict
  | missingRequiredArgument
deriving DecidableEq, Repr

namespace Stop

/-- Help that was asked for is no failure. -/
def isFailure : Stop → Bool
  | displayHelp | displayVersion => false
  | _ => true

def exitCode (s : Stop) : Nat := if s.isFailure then 2 else 0

end Stop

/-- A command or a command of a command. -/
inductive Level where
  | program
  | node
  | admin
  | init
  | listPeers
  | inspectPeer
  | changePeerStatus
  | generateKey
deriving DecidableEq, Repr

/-- The options and the positional arguments, those of different levels apart. -/
inductive Slot where
  | quiet
  | verbosity
  | logFilter
  | logJson
  | config
  | nodeAddr
  | nodeKey
  | maxBodySize
  | adminAddr
  | adminKey
  | nodeId
  | privateKey
  | keyVersion
  | peerId
  | first
  | last
  | status
deriving DecidableEq, Repr

/-- What a command line says on a slot. -/
inductive Argument where
  | flag
  | count (n : Nat)
  | text (s : String)
  | number (n : Nat)
  | status (s : Payload.PeerStatus)
deriving DecidableEq, Repr

namespace Slot

/-- Options are written with two hyphens before this name; positional arguments have none. -/
def long? : Slot → Option String
  | quiet => some "quiet"
  | verbosity => some "verbosity"
  | logFilter => some "log.filter"
  | logJson => some "log.json"
  | config => some "config"
  | nodeAddr => some "admin.addr"
  | nodeKey => some "admin.key"
  | maxBodySize => some "admin.max-body-size"
  | adminAddr => some "addr"
  | adminKey => some "key"
  | nodeId => some "node-id"
  | privateKey => some "private-key"
  | keyVersion => some "key-version"
  | first => some "from"
  | last => some "to"
  | peerId | status => none

def letter? : Slot → Option Char
  | quiet => some 'q'
  | verbosity => some 'v'
  | _ => none

/-- The others need no word behind them. -/
def takesValue : Slot → Bool
  | quiet | verbosity | logJson => false
  | _ => true

/-- A number that may be written with a sign, if it fits 64 bits with the sign and `bound`
without one. -/
def signedBelow (bound : Nat) (s : List Char) : Option Nat :=
  match Decimal.signed64? s with
  | some (.ofNat n) => if n < bound then some n else none
  | _ => none

/-- Reads a word; a path may not be empty, and any text will do where nothing else is asked for. -/
def read (slot : Slot) (word : String) : Except Stop Argument :=
  let number (n : Option Nat) : Except Stop Argument := n.elim (.error .valueValidation) (.ok <| .number ·)
  match slot with
  | config => if word = "" then .error .invalidValue else .ok (.text word)
  | maxBodySize | first | last => number (Decimal.unsigned? UInt64.size word.toList)
  | keyVersion => number (signedBelow UInt32.size word.toList)
  | status =>
    match Payload.PeerStatus.ofText? word with
    | some s => .ok (.status s)
    | none => .error .valueValidation
  | _ => .ok (.text word)

end Slot

namespace Level

def children : Level → List (String × Level)
  | program => [("node", node), ("admin", admin)]
  | admin =>
    [("init", init), ("list-peers", listPeers), ("inspect-peer", inspectPeer),
     ("change-peer-status", changePeerStatus), ("generate-key", generateKey)]
  | _ => []

def child? (l : Level) (name : String) : Option Level := l.children.lookup name

/-- Every level takes the logging options. -/
def options (l : Level) : List Slot :=
  (match l with
    | node => [.config, .nodeAddr, .nodeKey, .maxBodySize]
    | admin => [.adminAddr, .adminKey]
    | init => [.nodeId, .privateKey, .keyVersion]
    | inspectPeer => [.first, .last]
    | _ => []) ++ [.quiet, .verbosity, .logFilter, .logJson]

def option? (l : Level) (name : String) : Option Slot :=
  l.options.find? fun s => s.long? = some name

def letterOption? (l : Level) (c : Char) : Option Slot :=
  l.options.find? fun s => s.letter? = some c

def positionals : Level → List Slot
  | inspectPeer => [.peerId]
  | changePeerStatus => [.peerId, .status]
  | _ => []

def required : Level → List Slot
  | init => [.nodeId, .privateKey]
  | inspectPeer => [.peerId]
  | changePeerStatus => [.peerId, .status]
  | _ => []

/-- The option that the environment may give if the command line does not. -/
def environmentSlot? : Level → Option Slot
  | node => some .nodeKey
  | admin => some .adminKey
  | _ => none

/-- Whether one of the commands of the level has to follow. -/
def needsChild (l : Level) : Bool := l.children ≠ []

end Level

end AdminPlane.CommandLine
