import AdminPlane.Server.Dispatch
import AdminPlane.Server.Endpoint

namespace AdminPlane

open Channel (Frame Key KeyError Nonce)

structure ServerConfig where
  addr : String
  key : String
  maxBodySize : Nat
deriving DecidableEq, Repr

def ServerConfig.defaultAddr : String := "127.0.0.1:9010"
def ServerConfig.defaultMaxBodySize : Nat := 64 * 1024 * 1024

/-- The key is never shown. -/
def ServerConfig.debug (c : ServerConfig) : String :=
  "AdminServerConfig \x7b addr: " ++ Text.quoted c.addr ++
    ", key: \"[REDACTED]\", max_body_size: " ++ Decimal.natural c.maxBodySize ++ " \x7d"

inductive StartError where
  | alreadyStarted
  | invalidKey (error : KeyError)
  | bind (addr : String) (source : BindError)
deriving DecidableEq, Repr

namespace StartError

def message : StartError → String
  | alreadyStarted => "admin server already started"
  | invalidKey e => "invalid admin key: " ++ e.message
  | bind addr source => "failed to bind admin server to " ++ addr ++ ": " ++ source.message

/-- The message, then the messages of what caused it. -/
def chain (e : StartError) : List String :=
  e.message :: match e with
    | alreadyStarted => []
    | invalidKey k => [k.message]
    | bind _ source => [source.message]

end StartError

/-- A server that listens. -/
structure Session (σ : Type) where
  endpoint : Endpoint
  dispatch : Dispatch σ

/-- A server that can be started and stopped any number of times. Its handlers are fixed by the
first start. -/
structure Server (σ : Type) where
  config : ServerConfig
  handlers : HandlerTable σ
  frozen : Bool
  session : Option (Session σ)
  tally : Tally

namespace Server

def ofConfig (config : ServerConfig) : Server σ := ⟨config, ∅, false, none, {}⟩

def isRunning (s : Server σ) : Bool := s.session.isSome

def localAddress (s : Server σ) : Option Endpoint := s.session.map (·.endpoint)

/-- Replaces an earlier handler of the type; ignored once the handlers are fixed. -/
def addHandler (s : Server σ) (type : UInt8) (handler : Handler σ) : Server σ :=
  if s.frozen then s else { s with handlers := s.handlers.insert type handler }

def hasHandler (s : Server σ) (type : UInt8) : Bool := s.handlers.contains type

def handlerCount (s : Server σ) : Nat := s.handlers.size

/-- In increasing order. -/
def handledTypes (s : Server σ) : List UInt8 := s.handlers.keys

/-- The key is looked at before the address; `bind` says what listening on it comes to. -/
def start (s : Server σ) (bind : String → Except BindError Endpoint) :
    Except StartError (Server σ) :=
  if s.isRunning then .error .alreadyStarted
  else
    match Key.parse s.config.key with
    | .error e => .error (.invalidKey e)
    | .ok key =>
      match bind s.config.addr with
      | .error e => .error (.bind s.config.addr e)
      | .ok endpoint =>
        .ok { s with
          frozen := true
          session := some ⟨endpoint, ⟨key, s.handlers, s.config.maxBodySize⟩⟩ }

def shutdown (s : Server σ) : Server σ := { s with session := none }

/-- A server that does not run gives no answer. -/
def receive (s : Server σ) (nonce : Nonce) (request : Request) (state : σ) :
    Option Response × Server σ × σ :=
  match s.session with
  | none => (none, s, state)
  | some session =>
    let (response, state, tally) := session.dispatch.handle nonce request state s.tally
    (some response, { s with tally }, state)

/-- The body of a request breaks off on its way to the server. -/
def interrupt (s : Server σ) (request : Request) (cause : String) : Option Response × Server σ :=
  match s.session with
  | none => (none, s)
  | some _ =>
    let (response, tally) := Dispatch.interrupted request cause s.tally
    (some response, { s with tally })

def debug (s : Server σ) : String :=
  "AdminServer \x7b config: " ++ s.config.debug ++ ", handlers: " ++
    Decimal.natural s.handlerCount ++ ", running: " ++ (if s.isRunning then "true" else "false") ++
    " \x7d"

end Server

end AdminPlane
