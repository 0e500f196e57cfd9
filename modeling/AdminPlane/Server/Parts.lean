import AdminPlane.Server.Basic

namespace AdminPlane.Server

open Channel (Key)

/-- A server with its parts apart, each of which is read and written on its own. -/
structure Parts (σ : Type) where
  config : ServerConfig
  handlers : HandlerTable σ
  frozen : Bool
  running : Bool
  localAddress : Option Endpoint
  /-- What answers the requests, from a start to a shutdown. -/
  task : Option (Dispatch σ)

namespace Parts

def ofConfig (config : ServerConfig) : Parts σ := ⟨config, ∅, false, false, none, none⟩

def hasHandler (p : Parts σ) (type : UInt8) : Bool := p.handlers.contains type

def handlerCount (p : Parts σ) : Nat := p.handlers.size

def addHandler (type : UInt8) (handler : Handler σ) : StateM (Parts σ) Unit := do
  unless (← get).frozen do
    modify fun p => { p with handlers := p.handlers.insert type handler }

/-- What a start needs, looked at in this order and before anything is written. -/
def prepare (p : Parts σ) (bind : String → Except BindError Endpoint) :
    Except StartError (Key × Endpoint) :=
  if p.task.isSome then .error .alreadyStarted
  else
    match Key.parse p.config.key with
    | .error e => .error (.invalidKey e)
    | .ok key =>
      match bind p.config.addr with
      | .error e => .error (.bind p.config.addr e)
      | .ok endpoint => .ok (key, endpoint)

/-- The handlers are fixed first. What tells that the server runs is written part by part. -/
def launch (key : Key) (endpoint : Endpoint) : StateM (Parts σ) Unit := do
  modify fun p => { p with frozen := true }
  let handlers := (← get).handlers
  modify fun p => { p with localAddress := some endpoint }
  modify fun p => { p with running := true }
  modify fun p => { p with task := some ⟨key, handlers, p.config.maxBodySize⟩ }

def start (bind : String → Except BindError Endpoint) :
    StateM (Parts σ) (Except StartError Endpoint) := do
  match (← get).prepare bind with
  | .error e => return .error e
  | .ok (key, endpoint) =>
    launch key endpoint
    return .ok endpoint

/-- The task is taken out first. Where there was none, nothing else is written. -/
def shutdown : StateM (Parts σ) Unit := do
  let task ← modifyGet fun p => (p.task, { p with task := none })
  if task.isSome then
    modify fun p => { p with running := false }
    modify fun p => { p with localAddress := none }

end Parts

end AdminPlane.Server
