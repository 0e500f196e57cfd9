import AdminPlane.CommandLine.Program
import AdminPlane.Log.Filter
import AdminPlane.Server.Wire
import Std.Async.DNS
import Std.Async.Signal
import Std.Async.TCP
import Std.Internal.UV.System

namespace AdminPlane.Program

open Channel (Key Nonce)
open CommandLine (AdminOptions Invocation LogOptions NodeOptions Stop)
open Std.Async

def randomBytes (n : Nat) : IO (List UInt8) := do
  return (← IO.getRandomBytes n.toUSize).toList

def randomNonce : IO Nonce := do
  let bytes ← randomBytes Channel.nonceSize
  return .ofFn fun i => bytes.getD i 0

def randomKey : IO Key := do
  let bytes ← randomBytes Channel.keySize
  return ⟨.ofFn fun i => bytes.getD i 0⟩

/-- What a connection says, up to the end of one message. -/
partial def receive (c : TCP.Socket.Client) (before : List UInt8) : Async (Option Wire.Message) := do
  match Wire.Message.decode? before with
  | some m => return some m
  | none =>
    match ← c.recv? 65536 with
    | none => return none
    | some bytes => receive c (before ++ bytes.toList)

def send (c : TCP.Socket.Client) (m : Wire.Message) : Async Unit :=
  c.send ⟨m.encode.toArray⟩

def socketAddress (address : Std.Net.IPAddr) (port : Nat) : Std.Net.SocketAddress :=
  match address with
  | .v4 a => .v4 ⟨a, port.toUInt16⟩
  | .v6 a => .v6 ⟨a, port.toUInt16⟩

def lookUp (host : String) : Async (Option Std.Net.IPAddr) := do
  let name := String.ofList (host.toList.filter fun c => c ≠ '[' ∧ c ≠ ']')
  return (← DNS.getAddrInfo name "").toList.head?

/-- One request on a connection of its own. -/
def exchange (url : String) (request : Request) : IO (Option Response) := do
  match Client.host? url with
  | none => return none
  | some host =>
    let (name, port) :=
      match Endpoint.splitPort host.toList with
      | some (name, port) => (String.ofList name, (Decimal.natural? port).getD 80)
      | none => (host, 80)
    try
      Async.block do
        match ← lookUp name with
        | none => return none
        | some address =>
          let c ← TCP.Socket.Client.mk
          c.connect (socketAddress address port)
          send c (Wire.ofRequest host request)
          return (← receive c []).bind Wire.response?
    catch _ => return none

def printReport (chain : List String) : IO Unit := do
  for (message, place) in chain.zipIdx do
    IO.eprintln ((if place = 0 then "Error: " else "Caused by: ") ++ message)

/-- Writes a line about the node if the filter shows it. -/
def note (logs : LogOptions) (filter : Log.Filter) (message : String) : IO Unit := do
  let target := "fcr_node"
  if filter.shows ⟨target, ["message"], .info⟩ then
    let fields := [("level", Json.string "INFO"), ("message", .string message), ("target", .string target)]
    let line := if logs.json then Text.Utf8.lossy (Json.object fields).compact
      else "INFO " ++ target ++ ": " ++ message
    IO.println line

/-- What stands at a path. -/
def readSource (path : Option String) : IO Settings.Source := do
  match path with
  | none => return .absent
  | some path =>
    try return .contents (← IO.FS.readBinFile path).toList
    catch
      | .noFileOrDirectory .. => return .absent
      | _ => return .unreadable

/-- Answers one connection. A pending registration is completed at once. -/
def answer (node : Node) (c : TCP.Socket.Client) : Async Node := do
  match (← receive c []).bind Wire.request? with
  | none => return node
  | some request =>
    let (response, node) := node.receive (← randomNonce) request
    if let some response := response then send c (Wire.ofResponse response)
    c.shutdown
    return node.completeRegistration

/-- Answers connections one after the other until the stop signal comes. -/
partial def serve (node : Node) (server : TCP.Socket.Server) (stop : Signal.Waiter) : Async Unit := do
  let next ← Selectable.one #[
    .case server.acceptSelector fun c => return some c,
    .case stop.selector fun _ => return none]
  match next with
  | none => return
  | some c =>
    let node ← try answer node c catch _ => pure node
    serve node server stop

def listen (endpoint : Endpoint) : Async TCP.Socket.Server := do
  match ← lookUp endpoint.host with
  | none => throw (IO.userError BindError.unavailable.message)
  | some address =>
    let server ← TCP.Socket.Server.mk
    server.bind (socketAddress address endpoint.port)
    server.listen 128
    return server

def runNode (o : NodeOptions) (environ : List (String × String)) (note : String → IO Unit) :
    IO UInt32 := do
  match o.launch environ (← readSource o.config) Endpoint.resolve with
  | .error e =>
    printReport e.chain
    return 1
  | .ok node =>
    match node.server.localAddress with
    | none => return 1
    | some endpoint =>
      try
        let server ← (listen endpoint).block
        note "admin server listening"
        let stop ← Signal.Waiter.mk .sigint false
        (serve node server stop).block
        note "Received shutdown signal"
        note "node stopped"
        return 0
      catch _ =>
        let e := StartError.bind node.server.config.addr .unavailable
        printReport (CommandLine.NodeFailure.start e).chain
        return 1

def runOperator (o : AdminOptions) : IO UInt32 := do
  match ← o.run (← randomKey) (← randomNonce) (exchange (Client.urlOf o.addr)) with
  | .error e =>
    printReport e.chain
    return 1
  | .ok out =>
    IO.print (Text.Utf8.lossy out)
    return 0

def explain (s : Stop) : IO UInt32 := do
  let usage := "Usage: fcr [OPTIONS] <node|admin> ..."
  match s with
  | .displayHelp => IO.println usage
  | .displayVersion => IO.println CommandLine.version
  | _ => IO.eprintln usage
  return s.exitCode.toUInt32

def run (words : List String) : IO UInt32 := do
  let environ := (← Std.Internal.UV.System.osEnviron).toList
  match Invocation.ofWords (environ.lookup CommandLine.keyVariable) words with
  | .error s => explain s
  | .ok ⟨logs, command⟩ =>
    match Log.Filter.ofOptions logs (environ.lookup Log.Filter.variableName) with
    | none =>
      IO.eprintln "The log filter is cut inside a character."
      return Log.Filter.failureExitCode.toUInt32
    | some filter =>
      match command with
      | .admin o => runOperator o
      | .node o => runNode o environ (note logs filter)

end AdminPlane.Program

def main (words : List String) : IO UInt32 := AdminPlane.Program.run words
