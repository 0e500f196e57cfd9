import AdminPlane.Proofs.Client.Verdict
import AdminPlane.Proofs.Server.Lifecycle

namespace AdminPlane

open Channel (Frame Key Nonce)

variable {σ : Type}

/-- Notes every frame that the handler is run on, newest first. -/
def Handler.noting (type : UInt8) (handler : Handler σ) : Handler (σ × List Frame) :=
  fun payload (s, noted) =>
    let (outcome, t) := handler payload s
    (outcome, t, ⟨type, payload⟩ :: noted)

theorem Handler.noting_apply (type : UInt8) (handler : Handler σ) (payload : List UInt8) (s : σ)
    (noted : List Frame) : handler.noting type payload (s, noted) =
      ((handler payload s).1, (handler payload s).2, ⟨type, payload⟩ :: noted) := rfl

/-- The same handlers, each of which notes what it is run on. -/
def HandlerTable.noting (table : HandlerTable σ) : HandlerTable (σ × List Frame) :=
  table.map Handler.noting

namespace Server

/-- The way to a server and back, with the nonce of its answer. -/
def exchange (answered : Nonce) (request : Request) : StateM (Server σ × σ) (Option Response) :=
  fun (server, s) => server.receive answered request s

/-- A request of a client to a server: what comes of it, and the server and the state behind it. -/
def call (server : Server σ) (c : Client) (asked answered : Nonce) (frame : Frame) (s : σ) :
    Except ClientError Frame × Server σ × σ :=
  (c.request asked frame (exchange answered)).run (server, s)

theorem call_of_receive {server server' : Server σ} {c : Client} {asked answered : Nonce}
    {frame : Frame} {r : Response} {s t : σ}
    (h : server.receive answered (c.post asked frame) s = (some r, server', t)) :
    server.call c asked answered frame s = (c.verdict r, server', t) := by
  have hrun : (exchange answered (c.post asked frame)).run (server, s) =
      pure (some r, server', t) := h
  simp only [call, Client.request, StateT.run_bind, hrun, pure_bind]
  rfl

/-- A client finds at a server what the handler of its frame says, and the handler is run once, on
the frame as it is. No handler is run on a frame that is too long or of a type that has none. -/
structure Relays (server : Server (σ × List Frame)) (table : HandlerTable σ) (c : Client)
    (asked answered : Nonce) (frame : Frame) (s : σ) (noted : List Frame) : Prop where
  sealed : (c.post asked frame).body.length = 29 + frame.payload.length
  tooLong : server.config.maxBodySize < 29 + frame.payload.length →
    (server.call c asked answered frame (s, noted)).1 =
        .error (.rejected 413 "Failed to buffer the request body: length limit exceeded") ∧
      (server.call c asked answered frame (s, noted)).2.2 = (s, noted)
  unsupported : 29 + frame.payload.length ≤ server.config.maxBodySize →
    table[frame.type]? = none →
    (server.call c asked answered frame (s, noted)).1 =
        .error (.rejected 400 ("unsupported message type: " ++ Decimal.natural frame.type.toNat)) ∧
      (server.call c asked answered frame (s, noted)).2.2 = (s, noted)
  handled : 29 + frame.payload.length ≤ server.config.maxBodySize →
    ∀ handler, table[frame.type]? = some handler →
    (server.call c asked answered frame (s, noted)).2.2 =
        ((handler frame.payload s).2, frame :: noted) ∧
      (∀ reply, (handler frame.payload s).1 = .reply reply →
        (server.call c asked answered frame (s, noted)).1 = .ok reply) ∧
      ∀ m, (handler frame.payload s).1 = .refuse m →
        ∃ response, (server.receive answered (c.post asked frame) (s, noted)).1 = some response ∧
          response.status = 400 ∧
          (server.call c asked answered frame (s, noted)).1 = .error
            (if m = Channel.verifyFailure then .unauthenticated m
              else .rejected response.status m)

section Link

variable {config : ServerConfig} {server : Server σ} {c : Client} (h : Reachable config server)
  (running : server.isRunning = true) (key : Key.parse config.key = .ok c.key) (root : c.AtRoot)
include h running key root

theorem receive_post (asked answered : Nonce) (frame : Frame) (s : σ) :
    let result := (server.dispatch c.key).process (c.key.sealFrame asked frame) s
    ∃ tally, server.receive answered (c.post asked frame) s =
      (some (.ofResult c.key answered result.1), { server with tally }, result.2) := by
  rw [← (reachable_invariant h).configured] at key
  exact receive_root h running key (root.path asked frame) rfl answered s

/-- The frame of a client comes to its server. -/
theorem hears_post (asked : Nonce) {frame : Frame}
    (hfits : 29 + frame.payload.length ≤ server.config.maxBodySize) :
    server.Hears (c.post asked frame) frame := by
  rw [← (reachable_invariant h).configured] at key
  have hopen := c.key.openFrame_sealFrame asked frame
  refine ⟨running, root.path asked frame, rfl, ?_, c.key, key, hopen⟩
  rwa [Client.post, Key.length_sealFrame]

end Link

/-- A client that goes elsewhere is told that nothing is there, and no handler is run. -/
theorem call_elsewhere {config : ServerConfig} {server : Server σ} {c : Client}
    (h : Reachable config server) (running : server.isRunning = true) (elsewhere : ¬ c.AtRoot)
    (asked answered : Nonce) (frame : Frame) (s : σ) :
    (server.call c asked answered frame s).1 = .error (.rejected 404 "") ∧
      (server.call c asked answered frame s).2.2 = s := by
  obtain ⟨session, _, hsession, _⟩ := session_dispatch h running
  have hpath : (c.post asked frame).path ≠ "/" := fun hpath => elsewhere <| by
    rw [Request.path] at hpath
    exact String.ofList_inj.mp hpath
  have hhandle : session.dispatch.handle answered (c.post asked frame) s server.tally =
      (.empty 404, s, server.tally) := by
    rw [Dispatch.handle, Dispatch.route, if_pos hpath]
  have hreceive : server.receive answered (c.post asked frame) s =
      (some (.empty 404), server, s) := by
    rw [receive_running hsession, hhandle]
  rw [call_of_receive hreceive]
  exact ⟨rfl, rfl⟩

/-- Whatever the handlers are, a client that holds the key of a running server and goes to its root,
the one place it answers at, deals with them as if nothing were in between. -/
theorem channel_transparent {config : ServerConfig} {server : Server (σ × List Frame)}
    {table : HandlerTable σ} {c : Client} (h : Reachable config server)
    (running : server.isRunning = true) (handlers : server.handlers = table.noting)
    (key : Key.parse config.key = .ok c.key) (root : c.AtRoot) (asked answered : Nonce)
    (frame : Frame) (s : σ) (noted : List Frame) :
    server.Relays table c asked answered frame s noted := by
  let d := server.dispatch c.key
  have hlength : (c.key.sealFrame asked frame).length = 29 + frame.payload.length :=
    c.key.length_sealFrame asked frame
  have hopen := c.key.openFrame_sealFrame asked frame
  have hentry : d.handlers[frame.type]? = table[frame.type]?.map (Handler.noting frame.type) := by
    simp only [d, dispatch, handlers, HandlerTable.noting, Std.ExtTreeMap.getElem?_map]
  obtain ⟨tally, hreceive⟩ := receive_post h running key root asked answered frame (s, noted)
  have hcall := call_of_receive hreceive
  refine ⟨hlength, fun hlong => ?_, fun hfits hnone => ?_, fun hfits handler hsome => ?_⟩
  · have hprocess := Dispatch.process_tooLong (d := d) (hlength ▸ hlong) (s, noted)
    rw [hcall, hprocess]
    exact ⟨c.verdict_rejection .bodyTooLong, rfl⟩
  · have hprocess := Dispatch.process_opened (d := d) (hlength ▸ hfits) hopen (s, noted)
    rw [hentry, hnone] at hprocess
    rw [hcall, hprocess]
    refine ⟨(c.verdict_rejection (.unsupportedType frame.type)).trans ?_, rfl⟩
    exact congrArg Except.error
      (if_neg fun hm => Client.append_ne_verifyFailure rfl (by decide) _ hm.2)
  · have hprocess := Dispatch.process_opened (d := d) (hlength ▸ hfits) hopen (s, noted)
    rw [hentry, hsome, Option.map_some] at hprocess
    simp only [Handler.noting_apply] at hprocess
    rw [hreceive, hcall, hprocess]
    refine ⟨rfl, fun reply hreply => ?_, fun m hrefuse => ?_⟩
    · rw [hreply]
      exact c.verdict_reply answered reply
    · rw [hrefuse]
      refine ⟨(Rejection.handler m).response, rfl, rfl, ?_⟩
      refine (c.verdict_rejection (.handler m)).trans (congrArg Except.error ?_)
      by_cases hm : m = Channel.verifyFailure
      · rw [if_pos ⟨rfl, hm⟩, if_pos hm]
        rfl
      · rw [if_neg fun h => hm h.2, if_neg hm]
        rfl

/-- A server that counts its requests and refuses an empty one with the sentence that stands for a
request that does not verify. Its key is spelled otherwise than the one of its client. -/
def sampleConfig : ServerConfig where
  addr := "127.0.0.1:9010"
  key := " 0x0000000000000000000000000000000000000000000000000000000000000000\n"
  maxBodySize := 40

def sampleHandler : Handler Nat := fun payload n =>
  (if payload = [] then .refuse Channel.verifyFailure else .reply ⟨11, []⟩, n + 1)

def sampleTable : HandlerTable Nat := (∅ : HandlerTable Nat).insert 10 sampleHandler

def sampleServer : Server (Nat × List Frame) where
  config := sampleConfig
  handlers := (∅ : HandlerTable (Nat × List Frame)).insert 10 (sampleHandler.noting 10)
  frozen := true
  session := some ⟨⟨"127.0.0.1", 9010⟩, ⟨⟨Vector.replicate 32 0⟩,
    (∅ : HandlerTable (Nat × List Frame)).insert 10 (sampleHandler.noting 10), 40⟩⟩
  tally := {}

def sampleClient : Client := ⟨"http://127.0.0.1:9010", ⟨Vector.replicate 32 0⟩⟩

def sampleNonce : Nonce := Vector.replicate 12 0

theorem reachable_sampleServer : Reachable sampleConfig sampleServer :=
  .start (.addHandler .ofConfig 10 (sampleHandler.noting 10))
    (fun _ => .ok ⟨"127.0.0.1", 9010⟩) rfl

theorem sample_relays : Reachable sampleConfig sampleServer ∧ sampleServer.isRunning = true ∧
    sampleServer.handlers = sampleTable.noting ∧
    Key.parse sampleConfig.key = .ok sampleClient.key ∧ sampleClient.AtRoot ∧
    sampleServer.Relays sampleTable sampleClient sampleNonce sampleNonce ⟨10, []⟩ 0 [] := by
  have hhandlers : sampleServer.handlers = sampleTable.noting := by
    apply Std.ExtTreeMap.ext_getElem?
    intro type
    simp only [sampleServer, sampleTable, HandlerTable.noting, Std.ExtTreeMap.getElem?_map,
      Std.ExtTreeMap.getElem?_insert, Std.LawfulEqCmp.compare_eq_iff_eq]
    split
    · rename_i htype
      subst htype
      rfl
    · rfl
  have hkey : Key.parse sampleConfig.key = .ok sampleClient.key := rfl
  have hroot : sampleClient.AtRoot := rfl
  exact ⟨reachable_sampleServer, rfl, hhandlers, hkey, hroot,
    channel_transparent reachable_sampleServer rfl hhandlers hkey hroot sampleNonce sampleNonce
      ⟨10, []⟩ 0 []⟩

end Server

end AdminPlane
