import AdminPlane.Proofs.Server.Relay

namespace AdminPlane

open Channel (Frame Key Nonce)

/-- A handler can say what stands for a request that does not verify; nothing else a server says
can be taken for it. -/
theorem Rejection.blames_iff (r : Rejection) :
    (r.status = 400 ∧ r.message = Channel.verifyFailure) ↔
      r = .unverified ∨ r = .handler Channel.verifyFailure := by
  have hunsupported : "unsupported message type: ".toList.head? = some 'u' := rfl
  have hbroken : "Failed to buffer the request body: ".toList.head? = some 'F' := rfl
  have hcrashed : "handler task failed: task N panicked with message ".toList.head? = some 'h' :=
    rfl
  constructor
  · rintro ⟨hstatus, hmessage⟩
    cases r with
    | unverified => exact .inl rfl
    | unsupportedType type =>
      exact absurd hmessage (Client.append_ne_verifyFailure hunsupported (by decide) _)
    | handler m => exact .inr (congrArg handler hmessage)
    | bodyTooLong => cases hstatus
    | bodyBroken cause =>
      exact absurd hmessage (Client.append_ne_verifyFailure hbroken (by decide) _)
    | crashed m => exact absurd hmessage (Client.append_ne_verifyFailure hcrashed (by decide) _)
  · rintro (rfl | rfl)
    · exact ⟨rfl, rfl⟩
    · exact ⟨rfl, rfl⟩

theorem Client.verdict_unauthenticated (c : Client) (key : Key) (nonce : Nonce)
    (result : Except Rejection Frame) :
    (∃ m, c.verdict (.ofResult key nonce result) = .error (.unauthenticated m)) ↔
      result = .error .unverified ∨ result = .error (.handler Channel.verifyFailure) := by
  cases result with
  | ok frame =>
    have hsuccess : (Response.ofResult key nonce (.ok frame)).isSuccess = true := rfl
    rw [verdict, hsuccess, if_neg (by simp)]
    constructor
    · rintro ⟨m, h⟩
      split at h
      · cases h
      · split at h
        all_goals cases h
    · intro h
      simp at h
  | error r =>
    rw [Response.ofResult, c.verdict_rejection r, Except.error.injEq, Except.error.injEq,
      ← r.blames_iff]
    split
    · rename_i hblames
      exact ⟨fun _ => hblames, fun _ => ⟨_, rfl⟩⟩
    · rename_i hnot
      constructor
      · rintro ⟨m, h⟩
        cases h
      · exact fun h => absurd h hnot

namespace Dispatch

variable {σ : Type} (d : Dispatch σ) (body : List UInt8) (s : σ)

theorem process_unverified : (d.process body s).1 = .error .unverified ↔
    body.length ≤ d.maxBodySize ∧ ∃ e, d.key.openFrame body = .error e := by
  by_cases hfits : body.length ≤ d.maxBodySize
  · cases hopen : d.key.openFrame body with
    | error e => simp [process_unopened hfits hopen, hfits]
    | ok frame =>
      rw [process_opened hfits hopen]
      cases d.handlers[frame.type]? with
      | none => simp
      | some handler =>
        dsimp only
        cases (handler frame.payload s).1
        all_goals simp [Outcome.result]
  · simp [process_tooLong (Nat.lt_of_not_le hfits), hfits]

/-- A frame comes to a handler, which refuses it. -/
theorem process_refused (m : String) : (d.process body s).1 = .error (.handler m) ↔
    body.length ≤ d.maxBodySize ∧ ∃ frame handler, d.key.openFrame body = .ok frame ∧
      d.handlers[frame.type]? = some handler ∧ (handler frame.payload s).1 = .refuse m := by
  by_cases hfits : body.length ≤ d.maxBodySize
  · cases hopen : d.key.openFrame body with
    | error e => simp [process_unopened hfits hopen]
    | ok frame =>
      rw [process_opened hfits hopen]
      cases hhandler : d.handlers[frame.type]? with
      | none => simp [hhandler]
      | some handler =>
        dsimp only
        cases houtcome : (handler frame.payload s).1
        all_goals simp [Outcome.result, hfits, hhandler, houtcome]
  · simp [process_tooLong (Nat.lt_of_not_le hfits), hfits]

end Dispatch

namespace Server

variable {σ : Type}

/-- A client takes a request for one that did not authenticate where the server could not open it, and
where a handler that refuses it says so in the one sentence that stands for that. All else that a
handler says to refuse a request is reported as it is. -/
structure Blames (server : Server σ) (key : Key) (c : Client) (asked answered : Nonce)
    (frame : Frame) (s : σ) : Prop where
  blamed : (∃ m, (server.call c asked answered frame s).1 = .error (.unauthenticated m)) ↔
    c.AtRoot ∧ (c.key.sealFrame asked frame).length ≤ server.config.maxBodySize ∧
      ((∃ e, key.openFrame (c.key.sealFrame asked frame) = .error e) ∨
        ∃ opened handler, key.openFrame (c.key.sealFrame asked frame) = .ok opened ∧
          server.handlers[opened.type]? = some handler ∧
          (handler opened.payload s).1 = .refuse Channel.verifyFailure)
  reported : c.AtRoot → (c.key.sealFrame asked frame).length ≤ server.config.maxBodySize →
    ∀ opened handler m, key.openFrame (c.key.sealFrame asked frame) = .ok opened →
      server.handlers[opened.type]? = some handler →
      (handler opened.payload s).1 = .refuse m → m ≠ Channel.verifyFailure →
      (server.call c asked answered frame s).1 = .error (.rejected 400 m)

/-- Whatever the handlers are, and whatever key the client has. -/
theorem blames {config : ServerConfig} {server : Server σ} {key : Key}
    (h : Reachable config server) (running : server.isRunning = true)
    (hkey : Key.parse config.key = .ok key) (c : Client) (asked answered : Nonce) (frame : Frame)
    (s : σ) : server.Blames key c asked answered frame s := by
  rw [← (reachable_invariant h).configured] at hkey
  have hresult : c.AtRoot → (server.call c asked answered frame s).1 = c.verdict
      (.ofResult key answered
        ((server.dispatch key).process (c.key.sealFrame asked frame) s).1) := by
    intro root
    obtain ⟨tally, hreceive⟩ :=
      receive_root h running hkey (root.path asked frame) rfl answered s
    rw [call_of_receive hreceive]
    rfl
  refine ⟨?_, fun root hfits opened handler m hopen hhandler hrefuse hm => ?_⟩
  · by_cases root : c.AtRoot
    · rw [hresult root, c.verdict_unauthenticated, Dispatch.process_unverified,
        Dispatch.process_refused, ← and_or_left]
      exact (and_iff_right root).symm
    · rw [(call_elsewhere h running root asked answered frame s).1]
      constructor
      · rintro ⟨m, hm⟩
        cases hm
      · exact fun hroot => absurd hroot.1 root
  · have hprocess := (Dispatch.process_refused (server.dispatch key) _ s m).mpr
      ⟨hfits, opened, handler, hopen, hhandler, hrefuse⟩
    rw [hresult root, hprocess]
    exact (c.verdict_rejection (.handler m)).trans
      (congrArg Except.error (if_neg fun hblames => hm hblames.2))

/-- A server whose one handler refuses all requests as if it were the channel that did. -/
def feignedConfig : ServerConfig where
  addr := "127.0.0.1:9010"
  key := "abababababababababababababababababababababababababababababababab"
  maxBodySize := ServerConfig.defaultMaxBodySize

def feignedHandler : Handler Unit := fun _ s => (.refuse Channel.verifyFailure, s)

def feignedKey : Key := ⟨Vector.replicate 32 0xAB⟩

def feignedServer : Server Unit where
  config := feignedConfig
  handlers := (∅ : HandlerTable Unit).insert 1 feignedHandler
  frozen := true
  session := some ⟨⟨"127.0.0.1", 9010⟩, ⟨feignedKey, (∅ : HandlerTable Unit).insert 1 feignedHandler,
    ServerConfig.defaultMaxBodySize⟩⟩
  tally := {}

def feignedClient : Client := ⟨"http://127.0.0.1:9010", feignedKey⟩

def feignedNonce : Nonce := Vector.replicate 12 0

theorem reachable_feignedServer : Reachable feignedConfig feignedServer :=
  .start (.addHandler .ofConfig 1 feignedHandler) (fun _ => .ok ⟨"127.0.0.1", 9010⟩) rfl

theorem feigned_blames : Reachable feignedConfig feignedServer ∧ feignedServer.isRunning = true ∧
    Key.parse feignedConfig.key = .ok feignedKey ∧
    feignedServer.Blames feignedKey feignedClient feignedNonce feignedNonce ⟨1, []⟩ () := by
  have hkey : Key.parse feignedConfig.key = .ok feignedKey := rfl
  exact ⟨reachable_feignedServer, rfl, hkey,
    blames reachable_feignedServer rfl hkey feignedClient feignedNonce feignedNonce ⟨1, []⟩ ()⟩

/-- The request opens, and its handler alone refuses it; yet the client is told that it did not
authenticate. -/
theorem opened_yet_blamed : Reachable feignedConfig feignedServer ∧
    feignedServer.isRunning = true ∧ Key.parse feignedConfig.key = .ok feignedKey ∧
    feignedKey.openFrame (feignedClient.post feignedNonce ⟨1, []⟩).body = .ok ⟨1, []⟩ ∧
    feignedServer.handlers[(1 : UInt8)]? = some feignedHandler ∧
    (feignedHandler [] ()).1 = .refuse "request fails to verify" ∧
    (feignedServer.call feignedClient feignedNonce feignedNonce ⟨1, []⟩ ()).1 =
      .error (.unauthenticated "request fails to verify") := by
  have hkey : Key.parse feignedConfig.key = .ok feignedKey := rfl
  have hopen := feignedKey.openFrame_sealFrame feignedNonce ⟨1, []⟩
  have hlength : (feignedKey.sealFrame feignedNonce ⟨1, []⟩).length ≤
      (feignedServer.dispatch feignedKey).maxBodySize := by
    rw [Key.length_sealFrame]
    decide
  have hhandler : feignedServer.handlers[(1 : UInt8)]? = some feignedHandler :=
    Std.ExtTreeMap.getElem?_insert_self
  obtain ⟨tally, hreceive⟩ := receive_post reachable_feignedServer rfl (c := feignedClient) hkey
    rfl feignedNonce feignedNonce ⟨1, []⟩ ()
  have hprocess := Dispatch.process_opened (d := feignedServer.dispatch feignedKey) hlength hopen ()
  have hentry : (feignedServer.dispatch feignedKey).handlers[(1 : UInt8)]? = some feignedHandler :=
    hhandler
  rw [hentry] at hprocess
  refine ⟨reachable_feignedServer, rfl, hkey, hopen, hhandler, rfl, ?_⟩
  rw [call_of_receive hreceive]
  have hresult : ((feignedServer.dispatch feignedClient.key).process
      (feignedClient.key.sealFrame feignedNonce ⟨1, []⟩) ()).1 =
        .error (.handler Channel.verifyFailure) := congrArg Prod.fst hprocess
  rw [hresult]
  exact feignedClient.verdict_rejection (.handler Channel.verifyFailure)

end Server

end AdminPlane
