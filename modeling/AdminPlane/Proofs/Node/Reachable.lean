import AdminPlane.Node.Basic
import AdminPlane.Proofs.Ledger.Consistency
import AdminPlane.Proofs.Server.Lifecycle

namespace AdminPlane

open Channel (Key MessageType Nonce)

namespace NodeState

/-- What work on a node can come to: mutations of its ledger and steps of its registration. The
order in which the ledger lists its peers may be another at any time. -/
inductive Leads (s : NodeState) : NodeState → Prop
  | refl : Leads s s
  | mutate {t : NodeState} (m : Mutation) (h : Leads s t) :
      Leads s { t with ledger := t.ledger.apply m }
  | reorder {t : NodeState} (order : KeyOrder) (h : Leads s t) :
      Leads s { t with ledger := { t.ledger with order } }
  | initialise {t : NodeState} {identity : Identity} {registration : Registration}
      (h : Leads s t) (accepted : t.registration.initialise identity = .ok registration) :
      Leads s { t with registration }
  | acknowledge {t : NodeState} {registration : Registration} (h : Leads s t)
      (pending : t.registration.acknowledge = .ok registration) : Leads s { t with registration }

theorem Leads.sound {s t : NodeState} (h : s.Leads t) (hs : s.ledger.accounts.Sound) :
    t.ledger.accounts.Sound := by
  induction h with
  | refl => exact hs
  | mutate m _ ih =>
    rw [Ledger.apply_accounts]
    exact ih.apply m
  | reorder _ _ ih => exact ih
  | initialise _ _ ih => exact ih
  | acknowledge _ _ ih => exact ih

theorem Leads.trans {s t u : NodeState} (h : s.Leads t) (h' : t.Leads u) : s.Leads u := by
  induction h' with
  | refl => exact h
  | mutate m _ ih => exact .mutate m ih
  | reorder order _ ih => exact .reorder order ih
  | initialise _ accepted ih => exact .initialise ih accepted
  | acknowledge _ pending ih => exact .acknowledge ih pending

/-- A handler that works on the node by its operations alone. -/
def Lawful (handler : Handler NodeState) : Prop :=
  ∀ (payload : List UInt8) (s : NodeState), s.Leads (handler payload s).2

theorem lawful_initialise : Lawful initialise := by
  intro payload s
  unfold initialise
  split
  · exact .refl
  · dsimp only
    split
    · exact .refl
    · rename_i request _ _ registration haccepted
      cases hcheck : Identity.check request.nodeId request.privateKey request.keyVersion with
      | error e =>
        rw [hcheck] at haccepted
        cases haccepted
      | ok identity =>
        rw [hcheck] at haccepted
        exact .initialise .refl haccepted

theorem lawful_whenRegistered {α : Type} [Payload α] {act : α → NodeState → Outcome × NodeState}
    (h : ∀ request (s : NodeState), s.Leads (act request s).2) : Lawful (whenRegistered α act) := by
  intro payload s
  unfold whenRegistered
  split
  · split
    · exact .refl
    · exact h _ s
  · exact .refl

theorem lawful_changePeerStatus : Lawful changePeerStatus :=
  lawful_whenRegistered fun request s => by
    split
    · exact .mutate _ .refl
    · exact .refl

/-- A node acts on itself by its own operations. -/
theorem lawful_handlers : ∀ entry ∈ handlers, Lawful entry.2 := by
  simp only [handlers, List.forall_mem_cons, List.not_mem_nil, false_implies, implies_true,
    and_true]
  exact ⟨lawful_initialise, lawful_whenRegistered fun _ _ => .refl,
    lawful_whenRegistered fun _ _ => .refl, lawful_changePeerStatus⟩

/-- A table that holds the handlers of a node, and lawful ones besides. -/
structure Serves (table : HandlerTable NodeState) : Prop where
  own : ∀ entry ∈ handlers, table[entry.1.toByte]? = some entry.2
  lawful : ∀ (type : UInt8) handler, table[type]? = some handler → Lawful handler

theorem Serves.insert {table : HandlerTable NodeState} (h : Serves table) {type : UInt8}
    {handler : Handler NodeState} (hlawful : Lawful handler)
    (hforeign : ∀ entry ∈ handlers, entry.1.toByte ≠ type) :
    Serves (table.insert type handler) := by
  refine ⟨fun entry hm => ?_, fun t f hf => ?_⟩
  · rw [Std.ExtTreeMap.getElem?_insert, if_neg, h.own entry hm]
    rw [Std.LawfulEqCmp.compare_eq_iff_eq]
    exact (hforeign entry hm).symm
  · rw [Std.ExtTreeMap.getElem?_insert] at hf
    split at hf
    · cases hf
      exact hlawful
    · exact h.lawful t f hf

end NodeState

namespace Node

/-- The states of a node with a configuration: it starts with nothing and runs by its operations.
A handler may be added beside the node's own ones. -/
inductive Reachable (config : ServerConfig) : Node → Prop
  | ofConfig : Reachable config (.ofConfig config)
  | act {n : Node} {s : NodeState} (h : Reachable config n) (work : n.state.Leads s) :
      Reachable config { n with state := s }
  | addHandler {n : Node} (h : Reachable config n) (type : UInt8) (handler : Handler NodeState)
      (lawful : NodeState.Lawful handler)
      (foreign : ∀ entry ∈ NodeState.handlers, entry.1.toByte ≠ type) :
      Reachable config { n with server := n.server.addHandler type handler }
  | start {n m : Node} (h : Reachable config n) (bind : String → Except BindError Endpoint)
      (started : n.start bind = .ok m) : Reachable config m
  | shutdown {n : Node} (h : Reachable config n) : Reachable config n.shutdown
  | receive {n : Node} (h : Reachable config n) (nonce : Nonce) (request : Request) :
      Reachable config (n.receive nonce request).2

theorem start_eq_ok {n m : Node} {bind : String → Except BindError Endpoint}
    (started : n.start bind = .ok m) :
    ∃ server, n.server.start bind = .ok server ∧ m = { n with server } := by
  unfold Node.start at started
  cases hserver : n.server.start bind with
  | error e =>
    rw [hserver] at started
    cases started
  | ok server =>
    rw [hserver] at started
    cases started
    exact ⟨server, rfl, rfl⟩

theorem receive_eq (n : Node) (nonce : Nonce) (request : Request) :
    (n.receive nonce request).2 = ⟨(n.server.receive nonce request n.state).2.2,
      (n.server.receive nonce request n.state).2.1⟩ := rfl

/-- The server of a node is a server in its own right. -/
theorem Reachable.server {config : ServerConfig} {n : Node} (h : Reachable config n) :
    n.server.Reachable config := by
  induction h with
  | ofConfig =>
    exact .addHandler (.addHandler (.addHandler (.addHandler .ofConfig _ _) _ _) _ _) _ _
  | act _ _ ih => exact ih
  | addHandler _ type handler _ _ ih => exact .addHandler ih type handler
  | start _ bind started ih =>
    obtain ⟨server, hserver, rfl⟩ := start_eq_ok started
    exact .start ih bind hserver
  | shutdown _ ih => exact .shutdown ih
  | @receive n _ nonce request ih => exact .receive ih nonce request n.state

theorem addHandlers_entry {entries : List (MessageType × Handler NodeState)}
    {s : Server NodeState} {t : UInt8} {f : Handler NodeState}
    (h : (entries.foldl (fun s (type, handler) => s.addHandler type.toByte handler)
      s).handlers[t]? = some f) :
    (∃ entry ∈ entries, entry.1.toByte = t ∧ entry.2 = f) ∨ s.handlers[t]? = some f := by
  induction entries generalizing s with
  | nil => exact .inr h
  | cons entry entries ih =>
    rcases ih h with ⟨later, hm, hlater⟩ | h
    · exact .inl ⟨later, List.mem_cons_of_mem _ hm, hlater⟩
    · rcases Server.addHandler_entry h with ⟨rfl, rfl⟩ | h
      · exact .inl ⟨entry, List.mem_cons_self, rfl, rfl⟩
      · exact .inr h

/-- A new node has its own handlers alone. -/
theorem handlers_ofConfig {config : ServerConfig} {type : UInt8} {handler : Handler NodeState}
    (h : (ofConfig config).server.handlers[type]? = some handler) :
    ∃ entry ∈ NodeState.handlers, entry.1.toByte = type ∧ entry.2 = handler := by
  rcases addHandlers_entry h with hown | hempty
  · exact hown
  · rw [Server.ofConfig, Std.ExtTreeMap.getElem?_empty] at hempty
    cases hempty

theorem serves_ofConfig (config : ServerConfig) :
    NodeState.Serves (Node.ofConfig config).server.handlers := by
  refine ⟨?_, fun type handler hf => ?_⟩
  · have htable : (Node.ofConfig config).server.handlers =
        ((((∅ : HandlerTable NodeState).insert 0 NodeState.initialise).insert 1
          NodeState.listPeers).insert 3 NodeState.inspectPeer).insert 5
          NodeState.changePeerStatus := rfl
    rw [htable]
    simp only [NodeState.handlers, List.forall_mem_cons, List.not_mem_nil, false_implies,
      implies_true, and_true, Std.ExtTreeMap.getElem?_insert]
    refine ⟨?_, ?_, ?_, ?_⟩
    all_goals rfl
  · obtain ⟨entry, hm, _, rfl⟩ := handlers_ofConfig hf
    exact NodeState.lawful_handlers entry hm

theorem reachable_serves {config : ServerConfig} {n : Node} (h : Reachable config n) :
    NodeState.Serves n.server.handlers := by
  induction h with
  | ofConfig => exact serves_ofConfig config
  | act _ _ ih => exact ih
  | addHandler _ type handler lawful foreign ih =>
    unfold Server.addHandler
    split
    · exact ih
    · exact ih.insert lawful foreign
  | start _ bind started ih =>
    obtain ⟨server, hserver, rfl⟩ := start_eq_ok started
    rwa [Server.start_handlers hserver]
  | shutdown _ ih => exact ih
  | @receive n _ nonce request ih =>
    obtain ⟨tally, htally⟩ := n.server.receive_tally nonce request n.state
    rwa [receive_eq, htally]

/-- Whatever a request holds, it moves the node by the node's own operations. -/
theorem receive_leads_of_serves {config : ServerConfig} {n : Node} (h : n.server.Reachable config)
    (serves : NodeState.Serves n.server.handlers) (nonce : Nonce) (request : Request) :
    n.state.Leads (n.receive nonce request).2.state := by
  rcases Server.receive_state h nonce request n.state with
    hsame | ⟨frame, handler, _, hhandler, hstate⟩
  · rw [receive_eq, hsame]
    exact .refl
  · rw [receive_eq, hstate]
    exact serves.lawful _ handler hhandler frame.payload n.state

theorem receive_leads {config : ServerConfig} {n : Node} (h : Reachable config n) (nonce : Nonce)
    (request : Request) : n.state.Leads (n.receive nonce request).2.state :=
  receive_leads_of_serves h.server (reachable_serves h) nonce request

theorem reachable_sound {config : ServerConfig} {n : Node} (h : Reachable config n) :
    n.state.ledger.accounts.Sound := by
  induction h with
  | ofConfig => exact Accounts.Sound.empty
  | act _ work ih => exact work.sound ih
  | addHandler _ _ _ _ _ ih => exact ih
  | start _ bind started ih =>
    obtain ⟨server, _, rfl⟩ := start_eq_ok started
    exact ih
  | shutdown _ ih => exact ih
  | receive h nonce request ih => exact (receive_leads h nonce request).sound ih

/-- What every state of a node keeps: a session answers under the key of the configuration, with
the handlers of the node, and the accounts are in step. -/
structure Invariant (config : ServerConfig) (n : Node) : Prop where
  configured : n.server.config = config
  serves : NodeState.Serves n.server.handlers
  session : ∀ s, n.server.session = some s → Key.parse config.key = .ok s.dispatch.key ∧
    s.dispatch.maxBodySize = config.maxBodySize ∧ NodeState.Serves s.dispatch.handlers
  sound : n.state.ledger.accounts.Sound

theorem reachable_invariant {config : ServerConfig} {n : Node} (h : Reachable config n) :
    Invariant config n := by
  have hserver := Server.reachable_invariant h.server
  have hserves := reachable_serves h
  refine ⟨hserver.configured, hserves, fun s hs => ?_, reachable_sound h⟩
  obtain ⟨hkey, hsize, hhandlers⟩ := hserver.session s hs
  exact ⟨hkey, hsize, hhandlers ▸ hserves⟩

end Node

end AdminPlane
