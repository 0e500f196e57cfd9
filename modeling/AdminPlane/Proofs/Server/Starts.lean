import AdminPlane.Node.Basic
import AdminPlane.Server.Parts
import Mathlib.Data.List.Induction

namespace AdminPlane

open Channel (Key)

namespace Server

/-- What is done to a server by those who hold it. -/
inductive Step (σ : Type) where
  | addHandler (type : UInt8) (handler : Handler σ)
  | start (bind : String → Except BindError Endpoint)
  | shutdown

variable {σ : Type}

namespace Parts

variable {p : Parts σ} {bind : String → Except BindError Endpoint}

theorem run_addHandler (type : UInt8) (handler : Handler σ) (p : Parts σ) :
    (addHandler type handler).run p =
      ((), if p.frozen then p else { p with handlers := p.handlers.insert type handler }) := by
  obtain ⟨config, handlers, frozen, running, localAddress, task⟩ := p
  cases frozen with
  | false => rfl
  | true => rfl

/-- What the parts are behind a start that succeeds. -/
def launched (p : Parts σ) (key : Key) (endpoint : Endpoint) : Parts σ :=
  { p with
    frozen := true
    running := true
    localAddress := some endpoint
    task := some ⟨key, p.handlers, p.config.maxBodySize⟩ }

theorem run_start (bind : String → Except BindError Endpoint) (p : Parts σ) :
    (start bind).run p =
      match p.prepare bind with
      | .error e => (.error e, p)
      | .ok (key, endpoint) => (.ok endpoint, p.launched key endpoint) := by
  simp only [start, StateT.run_bind, StateT.run_get, pure_bind]
  cases p.prepare bind with
  | error e => rfl
  | ok found => rfl

theorem run_shutdown (p : Parts σ) : shutdown.run p =
    ((), match p.task with
      | none => p
      | some _ => { p with running := false, localAddress := none, task := none }) := by
  obtain ⟨config, handlers, frozen, running, localAddress, task⟩ := p
  cases task with
  | none => rfl
  | some d => rfl

theorem prepare_eq_ok {key : Key} {endpoint : Endpoint} : p.prepare bind = .ok (key, endpoint) ↔
    p.task = none ∧ Key.parse p.config.key = .ok key ∧ bind p.config.addr = .ok endpoint := by
  unfold prepare
  cases p.task with
  | some d => simp
  | none =>
    cases Key.parse p.config.key with
    | error e => simp
    | ok key => cases bind p.config.addr <;> simp

theorem prepare_eq_error {e : StartError} : p.prepare bind = .error e ↔
    (p.task ≠ none ∧ e = .alreadyStarted) ∨
    (p.task = none ∧ ∃ k, Key.parse p.config.key = .error k ∧ e = .invalidKey k) ∨
    (p.task = none ∧ (∃ key, Key.parse p.config.key = .ok key) ∧
      ∃ b, bind p.config.addr = .error b ∧ e = .bind p.config.addr b) := by
  unfold prepare
  cases p.task with
  | some d => simp [eq_comm]
  | none =>
    cases Key.parse p.config.key with
    | error k => simp [eq_comm]
    | ok key => cases bind p.config.addr <;> simp [eq_comm]

def step (p : Parts σ) : Step σ → Parts σ
  | .addHandler type handler => ((addHandler type handler).run p).2
  | .start bind => ((start bind).run p).2
  | .shutdown => (shutdown.run p).2

/-- What comes of a start. -/
def outcome (p : Parts σ) (bind : String → Except BindError Endpoint) :
    Except StartError Endpoint := ((start bind).run p).1

theorem outcome_eq_ok {endpoint : Endpoint} :
    p.outcome bind = .ok endpoint ↔ ∃ key, p.prepare bind = .ok (key, endpoint) := by
  rw [outcome, run_start]
  cases hprepare : p.prepare bind with
  | error e => simp
  | ok found => simp [Prod.ext_iff]

theorem outcome_eq_error {e : StartError} :
    p.outcome bind = .error e ↔ p.prepare bind = .error e := by
  rw [outcome, run_start]
  cases hprepare : p.prepare bind with
  | error e => simp
  | ok found => simp

theorem step_start_error {e : StartError} (h : p.outcome bind = .error e) :
    p.step (.start bind) = p := by
  rw [step, run_start, outcome_eq_error.mp h]

theorem step_start_ok {endpoint : Endpoint} (h : p.outcome bind = .ok endpoint) :
    ∃ key, Key.parse p.config.key = .ok key ∧ p.step (.start bind) = p.launched key endpoint := by
  obtain ⟨key, hprepare⟩ := outcome_eq_ok.mp h
  refine ⟨key, (prepare_eq_ok.mp hprepare).2.1, ?_⟩
  rw [step, run_start, hprepare]

def after (config : ServerConfig) (steps : List (Step σ)) : Parts σ :=
  steps.foldl step (.ofConfig config)

/-- The parts tell the same, and a task answers as the configuration and the table have it. -/
structure Sound (config : ServerConfig) (p : Parts σ) : Prop where
  configured : p.config = config
  running : p.running = p.task.isSome
  address : p.localAddress.isSome = p.task.isSome
  frozen : p.task ≠ none → p.frozen = true
  task : ∀ d, p.task = some d → Key.parse config.key = .ok d.key ∧
    d.maxBodySize = config.maxBodySize ∧ d.handlers = p.handlers

theorem sound_ofConfig (config : ServerConfig) : Sound config (ofConfig config : Parts σ) :=
  ⟨rfl, rfl, rfl, fun h => absurd rfl h, fun _ h => by cases h⟩

theorem Sound.launched {config : ServerConfig} (h : Sound config p) {key : Key}
    (hkey : Key.parse p.config.key = .ok key) (endpoint : Endpoint) :
    Sound config (p.launched key endpoint) := by
  obtain rfl := h.configured
  refine ⟨rfl, rfl, rfl, fun _ => rfl, fun d hd => ?_⟩
  cases hd
  exact ⟨hkey, rfl, rfl⟩

theorem Sound.step {config : ServerConfig} (h : Sound config p) (s : Step σ) :
    Sound config (p.step s) := by
  cases s with
  | addHandler type handler =>
    rw [Parts.step, run_addHandler]
    split
    · exact h
    · rename_i hfrozen
      have hstopped : p.task = none := by
        by_contra hrunning
        exact hfrozen (h.frozen hrunning)
      refine ⟨h.configured, h.running, h.address, h.frozen, fun d hd => ?_⟩
      rw [hstopped] at hd
      cases hd
  | start bind =>
    cases houtcome : p.outcome bind with
    | error e => rwa [step_start_error houtcome]
    | ok endpoint =>
      obtain ⟨key, hkey, hstep⟩ := step_start_ok houtcome
      rw [hstep]
      exact h.launched hkey endpoint
  | shutdown =>
    rw [Parts.step, run_shutdown]
    cases htask : p.task with
    | none => exact h
    | some d => exact ⟨h.configured, rfl, rfl, fun h => absurd rfl h, fun _ hd => by cases hd⟩

theorem Sound.foldl {config : ServerConfig} (h : Sound config p) (steps : List (Step σ)) :
    Sound config (steps.foldl Parts.step p) := by
  induction steps generalizing p with
  | nil => exact h
  | cons s steps ih => exact ih (h.step s)

theorem sound_after (config : ServerConfig) (steps : List (Step σ)) :
    Sound config (after config steps) :=
  (sound_ofConfig config).foldl steps

theorem Sound.running_iff {config : ServerConfig} (h : Sound config p) :
    p.running = true ↔ p.task ≠ none := by
  rw [h.running, Option.isSome_iff_ne_none]

theorem Sound.stopped_iff {config : ServerConfig} (h : Sound config p) :
    p.running = false ↔ p.task = none := by
  rw [h.running, Option.isSome_eq_false_iff, Option.isNone_iff_eq_none]

/-- Once the handlers are fixed, no step changes them. -/
theorem frozen_step (h : p.frozen = true) (s : Step σ) :
    (p.step s).frozen = true ∧ (p.step s).handlers = p.handlers := by
  cases s with
  | addHandler type handler =>
    rw [step, run_addHandler, if_pos h]
    exact ⟨h, rfl⟩
  | start bind =>
    cases houtcome : p.outcome bind with
    | error e =>
      rw [step_start_error houtcome]
      exact ⟨h, rfl⟩
    | ok endpoint =>
      obtain ⟨key, _, hstep⟩ := step_start_ok houtcome
      rw [hstep]
      exact ⟨rfl, rfl⟩
  | shutdown =>
    rw [step, run_shutdown]
    cases p.task with
    | none => exact ⟨h, rfl⟩
    | some d => exact ⟨h, rfl⟩

theorem frozen_foldl (h : p.frozen = true) (steps : List (Step σ)) :
    (steps.foldl step p).frozen = true ∧ (steps.foldl step p).handlers = p.handlers := by
  induction steps generalizing p with
  | nil => exact ⟨h, rfl⟩
  | cons s steps ih =>
    obtain ⟨hfrozen, hhandlers⟩ := frozen_step h s
    obtain ⟨hlater, htable⟩ := ih hfrozen
    exact ⟨hlater, htable.trans hhandlers⟩

/-- A server that runs is as it is until it is shut down. -/
theorem Sound.foldl_running {config : ServerConfig} (h : Sound config p)
    (running : p.running = true) {steps : List (Step σ)} (hsteps : .shutdown ∉ steps) :
    steps.foldl Parts.step p = p := by
  have htask := h.running_iff.mp running
  induction steps with
  | nil => rfl
  | cons s steps ih =>
    have hstep : p.step s = p := by
      cases s with
      | addHandler type handler => rw [Parts.step, run_addHandler, if_pos (h.frozen htask)]
      | start bind =>
        exact step_start_error (outcome_eq_error.mpr (prepare_eq_error.mpr (.inl ⟨htask, rfl⟩)))
      | shutdown => exact absurd List.mem_cons_self hsteps
    rw [List.foldl_cons, hstep]
    exact ih fun hmem => hsteps (List.mem_cons_of_mem s hmem)

/-- A start that succeeds among the steps, with the steps before it and behind it. -/
def Starts (config : ServerConfig) (steps before later : List (Step σ)) (endpoint : Endpoint) :
    Prop :=
  ∃ bind, steps = before ++ .start bind :: later ∧
    (after config before).outcome bind = .ok endpoint

/-- No other start among the steps succeeds earlier. -/
def FirstStart (config : ServerConfig) (steps before later : List (Step σ)) (endpoint : Endpoint) :
    Prop :=
  Starts config steps before later endpoint ∧ ∀ before' later' endpoint',
    Starts config steps before' later' endpoint' → before.length ≤ before'.length

/-- No other start among the steps succeeds later. -/
def LastStart (config : ServerConfig) (steps before later : List (Step σ)) (endpoint : Endpoint) :
    Prop :=
  Starts config steps before later endpoint ∧ ∀ before' later' endpoint',
    Starts config steps before' later' endpoint' → before'.length ≤ before.length

section History

variable {config : ServerConfig} {steps before later : List (Step σ)} {endpoint : Endpoint}

theorem after_concat (s : Step σ) : after config (steps ++ [s]) = (after config steps).step s := by
  rw [after, List.foldl_append, List.foldl_cons, List.foldl_nil, after]

theorem Starts.append (h : Starts config steps before later endpoint) (more : List (Step σ)) :
    Starts config (steps ++ more) before (later ++ more) endpoint := by
  obtain ⟨bind, rfl, houtcome⟩ := h
  exact ⟨bind, by rw [List.append_assoc, List.cons_append], houtcome⟩

theorem Starts.after_eq (h : Starts config steps before later endpoint) :
    ∃ key, Sound config ((after config before).launched key endpoint) ∧
      after config steps = later.foldl step ((after config before).launched key endpoint) := by
  obtain ⟨bind, rfl, houtcome⟩ := h
  obtain ⟨key, hkey, hstep⟩ := step_start_ok houtcome
  refine ⟨key, (sound_after config before).launched hkey endpoint, ?_⟩
  rw [after, List.foldl_append, List.foldl_cons]
  exact congrArg (later.foldl step) hstep

theorem Starts.frozen (h : Starts config steps before later endpoint) :
    (after config steps).frozen = true ∧
      (after config steps).handlers = (after config before).handlers := by
  obtain ⟨key, _, hafter⟩ := h.after_eq
  rw [hafter]
  exact frozen_foldl rfl later

/-- The handlers are fixed by a start that succeeds, and by nothing else. -/
theorem frozen_iff : (after config steps).frozen = true ↔
    ∃ before later endpoint, Starts config steps before later endpoint := by
  refine ⟨fun h => ?_, fun ⟨_, _, _, hstarts⟩ => hstarts.frozen.1⟩
  induction steps using List.reverseRecOn with
  | nil => cases h
  | append_singleton steps s ih =>
    by_cases hfrozen : (after config steps).frozen = true
    · obtain ⟨before, later, endpoint, hstarts⟩ := ih hfrozen
      exact ⟨before, later ++ [s], endpoint, hstarts.append [s]⟩
    · rw [after_concat] at h
      cases s with
      | addHandler type handler =>
        rw [step, run_addHandler, if_neg hfrozen] at h
        exact absurd h hfrozen
      | start bind =>
        cases houtcome : (after config steps).outcome bind with
        | error e =>
          rw [step_start_error houtcome] at h
          exact absurd h hfrozen
        | ok endpoint => exact ⟨steps, [], endpoint, bind, rfl, houtcome⟩
      | shutdown =>
        rw [step, run_shutdown] at h
        cases htask : (after config steps).task <;> rw [htask] at h <;> exact absurd h hfrozen

/-- A server runs behind a start that succeeded and behind which there is no shutdown. -/
theorem exists_starts_of_running (h : (after config steps).running = true) :
    ∃ before later endpoint, Starts config steps before later endpoint ∧ .shutdown ∉ later := by
  induction steps using List.reverseRecOn with
  | nil => cases h
  | append_singleton steps s ih =>
    have hkept (hstep : ((after config steps).step s).running = (after config steps).running)
        (hs : s ≠ .shutdown) : ∃ before later endpoint,
          Starts config (steps ++ [s]) before later endpoint ∧ .shutdown ∉ later := by
      rw [after_concat, hstep] at h
      obtain ⟨before, later, endpoint, hstarts, hlater⟩ := ih h
      refine ⟨before, later ++ [s], endpoint, hstarts.append [s], ?_⟩
      rw [List.mem_append, List.mem_singleton]
      rintro (hmem | rfl)
      · exact hlater hmem
      · exact hs rfl
    cases s with
    | addHandler type handler =>
      refine hkept ?_ (by simp)
      rw [step, run_addHandler]
      split <;> rfl
    | start bind =>
      cases houtcome : (after config steps).outcome bind with
      | error e => exact hkept (by rw [step_start_error houtcome]) (by simp)
      | ok endpoint => exact ⟨steps, [], endpoint, ⟨bind, rfl, houtcome⟩, List.not_mem_nil⟩
    | shutdown =>
      have hsound := sound_after config (steps ++ [.shutdown])
      rw [hsound.running, after_concat, step, run_shutdown] at h
      cases htask : (after config steps).task <;> simp [htask] at h

theorem Starts.running (h : Starts config steps before later endpoint)
    (hlater : .shutdown ∉ later) :
    ∃ key, after config steps = (after config before).launched key endpoint := by
  obtain ⟨key, hsound, hafter⟩ := h.after_eq
  exact ⟨key, hafter.trans (hsound.foldl_running rfl hlater)⟩

/-- As long as there is no shutdown, no further start succeeds. -/
theorem Starts.last (h : Starts config steps before later endpoint) (hlater : .shutdown ∉ later) :
    LastStart config steps before later endpoint := by
  refine ⟨h, fun before' later' endpoint' h' => ?_⟩
  obtain ⟨bind, rfl, houtcome⟩ := h
  obtain ⟨bind', hsplit, houtcome'⟩ := h'
  rcases List.append_eq_append_iff.mp hsplit with ⟨gap, rfl, hgap⟩ | ⟨gap, rfl, _⟩
  · cases gap with
    | nil => simp
    | cons s gap =>
      obtain ⟨rfl, rfl⟩ := List.cons.inj hgap
      have hmid : Starts config (before ++ .start bind :: gap) before gap endpoint :=
        ⟨bind, rfl, houtcome⟩
      obtain ⟨key, hafter⟩ := hmid.running fun hmem => hlater (List.mem_append_left _ hmem)
      rw [hafter, outcome_eq_ok] at houtcome'
      obtain ⟨key', hprepare⟩ := houtcome'
      cases (prepare_eq_ok.mp hprepare).1
  · simp

end History

/-- The parts of a server. -/
def of (s : Server σ) : Parts σ where
  config := s.config
  handlers := s.handlers
  frozen := s.frozen
  running := s.isRunning
  localAddress := s.localAddress
  task := s.session.map (·.dispatch)

end Parts

/-- A start that fails leaves a server as it is. -/
def step (s : Server σ) : Step σ → Server σ
  | .addHandler type handler => s.addHandler type handler
  | .start bind => (s.start bind).toOption.getD s
  | .shutdown => s.shutdown

def after (config : ServerConfig) (steps : List (Step σ)) : Server σ :=
  steps.foldl step (.ofConfig config)

theorem of_start (s : Server σ) (bind : String → Except BindError Endpoint) :
    (s.start bind).map (·.localAddress) = ((Parts.of s).outcome bind).map some ∧
      Parts.of (s.step (.start bind)) = (Parts.of s).step (.start bind) := by
  rw [Parts.outcome, Parts.step, Parts.run_start]
  obtain ⟨config, handlers, frozen, session, tally⟩ := s
  cases session with
  | some session => exact ⟨rfl, rfl⟩
  | none =>
    simp only [step, start, Parts.prepare, Parts.of, isRunning, Option.map_none, Option.isSome_none,
      Bool.false_eq_true, if_false]
    cases Key.parse config.key with
    | error e => exact ⟨rfl, rfl⟩
    | ok key =>
      dsimp only
      cases bind config.addr with
      | error e => exact ⟨rfl, rfl⟩
      | ok endpoint => exact ⟨rfl, rfl⟩

/-- A server is its parts, whatever is done to it. -/
theorem of_step (s : Server σ) (a : Step σ) : Parts.of (s.step a) = (Parts.of s).step a := by
  cases a with
  | addHandler type handler =>
    rw [step, addHandler, Parts.step, Parts.run_addHandler]
    cases hfrozen : s.frozen with
    | true => simp [Parts.of, hfrozen]
    | false => simp [Parts.of, hfrozen, isRunning, localAddress]
  | start bind => exact (of_start s bind).2
  | shutdown =>
    rw [step, Parts.step, Parts.run_shutdown]
    obtain ⟨config, handlers, frozen, session, tally⟩ := s
    cases session with
    | none => rfl
    | some session => rfl

theorem of_after (config : ServerConfig) (steps : List (Step σ)) :
    Parts.of (after config steps) = Parts.after config steps := by
  induction steps using List.reverseRecOn with
  | nil => rfl
  | append_singleton steps a ih =>
    rw [Parts.after_concat, ← ih, ← of_step, after, List.foldl_append, List.foldl_cons,
      List.foldl_nil, after]

/-- The life of a server behind some steps: what its parts tell, what a start comes to, and which
handlers answer. -/
structure LifeCycle (config : ServerConfig) (steps : List (Step σ)) (p : Parts σ) : Prop where
  address : p.running = true ↔ p.localAddress.isSome = true
  task : p.running = true ↔ p.task.isSome = true
  running : p.running = true ↔ ∃ before later endpoint,
    Parts.LastStart config steps before later endpoint ∧ .shutdown ∉ later
  bound : ∀ before later endpoint, Parts.LastStart config steps before later endpoint →
    .shutdown ∉ later → p.localAddress = some endpoint
  starts : ∀ bind endpoint, p.outcome bind = .ok endpoint ↔
    p.running = false ∧ (∃ key, Key.parse config.key = .ok key) ∧ bind config.addr = .ok endpoint
  fails : ∀ bind e, p.outcome bind = .error e ↔
    (p.running = true ∧ e = .alreadyStarted) ∨
    (p.running = false ∧ ∃ k, Key.parse config.key = .error k ∧ e = .invalidKey k) ∨
    (p.running = false ∧ (∃ key, Key.parse config.key = .ok key) ∧
      ∃ b, bind config.addr = .error b ∧ e = .bind config.addr b)
  failed : ∀ bind e, p.outcome bind = .error e → p.step (.start bind) = p
  added : (∀ before later endpoint, ¬ Parts.Starts config steps before later endpoint) →
    ∀ type handler, p.step (.addHandler type handler) =
      { p with handlers := p.handlers.insert type handler }
  ignored : ∀ before later endpoint, Parts.Starts config steps before later endpoint →
    ∀ type handler, p.step (.addHandler type handler) = p
  table : ∀ d, p.task = some d → Key.parse config.key = .ok d.key ∧
    d.maxBodySize = config.maxBodySize ∧ d.handlers = p.handlers ∧
      (∀ type, d.handlers.contains type = p.hasHandler type) ∧ d.handlers.size = p.handlerCount
  first : ∀ before later endpoint, Parts.FirstStart config steps before later endpoint →
    p.handlers = (Parts.after config before).handlers

theorem lifeCycle_after (config : ServerConfig) (steps : List (Step σ)) :
    LifeCycle config steps (Parts.after config steps) where
  address := by
    have hsound := Parts.sound_after config steps
    rw [hsound.running, hsound.address]
  task := by rw [(Parts.sound_after config steps).running]
  running := by
    constructor
    · intro h
      obtain ⟨before, later, endpoint, hstarts, hlater⟩ := Parts.exists_starts_of_running h
      exact ⟨before, later, endpoint, hstarts.last hlater, hlater⟩
    · rintro ⟨before, later, endpoint, hlast, hlater⟩
      obtain ⟨key, hafter⟩ := hlast.1.running hlater
      rw [hafter]
      rfl
  bound before later endpoint hlast hlater := by
    obtain ⟨key, hafter⟩ := hlast.1.running hlater
    rw [hafter]
    rfl
  starts bind endpoint := by
    have hsound := Parts.sound_after config steps
    simp only [Parts.outcome_eq_ok, Parts.prepare_eq_ok, hsound.configured, hsound.stopped_iff,
      exists_and_left, exists_and_right]
  fails bind e := by
    have hsound := Parts.sound_after config steps
    simp only [Parts.outcome_eq_error, Parts.prepare_eq_error, hsound.configured,
      hsound.stopped_iff, hsound.running_iff]
  failed _ _ := Parts.step_start_error
  added hnone type handler := by
    have hopen : (Parts.after config steps).frozen = false := by
      rw [Bool.eq_false_iff]
      intro hfrozen
      obtain ⟨before, later, endpoint, hstarts⟩ := Parts.frozen_iff.mp hfrozen
      exact hnone before later endpoint hstarts
    rw [Parts.step, Parts.run_addHandler, hopen]
    rfl
  ignored _ _ _ hstarts type handler := by
    rw [Parts.step, Parts.run_addHandler, if_pos hstarts.frozen.1]
  table d hd := by
    obtain ⟨hkey, hsize, hhandlers⟩ := (Parts.sound_after config steps).task d hd
    refine ⟨hkey, hsize, hhandlers, fun type => ?_, ?_⟩
    · rw [hhandlers]
      rfl
    · rw [hhandlers]
      rfl
  first _ _ _ hfirst := hfirst.1.frozen.2

end Server

namespace Node

def step (n : Node) : Server.Step NodeState → Node
  | .addHandler type handler => { n with server := n.server.addHandler type handler }
  | .start bind => (n.start bind).toOption.getD n
  | .shutdown => n.shutdown

def after (n : Node) (steps : List (Server.Step NodeState)) : Node := steps.foldl step n

theorem step_eq (n : Node) (a : Server.Step NodeState) :
    n.step a = { n with server := n.server.step a } := by
  cases a with
  | addHandler type handler => rfl
  | start bind =>
    rw [step, start, Server.step]
    cases n.server.start bind with
    | error e => rfl
    | ok server => rfl
  | shutdown => rfl

/-- The steps of the server of a node leave its state alone. -/
theorem after_eq (n : Node) (steps : List (Server.Step NodeState)) :
    n.after steps = { n with server := steps.foldl Server.step n.server } := by
  induction steps generalizing n with
  | nil => rfl
  | cons a steps ih => exact (ih (n.step a)).trans (by rw [step_eq]; rfl)

/-- The handlers that a node brings are added as any others are. -/
def ownSteps : List (Server.Step NodeState) :=
  NodeState.handlers.map fun (type, handler) => .addHandler type.toByte handler

theorem server_ofConfig (config : ServerConfig) :
    (ofConfig config).server = Server.after config ownSteps := rfl

/-- Whatever is done to a server, its parts tell the same, namely what its starts and shutdowns came
to, and the handlers that answer are those of its first start. A node lives as its server does, and
nothing of this reaches its ledger or its registration. -/
theorem server_lifeCycle (config : ServerConfig) :
    (∀ {σ : Type} (steps : List (Server.Step σ)),
      Server.LifeCycle config steps (Server.Parts.after config steps) ∧
      Server.Parts.of (Server.after config steps) = Server.Parts.after config steps ∧
      ∀ bind, ((Server.after config steps).start bind).map (·.localAddress) =
        ((Server.Parts.after config steps).outcome bind).map some) ∧
    ∀ steps : List (Server.Step NodeState),
      (∀ n : Node, (n.after steps).state = n.state) ∧
      ((ofConfig config).after steps).server = Server.after config (ownSteps ++ steps) := by
  refine ⟨fun steps => ⟨Server.lifeCycle_after config steps, Server.of_after config steps, ?_⟩,
    fun steps => ⟨fun n => ?_, ?_⟩⟩
  · intro bind
    rw [← Server.of_after]
    exact (Server.of_start _ bind).1
  · rw [after_eq]
  · rw [after_eq, server_ofConfig, Server.after, Server.after, List.foldl_append]

end Node

end AdminPlane
