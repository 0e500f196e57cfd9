import AdminPlane.Node.Registration

namespace AdminPlane

/-- A channel that holds one value. A sender of type `σ` replaces it, and receivers of type `ρ` are
told that it was replaced. -/
structure WatchChannel (α σ ρ : Type) where
  new : α → σ
  send : σ → α → σ
  value : σ → α
  subscribe : σ → ρ
  changed : σ → ρ → Bool
  /-- The receiver once it has looked at the value. -/
  seen : σ → ρ → ρ

namespace WatchChannel

variable {α σ ρ : Type}

/-- The receiver was there for all that was sent up to now, and for nothing that comes. -/
def Marks (channel : WatchChannel α σ ρ) (s : σ) (r : ρ) : Prop :=
  ∀ values : List α, channel.changed (values.foldl channel.send s) r = true ↔ values ≠ []

/-- A channel holds what was sent last, and marks a receiver once something is sent behind its last
look. -/
structure Lawful (channel : WatchChannel α σ ρ) : Prop where
  value_new : ∀ a, channel.value (channel.new a) = a
  value_send : ∀ s a, channel.value (channel.send s a) = a
  subscribe : ∀ s, channel.Marks s (channel.subscribe s)
  seen : ∀ s r, channel.Marks s (channel.seen s r)

/-- The channel that counts how often its value was replaced. -/
def counting (α : Type) : WatchChannel α (α × Nat) Watcher where
  new a := (a, 0)
  send s a := (a, s.2 + 1)
  value s := s.1
  subscribe s := ⟨s.2⟩
  changed s r := r.seen ≠ s.2
  seen s _ := ⟨s.2⟩

end WatchChannel

namespace Registration

/-- A registration as its callers share it. The phase that its watchers are shown is kept in a
channel, beside its progress. -/
structure Shared (σ : Type) where
  progress : Progress
  sender : σ

namespace Shared

variable {σ ρ : Type}

def start (channel : WatchChannel Phase σ ρ) : Shared σ :=
  ⟨.awaiting, channel.new .awaitingInitialisation⟩

def phase (r : Shared σ) : Phase := r.progress.phase

def identity? (r : Shared σ) : Option Identity := r.progress.identity?

def initialise (channel : WatchChannel Phase σ ρ) (identity : Identity) :
    StateM (Shared σ) (Except RegistrationError Unit) := do
  match (← get).progress with
  | .awaiting =>
    modify fun r => { r with progress := .pending identity }
    modify fun r => { r with sender := channel.send r.sender .pendingRegistration }
    return .ok ()
  | other => return .error (.alreadyInitialised other.phase)

/-- The progress is taken out, and what stands there meanwhile is no one's. It is put back if it was
not pending. -/
def acknowledge (channel : WatchChannel Phase σ ρ) :
    StateM (Shared σ) (Except RegistrationError Unit) := do
  let taken ← modifyGet fun r => (r.progress, { r with progress := .awaiting })
  match taken with
  | .pending identity =>
    modify fun r => { r with progress := .registered identity }
    modify fun r => { r with sender := channel.send r.sender .registered }
    return .ok ()
  | other =>
    modify fun r => { r with progress := other }
    return .error (.notPending other.phase)

end Shared

/-- What callers do with a registration. Watchers are numbered in the order of their coming. -/
inductive Call where
  | initialise (identity : Identity)
  | acknowledge
  | subscribe
  | observe (watcher : Nat)
deriving DecidableEq, Repr

inductive Answer where
  | accepted
  | refused (error : RegistrationError)
  | subscribed (watcher : Nat)
  | observed (changed : Bool) (phase : Phase)
  /-- No watcher has the number. -/
  | unknown
deriving DecidableEq, Repr

def Answer.ofResult : Except RegistrationError Unit → Answer
  | .ok _ => accepted
  | .error e => refused e

/-- A registration with the receivers of those who watch it. -/
structure Watched (σ ρ : Type) where
  registration : Shared σ
  receivers : List ρ

namespace Watched

variable {σ ρ : Type}

def start (channel : WatchChannel Phase σ ρ) : Watched σ ρ := ⟨.start channel, []⟩

def phase (w : Watched σ ρ) : Phase := w.registration.phase

def identity? (w : Watched σ ρ) : Option Identity := w.registration.identity?

def call (channel : WatchChannel Phase σ ρ) (w : Watched σ ρ) : Call → Answer × Watched σ ρ
  | .initialise identity =>
    let (result, registration) := (Shared.initialise channel identity).run w.registration
    (.ofResult result, { w with registration })
  | .acknowledge =>
    let (result, registration) := (Shared.acknowledge channel).run w.registration
    (.ofResult result, { w with registration })
  | .subscribe =>
    (.subscribed w.receivers.length,
      { w with receivers := w.receivers ++ [channel.subscribe w.registration.sender] })
  | .observe k =>
    match w.receivers[k]? with
    | none => (.unknown, w)
    | some r =>
      let sender := w.registration.sender
      (.observed (channel.changed sender r) (channel.value sender),
        { w with receivers := w.receivers.set k (channel.seen sender r) })

def run (channel : WatchChannel Phase σ ρ) (w : Watched σ ρ) (calls : List Call) :
    Watched σ ρ :=
  calls.foldl (fun w c => (w.call channel c).2) w

end Watched

end Registration

end AdminPlane
