import AdminPlane.Node.Shared
import Mathlib.Data.List.Induction

namespace AdminPlane

/-- The one phase that may come behind a phase. -/
def Phase.next? : Phase → Option Phase
  | awaitingInitialisation => some .pendingRegistration
  | pendingRegistration => some .registered
  | registered => none

namespace WatchChannel

theorem foldl_counting {α : Type} (values : List α) (s : α × Nat) :
    (values.foldl (counting α).send s).2 = s.2 + values.length := by
  induction values generalizing s with
  | nil => rfl
  | cons a values ih =>
    have hsend : ((counting α).send s a).2 = s.2 + 1 := rfl
    rw [List.foldl_cons, ih, List.length_cons, hsend]
    omega

theorem marks_counting {α : Type} (s : α × Nat) : (counting α).Marks s ⟨s.2⟩ := by
  intro values
  have hchanged : (counting α).changed (values.foldl (counting α).send s) ⟨s.2⟩ =
      decide (s.2 ≠ (values.foldl (counting α).send s).2) := rfl
  rw [hchanged, decide_eq_true_iff, foldl_counting, ← List.length_pos_iff]
  omega

theorem lawful_counting (α : Type) : (counting α).Lawful :=
  ⟨fun _ => rfl, fun _ _ => rfl, marks_counting, fun s _ => marks_counting s⟩

end WatchChannel

namespace Registration

/-- A registration as a call leaves it. -/
def heed (r : Registration) : Call → Registration
  | .initialise identity => (r.initialise identity).toOption.getD r
  | .acknowledge => r.acknowledge.toOption.getD r
  | .subscribe => r
  | .observe _ => r

theorem heed_initialise (r : Registration) (h : r.phase ≠ .awaitingInitialisation)
    (identity : Identity) : r.heed (.initialise identity) = r := by
  obtain ⟨progress, steps⟩ := r
  cases progress with
  | awaiting => exact absurd rfl h
  | pending i => rfl
  | registered i => rfl

theorem heed_acknowledge (r : Registration) (h : r.phase ≠ .pendingRegistration) :
    r.heed .acknowledge = r := by
  obtain ⟨progress, steps⟩ := r
  cases progress with
  | awaiting => rfl
  | pending i => exact absurd rfl h
  | registered i => rfl

theorem ofResult_initialise (r : Registration) (identity : Identity) :
    .ofResult ((r.initialise identity).map fun _ => ()) =
      if r.phase = .awaitingInitialisation then Answer.accepted
      else .refused (.alreadyInitialised r.phase) := by
  obtain ⟨progress, steps⟩ := r
  cases progress with
  | awaiting => rfl
  | pending i => rfl
  | registered i => rfl

theorem ofResult_acknowledge (r : Registration) :
    .ofResult (r.acknowledge.map fun _ => ()) =
      if r.phase = .pendingRegistration then Answer.accepted
      else .refused (.notPending r.phase) := by
  obtain ⟨progress, steps⟩ := r
  cases progress with
  | awaiting => rfl
  | pending i => rfl
  | registered i => rfl

def Call.identity? : Call → Option Identity
  | .initialise identity => some identity
  | _ => none

/-- How far a registration has come by the calls that succeeded. -/
inductive Brought : List Call → Progress → Prop
  | nowhere : Brought [] .awaiting
  | initialised (identity : Identity) : Brought [.initialise identity] (.pending identity)
  | acknowledged (identity : Identity) :
      Brought [.initialise identity, .acknowledge] (.registered identity)

section Brought

variable {calls : List Call} {progress : Progress} (h : Brought calls progress)
include h

theorem Brought.identity : progress.identity? = calls.findSome? Call.identity? := by
  cases h with
  | nowhere => rfl
  | initialised i => rfl
  | acknowledged i => rfl

theorem Brought.initialised_once : (calls.filterMap Call.identity?).length ≤ 1 := by
  cases h with
  | nowhere => exact Nat.zero_le 1
  | initialised i => exact Nat.le_refl 1
  | acknowledged i => exact Nat.le_refl 1

theorem Brought.acknowledged_once : calls.count .acknowledge ≤ 1 := by
  cases h with
  | nowhere => exact Nat.zero_le 1
  | initialised i => exact Nat.zero_le 1
  | acknowledged i => exact Nat.le_refl 1

end Brought

variable {σ ρ : Type} {channel : WatchChannel Phase σ ρ}

namespace Watched

variable {w : Watched σ ρ}

variable (channel) in
/-- All that can come of a call. An acknowledgement that is refused has put back what it took. -/
inductive Called (w : Watched σ ρ) : Call → Answer × Watched σ ρ → Prop
  | initialised (identity : Identity) (awaiting : w.registration.progress = .awaiting) :
      Called w (.initialise identity) (.accepted, ⟨⟨.pending identity,
        channel.send w.registration.sender .pendingRegistration⟩, w.receivers⟩)
  | alreadyInitialised (identity : Identity) (not : w.phase ≠ .awaitingInitialisation) :
      Called w (.initialise identity) (.refused (.alreadyInitialised w.phase), w)
  | acknowledged {identity : Identity} (pending : w.registration.progress = .pending identity) :
      Called w .acknowledge (.accepted, ⟨⟨.registered identity,
        channel.send w.registration.sender .registered⟩, w.receivers⟩)
  | notPending (not : w.phase ≠ .pendingRegistration) :
      Called w .acknowledge (.refused (.notPending w.phase), w)
  | subscribed : Called w .subscribe (.subscribed w.receivers.length,
      ⟨w.registration, w.receivers ++ [channel.subscribe w.registration.sender]⟩)
  | observed {k : Nat} {r : ρ} (known : w.receivers[k]? = some r) : Called w (.observe k)
      (.observed (channel.changed w.registration.sender r) (channel.value w.registration.sender),
        ⟨w.registration, w.receivers.set k (channel.seen w.registration.sender r)⟩)
  | unknown {k : Nat} (h : w.receivers[k]? = none) : Called w (.observe k) (.unknown, w)

variable (channel) in
theorem called (w : Watched σ ρ) (c : Call) : Called channel w c (w.call channel c) := by
  obtain ⟨⟨progress, sender⟩, receivers⟩ := w
  cases c with
  | initialise identity =>
    cases progress with
    | awaiting => exact .initialised identity rfl
    | pending i => exact .alreadyInitialised identity nofun
    | registered i => exact .alreadyInitialised identity nofun
  | acknowledge =>
    cases progress with
    | awaiting => exact .notPending nofun
    | pending i => exact .acknowledged rfl
    | registered i => exact .notPending nofun
  | subscribe => exact .subscribed
  | observe k =>
    cases hr : receivers[k]? with
    | none =>
      simp only [call, hr]
      exact .unknown hr
    | some r =>
      simp only [call, hr]
      exact .observed hr

theorem answer_initialise (w : Watched σ ρ) (identity : Identity) :
    (w.call channel (.initialise identity)).1 =
      if w.phase = .awaitingInitialisation then .accepted
      else .refused (.alreadyInitialised w.phase) := by
  have hcalled := called channel w (.initialise identity)
  generalize w.call channel (.initialise identity) = result at hcalled ⊢
  cases hcalled with
  | initialised i awaiting =>
    rw [phase, Shared.phase, awaiting]
    rfl
  | alreadyInitialised i not => rw [if_neg not]

theorem answer_acknowledge (w : Watched σ ρ) :
    (w.call channel .acknowledge).1 =
      if w.phase = .pendingRegistration then .accepted else .refused (.notPending w.phase) := by
  have hcalled := called channel w .acknowledge
  generalize w.call channel .acknowledge = result at hcalled ⊢
  cases hcalled with
  | acknowledged pending =>
    rw [phase, Shared.phase, pending]
    rfl
  | notPending not => rw [if_neg not]

theorem answer_observe {k : Nat} {r : ρ} (h : w.receivers[k]? = some r) :
    (w.call channel (.observe k)).1 =
      .observed (channel.changed w.registration.sender r)
        (channel.value w.registration.sender) := by
  simp only [call, h]

variable (channel) in
/-- A call by which a watcher comes to know the phase there is. -/
def Looks (w : Watched σ ρ) (k : Nat) (c : Call) : Prop :=
  (w.call channel c).1 = .subscribed k ∨ c = .observe k ∧ (w.call channel c).1 ≠ .unknown

section Called

variable {c : Call} {result : Answer × Watched σ ρ} (h : Called channel w c result)
include h

theorem Called.brought {calls : List Call} (hw : Brought calls w.registration.progress) :
    Brought (calls ++ if result.1 = .accepted then [c] else [])
      result.2.registration.progress := by
  cases h with
  | initialised i awaiting =>
    rw [awaiting] at hw
    cases hw
    exact .initialised i
  | acknowledged pending =>
    rw [pending] at hw
    cases hw
    exact .acknowledged _
  | alreadyInitialised | notPending | subscribed | observed | unknown =>
    rw [if_neg nofun, List.append_nil]
    exact hw

theorem Called.moves (haccepted : result.1 = .accepted) :
    w.phase.next? = some result.2.phase := by
  cases h with
  | initialised i awaiting =>
    rw [phase, Shared.phase, awaiting]
    rfl
  | acknowledged pending =>
    rw [phase, Shared.phase, pending]
    rfl
  | alreadyInitialised | notPending | subscribed | observed | unknown => cases haccepted

theorem Called.stays (hnot : result.1 ≠ .accepted) :
    result.2.registration = w.registration := by
  cases h with
  | initialised | acknowledged => exact absurd rfl hnot
  | alreadyInitialised | notPending | subscribed | observed | unknown => rfl

theorem Called.refused {e : RegistrationError} (hrefused : result.1 = .refused e) :
    result.2 = w := by
  cases h with
  | alreadyInitialised | notPending | unknown => rfl
  | initialised | acknowledged | subscribed | observed => cases hrefused

/-- The channel and the progress agree on the phase. -/
theorem Called.value (lawful : channel.Lawful)
    (hw : channel.value w.registration.sender = w.phase) :
    channel.value result.2.registration.sender = result.2.phase := by
  cases h with
  | initialised | acknowledged => exact lawful.value_send _ _
  | alreadyInitialised | notPending | subscribed | observed | unknown => exact hw

theorem Called.sent : ∃ values : List Phase,
    values.length = (if result.1 = .accepted then [c] else []).length ∧
      result.2.registration.sender = values.foldl channel.send w.registration.sender := by
  cases h with
  | initialised => exact ⟨[.pendingRegistration], rfl, rfl⟩
  | acknowledged => exact ⟨[.registered], rfl, rfl⟩
  | alreadyInitialised | notPending | subscribed | observed | unknown => exact ⟨[], rfl, rfl⟩

/-- What counts its steps goes as far as what sends its phases. -/
theorem Called.heed (steps : Nat) : (⟨w.registration.progress, steps⟩ : Registration).heed c =
    ⟨result.2.registration.progress,
      steps + (if result.1 = .accepted then [c] else []).length⟩ := by
  cases h with
  | initialised i awaiting =>
    rw [awaiting]
    rfl
  | acknowledged pending =>
    rw [pending]
    rfl
  | alreadyInitialised i not => exact heed_initialise ⟨_, steps⟩ not i
  | notPending not => exact heed_acknowledge ⟨_, steps⟩ not
  | subscribed | observed | unknown => rfl

theorem Called.length_receivers : result.2.receivers.length =
    w.receivers.length + if c = .subscribe then 1 else 0 := by
  cases h with
  | subscribed => exact List.length_append
  | observed => exact List.length_set
  | initialised | alreadyInitialised | acknowledged | notPending | unknown => rfl

end Called

/-- A receiver is as it was left by its own last look. No other call touches it. -/
theorem receivers_call (lawful : channel.Lawful) {k : Nat} {r : ρ} {c : Call}
    (h : (w.call channel c).2.receivers[k]? = some r) :
    (w.Looks channel k c ∧ channel.Marks (w.call channel c).2.registration.sender r) ∨
      (w.receivers[k]? = some r ∧ c ≠ .observe k) := by
  have hcalled := called channel w c
  rw [Looks]
  generalize w.call channel c = result at h hcalled ⊢
  cases hcalled with
  | initialised | alreadyInitialised | acknowledged | notPending => exact .inr ⟨h, nofun⟩
  | subscribed =>
    rw [List.getElem?_append] at h
    split at h
    · exact .inr ⟨h, nofun⟩
    · rename_i hlength
      rw [List.getElem?_singleton] at h
      split at h
      · obtain rfl : w.receivers.length = k := by omega
        cases h
        exact .inl ⟨.inl rfl, lawful.subscribe _⟩
      · cases h
  | @observed j old known =>
    rcases eq_or_ne j k with rfl | hne
    · rw [List.getElem?_set_self (List.getElem?_eq_some_iff.mp known).1] at h
      cases h
      exact .inl ⟨.inr ⟨rfl, nofun⟩, lawful.seen _ _⟩
    · rw [List.getElem?_set_ne hne] at h
      exact .inr ⟨h, fun heq => hne (Call.observe.inj heq)⟩
  | @unknown j none =>
    refine .inr ⟨h, ?_⟩
    rintro ⟨⟩
    rw [none] at h
    cases h

variable (channel) in
/-- The calls that succeed, in their order. -/
def accepted (w : Watched σ ρ) : List Call → List Call
  | [] => []
  | c :: calls =>
    if (w.call channel c).1 = .accepted then c :: (w.call channel c).2.accepted calls
    else (w.call channel c).2.accepted calls

theorem run_append (w : Watched σ ρ) (before later : List Call) :
    w.run channel (before ++ later) = (w.run channel before).run channel later :=
  List.foldl_append

theorem run_concat (w : Watched σ ρ) (calls : List Call) (c : Call) :
    w.run channel (calls ++ [c]) = ((w.run channel calls).call channel c).2 :=
  w.run_append calls [c]

theorem accepted_append (w : Watched σ ρ) (before later : List Call) :
    w.accepted channel (before ++ later) =
      w.accepted channel before ++ (w.run channel before).accepted channel later := by
  induction before generalizing w with
  | nil => rfl
  | cons c before ih =>
    rw [List.cons_append, accepted, accepted, ih]
    split
    · rfl
    · rfl

theorem accepted_concat (w : Watched σ ρ) (calls : List Call) (c : Call) :
    w.accepted channel (calls ++ [c]) = w.accepted channel calls ++
      if ((w.run channel calls).call channel c).1 = .accepted then [c] else [] := by
  rw [accepted_append]
  rfl

variable (channel) in
theorem brought_run (calls : List Call) : Brought ((start channel).accepted channel calls)
    ((start channel).run channel calls).registration.progress := by
  induction calls using List.reverseRecOn with
  | nil => exact .nowhere
  | append_singleton calls c ih =>
    rw [accepted_concat, run_concat]
    exact (called channel _ c).brought ih

variable (channel) in
theorem identity_run (calls : List Call) : ((start channel).run channel calls).identity? =
    ((start channel).accepted channel calls).findSome? Call.identity? :=
  (brought_run channel calls).identity

theorem value_run (lawful : channel.Lawful) (calls : List Call) :
    channel.value ((start channel).run channel calls).registration.sender =
      ((start channel).run channel calls).phase := by
  induction calls using List.reverseRecOn with
  | nil => exact lawful.value_new _
  | append_singleton calls c ih =>
    rw [run_concat]
    exact (called channel _ c).value lawful ih

variable (channel) in
/-- One value is sent for each call that succeeds. -/
theorem sent_run (w : Watched σ ρ) (calls : List Call) :
    ∃ values : List Phase, values.length = (w.accepted channel calls).length ∧
      (w.run channel calls).registration.sender =
        values.foldl channel.send w.registration.sender := by
  induction calls using List.reverseRecOn with
  | nil => exact ⟨[], rfl, rfl⟩
  | append_singleton calls c ih =>
    obtain ⟨values, hlength, hsender⟩ := ih
    rw [run_concat, accepted_concat, List.length_append]
    obtain ⟨last, hone, hlast⟩ := (called channel (w.run channel calls) c).sent
    refine ⟨values ++ last, ?_, ?_⟩
    · rw [List.length_append, hlength, hone]
    · rw [List.foldl_append, ← hsender, hlast]

variable (channel) in
theorem length_receivers_run (calls : List Call) :
    ((start channel).run channel calls).receivers.length = calls.count .subscribe := by
  induction calls using List.reverseRecOn with
  | nil => rfl
  | append_singleton calls c ih =>
    rw [run_concat, (called channel _ c).length_receivers, ih, List.count_append,
      List.count_singleton]
    simp only [beq_iff_eq]

/-- The last look of a watcher among the calls. -/
theorem receivers_run (lawful : channel.Lawful) {calls : List Call} {k : Nat} {r : ρ}
    (h : ((start channel).run channel calls).receivers[k]? = some r) :
    ∃ before c between, calls = before ++ c :: between ∧
      ((start channel).run channel before).Looks channel k c ∧ .observe k ∉ between ∧
      channel.Marks ((start channel).run channel (before ++ [c])).registration.sender r := by
  induction calls using List.reverseRecOn with
  | nil => cases h
  | append_singleton calls c ih =>
    rw [run_concat] at h
    rcases receivers_call lawful h with ⟨hlooks, hmarks⟩ | ⟨hold, hother⟩
    · refine ⟨calls, c, [], rfl, hlooks, List.not_mem_nil, ?_⟩
      rw [run_concat]
      exact hmarks
    · obtain ⟨before, look, between, rfl, hlooks, hbetween, hmarks⟩ := ih hold
      refine ⟨before, look, between ++ [c], ?_, hlooks, ?_, hmarks⟩
      · rw [List.append_assoc, List.cons_append]
      · rw [List.mem_append, List.mem_singleton]
        exact fun hmem => hmem.elim hbetween fun heq => hother heq.symm

/-- What a watcher is told: whether a call succeeded behind its last look, and the phase. -/
theorem told_run (lawful : channel.Lawful) {calls : List Call} {k : Nat}
    (hk : k < calls.count .subscribe) :
    ∃ before c between, calls = before ++ c :: between ∧
      ((start channel).run channel before).Looks channel k c ∧ .observe k ∉ between ∧
      (((start channel).run channel calls).call channel (.observe k)).1 =
        .observed (((start channel).run channel (before ++ [c])).accepted channel between ≠ [])
          ((start channel).run channel calls).phase := by
  rw [← length_receivers_run channel] at hk
  have hr := List.getElem?_eq_getElem hk
  obtain ⟨before, c, between, hcalls, hlooks, hbetween, hmarks⟩ := receivers_run lawful hr
  refine ⟨before, c, between, hcalls, hlooks, hbetween, ?_⟩
  -- The channel knows of values alone: there is one for each call that succeeded since the look.
  obtain ⟨values, hlength, hsender⟩ :=
    sent_run channel ((start channel).run channel (before ++ [c])) between
  rw [← run_append, List.append_assoc, List.singleton_append, ← hcalls] at hsender
  have hchanged : channel.changed ((start channel).run channel calls).registration.sender
      ((start channel).run channel calls).receivers[k] =
        decide (((start channel).run channel (before ++ [c])).accepted channel between ≠ []) := by
    rw [Bool.eq_iff_iff, decide_eq_true_iff, hsender, hmarks values, ← List.length_pos_iff, hlength,
      List.length_pos_iff]
  rw [answer_observe hr, value_run lawful, hchanged]

variable (channel) in
theorem heed_run (calls : List Call) : calls.foldl heed Registration.start =
    ⟨((start channel).run channel calls).registration.progress,
      ((start channel).accepted channel calls).length⟩ := by
  induction calls using List.reverseRecOn with
  | nil => rfl
  | append_singleton calls c ih =>
    rw [List.foldl_append, List.foldl_cons, List.foldl_nil, ih, run_concat, accepted_concat,
      List.length_append]
    exact (called channel _ c).heed _

variable (channel) in
/-- The registration that counts its steps tells the same as the one that sends its phases. -/
structure Merged (calls : List Call) (w : Watched σ ρ) : Prop where
  registration : calls.foldl heed .start =
    ⟨w.registration.progress, ((start channel).accepted channel calls).length⟩
  initialise : ∀ identity, (w.call channel (.initialise identity)).1 =
    .ofResult (((calls.foldl heed .start).initialise identity).map fun _ => ())
  acknowledge : (w.call channel .acknowledge).1 =
    .ofResult ((calls.foldl heed .start).acknowledge.map fun _ => ())
  observe : ∀ between,
    ((calls ++ between).foldl heed .start).observe (calls.foldl heed .start).watch =
      (decide (w.accepted channel between ≠ []), (w.run channel between).phase,
        ((calls ++ between).foldl heed .start).watch)

variable (channel) in
theorem merged_run (calls : List Call) :
    Merged channel calls ((start channel).run channel calls) where
  registration := heed_run channel calls
  initialise identity := by
    rw [answer_initialise, ofResult_initialise, heed_run channel]
    rfl
  acknowledge := by
    rw [answer_acknowledge, ofResult_acknowledge, heed_run channel]
    rfl
  observe between := by
    have hsteps (before later : Nat) (h : later > 0 ↔
        ((start channel).run channel calls).accepted channel between ≠ []) :
        (before ≠ before + later) =
          (((start channel).run channel calls).accepted channel between ≠ []) := by
      rw [← h]
      exact propext (by omega)
    simp only [heed_run channel, Registration.observe, Registration.watch, run_append,
      accepted_append, List.length_append, hsteps _ _ List.length_pos_iff]
    rfl

variable (channel) in
/-- What a registration has come to by the calls of any callers, and what it answers to the next. -/
structure Protocol (calls : List Call) (w : Watched σ ρ) : Prop where
  brought : Brought ((start channel).accepted channel calls) w.registration.progress
  initialised_once :
    (((start channel).accepted channel calls).filterMap Call.identity?).length ≤ 1
  acknowledged_once : ((start channel).accepted channel calls).count .acknowledge ≤ 1
  identity : w.identity? = ((start channel).accepted channel calls).findSome? Call.identity?
  identity_kept : ∀ later identity, w.identity? = some identity →
    (w.run channel later).identity? = some identity
  initialise : ∀ identity, (w.call channel (.initialise identity)).1 =
    if w.phase = .awaitingInitialisation then .accepted
    else .refused (.alreadyInitialised w.phase)
  acknowledge : (w.call channel .acknowledge).1 =
    if w.phase = .pendingRegistration then .accepted else .refused (.notPending w.phase)
  moves : ∀ c, (w.call channel c).1 = .accepted →
    w.phase.next? = some (w.call channel c).2.phase
  stays : ∀ c, (w.call channel c).1 ≠ .accepted →
    (w.call channel c).2.registration = w.registration
  refused : ∀ c e, (w.call channel c).1 = .refused e → (w.call channel c).2 = w
  subscribe : (w.call channel .subscribe).1 = .subscribed (calls.count .subscribe)
  told : ∀ k < calls.count .subscribe, ∃ before c between, calls = before ++ c :: between ∧
    ((start channel).run channel before).Looks channel k c ∧ .observe k ∉ between ∧
    (w.call channel (.observe k)).1 = .observed
      (((start channel).run channel (before ++ [c])).accepted channel between ≠ []) w.phase
  unknown : ∀ k, calls.count .subscribe ≤ k → (w.call channel (.observe k)).1 = .unknown
  merged : Merged channel calls w

/-- Registration goes through its phases one by one, in whatever order and by whomever it is
called. -/
theorem protocol_followed (channel : WatchChannel Phase σ ρ) (lawful : channel.Lawful)
    (calls : List Call) : Protocol channel calls ((start channel).run channel calls) where
  brought := brought_run channel calls
  initialised_once := (brought_run channel calls).initialised_once
  acknowledged_once := (brought_run channel calls).acknowledged_once
  identity := identity_run channel calls
  identity_kept later identity hidentity := by
    rw [← run_append, identity_run, accepted_append, List.findSome?_append, ← identity_run,
      hidentity]
    rfl
  initialise := answer_initialise _
  acknowledge := answer_acknowledge _
  moves c := (called channel _ c).moves
  stays c := (called channel _ c).stays
  refused c _ := (called channel _ c).refused
  subscribe := congrArg Answer.subscribed (length_receivers_run channel calls)
  told _ hk := told_run lawful hk
  unknown k hk := by
    rw [← length_receivers_run channel] at hk
    simp only [call, List.getElem?_eq_none hk]
  merged := merged_run channel calls

/-- Someone watches while a node is told who it is twice, and then that it is registered. -/
def sampleCalls : List Call :=
  [.subscribe, .acknowledge, .initialise ⟨"node", "abcd", 0⟩, .observe 0,
    .initialise ⟨"other", "ef", 1⟩, .acknowledge]

theorem sample_protocol : (WatchChannel.counting Phase).Lawful ∧
    Protocol (.counting Phase) sampleCalls
      ((start (.counting Phase)).run (.counting Phase) sampleCalls) ∧
    (start (.counting Phase)).accepted (.counting Phase) sampleCalls =
      [.initialise ⟨"node", "abcd", 0⟩, .acknowledge] ∧
    (((start (.counting Phase)).run (.counting Phase) sampleCalls).call (.counting Phase)
      (.observe 0)).1 = .observed true .registered :=
  ⟨WatchChannel.lawful_counting Phase,
    protocol_followed _ (WatchChannel.lawful_counting Phase) sampleCalls, by decide, by decide⟩

end Watched

end Registration

end AdminPlane
