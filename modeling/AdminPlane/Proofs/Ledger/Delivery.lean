import AdminPlane.Ledger.Audience
import AdminPlane.Proofs.Ledger.Broadcast
import AdminPlane.Proofs.Ledger.Events
import Mathlib.Data.List.Infix

namespace AdminPlane

namespace Act

def mutation? : Act → Option Mutation
  | mutate m => some m
  | _ => none

/-- Whether the act can make a difference to what subscriber `i` gets. -/
def concerns (i : Nat) : Act → Bool
  | mutate _ => true
  | subscribe => false
  | drain j => j = i

def mutations (acts : List Act) : List Mutation := acts.filterMap mutation?

theorem mutations_cons (act : Act) (acts : List Act) :
    mutations (act :: acts) = act.mutation?.toList ++ mutations acts := by
  cases act
  all_goals rfl

end Act

theorem Accounts.run_append (a : Accounts) (xs ys : List Mutation) : a.run (xs ++ ys) =
    (((a.run xs).1.run ys).1, (a.run xs).2 ++ ((a.run xs).1.run ys).2) := by
  induction xs generalizing a with
  | nil => rfl
  | cons m xs ih => rw [List.cons_append, run_cons, ih, run_cons, List.append_assoc]

/-- How many of the mutations change the accounts. -/
noncomputable def Accounts.changes (a : Accounts) : List Mutation → Nat
  | [] => 0
  | m :: rest =>
    open Classical in
    (if (a.apply m).1 = a then 0 else 1) + (a.apply m).1.changes rest

theorem Accounts.length_events (a : Accounts) (ms : List Mutation) :
    (a.run ms).2.length = a.changes ms := by
  induction ms generalizing a with
  | nil => rfl
  | cons m ms ih =>
    rw [run_cons, List.length_append, ih, changes]
    congr 1
    split
    · rename_i h
      rw [(silent_iff a m).mpr h]
      rfl
    · rename_i h
      obtain ⟨event, hevent⟩ := Option.ne_none_iff_exists'.mp (mt (silent_iff a m).mp h)
      rw [hevent]
      rfl

namespace Audience

/-- What subscriber `i` gets in a run. -/
def heard (s : Audience) (i : Nat) (acts : List Act) : List (Delivery Event) :=
  ((s.run acts).2.filter (·.1 = i)).map (·.2)

/-- The events of a run, whoever hears of them. -/
def events (s : Audience) (acts : List Act) : List Event :=
  (s.ledger.accounts.run (Act.mutations acts)).2

/-- What subscriber `i`, who waits for `waiting`, waits for each time it asks in a run, and what it
waits for at the end. -/
def batches (i : Nat) (a : Accounts) (waiting : List Event) :
    List Act → List (List Event) × List Event
  | [] => ([], waiting)
  | .mutate m :: rest => batches i (a.apply m).1 (waiting ++ (a.apply m).2.toList) rest
  | .subscribe :: rest => batches i a waiting rest
  | .drain j :: rest =>
    if j = i then
      let (asked, left) := batches i a [] rest
      (waiting :: asked, left)
    else batches i a waiting rest

structure Waits (s : Audience) (i : Nat) (waiting : List Event) : Prop where
  full : s.ledger.events.Full
  owed : ∃ r, s.receivers[i]? = some r ∧ s.ledger.events.Owes r waiting

section Step

variable {s : Audience} {i : Nat} {w : List Event}

theorem accounts_step (s : Audience) (act : Act) :
    (s.step act).1.ledger.accounts = (s.ledger.accounts.run act.mutation?.toList).1 := by
  cases act with
  | mutate m => exact Ledger.apply_accounts s.ledger m
  | subscribe => rfl
  | drain j =>
    rw [step]
    split
    all_goals rfl

theorem capacity_step (s : Audience) (act : Act) :
    (s.step act).1.ledger.events.capacity = s.ledger.events.capacity := by
  cases act with
  | mutate m =>
    simp only [step, Ledger.apply]
    split
    all_goals rfl
  | subscribe => rfl
  | drain j =>
    rw [step]
    split
    all_goals rfl

theorem waits_mutate (h : s.Waits i w) (m : Mutation) :
    (s.step (.mutate m)).1.Waits i (w ++ (s.ledger.accounts.apply m).2.toList) := by
  obtain ⟨hfull, r, hr, howes⟩ := h
  simp only [step, Ledger.apply]
  split
  · rename_i hevent
    rw [hevent, Option.toList_none, List.append_nil]
    exact ⟨hfull, r, hr, howes⟩
  · rename_i event hevent
    rw [hevent]
    exact ⟨Feed.full_send hfull event, r, hr, Feed.owes_send howes event⟩

theorem waits_subscribe (h : s.Waits i w) : (s.step .subscribe).1.Waits i w := by
  obtain ⟨hfull, r, hr, howes⟩ := h
  refine ⟨hfull, r, ?_, howes⟩
  rw [step, List.getElem?_append_left (List.getElem?_eq_some_iff.mp hr).1, hr]

/-- One subscriber's drains are nothing to the others. -/
theorem waits_other (h : s.Waits i w) {j : Nat} (hj : j ≠ i) :
    (s.step (.drain j)).1.Waits i w := by
  obtain ⟨hfull, r, hr, howes⟩ := h
  rw [step]
  split
  · exact ⟨hfull, r, hr, howes⟩
  · exact ⟨hfull, r, by rw [List.getElem?_set_ne hj, hr], howes⟩

theorem step_drain (h : s.Waits i w) :
    s.step (.drain i) = ({ s with receivers := s.receivers.set i s.ledger.events.subscribe },
      some (i, Feed.due s.ledger.events.capacity w)) := by
  obtain ⟨hfull, r, hr, howes⟩ := h
  simp only [step, hr, Feed.drain_owed hfull howes]

theorem waits_drain (h : s.Waits i w) : (s.step (.drain i)).1.Waits i [] := by
  rw [step_drain h]
  obtain ⟨hfull, r, hr, _⟩ := h
  refine ⟨hfull, s.ledger.events.subscribe, ?_, Feed.owes_subscribe _⟩
  exact List.getElem?_set_self (List.getElem?_eq_some_iff.mp hr).1

end Step

theorem heard_cons (s : Audience) (i : Nat) (act : Act) (acts : List Act) :
    s.heard i (act :: acts) =
      ((s.step act).2.toList.filter (·.1 = i)).map (·.2) ++ (s.step act).1.heard i acts := by
  rw [heard, run, List.filter_append, List.map_append]
  rfl

theorem heard_other (s : Audience) {i j : Nat} (hj : j ≠ i) (acts : List Act) :
    s.heard i (.drain j :: acts) = (s.step (.drain j)).1.heard i acts := by
  rw [heard_cons, step]
  split
  · rfl
  · simp [hj]

/-- Every time a subscriber asks, it gets what is due of what it waits for. -/
theorem heard_run {s : Audience} {i : Nat} {w : List Event} (h : s.Waits i w) (acts : List Act) :
    s.heard i acts = (batches i s.ledger.accounts w acts).1.map
      (Feed.due s.ledger.events.capacity) := by
  induction acts generalizing s w with
  | nil => rfl
  | cons act acts ih =>
    cases act with
    | mutate m =>
      have hrest := ih (waits_mutate h m)
      rwa [capacity_step] at hrest
    | subscribe => exact ih (waits_subscribe h)
    | drain j =>
      by_cases hj : j = i
      · rw [hj, heard_cons, ih (waits_drain h), capacity_step, accounts_step, step_drain h,
          batches, if_pos rfl]
        simp [Act.mutation?, Accounts.run]
      · rw [heard_other s hj, ih (waits_other h hj), capacity_step, accounts_step, batches,
          if_neg hj]
        rfl

section Batches

variable (i : Nat) (a : Accounts) (w : List Event)

/-- No event is asked for twice, and none is left out. -/
theorem flatten_batches (acts : List Act) :
    (batches i a w acts).1.flatten ++ (batches i a w acts).2 =
      w ++ (a.run (Act.mutations acts)).2 := by
  induction acts generalizing a w with
  | nil => exact (List.append_nil w).symm
  | cons act acts ih =>
    cases act with
    | mutate m =>
      rw [batches, ih, List.append_assoc]
      rfl
    | subscribe => exact ih a w
    | drain j =>
      rw [batches]
      split
      · rw [List.flatten_cons, List.append_assoc, ih a []]
        rfl
      · exact ih a w

theorem batches_append (xs ys : List Act) : batches i a w (xs ++ ys) =
    ((batches i a w xs).1 ++
        (batches i (a.run (Act.mutations xs)).1 (batches i a w xs).2 ys).1,
      (batches i (a.run (Act.mutations xs)).1 (batches i a w xs).2 ys).2) := by
  induction xs generalizing a w with
  | nil => rfl
  | cons act xs ih =>
    cases act with
    | mutate m => exact ih _ _
    | subscribe => exact ih a w
    | drain j =>
      rw [List.cons_append, batches, batches]
      split
      · rw [ih a []]
        rfl
      · exact ih a w

/-- One who does not ask waits for all that happens. -/
theorem batches_quiet {acts : List Act} (h : ∀ act ∈ acts, act ≠ .drain i) :
    batches i a w acts = ([], w ++ (a.run (Act.mutations acts)).2) := by
  have hnone : (batches i a w acts).1 = [] := by
    induction acts generalizing a w with
    | nil => rfl
    | cons act acts ih =>
      have hrest : ∀ act ∈ acts, act ≠ .drain i := fun act hact => h act (.tail _ hact)
      cases act with
      | mutate m => exact ih _ _ hrest
      | subscribe => exact ih _ _ hrest
      | drain j =>
        have hj : j ≠ i := fun hj => h _ (.head _) (congrArg Act.drain hj)
        rw [batches, if_neg hj]
        exact ih _ _ hrest
  have hall := flatten_batches i a w acts
  rw [hnone, List.flatten_nil, List.nil_append] at hall
  exact Prod.ext hnone hall

theorem batches_concerns (acts : List Act) :
    batches i a w (acts.filter (Act.concerns i)) = batches i a w acts := by
  induction acts generalizing a w with
  | nil => rfl
  | cons act acts ih =>
    cases act with
    | mutate m => exact ih _ _
    | subscribe => exact ih a w
    | drain j =>
      by_cases hj : j = i
      · rw [List.filter_cons_of_pos (by simpa [Act.concerns] using hj), batches, batches,
          if_pos hj, if_pos hj, ih]
      · rw [List.filter_cons_of_neg (by simpa [Act.concerns] using hj), batches, if_neg hj, ih]

/-- One who asks waits for nothing afterwards. -/
theorem batches_asked (acts : List Act) : batches i a w (acts ++ [.drain i]) =
    ((batches i a w acts).1 ++ [(batches i a w acts).2], []) := by
  rw [batches_append, batches, if_pos rfl]
  rfl

end Batches

theorem accounts_run (s : Audience) (acts : List Act) : (s.run acts).1.ledger.accounts =
    (s.ledger.accounts.run (Act.mutations acts)).1 := by
  induction acts generalizing s with
  | nil => rfl
  | cons act acts ih =>
    rw [Act.mutations_cons, Accounts.run_append, ← accounts_step]
    exact ih (s.step act).1

/-- What a subscriber gets that has just subscribed, where `capacity` events are kept. -/
structure Accounted (capacity : Nat) (s : Audience) (i : Nat) : Prop where
  /-- Behind the subscription or a drain, the next drain delivers all `k` events of the changes that
  were made, or their newest `capacity` if they are more. -/
  drained : ∀ before between : List Act, (before = [] ∨ ∃ rest, before = rest ++ [.drain i]) →
    (∀ act ∈ between, act ≠ .drain i) →
    let now := (s.run before).1
    let k := now.ledger.accounts.changes (Act.mutations between)
    (now.events between).length = k ∧
      s.heard i (before ++ (between ++ [.drain i])) =
        s.heard i before ++ [⟨k - capacity, (now.events between).drop (k - capacity)⟩]
  /-- Each change is delivered or reported lost, and no change is counted twice. -/
  counted : ∀ acts, ((s.heard i (acts ++ [.drain i])).map fun d => d.items.length + d.lost).sum =
    s.ledger.accounts.changes (Act.mutations acts)
  ordered : ∀ acts, ((s.heard i acts).flatMap (·.items)).Sublist (s.events acts)
  /-- What others do as subscribers makes no difference. -/
  alone : ∀ acts, s.heard i (acts.filter (Act.concerns i)) = s.heard i acts
  /-- One who has lost nothing knows every standing. -/
  rebuilt : ∀ acts, (∀ d ∈ s.heard i (acts ++ [.drain i]), d.lost = 0) →
    ((s.heard i (acts ++ [.drain i])).flatMap (·.items)).foldl
        (fun known e => known.alter e.peerId e.standing) s.ledger.accounts.standings =
      (s.run (acts ++ [.drain i])).1.ledger.accounts.standings

section Accounting

variable {s : Audience} {i : Nat} (h : s.Waits i [])

include h

theorem Waits.drained {before between : List Act}
    (hbefore : before = [] ∨ ∃ rest, before = rest ++ [.drain i])
    (hbetween : ∀ act ∈ between, act ≠ .drain i) :
    s.heard i (before ++ (between ++ [.drain i])) =
      s.heard i before ++ [Feed.due s.ledger.events.capacity ((s.run before).1.events between)] := by
  have hleft : (batches i s.ledger.accounts [] before).2 = [] := by
    rcases hbefore with rfl | ⟨rest, rfl⟩
    · rfl
    · rw [batches_asked]
  rw [heard_run h, heard_run h, batches_append, batches_asked, hleft, batches_quiet i _ _ hbetween,
    List.map_append, events, accounts_run]
  rfl

theorem Waits.counted (acts : List Act) :
    ((s.heard i (acts ++ [.drain i])).map fun d => d.items.length + d.lost).sum =
      s.ledger.accounts.changes (Act.mutations acts) := by
  have htotal : ∀ w : List Event, (Feed.due s.ledger.events.capacity w).items.length +
      (Feed.due s.ledger.events.capacity w).lost = w.length := Feed.due_total _
  rw [heard_run h, List.map_map, ← Accounts.length_events]
  have hflatten := flatten_batches i s.ledger.accounts [] acts
  rw [List.nil_append] at hflatten
  rw [← hflatten, batches_asked]
  simp only [Function.comp_def, htotal, List.map_append, List.map_singleton, List.sum_append,
    List.sum_singleton, List.length_append, List.length_flatten]

theorem Waits.ordered (acts : List Act) :
    ((s.heard i acts).flatMap (·.items)).Sublist (s.events acts) := by
  have hflatten := flatten_batches i s.ledger.accounts [] acts
  rw [List.nil_append] at hflatten
  rw [heard_run h, events, ← hflatten]
  refine List.Sublist.trans ?_ (List.sublist_append_left _ _)
  generalize (batches i s.ledger.accounts [] acts).1 = asked
  induction asked with
  | nil => exact .slnil
  | cons w asked ih => exact (Feed.due_sublist _ w).append ih

theorem Waits.alone (acts : List Act) :
    s.heard i (acts.filter (Act.concerns i)) = s.heard i acts := by
  rw [heard_run h, heard_run h, batches_concerns]

theorem Waits.rebuilt (acts : List Act)
    (hnone : ∀ d ∈ s.heard i (acts ++ [.drain i]), d.lost = 0) :
    ((s.heard i (acts ++ [.drain i])).flatMap (·.items)).foldl
        (fun known e => known.alter e.peerId e.standing) s.ledger.accounts.standings =
      (s.run (acts ++ [.drain i])).1.ledger.accounts.standings := by
  have hflatten := flatten_batches i s.ledger.accounts [] (acts ++ [.drain i])
  rw [batches_asked, List.append_nil, List.nil_append] at hflatten
  rw [accounts_run, Accounts.standings_run, ← hflatten, ← batches_asked]
  rw [heard_run h] at hnone ⊢
  rw [batches_asked] at hnone ⊢
  congr 1
  generalize (batches i s.ledger.accounts [] acts).1 ++ [(batches i s.ledger.accounts [] acts).2] =
    asked at hnone
  induction asked with
  | nil => rfl
  | cons w asked ih =>
    rw [List.map_cons, List.flatMap_cons, List.flatten_cons,
      Feed.due_whole (hnone _ (.head _)), ih fun d hd => hnone d (.tail _ hd)]

theorem Waits.accounted : s.Accounted s.ledger.events.capacity i where
  drained before between hbefore hbetween := by
    have hlength := Accounts.length_events (s.run before).1.ledger.accounts (Act.mutations between)
    refine ⟨hlength, ?_⟩
    rw [h.drained hbefore hbetween, ← hlength]
    rfl
  counted := h.counted
  ordered := h.ordered
  alone := h.alone
  rebuilt := h.rebuilt

end Accounting

theorem full_step {s : Audience} (h : s.ledger.events.Full) (act : Act) :
    (s.step act).1.ledger.events.Full := by
  cases act with
  | mutate m =>
    simp only [step, Ledger.apply]
    split
    · exact h
    · exact Feed.full_send h _
  | subscribe => exact h
  | drain j =>
    rw [step]
    split
    all_goals exact h

theorem run_append (s : Audience) (xs ys : List Act) :
    (s.run (xs ++ ys)).1 = ((s.run xs).1.run ys).1 := by
  induction xs generalizing s with
  | nil => rfl
  | cons act xs ih => exact ih (s.step act).1

theorem full_run {s : Audience} (h : s.ledger.events.Full) (acts : List Act) :
    (s.run acts).1.ledger.events.Full := by
  induction acts generalizing s with
  | nil => exact h
  | cons act acts ih => exact ih (full_step h act)

theorem capacity_run (s : Audience) (acts : List Act) :
    (s.run acts).1.ledger.events.capacity = s.ledger.events.capacity := by
  induction acts generalizing s with
  | nil => rfl
  | cons act acts ih => exact (ih (s.step act).1).trans (capacity_step s act)

/-- The newest subscriber waits for nothing yet. -/
theorem waits_subscribed {s : Audience} (h : s.ledger.events.Full) :
    (s.step .subscribe).1.Waits s.receivers.length [] := by
  refine ⟨h, s.ledger.events.subscribe, ?_, Feed.owes_subscribe _⟩
  rw [step, List.getElem?_append_right (Nat.le_refl _), Nat.sub_self]
  rfl

end Audience

namespace RingAudience

/-- The two receivers wait for the same events. -/
def Agree (f : Feed Event) (ring : Ring Event) (r r' : Receiver) : Prop :=
  ∃ w, f.Owes r w ∧ ring.Owes r' w

/-- One audience of a feed and one of a ring of the same size, in the same state. -/
structure Mirrors (s : Audience) (t : RingAudience) : Prop where
  accounts : t.accounts = s.ledger.accounts
  capacity : t.ring.capacity = s.ledger.events.capacity
  full : s.ledger.events.Full
  sound : t.ring.Sound
  count : t.receivers.length = s.receivers.length
  receivers : ∀ (i : Nat) r r', s.receivers[i]? = some r → t.receivers[i]? = some r' →
    Agree s.ledger.events t.ring r r'

theorem mirrors_ofCapacity (n : Nat) : Mirrors (.ofCapacity n) (.ofCapacity n) where
  accounts := rfl
  capacity := rfl
  full := Feed.full_ofCapacity n
  sound := Ring.sound_ofCapacity n
  count := rfl
  receivers _ _ _ h := by cases h

section Step

variable {s : Audience} {t : RingAudience}

theorem mirrors_mutate (h : Mirrors s t) (m : Mutation) :
    Mirrors (s.step (.mutate m)).1 (t.step (.mutate m)).1 := by
  obtain ⟨haccounts, hcapacity, hfull, hsound, hcount, hreceivers⟩ := h
  simp only [step, Audience.step, Ledger.apply, haccounts]
  split
  · rename_i hevent
    rw [hevent]
    exact ⟨rfl, hcapacity, hfull, hsound, hcount, hreceivers⟩
  · rename_i event hevent
    rw [hevent]
    refine ⟨rfl, ?_, Feed.full_send hfull event, Ring.sound_send hsound event, hcount, ?_⟩
    · exact (Ring.capacity_send t.ring event).trans hcapacity
    · intro i r r' hr hr'
      obtain ⟨w, howes, howes'⟩ := hreceivers i r r' hr hr'
      exact ⟨_, Feed.owes_send howes event, Ring.owes_send howes' event⟩

theorem mirrors_subscribe (h : Mirrors s t) :
    Mirrors (s.step .subscribe).1 (t.step .subscribe).1 := by
  obtain ⟨haccounts, hcapacity, hfull, hsound, hcount, hreceivers⟩ := h
  refine ⟨haccounts, hcapacity, hfull, hsound, ?_, fun i r r' hr hr' => ?_⟩
  · simp only [step, Audience.step, List.length_append, List.length_singleton, hcount]
  · simp only [step, Audience.step] at hr hr'
    by_cases hi : i < s.receivers.length
    · rw [List.getElem?_append_left hi] at hr
      rw [List.getElem?_append_left (hcount ▸ hi)] at hr'
      obtain ⟨w, howes, howes'⟩ := hreceivers i r r' hr hr'
      exact ⟨w, howes, Ring.owes_subscribed howes'⟩
    · rw [List.getElem?_append_right (Nat.le_of_not_lt hi), List.getElem?_singleton] at hr
      rw [List.getElem?_append_right (hcount ▸ Nat.le_of_not_lt hi), hcount,
        List.getElem?_singleton] at hr'
      split at hr
      · rename_i hlast
        rw [if_pos hlast] at hr'
        cases hr
        cases hr'
        exact ⟨[], Feed.owes_subscribe _, Ring.owes_subscribe _⟩
      · cases hr

/-- The ring shows look by look what the feed delivers at once. -/
theorem mirrors_drain (h : Mirrors s t) (i : Nat) :
    Mirrors (s.step (.drain i)).1 (t.step (.drain i)).1 ∧
      (t.step (.drain i)).2 = (s.step (.drain i)).2.map fun a => (a.1, a.2.looks) := by
  cases hr : s.receivers[i]? with
  | none =>
    have hr' : t.receivers[i]? = none := by
      rw [List.getElem?_eq_none_iff] at hr ⊢
      exact h.count ▸ hr
    simp only [step, Audience.step, hr, hr']
    exact ⟨h, rfl⟩
  | some r =>
    have hlt : i < t.receivers.length := h.count ▸ (List.getElem?_eq_some_iff.mp hr).1
    have hr' : t.receivers[i]? = some t.receivers[i] := List.getElem?_eq_getElem hlt
    obtain ⟨w, howes, howes'⟩ := h.receivers i _ _ hr hr'
    have hdrain := Feed.drain_owed h.full howes
    have hdrain' := Ring.drain_owed h.sound howes'
    rw [h.capacity] at hdrain'
    simp only [step, Audience.step, hr, hr', hdrain, hdrain']
    refine ⟨⟨h.accounts, h.capacity, h.full, h.sound, ?_, fun j q q' hq hq' => ?_⟩, rfl⟩
    · rw [List.length_set, List.length_set, h.count]
    · dsimp only at hq hq'
      by_cases hj : i = j
      · subst hj
        rw [List.getElem?_set_self (h.count ▸ hlt)] at hq
        rw [List.getElem?_set_self hlt] at hq'
        cases hq
        cases hq'
        exact ⟨[], Feed.owes_subscribe _, Ring.owes_drained howes'⟩
      · rw [List.getElem?_set_ne hj] at hq hq'
        exact h.receivers j q q' hq hq'

theorem mirrors_step (h : Mirrors s t) (act : Act) :
    Mirrors (s.step act).1 (t.step act).1 ∧
      (t.step act).2 = (s.step act).2.map fun a => (a.1, a.2.looks) := by
  cases act with
  | mutate m => exact ⟨mirrors_mutate h m, rfl⟩
  | subscribe => exact ⟨mirrors_subscribe h, rfl⟩
  | drain i => exact mirrors_drain h i

end Step

theorem answers_run {s : Audience} {t : RingAudience} (h : Mirrors s t) (acts : List Act) :
    (t.run acts).2 = (s.run acts).2.map fun a => (a.1, a.2.looks) := by
  induction acts generalizing s t with
  | nil => rfl
  | cons act acts ih =>
    obtain ⟨hnext, hanswer⟩ := mirrors_step h act
    rw [run, Audience.run]
    dsimp only
    rw [ih hnext, hanswer, List.map_append, Option.toList_map]

end RingAudience

/-- Deliveries add up, in every run, whatever the capacity. The feed keeps the least power of two
that has room for it. Each subscriber, whenever it subscribes and whatever others do, gets the
newest of the events it waits for and is told how many it has lost. A ring of slots shows the same. -/
theorem Audience.deliveries_accounted (capacity : Nat) :
    IsLeast {c | Nat.isPowerOfTwo c ∧ max capacity 1 ≤ c} (Feed.room capacity) ∧
      (∀ before : List Act,
        let s := ((ofCapacity capacity).run before).1
        (s.step .subscribe).1.Accounted (Feed.room capacity) s.receivers.length) ∧
      ∀ acts, ((RingAudience.ofCapacity capacity).run acts).2 =
        ((ofCapacity capacity).run acts).2.map fun a => (a.1, a.2.looks) := by
  refine ⟨Feed.room_least capacity, fun before => ?_, fun acts => ?_⟩
  · have hfull : (ofCapacity capacity).ledger.events.Full := Feed.full_ofCapacity capacity
    have haccounted := (waits_subscribed (full_run hfull before)).accounted
    rw [capacity_step, capacity_run] at haccounted
    exact haccounted
  · exact RingAudience.answers_run (RingAudience.mirrors_ofCapacity capacity) acts

end AdminPlane
