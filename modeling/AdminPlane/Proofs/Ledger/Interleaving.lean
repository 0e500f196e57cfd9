import AdminPlane.Ledger.Clients
import AdminPlane.Proofs.Ledger.Listing
import AdminPlane.Proofs.Ledger.Posting
import Mathlib

namespace AdminPlane

namespace Call

variable (c : Call)

/-- The greatest count of 64 bits makes no difference where the bound leaves room for it. -/
theorem applications_mul_point (h : c.weight < UInt64.size - 1) :
    Accounts.applications c.replica * c.record.point.toInt = c.points := by
  unfold weight at h
  unfold points Accounts.applications
  by_cases hp : c.record.point.toInt = 0
  · simp [hp]
  · have hpos : 0 < c.record.point.toInt.natAbs := Int.natAbs_pos.mpr hp
    have hreplica : c.replica.toNat + 1 < UInt64.size - 1 :=
      Nat.lt_of_le_of_lt (Nat.le_mul_of_pos_left _ hpos) h
    rw [Nat.min_eq_left (by omega), Int.mul_comm]
    rfl

theorem natAbs_points : c.points.natAbs = c.weight := by
  have hreplica : ((c.replica.toNat : Int) + 1).natAbs = c.replica.toNat + 1 := rfl
  rw [points, weight, Int.natAbs_mul, hreplica]

end Call

namespace Accounts

/-- The entry of a tracked peer once a record is applied to it. -/
theorem update_tracked {a : Accounts} {id : String} {r : Reputation}
    (hr : a.reputation? id = some r) (record : Record) (replica : UInt64) :
    let n := applications replica
    let b := (a.apply (.update id record replica)).1
    b.reputation? id = some { r with
        score := .ofIntClamp (r.score.toInt + n * record.point.toInt) } ∧
      b.historyOf id = List.replicate n record ++ a.historyOf id ∧
      b.violationsOf id =
        (List.replicate n record).filter (·.violation) ++ a.violationsOf id := by
  intro n b
  have he : (a.entry id).reputation = some r := hr
  have hentry : b.entry id =
      (a.entry id).withBook (Nat.repeat (Book.post record) n ((a.entry id).book r)) := by
    refine ((entry_apply a (.update id record replica) id).trans (if_pos rfl)).trans ?_
    simp only [Entry.apply, he, n]
  refine ⟨?_, ?_, ?_⟩
  · have hreputation := congrArg Entry.reputation hentry
    rw [Entry.withBook, Book.repeat_post_reputation] at hreputation
    exact hreputation
  · have hhistory := congrArg Entry.history hentry
    rw [Entry.withBook, repeat_post_history] at hhistory
    exact congrArg (·.getD []) hhistory
  · have hviolations := congrArg Entry.violations hentry
    rw [Entry.withBook, Book.repeat_post_violations] at hviolations
    exact congrArg (·.getD []) hviolations

end Accounts

namespace Clients

variable {id : String} {s t u : Clients}

/-- What one client does next is taken from what all of them have left. -/
theorem flatten_perm {waiting : List (List Call)} {i : Nat} {c : Call} {rest : List Call}
    (h : waiting[i]? = some (c :: rest)) :
    waiting.flatten.Perm (c :: (waiting.set i rest).flatten) := by
  induction waiting generalizing i with
  | nil => cases h
  | cons calls waiting ih =>
    cases i with
    | zero =>
      cases h
      exact .refl _
    | succ i =>
      have hperm := (ih (i := i) h).append_left calls
      exact hperm.trans List.perm_middle

theorem turn_eq_some {i : Nat} (h : s.turn id i = some t) : ∃ c rest,
    s.waiting[i]? = some (c :: rest) ∧
      t = ⟨s.ledger.apply (.update id c.record c.replica), s.waiting.set i rest⟩ := by
  unfold turn at h
  split at h
  · rename_i c rest hwaiting
    cases h
    exact ⟨c, rest, hwaiting, rfl⟩
  · cases h

theorem run_cons {i : Nat} {schedule : List Nat} (h : s.run id (i :: schedule) = some u) :
    ∃ t, s.turn id i = some t ∧ t.run id schedule = some u := by
  rw [run] at h
  exact Option.bind_eq_some_iff.mp h

/-- How a peer comes from one state of the clients to a later one, the records that were written
meanwhile standing each with the client that wrote it, newest first. -/
structure Advances (id : String) (s t : Clients) (r q : Reputation)
    (written : List (Nat × Record)) : Prop where
  reputation : t.ledger.accounts.reputation? id = some q
  flags : { q with score := r.score } = r
  score : q.score.toInt + (t.calls.map Call.points).sum =
    r.score.toInt + (s.calls.map Call.points).sum
  bounded : q.score.toInt.natAbs + (t.calls.map Call.weight).sum ≤
    r.score.toInt.natAbs + (s.calls.map Call.weight).sum
  history : t.ledger.accounts.historyOf id =
    written.map Prod.snd ++ s.ledger.accounts.historyOf id
  violations : t.ledger.accounts.violationsOf id =
    (written.map Prod.snd).filter (·.violation) ++ s.ledger.accounts.violationsOf id
  records : (s.calls.flatMap Call.copies).Perm
    (written.map Prod.snd ++ t.calls.flatMap Call.copies)
  own : ∀ i, ∃ made, s.queue i = made ++ t.queue i ∧
    (written.filter (·.1 = i)).map Prod.snd = (made.flatMap Call.copies).reverse

theorem Advances.refl {r : Reputation} (tracked : s.ledger.accounts.reputation? id = some r) :
    Advances id s s r r [] where
  reputation := tracked
  flags := rfl
  score := rfl
  bounded := Nat.le_refl _
  history := rfl
  violations := rfl
  records := .refl _
  own _ := ⟨[], rfl, rfl⟩

theorem Advances.trans {r q p : Reputation} {earlier later : List (Nat × Record)}
    (h : Advances id s t r q earlier) (h' : Advances id t u q p later) :
    Advances id s u r p (later ++ earlier) where
  reputation := h'.reputation
  flags := by
    have hr := h.flags
    rw [← h'.flags] at hr
    exact hr
  score := h'.score.trans h.score
  bounded := Nat.le_trans h'.bounded h.bounded
  history := by rw [h'.history, h.history, List.map_append, List.append_assoc]
  violations := by
    rw [h'.violations, h.violations, List.map_append, List.filter_append, List.append_assoc]
  records := by
    have hlater := h'.records.append_left (earlier.map Prod.snd)
    rw [← List.append_assoc] at hlater
    rw [List.map_append]
    exact (h.records.trans hlater).trans (List.perm_append_comm.append_right _)
  own i := by
    obtain ⟨made, hqueue, hwritten⟩ := h.own i
    obtain ⟨made', hqueue', hwritten'⟩ := h'.own i
    refine ⟨made ++ made', by rw [hqueue, hqueue', List.append_assoc], ?_⟩
    rw [List.filter_append, List.map_append, hwritten, hwritten', List.flatMap_append,
      List.reverse_append]

/-- A turn takes the first call of the client whose turn it is, and leaves the others theirs. -/
theorem queue_set {i : Nat} {c : Call} {rest : List Call} (h : s.waiting[i]? = some (c :: rest))
    (ledger : Ledger) (j : Nat) :
    s.queue j = (if i = j then [c] else []) ++ (⟨ledger, s.waiting.set i rest⟩ : Clients).queue j := by
  obtain ⟨hi, _⟩ := List.getElem?_eq_some_iff.mp h
  unfold queue
  split
  · rename_i hj
    subst hj
    rw [h, List.getElem?_set_self hi]
    rfl
  · rename_i hj
    rw [List.getElem?_set_ne hj]
    rfl

/-- Within the bound a turn adds its points in full, for the score cannot reach the ends of the
range. -/
theorem advances_turn {i : Nat} {r : Reputation} (h : s.turn id i = some t)
    (tracked : s.ledger.accounts.reputation? id = some r)
    (bound : (r.score.toInt.natAbs + (s.calls.map Call.weight).sum : Int) ≤ Int64.maxValue.toInt) :
    ∃ q written, Advances id s t r q written := by
  obtain ⟨c, rest, hwaiting, rfl⟩ := turn_eq_some h
  have hcalls : s.calls.Perm (c :: (s.waiting.set i rest).flatten) := flatten_perm hwaiting
  have hweight := (hcalls.map Call.weight).sum_eq
  have hpoints := (hcalls.map Call.points).sum_eq
  rw [List.map_cons, List.sum_cons] at hweight hpoints
  have hmax : Int64.maxValue.toInt = 2 ^ 63 - 1 := by decide
  have hmin : Int64.minValue.toInt = - 2 ^ 63 := by decide
  have hsize : UInt64.size - 1 = 2 ^ 64 - 1 := by decide
  have happlied : Accounts.applications c.replica * c.record.point.toInt = c.points :=
    c.applications_mul_point (by omega)
  have habs := c.natAbs_points
  obtain ⟨hreputation, hhistory, hviolations⟩ :=
    Accounts.update_tracked tracked c.record c.replica
  rw [happlied] at hreputation
  have hscore : (Int64.ofIntClamp (r.score.toInt + c.points)).toInt = r.score.toInt + c.points :=
    Int64.toInt_ofIntClamp (by omega) (by omega)
  refine ⟨_, c.copies.map fun record => (i, record), ⟨hreputation, rfl, ?_, ?_, ?_, ?_, ?_, ?_⟩⟩
  · dsimp only [calls] at hpoints ⊢
    rw [hscore]
    omega
  · dsimp only [calls] at hweight ⊢
    rw [hscore]
    omega
  · rw [List.map_map]
    exact hhistory.trans (congrArg (· ++ _) (List.map_id _).symm)
  · rw [List.map_map]
    exact hviolations.trans (congrArg (List.filter _ · ++ _) (List.map_id _).symm)
  · rw [List.map_map]
    exact (hcalls.flatMap_right Call.copies).trans (.of_eq (congrArg (· ++ _) (List.map_id _).symm))
  · intro j
    refine ⟨_, queue_set hwaiting _ j, ?_⟩
    by_cases hj : i = j
    · subst hj
      simp [Call.copies]
    · simp [Call.copies, hj]

theorem advances_run {schedule : List Nat} {r : Reputation} (h : s.run id schedule = some t)
    (tracked : s.ledger.accounts.reputation? id = some r)
    (bound : (r.score.toInt.natAbs + (s.calls.map Call.weight).sum : Int) ≤ Int64.maxValue.toInt) :
    ∃ q written, Advances id s t r q written := by
  induction schedule generalizing s r with
  | nil =>
    cases h
    exact ⟨r, [], .refl tracked⟩
  | cons i schedule ih =>
    obtain ⟨s', hturn, hrun⟩ := run_cons h
    obtain ⟨q, earlier, hfirst⟩ := advances_turn hturn tracked bound
    have hbounded := hfirst.bounded
    obtain ⟨p, later, hrest⟩ := ih hrun hfirst.reputation (by omega)
    exact ⟨p, later ++ earlier, hfirst.trans hrest⟩

/-- As long as a call is left, the client that has it can be given a turn. -/
theorem exists_turn (id : String) (h : s.calls ≠ []) :
    ∃ i t, s.turn id i = some t ∧ t.calls.length < s.calls.length := by
  obtain ⟨c, hc⟩ := List.exists_mem_of_ne_nil _ h
  obtain ⟨calls, hcalls, hmem⟩ := List.mem_flatten.mp hc
  obtain ⟨i, hi, hwaiting⟩ := List.getElem_of_mem hcalls
  have hget : s.waiting[i]? = some calls := by rw [List.getElem?_eq_getElem hi, hwaiting]
  cases calls with
  | nil => cases hmem
  | cons c rest =>
    refine ⟨i, ⟨s.ledger.apply (.update id c.record c.replica), s.waiting.set i rest⟩,
      by simp only [turn, hget], ?_⟩
    have hlength := (flatten_perm hget).length_eq
    simp only [Clients.calls, hlength, List.length_cons]
    omega

/-- Some order of turns leaves no call. -/
theorem exists_run (id : String) (s : Clients) :
    ∃ schedule t, s.run id schedule = some t ∧ t.isDone = true := by
  by_cases hcalls : s.calls = []
  · exact ⟨[], s, rfl, by rw [isDone, hcalls]; rfl⟩
  · obtain ⟨i, t, hturn, hless⟩ := exists_turn id hcalls
    obtain ⟨schedule, u, hrun, hdone⟩ := exists_run id t
    exact ⟨i :: schedule, u, by rw [run, hturn]; exact hrun, hdone⟩
termination_by s.calls.length

theorem queue_of_isDone (h : t.isDone = true) (i : Nat) : t.queue i = [] := by
  have hcalls : t.waiting.flatten = [] := List.isEmpty_iff.mp h
  unfold queue
  cases hwaiting : t.waiting[i]? with
  | none => rfl
  | some calls => exact List.flatten_eq_nil_iff.mp hcalls calls (List.mem_of_getElem? hwaiting)

/-- What all calls on a peer come to: their points are in the score and their records are in the
logs, those of each client in the order of its calls, the newest first. -/
structure Settles (id : String) (s : Clients) (r : Reputation) (t : Clients) : Prop where
  score : ∃ q, t.ledger.accounts.reputation? id = some q ∧ { q with score := r.score } = r ∧
    q.score.toInt = r.score.toInt + (s.calls.map Call.points).sum
  history : (t.ledger.accounts.historyOf id).Perm
    (s.calls.flatMap Call.copies ++ s.ledger.accounts.historyOf id)
  violations : (t.ledger.accounts.violationsOf id).Perm
    ((s.calls.flatMap Call.copies).filter (·.violation) ++ s.ledger.accounts.violationsOf id)
  order : ∃ written : List (Nat × Record),
    t.ledger.accounts.historyOf id =
        written.map Prod.snd ++ s.ledger.accounts.historyOf id ∧
      ∀ i, (written.filter (·.1 = i)).map Prod.snd =
        ((s.queue i).flatMap Call.copies).reverse

theorem Advances.settles {r q : Reputation} {written : List (Nat × Record)}
    (h : Advances id s t r q written) (done : t.isDone = true) : Settles id s r t := by
  have hcalls : t.calls = [] := List.isEmpty_iff.mp done
  have hrecords := h.records
  rw [hcalls, List.flatMap_nil, List.append_nil] at hrecords
  refine ⟨⟨q, h.reputation, h.flags, ?_⟩, ?_, ?_, written, h.history, fun i => ?_⟩
  · have hscore := h.score
    rw [hcalls, List.map_nil, List.sum_nil, Int.add_zero] at hscore
    exact hscore
  · rw [h.history]
    exact hrecords.symm.append_right _
  · rw [h.violations]
    exact (hrecords.symm.filter _).append_right _
  · obtain ⟨made, hqueue, hwritten⟩ := h.own i
    rw [queue_of_isDone done, List.append_nil] at hqueue
    rw [hwritten, hqueue]

/-- Two ways to make all calls leave the peer the same reputation, and logs of the same records. -/
theorem Settles.agree {r : Reputation} (ht : Settles id s r t) (hu : Settles id s r u) :
    t.ledger.accounts.reputation? id = u.ledger.accounts.reputation? id ∧
      (t.ledger.accounts.historyOf id).Perm (u.ledger.accounts.historyOf id) ∧
      (t.ledger.accounts.violationsOf id).Perm (u.ledger.accounts.violationsOf id) := by
  obtain ⟨q, hq, hqflags, hqscore⟩ := ht.score
  obtain ⟨p, hp, hpflags, hpscore⟩ := hu.score
  have hsame : q.score = p.score := Int64.toInt_inj.mp (hqscore.trans hpscore.symm)
  have hrest : { q with score := r.score } = { p with score := r.score } :=
    hqflags.trans hpflags.symm
  have heq : q = p := by
    cases q
    cases p
    simp only [Reputation.mk.injEq] at hrest
    simp_all
  exact ⟨by rw [hq, hp, heq], ht.history.trans hu.history.symm,
    ht.violations.trans hu.violations.symm⟩

end Clients

/-- Where the bound holds, it does not matter in which order the calls of any number of clients on a
peer are made: the score moves by the exact sum of their points, and both logs get the same records,
the ones of each client in its own order. -/
theorem Clients.order_independent {id : String} {s : Clients} {r : Reputation}
    (tracked : s.ledger.accounts.reputation? id = some r)
    (bound : (r.score.toInt.natAbs + (s.calls.map Call.weight).sum : Int) ≤ Int64.maxValue.toInt) :
    (∃ schedule t, s.run id schedule = some t ∧ t.isDone = true) ∧
      (∀ schedule t, s.run id schedule = some t → t.isDone = true → Settles id s r t) ∧
      ∀ schedule t schedule' u, s.run id schedule = some t → t.isDone = true →
        s.run id schedule' = some u → u.isDone = true →
        t.ledger.accounts.reputation? id = u.ledger.accounts.reputation? id ∧
          (t.ledger.accounts.historyOf id).length = (u.ledger.accounts.historyOf id).length ∧
          (t.ledger.accounts.violationsOf id).length =
            (u.ledger.accounts.violationsOf id).length ∧
          (t.ledger.accounts.historyOf id).Perm (u.ledger.accounts.historyOf id) ∧
          (t.ledger.accounts.violationsOf id).Perm (u.ledger.accounts.violationsOf id) := by
  have hsettles : ∀ schedule t, s.run id schedule = some t → t.isDone = true →
      Settles id s r t := by
    intro schedule t hrun hdone
    obtain ⟨q, written, hadvances⟩ := advances_run hrun tracked bound
    exact hadvances.settles hdone
  refine ⟨exists_run id s, hsettles, ?_⟩
  intro schedule t schedule' u hrun hdone hrun' hdone'
  obtain ⟨hreputation, hhistory, hviolations⟩ :=
    (hsettles schedule t hrun hdone).agree (hsettles schedule' u hrun' hdone')
  exact ⟨hreputation, hhistory.length_eq, hviolations.length_eq, hhistory, hviolations⟩

/-- A client with two calls beside one with a single call, on a peer that is new. -/
def Clients.sample : Clients where
  ledger := Ledger.empty.apply (.add "p")
  waiting := [[⟨.retrievalSuccess, 2⟩, ⟨.networkError, 0⟩], [⟨.paymentSuccess, 0⟩]]

theorem Clients.sample_settles :
    sample.ledger.accounts.reputation? "p" = some (.ofPeer "p") ∧
      (((Reputation.ofPeer "p").score.toInt.natAbs + (sample.calls.map Call.weight).sum : Int) ≤
        Int64.maxValue.toInt) ∧
      (∃ t, sample.run "p" [0, 1, 0] = some t ∧ t.isDone = true) ∧
      ∀ schedule t, sample.run "p" schedule = some t → t.isDone = true →
        ∃ q, t.ledger.accounts.reputation? "p" = some q ∧ q.score.toInt = 20 ∧
          (t.ledger.accounts.historyOf "p").length = 5 := by
  have htracked : sample.ledger.accounts.reputation? "p" = some (.ofPeer "p") := rfl
  have hbound : (((Reputation.ofPeer "p").score.toInt.natAbs +
      (sample.calls.map Call.weight).sum : Int) ≤ Int64.maxValue.toInt) := by
    decide
  refine ⟨htracked, hbound, ⟨_, rfl, rfl⟩, fun schedule t hrun hdone => ?_⟩
  have hsettles := (order_independent htracked hbound).2.1 schedule t hrun hdone
  obtain ⟨q, hq, _, hscore⟩ := hsettles.score
  have hhistory := hsettles.history.length_eq
  exact ⟨q, hq, hscore.trans (by decide), hhistory.trans rfl⟩

end AdminPlane
