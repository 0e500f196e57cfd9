import AdminPlane.Proofs.Ledger.Consistency

namespace AdminPlane

/-- A peer as an observer of events knows it. -/
structure Standing where
  score : Int64
  pending : Bool
  blocked : Bool
deriving DecidableEq, Repr

namespace Standing

def fresh : Standing := ⟨0, false, false⟩

def setFlag (s : Standing) (flag : Flag) (value : Bool) : Standing :=
  match flag with
  | .pending => { s with pending := value }
  | .blocked => { s with blocked := value }

end Standing

def Reputation.standing (r : Reputation) : Standing := ⟨r.score, r.pending, r.blocked⟩

def Accounts.standings (a : Accounts) : Std.ExtTreeMap String Standing :=
  a.reputations.map fun _ r => r.standing

/-- What a log says of a record, apart from whether it is a violation. -/
def Record.gist (r : Record) : String × Int64 := (r.reason, r.point)

namespace Event

/-- What an event makes of the standing of its peer. -/
def standing : Event → Option Standing → Option Standing
  | peerAdded _, _ => some .fresh
  | peerRemoved _, _ => none
  | recordApplied _ _ _ _ score, s => s.map fun s => { s with score }
  | flagChanged _ flag value, s => s.map fun s => s.setFlag flag value

/-- What an event makes of the log of its peer, newest first. -/
def log : Event → List (String × Int64) → List (String × Int64)
  | peerAdded _, _ => []
  | peerRemoved _, _ => []
  | recordApplied _ reason point n _, log => List.replicate n (reason, point) ++ log
  | flagChanged _ _ _, log => log

/-- The standings that events alone tell of, from nothing. -/
def standings (events : List Event) : Std.ExtTreeMap String Standing :=
  events.foldl (fun known e => known.alter e.peerId e.standing) ∅

/-- The log of one peer that events alone tell of, from nothing. -/
def logOf (id : String) (events : List Event) : List (String × Int64) :=
  events.foldl (fun known e => if e.peerId = id then e.log known else known) []

end Event

namespace Accounts

section Posting

variable (record : Record) (n : Nat) (b : Book)

theorem repeat_post_history :
    (Nat.repeat (Book.post record) n b).history = List.replicate n record ++ b.history := by
  induction n with
  | zero => rfl
  | succ n ih =>
    rw [List.replicate_succ, List.cons_append, ← ih]
    rfl

theorem repeat_post_standing : (Nat.repeat (Book.post record) n b).reputation.standing =
    { b.reputation.standing with
      score := (Nat.repeat (Book.post record) n b).reputation.score } := by
  have hflag := Book.repeat_post_flag record n b
  have hpending := congrFun hflag .pending
  have hblocked := congrFun hflag .blocked
  simp only [Reputation.flag] at hpending hblocked
  simp only [Reputation.standing, hpending, hblocked]

end Posting

theorem applications_pos (replica : UInt64) : 0 < applications replica := by
  have hsize : 1 < UInt64.size := by decide
  unfold applications
  omega

theorem standing_setFlag (r : Reputation) (flag : Flag) (value : Bool) :
    (r.setFlag flag value).standing = r.standing.setFlag flag value := by
  cases flag <;> rfl

namespace Entry

def standing (e : Entry) : Option Standing := e.reputation.map Reputation.standing

def log (e : Entry) : List (String × Int64) := (e.history.getD []).map Record.gist

/-- The event of a mutation, by the entry that it names. -/
def event (e : Entry) (m : Mutation) : Option Event :=
  match m, e.reputation with
  | .add id, none => some (.peerAdded id)
  | .remove id, some _ => some (.peerRemoved id)
  | .update id record replica, some r =>
    let n := applications replica
    some (.recordApplied id record.reason record.point n
      (Nat.repeat (Book.post record) n (e.book r)).reputation.score)
  | .setFlag id flag value, some r =>
    if r.flag flag = value then none else some (.flagChanged id flag value)
  | _, _ => none

/-- An event says all that it can about the change from one entry to another. -/
structure Tells (event : Event) (m : Mutation) (before after : Entry) : Prop where
  named : event.peerId = m.peerId
  changed : after ≠ before
  standing : after.standing = event.standing before.standing
  log : after.log = event.log before.log

theorem tells_add {e : Entry} {id : String} (h : e.reputation = none) :
    Tells (.peerAdded id) (.add id) e (e.apply (.add id)) := by
  have happly : e.apply (.add id) = fresh id e.indexed := by simp only [Entry.apply, h]
  rw [happly]
  refine ⟨rfl, fun he => ?_, rfl, rfl⟩
  have hr := congrArg Entry.reputation he
  rw [h] at hr
  cases hr

theorem tells_remove {e : Entry} {id : String} {r : Reputation} (h : e.reputation = some r) :
    Tells (.peerRemoved id) (.remove id) e (e.apply (.remove id)) := by
  have happly : e.apply (.remove id) = absent := by simp only [Entry.apply, h]
  rw [happly]
  refine ⟨rfl, fun he => ?_, rfl, rfl⟩
  have hr := congrArg Entry.reputation he
  rw [h] at hr
  cases hr

/-- At least one copy of the record is logged, so the history alone shows the change. -/
theorem tells_update {e : Entry} {id : String} {r : Reputation} (record : Record)
    (replica : UInt64) (h : e.reputation = some r) :
    Tells (.recordApplied id record.reason record.point (applications replica)
        (Nat.repeat (Book.post record) (applications replica) (e.book r)).reputation.score)
      (.update id record replica) e (e.apply (.update id record replica)) := by
  let n := applications replica
  let posted := Nat.repeat (Book.post record) n (e.book r)
  have happly : e.apply (.update id record replica) = e.withBook posted := by
    simp only [Entry.apply, h, posted, n]
  have hhistory : posted.history = List.replicate n record ++ e.history.getD [] :=
    repeat_post_history record n (e.book r)
  have hstanding : posted.reputation.standing =
      { r.standing with score := posted.reputation.score } :=
    repeat_post_standing record n (e.book r)
  rw [happly]
  refine ⟨rfl, fun he => ?_, ?_, ?_⟩
  · have hlength := congrArg (fun e : Entry => (e.history.getD []).length) he
    have hpos : 0 < n := applications_pos replica
    simp only [withBook, Option.getD_some, hhistory, List.length_append,
      List.length_replicate] at hlength
    omega
  · simp only [Entry.standing, withBook, Option.map_some, Event.standing, h, hstanding, posted, n]
  · simp only [Entry.log, withBook, Option.getD_some, hhistory, Event.log, List.map_append,
      List.map_replicate]
    rfl

theorem tells_setFlag {e : Entry} {id : String} {r : Reputation} {flag : Flag} {value : Bool}
    (h : e.reputation = some r) (hnew : r.flag flag ≠ value) :
    Tells (.flagChanged id flag value) (.setFlag id flag value) e
      (e.apply (.setFlag id flag value)) := by
  have happly : e.apply (.setFlag id flag value) = e.withFlag r flag value := by
    simp only [Entry.apply, h, if_neg hnew]
  rw [happly]
  refine ⟨rfl, fun he => hnew ?_, ?_, rfl⟩
  · have hr := congrArg Entry.reputation he
    rw [h] at hr
    have hflag := congrArg (fun r : Reputation => r.flag flag) (Option.some.inj hr)
    simpa [setFlag_flag] using hflag.symm
  · simp only [Entry.standing, withFlag, Option.map_some, Event.standing, h, standing_setFlag]

/-- A mutation leaves its entry as it is and says nothing, or it changes the entry and its event
says how. -/
theorem silent_or_tells (e : Entry) (m : Mutation) :
    (e.event m = none ∧ e.apply m = e) ∨
      ∃ event, e.event m = some event ∧ Tells event m e (e.apply m) := by
  cases hr : e.reputation with
  | none =>
    cases m with
    | add id => exact .inr ⟨_, by simp only [Entry.event, hr], tells_add hr⟩
    | remove _ | update _ _ _ | setFlag _ _ _ =>
      exact .inl (by simp only [Entry.event, Entry.apply, hr, and_self])
  | some r =>
    cases m with
    | add id => exact .inl (by simp only [Entry.event, Entry.apply, hr, and_self])
    | remove id => exact .inr ⟨_, by simp only [Entry.event, hr], tells_remove hr⟩
    | update id record replica =>
      exact .inr ⟨_, by simp only [Entry.event, hr], tells_update record replica hr⟩
    | setFlag id flag value =>
      by_cases hf : r.flag flag = value
      · exact .inl (by simp only [Entry.event, Entry.apply, hr, if_pos hf, and_self])
      · exact .inr ⟨_, by simp only [Entry.event, hr, if_neg hf], tells_setFlag hr hf⟩

end Entry

/-- The event of a mutation depends on the entry that it names alone. -/
theorem event_apply (a : Accounts) (m : Mutation) :
    (a.apply m).2 = (a.entry m.peerId).event m := by
  cases m with
  | add id =>
    simp only [apply, add, contains_eq_isSome, Mutation.peerId, Entry.event]
    cases (a.entry id).reputation <;> rfl
  | remove id =>
    simp only [apply, remove, contains_eq_isSome, Mutation.peerId, Entry.event]
    cases (a.entry id).reputation <;> rfl
  | update id record replica =>
    cases hr : a.reputation? id with
    | none =>
      have he : (a.entry id).reputation = none := hr
      simp only [apply, update, hr, Mutation.peerId, Entry.event, he]
    | some r =>
      have he : (a.entry id).reputation = some r := hr
      simp only [apply, update, hr, Mutation.peerId, Entry.event, he]
      rfl
  | setFlag id flag value =>
    cases hr : a.reputation? id with
    | none =>
      have he : (a.entry id).reputation = none := hr
      simp only [apply, setFlag, hr, Mutation.peerId, Entry.event, he]
    | some r =>
      have he : (a.entry id).reputation = some r := hr
      simp only [apply, setFlag, hr, Mutation.peerId, Entry.event, he]
      split <;> rfl

theorem apply_eq_of_silent {a : Accounts} {m : Mutation} (h : (a.apply m).2 = none) :
    (a.apply m).1 = a := by
  cases m with
  | add id =>
    simp only [apply, add] at h ⊢
    split at h
    · rename_i hid
      rw [if_pos hid]
    · cases h
  | remove id =>
    simp only [apply, remove] at h ⊢
    split at h
    · cases h
    · rename_i hid
      rw [if_neg hid]
  | update id record replica =>
    simp only [apply, update] at h ⊢
    split at h
    · rfl
    · cases h
  | setFlag id flag value =>
    simp only [apply, setFlag] at h ⊢
    split at h
    · rfl
    · split at h
      · rename_i hf
        rw [if_pos hf]
      · cases h

/-- Nothing is said exactly of a mutation that changes nothing. -/
theorem silent_iff (a : Accounts) (m : Mutation) : (a.apply m).2 = none ↔ (a.apply m).1 = a := by
  refine ⟨apply_eq_of_silent, fun h => ?_⟩
  have hentry := congrArg (fun a : Accounts => a.entry m.peerId) h
  simp only [entry_apply, if_true] at hentry
  rw [event_apply]
  rcases (a.entry m.peerId).silent_or_tells m with ⟨hnone, _⟩ | ⟨_, _, htells⟩
  · exact hnone
  · exact absurd hentry htells.changed

theorem getElem?_standings (a : Accounts) (id : String) :
    a.standings[id]? = (a.entry id).standing := by
  simp [standings, Entry.standing, entry]

/-- What is said of a mutation carries an observer from the state before it to the one behind. -/
theorem standings_apply (a : Accounts) (m : Mutation) : (a.apply m).1.standings =
    (a.apply m).2.toList.foldl (fun known e => known.alter e.peerId e.standing) a.standings := by
  apply Std.ExtTreeMap.ext_getElem?
  intro id
  rw [getElem?_standings, entry_apply, event_apply]
  rcases (a.entry m.peerId).silent_or_tells m with ⟨hnone, hsame⟩ | ⟨event, hsome, htells⟩
  · rw [hnone, Option.toList_none, List.foldl_nil, getElem?_standings]
    split
    · rename_i hid
      rw [← hid, hsame]
    · rfl
  · simp only [hsome, Option.toList_some, List.foldl_cons, List.foldl_nil,
      Std.ExtTreeMap.getElem?_alter, htells.named, getElem?_standings,
      Std.LawfulEqCmp.compare_eq_iff_eq]
    split
    · rename_i hid
      rw [← hid]
      exact htells.standing
    · rfl

theorem log_apply (a : Accounts) (m : Mutation) (id : String) : ((a.apply m).1.entry id).log =
    (a.apply m).2.toList.foldl (fun known e => if e.peerId = id then e.log known else known)
      (a.entry id).log := by
  rw [entry_apply, event_apply]
  rcases (a.entry m.peerId).silent_or_tells m with ⟨hnone, hsame⟩ | ⟨event, hsome, htells⟩
  · rw [hnone, Option.toList_none, List.foldl_nil]
    split
    · rename_i hid
      rw [← hid, hsame]
    · rfl
  · rw [hsome, Option.toList_some, List.foldl_cons, List.foldl_nil, htells.named]
    split
    · rename_i hid
      rw [← hid]
      exact htells.log
    · rfl

theorem run_cons (a : Accounts) (m : Mutation) (ms : List Mutation) : a.run (m :: ms) =
    (((a.apply m).1.run ms).1, (a.apply m).2.toList ++ ((a.apply m).1.run ms).2) := rfl

theorem standings_run (a : Accounts) (ms : List Mutation) : (a.run ms).1.standings =
    (a.run ms).2.foldl (fun known e => known.alter e.peerId e.standing) a.standings := by
  induction ms generalizing a with
  | nil => rfl
  | cons m ms ih => rw [run_cons, ih, standings_apply, ← List.foldl_append]

theorem log_run (a : Accounts) (ms : List Mutation) (id : String) : ((a.run ms).1.entry id).log =
    (a.run ms).2.foldl (fun known e => if e.peerId = id then e.log known else known)
      (a.entry id).log := by
  induction ms generalizing a with
  | nil => rfl
  | cons m ms ih => rw [run_cons, ih, log_apply, ← List.foldl_append]

end Accounts

namespace Ledger

/-- A ledger does what its accounts do, and sends what they say. -/
theorem foldl_apply (l : Ledger) (ms : List Mutation) : ms.foldl apply l =
    { l with
      accounts := (l.accounts.run ms).1
      events := (l.accounts.run ms).2.foldl Feed.send l.events } := by
  induction ms generalizing l with
  | nil => rfl
  | cons m ms ih =>
    rw [List.foldl_cons, ih, Accounts.run_cons, List.foldl_append, apply_accounts]
    cases hevent : (l.accounts.apply m).2 with
    | none => simp only [apply, hevent, Option.toList_none, List.foldl_nil]
    | some event =>
      simp only [apply, hevent, Option.toList_some, List.foldl_cons, List.foldl_nil]

/-- A mutation sends one event, on the peer it names, if it changes the accounts, and none if it
does not. -/
structure Announces (l : Ledger) (m : Mutation) : Prop where
  change : (l.apply m).accounts ≠ l.accounts → ∃ event, (l.accounts.apply m).2 = some event ∧
    event.peerId = m.peerId ∧ (l.apply m).events = l.events.send event
  silence : (l.apply m).accounts = l.accounts →
    (l.accounts.apply m).2 = none ∧ (l.apply m).events = l.events

theorem announces (l : Ledger) (m : Mutation) : l.Announces m where
  change h := by
    rw [apply_accounts, ne_eq, ← Accounts.silent_iff] at h
    obtain ⟨event, hevent⟩ := Option.ne_none_iff_exists'.mp h
    refine ⟨event, hevent, ?_, by simp only [apply, hevent]⟩
    rw [Accounts.event_apply] at hevent
    rcases (l.accounts.entry m.peerId).silent_or_tells m with ⟨hnone, _⟩ | ⟨_, hsome, htells⟩
    · rw [hnone] at hevent
      cases hevent
    · rw [hsome] at hevent
      cases hevent
      exact htells.named
  silence h := by
    have hnone := (Accounts.silent_iff l.accounts m).mpr h
    exact ⟨hnone, by simp only [apply, hnone]⟩

/-- The events of a run, in order, are a faithful log of the ledger: there is one for each change,
and they are all it takes to know every standing and every log. -/
theorem events_faithful (capacity : Nat) (ms : List Mutation) :
    let l := ms.foldl apply (.ofCapacity capacity)
    let events := (Accounts.empty.run ms).2
    l.events = events.foldl Feed.send (.ofCapacity capacity) ∧
      (∀ m, l.Announces m) ∧
      Event.standings events = l.accounts.standings ∧
      ∀ id, Event.logOf id events = (l.accounts.historyOf id).map Record.gist := by
  have hrun := foldl_apply (.ofCapacity capacity) ms
  have haccounts : (ofCapacity capacity).accounts = .empty := rfl
  have hempty : Accounts.empty.standings = ∅ := by
    apply Std.ExtTreeMap.ext_getElem?
    intro id
    rw [Accounts.getElem?_standings, Accounts.entry_empty]
    simp [Accounts.Entry.standing, Accounts.Entry.absent]
  rw [haccounts] at hrun
  refine ⟨congrArg Ledger.events hrun, announces _, ?_, fun id => ?_⟩
  · rw [hrun, Accounts.standings_run, hempty]
    rfl
  · have hlog := Accounts.log_run .empty ms id
    rw [Accounts.entry_empty] at hlog
    rw [hrun]
    exact hlog.symm

end Ledger

end AdminPlane
