import AdminPlane.Proofs.Ledger.Interleaving

namespace AdminPlane

namespace Accounts

theorem applications_eq {replica : UInt64} (h : replica.toNat + 1 < UInt64.size) :
    applications replica = replica.toNat + 1 := by
  unfold applications
  omega

namespace Entry

variable (record : Record) (id : String)

end Entry

theorem index_update (a : Accounts) (id : String) (record : Record) (replica : UInt64)
    (flag : Flag) : (a.update id record replica).1.index flag = a.index flag := by
  unfold update
  split
  · rfl
  · cases flag with
    | pending => rfl
    | blocked => rfl

theorem event_update {a : Accounts} {id : String} {r : Reputation}
    (hr : a.reputation? id = some r) (record : Record) (replica : UInt64) :
    let n := applications replica
    (a.apply (.update id record replica)).2 = some (.recordApplied id record.reason record.point n
      (.ofIntClamp (r.score.toInt + n * record.point.toInt))) := by
  intro n
  have he : (a.entry id).reputation = some r := hr
  have hpeer : (Mutation.update id record replica).peerId = id := rfl
  rw [event_apply, hpeer]
  simp only [Entry.event, he, Book.repeat_post_reputation, Entry.book, n]

end Accounts

namespace Ledger

/-- What `n` applications of a record in one call make of a ledger that tracks the peer. -/
structure Posts (id : String) (record : Record) (n : Nat) (r : Reputation) (l l' : Ledger) :
    Prop where
  /-- The sum is complete before it is clamped, and all of the reputation but the score is as it
  was. -/
  score : ∃ q, l'.accounts.reputation? id = some q ∧ { q with score := r.score } = r ∧
    q.score.toInt = max Int64.minValue.toInt
      (min (r.score.toInt + n * record.point.toInt) Int64.maxValue.toInt) ∧
    l'.events = l.events.send (.recordApplied id record.reason record.point n q.score)
  history : l'.accounts.historyOf id = List.replicate n record ++ l.accounts.historyOf id
  violations : l'.accounts.violationsOf id =
    (if record.violation then List.replicate n record else []) ++ l.accounts.violationsOf id
  indexed : ∀ flag, l'.accounts.index flag = l.accounts.index flag
  others : ∀ other, other ≠ id → l'.accounts.entry other = l.accounts.entry other

variable (l : Ledger) (id : String) (record : Record)

theorem posts_update {r : Reputation} (hr : l.accounts.reputation? id = some r)
    (replica : UInt64) :
    Posts id record (Accounts.applications replica) r l
      (l.apply (.update id record replica)) := by
  obtain ⟨hreputation, hhistory, hviolations⟩ := Accounts.update_tracked hr record replica
  refine ⟨⟨_, hreputation, rfl, toInt_ofIntClamp _, ?_⟩, hhistory, ?_, ?_, ?_⟩
  · simp only [apply, Accounts.event_update hr]
  · rw [apply_accounts, hviolations, List.filter_replicate]
  · exact Accounts.index_update l.accounts id record replica
  · intro other hother
    exact Accounts.entry_update_other l.accounts record replica (Ne.symm hother)

end Ledger

end AdminPlane
