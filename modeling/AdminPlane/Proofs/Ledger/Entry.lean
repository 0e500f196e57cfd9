import AdminPlane.Ledger.Basic

namespace AdminPlane.Accounts

/-- All that the accounts hold under one id. -/
@[ext]
structure Entry where
  reputation : Option Reputation
  history : Option (List Record)
  violations : Option (List Record)
  indexed : Flag → Bool

namespace Entry

def absent : Entry := ⟨none, none, none, fun _ => false⟩

/-- A peer that has only been added. -/
def fresh (id : String) (indexed : Flag → Bool) : Entry :=
  ⟨some (.ofPeer id), some [], some [], indexed⟩

def book (e : Entry) (r : Reputation) : Book := ⟨r, e.history.getD [], e.violations.getD []⟩

def withBook (e : Entry) (b : Book) : Entry :=
  { e with
    reputation := some b.reputation
    history := some b.history
    violations := some b.violations }

def withFlag (e : Entry) (r : Reputation) (flag : Flag) (value : Bool) : Entry :=
  { e with
    reputation := some (r.setFlag flag value)
    indexed := fun f => if f = flag then value else e.indexed f }

/-- What a mutation makes of the entry it names. No other entry is looked at. -/
def apply (e : Entry) (m : Mutation) : Entry :=
  match m, e.reputation with
  | .add id, none => fresh id e.indexed
  | .remove _, some _ => absent
  | .update _ record replica, some r =>
    e.withBook (Nat.repeat (Book.post record) (applications replica) (e.book r))
  | .setFlag _ flag value, some r => if r.flag flag = value then e else e.withFlag r flag value
  | _, _ => e

end Entry

def entry (a : Accounts) (id : String) : Entry :=
  ⟨a.reputations[id]?, a.history[id]?, a.violations[id]?, fun flag => (a.index flag).contains id⟩

theorem entry_empty (id : String) : empty.entry id = .absent := by
  apply Entry.ext
  · simp [entry, empty, Entry.absent]
  · simp [entry, empty, Entry.absent]
  · simp [entry, empty, Entry.absent]
  · funext flag
    cases flag <;> simp [entry, empty, index, Entry.absent]

theorem contains_eq_isSome (a : Accounts) (id : String) :
    a.contains id = (a.entry id).reputation.isSome := by
  simp [contains, entry]

/-- Tables that agree away from `id` give the same entries away from `id`. -/
theorem entry_eq_of_other {a b : Accounts} {id other : String} (h : id ≠ other)
    (hr : ∀ k, id ≠ k → b.reputations[k]? = a.reputations[k]?)
    (hh : ∀ k, id ≠ k → b.history[k]? = a.history[k]?)
    (hv : ∀ k, id ≠ k → b.violations[k]? = a.violations[k]?)
    (hi : ∀ flag k, id ≠ k → (b.index flag).contains k = (a.index flag).contains k) :
    b.entry other = a.entry other := by
  apply Entry.ext
  · exact hr other h
  · exact hh other h
  · exact hv other h
  · funext flag
    exact hi flag other h

theorem entry_add_other (a : Accounts) {id other : String} (h : id ≠ other) :
    (a.add id).1.entry other = a.entry other := by
  unfold add
  split
  · rfl
  · apply entry_eq_of_other h
    · intro k hk
      simp [Std.ExtTreeMap.getElem?_insert, hk]
    · intro k hk
      simp [Std.ExtTreeMap.getElem?_insert, hk]
    · intro k hk
      simp [Std.ExtTreeMap.getElem?_insert, hk]
    · intro flag k _
      cases flag <;> rfl

theorem entry_add_self (a : Accounts) (id : String) :
    (a.add id).1.entry id = (a.entry id).apply (.add id) := by
  unfold add
  rw [contains_eq_isSome]
  cases hr : (a.entry id).reputation with
  | some r => simp [Entry.apply, hr]
  | none =>
    simp only [Option.isSome_none, Bool.false_eq_true, if_false, Entry.apply, hr]
    apply Entry.ext
    · simp [entry, Entry.fresh]
    · simp [entry, Entry.fresh]
    · simp [entry, Entry.fresh]
    · funext flag
      cases flag <;> rfl

theorem index_remove (a : Accounts) (id : String) (flag : Flag) :
    ((⟨a.reputations.erase id, a.history.erase id, a.violations.erase id, a.pending.erase id,
      a.blocked.erase id⟩ : Accounts).index flag) = (a.index flag).erase id := by
  cases flag <;> rfl

theorem entry_remove_other (a : Accounts) {id other : String} (h : id ≠ other) :
    (a.remove id).1.entry other = a.entry other := by
  unfold remove
  split
  · apply entry_eq_of_other h
    · intro k hk
      simp [Std.ExtTreeMap.getElem?_erase, hk]
    · intro k hk
      simp [Std.ExtTreeMap.getElem?_erase, hk]
    · intro k hk
      simp [Std.ExtTreeMap.getElem?_erase, hk]
    · intro flag k hk
      simp [index_remove, hk]
  · rfl

theorem entry_remove_self (a : Accounts) (id : String) :
    (a.remove id).1.entry id = (a.entry id).apply (.remove id) := by
  unfold remove
  rw [contains_eq_isSome]
  cases hr : (a.entry id).reputation with
  | none => simp [Entry.apply, hr]
  | some r =>
    simp only [Option.isSome_some, if_true, Entry.apply, hr]
    apply Entry.ext
    · simp [entry, Entry.absent]
    · simp [entry, Entry.absent]
    · simp [entry, Entry.absent]
    · funext flag
      simp [entry, Entry.absent, index_remove]

theorem entry_update_other (a : Accounts) {id other : String} (record : Record) (replica : UInt64)
    (h : id ≠ other) : (a.update id record replica).1.entry other = a.entry other := by
  unfold update
  split
  · rfl
  · apply entry_eq_of_other h
    · intro k hk
      simp [Std.ExtTreeMap.getElem?_insert, hk]
    · intro k hk
      simp [Std.ExtTreeMap.getElem?_insert, hk]
    · intro k hk
      simp [Std.ExtTreeMap.getElem?_insert, hk]
    · intro flag k _
      cases flag <;> rfl

theorem entry_update_self (a : Accounts) (id : String) (record : Record) (replica : UInt64) :
    (a.update id record replica).1.entry id = (a.entry id).apply (.update id record replica) := by
  unfold update
  cases hr : a.reputation? id with
  | none =>
    have he : (a.entry id).reputation = none := hr
    simp [Entry.apply, he]
  | some r =>
    have he : (a.entry id).reputation = some r := hr
    simp only [Entry.apply, he]
    apply Entry.ext
    · simp [entry, Entry.withBook, Entry.book, historyOf, violationsOf]
    · simp [entry, Entry.withBook, Entry.book, historyOf, violationsOf]
    · simp [entry, Entry.withBook, Entry.book, historyOf, violationsOf]
    · funext flag
      cases flag <;> rfl

@[simp]
theorem withIndex_reputations (a : Accounts) (flag : Flag) (ids : Std.ExtTreeSet String) :
    (a.withIndex flag ids).reputations = a.reputations := by cases flag <;> rfl

@[simp]
theorem withIndex_history (a : Accounts) (flag : Flag) (ids : Std.ExtTreeSet String) :
    (a.withIndex flag ids).history = a.history := by cases flag <;> rfl

@[simp]
theorem withIndex_violations (a : Accounts) (flag : Flag) (ids : Std.ExtTreeSet String) :
    (a.withIndex flag ids).violations = a.violations := by cases flag <;> rfl

theorem index_withIndex (a : Accounts) (flag f : Flag) (ids : Std.ExtTreeSet String) :
    (a.withIndex flag ids).index f = if f = flag then ids else a.index f := by
  cases flag <;> cases f <;> rfl

/-- An index with one id put in or taken out. -/
theorem contains_reindex (ids : Std.ExtTreeSet String) (id k : String) (value : Bool) :
    (if value then ids.insert id else ids.erase id).contains k =
      if id = k then value else ids.contains k := by
  by_cases h : id = k <;> cases value <;> simp [h]

theorem entry_setFlag_other (a : Accounts) {id other : String} (flag : Flag) (value : Bool)
    (h : id ≠ other) : (a.setFlag id flag value).1.entry other = a.entry other := by
  unfold setFlag
  split
  · rfl
  · split
    · rfl
    · apply entry_eq_of_other h
      · intro k hk
        simp [Std.ExtTreeMap.getElem?_insert, hk]
      · intro k _
        simp
      · intro k _
        simp
      · intro f k hk
        rw [index_withIndex]
        split
        · rename_i hf
          subst hf
          simp [contains_reindex, hk]
        · cases f <;> rfl

theorem entry_setFlag_self (a : Accounts) (id : String) (flag : Flag) (value : Bool) :
    (a.setFlag id flag value).1.entry id = (a.entry id).apply (.setFlag id flag value) := by
  unfold setFlag
  cases hr : a.reputation? id with
  | none =>
    have he : (a.entry id).reputation = none := hr
    simp [Entry.apply, he]
  | some r =>
    have he : (a.entry id).reputation = some r := hr
    simp only [Entry.apply, he]
    split
    · rfl
    · apply Entry.ext
      · simp [entry, Entry.withFlag]
      · simp [entry, Entry.withFlag]
      · simp [entry, Entry.withFlag]
      · funext f
        simp only [entry, Entry.withFlag, index_withIndex]
        split
        · simp [contains_reindex]
        · cases f <;> rfl

/-- A mutation changes the entry it names, by what that entry holds, and no other. -/
theorem entry_apply (a : Accounts) (m : Mutation) (id : String) :
    (a.apply m).1.entry id = if m.peerId = id then (a.entry id).apply m else a.entry id := by
  split
  · rename_i h
    subst h
    cases m with
    | add id => exact entry_add_self a id
    | remove id => exact entry_remove_self a id
    | update id record replica => exact entry_update_self a id record replica
    | setFlag id flag value => exact entry_setFlag_self a id flag value
  · rename_i h
    cases m with
    | add _ => exact entry_add_other a h
    | remove _ => exact entry_remove_other a h
    | update _ record replica => exact entry_update_other a record replica h
    | setFlag _ flag value => exact entry_setFlag_other a flag value h

end AdminPlane.Accounts
