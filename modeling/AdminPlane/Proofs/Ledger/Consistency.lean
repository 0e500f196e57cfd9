import AdminPlane.Proofs.Ledger.Entry

namespace AdminPlane

/-- The sum, or the end of the 64-bit range that it lies beyond. -/
def saturatingAdd (a b : Int64) : Int64 :=
  if a.toInt + b.toInt < Int64.minValue.toInt then Int64.minValue
  else if Int64.maxValue.toInt < a.toInt + b.toInt then Int64.maxValue
  else a + b

/-- The points of a log added from its oldest record to its newest. -/
def totalPoints (log : List Record) : Int64 :=
  (log.reverse.map Record.point).foldl saturatingAdd 0

theorem totalPoints_cons (r : Record) (log : List Record) :
    totalPoints (r :: log) = saturatingAdd (totalPoints log) r.point := by
  simp [totalPoints]

theorem addPoints_score (r : Reputation) (point : Int64) :
    (r.addPoints point).score = saturatingAdd r.score point := by
  unfold Reputation.addPoints saturatingAdd Int64.ofIntClamp
  dsimp only
  split
  · rename_i hl
    rw [if_neg (Int.not_lt.mpr hl)]
    split
    · rename_i hu
      rw [if_neg (Int.not_lt.mpr hu), Int64.ofIntLE_add, Int64.ofInt_toInt, Int64.ofInt_toInt]
    · rename_i hu
      rw [if_pos (Int.not_le.mp hu)]
  · rename_i hl
    rw [if_pos (Int.not_le.mp hl)]

/-- To post a record leaves the flags as they are. -/
theorem Book.post_flag (record : Record) (b : Book) :
    (b.post record).reputation.flag = b.reputation.flag := by
  funext flag
  cases flag <;> rfl

theorem Book.repeat_post_flag (record : Record) (n : Nat) (b : Book) :
    (Nat.repeat (Book.post record) n b).reputation.flag = b.reputation.flag := by
  induction n with
  | zero => rfl
  | succ n ih => exact (Book.post_flag record _).trans ih

/-- The score is that of the history, and the violations are those of the history. -/
structure Book.Sound (id : String) (flags : Flag → Bool) (b : Book) : Prop where
  named : b.reputation.peerId = id
  flagged : b.reputation.flag = flags
  score : b.reputation.score = totalPoints b.history
  violations : b.violations = b.history.filter (·.violation)

theorem Book.Sound.post {id : String} {flags : Flag → Bool} {b : Book} (h : b.Sound id flags)
    (r : Record) : (b.post r).Sound id flags where
  named := h.named
  flagged := (b.post_flag r).trans h.flagged
  score := by
    have hs := h.score
    simp only [Book.post, totalPoints_cons, addPoints_score, hs]
  violations := by
    have hv := h.violations
    cases hr : r.violation <;> simp [Book.post, hr, hv]

/-- Every application of a record keeps the book sound, however many there are. -/
theorem Book.Sound.repeat {id : String} {flags : Flag → Bool} {b : Book} (h : b.Sound id flags)
    (r : Record) (n : Nat) : (Nat.repeat (Book.post r) n b).Sound id flags := by
  induction n with
  | zero => exact h
  | succ n ih => exact ih.post r

namespace Accounts

/-- An entry is missing altogether, or it has both logs, and indexes that repeat its flags. -/
inductive Entry.Sound (id : String) : Entry → Prop where
  | absent : Sound id absent
  | tracked (b : Book) (book : b.Sound id b.reputation.flag) :
    Sound id ⟨some b.reputation, some b.history, some b.violations, b.reputation.flag⟩

theorem Entry.Sound.fresh (id : String) : (Entry.fresh id fun _ => false).Sound id := by
  have hf : (Reputation.ofPeer id).flag = fun _ => false := by
    funext flag
    cases flag <;> rfl
  have hb : Book.Sound id (Reputation.ofPeer id).flag ⟨.ofPeer id, [], []⟩ := ⟨rfl, rfl, rfl, rfl⟩
  have he := Entry.Sound.tracked ⟨.ofPeer id, [], []⟩ hb
  rwa [hf] at he

theorem setFlag_flag (r : Reputation) (flag f : Flag) (value : Bool) :
    (r.setFlag flag value).flag f = if f = flag then value else r.flag f := by
  cases flag <;> cases f <;> rfl

theorem Entry.Sound.apply {e : Entry} (h : e.Sound m.peerId) : (e.apply m).Sound m.peerId := by
  cases h with
  | absent =>
    cases m with
    | add id => exact Entry.Sound.fresh id
    | remove id => exact .absent
    | update id record replica => exact .absent
    | setFlag id flag value => exact .absent
  | tracked b hb =>
    cases m with
    | add id => exact .tracked b hb
    | remove id => exact .absent
    | update id record replica =>
      let posted := Nat.repeat (Book.post record) (applications replica) b
      have hp : posted.Sound id b.reputation.flag := hb.repeat record (applications replica)
      have hf : posted.reputation.flag = b.reputation.flag := hp.flagged
      have ht := Entry.Sound.tracked posted (by rwa [hf])
      rwa [hf] at ht
    | setFlag id flag value =>
      simp only [Entry.apply]
      split
      · exact .tracked b hb
      · have hs : Book.Sound id (b.reputation.setFlag flag value).flag
            ⟨b.reputation.setFlag flag value, b.history, b.violations⟩ := by
          refine ⟨?_, rfl, ?_, hb.violations⟩
          · cases flag <;> exact hb.named
          · cases flag <;> exact hb.score
        have hf : (b.reputation.setFlag flag value).flag =
            fun f => if f = flag then value else b.reputation.flag f := by
          funext f
          exact setFlag_flag b.reputation flag f value
        have ht := Entry.Sound.tracked
          ⟨b.reputation.setFlag flag value, b.history, b.violations⟩ hs
        rwa [hf] at ht

/-- Every id has a sound entry. -/
def Sound (a : Accounts) : Prop := ∀ id, (a.entry id).Sound id

theorem Sound.empty : empty.Sound := by
  intro id
  rw [entry_empty]
  exact .absent

theorem Sound.apply {a : Accounts} (h : a.Sound) (m : Mutation) : (a.apply m).1.Sound := by
  intro id
  rw [entry_apply]
  split
  · rename_i hm
    subst hm
    exact (h m.peerId).apply
  · exact h id

/-- What the five tables of a ledger have to say about each other. -/
structure Consistent (a : Accounts) : Prop where
  historyKeys : ∀ id, id ∈ a.history ↔ id ∈ a.reputations
  violationsKeys : ∀ id, id ∈ a.violations ↔ id ∈ a.reputations
  named : ∀ id r, a.reputation? id = some r → r.peerId = id
  indexed : ∀ flag id, id ∈ (a.index flag).toList ↔
    ∃ r, a.reputation? id = some r ∧ r.flag flag = true
  indexedOnce : ∀ flag, (a.index flag).toList.Nodup
  violations : ∀ id, id ∈ a.reputations →
    a.violationsOf id = (a.historyOf id).filter (·.violation)
  score : ∀ id r, a.reputation? id = some r → r.score = totalPoints (a.historyOf id)

theorem nodup_toList (ids : Std.ExtTreeSet String) : ids.toList.Nodup := by
  apply ids.distinct_toList.imp
  intro x y hne he
  subst he
  exact hne Std.ReflCmp.compare_self

/-- An id is in none of the tables, or in all that its book asks for. -/
theorem Sound.untracked_or_book {a : Accounts} (h : a.Sound) (id : String) :
    (a.reputations[id]? = none ∧ a.history[id]? = none ∧ a.violations[id]? = none ∧
      ∀ flag, (a.index flag).contains id = false) ∨
    ∃ b : Book, b.Sound id b.reputation.flag ∧ a.reputations[id]? = some b.reputation ∧
      a.history[id]? = some b.history ∧ a.violations[id]? = some b.violations ∧
      ∀ flag, (a.index flag).contains id = b.reputation.flag flag := by
  have hs := h id
  generalize he : a.entry id = e at hs
  cases hs with
  | absent =>
    simp only [entry, Entry.absent, Entry.mk.injEq] at he
    obtain ⟨hr, hh, hv, hi⟩ := he
    exact Or.inl ⟨hr, hh, hv, fun flag => congrFun hi flag⟩
  | tracked b hb =>
    simp only [entry, Entry.mk.injEq] at he
    obtain ⟨hr, hh, hv, hi⟩ := he
    exact Or.inr ⟨b, hb, hr, hh, hv, fun flag => congrFun hi flag⟩

/-- The book of a tracked peer. -/
theorem Sound.book {a : Accounts} {id : String} {r : Reputation} (h : a.Sound)
    (hr : a.reputation? id = some r) :
    Book.Sound id r.flag ⟨r, a.historyOf id, a.violationsOf id⟩ := by
  unfold reputation? at hr
  rcases h.untracked_or_book id with ⟨hn, _⟩ | ⟨b, hb, hs, hh, hv, _⟩
  · rw [hn] at hr
    cases hr
  · rw [hs] at hr
    cases hr
    simpa [historyOf, violationsOf, hh, hv] using hb

theorem Sound.consistent {a : Accounts} (h : a.Sound) : a.Consistent where
  historyKeys id := by
    rw [Std.ExtTreeMap.mem_iff_isSome_getElem?, Std.ExtTreeMap.mem_iff_isSome_getElem?]
    rcases h.untracked_or_book id with ⟨hr, hh, _⟩ | ⟨b, _, hr, hh, _⟩
    · simp [hr, hh]
    · simp [hr, hh]
  violationsKeys id := by
    rw [Std.ExtTreeMap.mem_iff_isSome_getElem?, Std.ExtTreeMap.mem_iff_isSome_getElem?]
    rcases h.untracked_or_book id with ⟨hr, _, hv, _⟩ | ⟨b, _, hr, _, hv, _⟩
    · simp [hr, hv]
    · simp [hr, hv]
  named _ _ hr := (h.book hr).named
  indexed flag id := by
    rw [Std.ExtTreeSet.mem_toList, Std.ExtTreeSet.mem_iff_contains, reputation?]
    rcases h.untracked_or_book id with ⟨hr, _, _, hi⟩ | ⟨b, _, hr, _, _, hi⟩
    · simp [hr, hi]
    · simp [hr, hi]
  indexedOnce flag := nodup_toList (a.index flag)
  violations id hm := by
    rw [Std.ExtTreeMap.mem_iff_isSome_getElem?, Option.isSome_iff_exists] at hm
    obtain ⟨r, hr⟩ := hm
    exact (h.book hr).violations
  score _ _ hr := (h.book hr).score

end Accounts

theorem Ledger.apply_accounts (l : Ledger) (m : Mutation) :
    (l.apply m).accounts = (l.accounts.apply m).1 := rfl

theorem Ledger.sound_foldl {l : Ledger} (h : l.accounts.Sound) (ms : List Mutation) :
    (ms.foldl Ledger.apply l).accounts.Sound := by
  induction ms generalizing l with
  | nil => exact h
  | cons m ms ih => exact ih (h.apply m)

/-- Whatever is asked of a new ledger, its tables stay in step. -/
theorem Ledger.run_consistent (capacity : Nat) (ms : List Mutation) :
    (ms.foldl Ledger.apply (.ofCapacity capacity)).accounts.Consistent := by
  have hs := Ledger.sound_foldl (l := .ofCapacity capacity) Accounts.Sound.empty ms
  exact hs.consistent

end AdminPlane
