import AdminPlane.Proofs.Ledger.Isolation

namespace AdminPlane.Accounts

/-- A flag of a peer, if it is tracked. -/
def flag? (a : Accounts) (id : String) (flag : Flag) : Option Bool :=
  (a.reputation? id).map (·.flag flag)

/-- The same peers are tracked, with the same scores and logs. Their flags may differ. -/
structure SameRecords (a b : Accounts) : Prop where
  tracked : ∀ id, b.contains id = a.contains id
  score : ∀ id, (b.reputation? id).map (·.score) = (a.reputation? id).map (·.score)
  history : ∀ id, b.historyOf id = a.historyOf id
  violations : ∀ id, b.violationsOf id = a.violationsOf id

theorem SameRecords.refl (a : Accounts) : a.SameRecords a :=
  ⟨fun _ => rfl, fun _ => rfl, fun _ => rfl, fun _ => rfl⟩

theorem SameRecords.trans {a b c : Accounts} (hab : a.SameRecords b) (hbc : b.SameRecords c) :
    a.SameRecords c where
  tracked id := (hbc.tracked id).trans (hab.tracked id)
  score id := (hbc.score id).trans (hab.score id)
  history id := (hbc.history id).trans (hab.history id)
  violations id := (hbc.violations id).trans (hab.violations id)

/-- An entry whose flag is set has the score and the logs it had. -/
theorem Entry.setFlag_records (e : Entry) (id : String) (flag : Flag) (value : Bool) :
    (e.apply (.setFlag id flag value)).reputation.map (·.score) = e.reputation.map (·.score) ∧
      (e.apply (.setFlag id flag value)).history = e.history ∧
      (e.apply (.setFlag id flag value)).violations = e.violations := by
  cases hr : e.reputation with
  | none =>
    simp only [Entry.apply, hr, Option.map_none, and_self]
  | some r =>
    simp only [Entry.apply, hr]
    split
    · simp only [hr, Option.map_some, and_self]
    · refine ⟨?_, rfl, rfl⟩
      cases flag <;> rfl

theorem sameRecords_setFlag (a : Accounts) (id : String) (flag : Flag) (value : Bool) :
    a.SameRecords (a.apply (.setFlag id flag value)).1 := by
  have hentry : ∀ k,
      (((a.apply (.setFlag id flag value)).1.entry k).reputation.map (·.score) =
        (a.entry k).reputation.map (·.score) ∧
      ((a.apply (.setFlag id flag value)).1.entry k).history = (a.entry k).history ∧
      ((a.apply (.setFlag id flag value)).1.entry k).violations = (a.entry k).violations) := by
    intro k
    rw [entry_apply]
    split
    · exact (a.entry k).setFlag_records id flag value
    · exact ⟨rfl, rfl, rfl⟩
  refine ⟨fun k => ?_, fun k => (hentry k).1, fun k => ?_, fun k => ?_⟩
  · have hsome := congrArg Option.isSome (hentry k).1
    simpa only [Option.isSome_map, ← contains_eq_isSome] using hsome
  · exact congrArg (·.getD []) (hentry k).2.1
  · exact congrArg (·.getD []) (hentry k).2.2

/-- Setting a flag of a tracked peer sets that flag alone. -/
theorem flag?_setFlag {a : Accounts} {id : String} (h : a.contains id = true) (flag : Flag)
    (value : Bool) (k : String) (f : Flag) :
    (a.apply (.setFlag id flag value)).1.flag? k f =
      if k = id ∧ f = flag then some value else a.flag? k f := by
  have hpeer : (Mutation.setFlag id flag value).peerId = id := rfl
  change ((a.apply (.setFlag id flag value)).1.entry k).reputation.map (·.flag f) = _
  rw [entry_apply, hpeer]
  by_cases hk : id = k
  · subst hk
    obtain ⟨r, hr⟩ := (a.contains_iff_reputation? id).mp h
    obtain ⟨r', hr', hflag⟩ := Entry.tracked_apply (e := a.entry id) hr
      (m := .setFlag id flag value) (by simp)
    rw [if_pos rfl, hr', Option.map_some, hflag, flag?, hr, Option.map_some]
    by_cases hf : flag = f
    · simp [Mutation.asks, hf]
    · simp [Mutation.asks, hf, Ne.symm hf]
  · rw [if_neg hk, if_neg fun hkf => hk hkf.1.symm]
    rfl

/-- The members that set a flag, each with its flag, its value and the event of a change. -/
inductive FlagMember (id : String) : Mutation → Flag → Bool → Event → Prop
  | pend : FlagMember id (.pend id) .pending true (.pended id)
  | resume : FlagMember id (.resume id) .pending false (.resumed id)
  | block : FlagMember id (.block id) .blocked true (.blocked id)
  | unblock : FlagMember id (.unblock id) .blocked false (.unblocked id)

/-- A member sets its flag alone and says so, if the peer is tracked and the flag has the other
value. If not, it does nothing and says nothing. -/
theorem FlagMember.effect {id : String} {m : Mutation} {flag : Flag} {value : Bool} {event : Event}
    (h : FlagMember id m flag value event) (a : Accounts) :
    (a.flag? id flag = some (!value) → (a.apply m).2 = some event ∧
      ∀ k f, (a.apply m).1.flag? k f =
        if k = id ∧ f = flag then some value else a.flag? k f) ∧
      (a.flag? id flag ≠ some (!value) → a.apply m = (a, none)) := by
  have hshared : m = .setFlag id flag value ∧ event = .flagChanged id flag value := by
    cases h
    all_goals exact ⟨rfl, rfl⟩
  obtain ⟨rfl, rfl⟩ := hshared
  cases hr : a.reputation? id with
  | none =>
    refine ⟨fun hflag => ?_, fun _ => ?_⟩
    · rw [flag?, hr] at hflag
      cases hflag
    · simp only [Accounts.apply, setFlag, hr]
  | some r =>
    have hflag : a.flag? id flag = some (r.flag flag) := by rw [flag?, hr, Option.map_some]
    refine ⟨fun hother => ⟨?_, ?_⟩, fun hsame => ?_⟩
    · have hnew : r.flag flag ≠ value := by simp [Option.some.inj (hflag.symm.trans hother)]
      simp only [Accounts.apply, setFlag, hr, if_neg hnew]
    · exact flag?_setFlag ((a.contains_iff_reputation? id).mpr ⟨r, hr⟩) flag value
    · have hold : r.flag flag = value := by simpa [hflag] using hsame
      simp only [Accounts.apply, setFlag, hr, if_pos hold]

end AdminPlane.Accounts
