import AdminPlane.Proofs.Ledger.Listing
import Mathlib.Data.List.DropRight

namespace AdminPlane

namespace Mutation

/-- The mutations that name a peer and come behind its last removal. -/
def since (id : String) (ms : List Mutation) : List Mutation :=
  (ms.filter (·.peerId = id)).rtakeWhile (· ≠ .remove id)

/-- The value that a mutation asks for, if it is about the flag. -/
def asks (flag : Flag) : Mutation → Option Bool
  | setFlag _ f value => if f = flag then some value else none
  | _ => none

/-- The last value asked for once the peer is added. What is asked before that is void. -/
def lastAsked (flag : Flag) (id : String) (ms : List Mutation) : Option Bool :=
  ((ms.dropWhile (· ≠ .add id)).filterMap (asks flag)).getLast?

theorem since_concat (id : String) (ms : List Mutation) (m : Mutation) : since id (ms ++ [m]) =
    if m.peerId = id then if m = .remove id then [] else since id ms ++ [m] else since id ms := by
  by_cases hid : m.peerId = id
  · by_cases hm : m = .remove id
    · simp [since, hm, peerId, List.rtakeWhile_concat_neg]
    · simp [since, hid, hm, List.rtakeWhile_concat_pos]
  · simp [since, hid]

theorem mem_since {id : String} {ms : List Mutation} {m : Mutation} (h : m ∈ since id ms) :
    m.peerId = id ∧ m ≠ .remove id := by
  refine ⟨?_, by simpa using List.mem_rtakeWhile_imp h⟩
  have hfilter := (List.rtakeWhile_suffix _ _).subset h
  simpa using (List.mem_filter.mp hfilter).2

theorem since_since (id : String) (ms : List Mutation) : since id (since id ms) = since id ms := by
  have hfilter : (since id ms).filter (·.peerId = id) = since id ms := by
    rw [List.filter_eq_self]
    intro m hm
    simpa using (mem_since hm).1
  rw [since, hfilter]
  exact List.rtakeWhile_idempotent _ _

end Mutation

namespace Accounts

open Mutation

/-- Nothing that can be asked about a peer tells the two states apart. -/
structure SameOf (id : String) (a b : Accounts) : Prop where
  reputation : a.reputation? id = b.reputation? id
  tracked : a.contains id = b.contains id
  history : a.historyOf id = b.historyOf id
  violations : a.violationsOf id = b.violationsOf id
  listed : id ∈ a.ids ↔ id ∈ b.ids
  indexed : ∀ flag, id ∈ (a.index flag).toList ↔ id ∈ (b.index flag).toList

/-- All that can be asked about a peer is in its entry. -/
theorem sameOf_of_entry {a b : Accounts} {id : String} (h : a.entry id = b.entry id) :
    SameOf id a b := by
  have htracked : a.contains id = b.contains id := by
    rw [contains_eq_isSome, contains_eq_isSome, h]
  refine ⟨congrArg Entry.reputation h, htracked, ?_, ?_, ?_, fun flag => ?_⟩
  · exact congrArg (fun e => e.history.getD []) h
  · exact congrArg (fun e => e.violations.getD []) h
  · rw [mem_ids, mem_ids, htracked]
  · have hindexed := congrFun (congrArg Entry.indexed h) flag
    rw [Std.ExtTreeSet.mem_toList, Std.ExtTreeSet.mem_toList, Std.ExtTreeSet.mem_iff_contains,
      Std.ExtTreeSet.mem_iff_contains]
    exact Eq.to_iff (congrArg (· = true) hindexed)

namespace Entry

theorem apply_remove {e : Entry} {id : String} (h : e.Sound id) :
    e.apply (.remove id) = absent := by
  cases h with
  | absent => rfl
  | tracked b _ => rfl

/-- Nothing but an addition has an effect on an untracked peer. -/
theorem absent_apply {m : Mutation} (h : m ≠ .add m.peerId) : absent.apply m = absent := by
  cases m with
  | add id => exact absurd rfl h
  | remove _ | update _ _ _ | setFlag _ _ _ => rfl

theorem absent_run {ms : List Mutation} (h : ∀ m ∈ ms, m ≠ .add m.peerId) :
    ms.foldl apply absent = absent := by
  induction ms with
  | nil => rfl
  | cons m ms ih =>
    rw [List.foldl_cons, absent_apply (h m List.mem_cons_self)]
    exact ih fun m hm => h m (List.mem_cons_of_mem _ hm)

/-- A tracked peer stays tracked unless it is removed, and its flags are as they were last asked
to be. -/
theorem tracked_apply {e : Entry} {r : Reputation} (hr : e.reputation = some r) {m : Mutation}
    (hm : m ≠ .remove m.peerId) : ∃ r', (e.apply m).reputation = some r' ∧
      ∀ flag, r'.flag flag = (m.asks flag).getD (r.flag flag) := by
  cases m with
  | add id => exact ⟨r, by simp only [apply, hr], fun _ => rfl⟩
  | remove id => exact absurd rfl hm
  | update id record replica =>
    let n := applications replica
    exact ⟨(Nat.repeat (Book.post record) n (e.book r)).reputation,
      by simp only [apply, hr, withBook, n],
      fun flag => congrFun (Book.repeat_post_flag record n (e.book r)) flag⟩
  | setFlag id f value =>
    simp only [apply, hr]
    split
    · rename_i hvalue
      refine ⟨r, hr, fun flag => ?_⟩
      by_cases hf : f = flag
      · simp [asks, hf, ← hvalue]
      · simp [asks, hf]
    · refine ⟨r.setFlag f value, rfl, fun flag => ?_⟩
      rw [setFlag_flag]
      by_cases hf : f = flag
      · simp [asks, hf]
      · simp [asks, hf, Ne.symm hf]

theorem tracked_run {e : Entry} {r : Reputation} (hr : e.reputation = some r)
    {ms : List Mutation} (h : ∀ m ∈ ms, m ≠ .remove m.peerId) :
    ∃ r', (ms.foldl apply e).reputation = some r' ∧
      ∀ flag, r'.flag flag = (ms.filterMap (asks flag)).getLast?.getD (r.flag flag) := by
  induction ms generalizing e r with
  | nil => exact ⟨r, hr, fun _ => rfl⟩
  | cons m ms ih =>
    obtain ⟨s, hs, hsflag⟩ := tracked_apply hr (h m List.mem_cons_self)
    obtain ⟨t, ht, htflag⟩ := ih hs fun m hm => h m (List.mem_cons_of_mem _ hm)
    refine ⟨t, ht, fun flag => ?_⟩
    rw [htflag, hsflag, List.filterMap_cons]
    cases m.asks flag with
    | none => rfl
    | some value => simp [List.getLast?_cons]

end Entry

/-- The entry of a peer comes from the mutations that name it since its last removal. -/
theorem entry_run (id : String) (l : Ledger) (hl : l.accounts = .empty) (ms : List Mutation) :
    (ms.foldl Ledger.apply l).accounts.entry id = (since id ms).foldl Entry.apply .absent := by
  induction ms using List.reverseRecOn with
  | nil =>
    rw [List.foldl_nil, hl, entry_empty]
    rfl
  | append_singleton ms m ih =>
    rw [List.foldl_append, List.foldl_cons, List.foldl_nil, Ledger.apply_accounts, entry_apply,
      since_concat]
    by_cases hid : m.peerId = id
    · rw [if_pos hid, if_pos hid]
      by_cases hm : m = .remove id
      · have hsound := Ledger.sound_foldl (hl ▸ Sound.empty) ms
        rw [if_pos hm, hm]
        exact Entry.apply_remove (hsound id)
      · rw [if_neg hm, ih, List.foldl_append]
        rfl
    · rw [if_neg hid, if_neg hid, ih]

/-- A peer that is never removed is tracked from its first addition on, and its flags are as they
were last asked to be since. -/
theorem Entry.absent_or_tracked {id : String} {ms : List Mutation}
    (h : ∀ m ∈ ms, m.peerId = id ∧ m ≠ .remove id) :
    (.add id ∉ ms ∧ ms.foldl Entry.apply absent = absent) ∨
      (.add id ∈ ms ∧ ∃ r, (ms.foldl Entry.apply absent).reputation = some r ∧
        ∀ flag, r.flag flag = (lastAsked flag id ms).getD false) := by
  let before := ms.takeWhile (· ≠ .add id)
  have hsplit : before ++ ms.dropWhile (· ≠ .add id) = ms := List.takeWhile_append_dropWhile
  have hbefore : ∀ m ∈ before, m ≠ .add m.peerId := by
    intro m hm
    have hadd : m ≠ .add id := by simpa using List.mem_takeWhile_imp hm
    rwa [(h m (List.takeWhile_subset _ hm)).1]
  have habsent := Entry.absent_run hbefore
  cases hafter : ms.dropWhile (· ≠ .add id) with
  | nil =>
    rw [hafter, List.append_nil] at hsplit
    rw [hsplit] at hbefore habsent
    exact .inl ⟨fun hm => hbefore _ hm rfl, habsent⟩
  | cons m after =>
    have hm : m = .add id := by
      have hhead := List.head?_dropWhile_not (· ≠ Mutation.add id) ms
      rw [hafter] at hhead
      simpa using hhead
    subst hm
    have hmem : .add id ∈ ms := by
      rw [← hsplit, hafter]
      exact List.mem_append_right _ List.mem_cons_self
    have hkept : ∀ m ∈ after, m ≠ .remove m.peerId := by
      intro m hm
      have hms : m ∈ ms := by
        rw [← hsplit, hafter]
        exact List.mem_append_right _ (List.mem_cons_of_mem _ hm)
      rw [(h m hms).1]
      exact (h m hms).2
    have hrun : ms.foldl Entry.apply absent =
        after.foldl Entry.apply (fresh id absent.indexed) := by
      rw [← hsplit, hafter, List.foldl_append, habsent]
      rfl
    obtain ⟨r, hr, hflag⟩ := Entry.tracked_run (e := fresh id absent.indexed) rfl hkept
    refine .inr ⟨hmem, r, by rw [hrun, hr], fun flag => ?_⟩
    rw [hflag, lastAsked, hafter]
    cases flag <;> rfl

end Accounts

/-- What is known of a peer depends only on the mutations that name it since its last removal, as if
a new ledger had seen no others. Among them, an addition makes the peer tracked, and the flags are
as they were last asked to be behind the first one. -/
theorem Ledger.run_isolated (capacity capacity' : Nat) (id : String) (ms : List Mutation) :
    let a := (ms.foldl apply (.ofCapacity capacity)).accounts
    let own := Mutation.since id ms
    Accounts.SameOf id a (own.foldl apply (.ofCapacity capacity')).accounts ∧
      (a.contains id = true ↔ .add id ∈ own) ∧
      ∀ r, a.reputation? id = some r →
        ∀ flag, r.flag flag = true ↔ Mutation.lastAsked flag id own = some true := by
  have hrun := Accounts.entry_run id (.ofCapacity capacity) rfl ms
  have hown := Accounts.entry_run id (.ofCapacity capacity') rfl (Mutation.since id ms)
  rw [Mutation.since_since] at hown
  refine ⟨Accounts.sameOf_of_entry (hrun.trans hown.symm), ?_⟩
  have hreputation : (ms.foldl apply (.ofCapacity capacity)).accounts.reputation? id =
      ((Mutation.since id ms).foldl Accounts.Entry.apply .absent).reputation :=
    congrArg Accounts.Entry.reputation hrun
  simp only [Accounts.contains_eq_isSome, hrun, hreputation]
  rcases Accounts.Entry.absent_or_tracked (fun m hm => Mutation.mem_since hm) with
    ⟨hadd, habsent⟩ | ⟨hadd, r, hr, hflag⟩
  · rw [habsent]
    simpa [Accounts.Entry.absent] using hadd
  · rw [hr]
    refine ⟨by simpa using hadd, fun s hs flag => ?_⟩
    cases hs
    rw [hflag]
    cases Mutation.lastAsked flag id (Mutation.since id ms) <;> simp

end AdminPlane
