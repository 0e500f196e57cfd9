import AdminPlane.Proofs.Ledger.Batch
import AdminPlane.Proofs.Ledger.Listing

namespace AdminPlane

section Page

variable {α : Type} (log : List α)

theorem page_eq (first last : Nat) : page log first last = (log.drop first).take (last - first) := by
  unfold page
  split
  · rfl
  · rename_i h
    rw [Nat.sub_eq_zero_of_le (Nat.le_of_not_lt h), List.take_zero]

theorem length_page (first last : Nat) :
    (page log first last).length = min last log.length - first := by
  rw [page_eq, List.length_take, List.length_drop]
  omega

theorem page_append_page {a b c : Nat} (hab : a ≤ b) (hbc : b ≤ c) :
    page log a b ++ page log b c = page log a c := by
  have hdrop : log.drop b = (log.drop a).drop (b - a) := by
    rw [List.drop_drop, Nat.add_sub_cancel' hab]
  have hlength : c - a = (b - a) + (c - b) := by omega
  rw [page_eq, page_eq, page_eq, hdrop, hlength, List.take_add]

/-- What is put in front of a log moves its entries by as many positions. -/
theorem page_append (new : List α) (first last : Nat) :
    page (new ++ log) (first + new.length) (last + new.length) = page log first last := by
  rw [page_eq, page_eq, Nat.add_sub_add_right, Nat.add_comm first, List.drop_length_add_append]

theorem page_replicate_append (n : Nat) (x : α) (first last : Nat) :
    page (List.replicate n x ++ log) (first + n) (last + n) = page log first last := by
  have hmoved := page_append log (List.replicate n x) first last
  rwa [List.length_replicate] at hmoved

theorem page_replicate (n : Nat) (x : α) :
    page (List.replicate n x ++ log) 0 n = List.replicate n x := by
  rw [page_eq, List.drop_zero, Nat.sub_zero, List.take_left' List.length_replicate]

/-- The oldest entry of a log stands on a page if its position, the last of the log, does. -/
theorem page_concat (x : α) (first last : Nat) : page (log ++ [x]) first last =
    page log first last ++ if first ≤ log.length ∧ log.length < last then [x] else [] := by
  have hlength : [x].length = 1 := rfl
  rw [page_eq, page_eq, List.drop_append, List.take_append, List.length_drop]
  split
  · rename_i h
    have hroom : [x].length ≤ last - first - (log.length - first) := by omega
    rw [Nat.sub_eq_zero_of_le h.1, List.drop_zero, List.take_of_length_le hroom]
  · rename_i h
    by_cases hfirst : first ≤ log.length
    · have hfull : last - first - (log.length - first) = 0 := by omega
      rw [hfull, List.take_zero]
    · have hbefore : [x].length ≤ first - log.length := by omega
      rw [List.drop_eq_nil_of_le hbefore, List.take_nil]

/-- The entries at the positions of a page, and no others. -/
theorem page_positions (first last : Nat) : page log first last =
    (log.zipIdx.filter fun entry => first ≤ entry.2 ∧ entry.2 < last).map Prod.fst := by
  -- From the oldest entry on, so that the positions of the others stay.
  induction log using List.reverseRecOn with
  | nil => rw [page_eq, List.drop_nil, List.take_nil]; rfl
  | append_singleton log x ih =>
    rw [page_concat, ih, List.zipIdx_append, List.filter_append, List.map_append, Nat.zero_add]
    congr 1
    simp only [List.zipIdx_singleton, List.filter_cons, List.filter_nil, decide_eq_true_eq]
    split
    · rfl
    · rfl

end Page

/-- What is read of a log page by page: the entries at the positions from the first on and before
the last, as far as the log goes. Pages that meet make one page. -/
structure Pages {α : Type} (log : List α) (read : Nat → Nat → List α) : Prop where
  positions : ∀ first last, read first last =
    (log.zipIdx.filter fun entry => first ≤ entry.2 ∧ entry.2 < last).map Prod.fst
  length : ∀ first last : Nat,
    ((read first last).length : Int) = max 0 (min (last : Int) log.length - first)
  joined : ∀ {a b c}, a ≤ b → b ≤ c → read a b ++ read b c = read a c

theorem pages_page {α : Type} (log : List α) : Pages log (page log) where
  positions := page_positions log
  length first last := by
    rw [length_page]
    omega
  joined := page_append_page log

namespace Ledger

/-- How many entries `n` applications of a record put in front of the log of violations. -/
def violationsAdded (record : Record) (n : Nat) : Nat := if record.violation then n else 0

/-- Where the entries of a peer's logs are found behind `n` applications of a record, and what is
found in front of them. -/
structure Moves (id : String) (record : Record) (n : Nat) (l l' : Ledger) : Prop where
  history : ∀ first last, l'.accounts.historyPage id (first + n) (last + n) =
    l.accounts.historyPage id first last
  violations : ∀ first last,
    l'.accounts.violationsPage id (first + violationsAdded record n)
      (last + violationsAdded record n) = l.accounts.violationsPage id first last
  newHistory : l'.accounts.historyPage id 0 n = List.replicate n record
  newViolations : l'.accounts.violationsPage id 0 (violationsAdded record n) =
    List.replicate (violationsAdded record n) record

theorem Posts.moves {id : String} {record : Record} {n : Nat} {r : Reputation} {l l' : Ledger}
    (h : Posts id record n r l l') : Moves id record n l l' := by
  have hviolations : l'.accounts.violationsOf id =
      List.replicate (violationsAdded record n) record ++ l.accounts.violationsOf id := by
    rw [h.violations, violationsAdded]
    split
    · rfl
    · rfl
  refine ⟨fun first last => ?_, fun first last => ?_, ?_, ?_⟩
  · rw [Accounts.historyPage, h.history, page_replicate_append]
    rfl
  · rw [Accounts.violationsPage, hviolations, page_replicate_append]
    rfl
  · rw [Accounts.historyPage, h.history, page_replicate]
  · rw [Accounts.violationsPage, hviolations, page_replicate]

/-- How the logs of a peer are read, and where their entries are found behind an update. -/
structure Paged (l : Ledger) (id : String) : Prop where
  history : Pages (l.accounts.historyOf id) (l.accounts.historyPage id)
  violations : Pages (l.accounts.violationsOf id) (l.accounts.violationsPage id)
  /-- Both pages are of one state. -/
  inspected : ∀ first last, l.accounts.inspect id first last =
    ⟨l.accounts.reputation? id, l.accounts.historyPage id first last,
      l.accounts.violationsPage id first last⟩
  /-- The moved bounds are counts of 64 bits only if the number of applications is one. -/
  moved : l.accounts.contains id = true → ∀ (record : Record) (replica : UInt64),
    replica.toNat + 1 < UInt64.size →
      Moves id record (replica.toNat + 1) l (l.apply (.update id record replica))

/-- Whoever reads the logs of a peer page by page, while records are applied to it, loses no entry
and reads none twice if the bounds follow the updates. -/
theorem paged (l : Ledger) (id : String) : Paged l id where
  history := pages_page _
  violations := pages_page _
  inspected _ _ := rfl
  moved tracked record replica hbound := by
    obtain ⟨r, hr⟩ := (l.accounts.contains_iff_reputation? id).mp tracked
    have hposts := posts_update l id record hr replica
    rw [Accounts.applications_eq hbound] at hposts
    exact hposts.moves

end Ledger

end AdminPlane
