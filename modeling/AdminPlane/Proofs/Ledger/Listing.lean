import AdminPlane.Proofs.Ledger.Consistency
import AdminPlane.Proofs.Text.ByteOrder

namespace AdminPlane.Accounts

open Text

theorem contains_iff_reputation? (a : Accounts) (id : String) :
    a.contains id = true ↔ ∃ r, a.reputation? id = some r := by
  rw [contains_eq_isSome, Option.isSome_iff_exists]
  rfl

theorem mem_ids (a : Accounts) (id : String) : id ∈ a.ids ↔ a.contains id = true := by
  rw [ids, Std.ExtTreeMap.mem_keys, Std.ExtTreeMap.mem_iff_contains]
  rfl

section Listing

variable {a : Accounts} {ids : List String} (listed : ids.Perm a.ids)
include listed

/-- A listing has the reputation of every tracked peer, and nothing else. -/
theorem mem_listing (r : Reputation) :
    r ∈ ids.filterMap a.reputation? ↔ ∃ id, a.reputation? id = some r := by
  rw [List.mem_filterMap]
  constructor
  · rintro ⟨id, _, hr⟩
    exact ⟨id, hr⟩
  · rintro ⟨id, hr⟩
    refine ⟨id, ?_, hr⟩
    exact listed.mem_iff.mpr ((a.mem_ids id).mpr ((a.contains_iff_reputation? id).mpr ⟨r, hr⟩))

/-- Every key comes once, and is the name of its peer. -/
theorem Sound.listing_distinct (h : a.Sound) :
    (ids.filterMap a.reputation?).Pairwise fun x y => x.peerId ≠ y.peerId := by
  have hordered : a.ids.Pairwise fun x y => compare x y = .lt := a.reputations.ordered_keys
  have hdistinct : a.ids.Pairwise (· ≠ ·) := by
    refine hordered.imp fun {x y} hlt heq => ?_
    subst heq
    exact String.lt_irrefl x (compareOfLessAndEq_eq_lt.mp hlt)
  rw [List.pairwise_filterMap]
  refine ((listed.pairwise_iff Ne.symm).mpr hdistinct).imp fun {x y} hne r hr r' hr' => ?_
  rw [(h.book hr).named, (h.book hr').named]
  exact hne

end Listing

/-- Sorted by names that differ, the names increase in the order of their bytes. -/
theorem mergeSort_increasing {found : List Reputation}
    (distinct : found.Pairwise fun x y => x.peerId ≠ y.peerId) :
    (found.mergeSort fun x y => (compare x.peerId y.peerId).isLE).Pairwise
      fun x y => Utf8.encode x.peerId < Utf8.encode y.peerId := by
  let le (x y : Reputation) : Bool := (compare x.peerId y.peerId).isLE
  have htotal (x y : Reputation) : (le x y || le y x) = true := by
    have hswap : compare y.peerId x.peerId = (compare x.peerId y.peerId).swap :=
      Std.OrientedCmp.eq_swap
    simp only [le, hswap]
    cases compare x.peerId y.peerId
    all_goals rfl
  have hsorted : (found.mergeSort le).Pairwise fun x y => le x y = true :=
    List.pairwise_mergeSort (fun _ _ _ => Std.TransCmp.isLE_trans) htotal found
  have hdistinct : (found.mergeSort le).Pairwise fun x y => x.peerId ≠ y.peerId :=
    ((found.mergeSort_perm le).pairwise_iff Ne.symm).mpr distinct
  refine (hsorted.and hdistinct).imp fun ⟨hle, hne⟩ => Utf8.encode_lt ?_
  rcases Ordering.isLE_iff_eq_lt_or_eq_eq.mp hle with hlt | heq
  · exact compareOfLessAndEq_eq_lt.mp hlt
  · exact absurd (Std.LawfulEqCmp.eq_of_compare heq) hne

/-- Nothing is known of an untracked peer. -/
theorem Sound.inspect_untracked {a : Accounts} (h : a.Sound) {id : String}
    (hid : a.contains id = false) (first last : Nat) :
    a.inspect id first last = ⟨none, [], []⟩ := by
  have hpage : page ([] : List Record) first last = [] := by
    unfold page
    split
    all_goals simp
  rcases h.untracked_or_book id with ⟨hr, hh, hv, _⟩ | ⟨b, _, hr, _⟩
  · simp only [inspect, reputation?, historyPage, historyOf, violationsPage, violationsOf, hr, hh,
      hv, Option.getD_none, hpage]
  · rw [(a.contains_iff_reputation? id).mpr ⟨_, hr⟩] at hid
    cases hid

end AdminPlane.Accounts
