import AdminPlane.Ledger.Ring
import Mathlib.Data.Nat.ModEq
import Mathlib.Order.Bounds.Basic

namespace AdminPlane

namespace Feed

theorem room_least (n : Nat) : IsLeast {c | Nat.isPowerOfTwo c ∧ max n 1 ≤ c} (room n) := by
  change IsLeast _ (if n ≤ 1 then 1 else 2 ^ ((n - 1).log2 + 1))
  split
  · exact ⟨⟨⟨0, rfl⟩, by omega⟩, fun c hc => by have := hc.2; omega⟩
  · have hlt : n - 1 < 2 ^ ((n - 1).log2 + 1) := Nat.lt_log2_self
    refine ⟨⟨⟨_, rfl⟩, by omega⟩, ?_⟩
    rintro c ⟨⟨k, rfl⟩, hc⟩
    have hle : 2 ^ (n - 1).log2 ≤ n - 1 := Nat.log2_self_le (by omega)
    have hlog : (n - 1).log2 < k := (Nat.pow_lt_pow_iff_right Nat.one_lt_two).mp (by omega)
    exact Nat.pow_le_pow_right Nat.two_pos hlog

/-- No item is dropped before there is need to. -/
def Full (f : Feed α) : Prop := f.kept.length = min f.sent f.capacity

/-- The receiver has yet to see `waiting`, or to lose it. -/
structure Owes (f : Feed α) (r : Receiver) (waiting : List α) : Prop where
  sent : f.sent = r.next + waiting.length
  kept : f.kept.take waiting.length = waiting.reverse.take f.capacity

theorem full_ofCapacity (n : Nat) : (ofCapacity n : Feed α).Full := by
  simp [Full, ofCapacity]

theorem full_send {f : Feed α} (h : f.Full) (x : α) : (f.send x).Full := by
  have hkept : f.kept.length = min f.sent f.capacity := h
  simp only [Full, send, List.length_take, List.length_cons, hkept]
  omega

theorem owes_subscribe (f : Feed α) : f.Owes f.subscribe [] := ⟨rfl, by simp⟩

theorem owes_send {f : Feed α} {r : Receiver} {waiting : List α} (h : f.Owes r waiting) (x : α) :
    (f.send x).Owes r (waiting ++ [x]) := by
  obtain ⟨hsent, hkept⟩ := h
  refine ⟨?_, ?_⟩
  · rw [List.length_append, List.length_singleton, ← Nat.add_assoc, ← hsent]
    rfl
  · rw [List.reverse_append, List.reverse_singleton, List.singleton_append, List.length_append,
      List.length_singleton]
    change ((x :: f.kept).take f.capacity).take (waiting.length + 1) =
      (x :: waiting.reverse).take f.capacity
    cases hc : f.capacity with
    | zero => rfl
    | succ c =>
      rw [hc] at hkept
      have hshort := congrArg (List.take c) hkept
      rw [List.take_take, List.take_take, Nat.min_eq_left (Nat.le_succ c)] at hshort
      rw [List.take_succ_cons, List.take_succ_cons, List.take_succ_cons, List.take_take,
        Nat.min_comm, hshort]

/-- What is due to one who waits for `waiting` if `capacity` items are kept. -/
def due (capacity : Nat) (waiting : List α) : Delivery α :=
  ⟨waiting.length - capacity, waiting.drop (waiting.length - capacity)⟩

theorem drain_owed {f : Feed α} {r : Receiver} {waiting : List α} (hf : f.Full)
    (h : f.Owes r waiting) : f.drain r = (due f.capacity waiting, f.subscribe) := by
  obtain ⟨hsent, hkept⟩ := h
  have hlength : f.kept.length = min f.sent f.capacity := hf
  have hlost : f.sent - f.kept.length - r.next = waiting.length - f.capacity := by omega
  have hitems : (f.kept.take (f.sent - r.next)).reverse =
      waiting.drop (waiting.length - f.capacity) := by
    rw [hsent, Nat.add_sub_cancel_left, hkept, List.take_reverse, List.reverse_reverse]
  rw [drain, hlost, hitems]
  rfl

theorem due_total (capacity : Nat) (waiting : List α) :
    (due capacity waiting).items.length + (due capacity waiting).lost = waiting.length := by
  simp only [due, List.length_drop]
  omega

theorem due_sublist (capacity : Nat) (waiting : List α) :
    (due capacity waiting).items.Sublist waiting :=
  List.drop_sublist _ _

theorem due_whole {capacity : Nat} {waiting : List α} (h : (due capacity waiting).lost = 0) :
    (due capacity waiting).items = waiting := by
  change waiting.drop _ = waiting
  rw [show waiting.length - capacity = 0 from h, List.drop_zero]

end Feed

namespace Ring

/-- Every slot waits for one position among the next round. -/
def Sound (ring : Ring α) : Prop :=
  ∀ i, ∃ p : Nat, (ring.slots i).pos + ring.capacity = p ∧ ring.index p = i ∧ ring.tail ≤ p ∧
    p < ring.tail + ring.capacity

/-- The receiver has yet to see `waiting`, or to lose it; what it can still see is in its slot. -/
structure Owes (ring : Ring α) (r : Receiver) (waiting : List α) : Prop where
  counted : ring.receivers ≠ 0
  tail : ring.tail = r.next + waiting.length
  holds : ∀ (j : Nat) (h : j < waiting.length), waiting.length ≤ j + ring.capacity →
    ring.slots (ring.index (r.next + j)) = ⟨(r.next + j : Nat), some (waiting[j])⟩

/-- Positions that are less than a round apart have different slots. -/
theorem eq_of_index {ring : Ring α} {p q : Nat} (h : ring.index p = ring.index q) (hle : q ≤ p)
    (hlt : p < q + ring.capacity) : p = q := by
  have hmod : p % ring.capacity = q % ring.capacity := congrArg Fin.val h
  have hdvd : ring.capacity ∣ p - q := (Nat.modEq_iff_dvd' hle).mp hmod.symm
  have hzero := Nat.eq_zero_of_dvd_of_lt hdvd (by omega)
  omega

theorem index_round (ring : Ring α) (p : Nat) :
    ring.index (p + ring.capacity) = ring.index p :=
  Fin.ext (Nat.add_mod_right p ring.capacity)

theorem sound_ofCapacity (n : Nat) : (ofCapacity n : Ring α).Sound := by
  intro i
  have hi : i.val < Feed.room n := i.isLt
  refine ⟨i.val, ?_, Fin.ext (Nat.mod_eq_of_lt hi), Nat.zero_le _, ?_⟩
  · simp [ofCapacity]
  · simpa [ofCapacity] using hi

theorem sound_send {ring : Ring α} (h : ring.Sound) (x : α) : (ring.send x).Sound := by
  unfold send
  split
  · exact h
  · intro i
    by_cases hi : i = ring.index ring.tail
    · refine ⟨ring.tail + ring.capacity, ?_, ?_, ?_, ?_⟩
      · simp [hi]
      · exact (index_round ring ring.tail).trans hi.symm
      · have hpos := ring.nonempty
        dsimp only
        omega
      · dsimp only
        omega
    · obtain ⟨p, hpos, hp, hle, hlt⟩ := h i
      have hne : p ≠ ring.tail := fun he => hi (by rw [← hp, he])
      refine ⟨p, ?_, hp, ?_, ?_⟩
      · simpa [Function.update_of_ne hi] using hpos
      · dsimp only
        omega
      · dsimp only
        omega

theorem capacity_send (ring : Ring α) (x : α) : (ring.send x).capacity = ring.capacity := by
  rw [send]
  split
  all_goals rfl

theorem owes_subscribe (ring : Ring α) : ring.subscribe.1.Owes ring.subscribe.2 [] :=
  ⟨Nat.succ_ne_zero _, rfl, fun _ h => absurd h (Nat.not_lt_zero _)⟩

theorem owes_subscribed {ring : Ring α} {r : Receiver} {w : List α} (h : ring.Owes r w) :
    ring.subscribe.1.Owes r w :=
  ⟨Nat.succ_ne_zero _, h.tail, h.holds⟩

theorem owes_send {ring : Ring α} {r : Receiver} {w : List α} (h : ring.Owes r w) (x : α) :
    (ring.send x).Owes r (w ++ [x]) := by
  obtain ⟨hcounted, htail, hholds⟩ := h
  rw [send, if_neg hcounted]
  refine ⟨hcounted, ?_, fun j hj hkept => ?_⟩
  · rw [List.length_append, List.length_singleton, ← Nat.add_assoc, ← htail]
  · rw [List.length_append, List.length_singleton] at hj hkept
    change Function.update ring.slots (ring.index ring.tail) _ (ring.index (r.next + j)) = _
    by_cases hlast : j = w.length
    · subst hlast
      rw [← htail, Function.update_self]
      simp
    · have hne : ring.index (r.next + j) ≠ ring.index ring.tail := fun he => by
        have heq := eq_of_index he.symm (by omega) (by dsimp only at hkept; omega)
        omega
      rw [Function.update_of_ne hne, hholds j (by omega) (by dsimp only at hkept; omega),
        List.getElem_append_left]

section Receive

variable {ring : Ring α} {r : Receiver}

theorem tryReceive_empty (hs : ring.Sound) (h : ring.Owes r []) :
    ring.tryReceive r = (.empty, r) := by
  obtain ⟨p, hpos, hp, hle, hlt⟩ := hs (ring.index r.next)
  have htail : ring.tail = r.next := h.tail
  have hround : p = ring.tail := eq_of_index (by rw [hp, htail]) hle hlt
  have hcapacity := ring.nonempty
  rw [tryReceive, if_neg (by omega), if_pos (by omega)]

theorem tryReceive_item {x : α} {w : List α} (h : ring.Owes r (x :: w))
    (hkept : (x :: w).length ≤ ring.capacity) :
    ring.tryReceive r = (.item x, ⟨r.next + 1⟩) ∧ ring.Owes ⟨r.next + 1⟩ w := by
  obtain ⟨hcounted, htail, hholds⟩ := h
  have hslot := hholds 0 (Nat.succ_pos _) (by omega)
  refine ⟨?_, hcounted, ?_, fun j hj hfits => ?_⟩
  · rw [Nat.add_zero] at hslot
    rw [tryReceive, hslot, if_pos rfl]
    rfl
  · rw [htail, List.length_cons]
    dsimp only
    omega
  · have hnext := hholds (j + 1) (Nat.succ_lt_succ hj) (by rw [List.length_cons]; omega)
    rw [List.getElem_cons_succ, show r.next + (j + 1) = r.next + 1 + j by omega] at hnext
    exact hnext

/-- A receiver that has fallen behind by more than a round goes on from the oldest item. -/
theorem tryReceive_lagged {w : List α} (hs : ring.Sound) (h : ring.Owes r w)
    (hlost : ring.capacity < w.length) :
    ring.tryReceive r = (.lagged (w.length - ring.capacity), ⟨ring.tail - ring.capacity⟩) ∧
      ring.Owes ⟨ring.tail - ring.capacity⟩ (w.drop (w.length - ring.capacity)) := by
  obtain ⟨p, hpos, hp, hle, hlt⟩ := hs (ring.index r.next)
  obtain ⟨hcounted, htail, hholds⟩ := h
  refine ⟨?_, hcounted, ?_, fun j hj _ => ?_⟩
  · rw [tryReceive, if_neg (by omega), if_neg (by omega)]
    dsimp only
    rw [if_neg (by omega), htail]
    congr 2
    omega
  · rw [List.length_drop]
    dsimp only
    omega
  · rw [List.length_drop] at hj
    have hslot := hholds (w.length - ring.capacity + j) (by omega) (by omega)
    have hplace : r.next + (w.length - ring.capacity + j) = ring.tail - ring.capacity + j := by
      omega
    rw [hplace] at hslot
    rw [List.getElem_drop]
    exact hslot

theorem receiveAll_kept {w : List α} (hs : ring.Sound) (h : ring.Owes r w)
    (hkept : w.length ≤ ring.capacity) {fuel : Nat} (hfuel : w.length < fuel) :
    ring.receiveAll fuel r = (w.map .item, ⟨ring.tail⟩) := by
  induction w generalizing r fuel with
  | nil =>
    obtain ⟨fuel, rfl⟩ := Nat.exists_eq_succ_of_ne_zero (Nat.ne_zero_of_lt hfuel)
    rw [receiveAll, tryReceive_empty hs h, show ring.tail = r.next from h.tail]
    rfl
  | cons x w ih =>
    obtain ⟨fuel, rfl⟩ := Nat.exists_eq_succ_of_ne_zero (Nat.ne_zero_of_lt hfuel)
    obtain ⟨hlook, howes⟩ := tryReceive_item h hkept
    rw [receiveAll, hlook]
    dsimp only
    rw [ih howes (Nat.le_of_succ_le hkept) (Nat.lt_of_succ_lt_succ hfuel)]
    rfl

/-- All looks of a drain come to what is due. -/
theorem drain_owed {w : List α} (hs : ring.Sound) (h : ring.Owes r w) :
    ring.drain r = ((Feed.due ring.capacity w).looks, ring.subscribe.2) := by
  rw [drain, Delivery.looks]
  by_cases hkept : w.length ≤ ring.capacity
  · have hlost : w.length - ring.capacity = 0 := Nat.sub_eq_zero_of_le hkept
    rw [receiveAll_kept hs h hkept (by omega)]
    simp only [Feed.due, hlost, if_true, List.nil_append, List.drop_zero]
    rfl
  · obtain ⟨hlook, howes⟩ := tryReceive_lagged hs h (Nat.lt_of_not_le hkept)
    have hlost : w.length - ring.capacity ≠ 0 := by omega
    have hlength : (w.drop (w.length - ring.capacity)).length = ring.capacity := by
      rw [List.length_drop]
      omega
    rw [receiveAll, hlook]
    dsimp only
    rw [receiveAll_kept hs howes (Nat.le_of_eq hlength) (by omega)]
    simp only [Feed.due, hlost, if_false, List.singleton_append]
    rfl

theorem owes_drained {w : List α} (h : ring.Owes r w) : ring.Owes ring.subscribe.2 [] :=
  ⟨h.counted, rfl, fun _ h => absurd h (Nat.not_lt_zero _)⟩

end Receive

end Ring

end AdminPlane
