import AdminPlane.Channel.Gcm

namespace AdminPlane.Channel

variable (cipher : Block → Block) (nonce : Nonce)

theorem length_split (data : List UInt8) : data.length ≤ 16 * ((data.length + 15) / 16) := by
  omega

namespace Ctr

/-- Key stream that is longer than the data is not used. -/
theorem xor_xor (data stream : List UInt8) (h : data.length ≤ stream.length) :
    List.zipWith (· ^^^ ·) (List.zipWith (· ^^^ ·) data stream) stream = data := by
  induction data generalizing stream with
  | nil => rfl
  | cons b data ih =>
    cases stream with
    | nil => simp at h
    | cons k stream =>
      have ht : data.length ≤ stream.length := by simpa using h
      simp only [List.zipWith_cons_cons, ih stream ht, List.cons.injEq, and_true]
      rw [UInt8.xor_assoc, UInt8.xor_self, UInt8.xor_zero]

/-- The first piece of the data under one block of the key stream. -/
theorem length_head (data : List UInt8) (n : UInt32) :
    (List.zipWith (· ^^^ ·) (data.take 16) (cipher (counterBlock nonce n)).toList).length =
      min 16 data.length := by
  simp

theorem length_combine (data : List UInt8) (n : UInt32) (count : Nat)
    (h : data.length ≤ 16 * count) :
    (combine cipher nonce n (pieces count data)).length = data.length := by
  induction count generalizing data n with
  | zero =>
    have hd : data = [] := List.length_eq_zero_iff.mp (by omega)
    simp [pieces, combine, hd]
  | succ count ih =>
    have hr : (data.drop 16).length ≤ 16 * count := by simp; omega
    rw [pieces, combine, List.length_append, length_head, ih _ _ hr, List.length_drop]
    omega

/-- A first piece shorter than 16 bytes is the only one. -/
theorem split_head {head tail : List UInt8}
    (h : head.length = 16 ∨ head.length ≤ 16 ∧ tail = []) :
    (head ++ tail).take 16 = head ∧ (head ++ tail).drop 16 = tail := by
  rcases h with h | ⟨h, rfl⟩
  · exact ⟨List.take_left' h, List.drop_left' h⟩
  · rw [List.append_nil]
    exact ⟨List.take_of_length_le h, List.drop_of_length_le h⟩

theorem combine_combine (data : List UInt8) (n : UInt32) (count : Nat)
    (h : data.length ≤ 16 * count) :
    combine cipher nonce n (pieces count (combine cipher nonce n (pieces count data))) = data := by
  induction count generalizing data n with
  | zero =>
    have hd : data = [] := List.length_eq_zero_iff.mp (by omega)
    simp [pieces, combine, hd]
  | succ count ih =>
    let stream := (cipher (counterBlock nonce n)).toList
    let head := List.zipWith (· ^^^ ·) (data.take 16) stream
    let tail := combine cipher nonce (n + 1) (pieces count (data.drop 16))
    have hr : (data.drop 16).length ≤ 16 * count := by simp; omega
    have hhead : head.length = min 16 data.length := length_head cipher nonce data n
    have htail : tail.length = data.length - 16 := by
      rw [length_combine cipher nonce _ _ count hr, List.length_drop]
    have hshape : head.length = 16 ∨ head.length ≤ 16 ∧ tail = [] := by
      by_cases hl : 16 ≤ data.length
      · exact Or.inl (by omega)
      · exact Or.inr ⟨by omega, List.length_eq_zero_iff.mp (by omega)⟩
    obtain ⟨ht, hd⟩ := split_head hshape
    have hx : List.zipWith (· ^^^ ·) head stream = data.take 16 := by
      apply xor_xor
      rw [List.length_take, Vector.length_toList]
      omega
    change combine cipher nonce n (pieces (count + 1) (head ++ tail)) = data
    rw [pieces, combine, ht, hd, ih (data.drop 16) (n + 1) hr]
    change List.zipWith (· ^^^ ·) head stream ++ data.drop 16 = data
    rw [hx, List.take_append_drop]

theorem length_crypt (data : List UInt8) : (crypt cipher nonce data).length = data.length :=
  length_combine cipher nonce data 2 _ (length_split data)

theorem crypt_crypt (data : List UInt8) :
    crypt cipher nonce (crypt cipher nonce data) = data := by
  have hl := length_crypt cipher nonce data
  have hc := combine_combine cipher nonce data 2 _ (length_split data)
  unfold crypt split at hl ⊢
  rw [hl]
  exact hc

end Ctr

end AdminPlane.Channel
