import AdminPlane.Proofs.Ledger.Events

namespace AdminPlane

/-- Clamping leaves what is within the 64-bit range and takes the nearer end for the rest. -/
theorem toInt_ofIntClamp (x : Int) :
    (Int64.ofIntClamp x).toInt = max Int64.minValue.toInt (min x Int64.maxValue.toInt) := by
  have horder : Int64.minValue.toInt ≤ Int64.maxValue.toInt := by decide
  by_cases hl : Int64.minValue.toInt ≤ x
  · by_cases hu : x ≤ Int64.maxValue.toInt
    · rw [Int64.toInt_ofIntClamp hl hu]
      omega
    · rw [Int64.ofIntClamp, dif_pos hl, dif_neg hu]
      omega
  · rw [Int64.ofIntClamp, dif_neg hl]
    omega

namespace Book

variable (record : Record) (n : Nat) (b : Book)

theorem repeat_post_violations : (Nat.repeat (Book.post record) n b).violations =
    (List.replicate n record).filter (·.violation) ++ b.violations := by
  induction n with
  | zero => rfl
  | succ n ih =>
    have hpost : (Nat.repeat (Book.post record) (n + 1) b).violations =
        if record.violation then record :: (Nat.repeat (Book.post record) n b).violations
        else (Nat.repeat (Book.post record) n b).violations := rfl
    rw [hpost, ih, List.replicate_succ, List.filter_cons]
    split
    · rfl
    · rfl

/-- To clamp after every application of one record comes to the same as to clamp once: once the score
is at an end of the range, further points of the same sign leave it there. -/
theorem repeat_post_reputation : (Nat.repeat (Book.post record) n b).reputation =
    { b.reputation with
      score := .ofIntClamp (b.reputation.score.toInt + n * record.point.toInt) } := by
  induction n with
  | zero =>
    rw [Int.natCast_zero, Int.zero_mul, Int.add_zero, Int64.ofIntClamp_toInt]
    rfl
  | succ n ih =>
    have hpost : (Nat.repeat (Book.post record) (n + 1) b).reputation =
        (Nat.repeat (Book.post record) n b).reputation.addPoints record.point := rfl
    rw [hpost, ih, Reputation.addPoints]
    congr 1
    apply Int64.toInt_inj.mp
    rw [toInt_ofIntClamp, toInt_ofIntClamp, toInt_ofIntClamp]
    have hl := b.reputation.score.minValue_le_toInt
    have hu := b.reputation.score.toInt_le
    have hn : ((n + 1 : Nat) : Int) * record.point.toInt =
        n * record.point.toInt + record.point.toInt := by
      rw [Int.natCast_add, Int.natCast_one, Int.add_mul, Int.one_mul]
    rw [hn]
    by_cases hp : 0 ≤ record.point.toInt
    · have hs : 0 ≤ n * record.point.toInt := Int.mul_nonneg (Int.natCast_nonneg n) hp
      omega
    · have hs : n * record.point.toInt ≤ 0 :=
        Int.mul_nonpos_of_nonneg_of_nonpos (Int.natCast_nonneg n) (by omega)
      omega

end Book

end AdminPlane
