import AdminPlane.Channel.Gcm
import Mathlib

/-!
Elements as polynomials over the field of two elements. The hash of some blocks is their polynomial
at the subkey, and the only subkey that has a power of zero is zero itself.
-/

namespace AdminPlane.Channel.Ghash

open Polynomial

noncomputable section

set_option maxRecDepth 2000

instance factPrimeTwo : Fact (Nat.Prime 2) := ⟨Nat.prime_two⟩

def modulus : (ZMod 2)[X] := X ^ 128 + X ^ 7 + X ^ 2 + X + 1

/-- The bit `j` from the right is the coefficient of `x ^ (127 - j)`. -/
def poly (e : Element) : (ZMod 2)[X] :=
  ∑ j ∈ Finset.range 128, if e.getLsbD j then X ^ (127 - j) else 0

theorem two_eq_zero : (2 : (ZMod 2)[X]) = 0 := CharTwo.two_eq_zero

theorem degree_modulus : modulus.natDegree = 128 := by
  unfold modulus
  compute_degree!

theorem degree_poly (e : Element) : (poly e).natDegree < 128 := by
  have hle : (poly e).natDegree ≤ 127 := by
    refine natDegree_sum_le_of_forall_le _ _ fun j _ => ?_
    split
    · rw [natDegree_X_pow]
      omega
    · simp
  omega

theorem coeff_poly (e : Element) {j : Nat} (h : j < 128) :
    (poly e).coeff (127 - j) = if e.getLsbD j then 1 else 0 := by
  rw [poly, finsetSum_coeff, Finset.sum_eq_single j]
  · split
    · simp
    · simp
  · intro k hk hne
    have hk := Finset.mem_range.mp hk
    have hplace : 127 - j ≠ 127 - k := by omega
    split
    · rw [coeff_X_pow, if_neg hplace]
    · simp
  · exact fun hnot => absurd (Finset.mem_range.mpr h) hnot

theorem poly_eq_zero {e : Element} (h : poly e = 0) : e = 0 := by
  apply BitVec.eq_of_getLsbD_eq
  intro j hj
  have hcoeff := coeff_poly e hj
  rw [h, coeff_zero] at hcoeff
  cases hbit : e.getLsbD j with
  | false => exact BitVec.getLsbD_zero.symm
  | true =>
    rw [hbit, if_pos rfl] at hcoeff
    exact absurd hcoeff zero_ne_one

theorem poly_xor (a b : Element) : poly (a ^^^ b) = poly a + poly b := by
  rw [poly, poly, poly, ← Finset.sum_add_distrib]
  refine Finset.sum_congr rfl fun j _ => ?_
  rw [BitVec.getLsbD_xor]
  cases a.getLsbD j with
  | false =>
    cases b.getLsbD j with
    | false => simp
    | true => simp
  | true =>
    cases b.getLsbD j with
    | false => simp
    | true => exact (CharTwo.add_self_eq_zero (X ^ (127 - j) : (ZMod 2)[X])).symm

theorem poly_twoPow {j : Nat} (h : j < 128) : poly (BitVec.twoPow 128 j) = X ^ (127 - j) := by
  rw [poly, Finset.sum_eq_single j]
  · simp [h]
  · intro k hk hne
    have hbit : (BitVec.twoPow 128 j).getLsbD k = false := by simp [hne.symm]
    rw [hbit]
    rfl
  · exact fun hnot => absurd (Finset.mem_range.mpr h) hnot

theorem coprime_X : IsCoprime modulus X := by
  refine ⟨1, -(X ^ 127 + X ^ 6 + X + 1), ?_⟩
  unfold modulus
  ring

/-- The derivative is `x ^ 6 + 1`, which leaves `1` of the modulus. -/
theorem separable_modulus : modulus.Separable := by
  let s : (ZMod 2)[X] := ∑ i ∈ Finset.range 21, (X ^ 6) ^ i
  have hs : s * (X ^ 6 - 1) = (X ^ 6) ^ 21 - 1 := geom_sum_mul (X ^ 6) 21
  have hderivative : derivative modulus = 128 * X ^ 127 + 7 * X ^ 6 + 2 * X + 1 := by
    simp only [modulus, derivative_add, derivative_X_pow, derivative_X, derivative_one,
      map_natCast]
    norm_num
  refine ⟨1, -(X ^ 2 * s + X), ?_⟩
  rw [hderivative, modulus]
  linear_combination -X ^ 2 * hs +
    (X ^ 2 + X - (X ^ 2 * s + X) * (64 * X ^ 127 + 3 * X ^ 6 + X + 1)) * two_eq_zero

theorem squarefree_modulus : Squarefree modulus := separable_modulus.squarefree

/-- What an element stands for modulo the modulus. -/
def residue (e : Element) : AdjoinRoot modulus := AdjoinRoot.mk modulus (poly e)

theorem residue_xor (a b : Element) : residue (a ^^^ b) = residue a + residue b := by
  rw [residue, poly_xor, map_add]
  rfl

theorem residue_eq_zero {e : Element} (h : residue e = 0) : e = 0 := by
  have hdvd := AdjoinRoot.mk_eq_zero.mp h
  have hdegree := degree_poly e
  refine poly_eq_zero (eq_zero_of_dvd_of_natDegree_lt hdvd ?_)
  rwa [degree_modulus]

/-- The sum of the terms of `e` is doubled by a shift, up to the one that leaves the field. -/
theorem poly_shift (e : Element) :
    X * poly e = poly (e >>> 1) + if e.getLsbD 0 then X ^ 128 else 0 := by
  have hlast : (e >>> 1).getLsbD 127 = false := by simp
  have hterm : ∀ j ∈ Finset.range 127,
      (X * if e.getLsbD (j + 1) then X ^ (127 - (j + 1)) else 0 : (ZMod 2)[X]) =
        if (e >>> 1).getLsbD j then X ^ (127 - j) else 0 := by
    intro j hj
    have hj := Finset.mem_range.mp hj
    rw [BitVec.getLsbD_ushiftRight, Nat.add_comm 1 j]
    split
    · rw [← pow_succ']
      congr 1
      omega
    · rw [mul_zero]
  have hfirst : (X * if e.getLsbD 0 then X ^ (127 - 0) else 0 : (ZMod 2)[X]) =
      if e.getLsbD 0 then X ^ 128 else 0 := by
    split
    · exact (pow_succ' X 127).symm
    · exact mul_zero X
  rw [poly, Finset.mul_sum, Finset.sum_range_succ' _ 127, Finset.sum_congr rfl hterm, hfirst, poly,
    Finset.sum_range_succ _ 127, hlast, if_neg Bool.false_ne_true, add_zero]

theorem poly_reduction : poly (0xE1#128 <<< 120) = X ^ 7 + X ^ 2 + X + 1 := by
  have hbits : (0xE1#128 <<< 120) = BitVec.twoPow 128 120 ^^^ BitVec.twoPow 128 125 ^^^
      BitVec.twoPow 128 126 ^^^ BitVec.twoPow 128 127 := by decide
  rw [hbits, poly_xor, poly_xor, poly_xor, poly_twoPow (by decide), poly_twoPow (by decide),
    poly_twoPow (by decide), poly_twoPow (by decide)]
  norm_num

theorem poly_timesX (e : Element) :
    X * poly e = poly (timesX e) + modulus * if e.getLsbD 0 then 1 else 0 := by
  rw [poly_shift, timesX]
  cases e.getLsbD 0 with
  | false => simp
  | true =>
    rw [if_pos rfl, if_pos rfl, if_pos rfl, poly_xor, poly_reduction, modulus]
    linear_combination -(X ^ 7 + X ^ 2 + X + 1) * two_eq_zero

theorem residue_timesX (e : Element) :
    residue (timesX e) = AdjoinRoot.root modulus * residue e := by
  have hx := congrArg (AdjoinRoot.mk modulus) (poly_timesX e)
  rw [map_mul, map_add, map_mul, AdjoinRoot.mk_X, AdjoinRoot.mk_self, zero_mul, add_zero] at hx
  exact hx.symm

/-- Terms as residues, each bit times a power of `x`. -/
def terms (a : Element) (n : Nat) : AdjoinRoot modulus :=
  ∑ j ∈ Finset.range n, if a.getLsbD j then AdjoinRoot.root modulus ^ (n - 1 - j) else 0

theorem terms_succ (a : Element) (n : Nat) : terms a (n + 1) =
    AdjoinRoot.root modulus * terms a n + if a.getLsbD n then 1 else 0 := by
  have hterm : ∀ j ∈ Finset.range n,
      (if a.getLsbD j then AdjoinRoot.root modulus ^ (n + 1 - 1 - j) else 0) =
        AdjoinRoot.root modulus *
          if a.getLsbD j then AdjoinRoot.root modulus ^ (n - 1 - j) else 0 := by
    intro j hj
    have hj := Finset.mem_range.mp hj
    have hpower : n + 1 - 1 - j = n - 1 - j + 1 := by omega
    rw [hpower, mul_ite, mul_zero, pow_succ']
  rw [terms, Finset.sum_range_succ, Finset.sum_congr rfl hterm, ← Finset.mul_sum, terms,
    Nat.add_sub_cancel, Nat.sub_self, pow_zero]

theorem residue_zero : residue 0 = 0 := by
  have hself := residue_xor 0 0
  rw [BitVec.xor_self] at hself
  exact left_eq_add.mp hself

theorem residue_mulTerms (a b : Element) (n : Nat) :
    residue (mulTerms a b n) = terms a n * residue b := by
  induction n with
  | zero => rw [mulTerms, residue_zero, terms, Finset.range_zero, Finset.sum_empty, zero_mul]
  | succ n ih =>
    rw [mulTerms, residue_xor, residue_timesX, ih, terms_succ, add_mul, mul_assoc]
    cases a.getLsbD n with
    | false => rw [if_neg Bool.false_ne_true, if_neg Bool.false_ne_true, residue_zero, zero_mul]
    | true => rw [if_pos rfl, if_pos rfl, one_mul]

theorem terms_all (a : Element) : terms a 128 = residue a := by
  have hterm : ∀ j ∈ Finset.range 128,
      AdjoinRoot.mk modulus (if a.getLsbD j then X ^ (127 - j) else 0) =
        if a.getLsbD j then AdjoinRoot.root modulus ^ (128 - 1 - j) else 0 := by
    intro j _
    rw [apply_ite (AdjoinRoot.mk modulus), map_pow, AdjoinRoot.mk_X, map_zero]
  rw [residue, poly, map_sum (AdjoinRoot.mk modulus), Finset.sum_congr rfl hterm, terms]

theorem residue_mul (a b : Element) : residue (mul a b) = residue a * residue b := by
  rw [mul, residue_mulTerms, terms_all]

/-- The polynomial is evaluated by Horner's rule, so what differs first is multiplied most often. -/
theorem residue_foldl (h y z : Element) (blocks : List Element) :
    residue (blocks.foldl (fun y b => mul (y ^^^ b) h) y) -
        residue (blocks.foldl (fun y b => mul (y ^^^ b) h) z) =
      (residue y - residue z) * residue h ^ blocks.length := by
  induction blocks generalizing y z with
  | nil => simp
  | cons b blocks ih =>
    rw [List.foldl_cons, List.foldl_cons, ih, residue_mul, residue_mul, residue_xor, residue_xor,
      List.length_cons, pow_succ]
    ring

theorem residue_twoPow_mul_pow {h : Element} {j : Nat} (hj : j < 128) (n : Nat)
    (hzero : residue (BitVec.twoPow 128 j) * residue h ^ n = 0) : h = 0 := by
  rw [residue, residue, poly_twoPow hj, ← map_pow, ← map_mul, AdjoinRoot.mk_eq_zero] at hzero
  have hpower : modulus ∣ poly h ^ n := (coprime_X.pow_right).dvd_of_dvd_mul_left hzero
  have hdvd : modulus ∣ poly h := squarefree_modulus.isRadical n _ hpower
  exact residue_eq_zero (AdjoinRoot.mk_eq_zero.mpr hdvd)

/-- Blocks that differ in one bit do not have one hash. -/
theorem hash_ne {h a : Element} {j : Nat} (hh : h ≠ 0) (hj : j < 128) (pre post : List Element) :
    hash h (pre ++ (a ^^^ BitVec.twoPow 128 j) :: post) ≠ hash h (pre ++ a :: post) := by
  intro heq
  have hdiff := sub_eq_zero.mpr (congrArg residue heq)
  rw [hash, hash, List.foldl_append, List.foldl_append, List.foldl_cons, List.foldl_cons,
    residue_foldl, residue_mul, residue_mul, residue_xor, residue_xor, residue_xor] at hdiff
  refine hh (residue_twoPow_mul_pow hj (post.length + 1) ?_)
  rw [← hdiff, pow_succ]
  ring

end

end AdminPlane.Channel.Ghash
