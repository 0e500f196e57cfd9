import AdminPlane.Channel.Aes
import Mathlib.Data.FinEnum

namespace AdminPlane.Channel.Aes

section Xor

variable (a b c : UInt8)

theorem xor_left_comm : a ^^^ (b ^^^ c) = b ^^^ (a ^^^ c) := by
  rw [← UInt8.xor_assoc, UInt8.xor_comm a, UInt8.xor_assoc]

theorem xor_xor_cancel : a ^^^ (a ^^^ b) = b := by
  rw [← UInt8.xor_assoc, UInt8.xor_self, UInt8.zero_xor]

end Xor

/-- The number whose bit `n` is set if the byte `n` is in a list. -/
def marks (bs : List UInt8) : Nat := bs.foldr (fun b m => m ||| 1 <<< b.toNat) 0

theorem mem_of_testBit_marks {bs : List UInt8} {b : UInt8}
    (h : (marks bs).testBit b.toNat = true) : b ∈ bs := by
  induction bs with
  | nil => simp [marks] at h
  | cons c bs ih =>
    rw [marks, List.foldr_cons, Nat.testBit_or, Bool.or_eq_true] at h
    rcases h with h | h
    · exact .tail _ (ih h)
    · rw [Nat.one_shiftLeft, Nat.testBit_two_pow, decide_eq_true_iff] at h
      rw [UInt8.toNat_inj.mp h]
      exact .head _

theorem mem_substitutions (b : UInt8) : b ∈ substitutions.toList := by
  have hall : marks substitutions.toList = 2 ^ 256 - 1 := by decide +kernel
  apply mem_of_testBit_marks
  rw [hall, Nat.testBit_two_pow_sub_one, decide_eq_true_iff]
  exact b.toNat_lt

/-- Every byte is in the table, so none of them can be there twice. -/
theorem substitute_injective : Function.Injective substitute := by
  apply Finite.injective_iff_surjective.mpr
  intro b
  obtain ⟨n, hn, hb⟩ := Array.getElem_of_mem (Array.mem_toList_iff.mp (mem_substitutions b))
  have hsize : substitutions.size = 256 := by decide +kernel
  have hplace : (UInt8.ofNat n).toNat = n := by
    rw [UInt8.toNat_ofNat']
    omega
  refine ⟨UInt8.ofNat n, ?_⟩
  rw [substitute, hplace, ← hb, Array.getD, dif_pos hn]
  rfl

theorem subBytes_injective : Function.Injective subBytes := by
  intro s t h
  apply Vector.ext
  intro i hi
  have hbyte := congrArg (fun v : Block => v[i]) h
  simp only [subBytes, Vector.getElem_map] at hbyte
  exact substitute_injective hbyte

/-- Rows turn back by turning on: `13` is the inverse of `5` modulo `16`. -/
theorem shiftRows_injective : Function.Injective shiftRows := by
  intro s t h
  apply Vector.ext
  intro i hi
  have hplace : 5 * (13 * i % 16) % 16 = i := by omega
  have hbyte := congrArg (fun v : Block => v[13 * i % 16]) h
  simpa only [shiftRows, Vector.getElem_ofFn, hplace] using hbyte

theorem addRoundKey_injective (key : Block) : Function.Injective (addRoundKey key) := by
  intro s t h
  apply Vector.ext
  intro i hi
  have hbyte := congrArg (fun v : Block => v[i]) h
  simp only [addRoundKey, Vector.getElem_zipWith] at hbyte
  exact (UInt8.xor_left_inj key[i]).mp hbyte

theorem double_eq (b : UInt8) :
    double b = (b <<< 1) ^^^ (if b.toBitVec.msb then 0x1B else 0) := by
  have hlow : b < 0x80 ↔ b.toBitVec.msb = false := by
    rw [BitVec.msb_eq_false_iff_two_mul_lt, UInt8.lt_iff_toNat_lt]
    change b.toNat < 128 ↔ 2 * b.toNat < 256
    omega
  unfold double
  cases h : b.toBitVec.msb with
  | false => simp [hlow.mpr h]
  | true => simp [hlow, h]

theorem double_xor (a b : UInt8) : double (a ^^^ b) = double a ^^^ double b := by
  have hshift : (a ^^^ b) <<< 1 = a <<< 1 ^^^ b <<< 1 := by
    apply UInt8.toBitVec_inj.mp
    simp [BitVec.shiftLeft_xor_distrib]
  simp only [double_eq, UInt8.toBitVec_xor, BitVec.msb_xor, hshift]
  cases a.toBitVec.msb
  all_goals
    cases b.toBitVec.msb
    all_goals simp [UInt8.xor_assoc, UInt8.xor_comm, xor_left_comm]

/-- A byte of a mixed column, from the bytes of the column from its own row on. -/
def mixed (a b c d : UInt8) : UInt8 := double a ^^^ (double b ^^^ b) ^^^ c ^^^ d

/-- To mix twice leaves out every other row. -/
theorem mixed_mixed (a b c d : UInt8) :
    mixed (mixed a b c d) (mixed b c d a) (mixed c d a b) (mixed d a b c) =
      a ^^^ double (double a) ^^^ double (double c) := by
  simp only [mixed, double_xor]
  simp only [UInt8.xor_assoc, UInt8.xor_comm, xor_left_comm, xor_xor_cancel]

section Column

/-- The byte `k` rows further down in the column of the byte `i`. -/
def below (s : Block) (i k : Nat) : UInt8 := s[(i / 4 * 4 + (i + k) % 4) % 16]

variable (s : Block) (i k : Nat)

theorem below_add_four : below s i (k + 4) = below s i k := by
  have hrow : (i + (k + 4)) % 4 = (i + k) % 4 := by omega
  simp only [below, hrow]

theorem below_mixColumns : below (mixColumns s) i k =
    mixed (below s i k) (below s i (k + 1)) (below s i (k + 2)) (below s i (k + 3)) := by
  have hplace (m : Nat) : ((i / 4 * 4 + (i + k) % 4) % 16 / 4 * 4 +
      ((i / 4 * 4 + (i + k) % 4) % 16 + m) % 4) % 16 = (i / 4 * 4 + (i + (k + m)) % 4) % 16 := by
    omega
  simp only [below, mixColumns, Vector.getElem_ofFn, hplace, Nat.add_zero k, mixed]

theorem below_mixColumns_twice : below (mixColumns (mixColumns s)) i k =
    below s i k ^^^ double (double (below s i k)) ^^^ double (double (below s i (k + 2))) := by
  have hsecond := below_add_four s i (k + 1)
  have hthird := below_add_four s i (k + 2)
  simp only [Nat.add_assoc, Nat.reduceAdd] at hsecond hthird
  simp only [below_mixColumns, Nat.add_assoc, Nat.reduceAdd, below_add_four s i k, hsecond, hthird]
  exact mixed_mixed _ _ _ _

/-- To mix four times changes nothing. -/
theorem below_mixColumns_four :
    below (mixColumns (mixColumns (mixColumns (mixColumns s)))) i k = below s i k := by
  rw [below_mixColumns_twice, below_mixColumns_twice, below_mixColumns_twice,
    below_add_four s i k]
  generalize below s i k = a, below s i (k + 2) = c
  simp only [double_xor, UInt8.xor_assoc, UInt8.xor_comm, xor_left_comm, xor_xor_cancel,
    UInt8.xor_self, UInt8.xor_zero]

end Column

theorem mixColumns_injective : Function.Injective mixColumns := by
  intro s t h
  apply Vector.ext
  intro i hi
  have hplace : (i / 4 * 4 + (i + 0) % 4) % 16 = i := by omega
  have hs := below_mixColumns_four s i 0
  rw [h, below_mixColumns_four t i 0] at hs
  simpa only [below, hplace] using hs.symm

theorem rounds_injective (keys : List Block) : Function.Injective (rounds keys) := by
  have hlast (key : Block) :
      Function.Injective fun s => addRoundKey key (shiftRows (subBytes s)) :=
    (addRoundKey_injective key).comp (shiftRows_injective.comp subBytes_injective)
  induction keys with
  | nil => exact fun _ _ h => h
  | cons key rest ih =>
    cases rest with
    | nil => exact hlast key
    | cons next rest =>
      have hround : Function.Injective fun s =>
          addRoundKey key (mixColumns (shiftRows (subBytes s))) :=
        (addRoundKey_injective key).comp
          (mixColumns_injective.comp (shiftRows_injective.comp subBytes_injective))
      exact ih.comp hround

/-- Whatever its round keys are, the cipher takes no two blocks to one. -/
theorem encrypt_injective (keys : List Block) : Function.Injective (encrypt keys) := by
  cases keys with
  | nil => exact fun _ _ h => h
  | cons key rest => exact (rounds_injective rest).comp (addRoundKey_injective key)

end AdminPlane.Channel.Aes
