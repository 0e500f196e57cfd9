import AdminPlane.Proofs.Channel.Counter
import Mathlib.Algebra.Group.Nat.Defs

namespace AdminPlane.Channel

/-- The bits of a text are counted from its first byte, and in a byte from the least one. -/
def bit (data : List UInt8) (p : Nat) : Bool := (data.getD (p / 8) 0).toNat.testBit (p % 8)

def flip (data : List UInt8) (p : Nat) : List UInt8 :=
  data.modify (p / 8) (· ^^^ UInt8.ofNat (2 ^ (p % 8)))

def flips (data : List UInt8) (positions : List Nat) : List UInt8 := positions.foldl flip data

section Flip

variable (data rest : List UInt8) (p : Nat)

@[simp] theorem length_flip : (flip data p).length = data.length :=
  List.length_modify _ _ _

@[simp] theorem length_flips (positions : List Nat) :
    (flips data positions).length = data.length := by
  induction positions generalizing data with
  | nil => rfl
  | cons p positions ih => exact (ih (flip data p)).trans (length_flip data p)

theorem testBit_mask (k m : Nat) (hk : k < 8) :
    (UInt8.ofNat (2 ^ k)).toNat.testBit m = decide (k = m) := by
  have hsmall : 2 ^ k < 2 ^ 8 := Nat.pow_lt_pow_right (by decide) hk
  rw [UInt8.toNat_ofNat', Nat.mod_eq_of_lt hsmall, Nat.testBit_two_pow]

theorem bit_flip (h : p < 8 * data.length) (q : Nat) :
    bit (flip data p) q = (bit data q ^^ decide (p = q)) := by
  have hp : p / 8 < data.length := by omega
  have hk : p % 8 < 8 := by omega
  by_cases hbyte : p / 8 = q / 8
  · have hplace : p = q ↔ p % 8 = q % 8 := by omega
    rw [bit, bit, flip, ← hbyte, List.getD_eq_getElem?_getD, List.getElem?_modify_eq,
      List.getElem?_eq_getElem hp, Option.map_eq_map, Option.map_some, Option.getD_some,
      UInt8.toNat_xor, Nat.testBit_xor, testBit_mask _ _ hk, List.getD_eq_getElem?_getD,
      List.getElem?_eq_getElem hp, Option.getD_some]
    simp only [hplace]
  · have hplace : p ≠ q := fun heq => hbyte (by rw [heq])
    rw [bit, bit, flip, List.getD_eq_getElem?_getD, List.getElem?_modify_ne _ _ hbyte,
      List.getD_eq_getElem?_getD, decide_eq_false hplace, Bool.xor_false]

/-- The bits at the positions are turned, and no others. -/
theorem bit_flips {positions : List Nat} (hnodup : positions.Nodup)
    (h : ∀ p ∈ positions, p < 8 * data.length) (q : Nat) :
    bit (flips data positions) q = (bit data q ^^ decide (q ∈ positions)) := by
  induction positions generalizing data with
  | nil => simp [flips]
  | cons p positions ih =>
    obtain ⟨hp, hnodup⟩ := List.nodup_cons.mp hnodup
    have hrest : ∀ r ∈ positions, r < 8 * (flip data p).length := by
      intro r hr
      rw [length_flip]
      exact h r (.tail _ hr)
    have hhead := bit_flip data p (h p (.head _)) q
    rw [show flips data (p :: positions) = flips (flip data p) positions from rfl,
      ih (flip data p) hnodup hrest, hhead]
    by_cases hq : p = q
    · subst hq
      simp [hp]
    · simp [hq, Ne.symm hq]

theorem flips_ne {positions : List Nat} (hne : positions ≠ []) (hnodup : positions.Nodup)
    (h : ∀ p ∈ positions, p < 8 * data.length) : flips data positions ≠ data := by
  intro heq
  have hturned := bit_flips data hnodup h (positions.head hne)
  rw [heq, decide_eq_true (List.head_mem hne)] at hturned
  cases hbit : bit data (positions.head hne) with
  | false => simp [hbit] at hturned
  | true => simp [hbit] at hturned

theorem flip_append_left (h : p < 8 * data.length) :
    flip (data ++ rest) p = flip data p ++ rest := by
  have hp : p / 8 < data.length := by omega
  have hlong : p / 8 < (data ++ rest).length := by
    rw [List.length_append]
    omega
  rw [flip, flip, List.modify_eq_take_cons_drop hlong, List.modify_eq_take_cons_drop hp,
    List.take_append_of_le_length (Nat.le_of_lt hp), List.drop_append_of_le_length hp,
    List.getElem_append_left hp, List.append_assoc, List.cons_append]

theorem flip_append_right (h : 8 * data.length ≤ p) :
    flip (data ++ rest) p = data ++ flip rest (p - 8 * data.length) := by
  have hp : p / 8 = data.length + (p - 8 * data.length) / 8 := by omega
  have hmask : (p - 8 * data.length) % 8 = p % 8 := by omega
  rw [flip, flip, hmask, hp, List.modify_eq_take_drop, List.modify_eq_take_drop,
    List.take_length_add_append, List.drop_length_add_append, List.append_assoc]

theorem flips_append_left {positions : List Nat} (h : ∀ p ∈ positions, p < 8 * data.length) :
    flips (data ++ rest) positions = flips data positions ++ rest := by
  induction positions generalizing data with
  | nil => rfl
  | cons p positions ih =>
    have hrest : ∀ r ∈ positions, r < 8 * (flip data p).length := by
      intro r hr
      rw [length_flip]
      exact h r (.tail _ hr)
    change flips (flip (data ++ rest) p) positions = flips (flip data p) positions ++ rest
    rw [flip_append_left data rest p (h p (.head _)), ih (flip data p) hrest]

theorem flips_append_right {positions : List Nat} (h : ∀ p ∈ positions, 8 * data.length ≤ p) :
    flips (data ++ rest) positions =
      data ++ flips rest (positions.map (· - 8 * data.length)) := by
  induction positions generalizing rest with
  | nil => rfl
  | cons p positions ih =>
    change flips (flip (data ++ rest) p) positions =
      data ++ flips (flip rest (p - 8 * data.length)) (positions.map (· - 8 * data.length))
    rw [flip_append_right data rest p (h p (.head _)), ih _ fun r hr => h r (.tail _ hr)]

end Flip

namespace Ghash

/-- Where the bit `p` of a block is in its element, and the other way round. -/
def place (p : Nat) : Nat := 8 * (15 - p / 8) + p % 8

theorem place_place {p : Nat} (h : p < 128) : place (place p) = p := by
  unfold place
  omega

theorem place_lt (p : Nat) : place p < 128 := by
  unfold place
  omega

theorem testBit_foldl (byte : Nat → UInt8) (n j : Nat) :
    ((List.range n).foldl (fun m i => 256 * m + (byte i).toNat) 0).testBit j =
      (decide (j < 8 * n) && (byte (n - 1 - j / 8)).toNat.testBit (j % 8)) := by
  induction n generalizing j with
  | zero => simp
  | succ n ih =>
    have hbyte : (byte n).toNat < 2 ^ 8 := (byte n).toNat_lt
    rw [List.range_succ, List.foldl_append, List.foldl_cons, List.foldl_nil,
      Nat.testBit_two_pow_mul_add (i := 8) _ hbyte]
    split
    · have hj : j < 8 * (n + 1) := by omega
      have hlast : n + 1 - 1 - j / 8 = n := by omega
      have hmod : j % 8 = j := by omega
      rw [decide_eq_true hj, Bool.true_and, hlast, hmod]
    · have hbefore : n - 1 - (j - 8) / 8 = n + 1 - 1 - j / 8 := by omega
      have hmod : (j - 8) % 8 = j % 8 := by omega
      have hbound : j - 8 < 8 * n ↔ j < 8 * (n + 1) := by omega
      rw [ih, hbefore, hmod]
      simp only [hbound]

theorem getLsbD_ofBytes (bytes : List UInt8) {j : Nat} (h : j < 128) :
    (ofBytes bytes).getLsbD j = bit bytes (place j) := by
  have hbyte : place j / 8 = 16 - 1 - j / 8 := by
    unfold place
    omega
  have hmod : place j % 8 = j % 8 := by
    unfold place
    omega
  rw [ofBytes, BitVec.getLsbD_ofNat, testBit_foldl, bit, hbyte, hmod]
  simp [h]

theorem bit_toBytes (e : Element) {p : Nat} (h : p < 128) :
    bit (toBytes e) p = e.getLsbD (place p) := by
  have hp : p / 8 < 16 := by omega
  have hmod : p % 8 < 8 := by omega
  rw [bit, toBytes, List.getD_eq_getElem?_getD, List.getElem?_map, List.getElem?_range hp,
    Option.map_some, Option.getD_some, UInt8.toNat_ofNat', Nat.testBit_mod_two_pow,
    Nat.testBit_shiftRight, decide_eq_true hmod, Bool.true_and]
  rfl

theorem toBytes_injective : Function.Injective toBytes := by
  intro d e h
  apply BitVec.eq_of_getLsbD_eq
  intro j hj
  have hbit := congrArg (bit · (place j)) h
  simpa only [bit_toBytes _ (place_lt j), place_place hj] using hbit

theorem ofBytes_flip {bytes : List UInt8} {p : Nat} (hsize : bytes.length ≤ 16)
    (h : p < 8 * bytes.length) :
    ofBytes (flip bytes p) = ofBytes bytes ^^^ BitVec.twoPow 128 (place p) := by
  apply BitVec.eq_of_getLsbD_eq
  intro j hj
  have hp : p < 128 := by omega
  have hplace : p = place j ↔ place p = j := by
    constructor
    · intro heq
      rw [heq, place_place hj]
    · intro heq
      rw [← heq, place_place hp]
  rw [BitVec.getLsbD_xor, getLsbD_ofBytes _ hj, getLsbD_ofBytes _ hj, bit_flip bytes p h,
    BitVec.getLsbD_twoPow]
  simp only [hplace, place_lt, decide_true, Bool.true_and]

theorem exists_head (data : List UInt8) : ∃ head tail, data = head ++ tail ∧
    (head.length = 16 ∨ head.length ≤ 16 ∧ tail = []) := by
  refine ⟨data.take 16, data.drop 16, (List.take_append_drop 16 data).symm, ?_⟩
  rw [List.length_take, List.drop_eq_nil_iff]
  omega

/-- One turned bit of a text is one turned bit of one of its blocks. -/
theorem map_pieces_flip {data : List UInt8} {p count : Nat} (hsize : data.length ≤ 16 * count)
    (h : p < 8 * data.length) : ∃ pre a post, ∃ j < 128,
      (pieces count data).map ofBytes = pre ++ a :: post ∧
        (pieces count (flip data p)).map ofBytes =
          pre ++ (a ^^^ BitVec.twoPow 128 j) :: post := by
  induction count generalizing data p with
  | zero => omega
  | succ count ih =>
    obtain ⟨head, tail, rfl, hshape⟩ := exists_head data
    obtain ⟨htake, hdrop⟩ := Ctr.split_head hshape
    have hhead : head.length ≤ 16 := hshape.elim Nat.le_of_eq And.left
    by_cases hp : p < 8 * head.length
    · obtain ⟨htaken, hleft⟩ : (flip head p ++ tail).take 16 = flip head p ∧
          (flip head p ++ tail).drop 16 = tail :=
        Ctr.split_head (by rwa [length_flip])
      refine ⟨[], ofBytes head, (pieces count tail).map ofBytes, place p, place_lt p, ?_, ?_⟩
      · rw [pieces, htake, hdrop]
        rfl
      · rw [flip_append_left head tail p hp, pieces, htaken, hleft, ← ofBytes_flip hhead hp]
        rfl
    · have hlater : 8 * head.length ≤ p := by omega
      have hfull : head.length = 16 := by
        rcases hshape with hfull | ⟨_, rfl⟩
        · exact hfull
        · rw [List.append_nil] at h
          omega
      rw [List.length_append] at hsize h
      obtain ⟨htaken, hleft⟩ :
          (head ++ flip tail (p - 8 * head.length)).take 16 = head ∧
            (head ++ flip tail (p - 8 * head.length)).drop 16 =
              flip tail (p - 8 * head.length) :=
        Ctr.split_head (.inl hfull)
      have hturn : p - 8 * head.length < 8 * tail.length := by omega
      obtain ⟨pre, a, post, j, hj, hplain, hflip⟩ := ih (by omega) hturn
      refine ⟨ofBytes head :: pre, a, post, j, hj, ?_, ?_⟩
      · rw [pieces, htake, hdrop, List.map_cons, hplain]
        rfl
      · rw [flip_append_right head tail p hlater, pieces, htaken, hleft, List.map_cons,
          hflip]
        rfl

end Ghash

end AdminPlane.Channel
