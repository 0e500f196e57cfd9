import AdminPlane.Text.Utf8

namespace AdminPlane.Text.Utf8

theorem toNat_ofNat {n : Nat} (h : n < 256) : (UInt8.ofNat n).toNat = n :=
  UInt8.toNat_ofNat_of_lt' h

/-- A byte that is not the first of its character, from six bits. -/
def tail (n : Nat) : UInt8 := UInt8.ofNat (n % 64 + 0x80)

theorem isTail_tail (n : Nat) : isTail (tail n) = true := by
  have hn := toNat_ofNat (n := n % 64 + 0x80) (by omega)
  simp only [isTail, tail, Bool.and_eq_true, decide_eq_true_eq, UInt8.le_iff_toNat_le, hn]
  constructor
  · change 128 ≤ n % 64 + 128
    omega
  · change n % 64 + 128 ≤ 191
    omega

theorem low6_tail (n : Nat) : low6 (tail n) = n % 64 := by
  have hn := toNat_ofNat (n := n % 64 + 0x80) (by omega)
  rw [low6, tail, hn]
  omega

/-- A first byte of value `a` stands in one of the ranges that tell the lengths apart. -/
theorem first_range {a : Nat} (lo hi : Nat) (ha : a < 256) (hlo : lo < 256) (hhi : hi < 256) :
    (decide (UInt8.ofNat lo ≤ UInt8.ofNat a) && decide (UInt8.ofNat a ≤ UInt8.ofNat hi)) =
      decide (lo ≤ a ∧ a ≤ hi) := by
  simp only [UInt8.le_iff_toNat_le, toNat_ofNat ha, toNat_ofNat hlo, toNat_ofNat hhi,
    Bool.decide_and]

theorem scan_one {n : Nat} (rest : List UInt8) (h : n < 0x80) :
    scan (UInt8.ofNat n :: rest) = some (Char.ofNat n) :: scan rest := by
  have hn := toNat_ofNat (n := n) (by omega)
  have h1 : UInt8.ofNat n < 0x80 := by
    rw [UInt8.lt_iff_toNat_lt, hn]
    exact h
  rw [scan.eq_def]
  simp only [if_pos h1, hn]

theorem scan_two {n : Nat} (rest : List UInt8) (hl : 0x80 ≤ n) (hu : n < 0x800) :
    scan (UInt8.ofNat (n / 64 % 0x20 + 0xC0) :: tail n :: rest) =
      some (Char.ofNat n) :: scan rest := by
  generalize he : n / 64 % 0x20 + 0xC0 = a
  have ha := toNat_ofNat (n := a) (by omega)
  have h1 : ¬ UInt8.ofNat a < 0x80 := by
    rw [UInt8.lt_iff_toNat_lt, ha]
    change ¬ a < 128
    omega
  have h2 : (0xC2 ≤ UInt8.ofNat a && UInt8.ofNat a ≤ 0xDF) = true :=
    (first_range 0xC2 0xDF (by omega) (by omega) (by omega)).trans
      (decide_eq_true (by omega))
  rw [scan.eq_def]
  simp only [if_neg h1, if_pos h2, isTail_tail, if_true, ha, low6_tail]
  rw [show a % 32 * 64 + n % 64 = n by omega]

/-- Short forms and surrogates are what the second byte rules out. -/
theorem secondOfThree_tail {n a : Nat} (he : n / 4096 % 0x10 + 0xE0 = a) (hl : 0x800 ≤ n)
    (hu : n < 0x10000) (hs : n < 0xD800 ∨ 0xDFFF < n) :
    secondOfThree (UInt8.ofNat a) (tail (n / 64)) = true := by
  have ha := toNat_ofNat (n := a) (by omega)
  unfold secondOfThree
  split
  · rename_i h
    have h0 : a = 0xE0 := by rw [← ha, h]; rfl
    exact (first_range 0xA0 0xBF (by omega) (by omega) (by omega)).trans
      (decide_eq_true (by omega))
  · split
    · rename_i h
      have h0 : a = 0xED := by rw [← ha, h]; rfl
      exact (first_range 0x80 0x9F (by omega) (by omega) (by omega)).trans
        (decide_eq_true (by omega))
    · exact isTail_tail (n / 64)

theorem secondOfFour_tail {n a : Nat} (he : n / 262144 % 0x08 + 0xF0 = a) (hl : 0x10000 ≤ n)
    (hu : n < 0x110000) : secondOfFour (UInt8.ofNat a) (tail (n / 4096)) = true := by
  have ha := toNat_ofNat (n := a) (by omega)
  unfold secondOfFour
  split
  · rename_i h
    have h0 : a = 0xF0 := by rw [← ha, h]; rfl
    exact (first_range 0x90 0xBF (by omega) (by omega) (by omega)).trans
      (decide_eq_true (by omega))
  · split
    · rename_i h
      have h0 : a = 0xF4 := by rw [← ha, h]; rfl
      exact (first_range 0x80 0x8F (by omega) (by omega) (by omega)).trans
        (decide_eq_true (by omega))
    · exact isTail_tail (n / 4096)

theorem scan_three {n : Nat} (rest : List UInt8) (hl : 0x800 ≤ n) (hu : n < 0x10000)
    (hs : n < 0xD800 ∨ 0xDFFF < n) :
    scan (UInt8.ofNat (n / 4096 % 0x10 + 0xE0) :: tail (n / 64) :: tail n :: rest) =
      some (Char.ofNat n) :: scan rest := by
  generalize he : n / 4096 % 0x10 + 0xE0 = a
  have ha := toNat_ofNat (n := a) (by omega)
  have h1 : ¬ UInt8.ofNat a < 0x80 := by
    rw [UInt8.lt_iff_toNat_lt, ha]
    change ¬ a < 128
    omega
  have h2 : ¬ (0xC2 ≤ UInt8.ofNat a && UInt8.ofNat a ≤ 0xDF) = true :=
    Bool.not_eq_true _ ▸ (first_range 0xC2 0xDF (by omega) (by omega)
      (by omega)).trans (decide_eq_false (by omega))
  have h3 : (0xE0 ≤ UInt8.ofNat a && UInt8.ofNat a ≤ 0xEF) = true :=
    (first_range 0xE0 0xEF (by omega) (by omega) (by omega)).trans
      (decide_eq_true (by omega))
  rw [scan.eq_def]
  simp only [if_neg h1, if_neg h2, if_pos h3, secondOfThree_tail he hl hu hs, isTail_tail,
    if_true, ha, low6_tail]
  rw [show a % 16 * 4096 + n / 64 % 64 * 64 + n % 64 = n by omega]

theorem scan_four {n : Nat} (rest : List UInt8) (hl : 0x10000 ≤ n) (hu : n < 0x110000) :
    scan (UInt8.ofNat (n / 262144 % 0x08 + 0xF0) :: tail (n / 4096) :: tail (n / 64) :: tail n ::
      rest) = some (Char.ofNat n) :: scan rest := by
  generalize he : n / 262144 % 0x08 + 0xF0 = a
  have ha := toNat_ofNat (n := a) (by omega)
  have h1 : ¬ UInt8.ofNat a < 0x80 := by
    rw [UInt8.lt_iff_toNat_lt, ha]
    change ¬ a < 128
    omega
  have h2 : ¬ (0xC2 ≤ UInt8.ofNat a && UInt8.ofNat a ≤ 0xDF) = true :=
    Bool.not_eq_true _ ▸ (first_range 0xC2 0xDF (by omega) (by omega)
      (by omega)).trans (decide_eq_false (by omega))
  have h3 : ¬ (0xE0 ≤ UInt8.ofNat a && UInt8.ofNat a ≤ 0xEF) = true :=
    Bool.not_eq_true _ ▸ (first_range 0xE0 0xEF (by omega) (by omega)
      (by omega)).trans (decide_eq_false (by omega))
  have h4 : (0xF0 ≤ UInt8.ofNat a && UInt8.ofNat a ≤ 0xF4) = true :=
    (first_range 0xF0 0xF4 (by omega) (by omega) (by omega)).trans
      (decide_eq_true (by omega))
  rw [scan.eq_def]
  simp only [if_neg h1, if_neg h2, if_neg h3, if_pos h4, secondOfFour_tail he hl hu, isTail_tail,
    if_true, ha, low6_tail]
  rw [show a % 8 * 262144 + n / 4096 % 64 * 4096 + n / 64 % 64 * 64 + n % 64 = n by omega]

theorem utf8EncodeChar_eq (c : Char) : String.utf8EncodeChar c =
    if c.toNat ≤ 0x7F then [UInt8.ofNat c.toNat]
    else if c.toNat ≤ 0x7FF then [UInt8.ofNat (c.toNat / 64 % 0x20 + 0xC0), tail c.toNat]
    else if c.toNat ≤ 0xFFFF then
      [UInt8.ofNat (c.toNat / 4096 % 0x10 + 0xE0), tail (c.toNat / 64), tail c.toNat]
    else
      [UInt8.ofNat (c.toNat / 262144 % 0x08 + 0xF0), tail (c.toNat / 4096), tail (c.toNat / 64),
        tail c.toNat] := rfl

/-- The bytes of a character are read as that character, whatever stands behind them. -/
theorem scan_utf8EncodeChar (c : Char) (rest : List UInt8) :
    scan (String.utf8EncodeChar c ++ rest) = some c :: scan rest := by
  have hc : Char.ofNat c.toNat = c := Char.ofNat_toNat c
  have hv : c.toNat < 0xD800 ∨ 0xDFFF < c.toNat ∧ c.toNat < 0x110000 := c.valid
  rw [utf8EncodeChar_eq]
  split
  · have hs := scan_one (n := c.toNat) rest (by omega)
    rwa [hc] at hs
  · split
    · have hs := scan_two (n := c.toNat) rest (by omega) (by omega)
      rwa [hc] at hs
    · split
      · have hs := scan_three (n := c.toNat) rest (by omega) (by omega) (by omega)
        rwa [hc] at hs
      · have hs := scan_four (n := c.toNat) rest (by omega) (by omega)
        rwa [hc] at hs

theorem le_toNat_ofNat {a lo : Nat} (h : lo ≤ a) (ha : a < 256) : lo ≤ (UInt8.ofNat a).toNat := by
  rwa [toNat_ofNat ha]

/-- Only a character of a single byte shares its bytes with ASCII. -/
theorem ascii_or_high {c : Char} {b : UInt8} (h : b ∈ String.utf8EncodeChar c) :
    c.toNat < 0x80 ∧ b = UInt8.ofNat c.toNat ∨ 0x80 ≤ b.toNat := by
  rw [utf8EncodeChar_eq] at h
  split at h
  · exact .inl ⟨by omega, List.mem_singleton.mp h⟩
  · refine .inr ?_
    repeat' split at h
    all_goals
      simp only [List.mem_cons, List.not_mem_nil, or_false, tail] at h
      repeat' rcases h with rfl | h
      all_goals exact le_toNat_ofNat (by omega) (by omega)

theorem scan_flatMap (s : List Char) :
    scan (s.flatMap String.utf8EncodeChar) = s.map some := by
  induction s with
  | nil => rw [List.flatMap_nil, scan.eq_1, List.map_nil]
  | cons c s ih => rw [List.flatMap_cons, scan_utf8EncodeChar, ih, List.map_cons]

theorem decode?_encode (s : String) : decode? (encode s) = some s := by
  have hm : (s.toList.map some).mapM id = some s.toList := by
    induction s.toList with
    | nil => rfl
    | cons c cs ih => simp [ih]
  rw [decode?, encode, scan_flatMap, hm, Option.map_some, String.ofList_toList]

end AdminPlane.Text.Utf8
