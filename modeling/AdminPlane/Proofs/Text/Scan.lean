import AdminPlane.Proofs.Text.Utf8

namespace AdminPlane.Text.Utf8

theorem char_ofNat {n : Nat} (h : n.isValidChar) : (Char.ofNat n).toNat = n := by
  unfold Char.ofNat
  rw [dif_pos h]
  rfl

theorem toNat_range (lo hi : Nat) {a : UInt8} (hlo : lo < 256) (hhi : hi < 256)
    (h : (UInt8.ofNat lo ≤ a && a ≤ UInt8.ofNat hi) = true) : lo ≤ a.toNat ∧ a.toNat ≤ hi := by
  simp only [Bool.and_eq_true, decide_eq_true_eq, UInt8.le_iff_toNat_le, toNat_ofNat hlo,
    toNat_ofNat hhi] at h
  exact h

theorem isTail_of_range {b : UInt8} (hl : 0x80 ≤ b.toNat) (hu : b.toNat ≤ 0xBF) :
    isTail b = true := by
  simp only [isTail, Bool.and_eq_true, decide_eq_true_eq, UInt8.le_iff_toNat_le]
  exact ⟨hl, hu⟩

theorem isTail_range {b : UInt8} (h : isTail b = true) : 0x80 ≤ b.toNat ∧ b.toNat ≤ 0xBF :=
  toNat_range 0x80 0xBF (by omega) (by omega) h

/-- The second byte keeps a sequence of three from a short form and from the surrogates. -/
theorem secondOfThree_range {a b : UInt8} (h : secondOfThree a b = true) : isTail b = true ∧
    (a.toNat = 0xE0 → 0xA0 ≤ b.toNat) ∧ (a.toNat = 0xED → b.toNat ≤ 0x9F) := by
  unfold secondOfThree at h
  split at h
  · rename_i ha
    obtain ⟨hl, hu⟩ := toNat_range 0xA0 0xBF (by omega) (by omega) h
    subst ha
    exact ⟨isTail_of_range (by omega) hu, fun _ => hl, nofun⟩
  · rename_i ha
    have hne : a.toNat ≠ 0xE0 := fun heq => ha (UInt8.toNat_inj.mp heq)
    split at h
    · obtain ⟨hl, hu⟩ := toNat_range 0x80 0x9F (by omega) (by omega) h
      exact ⟨isTail_of_range hl (by omega), fun heq => absurd heq hne, fun _ => hu⟩
    · rename_i ha'
      have hne' : a.toNat ≠ 0xED := fun heq => ha' (UInt8.toNat_inj.mp heq)
      exact ⟨h, fun heq => absurd heq hne, fun heq => absurd heq hne'⟩

/-- The second byte keeps a sequence of four between the planes. -/
theorem secondOfFour_range {a b : UInt8} (h : secondOfFour a b = true) : isTail b = true ∧
    (a.toNat = 0xF0 → 0x90 ≤ b.toNat) ∧ (a.toNat = 0xF4 → b.toNat ≤ 0x8F) := by
  unfold secondOfFour at h
  split at h
  · rename_i ha
    obtain ⟨hl, hu⟩ := toNat_range 0x90 0xBF (by omega) (by omega) h
    subst ha
    exact ⟨isTail_of_range (by omega) hu, fun _ => hl, nofun⟩
  · rename_i ha
    have hne : a.toNat ≠ 0xF0 := fun heq => ha (UInt8.toNat_inj.mp heq)
    split at h
    · obtain ⟨hl, hu⟩ := toNat_range 0x80 0x8F (by omega) (by omega) h
      exact ⟨isTail_of_range hl (by omega), fun heq => absurd heq hne, fun _ => hu⟩
    · rename_i ha'
      have hne' : a.toNat ≠ 0xF4 := fun heq => ha' (UInt8.toNat_inj.mp heq)
      exact ⟨h, fun heq => absurd heq hne, fun heq => absurd heq hne'⟩

theorem ofNat_eq {n : Nat} {a : UInt8} (h : n = a.toNat) : UInt8.ofNat n = a := by
  rw [h, UInt8.ofNat_toNat]

theorem tail_eq {n : Nat} {b : UInt8} (h : isTail b = true) (hn : n % 64 = low6 b) :
    tail n = b := by
  obtain ⟨hl, hu⟩ := isTail_range h
  rw [low6] at hn
  exact ofNat_eq (by omega)

theorem low6_lt (b : UInt8) : low6 b < 64 := Nat.mod_lt _ (by omega)

theorem encode_one {a : UInt8} (h : a < 0x80) :
    String.utf8EncodeChar (Char.ofNat a.toNat) = [a] := by
  have ha : a.toNat < 0x80 := UInt8.lt_iff_toNat_lt.mp h
  rw [utf8EncodeChar_eq, char_ofNat (.inl (by omega)), if_pos (by omega), UInt8.ofNat_toNat]

theorem encode_two {a b : UInt8} (ha : (0xC2 ≤ a && a ≤ 0xDF) = true) (hb : isTail b = true) :
    String.utf8EncodeChar (Char.ofNat (a.toNat % 32 * 64 + low6 b)) = [a, b] := by
  obtain ⟨hl, hu⟩ := toNat_range 0xC2 0xDF (by omega) (by omega) ha
  have hlow := low6_lt b
  generalize hn : a.toNat % 32 * 64 + low6 b = n
  have hfirst : UInt8.ofNat (n / 64 % 0x20 + 0xC0) = a := ofNat_eq (by omega)
  rw [utf8EncodeChar_eq, char_ofNat (.inl (by omega)), if_neg (by omega), if_pos (by omega),
    hfirst, tail_eq hb (by omega)]

theorem encode_three {a b c : UInt8} (ha : (0xE0 ≤ a && a ≤ 0xEF) = true)
    (hb : secondOfThree a b = true) (hc : isTail c = true) :
    String.utf8EncodeChar (Char.ofNat (a.toNat % 16 * 4096 + low6 b * 64 + low6 c)) =
      [a, b, c] := by
  obtain ⟨hl, hu⟩ := toNat_range 0xE0 0xEF (by omega) (by omega) ha
  obtain ⟨hb, hshort, hsurrogate⟩ := secondOfThree_range hb
  obtain ⟨hbl, hbu⟩ := isTail_range hb
  have hlow : low6 b = b.toNat - 128 := by
    rw [low6]
    omega
  have hlow' := low6_lt c
  generalize hn : a.toNat % 16 * 4096 + low6 b * 64 + low6 c = n
  have hfirst : UInt8.ofNat (n / 4096 % 0x10 + 0xE0) = a := ofNat_eq (by omega)
  have hvalid : n.isValidChar := by
    unfold Nat.isValidChar
    omega
  rw [utf8EncodeChar_eq, char_ofNat hvalid, if_neg (by omega), if_neg (by omega),
    if_pos (by omega), hfirst, tail_eq hb (by omega), tail_eq hc (by omega)]

theorem encode_four {a b c d : UInt8} (ha : (0xF0 ≤ a && a ≤ 0xF4) = true)
    (hb : secondOfFour a b = true) (hc : isTail c = true) (hd : isTail d = true) :
    String.utf8EncodeChar
        (Char.ofNat (a.toNat % 8 * 262144 + low6 b * 4096 + low6 c * 64 + low6 d)) =
      [a, b, c, d] := by
  obtain ⟨hl, hu⟩ := toNat_range 0xF0 0xF4 (by omega) (by omega) ha
  obtain ⟨hb, hshort, hlast⟩ := secondOfFour_range hb
  obtain ⟨hbl, hbu⟩ := isTail_range hb
  have hlow : low6 b = b.toNat - 128 := by
    rw [low6]
    omega
  have hlow' := low6_lt c
  have hlow'' := low6_lt d
  generalize hn : a.toNat % 8 * 262144 + low6 b * 4096 + low6 c * 64 + low6 d = n
  have hfirst : UInt8.ofNat (n / 262144 % 0x08 + 0xF0) = a := ofNat_eq (by omega)
  have hvalid : n.isValidChar := by
    unfold Nat.isValidChar
    omega
  rw [utf8EncodeChar_eq, char_ofNat hvalid, if_neg (by omega), if_neg (by omega),
    if_neg (by omega), hfirst, tail_eq hb (by omega), tail_eq hc (by omega),
    tail_eq hd (by omega)]

/-- Bytes that are scanned without a broken start are those of the characters found. -/
theorem flatMap_of_scan {bytes : List UInt8} {cs : List Char} (h : scan bytes = cs.map some) :
    bytes = cs.flatMap String.utf8EncodeChar := by
  have hcons {c : Char} {rest : List (Option Char)} {cs : List Char}
      (h : some c :: rest = cs.map some) : ∃ cs', cs = c :: cs' ∧ rest = cs'.map some := by
    cases cs with
    | nil => cases h
    | cons c' cs' =>
      rw [List.map_cons, List.cons.injEq] at h
      exact ⟨cs', by rw [Option.some.inj h.1], h.2⟩
  have hnone {rest : List (Option Char)} {cs : List Char} (h : none :: rest = cs.map some) :
      False := by
    cases cs with
    | nil => cases h
    | cons c cs => cases h
  fun_induction scan bytes generalizing cs
  case case1 =>
    rw [List.map_eq_nil_iff.mp h.symm]
    rfl
  case case2 a s ha ih =>
    obtain ⟨cs', rfl, hrest⟩ := hcons h
    rw [List.flatMap_cons, encode_one ha, ih hrest]
    rfl
  case case4 a _ ha b s hb ih =>
    obtain ⟨cs', rfl, hrest⟩ := hcons h
    rw [List.flatMap_cons, encode_two ha hb, ih hrest]
    rfl
  case case8 a _ _ ha b hb c s hc ih =>
    obtain ⟨cs', rfl, hrest⟩ := hcons h
    rw [List.flatMap_cons, encode_three ha hb hc, ih hrest]
    rfl
  case case14 a _ _ _ ha b hb c hc d s hd ih =>
    obtain ⟨cs', rfl, hrest⟩ := hcons h
    rw [List.flatMap_cons, encode_four ha hb hc hd, ih hrest]
    rfl
  all_goals exact (hnone h).elim

theorem mapM_id_eq_some {found : List (Option Char)} {cs : List Char}
    (h : found.mapM id = some cs) : found = cs.map some := by
  induction found generalizing cs with
  | nil =>
    cases h
    rfl
  | cons c found ih =>
    rw [List.mapM_cons] at h
    cases c with
    | none => cases h
    | some c =>
      change ((found.mapM id).bind fun cs' => some (c :: cs')) = some cs at h
      obtain ⟨cs', hcs', heq⟩ := Option.bind_eq_some_iff.mp h
      cases heq
      rw [ih hcs', List.map_cons]

/-- A text that decodes is the encoding of what comes out. -/
theorem encode_of_decode? {bytes : List UInt8} {s : String} (h : decode? bytes = some s) :
    bytes = encode s := by
  obtain ⟨cs, hcs, rfl⟩ := Option.map_eq_some_iff.mp h
  rw [encode, String.toList_ofList]
  exact flatMap_of_scan (mapM_id_eq_some hcs)

end AdminPlane.Text.Utf8
