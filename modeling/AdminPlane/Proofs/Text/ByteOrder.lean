import AdminPlane.Proofs.Text.Utf8

namespace AdminPlane.Text.Utf8

theorem ofNat_lt_ofNat {a b : Nat} (ha : a < 256) (hb : b < 256) :
    UInt8.ofNat a < UInt8.ofNat b ↔ a < b := by
  rw [UInt8.lt_iff_toNat_lt, toNat_ofNat ha, toNat_ofNat hb]

theorem ofNat_eq_ofNat {a b : Nat} (ha : a < 256) (hb : b < 256) :
    UInt8.ofNat a = UInt8.ofNat b ↔ a = b := by
  rw [← UInt8.toNat_inj, toNat_ofNat ha, toNat_ofNat hb]

/-- Of two numbers below `2 ^ 21` the lesser one has the lesser group of six bits where they first
differ. -/
theorem groups_lt {n m : Nat} (h : n < m) :
    n / 262144 < m / 262144 ∨ n / 262144 = m / 262144 ∧
      (n / 4096 % 64 < m / 4096 % 64 ∨ n / 4096 % 64 = m / 4096 % 64 ∧
        (n / 64 % 64 < m / 64 % 64 ∨ n / 64 % 64 = m / 64 % 64 ∧ n % 64 < m % 64)) := by
  have hlast : ∀ a b : Nat, a < b → a / 64 < b / 64 ∨ a / 64 = b / 64 ∧ a % 64 < b % 64 := by
    omega
  have hgroups : ∀ k : Nat, k / 4096 = k / 64 / 64 ∧ k / 262144 = k / 64 / 64 / 64 := by omega
  rw [(hgroups n).1, (hgroups n).2, (hgroups m).1, (hgroups m).2]
  rcases hlast n m h with h | ⟨he, h⟩
  · rcases hlast _ _ h with h | ⟨he, h⟩
    · rcases hlast _ _ h with h | ⟨he, h⟩
      · exact .inl h
      · exact .inr ⟨he, .inl h⟩
    · rw [he]
      exact .inr ⟨rfl, .inr ⟨rfl, .inl h⟩⟩
  · rw [he]
    exact .inr ⟨rfl, .inr ⟨rfl, .inr ⟨rfl, h⟩⟩⟩

/-- The bytes of two characters differ at a place where the lesser character has the lesser byte,
so what stands behind them does not count. -/
theorem utf8EncodeChar_lt {c d : Char} (h : c.toNat < d.toNat) (s t : List UInt8) :
    String.utf8EncodeChar c ++ s < String.utf8EncodeChar d ++ t := by
  have hd : d.toNat < 0xD800 ∨ 0xDFFF < d.toNat ∧ d.toNat < 0x110000 := d.valid
  have hgroups := groups_lt h
  rw [utf8EncodeChar_eq, utf8EncodeChar_eq]
  generalize c.toNat = n at *
  generalize d.toNat = m at *
  have hn : n / 262144 % 0x08 = n / 262144 := by omega
  have hm : m / 262144 % 0x08 = m / 262144 := by omega
  repeat' split
  all_goals
    simp only [List.cons_append, List.nil_append, List.cons_lt_cons_iff, tail]
    simp (disch := omega) only [ofNat_lt_ofNat, ofNat_eq_ofNat]
    omega

theorem flatMap_lt {s t : List Char} (h : s < t) :
    s.flatMap String.utf8EncodeChar < t.flatMap String.utf8EncodeChar := by
  induction s generalizing t with
  | nil =>
    cases t with
    | nil => exact absurd h (List.lt_irrefl [])
    | cons d t =>
      obtain ⟨b, u, hb⟩ := List.exists_cons_of_ne_nil (String.utf8EncodeChar_ne_nil (c := d))
      rw [List.flatMap_cons, hb]
      exact List.nil_lt_cons _ _
  | cons c s ih =>
    cases t with
    | nil => exact absurd h (List.not_lt_nil _)
    | cons d t =>
      rw [List.flatMap_cons, List.flatMap_cons]
      rcases List.cons_lt_cons_iff.mp h with hlt | ⟨rfl, hlt⟩
      · exact utf8EncodeChar_lt hlt _ _
      · exact List.append_left_lt (ih hlt)

/-- The order of strings is that of their bytes. -/
theorem encode_lt {s t : String} (h : s < t) : encode s < encode t :=
  flatMap_lt (String.lt_iff.mp h)

end AdminPlane.Text.Utf8
