import AdminPlane.Proofs.Text.Utf8
import AdminPlane.Text.Hex

namespace AdminPlane.Text.Hex

def digits : List Char := "0123456789abcdefABCDEF".toList

theorem toNat_lt_of_isDigit {c : Char} (h : isDigit c = true) : c.toNat < 128 := by
  unfold isDigit value? at h
  split at h
  · rename_i hc
    exact Nat.lt_of_le_of_lt (Char.le_def.mp hc.2) (by decide)
  · split at h
    · rename_i hc
      exact Nat.lt_of_le_of_lt (Char.le_def.mp hc.2) (by decide)
    · split at h
      · rename_i hc
        exact Nat.lt_of_le_of_lt (Char.le_def.mp hc.2) (by decide)
      · cases h

theorem isDigit_iff {c : Char} : isDigit c = true ↔ c ∈ digits := by
  have hascii : ∀ n < 128, isDigit (Char.ofNat n) = true → Char.ofNat n ∈ digits := by decide
  have hdigits : digits.all isDigit = true := by decide
  refine ⟨fun h => ?_, List.all_eq_true.mp hdigits c⟩
  have hc := hascii c.toNat (toNat_lt_of_isDigit h)
  rw [Char.ofNat_toNat] at hc
  exact hc h

/-- The texts of bytes are those of digits alone that pair off. -/
theorem isSome_decode?_iff {s : List Char} :
    (decode? s).isSome = true ↔ s.length % 2 = 0 ∧ ∀ c ∈ s, c ∈ digits := by
  induction s using decode?.induct with
  | case1 => simp [decode?]
  | case2 c => simp [decode?]
  | case3 a b rest ih =>
    have hpair : (decode? (a :: b :: rest)).isSome = true ↔
        isDigit a = true ∧ isDigit b = true ∧ (decode? rest).isSome = true := by
      unfold isDigit
      rw [decode?]
      cases value? a with
      | none => simp
      | some high =>
        cases value? b with
        | none => simp
        | some low =>
          cases decode? rest with
          | none => simp
          | some bytes => simp
    have hlength : (a :: b :: rest).length % 2 = rest.length % 2 := by
      rw [List.length_cons, List.length_cons]
      omega
    rw [hpair, ih, isDigit_iff, isDigit_iff, hlength]
    simp only [List.forall_mem_cons]
    constructor
    · rintro ⟨ha, hb, heven, hrest⟩
      exact ⟨heven, ha, hb, hrest⟩
    · rintro ⟨heven, ha, hb, hrest⟩
      exact ⟨ha, hb, heven, hrest⟩

/-- A digit stands for a half of a byte, and in lower case it is the one that is written for it. -/
theorem digit_of_value? {c : Char} {n : Nat} (h : value? c = some n) :
    n < 16 ∧ digit n = c.toLower := by
  have hall : digits.all fun c => (value? c).all fun n => n < 16 ∧ digit n = c.toLower := by decide
  have hc : c ∈ digits := isDigit_iff.mp (by rw [isDigit, h]; rfl)
  have hdigit := List.all_eq_true.mp hall c hc
  rw [h] at hdigit
  simpa using hdigit

theorem value?_toLower (c : Char) : value? c.toLower = value? c := by
  have hascii : ∀ n < 128, value? (Char.ofNat n).toLower = value? (Char.ofNat n) := by decide
  by_cases h : c.toNat < 128
  · have hc := hascii c.toNat h
    rwa [Char.ofNat_toNat] at hc
  · have hupper : ¬ (c.val ≥ 'A'.val ∧ c.val ≤ 'Z'.val) :=
      fun hupper => h (Nat.lt_of_le_of_lt hupper.2 (by decide))
    have hlower : c.toLower = c := dif_neg hupper
    rw [hlower]

theorem decode?_toLower (s : List Char) : decode? (s.map Char.toLower) = decode? s := by
  induction s using decode?.induct with
  | case1 => rfl
  | case2 c => rfl
  | case3 a b rest ih =>
    rw [List.map_cons, List.map_cons, decode?, decode?, value?_toLower, value?_toLower, ih]

/-- The halves of bytes, the higher one of each first. -/
def halves (bytes : List UInt8) : List Nat :=
  bytes.flatMap fun b => [b.toNat / 16, b.toNat % 16]

theorem halves_cons (b : UInt8) (bytes : List UInt8) :
    halves (b :: bytes) = b.toNat / 16 :: b.toNat % 16 :: halves bytes := rfl

theorem halves_ofNat {high low : Nat} (hhigh : high < 16) (hlow : low < 16)
    (bytes : List UInt8) :
    halves (UInt8.ofNat (16 * high + low) :: bytes) = high :: low :: halves bytes := by
  have hbyte : (UInt8.ofNat (16 * high + low)).toNat = 16 * high + low :=
    Utf8.toNat_ofNat (by omega)
  have hdiv : (16 * high + low) / 16 = high := by omega
  have hmod : (16 * high + low) % 16 = low := by omega
  rw [halves_cons, hbyte, hdiv, hmod]

theorem decode?_cons_cons {a b : Char} {rest : List Char} {bytes : List UInt8} :
    decode? (a :: b :: rest) = some bytes ↔ ∃ high low tail, value? a = some high ∧
      value? b = some low ∧ decode? rest = some tail ∧
        UInt8.ofNat (16 * high + low) :: tail = bytes := by
  simp [decode?, Option.bind_eq_some_iff]

/-- Digits decode to the bytes whose halves they stand for. -/
theorem decode?_eq_some_iff {s : List Char} {bytes : List UInt8} :
    decode? s = some bytes ↔ s.map value? = (halves bytes).map some := by
  induction s using decode?.induct generalizing bytes with
  | case1 =>
    cases bytes with
    | nil => exact ⟨fun _ => rfl, fun _ => rfl⟩
    | cons b bytes => simp [decode?, halves_cons]
  | case2 c =>
    cases bytes with
    | nil => simp [decode?, halves]
    | cons b bytes => simp [decode?, halves_cons]
  | case3 a b rest ih =>
    rw [decode?_cons_cons]
    constructor
    · rintro ⟨high, low, tail, ha, hb, hrest, rfl⟩
      rw [halves_ofNat (digit_of_value? ha).1 (digit_of_value? hb).1, List.map_cons, List.map_cons,
        ha, hb, ih.mp hrest]
      rfl
    · intro h
      cases bytes with
      | nil => cases h
      | cons x bytes =>
        rw [halves_cons, List.map_cons, List.map_cons, List.map_cons, List.map_cons,
          List.cons.injEq, List.cons.injEq] at h
        obtain ⟨ha, hb, hrest⟩ := h
        refine ⟨_, _, bytes, ha, hb, ih.mpr hrest, ?_⟩
        rw [Nat.div_add_mod, UInt8.ofNat_toNat]

theorem digits_of_values {s : List Char} {ns : List Nat} (h : s.map value? = ns.map some) :
    ns.map digit = s.map Char.toLower := by
  induction s generalizing ns with
  | nil =>
    rw [List.map_eq_nil_iff.mp h.symm]
    rfl
  | cons c s ih =>
    cases ns with
    | nil => cases h
    | cons n ns =>
      rw [List.map_cons, List.map_cons, List.cons.injEq] at h
      rw [List.map_cons, List.map_cons, (digit_of_value? h.1).2, ih h.2]

/-- What is written for the bytes that a text decodes to is that text in lower case. -/
theorem encode_of_decode? {s : List Char} {bytes : List UInt8} (h : decode? s = some bytes) :
    encode bytes = s.map Char.toLower := by
  have hencode : encode bytes = (halves bytes).map digit := by
    rw [halves, List.map_flatMap]
    rfl
  rw [hencode]
  exact digits_of_values (decode?_eq_some_iff.mp h)

/-- A digit is written in one byte. -/
theorem length_utf8_digits {s : List Char} (h : ∀ c ∈ s, c ∈ digits) :
    (Utf8.encode (String.ofList s)).length = s.length := by
  have hone : digits.all fun c => (String.utf8EncodeChar c).length = 1 := by decide
  rw [Utf8.encode, String.toList_ofList]
  induction s with
  | nil => rfl
  | cons c s ih =>
    obtain ⟨hc, hs⟩ := List.forall_mem_cons.mp h
    have hlength := of_decide_eq_true (List.all_eq_true.mp hone c hc)
    rw [List.flatMap_cons, List.length_append, hlength, ih hs, List.length_cons, Nat.add_comm]

end AdminPlane.Text.Hex
