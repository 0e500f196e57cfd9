import AdminPlane.Proofs.Json.Steady
import AdminPlane.Json.Value

namespace AdminPlane.Json

open AdminPlane.Text AdminPlane.Text.Ascii

namespace Number

/-- The decimal digits of a number, as bytes. -/
def written (n : Nat) : List UInt8 := (Nat.toDigits 10 n).map Char.toUInt8

theorem ascii_natural (n : Nat) : ascii (Decimal.natural n) = written n := by
  rw [ascii, Decimal.natural, String.toList_ofList, written]

theorem ascii_integer (i : Int) :
    ascii (Decimal.integer i) =
      if i < 0 then minus :: written i.natAbs else written i.toNat := by
  unfold Decimal.integer
  split
  · rw [ascii, String.toList_append, List.map_append, ← ascii, ← ascii, ascii_natural]
    rfl
  · exact ascii_natural _

theorem toNat_toUInt8 {c : Char} (h : c.toNat < 256) : c.toUInt8.toNat = c.toNat := by
  rw [Char.toUInt8, UInt32.toNat_toUInt8]
  exact Nat.mod_eq_of_lt h

theorem toNat_of_isDigit {c : Char} (h : c.isDigit = true) :
    c.toUInt8.toNat = c.toNat ∧ 48 ≤ c.toNat ∧ c.toNat ≤ 57 := by
  obtain ⟨hl, hu⟩ := Char.isDigit_iff_toNat.mp h
  change 48 ≤ c.toNat at hl
  change c.toNat ≤ 57 at hu
  exact ⟨toNat_toUInt8 (by omega), hl, hu⟩

theorem isDigit_of_mem_written {n : Nat} {b : UInt8} (h : b ∈ written n) : isDigit b = true := by
  obtain ⟨c, hc, rfl⟩ := List.mem_map.mp h
  obtain ⟨he, hl, hu⟩ :=
    toNat_of_isDigit (Nat.isDigit_of_mem_toDigits (by decide) (by decide) hc)
  simp only [isDigit, Bool.and_eq_true, decide_eq_true_eq, UInt8.le_iff_toNat_le, he]
  exact ⟨hl, hu⟩

theorem written_cons (n : Nat) : ∃ d ds, written n = d :: ds ∧ isDigit d = true := by
  obtain ⟨d, ds, hd⟩ := List.exists_cons_of_ne_nil
    (show written n ≠ [] by simp [written, Nat.toDigits_ne_nil])
  exact ⟨d, ds, hd, isDigit_of_mem_written (by rw [hd]; exact .head _)⟩

/-- Only zero is written with a zero in front. -/
theorem eq_zero_of_head {n : Nat} (h : (written n).head? = some zero) : n = 0 := by
  induction n using Nat.strongRecOn with
  | ind n ih =>
    by_cases hn : n < 10
    · rw [written, Nat.toDigits_of_lt_base hn] at h
      have hd := Nat.toNat_digitChar_of_lt_ten hn
      have hb : (Nat.digitChar n).toUInt8 = zero := by simpa using h
      have hv := congrArg UInt8.toNat hb
      rw [toNat_toUInt8 (by omega), hd] at hv
      change 48 + n = 48 at hv
      omega
    · rw [written, Nat.toDigits_of_base_le (by decide) (by omega), List.map_append,
        ← written] at h
      have hhead : (written (n / 10)).head? = some zero := by
        obtain ⟨d, ds, hd, _⟩ := written_cons (n / 10)
        rw [hd] at h ⊢
        exact h
      have := ih (n / 10) (by omega) hhead
      omega

/-- The number that digits denote behind digits that denote `a`. -/
def denoted (a : Nat) (ds : List UInt8) : Nat := ds.foldl (fun n d => 10 * n + (d.toNat - 48)) a

theorem le_denoted (a : Nat) (ds : List UInt8) : a ≤ denoted a ds := by
  induction ds generalizing a with
  | nil => exact Nat.le_refl a
  | cons d ds ih =>
    have := ih (10 * a + (d.toNat - 48))
    simp only [denoted, List.foldl_cons] at this ⊢
    omega

theorem denoted_written (n : Nat) : denoted 0 (written n) = n := by
  have h : ∀ (cs : List Char) (a : Nat), (∀ c ∈ cs, c.isDigit = true) →
      denoted a (cs.map Char.toUInt8) = Nat.ofDigitChars 10 cs a := by
    intro cs
    induction cs with
    | nil => intro a _; simp [denoted]
    | cons c cs ih =>
      intro a hc
      have he := (toNat_of_isDigit (hc c (.head _))).1
      have := ih (10 * a + (c.toNat - 48)) fun d hd => hc d (.tail _ hd)
      rw [Nat.ofDigitChars_cons, List.map_cons, denoted, List.foldl_cons, he]
      exact this
  rw [written, h _ 0 fun c hc => Nat.isDigit_of_mem_toDigits (by decide) (by decide) hc,
    Nat.ofDigitChars_ten_toDigits]

/-- Digits are never given back while the whole number fits. -/
theorem accumulate_of_fits {a : Nat} (ds : List UInt8) (h : denoted a ds < UInt64.size) :
    accumulate a ds = (denoted a ds, []) := by
  induction ds generalizing a with
  | nil => rfl
  | cons d ds ih =>
    have hle := le_denoted (10 * a + (d.toNat - 48)) ds
    have hd : denoted a (d :: ds) = denoted (10 * a + (d.toNat - 48)) ds := rfl
    rw [hd] at h ⊢
    rw [accumulate, if_pos (by omega), ih h]

end Number

/-- What may stand behind a value, or nothing: no byte that a number could go on with. -/
def Follows (rest : List UInt8) : Prop :=
  rest.head?.any isDigit = false ∧ rest.head? ≠ some point ∧ Number.isExponent rest.head? = false

instance (rest : List UInt8) : Decidable (Follows rest) :=
  inferInstanceAs (Decidable (_ ∧ _ ∧ _))

theorem follows_nil : Follows [] := by decide

/-- Only the next byte counts. -/
theorem follows_cons {b : UInt8} (h : Follows [b]) (rest : List UInt8) : Follows (b :: rest) := h

theorem follows_comma (rest : List UInt8) : Follows (comma :: rest) :=
  follows_cons (by decide) rest

theorem follows_closeBracket (rest : List UInt8) : Follows (closeBracket :: rest) :=
  follows_cons (by decide) rest

theorem follows_closeBrace (rest : List UInt8) : Follows (closeBrace :: rest) :=
  follows_cons (by decide) rest

namespace Number

/-- A run of digits ends where the digits do. -/
theorem span_digits {ds rest : List UInt8} (hds : ∀ d ∈ ds, isDigit d = true)
    (hrest : rest.head?.any isDigit = false) :
    (ds ++ rest).takeWhile isDigit = ds ∧ (ds ++ rest).dropWhile isDigit = rest := by
  have hend : rest.takeWhile isDigit = [] ∧ rest.dropWhile isDigit = rest := by
    cases rest with
    | nil => exact ⟨rfl, rfl⟩
    | cons b rest =>
      have hb : isDigit b = false := hrest
      simp [hb]
  rw [List.takeWhile_append_of_pos hds, List.dropWhile_append_of_pos hds, hend.1, hend.2,
    List.append_nil]
  exact ⟨rfl, rfl⟩

theorem integerDigits_written {n : Nat} {rest : List UInt8} (h : Follows rest) :
    integerDigits (written n ++ rest) = .ok (written n, rest) := by
  by_cases hz : (written n).head? = some zero
  · cases eq_zero_of_head hz
    rfl
  · have hhead : ¬ (written n ++ rest).head? = some zero := by
      obtain ⟨d, ds, hd, _⟩ := written_cons n
      rw [hd] at hz ⊢
      exact hz
    obtain ⟨htake, hdrop⟩ := span_digits (fun b => isDigit_of_mem_written (n := n)) h.1
    rw [integerDigits, if_neg hhead, htake, hdrop]

/-- A number is read back from its digits, behind its sign. -/
theorem body_written {n : Nat} (minus : Bool) (hn : n < UInt64.size) {rest : List UInt8}
    (h : Follows rest) : body minus (written n ++ rest) = .ok (whole minus n, rest) := by
  have hread := integerDigits_written (n := n) h
  obtain ⟨hdigit, hpoint, hexponent⟩ := h
  have hfits : accumulate 0 (written n) = (n, []) := by
    have := accumulate_of_fits (a := 0) (written n) (by rwa [denoted_written])
    rwa [denoted_written] at this
  obtain ⟨d, ds, hd, hfirst⟩ := written_cons n
  have hpeek : peek (written n ++ rest) = .ok (some d, written n ++ rest) := by
    rw [hd]
    rfl
  have hnext : peek rest = .ok (rest.head?, rest) := rfl
  rw [body, bind_of_ok hpeek]
  dsimp only
  rw [if_pos hfirst, bind_of_ok hread, bind_of_ok hnext]
  have hlone : ¬ (d = zero ∧ rest.head?.any isDigit) := by simp [hdigit]
  rw [if_neg hlone, hfits]
  dsimp only
  rw [if_neg hpoint, hexponent]
  rfl

end Number

/-- The reader reads `x` from a document, and nothing of what follows it. -/
def Reads (r : Reader α) (j : Json) (x : α) : Prop :=
  ∀ rest, Follows rest → r (j.compact ++ rest) = .ok (x, rest)

theorem peekToken_cons {b : UInt8} {s : List UInt8} (h : isSpace b = false) :
    peekToken (b :: s) = .ok (some b, b :: s) := by
  have hs : (b :: s).dropWhile isSpace = b :: s := List.dropWhile_cons_of_neg (by simp [h])
  change Except.ok (((b :: s).dropWhile isSpace).head?, (b :: s).dropWhile isSpace) = _
  rw [hs]
  rfl

theorem value_cons {expected : String} {read : UInt8 → Option (Reader α)} {r : Reader α}
    {b : UInt8} {s : List UInt8} (h : isSpace b = false) (hr : read b = some r) :
    value expected read (b :: s) = r (b :: s) := by
  rw [value, bind_of_ok (peekToken_cons h)]
  dsimp only
  rw [hr, Option.getD_some]

namespace Number

theorem isSpace_of_isDigit {b : UInt8} (h : isDigit b = true) : isSpace b = false := by
  simp only [isDigit, Bool.and_eq_true, decide_eq_true_eq, UInt8.le_iff_toNat_le] at h
  have hne : ∀ c : UInt8, c.toNat < 48 → b ≠ c := by
    rintro c hc rfl
    exact absurd h.1 (Nat.not_le.mpr hc)
  simp [isSpace, hne 0x20 (by decide), hne 0x0A (by decide), hne 0x09 (by decide),
    hne 0x0D (by decide)]

theorem ne_minus_of_isDigit {b : UInt8} (h : isDigit b = true) : b ≠ minus := by
  rintro rfl
  cases h

/-- The kind of number that an integer is read as. -/
def ofInt (i : Int) : Number := if i < 0 then .negative i else .natural i.toNat

theorem read_integer {i : Int} (hl : -0x8000000000000000 ≤ i) (hu : i < UInt64.size)
    {rest : List UInt8} (h : Follows rest) :
    read (ascii (Decimal.integer i) ++ rest) = .ok (ofInt i, rest) := by
  rw [ascii_integer, ofInt]
  split
  · rename_i hneg
    have hsize : i.natAbs < UInt64.size := Nat.lt_of_le_of_lt (by omega : _ ≤ 2 ^ 63) (by decide)
    have hbody := body_written true hsize h
    have hwhole : whole true i.natAbs = .negative i := by
      rw [whole, if_neg (by simp), if_neg (by omega)]
      congr 1
      omega
    rw [hwhole] at hbody
    exact hbody
  · have hbody := body_written false (n := i.toNat) (by omega) h
    obtain ⟨d, ds, hd, hdigit⟩ := written_cons i.toNat
    have hne : d ≠ minus := ne_minus_of_isDigit hdigit
    have hpeek : peek (written i.toNat ++ rest) = .ok (some d, written i.toNat ++ rest) := by
      rw [hd]
      rfl
    rw [read, bind_of_ok hpeek, if_neg (by simpa using hne), hbody]
    rfl

end Number

theorem reads_integer {narrow : Int → Option α} {i : Int} {x : α} (expected : String)
    (hx : narrow i = some x) (hl : -0x8000000000000000 ≤ i) (hu : i < UInt64.size) :
    Reads (Reader.integer expected narrow) (.integer i) x := by
  intro rest h
  have hread := Number.read_integer hl hu h
  have hfirst : ∃ b s, ascii (Decimal.integer i) = b :: s ∧ (b = minus ∨ isDigit b = true) := by
    rw [Number.ascii_integer]
    split
    · exact ⟨minus, _, rfl, .inl rfl⟩
    · obtain ⟨d, ds, hd, hdigit⟩ := Number.written_cons i.toNat
      exact ⟨d, ds, hd, .inr hdigit⟩
  obtain ⟨b, s, hb, hkind⟩ := hfirst
  have hspace : isSpace b = false := by
    rcases hkind with rfl | hdigit
    · rfl
    · exact Number.isSpace_of_isDigit hdigit
  rw [compact, hb, List.cons_append, Reader.integer, value_cons hspace (if_pos hkind)]
  rw [hb, List.cons_append] at hread
  rw [bind_of_ok hread]
  have hvalue : i < 0 ∨ (i.toNat : Int) = i := by omega
  unfold Number.ofInt
  split
  · dsimp only
    rw [hx]
    rfl
  · dsimp only
    rw [hvalue.resolve_left ‹_›, hx]
    rfl

theorem reads_int64 (n : Int64) : Reads Reader.int64 (.integer n.toInt) n := by
  have hl := n.le_toInt
  have hu := n.toInt_lt
  refine reads_integer "i64" ?_ hl (Int.lt_of_lt_of_le hu (by decide))
  have hfits : Decimal.fits64 n.toInt = true := by
    simp only [Decimal.fits64, Bool.and_eq_true, decide_eq_true_eq]
    omega
  rw [if_pos hfits, Int64.ofInt_toInt]

theorem reads_uint32 (n : UInt32) : Reads Reader.uint32 (.integer n.toNat) n := by
  have hu : n.toNat < UInt32.size := n.toNat_lt
  have hs : UInt32.size ≤ UInt64.size := by decide
  refine reads_integer "u32" ?_ (by omega) (by omega)
  rw [if_pos (by omega), Int.toNat_natCast, UInt32.ofNat_toNat]

theorem reads_uint64 (n : UInt64) : Reads Reader.uint64 (.integer n.toNat) n := by
  have hu : n.toNat < UInt64.size := n.toNat_lt
  refine reads_integer "usize" ?_ (by omega) (by omega)
  rw [if_pos (by omega), Int.toNat_natCast, UInt64.ofNat_toNat]

end AdminPlane.Json
