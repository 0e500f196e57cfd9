import AdminPlane.Json.Grammar
import AdminPlane.Proofs.Json.Readers
import AdminPlane.Proofs.Json.Numbers
import AdminPlane.Proofs.Text.Utf8

namespace AdminPlane.Json

open AdminPlane.Text AdminPlane.Text.Ascii

theorem isChars_plain {t : List UInt8} (h : t.all (IsPlain ·) = true) : IsChars t := by
  induction t with
  | nil => exact .nil
  | cons b t ih =>
    rw [List.all_cons, Bool.and_eq_true] at h
    exact .plain (of_decide_eq_true h.1) (ih h.2)

namespace Text

theorem bytes_cons {fuel : Nat} {seen s : List UInt8} {b : UInt8} (h : IsPlain b) :
    bytes (fuel + 1) seen (b :: s) = bytes fuel (b :: seen) s := by
  rw [bytes, bind_of_ok (peek_cons b s)]
  dsimp only
  rw [bind_of_ok (advance_cons b s), if_neg h.1, if_neg h.2.1, if_neg h.2.2]

theorem bytes_append {u : List UInt8} (hu : ∀ b ∈ u, IsPlain b) (fuel : Nat)
    (seen s : List UInt8) :
    bytes (fuel + u.length) seen (u ++ s) = bytes fuel (u.reverse ++ seen) s := by
  induction u generalizing seen with
  | nil => rfl
  | cons b u ih =>
    rw [List.length_cons, ← Nat.add_assoc, List.cons_append, bytes_cons (hu b (.head _)),
      ih fun c hc => hu c (.tail _ hc), List.reverse_cons, List.append_assoc]
    rfl

theorem bytes_escape (fuel : Nat) (seen : List UInt8) {denoted s t : List UInt8}
    (h : escape s = .ok (denoted, t)) :
    bytes (fuel + 1) seen (backslash :: s) = bytes fuel (denoted.reverse ++ seen) t := by
  rw [bytes, bind_of_ok (peek_cons backslash s)]
  dsimp only
  rw [bind_of_ok (advance_cons backslash s), if_neg (by decide), if_pos rfl, bind_of_ok h]

theorem escape_short {letter b : UInt8} (h : shortEscape? letter = some b)
    (hu : letter ≠ lowerU) (s : List UInt8) : escape (letter :: s) = .ok ([b], s) := by
  rw [escape, bind_of_ok (peek_cons letter s)]
  dsimp only
  rw [bind_of_ok (advance_cons letter s), if_neg hu, h]
  rfl

theorem length_of_hexValue {digits : List UInt8} {n : Nat} (h : hexValue? digits = some n) :
    digits.length = 4 := by
  unfold hexValue? at h
  split at h
  · assumption
  · cases h

theorem hex4_digits {digits : List UInt8} {n : Nat} (h : hexValue? digits = some n)
    (s : List UInt8) : hex4 (digits ++ s) = .ok (n, s) := by
  have hlength := length_of_hexValue h
  rw [hexValue?, if_pos hlength] at h
  obtain ⟨ds, hds, hfold⟩ := Option.map_eq_some_iff.mp h
  rw [hex4, if_neg (by simp [hlength]), ← hlength, List.take_left, List.drop_left, hds]
  dsimp only
  rw [hfold]

theorem escape_unicode {digits : List UInt8} {n : Nat} (h : hexValue? digits = some n)
    (hn : n < 0xD800 ∨ 0xDFFF < n) (s : List UInt8) :
    escape (lowerU :: (digits ++ s)) = .ok (String.utf8EncodeChar (Char.ofNat n), s) := by
  rw [escape, bind_of_ok (peek_cons lowerU _)]
  dsimp only
  rw [bind_of_ok (advance_cons lowerU _), if_pos rfl, unicodeEscape, bind_of_ok (hex4_digits h s),
    if_neg (by omega), if_pos (by omega)]
  rfl

theorem continueWith_cons (b : UInt8) (s : List UInt8) :
    continueWith b (b :: s) = .ok ((), s) := by
  rw [continueWith, bind_of_ok (peek_cons b s)]
  dsimp only
  rw [bind_of_ok (advance_cons b s), if_pos rfl]
  rfl

theorem escape_pair {digits digits' : List UInt8} {high low : Nat}
    (h : hexValue? digits = some high) (h' : hexValue? digits' = some low)
    (hhigh : 0xD800 ≤ high ∧ high ≤ 0xDBFF) (hlow : 0xDC00 ≤ low ∧ low ≤ 0xDFFF)
    (s : List UInt8) :
    escape (lowerU :: (digits ++ backslash :: lowerU :: (digits' ++ s))) =
      .ok (String.utf8EncodeChar
        (Char.ofNat (0x10000 + 0x400 * (high - 0xD800) + (low - 0xDC00))), s) := by
  rw [escape, bind_of_ok (peek_cons lowerU _)]
  dsimp only
  rw [bind_of_ok (advance_cons lowerU _), if_pos rfl, unicodeEscape, bind_of_ok (hex4_digits h _),
    if_neg (by omega), if_neg (by omega), bind_of_ok (continueWith_cons backslash _),
    bind_of_ok (continueWith_cons lowerU _), bind_of_ok (hex4_digits h' s), if_neg (by omega)]
  rfl

theorem plain_of_mem {c : Char} (hquote : c ≠ '"') (hbackslash : c ≠ '\\') (hc : ¬ c.toNat < 0x20)
    {b : UInt8} (h : b ∈ String.utf8EncodeChar c) : IsPlain b := by
  rcases Utf8.ascii_or_high h with ⟨hlow, rfl⟩ | hhigh
  · have hn := Utf8.toNat_ofNat (n := c.toNat) (by omega)
    have hne : ∀ d : Char, c ≠ d → d.toNat < 256 → UInt8.ofNat c.toNat ≠ UInt8.ofNat d.toNat := by
      intro d hd hlt he
      have := congrArg UInt8.toNat he
      rw [hn, Utf8.toNat_ofNat hlt] at this
      exact hd (Char.toNat_inj.mp this)
    refine ⟨hne '"' hquote (by decide), hne '\\' hbackslash (by decide), fun hlt => ?_⟩
    rw [UInt8.lt_iff_toNat_lt, hn] at hlt
    exact hc hlt
  · refine ⟨?_, ?_, fun hlt => ?_⟩
    · rintro rfl
      exact absurd hhigh (by decide)
    · rintro rfl
      exact absurd hhigh (by decide)
    · have hlt' : b.toNat < 32 := UInt8.lt_iff_toNat_lt.mp hlt
      omega

/-- The character `c` is read from the text `u` by fewer steps than `u` has bytes. -/
def Spells (u : List UInt8) (c : Char) : Prop :=
  ∀ fuel seen s y, bytes fuel ((String.utf8EncodeChar c).reverse ++ seen) s = .ok y →
    bytes (fuel + u.length) seen (u ++ s) = .ok y

/-- The text behind the backslash is one escape. -/
theorem spells_escape {u : List UInt8} {c : Char}
    (h : ∀ s, escape (u ++ s) = .ok (String.utf8EncodeChar c, s)) : Spells (backslash :: u) c := by
  intro fuel seen s y hy
  rw [List.length_cons, ← Nat.add_assoc, List.cons_append, bytes_escape _ _ (h s)]
  exact within_le (r := fun n => bytes n _) (fun n => within_bytes n _) (Nat.le_add_right fuel _)
    s y hy

theorem spells_plain {c : Char} (h : ∀ b ∈ String.utf8EncodeChar c, IsPlain b) :
    Spells (String.utf8EncodeChar c) c := by
  intro fuel seen s y hy
  rw [bytes_append h]
  exact hy

/-- No letter of an escape stands for a character beyond ASCII. -/
theorem utf8EncodeChar_short {letter b : UInt8} (h : shortEscape? letter = some b) :
    letter ≠ lowerU ∧ String.utf8EncodeChar (Char.ofNat b.toNat) = [b] := by
  unfold shortEscape? at h
  repeat' split at h
  all_goals cases h
  all_goals
    subst letter
    exact ⟨by decide, rfl⟩

theorem spells_denotes {u : List UInt8} {c : Char} (h : Denotes u c) : Spells u c := by
  cases h with
  | plain hquote hbackslash hc => exact spells_plain fun b => plain_of_mem hquote hbackslash hc
  | short h =>
    obtain ⟨hletter, hc⟩ := utf8EncodeChar_short h
    exact spells_escape fun s => hc ▸ escape_short h hletter s
  | unicode h hn => exact spells_escape fun s => escape_unicode h hn s
  | pair h h' hhigh hlow =>
    refine spells_escape fun s => ?_
    simp only [List.cons_append, List.append_assoc]
    exact escape_pair h h' hhigh hlow s

theorem bytes_flatten {pieces : List (List UInt8)} {cs : List Char}
    (h : List.Forall₂ Denotes pieces cs) (fuel : Nat) (seen s : List UInt8)
    (y : List UInt8 × List UInt8)
    (hy : bytes fuel ((cs.flatMap String.utf8EncodeChar).reverse ++ seen) s = .ok y) :
    bytes (fuel + pieces.flatten.length) seen (pieces.flatten ++ s) = .ok y := by
  induction h generalizing seen with
  | nil => exact hy
  | @cons u c pieces cs hu hrest ih =>
    rw [List.flatMap_cons, List.reverse_append, List.append_assoc] at hy
    have hfirst := spells_denotes hu _ _ _ _ (ih _ hy)
    rw [List.flatten_cons, List.append_assoc, List.length_append, Nat.add_comm u.length,
      ← Nat.add_assoc]
    exact hfirst

/-- A string is read from any of its texts. -/
theorem read_spelt {w : String} {text : List UInt8} (h : Spelt w text) (s : List UInt8) :
    read (text ++ s) = .ok (w, s) := by
  obtain ⟨pieces, hpieces, rfl⟩ := h
  have hend : bytes 1 ((w.toList.flatMap String.utf8EncodeChar).reverse ++ []) (Ascii.quote :: s) =
      .ok (Utf8.encode w, s) := by
    rw [List.append_nil]
    change Except.ok (((w.toList.flatMap String.utf8EncodeChar).reverse).reverse, s) = _
    rw [List.reverse_reverse, Utf8.encode]
  have hbytes := bytes_flatten hpieces 1 [] (Ascii.quote :: s) _ hend
  generalize htext : pieces.flatten ++ Ascii.quote :: s = text at hbytes
  have hquote : Ascii.quote :: (pieces.flatten ++ [Ascii.quote]) ++ s = Ascii.quote :: text := by
    rw [← htext]
    simp
  have hfuel : bytes (text.length + 1) [] text = .ok (Utf8.encode w, s) := by
    refine within_le (r := fun n => bytes n []) (fun n => within_bytes n []) ?_ _ _ hbytes
    rw [← htext, List.length_append, List.length_cons]
    omega
  have hget : (get : Reader (List UInt8)) text = .ok (text, text) := rfl
  rw [hquote, read, bind_of_ok (advance_cons _ text), bind_of_ok hget, bind_of_ok hfuel,
    Utf8.decode?_encode]
  rfl

end Text

/-- Every control character is written with digits that are read back. -/
theorem hexValue_control : ∀ n < 0x20,
    hexValue? ((Hex.ofNat 4 n).map Char.toUInt8) = some n := by
  decide

theorem denotes_control {c : Char} (hc : c.toNat < 0x20) :
    Denotes (ascii "\\u" ++ (Hex.ofNat 4 c.toNat).map Char.toUInt8) c := by
  have h : Denotes (backslash :: lowerU :: (Hex.ofNat 4 c.toNat).map Char.toUInt8)
      (Char.ofNat c.toNat) := .unicode (hexValue_control c.toNat hc) (by omega)
  rwa [Char.ofNat_toNat] at h

theorem denotes_escape (c : Char) : Denotes (escape c) c := by
  unfold escape
  split
  · subst c
    exact .short (b := Ascii.quote) rfl
  · rename_i hquote
    split
    · subst c
      exact .short (b := backslash) rfl
    · rename_i hbackslash
      repeat' split
      · subst c
        exact .short (b := 0x08) rfl
      · subst c
        exact .short (b := 0x09) rfl
      · subst c
        exact .short (b := 0x0A) rfl
      · subst c
        exact .short (b := 0x0C) rfl
      · subst c
        exact .short (b := 0x0D) rfl
      · exact denotes_control (by assumption)
      · exact .plain hquote hbackslash (by assumption)

theorem spelt_quote (s : String) : Spelt s (quote s) := by
  refine ⟨s.toList.map escape, ?_, ?_⟩
  · rw [List.forall₂_map_left_iff, List.forall₂_same]
    exact fun c _ => denotes_escape c
  · rw [quote, List.flatMap_def, List.cons_append]

theorem Text.read_quote (w : String) (s : List UInt8) : read (quote w ++ s) = .ok (w, s) :=
  read_spelt (spelt_quote w) s

theorem string_spelt {w : String} {text : List UInt8} (h : Spelt w text) (rest : List UInt8) :
    Reader.string (text ++ rest) = .ok (w, rest) := by
  have hread := Text.read_spelt h rest
  obtain ⟨pieces, _, rfl⟩ := h
  rw [List.cons_append] at hread ⊢
  rw [Reader.string, value_cons (by decide) (if_pos rfl), hread]

theorem reads_string (w : String) : Reads Reader.string (.string w) w :=
  fun rest _ => string_spelt (spelt_quote w) rest

theorem word_ok {w : String} {b : UInt8} {u : List UInt8} (hw : ascii w = b :: u)
    (hu : ascii (String.ofList (w.toList.drop 1)) = u) (s : List UInt8) :
    word w (ascii w ++ s) = .ok ((), s) := by
  have hrest : ∀ u s, literalRest u (u ++ s) = .ok ((), s) := by
    intro u
    induction u with
    | nil => exact fun s => rfl
    | cons c u ih =>
      intro s
      rw [List.cons_append, literalRest, bind_of_ok (peek_cons c _)]
      dsimp only
      rw [bind_of_ok (advance_cons c _), if_pos rfl, ih]
  rw [word, hw, List.cons_append, bind_of_ok (advance_cons b _), hu, hrest]

theorem reads_boolean (b : Bool) : Reads Reader.boolean (.bool b) b := by
  intro rest _
  rw [compact, literal, Reader.boolean]
  cases b with
  | true =>
    have hword := word_ok (w := "true") (b := 0x74) rfl rfl rest
    exact (value_cons (b := 0x74) (s := ascii "rue" ++ rest) rfl rfl).trans (bind_of_ok hword)
  | false =>
    have hword := word_ok (w := "false") (b := 0x66) rfl rfl rest
    exact (value_cons (b := 0x66) (s := ascii "alse" ++ rest) rfl rfl).trans (bind_of_ok hword)

end AdminPlane.Json
