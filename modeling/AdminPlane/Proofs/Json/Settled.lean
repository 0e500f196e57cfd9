import AdminPlane.Proofs.Json.Passing

namespace AdminPlane.Json

open AdminPlane.Text AdminPlane.Text.Ascii

/-- What is made of a part of a text, in front of the rest of it. The part counts the place of a fault
from its own end. -/
def followed (rest : List UInt8) : Except Fault α → Except Fault (α × List UInt8)
  | .ok x => .ok (x, rest)
  | .error fault => .error ⟨fault.cause, fault.left + rest.length⟩

/-- The reader makes the same of the part of a text, whatever stands behind it. -/
def Settles (r : Reader α) (u : List UInt8) : Prop :=
  ∃ outcome, ∀ rest, Follows rest → r (u ++ rest) = followed rest outcome

theorem bind_of_error {r : Reader α} {f : α → Reader β} {s : List UInt8} {fault : Fault}
    (h : r s = .error fault) : (r >>= f) s = .error fault := by
  change (r s >>= fun p => f p.1 p.2) = .error fault
  rw [h]
  rfl

theorem settles_pure (x : α) : Settles (pure x : Reader α) [] := ⟨.ok x, fun _ _ => rfl⟩

theorem settles_failBefore (count : Nat) (cause : Cause) :
    Settles (failBefore count cause : Reader α) [] := by
  refine ⟨.error ⟨cause, count⟩, fun rest _ => ?_⟩
  rw [followed, Nat.add_comm]
  rfl

theorem settles_fail (cause : Cause) : Settles (fail cause : Reader α) [] :=
  settles_failBefore 0 cause

theorem settles_ite {c : Prop} [Decidable c] {a b : Reader α} {u : List UInt8} (ha : Settles a u)
    (hb : Settles b u) : Settles (if c then a else b) u := by
  split
  · exact ha
  · exact hb

/-- The first part of a reader reads all of the text. -/
theorem settles_bind {r : Reader α} {f : α → Reader β} {u : List UInt8} (hr : Settles r u)
    (hf : ∀ x, Settles (f x) []) : Settles (r >>= f) u := by
  obtain ⟨outcome, hr⟩ := hr
  cases outcome with
  | error fault => exact ⟨.error fault, fun rest hrest => bind_of_error (hr rest hrest)⟩
  | ok x =>
    obtain ⟨outcome, hx⟩ := hf x
    refine ⟨outcome, fun rest hrest => ?_⟩
    rw [bind_of_ok (hr rest hrest)]
    exact hx rest hrest

/-- The first part of a reader leaves `v` of the text. -/
theorem settles_step {r : Reader α} {f : α → Reader β} {u v : List UInt8} {x : α}
    (hr : ∀ rest, Follows rest → r (u ++ rest) = .ok (x, v ++ rest)) (hf : Settles (f x) v) :
    Settles (r >>= f) u := by
  obtain ⟨outcome, hx⟩ := hf
  refine ⟨outcome, fun rest hrest => ?_⟩
  rw [bind_of_ok (hr rest hrest)]
  exact hx rest hrest

theorem settles_map {r : Reader α} (f : α → β) {u : List UInt8} (hr : Settles r u) :
    Settles (f <$> r) u :=
  settles_bind hr fun x => settles_pure (f x)

namespace Text

theorem bytes_backslash (fuel : Nat) (seen s : List UInt8) :
    bytes (fuel + 1) seen (backslash :: s) =
      (escape >>= fun denoted => bytes fuel (denoted.reverse ++ seen)) s := by
  rw [bytes, bind_of_ok (peek_cons backslash s)]
  dsimp only
  rw [bind_of_ok (advance_cons backslash s), if_neg (by decide), if_pos rfl]

theorem continueWith_ne {b c : UInt8} (h : c ≠ b) (s : List UInt8) :
    continueWith b (c :: s) = .error ⟨.endOfHexEscape, s.length⟩ := by
  rw [continueWith, bind_of_ok (peek_cons c s)]
  dsimp only
  rw [bind_of_ok (advance_cons c s), if_neg h]
  rfl

/-- The second half of a pair of surrogates whose first half is `high`. -/
def lowHalf (high : Nat) : Reader (List UInt8) := do
  continueWith backslash
  continueWith lowerU
  let low ← hex4
  if low < 0xDC00 ∨ 0xDFFF < low then fail .loneSurrogate
  else
    pure (String.utf8EncodeChar (Char.ofNat (0x10000 + 0x400 * (high - 0xD800) + (low - 0xDC00))))

theorem escape_high {digits : List UInt8} {n : Nat} (h : hexValue? digits = some n)
    (hn : 0xD800 ≤ n ∧ n ≤ 0xDBFF) (s : List UInt8) :
    escape (lowerU :: (digits ++ s)) = lowHalf n s := by
  rw [escape, bind_of_ok (peek_cons lowerU _)]
  dsimp only
  rw [bind_of_ok (advance_cons lowerU _), if_pos rfl, unicodeEscape, bind_of_ok (hex4_digits h s),
    if_neg (by omega), if_neg (by omega)]
  rfl

theorem escape_low {digits : List UInt8} {n : Nat} (h : hexValue? digits = some n)
    (hn : 0xDC00 ≤ n ∧ n ≤ 0xDFFF) (s : List UInt8) :
    escape (lowerU :: (digits ++ s)) = .error ⟨.loneSurrogate, s.length⟩ := by
  rw [escape, bind_of_ok (peek_cons lowerU _)]
  dsimp only
  rw [bind_of_ok (advance_cons lowerU _), if_pos rfl, unicodeEscape, bind_of_ok (hex4_digits h s),
    if_pos hn]
  rfl

section LowHalf

variable (high : Nat) (s : List UInt8)

theorem lowHalf_plain {b : UInt8} (h : b ≠ backslash) :
    lowHalf high (b :: s) = .error ⟨.endOfHexEscape, s.length⟩ :=
  bind_of_error (continueWith_ne h s)

theorem lowHalf_short {letter : UInt8} (h : letter ≠ lowerU) :
    lowHalf high (backslash :: letter :: s) = .error ⟨.endOfHexEscape, s.length⟩ := by
  rw [lowHalf, bind_of_ok (continueWith_cons backslash _)]
  exact bind_of_error (continueWith_ne h s)

theorem lowHalf_unicode {digits : List UInt8} {low : Nat} (h : hexValue? digits = some low) :
    lowHalf high (backslash :: lowerU :: (digits ++ s)) =
      if low < 0xDC00 ∨ 0xDFFF < low then .error ⟨.loneSurrogate, s.length⟩
      else .ok (String.utf8EncodeChar
        (Char.ofNat (0x10000 + 0x400 * (high - 0xD800) + (low - 0xDC00))), s) := by
  rw [lowHalf, bind_of_ok (continueWith_cons backslash _), bind_of_ok (continueWith_cons lowerU _),
    bind_of_ok (hex4_digits h s)]
  split
  all_goals rfl

end LowHalf

/-- A reader that is given enough fuel makes the same of the rest of a string, whatever stands behind
the quote. -/
def Ends (t : List UInt8) (r : Nat → Reader (List UInt8)) : Prop :=
  ∃ outcome, ∀ fuel rest, t.length < fuel →
    r fuel (t ++ Ascii.quote :: rest) = followed rest outcome

section Ends

variable {t u : List UInt8} {r r' : Nat → Reader (List UInt8)}

/-- A fault in front of the part `t` of the string. -/
theorem ends_fault (cause : Cause) (h : ∀ fuel rest, r (fuel + 1) (u ++ Ascii.quote :: rest) =
    .error ⟨cause, (t ++ Ascii.quote :: rest).length⟩) : Ends u r := by
  refine ⟨.error ⟨cause, t.length + 1⟩, fun fuel rest hfuel => ?_⟩
  obtain ⟨fuel, rfl⟩ := Nat.exists_eq_succ_of_ne_zero (Nat.ne_zero_of_lt hfuel)
  rw [h, followed, List.length_append, List.length_cons, Nat.add_right_comm, Nat.add_assoc]

/-- Part of the string is read, and the part `t` is left. -/
theorem ends_step (hlt : t.length < u.length)
    (h : ∀ fuel rest, r (fuel + 1) (u ++ Ascii.quote :: rest) =
      r' fuel (t ++ Ascii.quote :: rest)) (hr : Ends t r') : Ends u r := by
  obtain ⟨outcome, hr⟩ := hr
  refine ⟨outcome, fun fuel rest hfuel => ?_⟩
  obtain ⟨fuel, rfl⟩ := Nat.exists_eq_succ_of_ne_zero (Nat.ne_zero_of_lt hfuel)
  rw [h, hr fuel rest (by omega)]

theorem ends_succ (h : Ends t r) : Ends t fun fuel => r (fuel + 1) := by
  obtain ⟨outcome, h⟩ := h
  exact ⟨outcome, fun fuel rest hfuel => h (fuel + 1) rest (Nat.lt_succ_of_lt hfuel)⟩

end Ends

/-- What a string is read with from its start or from behind an escape. -/
abbrev resume (seen : List UInt8) (fuel : Nat) : Reader (List UInt8) := bytes fuel seen

/-- What a string is read with from behind the first half of a pair of surrogates. -/
abbrev resumePair (high : Nat) (seen : List UInt8) (fuel : Nat) : Reader (List UInt8) :=
  lowHalf high >>= fun denoted => bytes fuel (denoted.reverse ++ seen)

theorem ends_nil (seen : List UInt8) (high : Nat) :
    Ends [] (resume seen) ∧ Ends [] (resumePair high seen) := by
  constructor
  · refine ⟨.ok seen.reverse, fun fuel rest hfuel => ?_⟩
    obtain ⟨fuel, rfl⟩ := Nat.exists_eq_succ_of_ne_zero (Nat.ne_zero_of_lt hfuel)
    rfl
  · refine ⟨.error ⟨.endOfHexEscape, 0⟩, fun fuel rest _ => ?_⟩
    rw [followed, Nat.zero_add]
    exact bind_of_error (lowHalf_plain high rest (by decide))

/-- The code point of an escape decides whether the string goes on, breaks off, or needs the other half
of a pair. -/
theorem ends_unicode {digits t : List UInt8} {n : Nat} (hn : hexValue? digits = some n)
    (hstart : ∀ seen, Ends t (resume seen)) (hpair : ∀ high seen, Ends t (resumePair high seen))
    (seen : List UInt8) (high : Nat) :
    Ends (backslash :: lowerU :: (digits ++ t)) (resume seen) ∧
      Ends (backslash :: lowerU :: (digits ++ t)) (resumePair high seen) := by
  have hlt : t.length < (backslash :: lowerU :: (digits ++ t)).length := by
    simp only [List.length_cons, List.length_append]
    omega
  constructor
  · by_cases hlow : 0xDC00 ≤ n ∧ n ≤ 0xDFFF
    · refine ends_fault (t := t) .loneSurrogate fun fuel rest => ?_
      simp only [List.cons_append, List.append_assoc]
      exact (bytes_backslash fuel seen _).trans (bind_of_error (escape_low hn hlow _))
    · by_cases hhigh : 0xD800 ≤ n ∧ n ≤ 0xDBFF
      · refine ends_step hlt (fun fuel rest => ?_) (hpair n seen)
        simp only [List.cons_append, List.append_assoc]
        refine (bytes_backslash fuel seen _).trans ?_
        change (escape _ >>= fun p => _) = (lowHalf n _ >>= fun p => _)
        rw [escape_high hn hhigh]
      · refine ends_step hlt (fun fuel rest => ?_)
          (hstart ((String.utf8EncodeChar (Char.ofNat n)).reverse ++ seen))
        simp only [List.cons_append, List.append_assoc]
        exact bytes_escape fuel seen (escape_unicode hn (by omega) _)
  · by_cases hlow : n < 0xDC00 ∨ 0xDFFF < n
    · refine ends_fault (t := t) .loneSurrogate fun fuel rest => ?_
      simp only [List.cons_append, List.append_assoc]
      refine bind_of_error ?_
      rw [lowHalf_unicode high _ hn, if_pos hlow]
    · refine ends_step hlt (fun fuel rest => ?_) (ends_succ (hstart ((String.utf8EncodeChar
        (Char.ofNat (0x10000 + 0x400 * (high - 0xD800) + (n - 0xDC00)))).reverse ++ seen)))
      simp only [List.cons_append, List.append_assoc]
      refine bind_of_ok ?_
      rw [lowHalf_unicode high _ hn, if_neg hlow]

theorem ends_chars {t : List UInt8} (ht : IsChars t) :
    (∀ seen, Ends t (resume seen)) ∧ ∀ high seen, Ends t (resumePair high seen) := by
  induction ht with
  | nil => exact ⟨fun seen => (ends_nil seen 0).1, fun high seen => (ends_nil seen high).2⟩
  | @plain b t hb ht ih =>
    refine ⟨fun seen => ?_, fun high seen => ?_⟩
    · exact ends_step (Nat.lt_succ_self _) (fun fuel rest => bytes_cons hb) (ih.1 (b :: seen))
    · exact ends_fault (t := t) .endOfHexEscape
        fun fuel rest => bind_of_error (lowHalf_plain high _ hb.2.1)
  | @short letter t h ht ih =>
    obtain ⟨b, hb⟩ := Option.isSome_iff_exists.mp h
    have hletter := (utf8EncodeChar_short hb).1
    refine ⟨fun seen => ?_, fun high seen => ?_⟩
    · refine ends_step (Nat.lt_succ_of_lt (Nat.lt_succ_self _)) (fun fuel rest => ?_)
        (ih.1 ([b].reverse ++ seen))
      exact bytes_escape fuel seen (escape_short hb hletter _)
    · exact ends_fault (t := t) .endOfHexEscape
        fun fuel rest => bind_of_error (lowHalf_short high _ hletter)
  | @unicode digits t h ht ih =>
    obtain ⟨n, hn⟩ := Option.isSome_iff_exists.mp h
    exact ⟨fun seen => (ends_unicode hn ih.1 ih.2 seen 0).1,
      fun high seen => (ends_unicode hn ih.1 ih.2 seen high).2⟩

/-- A string that denotes nothing is refused for what it holds, not for what stands behind it. -/
theorem settles_read {t : List UInt8} (ht : IsChars t) :
    Settles read (Ascii.quote :: (t ++ [Ascii.quote])) := by
  obtain ⟨outcome, hbytes⟩ := (ends_chars ht).1 []
  have hstart : ∀ rest, read (Ascii.quote :: (t ++ [Ascii.quote]) ++ rest) =
      (bytes ((t ++ Ascii.quote :: rest).length + 1) [] >>= fun found =>
        (Utf8.decode? found).elim
          (failBefore (found.length - Utf8.wellFormedLength found) .invalidCodePoint) pure)
            (t ++ Ascii.quote :: rest) := by
    intro rest
    have hget : (get : Reader (List UInt8)) (t ++ Ascii.quote :: rest) = .ok (_, _) := rfl
    rw [List.cons_append, List.append_assoc, List.singleton_append, read,
      bind_of_ok (advance_cons _ _), bind_of_ok hget]
    refine congrArg (fun finish : List UInt8 → Reader String =>
      (bytes ((t ++ Ascii.quote :: rest).length + 1) [] >>= finish) (t ++ Ascii.quote :: rest))
        (funext fun found => ?_)
    cases Utf8.decode? found with
    | none => rfl
    | some s => rfl
  have hfuel : ∀ rest, bytes ((t ++ Ascii.quote :: rest).length + 1) []
      (t ++ Ascii.quote :: rest) = followed rest outcome :=
    fun rest => hbytes _ rest (by rw [List.length_append]; omega)
  cases outcome with
  | error fault =>
    exact ⟨.error fault, fun rest _ => (hstart rest).trans (bind_of_error (hfuel rest))⟩
  | ok found =>
    cases hdecode : Utf8.decode? found with
    | some s =>
      refine ⟨.ok s, fun rest _ => ?_⟩
      rw [hstart, bind_of_ok (hfuel rest), hdecode]
      rfl
    | none =>
      have hsettles : Settles (failBefore (found.length - Utf8.wellFormedLength found)
          .invalidCodePoint : Reader String) [] := settles_failBefore _ _
      obtain ⟨outcome, hfail⟩ := hsettles
      refine ⟨outcome, fun rest hrest => ?_⟩
      rw [hstart, bind_of_ok (hfuel rest), hdecode]
      exact hfail rest hrest

end Text

theorem settles_peek {f : Option UInt8 → Reader α} {b : UInt8} {u : List UInt8}
    (hf : Settles (f (some b)) (b :: u)) : Settles (peek >>= f) (b :: u) :=
  settles_step (fun _ _ => rfl) hf

theorem settles_advance {f : Unit → Reader α} {b : UInt8} {u : List UInt8}
    (hf : Settles (f ()) u) : Settles (advance >>= f) (b :: u) :=
  settles_step (fun _ _ => rfl) hf

namespace Number

theorem settles_digits {f : List UInt8 → Reader α} {ds u : List UInt8} (hds : IsDigits ds)
    (hu : ∀ rest, Follows rest → (u ++ rest).head?.any isDigit = false) (hf : Settles (f ds) u) :
    Settles (digits >>= f) (ds ++ u) := by
  refine settles_step (fun rest hrest => ?_) hf
  rw [List.append_assoc]
  exact digits_append hds.2 (hu rest hrest)

theorem settles_rounded (minus : Bool) (significand : Nat) (e : Int) :
    Settles (rounded minus significand e) [] := by
  unfold rounded
  split
  · exact settles_fail _
  · exact settles_pure _

/-- The digits of an exponent, behind its sign. -/
def unsignedExponent (minus : Bool) (significand : Nat) (start : Int) (down : Prop)
    [Decidable down] : Reader Number := do
  match ← peek with
  | none => fail .eofInValue
  | some d =>
    if isDigit d then
      let ds ← digits
      match exponentDigits 0 ds with
      | (n, none) => rounded minus significand (if down then start - n else start + n)
      | (_, some rest) =>
        if significand ≠ 0 ∧ ¬ down then
          failBefore rest.length .numberOutOfRange
        else pure (.fraction minus .zero)
    else
      advance
      fail .invalidNumber

theorem settles_unsignedExponent {ds : List UInt8} (minus : Bool) (significand : Nat)
    (start : Int) (down : Prop) [Decidable down] (hds : IsDigits ds) :
    Settles (unsignedExponent minus significand start down) ds := by
  obtain ⟨d, ds', hd⟩ := List.exists_cons_of_ne_nil hds.1
  have hdigit : isDigit d = true := hds.2 d (hd ▸ .head _)
  rw [hd]
  refine settles_peek ?_
  dsimp only
  rw [if_pos hdigit, ← hd, ← List.append_nil ds]
  refine settles_digits hds (fun rest hrest => hrest.1) ?_
  split
  · exact settles_rounded _ _ _
  · exact settles_ite (settles_failBefore _ _) (settles_pure _)

theorem settles_exponent {e : UInt8} {sign ds : List UInt8} (minus : Bool) (significand : Nat)
    (start : Int) (hsign : sign = [] ∨ sign = [plus] ∨ sign = [Ascii.minus]) (hds : IsDigits ds) :
    Settles (exponent minus significand start) (e :: (sign ++ ds)) := by
  refine settles_advance ?_
  rcases hsign with rfl | rfl | rfl
  · obtain ⟨d, ds', rfl⟩ := List.exists_cons_of_ne_nil hds.1
    have hdigit : isDigit d = true := hds.2 d (.head _)
    have hnot : ¬ (some d = some plus ∨ some d = some Ascii.minus) := by
      rintro (h | h)
      all_goals
        cases h
        cases hdigit
    refine settles_peek ?_
    rw [if_neg hnot]
    exact settles_unsignedExponent _ _ _ _ hds
  · refine settles_peek ?_
    rw [if_pos (.inl rfl)]
    exact settles_advance (settles_unsignedExponent _ _ _ _ hds)
  · refine settles_peek ?_
    rw [if_pos (.inr rfl)]
    exact settles_advance (settles_unsignedExponent _ _ _ _ hds)

theorem isExponent_of_letter {e : UInt8} (he : e = 0x65 ∨ e = 0x45) :
    isExponent (some e) = true := by
  rcases he with rfl | rfl
  all_goals rfl

/-- What is left of a number behind its fraction. -/
theorem settles_exponent_optional {t : List UInt8} (ht : IsExponent t) (minus : Bool)
    (significand : Nat) (start : Int) : Settles (do
      if isExponent (← peek) then exponent minus significand start
      else rounded minus significand start) t := by
  rcases ht with rfl | ⟨e, sign, ds, he, hsign, hds, rfl⟩
  · obtain ⟨outcome, h⟩ := settles_rounded minus significand start
    refine ⟨outcome, fun rest hrest => ?_⟩
    have hpeek : peek rest = .ok (rest.head?, rest) := rfl
    rw [List.nil_append, bind_of_ok hpeek, hrest.2.2]
    exact h rest hrest
  · refine settles_peek ?_
    rw [isExponent_of_letter he]
    exact settles_exponent minus significand start hsign hds

theorem settles_decimals {ds t : List UInt8} (minus : Bool) (significand dropped : Nat)
    (hds : IsDigits ds) (ht : IsExponent t) :
    Settles (decimals minus significand dropped) (point :: (ds ++ t)) := by
  refine settles_advance (settles_digits hds (fun rest hrest => ?_) ?_)
  · exact (Skip.exponent_starts ht hrest).1
  · rw [if_neg hds.1]
    exact settles_exponent_optional ht _ _ _

/-- What is left of a number behind its whole digits. -/
theorem settles_fraction_optional {fraction t : List UInt8} (hfraction : IsFraction fraction)
    (ht : IsExponent t) (minus : Bool) (d : UInt8) (n : Nat) (unused : List UInt8) : Settles (do
      let next ← peek
      if d = zero ∧ next.any isDigit then failNext .invalidNumber
      else if next = some point then decimals minus n unused.length
      else if isExponent next then exponent minus n unused.length
      else if unused = [] then pure (whole minus n)
      else rounded minus n unused.length : Reader Number) (fraction ++ t) := by
  rcases hfraction with rfl | ⟨ds, hds, rfl⟩
  · rcases ht with rfl | ⟨e, sign, ds, he, hsign, hds, rfl⟩
    · have hend : Settles (if unused = [] then pure (whole minus n)
          else rounded minus n unused.length : Reader Number) [] :=
        settles_ite (settles_pure _) (settles_rounded _ _ _)
      obtain ⟨outcome, h⟩ := hend
      refine ⟨outcome, fun rest hrest => ?_⟩
      have hpeek : peek rest = .ok (rest.head?, rest) := rfl
      rw [List.nil_append, List.nil_append, bind_of_ok hpeek, hrest.1, hrest.2.2,
        if_neg (by simp), if_neg hrest.2.1, if_neg (by simp)]
      exact h rest hrest
    · have hexponent := isExponent_of_letter he
      refine settles_peek ?_
      rw [hexponent, if_neg, if_neg, if_pos rfl]
      · exact settles_exponent minus n _ hsign hds
      · rcases he with rfl | rfl
        all_goals decide
      · rcases he with rfl | rfl
        all_goals exact fun h => by cases h.2
  · have hnot : ¬ (d = zero ∧ (some point).any isDigit = true) := by
      rintro ⟨_, h⟩
      cases h
    refine settles_peek ?_
    rw [if_neg hnot, if_pos rfl]
    exact settles_decimals minus n _ hds ht

theorem integerDigits_whole {ds s : List UInt8} (hds : IsWhole ds)
    (hs : s.head?.any isDigit = false) : integerDigits (ds ++ s) = .ok (ds, s) := by
  rcases hds with rfl | ⟨hdigits, hzero⟩
  · rfl
  · have hhead : ¬ (ds ++ s).head? = some zero := by
      obtain ⟨d, ds, rfl⟩ := List.exists_cons_of_ne_nil hdigits.1
      exact hzero
    obtain ⟨htake, hdrop⟩ := span_digits hdigits.2 hs
    rw [integerDigits, if_neg hhead, htake, hdrop]

theorem settles_body {ds fraction t : List UInt8} (minus : Bool) (hds : IsWhole ds)
    (hfraction : IsFraction fraction) (ht : IsExponent t) :
    Settles (body minus) (ds ++ (fraction ++ t)) := by
  obtain ⟨d, ds', hd, hdigit⟩ := Skip.whole_cons hds
  have htail := settles_fraction_optional hfraction ht minus d (accumulate 0 ds).1
    (accumulate 0 ds).2
  have hread : Settles (integerDigits >>= fun ds => do
      let next ← peek
      if d = zero ∧ next.any isDigit then failNext .invalidNumber
      else if next = some point then decimals minus (accumulate 0 ds).1 (accumulate 0 ds).2.length
      else if isExponent next then exponent minus (accumulate 0 ds).1 (accumulate 0 ds).2.length
      else if (accumulate 0 ds).2 = [] then pure (whole minus (accumulate 0 ds).1)
      else rounded minus (accumulate 0 ds).1 (accumulate 0 ds).2.length : Reader Number)
      (ds ++ (fraction ++ t)) := by
    refine settles_step (fun rest hrest => ?_) htail
    rw [List.append_assoc, List.append_assoc]
    exact integerDigits_whole hds (Skip.fraction_starts hfraction ht hrest)
  rw [hd] at hread ⊢
  refine settles_peek ?_
  dsimp only
  rw [if_pos hdigit]
  exact hread

theorem settles_read {t : List UInt8} (h : IsNumber t) : Settles read t := by
  obtain @⟨sign, ds, fraction, exponent, hsign, hds, hfraction, hexponent⟩ := h
  rcases hsign with rfl | rfl
  · obtain ⟨d, ds', hd, hdigit⟩ := Skip.whole_cons hds
    have hbody := settles_body false hds hfraction hexponent
    have hne : ¬ some d = some Ascii.minus :=
      fun h => ne_minus_of_isDigit hdigit (Option.some.inj h)
    rw [hd] at hbody ⊢
    refine settles_peek ?_
    rw [if_neg hne]
    exact hbody
  · change Settles read (Ascii.minus :: (ds ++ (fraction ++ exponent)))
    refine settles_peek ?_
    rw [if_pos rfl]
    exact settles_advance (settles_body true hds hfraction hexponent)

end Number

theorem settles_word {w : String} {b : UInt8} {u : List UInt8} (hw : ascii w = b :: u)
    (hu : ascii (String.ofList (w.toList.drop 1)) = u) : Settles (word w) (ascii w) :=
  ⟨.ok (), fun rest _ => word_ok hw hu rest⟩

/-- A fault that is reported before anything is read. -/
theorem settles_fail_first (cause : Cause) (v : List UInt8) :
    Settles (fail cause : Reader α) v := by
  refine ⟨.error ⟨cause, v.length⟩, fun rest _ => ?_⟩
  rw [followed, ← List.length_append]
  rfl

theorem IsNumber.starts {b : UInt8} {u : List UInt8} (h : IsNumber (b :: u)) :
    b = minus ∨ isDigit b = true := by
  obtain ⟨c, s, hc, hkind⟩ := Skip.number_cons h
  cases hc
  exact hkind

/-- Whatever a value is that is not the one expected, it is refused for itself. -/
theorem settles_refuse {b : UInt8} {u : List UInt8} (h : IsValue (b :: u)) (expected : String) :
    Settles (refuse expected b : Reader α) (b :: u) := by
  generalize hv : b :: u = v at h
  cases h with
  | null =>
    cases hv
    exact settles_bind (settles_word (w := "null") rfl rfl) fun _ => settles_fail _
  | bool c =>
    cases c with
    | true =>
      cases hv
      exact settles_bind (settles_word (w := "true") rfl rfl) fun _ => settles_fail _
    | false =>
      cases hv
      exact settles_bind (settles_word (w := "false") rfl rfl) fun _ => settles_fail _
  | number h =>
    cases hv
    have hkind := h.starts
    have hne : ∀ c : UInt8, isDigit c = false → c ≠ minus → b ≠ c := fun c => Skip.ne_of_numeric hkind
    rw [refuse, if_neg (hne _ rfl (by decide)), if_neg (hne _ rfl (by decide)),
      if_neg (hne _ rfl (by decide)), if_neg (hne _ rfl (by decide)),
      if_neg (hne _ rfl (by decide)), if_neg (hne _ rfl (by decide)), if_pos hkind]
    exact settles_bind (Number.settles_read h) fun _ => settles_fail _
  | string h =>
    cases hv
    exact settles_bind (Text.settles_read h) fun _ => settles_fail _
  | array =>
    cases hv
    exact settles_fail_first _ _
  | object =>
    cases hv
    exact settles_fail_first _ _

theorem IsValue.quoted {u : List UInt8} (h : IsValue (Ascii.quote :: u)) :
    ∃ t, IsChars t ∧ u = t ++ [Ascii.quote] := by
  generalize hv : Ascii.quote :: u = v at h
  cases h with
  | string ht =>
    cases hv
    exact ⟨_, ht, rfl⟩
  | number hn =>
    subst hv
    rcases hn.starts with h | h
    all_goals exact absurd h (by decide)
  | bool c =>
    cases c
    all_goals exact absurd (List.cons.inj hv).1 (by decide)
  | null | array | object => exact absurd (List.cons.inj hv).1 (by decide)

theorem IsValue.numeric {b : UInt8} {u : List UInt8} (h : IsValue (b :: u))
    (hb : b = minus ∨ isDigit b = true) : IsNumber (b :: u) := by
  have hne : ∀ c : UInt8, isDigit c = false → c ≠ minus → b ≠ c := fun c => Skip.ne_of_numeric hb
  generalize hv : b :: u = v at h
  cases h with
  | number hn => exact hn
  | bool c =>
    cases c
    all_goals exact absurd (List.cons.inj hv).1 (hne _ (by decide) (by decide))
  | null | string | array | object =>
    exact absurd (List.cons.inj hv).1 (hne _ (by decide) (by decide))

theorem settles_value {expected : String} {read : UInt8 → Option (Reader α)} {v : List UInt8}
    (hv : IsValue v) (hread : ∀ b u r, v = b :: u → read b = some r → Settles r (b :: u)) :
    Settles (value expected read) v := by
  obtain ⟨b, u, rfl, hspace, _⟩ := hv.starts
  have hpeek : ∀ rest, Follows rest →
      peekToken (b :: u ++ rest) = .ok (some b, b :: u ++ rest) :=
    fun rest _ => peekToken_cons hspace
  refine settles_step hpeek ?_
  dsimp only
  cases hr : read b with
  | none => exact settles_refuse hv expected
  | some r => exact hread b u r rfl hr

namespace Reader

theorem settles_string {v : List UInt8} (hv : IsValue v) : Settles string v :=
  settles_value hv fun b u r hu hr => by
    split at hr
    · rename_i hquote
      cases hr
      subst hu hquote
      obtain ⟨t, ht, rfl⟩ := hv.quoted
      exact Text.settles_read ht
    · cases hr

theorem settles_integer (expected : String) (narrow : Int → Option α) {v : List UInt8}
    (hv : IsValue v) : Settles (integer expected narrow) v :=
  settles_value hv fun b u r hu hr => by
    split at hr
    · rename_i hkind
      cases hr
      subst hu
      refine settles_bind (Number.settles_read (hv.numeric hkind)) fun n => ?_
      cases n with
      | fraction minus x => exact settles_fail _
      | natural k | negative k =>
        dsimp only
        split
        · exact settles_pure _
        · exact settles_fail _
    · cases hr

end Reader

end AdminPlane.Json
