import AdminPlane.Proofs.Json.Skip
import AdminPlane.Proofs.Json.Strings

namespace AdminPlane.Json

open AdminPlane.Text AdminPlane.Text.Ascii

theorem blank_nil : Blank [] := fun _ hb => absurd hb List.not_mem_nil

theorem dropWhile_blank {w : List UInt8} (hw : Blank w) (s : List UInt8) :
    (w ++ s).dropWhile isSpace = s.dropWhile isSpace :=
  List.dropWhile_append_of_pos hw

/-- Spaces in front of a token make no difference. -/
theorem peekToken_blank {w : List UInt8} (hw : Blank w) (s : List UInt8) :
    peekToken (w ++ s) = peekToken s := by
  change Except.ok (((w ++ s).dropWhile isSpace).head?, (w ++ s).dropWhile isSpace) = _
  rw [dropWhile_blank hw]
  rfl

theorem onToken_blank {f : Option UInt8 → Reader α} {w : List UInt8} (hw : Blank w)
    (s : List UInt8) : (peekToken >>= f) (w ++ s) = (peekToken >>= f) s := by
  change (peekToken (w ++ s) >>= fun p => f p.1 p.2) = (peekToken s >>= fun p => f p.1 p.2)
  rw [peekToken_blank hw]

theorem follows_space {b : UInt8} (h : isSpace b = true) (rest : List UInt8) :
    Follows (b :: rest) := by
  simp only [isSpace, Bool.or_eq_true, decide_eq_true_eq] at h
  rcases h with ((rfl | rfl) | rfl) | rfl
  all_goals exact follows_cons (by decide) rest

theorem follows_blank {w rest : List UInt8} (hw : Blank w) (h : Follows rest) :
    Follows (w ++ rest) := by
  cases w with
  | nil => exact h
  | cons b w => exact follows_space (hw b (.head _)) _

theorem follows_behind {pieces : List (List UInt8)} {t rest : List UInt8}
    (ht : Behind pieces t) (h : Follows rest) : Follows (t ++ rest) := by
  cases ht with
  | nil hw => exact follows_blank hw h
  | cons hw hw' ht =>
    rw [List.append_assoc]
    exact follows_blank hw (follows_comma _)

namespace Number

theorem digits_append {ds rest : List UInt8} (hds : ∀ d ∈ ds, isDigit d = true)
    (hrest : rest.head?.any isDigit = false) : digits (ds ++ rest) = .ok (ds, rest) := by
  obtain ⟨htake, hdrop⟩ := span_digits hds hrest
  rw [digits, htake, hdrop]

end Number

namespace Skip

theorem escape_short {letter : UInt8} (h : (Text.shortEscape? letter).isSome = true)
    (s : List UInt8) : escape (letter :: s) = .ok ((), s) := by
  have hu : letter ≠ lowerU := by
    rintro rfl
    cases h
  rw [escape, bind_of_ok (peek_cons letter s)]
  dsimp only
  rw [bind_of_ok (advance_cons letter s), if_neg hu, if_pos h]
  rfl

theorem escape_unicode {digits : List UInt8} (h : (hexValue? digits).isSome = true)
    (s : List UInt8) : escape (lowerU :: (digits ++ s)) = .ok ((), s) := by
  obtain ⟨n, hn⟩ := Option.isSome_iff_exists.mp h
  rw [escape, bind_of_ok (peek_cons lowerU _)]
  dsimp only
  rw [bind_of_ok (advance_cons lowerU _), if_pos rfl]
  exact map_of_ok _ (Text.hex4_digits hn s)

/-- The characters of a string are passed over one by one, up to the quote behind them. -/
theorem stringRest_chars {t : List UInt8} (h : IsChars t) (s : List UInt8) :
    stringRest (t.length + 1) (t ++ Ascii.quote :: s) = .ok ((), s) := by
  have hquote : ¬ Ascii.quote < 0x20 := by decide
  induction h with
  | nil => rfl
  | @plain b t hb ht ih =>
    rw [List.length_cons, List.cons_append, stringRest, bind_of_ok (peek_cons b _)]
    dsimp only
    rw [if_neg hb.2.2, bind_of_ok (advance_cons b _), if_neg hb.1, if_neg hb.2.1, ih]
  | @short letter t h ht ih =>
    have hmore := within_stringRest _ _ _ ih
    rw [List.length_cons, List.length_cons, List.cons_append, List.cons_append, stringRest,
      bind_of_ok (peek_cons backslash _)]
    dsimp only
    rw [if_neg (by decide), bind_of_ok (advance_cons backslash _), if_neg (by decide), if_pos rfl,
      bind_of_ok (escape_short h _), hmore]
  | @unicode digits t h ht ih =>
    have hmore := within_le within_stringRest
      (show t.length + 1 ≤ (digits ++ t).length + 1 + 1 by
        rw [List.length_append]
        omega) _ _ ih
    rw [List.length_cons, List.length_cons, List.cons_append, List.cons_append, List.append_assoc,
      stringRest, bind_of_ok (peek_cons backslash _)]
    dsimp only
    rw [if_neg (by decide), bind_of_ok (advance_cons backslash _), if_neg (by decide), if_pos rfl,
      bind_of_ok (escape_unicode h _), hmore]

theorem string_chars {t : List UInt8} (h : IsChars t) (s : List UInt8) :
    string (Ascii.quote :: (t ++ Ascii.quote :: s)) = .ok ((), s) := by
  rw [string, bind_of_ok (advance_cons Ascii.quote _)]
  refine within_le within_stringRest ?_ _ _ (stringRest_chars h s)
  rw [List.length_append]
  omega

theorem requireDigit_cons {d : UInt8} (hd : isDigit d = true) (s : List UInt8) :
    requireDigit (d :: s) = .ok ((), s) := by
  rw [requireDigit, bind_of_ok (peek_cons d s), bind_of_ok (advance_cons d s)]
  exact congrFun (if_pos hd) s

/-- One digit is asked for, and all others are taken. -/
theorem requireDigits {ds rest : List UInt8} (hds : IsDigits ds)
    (hrest : rest.head?.any isDigit = false) :
    (requireDigit >>= fun _ => discard Number.digits) (ds ++ rest) = .ok ((), rest) := by
  obtain ⟨d, ds', rfl⟩ := List.exists_cons_of_ne_nil hds.1
  rw [List.cons_append, bind_of_ok (requireDigit_cons (hds.2 d (.head _)) _)]
  exact map_of_ok _ (Number.digits_append (fun b hb => hds.2 b (.tail _ hb)) hrest)

theorem exponent_digits {e : UInt8} {sign ds rest : List UInt8}
    (hsign : sign = [] ∨ sign = [plus] ∨ sign = [minus]) (hds : IsDigits ds)
    (hrest : rest.head?.any isDigit = false) :
    exponent (e :: (sign ++ (ds ++ rest))) = .ok ((), rest) := by
  rw [exponent, bind_of_ok (advance_cons e _)]
  have hall := requireDigits hds hrest
  rcases hsign with rfl | rfl | rfl
  · obtain ⟨d, ds', rfl⟩ := List.exists_cons_of_ne_nil hds.1
    have hd : isDigit d = true := hds.2 d (.head _)
    have hnot : ¬ (some d = some plus ∨ some d = some minus) := by
      rintro (h | h)
      all_goals
        cases h
        cases hd
    rw [List.nil_append, List.cons_append, bind_of_ok (peek_cons d _), if_neg hnot]
    exact hall
  · rw [List.singleton_append, bind_of_ok (peek_cons plus _), if_pos (.inl rfl),
      bind_of_ok (advance_cons plus _)]
    exact hall
  · rw [List.singleton_append, bind_of_ok (peek_cons minus _), if_pos (.inr rfl),
      bind_of_ok (advance_cons minus _)]
    exact hall

/-- What is left of a number behind its whole digits, or behind its fraction. -/
theorem exponent_optional {t rest : List UInt8} (ht : IsExponent t) (hrest : Follows rest) :
    (do
      if Number.isExponent (← peek) then exponent : Reader Unit) (t ++ rest) = .ok ((), rest) := by
  rcases ht with rfl | ⟨e, sign, ds, he, hsign, hds, rfl⟩
  · have hpeek : peek rest = .ok (rest.head?, rest) := rfl
    rw [List.nil_append, bind_of_ok hpeek, hrest.2.2]
    rfl
  · have hexponent : Number.isExponent (some e) = true := by
      rcases he with rfl | rfl
      all_goals rfl
    rw [List.cons_append, List.append_assoc, bind_of_ok (peek_cons e _), hexponent]
    exact exponent_digits hsign hds hrest.1

theorem exponent_starts {t rest : List UInt8} (ht : IsExponent t) (hrest : Follows rest) :
    (t ++ rest).head?.any isDigit = false ∧ (t ++ rest).head? ≠ some point := by
  rcases ht with rfl | ⟨e, sign, ds, he, _, _, rfl⟩
  · exact ⟨hrest.1, hrest.2.1⟩
  · rcases he with rfl | rfl
    all_goals exact ⟨rfl, fun h => by cases h⟩

theorem decimals_digits {ds t rest : List UInt8} (hds : IsDigits ds) (ht : IsExponent t)
    (hrest : Follows rest) : decimals (point :: (ds ++ (t ++ rest))) = .ok ((), rest) := by
  have hdigits := Number.digits_append hds.2 (exponent_starts ht hrest).1
  rw [decimals, bind_of_ok (advance_cons point _), bind_of_ok hdigits, if_neg hds.1]
  exact exponent_optional ht hrest

/-- What is left of a number behind its whole digits. -/
theorem fraction_optional {fraction t rest : List UInt8} (hfraction : IsFraction fraction)
    (ht : IsExponent t) (hrest : Follows rest) :
    (do
      let next ← peek
      if next = some point then decimals
      else if Number.isExponent next then exponent : Reader Unit) (fraction ++ (t ++ rest)) =
        .ok ((), rest) := by
  rcases hfraction with rfl | ⟨ds, hds, rfl⟩
  · have hpeek : peek (t ++ rest) = .ok ((t ++ rest).head?, t ++ rest) := rfl
    have hexponent := exponent_optional ht hrest
    rw [bind_of_ok hpeek] at hexponent
    rw [List.nil_append, bind_of_ok hpeek, if_neg (exponent_starts ht hrest).2]
    exact hexponent
  · rw [List.cons_append, bind_of_ok (peek_cons point _), if_pos rfl]
    exact decimals_digits hds ht hrest

theorem fraction_starts {fraction t rest : List UInt8} (hfraction : IsFraction fraction)
    (ht : IsExponent t) (hrest : Follows rest) :
    (fraction ++ (t ++ rest)).head?.any isDigit = false := by
  rcases hfraction with rfl | ⟨ds, _, rfl⟩
  · exact (exponent_starts ht hrest).1
  · rfl

theorem number_whole {whole fraction t rest : List UInt8} (hwhole : IsWhole whole)
    (hfraction : IsFraction fraction) (ht : IsExponent t) (hrest : Follows rest) :
    (do
      let first ← peek
      requireDigit
      if first = some zero then
        if (← peek).any isDigit then failNext .invalidNumber
      else discard Number.digits
      let next ← peek
      if next = some point then decimals
      else if Number.isExponent next then exponent : Reader Unit)
        (whole ++ (fraction ++ (t ++ rest))) = .ok ((), rest) := by
  have behind := fraction_optional hfraction ht hrest
  have hstart := fraction_starts hfraction ht hrest
  generalize fraction ++ (t ++ rest) = s at behind hstart
  have hpeek : peek s = .ok (s.head?, s) := rfl
  rcases hwhole with rfl | ⟨hds, hzero⟩
  · rw [List.singleton_append, bind_of_ok (peek_cons zero s),
      bind_of_ok (requireDigit_cons rfl s), if_pos rfl, bind_of_ok hpeek, if_neg (by simp [hstart])]
    exact behind
  · obtain ⟨d, ds, rfl⟩ := List.exists_cons_of_ne_nil hds.1
    have hdigits := Number.digits_append (fun b hb => hds.2 b (.tail _ hb)) hstart
    have hdiscard : discard Number.digits (ds ++ s) = .ok ((), s) := map_of_ok _ hdigits
    rw [List.cons_append, bind_of_ok (peek_cons d _),
      bind_of_ok (requireDigit_cons (hds.2 d (.head _)) _), if_neg (by simpa using hzero),
      bind_of_ok hdiscard]
    exact behind

theorem whole_cons {whole : List UInt8} (h : IsWhole whole) :
    ∃ d ds, whole = d :: ds ∧ isDigit d = true := by
  rcases h with rfl | ⟨hds, _⟩
  · exact ⟨zero, [], rfl, rfl⟩
  · obtain ⟨d, ds, rfl⟩ := List.exists_cons_of_ne_nil hds.1
    exact ⟨d, ds, rfl, hds.2 d (.head _)⟩

theorem number_passes {t rest : List UInt8} (h : IsNumber t) (hrest : Follows rest) :
    number (t ++ rest) = .ok ((), rest) := by
  obtain @⟨sign, whole, fraction, exponent, hsign, hwhole, hfraction, hexponent⟩ := h
  have hunsigned := number_whole hwhole hfraction hexponent hrest
  simp only [List.append_assoc]
  rcases hsign with rfl | rfl
  · obtain ⟨d, ds, hd, hdigit⟩ := whole_cons hwhole
    have hpeek := peek_cons d (ds ++ (fraction ++ (exponent ++ rest)))
    have hne : ¬ some d = some minus := fun h => Number.ne_minus_of_isDigit hdigit (Option.some.inj h)
    rw [hd] at hunsigned ⊢
    rw [List.nil_append, number, List.cons_append, bind_of_ok hpeek, if_neg hne]
    exact hunsigned
  · rw [number, List.singleton_append, bind_of_ok (peek_cons minus _), if_pos rfl,
      bind_of_ok (advance_cons minus _)]
    exact hunsigned

/-- The value is passed over, whatever is open around it. What follows it is met with the fuel that
is left. -/
def Passes (v : List UInt8) : Prop :=
  ∀ within fuel w s y, Blank w → Follows s → rest within true fuel s = .ok y →
    value within (fuel + 2 * v.length) (w ++ (v ++ s)) = .ok y

/-- An item, or a member with its name, is passed over inside its brackets. -/
def PassesIn (k : Open) (piece : List UInt8) : Prop :=
  ∀ outer fuel w s y, Blank w → Follows s → rest (k :: outer) true fuel s = .ok y →
    (do
      if k = .object then name
      value (k :: outer) (fuel + 2 * piece.length) : Reader Unit) (w ++ (piece ++ s)) = .ok y

theorem value_le {within : List Open} {n m : Nat} (h : n ≤ m) :
    Within (value within n) (value within m) :=
  within_le (r := value within) (fun n => (within_walk n).1 within) h

theorem rest_le {within : List Open} {behindValue : Bool} {n m : Nat} (h : n ≤ m) :
    Within (rest within behindValue n) (rest within behindValue m) :=
  within_le (r := rest within behindValue) (fun n => (within_walk n).2 within behindValue) h

theorem value_blank {within : List Open} {n : Nat} {w s : List UInt8} {y : Unit × List UInt8}
    (hw : Blank w) (h : value within n s = .ok y) : value within n (w ++ s) = .ok y := by
  cases n with
  | zero => cases h
  | succ n =>
    rw [value] at h ⊢
    rw [onToken_blank hw]
    exact h

theorem passes_scalar {b : UInt8} {v : List UInt8} (hb : isSpace b = false)
    (hlist : b ≠ openBracket) (hobject : b ≠ openBrace)
    (h : ∀ s, Follows s → scalar b (b :: (v ++ s)) = .ok ((), s)) : Passes (b :: v) := by
  intro within fuel w s y hw hs hrest
  have hstep : value within (fuel + 1) (b :: (v ++ s)) = .ok y := by
    rw [value, bind_of_ok (peekToken_cons hb)]
    dsimp only
    rw [if_neg hlist, if_neg hobject, bind_of_ok (h s hs)]
    exact hrest
  exact value_blank hw (value_le (by simp; omega) _ _ hstep)

theorem passes_null : Passes (ascii "null") :=
  passes_scalar (b := 0x6E) rfl (by decide) (by decide)
    fun s _ => word_ok (w := "null") (b := 0x6E) rfl rfl s

theorem passes_literal (b : Bool) : Passes (literal b) := by
  cases b with
  | true =>
    exact passes_scalar (b := 0x74) rfl (by decide) (by decide)
      fun s _ => word_ok (w := "true") (b := 0x74) rfl rfl s
  | false =>
    exact passes_scalar (b := 0x66) rfl (by decide) (by decide)
      fun s _ => word_ok (w := "false") (b := 0x66) rfl rfl s

theorem passes_string {t : List UInt8} (h : IsChars t) :
    Passes (Ascii.quote :: (t ++ [Ascii.quote])) := by
  refine passes_scalar (by decide) (by decide) (by decide) fun s _ => ?_
  rw [List.append_assoc]
  exact string_chars h s

/-- A number begins with its sign or a digit. -/
theorem number_cons {t : List UInt8} (h : IsNumber t) :
    ∃ b s, t = b :: s ∧ (b = minus ∨ isDigit b = true) := by
  obtain @⟨sign, whole, fraction, t', hsign, hwhole, _, _⟩ := h
  rcases hsign with rfl | rfl
  · obtain ⟨d, ds, rfl, hd⟩ := whole_cons hwhole
    exact ⟨d, _, rfl, .inr hd⟩
  · exact ⟨minus, _, rfl, .inl rfl⟩

theorem ne_of_numeric {b c : UInt8} (hb : b = minus ∨ isDigit b = true) (hdigit : isDigit c = false)
    (hminus : c ≠ minus) : b ≠ c := by
  rintro rfl
  rcases hb with hb | hb
  · exact hminus hb
  · rw [hdigit] at hb
    cases hb

theorem passes_number {t : List UInt8} (h : IsNumber t) : Passes t := by
  obtain ⟨b, v, rfl, hb⟩ := number_cons h
  have hne : ∀ c : UInt8, isDigit c = false → c ≠ minus → b ≠ c := fun c => ne_of_numeric hb
  have hspace : isSpace b = false := by
    rcases hb with rfl | hb
    · rfl
    · exact Number.isSpace_of_isDigit hb
  refine passes_scalar hspace (hne _ rfl (by decide)) (hne _ rfl (by decide)) fun s hs => ?_
  rw [scalar, if_neg (hne _ rfl (by decide)), if_neg (hne _ rfl (by decide)),
    if_neg (hne _ rfl (by decide)), if_neg (hne _ rfl (by decide)), if_pos hb]
  exact number_passes h hs

theorem passesIn_item {v : List UInt8} (h : Passes v) : PassesIn .list v :=
  fun outer fuel w s y hw hs hrest => h (.list :: outer) fuel w s y hw hs hrest

theorem name_heads {key head w : List UInt8} (hkey : IsChars key) (hw : Blank w)
    (h : Heads (Ascii.quote :: (key ++ [Ascii.quote])) head) (s : List UInt8) :
    ∃ w', Blank w' ∧ name (w ++ (head ++ s)) = .ok ((), w' ++ s) := by
  obtain ⟨w₁, w₂, hw₁, hw₂, rfl⟩ := h
  refine ⟨w₂, hw₂, ?_⟩
  rw [name, onToken_blank hw]
  simp only [List.cons_append, List.append_assoc, List.nil_append]
  have hquote : peekToken (Ascii.quote :: (key ++ Ascii.quote :: (w₁ ++ colon :: (w₂ ++ s)))) =
    .ok (some Ascii.quote, _) := peekToken_cons (by decide)
  have hcolon : peekToken (colon :: (w₂ ++ s)) = .ok (some colon, _) := peekToken_cons (by decide)
  rw [bind_of_ok hquote]
  dsimp only
  rw [if_neg (by simp), bind_of_ok (string_chars hkey _), onToken_blank hw₁, bind_of_ok hcolon]
  rfl

theorem passesIn_member {key head v : List UInt8} (hkey : IsChars key)
    (hhead : Heads (Ascii.quote :: (key ++ [Ascii.quote])) head) (hv : Passes v) :
    PassesIn .object (head ++ v) := by
  intro outer fuel w s y hw hs hrest
  obtain ⟨w', hw', hname⟩ := name_heads hkey hw hhead (v ++ s)
  have hlength : v.length ≤ (head ++ v).length := by simp
  have hvalue := value_le (m := fuel + 2 * (head ++ v).length) (by omega) _ _
    (hv (.object :: outer) fuel w' s y hw' hs hrest)
  rw [if_pos rfl, List.append_assoc, bind_of_ok hname]
  exact hvalue

theorem follows_close (k : Open) (s : List UInt8) : Follows (k.close :: s) := by
  cases k with
  | list => exact follows_closeBracket s
  | object => exact follows_closeBrace s

theorem isSpace_close (k : Open) : isSpace k.close = false := by
  cases k
  all_goals rfl

theorem rest_close {k : Open} {outer : List Open} {behindValue : Bool} {fuel : Nat}
    {w s : List UInt8} {y : Unit × List UInt8} (hw : Blank w)
    (h : rest outer true fuel s = .ok y) :
    rest (k :: outer) behindValue (fuel + 1) (w ++ k.close :: s) = .ok y := by
  rw [rest, onToken_blank hw, bind_of_ok (peekToken_cons (isSpace_close k))]
  dsimp only
  rw [if_pos rfl, bind_of_ok (advance_cons _ s)]
  exact h

/-- What stands behind a value inside its brackets, with the bracket that closes them. -/
theorem rest_behind {k : Open} {pieces : List (List UInt8)} {t : List UInt8}
    (ht : Behind pieces t) (hp : ∀ p ∈ pieces, PassesIn k p) {outer : List Open} {fuel : Nat}
    {s : List UInt8} {y : Unit × List UInt8} (h : rest outer true fuel s = .ok y) :
    rest (k :: outer) true (fuel + 2 * t.length + 1) (t ++ k.close :: s) = .ok y := by
  induction ht with
  | nil hw => exact rest_le (by omega) _ _ (rest_close hw h)
  | @cons w w' piece pieces t hw hw' ht ih =>
    have hbehind := ih fun p hp' => hp p (.tail _ hp')
    have hpiece := hp piece (.head _) outer _ w' _ y hw' (follows_behind ht (follows_close k s))
      hbehind
    have hcomma : comma ≠ k.close := by
      cases k
      all_goals decide
    have hmore : fuel + 2 * t.length + 1 + 2 * piece.length ≤
        fuel + 2 * (w ++ comma :: (w' ++ (piece ++ t))).length := by
      simp only [List.length_append, List.length_cons]
      omega
    simp only [List.append_assoc, List.cons_append]
    rw [rest, onToken_blank hw, bind_of_ok (peekToken_cons (by decide))]
    dsimp only
    rw [if_neg hcomma, if_neg (by simp), if_pos rfl, bind_of_ok (advance_cons comma _)]
    exact within_ite (within_bind fun _ => value_le hmore) (value_le hmore) _ _ hpiece

/-- What stands behind an opening bracket. -/
theorem rest_laid {k : Open} {pieces : List (List UInt8)} {t : List UInt8} (ht : Laid pieces t)
    (hp : ∀ p ∈ pieces, PassesIn k p)
    (hstart : ∀ p ∈ pieces, ∃ b u, p = b :: u ∧ isSpace b = false ∧ b ≠ k.close)
    {outer : List Open} {fuel : Nat} {s : List UInt8} {y : Unit × List UInt8}
    (h : rest outer true fuel s = .ok y) :
    rest (k :: outer) false (fuel + 2 * t.length + 2) (t ++ k.close :: s) = .ok y := by
  cases ht with
  | nil hw => exact rest_le (by omega) _ _ (rest_close hw h)
  | @cons w piece pieces t hw ht =>
    have hbehind := rest_behind ht (fun p hp' => hp p (.tail _ hp')) h
    have hpiece := hp piece (.head _) outer _ [] _ y blank_nil
      (follows_behind ht (follows_close k s)) hbehind
    obtain ⟨b, u, rfl, hspace, hclose⟩ := hstart piece (.head _)
    have hmore : fuel + 2 * t.length + 1 + 2 * (b :: u).length ≤
        fuel + 2 * (w ++ (b :: u ++ t)).length + 1 := by
      simp only [List.length_append]
      omega
    simp only [List.append_assoc, List.cons_append, List.nil_append] at hpiece ⊢
    rw [rest, onToken_blank hw, bind_of_ok (peekToken_cons hspace)]
    dsimp only
    rw [if_neg hclose, if_neg (by simp), if_neg (by simp)]
    exact within_ite (within_bind fun _ => value_le hmore) (value_le hmore) _ _ hpiece

/-- The bracket that opens what `close` closes. -/
def Open.start : Open → UInt8
  | list => openBracket
  | object => openBrace

theorem value_start (k : Open) (within : List Open) (fuel : Nat) (s : List UInt8) :
    value within (fuel + 1) (k.start :: s) = rest (k :: within) false fuel s := by
  cases k
  all_goals rfl

theorem passes_laid {k : Open} {pieces : List (List UInt8)} {t : List UInt8} (ht : Laid pieces t)
    (hp : ∀ p ∈ pieces, PassesIn k p)
    (hstart : ∀ p ∈ pieces, ∃ b u, p = b :: u ∧ isSpace b = false ∧ b ≠ k.close) :
    Passes (k.start :: (t ++ [k.close])) := by
  intro within fuel w s y hw _ hrest
  have hlaid := rest_laid ht hp hstart hrest
  rw [← value_start] at hlaid
  rw [List.cons_append, List.append_assoc, List.singleton_append]
  exact value_blank hw (value_le (by simp; omega) _ _ hlaid)

end Skip

/-- A value begins with a byte that neither a space nor the end of a list begins with. -/
theorem IsValue.starts {v : List UInt8} (h : IsValue v) :
    ∃ b u, v = b :: u ∧ isSpace b = false ∧ b ≠ closeBracket := by
  cases h with
  | null => exact ⟨_, _, rfl, by decide, by decide⟩
  | bool b =>
    cases b
    all_goals exact ⟨_, _, rfl, by decide, by decide⟩
  | number h =>
    obtain ⟨b, u, rfl, hb⟩ := Skip.number_cons h
    rcases hb with rfl | hb
    · exact ⟨_, _, rfl, by decide, by decide⟩
    · refine ⟨_, _, rfl, Number.isSpace_of_isDigit hb, ?_⟩
      rintro rfl
      cases hb
  | string | array | object => exact ⟨_, _, rfl, by decide, by decide⟩

namespace Skip

theorem passes_value {v : List UInt8} (h : IsValue v) : Passes v := by
  induction h with
  | null => exact passes_null
  | bool b => exact passes_literal b
  | number h => exact passes_number h
  | string h => exact passes_string h
  | @array items t hitems ht ih =>
    exact passes_laid (k := .list) ht (fun v hv => passesIn_item (ih v hv))
      fun v hv => (hitems v hv).starts
  | @object members t hheads hvalues ht ih =>
    refine passes_laid (k := .object) ht (fun p hp => ?_) fun p hp => ?_
    · obtain ⟨m, hm, rfl⟩ := List.mem_map.mp hp
      obtain ⟨key, hkey, hhead⟩ := hheads m hm
      exact passesIn_member hkey hhead (ih m hm)
    · obtain ⟨m, hm, rfl⟩ := List.mem_map.mp hp
      obtain ⟨key, _, w, w', _, _, hhead⟩ := hheads m hm
      exact ⟨Ascii.quote, _, by rw [hhead]; rfl, by decide, by decide⟩

/-- A value of any depth is passed over, up to its end and no further. -/
theorem any_value {v w s : List UInt8} (h : IsValue v) (hw : Blank w) (hs : Follows s) :
    any (w ++ (v ++ s)) = .ok ((), s) := by
  have hend : rest [] true 1 s = .ok ((), s) := rfl
  refine value_le ?_ _ _ (passes_value h [] 1 w s ((), s) hw hs hend)
  simp only [List.length_append]
  omega

end Skip

end AdminPlane.Json
