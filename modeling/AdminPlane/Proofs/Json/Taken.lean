import AdminPlane.Proofs.Json.Closed
import AdminPlane.Proofs.Json.Passing
import Mathlib.Data.List.TakeWhile

/-!
What a reader has taken when it succeeds: a text of the grammar, and nothing behind it. The other
direction is that of `Skip.any_value`.
-/

namespace AdminPlane.Json

open AdminPlane.Text AdminPlane.Text.Ascii

section Inversion

variable {f : Option UInt8 → Reader α} {s : List UInt8} {y : α × List UInt8}

theorem onByte_taken (h : (peek >>= f) s = .ok y) :
    (s = [] ∧ f none [] = .ok y) ∨ ∃ b u, s = b :: u ∧ f (some b) (b :: u) = .ok y := by
  cases s with
  | nil => exact .inl ⟨rfl, h⟩
  | cons b u => exact .inr ⟨b, u, rfl, h⟩

theorem onToken_taken (hend : Fails (f none)) (h : (peekToken >>= f) s = .ok y) :
    ∃ w b u, Blank w ∧ isSpace b = false ∧ s = w ++ b :: u ∧ f (some b) (b :: u) = .ok y := by
  have hsplit : s.takeWhile isSpace ++ s.dropWhile isSpace = s := List.takeWhile_append_dropWhile
  have hblank : Blank (s.takeWhile isSpace) := fun b hb => List.mem_takeWhile_imp hb
  change f (s.dropWhile isSpace).head? (s.dropWhile isSpace) = .ok y at h
  cases hd : s.dropWhile isSpace with
  | nil =>
    rw [hd] at h
    exact absurd h (hend [] y)
  | cons b u =>
    have hb : isSpace b = false := by
      have hhead := List.head?_dropWhile_not isSpace s
      rw [hd] at hhead
      simpa using hhead
    rw [hd] at h hsplit
    exact ⟨_, b, u, hblank, hb, hsplit.symm, h⟩

end Inversion

theorem pure_eq_ok {x : α} {s : List UInt8} {y : α × List UInt8}
    (h : (pure x : Reader α) s = .ok y) : (x, s) = y :=
  Except.ok.inj h

theorem discard_taken {r : Reader α} {s t : List UInt8} (h : discard r s = .ok ((), t)) :
    ∃ x, r s = .ok (x, t) := by
  obtain ⟨x, u, hx, hu⟩ := bind_eq_ok (f := fun _ => pure ()) h
  cases hu
  exact ⟨x, hx⟩

theorem literalRest_taken {w s t : List UInt8} (h : literalRest w s = .ok ((), t)) : s = w ++ t := by
  induction w generalizing s with
  | nil =>
    cases h
    rfl
  | cons c w ih =>
    rcases onByte_taken h with ⟨_, hend⟩ | ⟨b, u, rfl, hstep⟩
    · cases hend
    · dsimp only at hstep
      rw [bind_of_ok (advance_cons b u)] at hstep
      split at hstep
      · rename_i hb
        rw [hb, ih hstep, List.cons_append]
      · cases hstep

theorem word_taken {w : String} {b : UInt8} {u s t : List UInt8} (hw : ascii w = b :: u)
    (hu : ascii (String.ofList (w.toList.drop 1)) = u) (h : word w (b :: s) = .ok ((), t)) :
    b :: s = ascii w ++ t := by
  rw [word, bind_of_ok (advance_cons b s), hu] at h
  rw [hw, literalRest_taken h, List.cons_append]

namespace Text

theorem hex4_taken {s t : List UInt8} {n : Nat} (h : hex4 s = .ok (n, t)) :
    ∃ digits, hexValue? digits = some n ∧ s = digits ++ t := by
  unfold hex4 at h
  split at h
  · cases h
  · rename_i hlong
    split at h
    · cases h
    · rename_i ds hds
      cases h
      refine ⟨s.take 4, ?_, (List.take_append_drop 4 s).symm⟩
      have hlength : (s.take 4).length = 4 := by
        rw [List.length_take]
        omega
      rw [hexValue?, if_pos hlength, hds]
      rfl

end Text

namespace Number

theorem digits_taken {s t ds : List UInt8} (h : digits s = .ok (ds, t)) :
    (∀ d ∈ ds, isDigit d = true) ∧ s = ds ++ t := by
  cases h
  exact ⟨fun d hd => List.mem_takeWhile_imp hd, List.takeWhile_append_dropWhile.symm⟩

end Number

namespace Skip

/-- What an escape is behind its backslash. -/
theorem escape_taken {s t : List UInt8} (h : escape s = .ok ((), t)) :
    ∃ u, s = u ++ t ∧ ∀ v, IsChars v → IsChars (backslash :: (u ++ v)) := by
  rcases onByte_taken h with ⟨_, hend⟩ | ⟨b, s, rfl, hstep⟩
  · cases hend
  · dsimp only at hstep
    rw [bind_of_ok (advance_cons b s)] at hstep
    split at hstep
    · rename_i hb
      obtain ⟨n, hn⟩ := discard_taken hstep
      obtain ⟨digits, hdigits, rfl⟩ := Text.hex4_taken hn
      refine ⟨lowerU :: digits, by rw [hb, List.cons_append], fun v hv => ?_⟩
      exact .unicode (by rw [hdigits]; rfl) hv
    · split at hstep
      · rename_i hshort
        cases hstep
        exact ⟨[b], rfl, fun v hv => .short hshort hv⟩
      · cases hstep

theorem stringRest_taken {fuel : Nat} {s t : List UInt8} (h : stringRest fuel s = .ok ((), t)) :
    ∃ u, IsChars u ∧ s = u ++ Ascii.quote :: t := by
  induction fuel generalizing s with
  | zero => cases h
  | succ fuel ih =>
    rcases onByte_taken h with ⟨_, hend⟩ | ⟨b, s, rfl, hstep⟩
    · cases hend
    · dsimp only at hstep
      split at hstep
      · cases hstep
      · rename_i hcontrol
        rw [bind_of_ok (advance_cons b s)] at hstep
        split at hstep
        · rename_i hquote
          cases hstep
          exact ⟨[], .nil, by rw [hquote, List.nil_append]⟩
        · rename_i hquote
          split at hstep
          · rename_i hbackslash
            obtain ⟨_, v, hv, hrest⟩ := bind_eq_ok hstep
            obtain ⟨e, rfl, hescape⟩ := escape_taken hv
            obtain ⟨u, hu, rfl⟩ := ih hrest
            exact ⟨_, hescape u hu, by rw [hbackslash, List.cons_append, List.append_assoc]⟩
          · rename_i hbackslash
            obtain ⟨u, hu, rfl⟩ := ih hstep
            exact ⟨b :: u, .plain ⟨hquote, hbackslash, hcontrol⟩ hu, rfl⟩

theorem string_taken {s t : List UInt8} (h : string (Ascii.quote :: s) = .ok ((), t)) :
    ∃ u, IsChars u ∧ s = u ++ Ascii.quote :: t := by
  rw [string, bind_of_ok (advance_cons Ascii.quote s)] at h
  exact stringRest_taken h

theorem requireDigit_taken {s t : List UInt8} (h : requireDigit s = .ok ((), t)) :
    ∃ d, isDigit d = true ∧ s = d :: t := by
  rcases onByte_taken h with ⟨_, hend⟩ | ⟨b, s, rfl, hstep⟩
  · cases hend
  · rw [bind_of_ok (advance_cons b s)] at hstep
    split at hstep
    · rename_i hb
      cases hstep
      exact ⟨b, hb, rfl⟩
    · cases hstep

theorem requireDigits_taken {s t : List UInt8}
    (h : (requireDigit >>= fun _ => discard Number.digits) s = .ok ((), t)) :
    ∃ ds, IsDigits ds ∧ s = ds ++ t := by
  obtain ⟨_, u, hu, hrest⟩ := bind_eq_ok h
  obtain ⟨d, hd, rfl⟩ := requireDigit_taken hu
  obtain ⟨ds, hds⟩ := discard_taken hrest
  obtain ⟨hdigits, rfl⟩ := Number.digits_taken hds
  refine ⟨d :: ds, ⟨List.cons_ne_nil d ds, fun b hb => ?_⟩, rfl⟩
  rcases List.mem_cons.mp hb with rfl | hb
  · exact hd
  · exact hdigits b hb

theorem exponent_taken {e : UInt8} {s t : List UInt8} (h : exponent (e :: s) = .ok ((), t)) :
    ∃ sign ds, (sign = [] ∨ sign = [plus] ∨ sign = [minus]) ∧ IsDigits ds ∧
      s = sign ++ (ds ++ t) := by
  rw [exponent, bind_of_ok (advance_cons e s)] at h
  rcases onByte_taken h with ⟨_, hend⟩ | ⟨b, s, rfl, hstep⟩
  · cases hend
  · dsimp only at hstep
    split at hstep
    · rename_i hsign
      rw [bind_of_ok (advance_cons b s)] at hstep
      obtain ⟨ds, hds, rfl⟩ := requireDigits_taken hstep
      refine ⟨[b], ds, .inr ?_, hds, rfl⟩
      rcases hsign with hb | hb
      · exact .inl (by rw [Option.some.inj hb])
      · exact .inr (by rw [Option.some.inj hb])
    · obtain ⟨ds, hds, hs⟩ := requireDigits_taken hstep
      exact ⟨[], ds, .inl rfl, hds, hs⟩

theorem isExponent_some {e : UInt8} (h : Number.isExponent (some e) = true) :
    e = 0x65 ∨ e = 0x45 := by
  simpa [Number.isExponent] using h

theorem exponent_optional_taken {s t : List UInt8}
    (h : (do
      if Number.isExponent (← peek) then exponent : Reader Unit) s = .ok ((), t)) :
    ∃ u, IsExponent u ∧ s = u ++ t := by
  rcases onByte_taken h with ⟨rfl, hend⟩ | ⟨e, s, rfl, hstep⟩
  · cases hend
    exact ⟨[], .inl rfl, rfl⟩
  · split at hstep
    · rename_i he
      obtain ⟨sign, ds, hsign, hds, rfl⟩ := exponent_taken hstep
      exact ⟨_, .inr ⟨e, sign, ds, isExponent_some he, hsign, hds, rfl⟩, by
        rw [List.cons_append, List.append_assoc]⟩
    · cases hstep
      exact ⟨[], .inl rfl, rfl⟩

theorem decimals_taken {s t : List UInt8} (h : decimals (point :: s) = .ok ((), t)) :
    ∃ ds u, IsDigits ds ∧ IsExponent u ∧ s = ds ++ (u ++ t) := by
  rw [decimals, bind_of_ok (advance_cons point s)] at h
  obtain ⟨ds, v, hv, hrest⟩ := bind_eq_ok h
  obtain ⟨hdigits, rfl⟩ := Number.digits_taken hv
  split at hrest
  · cases hrest
  · rename_i hds
    obtain ⟨u, hu, rfl⟩ := exponent_optional_taken hrest
    exact ⟨ds, u, ⟨hds, hdigits⟩, hu, rfl⟩

theorem fraction_optional_taken {s t : List UInt8}
    (h : (do
      let next ← peek
      if next = some point then decimals
      else if Number.isExponent next then exponent : Reader Unit) s = .ok ((), t)) :
    ∃ fraction u, IsFraction fraction ∧ IsExponent u ∧ s = fraction ++ (u ++ t) := by
  have hwhole (h : (do
      if Number.isExponent (← peek) then exponent : Reader Unit) s = .ok ((), t)) :
      ∃ fraction u, IsFraction fraction ∧ IsExponent u ∧ s = fraction ++ (u ++ t) := by
    obtain ⟨u, hu, hs⟩ := exponent_optional_taken h
    exact ⟨[], u, .inl rfl, hu, hs⟩
  rcases onByte_taken h with ⟨rfl, hend⟩ | ⟨b, s, rfl, hstep⟩
  · exact hwhole h
  · split at hstep
    · rename_i hb
      rw [Option.some.inj hb] at hstep ⊢
      obtain ⟨ds, u, hds, hu, rfl⟩ := decimals_taken hstep
      exact ⟨point :: ds, u, .inr ⟨ds, hds, rfl⟩, hu, rfl⟩
    · exact hwhole hstep

theorem unsigned_taken {s t : List UInt8}
    (h : (do
      let first ← peek
      requireDigit
      if first = some zero then
        if (← peek).any isDigit then failNext .invalidNumber
      else discard Number.digits
      let next ← peek
      if next = some point then decimals
      else if Number.isExponent next then exponent : Reader Unit) s = .ok ((), t)) :
    ∃ whole fraction u, IsWhole whole ∧ IsFraction fraction ∧ IsExponent u ∧
      s = whole ++ (fraction ++ (u ++ t)) := by
  rcases onByte_taken h with ⟨rfl, hend⟩ | ⟨d, s, rfl, hstep⟩
  · cases hend
  · obtain ⟨_, v, hv, hrest⟩ := bind_eq_ok hstep
    obtain ⟨d', hd, heq⟩ := requireDigit_taken hv
    rw [List.cons.injEq] at heq
    obtain ⟨rfl, rfl⟩ := heq
    split at hrest
    · rename_i hzero
      obtain ⟨_, w, hw, hbehind⟩ := bind_eq_ok hrest
      have hw : w = s := by
        cases hw
        rfl
      subst hw
      split at hbehind
      · cases hbehind
      · obtain ⟨fraction, u, hfraction, hu, rfl⟩ := fraction_optional_taken hbehind
        exact ⟨[d], fraction, u, .inl (by rw [Option.some.inj hzero]), hfraction, hu, rfl⟩
    · rename_i hzero
      obtain ⟨_, w, hw, hbehind⟩ := bind_eq_ok hrest
      obtain ⟨ds, hds⟩ := discard_taken hw
      obtain ⟨hdigits, rfl⟩ := Number.digits_taken hds
      obtain ⟨fraction, u, hfraction, hu, rfl⟩ := fraction_optional_taken hbehind
      have hall : ∀ b ∈ d :: ds, isDigit b = true := by
        intro b hb
        rcases List.mem_cons.mp hb with rfl | hb
        · exact hd
        · exact hdigits b hb
      exact ⟨d :: ds, fraction, u, .inr ⟨⟨List.cons_ne_nil d ds, hall⟩, hzero⟩, hfraction, hu, rfl⟩

theorem number_taken {s t : List UInt8} (h : number s = .ok ((), t)) :
    ∃ v, IsNumber v ∧ s = v ++ t := by
  have hunsigned {s : List UInt8} {sign : List UInt8} (hsign : sign = [] ∨ sign = [minus])
      (h : ∃ whole fraction u, IsWhole whole ∧ IsFraction fraction ∧ IsExponent u ∧
        s = whole ++ (fraction ++ (u ++ t))) : ∃ v, IsNumber v ∧ sign ++ s = v ++ t := by
    obtain ⟨whole, fraction, u, hwhole, hfraction, hu, rfl⟩ := h
    exact ⟨_, .intro hsign hwhole hfraction hu, by simp only [List.append_assoc]⟩
  rcases onByte_taken h with ⟨rfl, hend⟩ | ⟨b, s, rfl, hstep⟩
  · cases hend
  · split at hstep
    · rename_i hb
      rw [bind_of_ok (advance_cons b s)] at hstep
      rw [Option.some.inj hb]
      exact hunsigned (.inr rfl) (unsigned_taken hstep)
    · exact hunsigned (.inl rfl) (unsigned_taken hstep)

theorem scalar_taken {b : UInt8} {s t : List UInt8} (h : scalar b (b :: s) = .ok ((), t)) :
    ∃ v, IsValue v ∧ b :: s = v ++ t := by
  unfold scalar at h
  split at h
  · rename_i hb
    subst hb
    exact ⟨_, .null, word_taken (w := "null") rfl rfl h⟩
  · split at h
    · rename_i hb
      subst hb
      exact ⟨_, .bool true, word_taken (w := "true") rfl rfl h⟩
    · split at h
      · rename_i hb
        subst hb
        exact ⟨_, .bool false, word_taken (w := "false") rfl rfl h⟩
      · split at h
        · rename_i hb
          subst hb
          obtain ⟨u, hu, rfl⟩ := string_taken h
          exact ⟨_, .string hu, by simp only [List.cons_append, List.append_assoc, List.nil_append]⟩
        · split at h
          · obtain ⟨v, hv, hs⟩ := number_taken h
            exact ⟨v, .number hv, hs⟩
          · cases h

theorem name_taken {s t : List UInt8} (h : name s = .ok ((), t)) :
    ∃ w key w', Blank w ∧ IsChars key ∧ Blank w' ∧
      s = w ++ (Ascii.quote :: (key ++ [Ascii.quote]) ++ (w' ++ colon :: t)) := by
  obtain ⟨w, b, s, hw, _, rfl, hstep⟩ := onToken_taken (fails_failNext _) h
  dsimp only at hstep
  split at hstep
  · cases hstep
  · rename_i hb
    obtain ⟨_, v, hv, hrest⟩ := bind_eq_ok hstep
    have hb : b = Ascii.quote := Decidable.not_not.mp hb
    subst hb
    obtain ⟨key, hkey, rfl⟩ := string_taken hv
    obtain ⟨w', c, u, hw', _, rfl, hcolon⟩ := onToken_taken (fails_failNext _) hrest
    dsimp only at hcolon
    split at hcolon
    · rename_i hc
      cases hcolon
      refine ⟨w, key, w', hw, hkey, hw', ?_⟩
      rw [hc]
      simp only [List.cons_append, List.append_assoc, List.nil_append, List.tail_cons]
    · cases hcolon

/-- An item, or a member with its name. -/
inductive Fits : Open → List UInt8 → Prop
  | item {v : List UInt8} (hv : IsValue v) : Fits .list v
  | member {key head v : List UInt8} (hkey : IsChars key)
      (hhead : Heads (Ascii.quote :: (key ++ [Ascii.quote])) head) (hv : IsValue v) :
      Fits .object (head ++ v)

theorem exists_members {pieces : List (List UInt8)} (h : ∀ p ∈ pieces, Fits .object p) :
    ∃ members : List (List UInt8 × List UInt8), pieces = members.map (fun m => m.1 ++ m.2) ∧
      ∀ m ∈ members, (∃ key, IsChars key ∧ Heads (Ascii.quote :: (key ++ [Ascii.quote])) m.1) ∧
        IsValue m.2 := by
  induction pieces with
  | nil => exact ⟨[], rfl, nofun⟩
  | cons piece pieces ih =>
    obtain ⟨members, rfl, hmembers⟩ := ih fun p hp => h p (.tail _ hp)
    cases h piece (.head _) with
    | @member key head v hkey hhead hv =>
      refine ⟨(head, v) :: members, rfl, fun m hm => ?_⟩
      rcases List.mem_cons.mp hm with rfl | hm
      · exact ⟨⟨key, hkey, hhead⟩, hv⟩
      · exact hmembers m hm

theorem isValue_laid {k : Open} {pieces : List (List UInt8)} {t : List UInt8}
    (h : ∀ p ∈ pieces, Fits k p) (ht : Laid pieces t) : IsValue (k.start :: (t ++ [k.close])) := by
  cases k with
  | list =>
    refine .array (fun p hp => ?_) ht
    cases h p hp with
    | item hv => exact hv
  | object =>
    obtain ⟨members, rfl, hmembers⟩ := exists_members h
    exact .object (fun m hm => (hmembers m hm).1) (fun m hm => (hmembers m hm).2) ht

/-- What stands inside a bracket up to its end, from its start on or behind one of its pieces. -/
def Filled (k : Open) (behindValue : Bool) (t : List UInt8) : Prop :=
  ∃ pieces, (∀ p ∈ pieces, Fits k p) ∧
    if behindValue = true then Behind pieces t else Laid pieces t

/-- What closes brackets, the innermost first. -/
def Closes : List Open → Bool → List UInt8 → Prop
  | [], _, t => t = []
  | k :: outer, behindValue, t =>
    ∃ inner u, Filled k behindValue inner ∧ Closes outer true u ∧ t = inner ++ k.close :: u

theorem filled_blank (k : Open) (behindValue : Bool) {w : List UInt8} (hw : Blank w) :
    Filled k behindValue w := by
  refine ⟨[], nofun, ?_⟩
  cases behindValue with
  | false => exact Laid.nil hw
  | true => exact Behind.nil hw

theorem filled_behind {k : Open} {w w' piece t : List UInt8} (hw : Blank w) (hw' : Blank w')
    (hpiece : Fits k piece) (ht : Filled k true t) :
    Filled k true (w ++ comma :: (w' ++ (piece ++ t))) := by
  obtain ⟨pieces, hpieces, ht⟩ := ht
  exact ⟨piece :: pieces, List.forall_mem_cons.mpr ⟨hpiece, hpieces⟩, Behind.cons hw hw' ht⟩

theorem filled_start {k : Open} {w piece t : List UInt8} (hw : Blank w) (hpiece : Fits k piece)
    (ht : Filled k true t) : Filled k false (w ++ (piece ++ t)) := by
  obtain ⟨pieces, hpieces, ht⟩ := ht
  exact ⟨piece :: pieces, List.forall_mem_cons.mpr ⟨hpiece, hpieces⟩, Laid.cons hw ht⟩

/-- What a walk from a value on has taken. -/
def ValueTaken (within : List Open) (s t : List UInt8) : Prop :=
  ∃ w v u, Blank w ∧ IsValue v ∧ Closes within true u ∧ s = w ++ (v ++ (u ++ t))

/-- A piece is a value, behind its name inside an object. -/
theorem piece_taken {k : Open} {outer : List Open} {fuel : Nat} {s t : List UInt8}
    (hvalue : ∀ s t, value (k :: outer) fuel s = .ok ((), t) → ValueTaken (k :: outer) s t)
    (h : (do
      if k = .object then name
      value (k :: outer) fuel : Reader Unit) s = .ok ((), t)) :
    ∃ w piece inner u, Blank w ∧ Fits k piece ∧ Filled k true inner ∧ Closes outer true u ∧
      s = w ++ (piece ++ (inner ++ k.close :: (u ++ t))) := by
  cases k with
  | list =>
    obtain ⟨w, v, u, hw, hv, ⟨inner, u', hinner, hu', rfl⟩, rfl⟩ := hvalue _ _ h
    refine ⟨w, v, inner, u', hw, .item hv, hinner, hu', ?_⟩
    simp only [List.append_assoc, List.cons_append]
  | object =>
    obtain ⟨_, s', hname, hrest⟩ := bind_eq_ok h
    obtain ⟨w, key, w', hw, hkey, hw', rfl⟩ := name_taken hname
    obtain ⟨w'', v, u, hw'', hv, ⟨inner, u', hinner, hu', rfl⟩, rfl⟩ := hvalue _ _ hrest
    refine ⟨w, _, inner, u', hw, .member hkey ⟨w', w'', hw', hw'', rfl⟩ hv, hinner, hu', ?_⟩
    simp only [List.append_assoc, List.cons_append]

/-- A walk goes through values and through what closes the brackets that it is in. -/
theorem walk_taken (fuel : Nat) :
    (∀ within s t, value within fuel s = .ok ((), t) → ValueTaken within s t) ∧
      ∀ within behindValue s t, rest within behindValue fuel s = .ok ((), t) →
        ∃ u, Closes within behindValue u ∧ s = u ++ t := by
  induction fuel with
  | zero =>
    refine ⟨fun within s t h => ?_, fun within behindValue s t h => ?_⟩
    · cases h
    · cases h
  | succ fuel ih =>
    obtain ⟨hvalue, hrest⟩ := ih
    refine ⟨fun within s t h => ?_, fun within behindValue s t h => ?_⟩
    · rw [value] at h
      obtain ⟨w, b, s, hw, _, rfl, hstep⟩ := onToken_taken (fails_failNext _) h
      have hopened (k : Open) (hb : b = k.start)
          (h : rest (k :: within) false fuel s = .ok ((), t)) : ValueTaken within (w ++ b :: s) t := by
        obtain ⟨_, ⟨inner, u, ⟨pieces, hpieces, hlaid⟩, hu, rfl⟩, rfl⟩ := hrest _ _ _ _ h
        refine ⟨w, _, u, hw, isValue_laid hpieces hlaid, hu, ?_⟩
        rw [hb]
        simp only [List.append_assoc, List.cons_append, List.nil_append]
      dsimp only at hstep
      split at hstep
      · rename_i hb
        exact hopened .list hb hstep
      · split at hstep
        · rename_i hb
          exact hopened .object hb hstep
        · obtain ⟨_, s', hscalar, hbehind⟩ := bind_eq_ok hstep
          obtain ⟨v, hv, hs⟩ := scalar_taken hscalar
          obtain ⟨u, hu, rfl⟩ := hrest _ _ _ _ hbehind
          exact ⟨w, v, u, hw, hv, hu, by rw [hs]⟩
    · rw [rest.eq_def] at h
      cases within with
      | nil =>
        cases h
        exact ⟨[], rfl, rfl⟩
      | cons k outer =>
        obtain ⟨w, b, s, hw, _, rfl, hstep⟩ := onToken_taken (fails_failNext _) h
        dsimp only at hstep
        split at hstep
        · rename_i hb
          obtain ⟨u, hu, rfl⟩ := hrest _ _ _ _ hstep
          refine ⟨_, ⟨w, u, filled_blank k behindValue hw, hu, rfl⟩, ?_⟩
          rw [hb]
          simp only [List.append_assoc, List.cons_append]
        · split at hstep
          · cases hstep
          · rename_i hcomma
            cases behindValue with
            | true =>
              have hb : b = comma := by simpa using hcomma
              rw [if_pos rfl, bind_of_ok (advance_cons b s)] at hstep
              obtain ⟨w', piece, inner, u, hw', hpiece, hinner, hu, rfl⟩ :=
                piece_taken (hvalue (k :: outer)) hstep
              refine ⟨_, ⟨_, u, filled_behind hw hw' hpiece hinner, hu, rfl⟩, ?_⟩
              rw [hb]
              simp only [List.append_assoc, List.cons_append]
            | false =>
              obtain ⟨w', piece, inner, u, hw', hpiece, hinner, hu, hs⟩ :=
                piece_taken (hvalue (k :: outer)) hstep
              have hblank : Blank (w ++ w') := fun c hc =>
                (List.mem_append.mp hc).elim (hw c) (hw' c)
              refine ⟨_, ⟨_, u, filled_start hblank hpiece hinner, hu, rfl⟩, ?_⟩
              rw [hs]
              simp only [List.append_assoc, List.cons_append]

/-- What is passed over is one value, behind spaces. -/
theorem any_taken {s t : List UInt8} (h : any s = .ok ((), t)) :
    ∃ w v, Blank w ∧ IsValue v ∧ s = w ++ (v ++ t) := by
  obtain ⟨w, v, u, hw, hv, rfl, rfl⟩ := (walk_taken _).1 [] _ _ h
  exact ⟨w, v, hw, hv, rfl⟩

end Skip

end AdminPlane.Json
