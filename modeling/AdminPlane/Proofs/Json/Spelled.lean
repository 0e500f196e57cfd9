import AdminPlane.Proofs.Json.Taken
import AdminPlane.Proofs.Text.Scan

namespace AdminPlane.Json

open AdminPlane.Text AdminPlane.Text.Ascii

/-- What stands between the quotes of a string, with the bytes that it denotes. Bytes that stand for
themselves need not make up characters. -/
inductive Renders : List UInt8 → List UInt8 → Prop
  | nil : Renders [] []
  | plain {b : UInt8} {raw found : List UInt8} (hb : IsPlain b) (h : Renders raw found) :
      Renders (b :: raw) (b :: found)
  | escape {piece raw found : List UInt8} {c : Char} (hc : Denotes piece c)
      (h : Renders raw found) : Renders (piece ++ raw) (String.utf8EncodeChar c ++ found)

/-- The first byte of a character tells it from all that are behind a first one. -/
theorem utf8EncodeChar_cons (c : Char) : ∃ b u, String.utf8EncodeChar c = b :: u ∧
    Utf8.isTail b = false ∧ ∀ d ∈ u, Utf8.isTail d = true := by
  have hfirst {n : Nat} (hn : n < 256) (h : n < 0x80 ∨ 0xBF < n) :
      Utf8.isTail (UInt8.ofNat n) = false := by
    rw [Bool.eq_false_iff]
    intro htail
    have hrange := Utf8.isTail_range htail
    rw [Utf8.toNat_ofNat hn] at hrange
    omega
  rw [Utf8.utf8EncodeChar_eq]
  split
  · exact ⟨_, _, rfl, hfirst (by omega) (.inl (by omega)), nofun⟩
  · split
    · exact ⟨_, _, rfl, hfirst (by omega) (.inr (by omega)), by simp [Utf8.isTail_tail]⟩
    · split
      · exact ⟨_, _, rfl, hfirst (by omega) (.inr (by omega)), by simp [Utf8.isTail_tail]⟩
      · have hc : c.toNat < 0x110000 := by
          have hvalid : c.toNat < 0xD800 ∨ 0xDFFF < c.toNat ∧ c.toNat < 0x110000 := c.valid
          omega
        exact ⟨_, _, rfl, hfirst (by omega) (.inr (by omega)), by simp [Utf8.isTail_tail]⟩

theorem renders_tails {u raw found : List UInt8} (hu : ∀ d ∈ u, Utf8.isTail d = true)
    (h : Renders raw (u ++ found)) : ∃ raw', raw = u ++ raw' ∧ Renders raw' found := by
  induction u generalizing raw with
  | nil => exact ⟨raw, rfl, h⟩
  | cons d u ih =>
    generalize htext : d :: u ++ found = text at h
    cases h with
    | nil => cases htext
    | @plain b raw found' hb hrest =>
      rw [List.cons_append, List.cons.injEq] at htext
      obtain ⟨rfl, rfl⟩ := htext
      obtain ⟨raw', rfl, hraw'⟩ := ih (fun e he => hu e (.tail _ he)) hrest
      exact ⟨raw', rfl, hraw'⟩
    | @escape piece raw found' c hc hrest =>
      obtain ⟨b, v, hv, hb, _⟩ := utf8EncodeChar_cons c
      rw [hv, List.cons_append, List.cons_append, List.cons.injEq] at htext
      rw [← htext.1, hu d (.head _)] at hb
      cases hb

theorem denotes_plain {c : Char} {b : UInt8} {u : List UInt8}
    (h : String.utf8EncodeChar c = b :: u) (hb : IsPlain b) :
    Denotes (String.utf8EncodeChar c) c := by
  refine .plain ?_ ?_ fun hcontrol => ?_
  · rintro rfl
    cases h
    exact hb.1 rfl
  · rintro rfl
    cases h
    exact hb.2.1 rfl
  · rw [Utf8.utf8EncodeChar_eq, if_pos (by omega)] at h
    cases h
    refine hb.2.2 (UInt8.lt_iff_toNat_lt.mpr ?_)
    rw [Utf8.toNat_ofNat (by omega)]
    exact hcontrol

/-- Where the bytes make up characters, each character has a piece of its own: no escape begins or
ends inside one. -/
theorem renders_chars {cs : List Char} {raw : List UInt8}
    (h : Renders raw (cs.flatMap String.utf8EncodeChar)) :
    ∃ pieces, List.Forall₂ Denotes pieces cs ∧ raw = pieces.flatten := by
  induction cs generalizing raw with
  | nil =>
    generalize htext : ([] : List Char).flatMap String.utf8EncodeChar = text at h
    cases h with
    | nil => exact ⟨[], .nil, rfl⟩
    | plain => cases htext
    | @escape piece raw found c =>
      obtain ⟨b, u, hu, _⟩ := utf8EncodeChar_cons c
      rw [hu] at htext
      cases htext
  | cons c cs ih =>
    generalize htext : (c :: cs).flatMap String.utf8EncodeChar = text at h
    rw [List.flatMap_cons] at htext
    obtain ⟨b, u, hu, _, htails⟩ := utf8EncodeChar_cons c
    cases h with
    | nil =>
      rw [hu] at htext
      cases htext
    | @plain d raw found hd hrest =>
      rw [hu, List.cons_append, List.cons.injEq] at htext
      obtain ⟨rfl, rfl⟩ := htext
      obtain ⟨raw', rfl, hraw'⟩ := renders_tails htails hrest
      obtain ⟨pieces, hpieces, rfl⟩ := ih hraw'
      refine ⟨String.utf8EncodeChar c :: pieces, .cons (denotes_plain hu hd) hpieces, ?_⟩
      rw [List.flatten_cons, hu, List.cons_append]
    | @escape piece raw found d hd hrest =>
      have hscan := congrArg Utf8.scan htext
      rw [Utf8.scan_utf8EncodeChar, Utf8.scan_utf8EncodeChar, List.cons.injEq] at hscan
      obtain rfl := Option.some.inj hscan.1
      obtain rfl := List.append_cancel_left htext
      obtain ⟨pieces, hpieces, rfl⟩ := ih hrest
      exact ⟨piece :: pieces, .cons hd hpieces, rfl⟩

namespace Text

theorem continueWith_taken {b : UInt8} {s t : List UInt8} (h : continueWith b s = .ok ((), t)) :
    s = b :: t := by
  rcases onByte_taken h with ⟨_, hend⟩ | ⟨c, s, rfl, hstep⟩
  · cases hend
  · dsimp only at hstep
    rw [bind_of_ok (advance_cons c s)] at hstep
    split at hstep
    · rename_i hc
      cases hstep
      rw [hc]
    · cases hstep

theorem unicodeEscape_taken {s t denoted : List UInt8}
    (h : unicodeEscape s = .ok (denoted, t)) : ∃ u c, Denotes (backslash :: lowerU :: u) c ∧
      denoted = String.utf8EncodeChar c ∧ s = u ++ t := by
  obtain ⟨n, v, hn, hrest⟩ := bind_eq_ok h
  obtain ⟨digits, hdigits, rfl⟩ := hex4_taken hn
  split at hrest
  · cases hrest
  · rename_i hlow
    split at hrest
    · rename_i hplain
      obtain ⟨rfl, rfl⟩ := Prod.mk.inj (pure_eq_ok hrest)
      exact ⟨digits, _, .unicode hdigits (by omega), rfl, rfl⟩
    · rename_i hhigh
      obtain ⟨_, v', hv', hrest'⟩ := bind_eq_ok hrest
      obtain ⟨_, v'', hv'', hrest''⟩ := bind_eq_ok hrest'
      obtain ⟨m, w, hm, hpair⟩ := bind_eq_ok hrest''
      obtain rfl := continueWith_taken hv'
      obtain rfl := continueWith_taken hv''
      obtain ⟨digits', hdigits', rfl⟩ := hex4_taken hm
      split at hpair
      · cases hpair
      · rename_i hsecond
        obtain ⟨rfl, rfl⟩ := Prod.mk.inj (pure_eq_ok hpair)
        refine ⟨_, _, .pair hdigits hdigits' (by omega) (by omega), rfl, ?_⟩
        simp only [List.append_assoc, List.cons_append]

theorem escape_taken {s t denoted : List UInt8} (h : escape s = .ok (denoted, t)) :
    ∃ u c, Denotes (backslash :: u) c ∧ denoted = String.utf8EncodeChar c ∧ s = u ++ t := by
  rcases onByte_taken h with ⟨_, hend⟩ | ⟨b, s, rfl, hstep⟩
  · cases hend
  · dsimp only at hstep
    rw [bind_of_ok (advance_cons b s)] at hstep
    split at hstep
    · rename_i hb
      obtain ⟨u, c, hc, hdenoted, rfl⟩ := unicodeEscape_taken hstep
      exact ⟨lowerU :: u, c, hc, hdenoted, by rw [hb, List.cons_append]⟩
    · cases hshort : shortEscape? b with
      | none =>
        rw [hshort] at hstep
        cases hstep
      | some d =>
        rw [hshort] at hstep
        cases hstep
        exact ⟨[b], _, .short hshort, (utf8EncodeChar_short hshort).2.symm, rfl⟩

theorem bytes_taken {fuel : Nat} {seen s t found : List UInt8}
    (h : bytes fuel seen s = .ok (found, t)) :
    ∃ raw tail, Renders raw tail ∧ found = seen.reverse ++ tail ∧ s = raw ++ Ascii.quote :: t := by
  induction fuel generalizing seen s with
  | zero => cases h
  | succ fuel ih =>
    rcases onByte_taken h with ⟨_, hend⟩ | ⟨b, s, rfl, hstep⟩
    · cases hend
    · dsimp only at hstep
      rw [bind_of_ok (advance_cons b s)] at hstep
      split at hstep
      · rename_i hquote
        cases hstep
        exact ⟨[], [], .nil, (List.append_nil _).symm, by rw [hquote, List.nil_append]⟩
      · rename_i hquote
        split at hstep
        · rename_i hbackslash
          obtain ⟨denoted, v, hv, hrest⟩ := bind_eq_ok hstep
          obtain ⟨u, c, hc, rfl, rfl⟩ := escape_taken hv
          obtain ⟨raw, tail, hraw, rfl, rfl⟩ := ih hrest
          refine ⟨_, _, .escape hc hraw, ?_, ?_⟩
          · rw [List.reverse_append, List.reverse_reverse, List.append_assoc]
          · rw [hbackslash, List.cons_append, List.cons_append, List.append_assoc]
        · rename_i hbackslash
          split at hstep
          · cases hstep
          · rename_i hcontrol
            obtain ⟨raw, tail, hraw, rfl, rfl⟩ := ih hstep
            refine ⟨_, _, .plain ⟨hquote, hbackslash, hcontrol⟩ hraw, ?_, rfl⟩
            rw [List.reverse_cons, List.append_assoc]
            rfl

/-- What is read as a string is a text of it. -/
theorem read_taken {s t : List UInt8} {m : String} (h : read (Ascii.quote :: s) = .ok (m, t)) :
    ∃ text, Spelt m text ∧ Ascii.quote :: s = text ++ t := by
  rw [read, bind_of_ok (advance_cons Ascii.quote s)] at h
  have hget : (get : Reader (List UInt8)) s = .ok (s, s) := rfl
  rw [bind_of_ok hget] at h
  obtain ⟨found, v, hfound, hrest⟩ := bind_eq_ok h
  obtain ⟨raw, tail, hraw, hdenoted, rfl⟩ := bytes_taken hfound
  cases hdecode : Utf8.decode? found with
  | none =>
    rw [hdecode] at hrest
    cases hrest
  | some w =>
    rw [hdecode] at hrest
    obtain ⟨rfl, rfl⟩ := Prod.mk.inj (pure_eq_ok hrest)
    have htail : tail = w.toList.flatMap String.utf8EncodeChar :=
      hdenoted.symm.trans (Utf8.encode_of_decode? hdecode)
    subst htail
    obtain ⟨pieces, hpieces, rfl⟩ := renders_chars hraw
    refine ⟨_, ⟨pieces, hpieces, rfl⟩, ?_⟩
    simp only [List.cons_append, List.append_assoc, List.nil_append]

end Text

theorem string_taken {s t : List UInt8} {m : String} (h : Reader.string s = .ok (m, t)) :
    ∃ w text, Blank w ∧ Spelt m text ∧ s = w ++ (text ++ t) := by
  obtain ⟨w, b, s, hw, _, rfl, hstep⟩ := onToken_taken (fails_failNext _) h
  dsimp only at hstep
  split at hstep
  · rename_i hb
    subst hb
    obtain ⟨text, htext, hs⟩ := Text.read_taken hstep
    exact ⟨w, text, hw, htext, by rw [hs]⟩
  · exact absurd hstep (fails_refuse _ _ _ _)

end AdminPlane.Json
