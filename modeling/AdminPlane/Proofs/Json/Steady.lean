import AdminPlane.Json.Shape

namespace AdminPlane.Json

open Text.Ascii

theorem bind_eq_ok {r : Reader α} {f : α → Reader β} {s t : List UInt8} {y : β}
    (h : (r >>= f) s = .ok (y, t)) : ∃ x u, r s = .ok (x, u) ∧ f x u = .ok (y, t) := by
  change (r s >>= fun p => f p.1 p.2) = .ok (y, t) at h
  cases hr : r s with
  | error e =>
    rw [hr] at h
    cases h
  | ok p =>
    rw [hr] at h
    exact ⟨p.1, p.2, rfl, h⟩

theorem bind_of_ok {r : Reader α} {f : α → Reader β} {s u : List UInt8} {x : α}
    (h : r s = .ok (x, u)) : (r >>= f) s = f x u := by
  change (r s >>= fun p => f p.1 p.2) = f x u
  rw [h]
  rfl

theorem map_of_ok {r : Reader α} (f : α → β) {s u : List UInt8} {x : α} (h : r s = .ok (x, u)) :
    (f <$> r) s = .ok (f x, u) :=
  bind_of_ok (f := fun x => pure (f x)) h

theorem peek_cons (b : UInt8) (s : List UInt8) : peek (b :: s) = .ok (some b, b :: s) := rfl

theorem advance_cons (b : UInt8) (s : List UInt8) : advance (b :: s) = .ok ((), s) := rfl

/-- A reader without an answer, whatever its text. -/
def Fails (r : Reader α) : Prop := ∀ s y, r s ≠ .ok y

theorem fails_fail (cause : Cause) : Fails (fail cause : Reader α) := by
  intro s y h
  cases h

theorem fails_failBefore (count : Nat) (cause : Cause) :
    Fails (failBefore count cause : Reader α) := by
  intro s y h
  cases h

theorem fails_failNext (cause : Cause) : Fails (failNext cause : Reader α) := by
  intro s y h
  cases h

theorem fails_bind {r : Reader α} {f : α → Reader β} (hf : ∀ x, Fails (f x)) :
    Fails (r >>= f) := by
  intro s y h
  obtain ⟨x, u, _, hx⟩ := bind_eq_ok (t := y.2) h
  exact hf x u y hx

theorem fails_ite {c : Prop} [Decidable c] {a b : Reader α} (ha : Fails a) (hb : Fails b) :
    Fails (if c then a else b) := by
  split
  · exact ha
  · exact hb

/-- A reader that stops before the end of its text has not looked past the place where it stops:
on a longer text it stops at the same place, with the same value. -/
def Steady (r : Reader α) : Prop :=
  ∀ s x t, r s = .ok (x, t) →
    t.length ≤ s.length ∧ (t ≠ [] → ∀ more, r (s ++ more) = .ok (x, t ++ more))

theorem steady_pure (x : α) : Steady (pure x : Reader α) := by
  intro s y t h
  cases h
  exact ⟨Nat.le_refl _, fun _ _ => rfl⟩

theorem steady_of_fails {r : Reader α} (h : Fails r) : Steady r :=
  fun s x t hr => absurd hr (h s (x, t))

theorem steady_fail (cause : Cause) : Steady (fail cause : Reader α) :=
  steady_of_fails (fails_fail cause)

theorem steady_failBefore (count : Nat) (cause : Cause) :
    Steady (failBefore count cause : Reader α) :=
  steady_of_fails (fails_failBefore count cause)

theorem steady_failNext (cause : Cause) : Steady (failNext cause : Reader α) :=
  steady_of_fails (fails_failNext cause)

theorem steady_bind {r : Reader α} {f : α → Reader β} (hr : Steady r) (hf : ∀ x, Steady (f x)) :
    Steady (r >>= f) := by
  intro s y t h
  obtain ⟨x, u, hx, hy⟩ := bind_eq_ok h
  obtain ⟨hu, hmore⟩ := hr s x u hx
  obtain ⟨ht, hmore'⟩ := hf x u y t hy
  refine ⟨Nat.le_trans ht hu, fun hne more => ?_⟩
  have hune : u ≠ [] := by
    intro he
    subst he
    exact hne (List.length_eq_zero_iff.mp (Nat.le_zero.mp ht))
  rw [bind_of_ok (hmore hune more)]
  exact hmore' hne more

/-- A first part that looks at the whole of the text. -/
theorem steady_get {r : List UInt8 → Reader α} {f : α → Reader β} (hr : Steady fun s => r s s)
    (hf : ∀ x, Steady (f x)) : Steady (get >>= fun s => r s >>= f) := by
  have h := steady_bind hr hf
  exact h

theorem steady_map {r : Reader α} (f : α → β) (hr : Steady r) : Steady (f <$> r) :=
  steady_bind hr fun x => steady_pure (f x)

theorem steady_ite {c : Prop} [Decidable c] {a b : Reader α} (ha : Steady a) (hb : Steady b) :
    Steady (if c then a else b) := by
  split
  · exact ha
  · exact hb

theorem steady_peek : Steady peek := by
  intro s x t h
  cases h
  refine ⟨Nat.le_refl _, fun hne more => ?_⟩
  cases s with
  | nil => contradiction
  | cons b s => rfl

theorem steady_advance : Steady advance := by
  intro s x t h
  cases h
  refine ⟨by simp, fun hne more => ?_⟩
  cases s with
  | nil => contradiction
  | cons b s => rfl

theorem length_dropWhile_le (p : α → Bool) (s : List α) : (s.dropWhile p).length ≤ s.length :=
  (List.dropWhile_suffix p).length_le

/-- What is left behind a run stays the same in a longer text, if it is anything at all. -/
theorem dropWhile_append {p : α → Bool} {s : List α} (h : s.dropWhile p ≠ []) (more : List α) :
    (s ++ more).dropWhile p = s.dropWhile p ++ more ∧
      (s ++ more).takeWhile p = s.takeWhile p := by
  induction s with
  | nil => simp at h
  | cons b s ih =>
    by_cases hb : p b
    · simp only [List.dropWhile_cons, List.takeWhile_cons, List.cons_append, hb, if_true] at h ⊢
      obtain ⟨hd, ht⟩ := ih h
      exact ⟨hd, by rw [ht]⟩
    · simp [hb]

theorem steady_skipSpaces : Steady skipSpaces := by
  intro s x t h
  cases h
  refine ⟨length_dropWhile_le _ s, fun hne more => ?_⟩
  rw [skipSpaces, (dropWhile_append hne more).1]

theorem steady_peekToken : Steady peekToken :=
  steady_bind steady_skipSpaces fun _ => steady_peek

/-- A reader that goes by the next byte has one thing to do at the end, and one for each byte. -/
theorem steady_onByte {f : Option UInt8 → Reader α} (hend : Steady (f none))
    (hbyte : ∀ b, Steady (f (some b))) : Steady (peek >>= f) := by
  refine steady_bind steady_peek fun b => ?_
  cases b with
  | none => exact hend
  | some b => exact hbyte b

theorem steady_onToken {f : Option UInt8 → Reader α} (hend : Steady (f none))
    (hbyte : ∀ b, Steady (f (some b))) : Steady (peekToken >>= f) := by
  refine steady_bind steady_peekToken fun b => ?_
  cases b with
  | none => exact hend
  | some b => exact hbyte b

theorem steady_digits : Steady Number.digits := by
  intro s x t h
  cases h
  refine ⟨length_dropWhile_le _ s, fun hne more => ?_⟩
  rw [Number.digits, (dropWhile_append hne more).1, (dropWhile_append hne more).2]

theorem steady_integerDigits : Steady Number.integerDigits := by
  intro s x t h
  unfold Number.integerDigits at h ⊢
  split at h
  · rename_i hz
    cases h
    refine ⟨by simp, fun hne more => ?_⟩
    cases s with
    | nil => contradiction
    | cons b s =>
      simp only [List.head?_cons, Option.some.injEq] at hz
      simp [hz]
  · rename_i hz
    cases h
    refine ⟨length_dropWhile_le _ s, fun hne more => ?_⟩
    have hz' : ¬ (s ++ more).head? = some zero := by
      cases s with
      | nil => simp at hne
      | cons b s => exact hz
    rw [if_neg hz', (dropWhile_append hne more).1, (dropWhile_append hne more).2]

theorem steady_hex4 : Steady Text.hex4 := by
  intro s x t h
  unfold Text.hex4 at h ⊢
  split at h
  · cases h
  · rename_i hl
    split at h
    · cases h
    · rename_i ds hds
      cases h
      refine ⟨by simp, fun hne more => ?_⟩
      have hle : 4 ≤ s.length := by omega
      rw [if_neg (by simp; omega), List.take_append_of_le_length hle,
        List.drop_append_of_le_length hle, hds]

/-- Every answer of the one reader is an answer of the other. -/
def Within (r r' : Reader α) : Prop := ∀ s y, r s = .ok y → r' s = .ok y

theorem within_refl (r : Reader α) : Within r r := fun _ _ h => h

theorem within_of_fails {r r' : Reader α} (h : Fails r) : Within r r' :=
  fun s y hr => absurd hr (h s y)

theorem within_bind {r : Reader α} {f f' : α → Reader β} (h : ∀ x, Within (f x) (f' x)) :
    Within (r >>= f) (r >>= f') := by
  intro s y hy
  obtain ⟨x, u, hx, hf⟩ := bind_eq_ok (t := y.2) hy
  rw [bind_of_ok hx]
  exact h x u y hf

theorem within_ite {c : Prop} [Decidable c] {a b a' b' : Reader α} (ha : Within a a')
    (hb : Within b b') : Within (if c then a else b) (if c then a' else b') := by
  split
  · exact ha
  · exact hb

theorem within_onByte {f f' : Option UInt8 → Reader α} (hend : Within (f none) (f' none))
    (hbyte : ∀ b, Within (f (some b)) (f' (some b))) : Within (peek >>= f) (peek >>= f') := by
  refine within_bind fun b => ?_
  cases b with
  | none => exact hend
  | some b => exact hbyte b

theorem within_onToken {f f' : Option UInt8 → Reader α} (hend : Within (f none) (f' none))
    (hbyte : ∀ b, Within (f (some b)) (f' (some b))) :
    Within (peekToken >>= f) (peekToken >>= f') := by
  refine within_bind fun b => ?_
  cases b with
  | none => exact hend
  | some b => exact hbyte b

theorem within_le {r : Nat → Reader α} (hmono : ∀ n, Within (r n) (r (n + 1))) {n m : Nat}
    (h : n ≤ m) : Within (r n) (r m) := by
  induction h with
  | refl => exact within_refl _
  | step _ ih => exact fun s y h => hmono _ s y (ih s y h)

/-- Fuel by the length of the text: a longer text brings more of it, which changes nothing once
the reader has come to an end. -/
theorem steady_fuel {r : Nat → Reader α} (k c : Nat) (hr : ∀ n, Steady (r n))
    (hmono : ∀ n, Within (r n) (r (n + 1))) : Steady fun s => r (k * s.length + c) s := by
  intro s x t h
  obtain ⟨ht, hmore⟩ := hr (k * s.length + c) s x t h
  refine ⟨ht, fun hne more => within_le hmono ?_ _ _ (hmore hne more)⟩
  simp [Nat.mul_add]

end AdminPlane.Json
