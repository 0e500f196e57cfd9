import AdminPlane.Proofs.Text.Scan

namespace AdminPlane.Text.Utf8

/-- The first bytes of some character, or all of them. -/
def Begins (p : List UInt8) : Prop := ∃ c, p <+: String.utf8EncodeChar c

/-- What is broken where no character stands: the bytes that begin one, as far as they do, or one
byte if it begins none. -/
inductive Broken : List UInt8 → List UInt8 → Prop
  | cut {start rest : List UInt8} (nonempty : start ≠ []) (begins : Begins start)
      (incomplete : ∀ c, start ≠ String.utf8EncodeChar c)
      (stops : ∀ b ∈ rest.head?, ¬ Begins (start ++ [b])) : Broken start rest
  | alien {b : UInt8} {rest : List UInt8} (alien : ¬ Begins [b]) : Broken [b] rest

theorem Begins.shorten {p q : List UInt8} (h : Begins (p ++ q)) : Begins p := by
  obtain ⟨c, hc⟩ := h
  exact ⟨c, (List.prefix_append p q).trans hc⟩

/-- What is scanned as broken, whatever stands behind it, begins no character. -/
theorem not_begins {p : List UInt8} (h : ∀ more, (scan (p ++ more)).head? = some none) :
    ¬ Begins p := by
  rintro ⟨c, more, hc⟩
  have hbroken := h more
  have hscan := scan_utf8EncodeChar c []
  rw [List.append_nil] at hscan
  rw [hc, hscan] at hbroken
  cases hbroken

theorem not_complete {p : List UInt8} (h : (scan p).head? = some none) (c : Char) :
    p ≠ String.utf8EncodeChar c := by
  rintro rfl
  have hscan := scan_utf8EncodeChar c []
  rw [List.append_nil] at hscan
  rw [hscan] at h
  cases h

theorem begins_two {a : UInt8} (ha : (0xC2 ≤ a && a ≤ 0xDF) = true) : Begins [a] := by
  have hb : isTail 0x80 = true := rfl
  exact ⟨_, [0x80], (encode_two ha hb).symm⟩

theorem begins_three {a b : UInt8} (ha : (0xE0 ≤ a && a ≤ 0xEF) = true)
    (hb : secondOfThree a b = true) : Begins [a, b] := by
  have hc : isTail 0x80 = true := rfl
  exact ⟨_, [0x80], (encode_three ha hb hc).symm⟩

theorem begins_four {a b c : UInt8} (ha : (0xF0 ≤ a && a ≤ 0xF4) = true)
    (hb : secondOfFour a b = true) (hc : isTail c = true) : Begins [a, b, c] := by
  have hd : isTail 0x80 = true := rfl
  exact ⟨_, [0x80], (encode_four ha hb hc hd).symm⟩

theorem exists_secondOfThree (a : UInt8) : ∃ b, secondOfThree a b = true := by
  by_cases hshort : a = 0xE0
  · exact ⟨0xA0, by rw [secondOfThree, if_pos hshort]; rfl⟩
  · refine ⟨0x80, ?_⟩
    rw [secondOfThree, if_neg hshort]
    split
    all_goals rfl

theorem exists_secondOfFour (a : UInt8) : ∃ b, secondOfFour a b = true := by
  by_cases hshort : a = 0xF0
  · exact ⟨0x90, by rw [secondOfFour, if_pos hshort]; rfl⟩
  · refine ⟨0x80, ?_⟩
    rw [secondOfFour, if_neg hshort]
    split
    all_goals rfl

/-- What is scanned as broken by itself and with the byte behind it is broken there. -/
theorem Broken.of_scan {start rest : List UInt8} (nonempty : start ≠ []) (begins : Begins start)
    (alone : (scan start).head? = some none)
    (followed : ∀ b ∈ rest.head?, ∀ more, (scan (start ++ b :: more)).head? = some none) :
    Broken start rest := by
  refine .cut nonempty begins (not_complete alone) fun b hb => not_begins fun more => ?_
  rw [List.append_assoc]
  exact followed b hb more

section Lead

variable {a : UInt8} (one : ¬ a < 0x80) {rest : List UInt8}
include one

theorem broken_two (two : (0xC2 ≤ a && a ≤ 0xDF) = true)
    (stops : ∀ b ∈ rest.head?, isTail b = false) : Broken [a] rest := by
  refine .of_scan (by simp) (begins_two two) ?_ fun b hb more => ?_
  · simp only [scan, if_neg one, if_pos two, List.head?_cons]
  · rw [List.singleton_append, scan.eq_def]
    simp only [if_neg one, if_pos two, stops b hb, Bool.false_eq_true, if_false, List.head?_cons]

section Three

variable (two : ¬ (0xC2 ≤ a && a ≤ 0xDF) = true) (three : (0xE0 ≤ a && a ≤ 0xEF) = true)
include two three

theorem broken_three_first (stops : ∀ b ∈ rest.head?, secondOfThree a b = false) :
    Broken [a] rest := by
  obtain ⟨b, hb⟩ := exists_secondOfThree a
  have hbegins : Begins ([a] ++ [b]) := begins_three three hb
  refine .of_scan (by simp) hbegins.shorten ?_ fun b hb more => ?_
  · simp only [scan, if_neg one, if_neg two, if_pos three, List.head?_cons]
  · rw [List.singleton_append, scan.eq_def]
    simp only [if_neg one, if_neg two, if_pos three, stops b hb, Bool.false_eq_true, if_false,
      List.head?_cons]

theorem broken_three_second {b : UInt8} (hb : secondOfThree a b = true)
    (stops : ∀ c ∈ rest.head?, isTail c = false) : Broken [a, b] rest := by
  refine .of_scan (by simp) (begins_three three hb) ?_ fun c hc more => ?_
  · simp only [scan, if_neg one, if_neg two, if_pos three, hb, if_true, List.head?_cons]
  · rw [List.cons_append, List.singleton_append, scan.eq_def]
    simp only [if_neg one, if_neg two, if_pos three, hb, if_true, stops c hc, Bool.false_eq_true,
      if_false, List.head?_cons]

end Three

section Four

variable (two : ¬ (0xC2 ≤ a && a ≤ 0xDF) = true) (three : ¬ (0xE0 ≤ a && a ≤ 0xEF) = true)
  (four : (0xF0 ≤ a && a ≤ 0xF4) = true)
include two three four

theorem broken_four_first (stops : ∀ b ∈ rest.head?, secondOfFour a b = false) :
    Broken [a] rest := by
  obtain ⟨b, hb⟩ := exists_secondOfFour a
  have hbegins : Begins ([a] ++ [b, 0x80]) := begins_four four hb rfl
  refine .of_scan (by simp) hbegins.shorten ?_ fun b hb more => ?_
  · simp only [scan, if_neg one, if_neg two, if_neg three, if_pos four, List.head?_cons]
  · rw [List.singleton_append, scan.eq_def]
    simp only [if_neg one, if_neg two, if_neg three, if_pos four, stops b hb, Bool.false_eq_true,
      if_false, List.head?_cons]

theorem broken_four_second {b : UInt8} (hb : secondOfFour a b = true)
    (stops : ∀ c ∈ rest.head?, isTail c = false) : Broken [a, b] rest := by
  have hbegins : Begins ([a, b] ++ [0x80]) := begins_four four hb rfl
  refine .of_scan (by simp) hbegins.shorten ?_ fun c hc more => ?_
  · simp only [scan, if_neg one, if_neg two, if_neg three, if_pos four, hb, if_true,
      List.head?_cons]
  · rw [List.cons_append, List.singleton_append, scan.eq_def]
    simp only [if_neg one, if_neg two, if_neg three, if_pos four, hb, if_true, stops c hc,
      Bool.false_eq_true, if_false, List.head?_cons]

theorem broken_four_third {b c : UInt8} (hb : secondOfFour a b = true) (hc : isTail c = true)
    (stops : ∀ d ∈ rest.head?, isTail d = false) : Broken [a, b, c] rest := by
  refine .of_scan (by simp) (begins_four four hb hc) ?_ fun d hd more => ?_
  · simp only [scan, if_neg one, if_neg two, if_neg three, if_pos four, hb, hc, if_true,
      List.head?_cons]
  · rw [List.cons_append, List.cons_append, List.singleton_append, scan.eq_def]
    simp only [if_neg one, if_neg two, if_neg three, if_pos four, hb, hc, if_true, stops d hd,
      Bool.false_eq_true, if_false, List.head?_cons]

end Four

end Lead

/-- How bytes start, and what is found there: a character, or something broken. -/
inductive Starts : List UInt8 → Option Char → List UInt8 → Prop
  | char (c : Char) (rest : List UInt8) : Starts (String.utf8EncodeChar c ++ rest) (some c) rest
  | broken {start rest : List UInt8} (h : Broken start rest) : Starts (start ++ rest) none rest

theorem starts_char {bytes : List UInt8} {c : Char} (h : String.utf8EncodeChar c = bytes)
    (rest : List UInt8) : Starts (bytes ++ rest) (some c) rest :=
  h ▸ .char c rest

/-- The cases are those of the scan: one for each length of a character, and one for each byte of
it that may be missing or wrong. -/
theorem scan_head {bytes : List UInt8} (h : bytes ≠ []) :
    ∃ found rest, Starts bytes found rest ∧ scan bytes = found :: scan rest := by
  have hend {P : UInt8 → Bool} : ∀ x ∈ ([] : List UInt8).head?, P x = false := by simp
  have hstops {P : UInt8 → Bool} {b : UInt8} {s : List UInt8} (hb : ¬ P b = true) :
      ∀ x ∈ (b :: s).head?, P x = false := by
    intro x hx
    rw [← Option.some.inj hx]
    exact Bool.eq_false_iff.mpr hb
  fun_cases scan bytes
  case case1 => exact absurd rfl h
  case case2 a s one => exact ⟨_, s, starts_char (encode_one one) s, rfl⟩
  case case3 a one two => exact ⟨_, [], .broken (broken_two one two hend), rfl⟩
  case case4 a one two b s hb => exact ⟨_, s, starts_char (encode_two two hb) s, rfl⟩
  case case5 a one two b s hb =>
    exact ⟨_, b :: s, .broken (broken_two one two (hstops hb)), rfl⟩
  case case6 a one two three =>
    exact ⟨_, [], .broken (broken_three_first one two three hend), rfl⟩
  case case7 a one two three b hb =>
    exact ⟨_, [], .broken (broken_three_second one two three hb hend), rfl⟩
  case case8 a one two three b hb c s hc =>
    exact ⟨_, s, starts_char (encode_three three hb hc) s, rfl⟩
  case case9 a one two three b hb c s hc =>
    exact ⟨_, c :: s, .broken (broken_three_second one two three hb (hstops hc)), rfl⟩
  case case10 a one two three b s hb =>
    exact ⟨_, b :: s, .broken (broken_three_first one two three (hstops hb)), rfl⟩
  case case11 a one two three four =>
    exact ⟨_, [], .broken (broken_four_first one two three four hend), rfl⟩
  case case12 a one two three four b hb =>
    exact ⟨_, [], .broken (broken_four_second one two three four hb hend), rfl⟩
  case case13 a one two three four b hb c hc =>
    exact ⟨_, [], .broken (broken_four_third one two three four hb hc hend), rfl⟩
  case case14 a one two three four b hb c hc d s hd =>
    exact ⟨_, s, starts_char (encode_four four hb hc hd) s, rfl⟩
  case case15 a one two three four b hb c hc d s hd =>
    exact ⟨_, d :: s, .broken (broken_four_third one two three four hb hc (hstops hd)), rfl⟩
  case case16 a one two three four b hb c s hc =>
    exact ⟨_, c :: s, .broken (broken_four_second one two three four hb (hstops hc)), rfl⟩
  case case17 a one two three four b s hb =>
    exact ⟨_, b :: s, .broken (broken_four_first one two three four (hstops hb)), rfl⟩
  case case18 a s one two three four =>
    refine ⟨_, s, .broken (.alien (b := a) (not_begins fun more => ?_)), rfl⟩
    rw [List.singleton_append, scan.eq_def]
    simp only [if_neg one, if_neg two, if_neg three, if_neg four, List.head?_cons]

theorem Broken.nonempty {start rest : List UInt8} (h : Broken start rest) : start ≠ [] := by
  cases h with
  | cut nonempty _ _ _ => exact nonempty
  | alien _ => exact List.cons_ne_nil _ _

/-- Nothing longer begins a character there. -/
theorem Broken.longest {start rest p : List UInt8} (h : Broken start rest)
    (hp : p <+: start ++ rest) (begins : Begins p) : p <+: start := by
  rcases List.prefix_or_prefix_of_prefix hp (List.prefix_append start rest) with
    hshort | ⟨t, rfl⟩
  · exact hshort
  · cases t with
    | nil => exact ⟨[], by rw [List.append_nil, List.append_nil]⟩
    | cons b t =>
      obtain ⟨t', rfl⟩ := (List.prefix_append_right_inj start).mp hp
      have hlonger : Begins (start ++ [b]) := by
        rw [List.append_cons] at begins
        exact begins.shorten
      cases h with
      | cut _ _ _ stops => exact absurd hlonger (stops b rfl)
      | alien alien => exact absurd hlonger.shorten alien

theorem eq_of_prefix_byte {p : List UInt8} {b : UInt8} (h : p <+: [b]) (nonempty : p ≠ []) :
    p = [b] :=
  h.eq_of_length_le (List.length_pos_iff.mpr nonempty)

theorem char_of_prefix {c c' : Char}
    (h : String.utf8EncodeChar c <+: String.utf8EncodeChar c') : c = c' := by
  obtain ⟨more, hmore⟩ := h
  have hscan := scan_utf8EncodeChar c' []
  rw [List.append_nil, ← hmore, scan_utf8EncodeChar] at hscan
  exact Option.some.inj (List.cons.inj hscan).1

/-- No character stands where something is broken. -/
theorem Broken.not_char {start rest : List UInt8} (h : Broken start rest) (c : Char) :
    ¬ String.utf8EncodeChar c <+: start ++ rest := by
  intro hc
  have hstart := h.longest hc ⟨c, List.prefix_rfl⟩
  cases h with
  | cut _ begins incomplete _ =>
    obtain ⟨c', hc'⟩ := begins
    obtain rfl := char_of_prefix (hstart.trans hc')
    exact incomplete c (hc'.eq_of_length_le hstart.length_le)
  | alien alien =>
    have hb := eq_of_prefix_byte hstart String.utf8EncodeChar_ne_nil
    exact alien ⟨c, hb ▸ List.prefix_rfl⟩

theorem Broken.unique {start rest start' rest' : List UInt8} (h : Broken start rest)
    (h' : Broken start' rest') (heq : start ++ rest = start' ++ rest') : start = start' := by
  have hprefix : start <+: start' ++ rest' := heq ▸ List.prefix_append start rest
  have hprefix' : start' <+: start ++ rest := heq ▸ List.prefix_append start' rest'
  cases h with
  | cut nonempty begins incomplete stops =>
    have hstart := h'.longest hprefix begins
    cases h' with
    | cut _ begins' _ _ =>
      have hstart' := (Broken.cut nonempty begins incomplete stops).longest hprefix' begins'
      exact hstart.eq_of_length_le hstart'.length_le
    | alien _ => exact eq_of_prefix_byte hstart nonempty
  | alien alien =>
    cases h' with
    | cut nonempty begins _ _ =>
      exact (eq_of_prefix_byte ((Broken.alien alien).longest hprefix' begins) nonempty).symm
    | alien _ => rw [(List.cons.inj heq).1]

/-- What is broken is found as one thing. -/
theorem Broken.scan_eq {start rest : List UInt8} (h : Broken start rest) :
    scan (start ++ rest) = none :: scan rest := by
  obtain ⟨found, rest', hstarts, hscan⟩ :=
    scan_head (List.append_ne_nil_of_left_ne_nil h.nonempty rest)
  generalize hbytes : start ++ rest = bytes at hstarts hscan
  cases hstarts with
  | char c rest' => exact absurd ⟨rest', hbytes.symm⟩ (h.not_char c)
  | broken h' =>
    obtain rfl := h.unique h' hbytes
    rw [hscan, List.append_cancel_left hbytes]

theorem scan_encode_append (s : String) (rest : List UInt8) :
    scan (encode s ++ rest) = s.toList.map some ++ scan rest := by
  rw [encode]
  induction s.toList with
  | nil => rfl
  | cons c cs ih =>
    rw [List.flatMap_cons, List.append_assoc, scan_utf8EncodeChar, ih]
    rfl

/-- Text is left as it is. -/
theorem lossy_encode_append (s : String) (rest : List UInt8) :
    lossy (encode s ++ rest) = s ++ lossy rest := by
  have hkept : (s.toList.map some).map (·.getD (Char.ofNat 0xFFFD)) = s.toList := by
    rw [List.map_map]
    exact List.map_id _
  rw [lossy, scan_encode_append, List.map_append, hkept, String.ofList_append,
    String.ofList_toList, lossy]

theorem lossy_encode (s : String) : lossy (encode s) = s := by
  have happend := lossy_encode_append s []
  have hempty : lossy [] = "" := rfl
  rwa [List.append_nil, hempty, String.append_empty] at happend

/-- One character is put for what is broken. -/
theorem Broken.lossy {start rest : List UInt8} (h : Broken start rest) :
    lossy (start ++ rest) = "\uFFFD" ++ lossy rest := by
  rw [Utf8.lossy, h.scan_eq, List.map_cons, String.ofList_cons]
  rfl

example : lossy [0x61, 0xE2, 0x82, 0x61, 0xFF, 0x80] = "a\uFFFDa\uFFFD\uFFFD" := rfl

/-- There is no third way for bytes to go on. -/
theorem exists_starts {bytes : List UInt8} (h : bytes ≠ []) :
    ∃ found rest, Starts bytes found rest := by
  obtain ⟨found, rest, hstarts, _⟩ := scan_head h
  exact ⟨found, rest, hstarts⟩

end AdminPlane.Text.Utf8
